import DarkEden.Atomicity
import DarkEden.NearbyTree

namespace DarkEden.Selectable

open Interaction SearchTree Protocol Client Engine EngineRules NearbyTree ReaderRules Traversal

variable {sys : Platform} {T : Target sys} {process client : PEProcess} {processId : DWord}

section Listing

attribute [local irreducible] readDword

variable {l : Log UserAns}

theorem wp_readOwnName (processId : DWord) :
    wp (T.served process) (readOwnName sys processId) l fun _ _ => True := by
  rw [readOwnName, wp_bind]
  exact wp_mono (wp_readText _ _ _) fun _ _ _ => trivial

structure Surveyed (T : Target sys) (process : PEProcess) (characters : List Character)
    (manager header root : ULong) : Prop where
  toManager : seen T process (sys.psGetProcessSectionBaseAddress process +
    otherCharacterNameOffset) = some manager
  manager_ne : manager ≠ 0
  toHeader : T.field manager 0x34 = some header
  header_ne : header ≠ 0
  toRoot : T.field header 4 = some root
  listed : ∀ t, Represents T header t root → ∀ c ∈ characters, Listed T t c.id

theorem wp_walkTree (hpid : processId ≠ 0) (header root : ULong) :
    wp (T.served process) (walkTree sys processId (sys.psGetProcessSectionBaseAddress process) header
      root).run l fun r _ => ∀ found, r = .ok found →
        ∀ t, Represents T header t root → ∀ c ∈ found, Listed T t c.id := by
  have hstart : ∀ t, Represents T header t root → Sound T header t ⟨[root], [], [], []⟩ :=
    fun t ht => ⟨fun node hnode => ⟨t, .root, by rwa [List.mem_singleton.mp hnode]⟩, nofun⟩
  refine wp_mono ((reads_agrees hpid).walkTree
    (J := fun walk => ∀ t, Represents T header t root → Sound T header t walk) hstart
    (fun walk walk' h hpass t ht => (h t ht).visited (visited_of_pass hpass)) l)
    fun r l' ⟨walk, hsound, hpass⟩ => ?_
  rintro found rfl t ht
  cases visited_of_pass hpass
  exact (hsound t ht).characters

/-- Characters are only listed of a process, and then they come from its tree. -/
theorem wp_readNearbyCharacters (hagrees : Agrees T process processId) :
    wp (T.served process) (readNearbyCharacters sys processId).run l fun r _ => ∀ listing,
      r = .ok listing → processId ≠ 0 ∧ ∃ manager header root,
        Surveyed T process listing.characters manager header root := by
  by_cases hpid : processId = 0
  · subst hpid
    refine wp_mono (Traversal.wp_readNearbyCharacters (B := fun _ => True)
      (R := fun _ _ value => value = none) (O := fun _ => True) (W := fun _ _ _ _ => True)
      (wp_mono (wp_findImageBase 0 l) fun _ _ _ => trivial)
      (fun base address l _ => wp_readDword_refused base address l) (fun _ => wp_readOwnName 0)
      fun _ _ _ _ _ hstart => nomatch hstart.toManager) fun r _ hr listing hlisting => ?_
    subst hlisting
    generalize hok : (Except.ok listing : Except WString Listing) = r at hr
    cases hr with
    | walked hstart => cases hstart.toManager
    | _ => cases hok
  refine wp_mono (Traversal.wp_readNearbyCharacters
    (B := fun base => base = some (sys.psGetProcessSectionBaseAddress process))
    (R := fun _ address value => value = seen T process address) (O := fun _ => True)
    (W := fun _ header root r => ∀ found, r = .ok found → ∀ t, Represents T header t root →
      ∀ c ∈ found, Listed T t c.id)
    (wp_mono (wp_findImageBase processId l) fun r _ hr => hr.trans hagrees)
    (fun base address l hbase => ?_) (fun _ => wp_readOwnName processId)
    (fun base manager header root l hstart => ?_)) fun r _ hr listing hlisting => ?_
  · obtain rfl := Option.some.inj hbase
    exact wp_readDword hpid address l
  · obtain rfl := Option.some.inj hstart.toBase
    exact wp_walkTree hpid header root
  · subst hlisting
    generalize hok : (Except.ok listing : Except WString Listing) = r at hr
    cases hr with
    | @walked base manager header root ownName found hstart hfound =>
      obtain ⟨-, hfound⟩ := hfound
      obtain rfl := Option.some.inj hstart.toBase
      match found, hok with
      | .ok found, hok =>
        refine ⟨hpid, manager, header, root, hstart.toManager.symm, hstart.manager_ne,
          field_of_read hstart.toHeader, hstart.header_ne, field_of_read hstart.toRoot,
          fun t ht c hc => ?_⟩
        rw [publish_eq_ok hok.symm, nameCharacters_eq] at hc
        obtain ⟨c', hc', rfl⟩ := List.mem_map.mp hc
        exact hfound found rfl t ht c' hc'
    | _ => cases hok

end Listing

section Selection

/-- The tree of nearby characters that the managers of the game keep. -/
structure Nearby (T : Target sys) (imageBase : ULongPtr) (t : BinaryTree TreeNode)
    (manager header root : ULong) : Prop where
  toManager : T.dword (imageBase + otherCharacterNameOffset) = some manager
  toHeader : T.field manager 0x34 = some header
  toRoot : T.field header 4 = some root
  tree : Represents T header t root
  ordered : Ordered TreeNode.order t
  height : t.height ≤ 64

/-- A controller of the expected version whose slot can be written. -/
structure Controller (T : Target sys) (imageBase : ULongPtr) (controller : ULong) : Prop where
  toController : T.dword (imageBase + targetControllerOffset) = some controller
  controller_ne : controller ≠ 0
  vtable : ∃ vtable, T.dword (controller.setWidth 64) = some vtable ∧
    vtable.setWidth 64 = imageBase + targetControllerVtableOffset
  aligned : (controller.setWidth 64 + 0x28 : ULongPtr) &&& 3 = 0
  writable : ByteMemory.covers T.writable (controller.setWidth 64 + 0x28) 4

theorem Controller.writeCheck {imageBase : ULongPtr} {controller : ULong}
    (h : Controller T imageBase controller) : WriteCheck sys (controller.setWidth 64 + 0x28) := by
  have hlast := T.user_of_readable _
    (T.readable_of_writable _ (ByteMemory.covers_iff.mp h.writable 3 (by decide)))
  have hlt := controller.isLt
  refine ⟨by bv_omega, not_or.mpr ⟨?_, not_not.mpr h.aligned⟩⟩
  rw [gt_iff_lt, BitVec.not_lt]
  bv_omega

theorem imageRange_of_le {imageBase offset : ULongPtr} (hbase : imageBase ≠ 0)
    (hlow : imageBase ≤ 0xFFFFFFFF) (hoffset : offset.toNat < 2 ^ 32)
    (h : imageBase + offset ≤ sys.mmHighestUserAddress) : ImageRange sys imageBase offset := by
  refine ⟨hbase, ?_⟩
  bv_omega

theorem slotOf_of_listed {characters : List Character} {manager header root controller id : ULong}
    (hsurvey : Surveyed T process characters manager header root)
    (hcontroller : Controller T (sys.psGetProcessSectionBaseAddress process) controller)
    (hsearch : T.search id header 64 root) :
    T.slotOf (sys.psGetProcessSectionBaseAddress process) id =
      some (controller.setWidth 64 + 0x28) := by
  obtain ⟨⟨hreachable, hlow, hhigh⟩, hmanager⟩ := seen_eq_some.mp hsurvey.toManager
  have hmanager_le := le_of_dword hmanager
  have hcontroller_le := le_of_dword hcontroller.toController
  obtain ⟨vtable, hvtable, hversion⟩ := hcontroller.vtable
  have hbase : sys.psGetProcessSectionBaseAddress process ≤ 0xFFFFFFFF :=
    BitVec.le_of_lt (Nat.lt_of_lt_of_le hlow hhigh)
  have hother := imageRange_of_le hreachable.2.2 hbase (by decide) hmanager_le
  have hvtable_le : targetControllerVtableOffset.toNat ≤ otherCharacterNameOffset.toNat := by decide
  refine Target.slotOf_eq_some.mpr ⟨controller, Target.controllerOf_eq_some.mpr
    ⟨imageRange_of_le hreachable.2.2 hbase (by decide) hcontroller_le, hother,
      ⟨hreachable.2.2, by have := hother.2; omega⟩, hcontroller.toController,
      hcontroller.controller_ne, manager, vtable, header, root, hmanager, hsurvey.manager_ne, hvtable,
      hversion, hsurvey.toHeader, hsurvey.header_ne, hsurvey.toRoot, hsearch⟩,
    rfl, hcontroller.writeCheck, hcontroller.writable⟩

theorem wp_executeSelectTargetRequest {request : SelectTargetRequest} {slot : ULongPtr}
    (hvalid : validSelectTargetRequest request) (hready : T.ready ⟨process⟩)
    (hslot : T.slotOf (sys.psGetProcessSectionBaseAddress process) request.targetId = some slot)
    {l : WinLog} (hl : T.after l = T.byte) :
    wp (T.openedSystem true process) (executeSelectTargetRequest sys request) l fun response _ =>
      response = ⟨version, sizeofSelectTargetResponse, statusSuccess, request.targetId⟩ := by
  rw [executeSelectTargetRequest, if_neg (by simpa using hvalid)]
  refine Target.wp_withReader_opens (J := fun l => T.after l = T.byte)
    (Target.openedSystem_keeps (Target.system_keeps T.byte) true) (fun _ _ _ hx => hx.2)
    (fun _ _ hx => hx.1.trans (of_decide_eq_true hready).1)
    (Target.validSelectTargetRequest_processId hvalid)
    (fun r => ⟨fun _ _ _ _ => trivial, fun _ _ _ hr _ _ => hr⟩) (fun l hl => ?_) hl
  have hselect := Target.wp_select_settled (T := T) ⟨process⟩ (l := []) rfl request.targetId
  rw [if_pos hready, hslot] at hselect
  refine wp_mono (Target.wp_opened (Target.wp_performed hselect hl)) fun response l' h => ?_
  obtain ⟨_, _, hsettled⟩ := h
  exact hsettled.1

theorem wp_selectNearbyTarget {targetId : ULong} {slot : ULongPtr} (hpid : processId ≠ 0)
    (hid : targetId ≠ 0) (hid' : targetId ≠ 0xFFFFFFFF) (hready : T.ready ⟨process⟩)
    (hdevice : T.api (.createFileW (genericRead ||| genericWrite)) = none)
    (hslot : T.slotOf (sys.psGetProcessSectionBaseAddress process) targetId = some slot)
    {l : WinLog} (hl : T.after l = T.byte) :
    wp (T.openedSystem true process)
      (System.runUser sys client (selectNearbyTarget sys processId targetId)) l
      fun outcome _ => outcome.ok = true := by
  let request : SelectTargetRequest :=
    ⟨version, sizeofSelectTargetRequest, processId.setWidth 64, targetId, 0⟩
  obtain ⟨hwide, hsmall⟩ := widened_processId hpid
  have hvalid : validSelectTargetRequest request :=
    decide_eq_true ⟨rfl, rfl, hwide, hsmall, hid, hid', rfl⟩
  rw [selectNearbyTarget, if_neg (by simpa [request] using hvalid), System.runUser,
    Program.translate_bind, wp_bind]
  refine ⟨trivial, fun opened hopened => ?_⟩
  replace hopened : opened = none := hopened.1.trans hdevice
  subst hopened
  have hl' : T.after (l ++ [⟨.user (.createFileW (genericRead ||| genericWrite)), none⟩]) = T.byte := by
    rwa [Target.after_append_of_not_writes rfl]
  have hgate : Gate (System.irpOf client selectTarget request.encode sizeofSelectTargetRequest
      sizeofSelectTargetResponse) request.encode selectTarget sizeofSelectTargetRequest
      sizeofSelectTargetResponse := ⟨rfl, rfl, rfl, BitVec.le_refl _, rfl, rfl⟩
  change wp _ (System.deviceIoControl sys client _ _ _ _ >>= _) _ _
  rw [wp_bind, System.deviceIoControl, wp_bind]
  refine wp_deviceControl_select (J := fun l => T.after l = T.byte)
    (Target.openedSystem_keeps (Target.system_keeps T.byte) true)
    (fun _ _ hx => hx.1.trans (of_decide_eq_true hready).1) hgate
    (by rwa [SelectTargetRequest.decode_encode]) (fun l hl => ?_) hl'
  rw [SelectTargetRequest.decode_encode]
  refine wp_mono (wp_executeSelectTargetRequest hvalid hready hslot hl) fun response _ hresponse => ?_
  subst hresponse
  rw [wp_pure, System.ioctlResult_success (SelectTargetResponse.encode_lt _)]
  exact ResponseFormat.selectReply_selected ⟨rfl, rfl, fun _ => rfl⟩ rfl

/-- A character in the tree is selected, unless its id is reserved. -/
theorem wp_deSelectNearbyCharacter {id : ULong} {slot : ULongPtr} {errorOutput : Buffer}
    (hpid : processId ≠ 0) (hid : id ≠ 0) (hid' : id ≠ 0xFFFFFFFF) (herror : errorOutput.usable)
    (hready : T.ready ⟨process⟩) (hdevice : T.api (.createFileW (genericRead ||| genericWrite)) = none)
    (hslot : T.slotOf (sys.psGetProcessSectionBaseAddress process) id = some slot)
    {l : WinLog} (hl : T.after l = T.byte) :
    wp (T.openedSystem true process)
      (System.runUser sys client (deSelectNearbyCharacter sys processId id errorOutput)) l
      fun returned _ => returned.code = 0 := by
  have hgood : ¬(processId = 0 ∨ id = 0 ∨ id = 0xFFFFFFFF ∨ !errorOutput.usable) :=
    not_or.mpr ⟨hpid, not_or.mpr ⟨hid, not_or.mpr ⟨hid', by simp [herror]⟩⟩⟩
  rw [deSelectNearbyCharacter, if_neg hgood, System.runUser, Program.translate_bind, wp_bind]
  refine wp_mono (wp_selectNearbyTarget hpid hid hid' hready hdevice hslot hl) fun outcome _ hok => ?_
  rw [if_neg (by simp [hok])]
  rfl

end Selection

section Claim

/-- The game keeps a tree of nearby characters and a controller for the selection. -/
def Playing (T : Target sys) (imageBase : ULongPtr) : Prop :=
  (∃ t manager header root, Nearby T imageBase t manager header root) ∧
    ∃ controller, Controller T imageBase controller

/-- `ReadNearbyCharacters` succeeds, and a character with the id is on its list. -/
def Lists (sys : Platform) (client : PEProcess) (processId : DWord) (env : WinEnv) (id : ULong) :
    Prop :=
  ∃ listing, ((System.runUser sys client (readNearbyCharacters sys processId).run).run env []).1 =
    .ok listing ∧ ∃ c ∈ listing.characters, c.id = id

def selectionCode (sys : Platform) (client : PEProcess) (processId : DWord) (id : ULong)
    (errorOutput : Buffer) (env : WinEnv) : Nat :=
  ((System.runUser sys client (deSelectNearbyCharacter sys processId id errorOutput)).run env []).1.code

/-- Whoever is listed can be selected, as long as the memory stays as it is. -/
theorem listed_selectable (T : Target sys) {listEnv selectEnv : WinEnv}
    (hlistFits : ∀ l o, T.Fits l o (listEnv l o)) (hselectFits : ∀ l o, T.Fits l o (selectEnv l o))
    (hlistOpens : ∀ l o, Target.Opens sys false process o (listEnv l o))
    (hselectOpens : ∀ l o, Target.Opens sys true process o (selectEnv l o))
    (hplaying : Playing T (sys.psGetProcessSectionBaseAddress process))
    (hagrees : Agrees T process processId)
    (hdevice : T.api (.createFileW (genericRead ||| genericWrite)) = none)
    {errorOutput : Buffer} (herror : errorOutput.usable) {id : ULong}
    (hlisted : Lists sys client processId listEnv id) (hid : id ≠ 0xFFFFFFFF) :
    selectionCode sys client processId id errorOutput selectEnv = 0 := by
  obtain ⟨listing, hlisting, c, hc, rfl⟩ := hlisted
  have hlist : ∀ l o, (T.openedSystem false process).rely l o (listEnv l o) :=
    fun l o => ⟨hlistFits l o, hlistOpens l o⟩
  have hselect : ∀ l o, (T.openedSystem true process).rely l o (selectEnv l o) :=
    fun l o => ⟨hselectFits l o, hselectOpens l o⟩
  obtain ⟨hpid, manager, header, root, hsurvey⟩ :=
    (run_of_wp hlist (Target.wp_runUser (wp_readNearbyCharacters hagrees) (l := []) rfl)).1 _ hlisting
  obtain ⟨⟨t, manager', header', root', hnearby⟩, controller, hcontroller⟩ := hplaying
  obtain ⟨⟨hreachable, -⟩, hmanager⟩ := seen_eq_some.mp hsurvey.toManager
  obtain rfl : manager = manager' := Option.some.inj (hmanager.symm.trans hnearby.toManager)
  obtain rfl : header = header' := Option.some.inj (hsurvey.toHeader.symm.trans hnearby.toHeader)
  obtain rfl : root = root' := Option.some.inj (hsurvey.toRoot.symm.trans hnearby.toRoot)
  have hmember : Listed T t c.id := hsurvey.listed t hnearby.tree c hc
  have hsearch := search_of_listed hnearby.tree hnearby.ordered hnearby.height hmember
  exact run_of_wp hselect (wp_deSelectNearbyCharacter hpid hmember.1 hid herror hreachable.2.1
    hdevice (slotOf_of_listed hsurvey hcontroller hsearch) rfl)

def controllerCells : List (ULongPtr × ULong) := [
  (0x00EB3254, 0x01000000), (0x01000000, 0x009D8310), (0x01000028, 0), (0x00EB31D0, 0x01100000)]

/-- A game with two characters, one of them with the greatest id. -/
def crowdedGame (api : (o : UserApi) → UserApiAns o) : Target samplePlatform :=
  .ofCells samplePlatform api <| controllerCells ++ [
    (0x01100034, 0x01200000), (0x01200004, 0x01300000), -- manager, header
    (0x01300000, 0x01200000), (0x01300008, 0x01310000), -- the root
    (0x01300010, 5), (0x01300014, 0x01400000),
    (0x01310000, 0), (0x01310004, 0x01300000), (0x01310008, 0x01200000), -- its right child
    (0x01310010, 0xFFFFFFFF), (0x01310014, 0x01410000),
    (0x01400008, 5), (0x0140000C, 0x00200010), (0x01410008, 0xFFFFFFFF), (0x0141000C, 0x00200010)]

def crowd : BinaryTree TreeNode :=
  .node ⟨0x01300000, 5⟩ .nil (.node ⟨0x01310000, 0xFFFFFFFF⟩ .nil .nil)

/-- Only a client with all rights gets at the device. -/
def readOnlyApi : (o : UserApi) → UserApiAns o
  | .createFileW access => if access = genericRead then none else some 5
  | o => gameApi o

/-- The file of the game is mapped at `0x500000` for the user-mode side. -/
def movedApi : (o : UserApi) → UserApiAns o
  | .virtualQueryEx address =>
    if address < 0x500000 then some ⟨address, 0, 0x500000 - address, false, false⟩
    else some ⟨0x500000, 0x500000, 0x1000, true, true⟩
  | o => gameApi o

/-- A game without characters, unless one takes it to lie at `0x500000`. -/
def movedGame : Target samplePlatform :=
  .ofCells samplePlatform movedApi <| controllerCells ++ [
    (0x01100034, 0x01500000), (0x01500004, 0x01500000), -- manager, header
    (0x01000034, 0x01200000), (0x01100004, 0x01300000), -- and what lies 1 MiB below
    (0x01200000, 0), (0x01200008, 0), (0x01200010, 5), (0x01200014, 0x01400000),
    (0x01300008, 5), (0x0130000C, 0x00200010)]

theorem crowd_ordered : Ordered TreeNode.order crowd := by
  refine ⟨trivial, ⟨trivial, trivial, nofun, nofun⟩, nofun, fun b hb => ?_⟩
  obtain rfl | hb | hb := hb
  · decide
  · exact hb.elim
  · exact hb.elim

theorem crowdedGame_represents {api : (o : UserApi) → UserApiAns o}
    (h : api = gameApi ∨ api = readOnlyApi) :
    Represents (crowdedGame api) 0x01200000 crowd 0x01300000 := by
  have hheader : IsLeaf 0x01200000 0x01200000 := .inr rfl
  obtain rfl | rfl := h <;>
    exact ⟨rfl, by decide, by decide +kernel,
      ⟨0x01200000, by decide +kernel, fun hn => absurd hheader hn, hheader⟩,
      0x01310000, by decide +kernel, fun _ => by decide +kernel, rfl, by decide, by decide +kernel,
      ⟨0, by decide +kernel, fun hn => absurd (.inl rfl) hn, .inl rfl⟩,
      0x01200000, by decide +kernel, fun hn => absurd hheader hn, hheader⟩

theorem crowdedGame_playing {api : (o : UserApi) → UserApiAns o}
    (h : api = gameApi ∨ api = readOnlyApi) : Playing (crowdedGame api) 0x400000 := by
  have htree := crowdedGame_represents h
  refine ⟨⟨crowd, 0x01100000, 0x01200000, 0x01300000, ?_⟩, 0x01000000, ?_⟩
  · obtain rfl | rfl := h <;>
      exact ⟨by decide +kernel, by decide +kernel, by decide +kernel, htree, crowd_ordered, by decide⟩
  · obtain rfl | rfl := h <;>
      exact ⟨by decide +kernel, by decide, ⟨0x009D8310, by decide +kernel, by decide⟩, by decide,
        by decide +kernel⟩

theorem movedGame_playing : Playing movedGame 0x400000 :=
  ⟨⟨.nil, 0x01100000, 0x01500000, 0x01500000, by decide +kernel, by decide +kernel, by decide +kernel,
      .inr rfl, trivial, by decide⟩,
    0x01000000, by decide +kernel, by decide, ⟨0x009D8310, by decide +kernel, by decide⟩, by decide,
    by decide +kernel⟩

theorem lists_of_ids {env : WinEnv} (ids : List ULong)
    (h : ((System.runUser sys client (readNearbyCharacters sys processId).run).run env
      []).1.toOption.map (fun listing => listing.characters.map Character.id) = some ids)
    {id : ULong} (hid : id ∈ ids) : Lists sys client processId env id := by
  obtain ⟨listing, hlisting, rfl⟩ := Option.map_eq_some_iff.mp h
  obtain ⟨c, hc, rfl⟩ := List.mem_map.mp hid
  refine ⟨listing, ?_, c, hc, rfl⟩
  cases hr : ((System.runUser sys client (readNearbyCharacters sys processId).run).run env []).1 with
  | error e =>
    rw [hr] at hlisting
    cases hlisting
  | ok found =>
    rw [hr] at hlisting
    obtain rfl := Option.some.inj hlisting
    rfl

theorem crowdedGame_lists {api : (o : UserApi) → UserApiAns o} (h : api = gameApi ∨ api = readOnlyApi)
    {id : ULong} (hid : id ∈ [5, 0xFFFFFFFF]) :
    Lists samplePlatform 9 7 ((crowdedGame api).env 9 sampleImage) id := by
  obtain rfl | rfl := h <;> exact lists_of_ids _ (by decide +kernel) hid

theorem movedGame_lists : Lists samplePlatform 9 7 (movedGame.env 9 sampleImage) 5 :=
  lists_of_ids [5] (by decide +kernel) (.head _)

theorem crowdedGame_agrees {api : (o : UserApi) → UserApiAns o}
    (h : api = gameApi ∨ api = readOnlyApi) : Agrees (crowdedGame api) 9 7 := by
  rw [Agrees]
  obtain rfl | rfl := h <;> decide +kernel

theorem listed_selectable_sample :
    selectionCode samplePlatform 9 7 5 ⟨true, 256⟩ ((crowdedGame gameApi).env 9 sampleImage) = 0 :=
  listed_selectable (crowdedGame gameApi) ((crowdedGame gameApi).env_fits 9 sampleImage)
    ((crowdedGame gameApi).env_fits 9 sampleImage)
    (fun l o => ((crowdedGame gameApi).env_opens sampleImage_expected l o).restrict false)
    ((crowdedGame gameApi).env_opens sampleImage_expected) (crowdedGame_playing (.inl rfl))
    (crowdedGame_agrees (.inl rfl)) rfl rfl (crowdedGame_lists (.inl rfl) (.head _)) (by decide)

/-- What is listed and cannot be selected: the greatest id, what another image base shows, and
everything where the device does not open for writing. -/
theorem listed_not_selectable :
    (∃ (T : Target samplePlatform) (env : WinEnv), (∀ l o, T.Fits l o (env l o)) ∧
      (∀ l o, Target.Opens samplePlatform true 9 o (env l o)) ∧ Playing T 0x400000 ∧ Agrees T 9 7 ∧
      T.api (.createFileW (genericRead ||| genericWrite)) = none ∧
      Lists samplePlatform 9 7 env 0xFFFFFFFF ∧
      selectionCode samplePlatform 9 7 0xFFFFFFFF ⟨true, 256⟩ env = 1) ∧
    (∃ (T : Target samplePlatform) (env : WinEnv), (∀ l o, T.Fits l o (env l o)) ∧
      (∀ l o, Target.Opens samplePlatform true 9 o (env l o)) ∧ Playing T 0x400000 ∧
      T.api (.createFileW (genericRead ||| genericWrite)) = none ∧ Lists samplePlatform 9 7 env 5 ∧
      selectionCode samplePlatform 9 7 5 ⟨true, 256⟩ env = 2) ∧
    ∃ (T : Target samplePlatform) (env : WinEnv), (∀ l o, T.Fits l o (env l o)) ∧
      (∀ l o, Target.Opens samplePlatform true 9 o (env l o)) ∧ Playing T 0x400000 ∧ Agrees T 9 7 ∧
      Lists samplePlatform 9 7 env 5 ∧ selectionCode samplePlatform 9 7 5 ⟨true, 256⟩ env = 2 := by
  refine ⟨⟨crowdedGame gameApi, _, (crowdedGame gameApi).env_fits 9 sampleImage,
      (crowdedGame gameApi).env_opens sampleImage_expected, crowdedGame_playing (.inl rfl),
      crowdedGame_agrees (.inl rfl), rfl, crowdedGame_lists (.inl rfl) (.tail _ (.head _)), ?_⟩,
    ⟨movedGame, _, movedGame.env_fits 9 sampleImage, movedGame.env_opens sampleImage_expected,
      movedGame_playing, rfl, movedGame_lists, ?_⟩,
    ⟨crowdedGame readOnlyApi, _, (crowdedGame readOnlyApi).env_fits 9 sampleImage,
      (crowdedGame readOnlyApi).env_opens sampleImage_expected, crowdedGame_playing (.inr rfl),
      crowdedGame_agrees (.inr rfl), crowdedGame_lists (.inr rfl) (.head _), ?_⟩⟩
  · decide +kernel
  · decide +kernel
  · decide +kernel

end Claim

end DarkEden.Selectable
