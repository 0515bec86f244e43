import DarkEden.Selectable
import DarkEden.Selection

namespace DarkEden.KeyedSearch

open Interaction SearchTree Memory SelectTarget Protocol ReaderRules NearbyTree Selection
open Target (wp_fetch wp_fetchField)
open KernelProcessMemoryReader (destroy perform writeUInt32)

variable {sys : Platform} {T : Target sys}

def imageDword (T : Target sys) (imageBase offset : ULongPtr) : Option ULong :=
  if ImageRange sys imageBase offset then T.dword (imageBase + offset) else none

structure Manages (T : Target sys) (imageBase : ULongPtr) (t : BinaryTree TreeNode)
    (manager header root : ULong) : Prop where
  toManager : imageDword T imageBase otherCharacterNameOffset = some manager
  manager_ne : manager ≠ 0
  toHeader : T.field manager 0x34 = some header
  header_ne : header ≠ 0
  toRoot : T.field header 4 = some root
  tree : Represents T header t root
  actors : ∀ node, Occurs node t → (T.field node.address 0x14).isSome
  ordered : Ordered TreeNode.order t

structure Controls (T : Target sys) (imageBase : ULongPtr) (controller : ULong) : Prop where
  toController : imageDword T imageBase targetControllerOffset = some controller
  vtable : ∃ vtable, T.dword (controller.setWidth 64) = some vtable ∧
    vtable.setWidth 64 = imageBase + targetControllerVtableOffset

/-- The tree holds the id among the first 64 nodes of a path from its root, and the actor there
confirms it. -/
def Holds (T : Target sys) (t : BinaryTree TreeNode) (targetId : ULong) : Prop :=
  ∃ node depth, OccursAt node t depth ∧ depth < 64 ∧ node.key = targetId ∧
    ∃ actor xy, T.field node.address 0x14 = some actor ∧ actor ≠ 0 ∧
      T.field actor 8 = some targetId ∧ T.field actor 0x0C = some xy ∧
      xy &&& 0xFFFF < 5000 ∧ xy >>> 16 < 5000

section Memory

variable {imageBase offset : ULongPtr} {t : BinaryTree TreeNode} {header root controller value : ULong}

theorem imageDword_eq_some :
    imageDword T imageBase offset = some value ↔
      ImageRange sys imageBase offset ∧ T.dword (imageBase + offset) = some value := by
  rw [imageDword, Option.ite_none_right_eq_some]

theorem actorMatches_iff {id actor : ULong} :
    T.actorMatches id actor ↔ ∃ xy, T.field actor 8 = some id ∧ T.field actor 0x0C = some xy ∧
      xy &&& 0xFFFF < 5000 ∧ xy >>> 16 < 5000 := by
  rw [Target.actorMatches]
  constructor
  · intro h
    split at h
    · rename_i found xy hid hxy
      obtain ⟨⟨hfound, hx⟩, hy⟩ : (found = id ∧ xy &&& 0xFFFF < 5000) ∧ xy >>> 16 < 5000 := by
        simpa using h
      exact ⟨xy, by rw [hid, hfound], hxy, hx, hy⟩
    · cases h
  · rintro ⟨xy, hid, hxy, hx, hy⟩
    rw [hid, hxy]
    exact (Bool.and_eq_true _ _).mpr ⟨(Bool.and_eq_true _ _).mpr
      ⟨beq_self_eq_true id, decide_eq_true hx⟩, decide_eq_true hy⟩

theorem bears_iff {id node : ULong} :
    Bears T id node ↔ ∃ actor xy, T.field node 0x14 = some actor ∧ actor ≠ 0 ∧
      T.field actor 8 = some id ∧ T.field actor 0x0C = some xy ∧
      xy &&& 0xFFFF < 5000 ∧ xy >>> 16 < 5000 := by
  rw [Bears]
  constructor
  · intro h
    split at h
    · cases h
    · rename_i actor hactor
      obtain ⟨hne, hmatches⟩ := (Bool.and_eq_true _ _).mp h
      obtain ⟨xy, hxy⟩ := actorMatches_iff.mp hmatches
      exact ⟨actor, xy, hactor, of_decide_eq_true hne, hxy⟩
  · rintro ⟨actor, xy, hactor, hne, hxy⟩
    rw [hactor]
    exact (Bool.and_eq_true _ _).mpr ⟨decide_eq_true hne, actorMatches_iff.mpr ⟨xy, hxy⟩⟩

/-- The search of 64 nodes finds what the tree holds. -/
theorem search_iff_holds (ht : Represents T header t root) (hordered : Ordered TreeNode.order t)
    (targetId : ULong) : T.search targetId header 64 root ↔ Holds T t targetId := by
  rw [search_eq_descendWithin ht, Option.any_eq_true]
  constructor
  · intro ⟨node, hnode, hbears⟩
    obtain ⟨hkey, depth, hdepth, hoccurs⟩ := (descendWithin_eq_some hordered).mp hnode
    exact ⟨node, depth, hoccurs, hdepth, BitVec.eq_of_toNat_eq hkey, bears_iff.mp hbears⟩
  · intro ⟨node, depth, hoccurs, hdepth, hkey, hactor⟩
    have horder : node.order = targetId.toNat := congrArg BitVec.toNat hkey
    exact ⟨node, (descendWithin_eq_some hordered).mpr ⟨horder, depth, hdepth, hoccurs⟩,
      bears_iff.mpr hactor⟩

theorem Controls.controller_ne (h : Controls T imageBase controller) : controller ≠ 0 := by
  rintro rfl
  obtain ⟨vtable, hvtable, -⟩ := h.vtable
  rw [Target.dword, Target.peek, Option.ite_none_right_eq_some] at hvtable
  exact absurd hvtable.1.1.1 (by decide)

theorem imageRange_vtable (h : ImageRange sys imageBase otherCharacterNameOffset) :
    ImageRange sys imageBase targetControllerVtableOffset := by
  have hle : targetControllerVtableOffset.toNat ≤ otherCharacterNameOffset.toNat := by decide
  have hroom := h.2
  exact ⟨h.1, by omega⟩

end Memory

section Locating

variable {reader : KernelProcessMemoryReader} {α : Type} {l : ReaderLog} {Q : α → ReaderLog → Prop}

theorem succeeded_of_value? {r : MemoryReadResult 32} {value : ULong} (h : r.value? = some value) :
    r.succeeded = true ∧ r.value = value := by
  rw [MemoryReadResult.value?, Option.ite_none_right_eq_some, Option.some.injEq] at h
  exact h

theorem wp_fetch_readable (hready : T.ready reader) {address : ULongPtr} {value : ULong}
    (hvalue : T.dword address = some value) {f : MemoryReadResult 32 → Memory α}
    (h : ∀ r l', r.succeeded = true → r.value = value → wp (T.quiet reader) (f r) l' Q) :
    wp (T.quiet reader) (read 32 address >>= f) l Q := by
  apply wp_fetch hready
  intro r l' hr
  obtain ⟨hs, hv⟩ := succeeded_of_value? (hr.trans hvalue)
  exact h r l' hs hv

theorem wp_fetchField_readable (hready : T.ready reader) {pointer value : ULong} {offset : ULongPtr}
    (hvalue : T.field pointer offset = some value) {f : MemoryReadResult 32 → Memory α}
    (h : ∀ r l', r.succeeded = true → r.value = value → wp (T.quiet reader) (f r) l' Q) :
    wp (T.quiet reader) (readField pointer offset >>= f) l Q := by
  apply wp_fetchField hready
  intro r l' hr
  obtain ⟨hs, hv⟩ := succeeded_of_value? (hr.trans hvalue)
  exact h r l' hs hv

theorem wp_resolve_inside (hready : T.ready reader) {offset : ULongPtr}
    (hrange : ImageRange sys (sys.psGetProcessSectionBaseAddress reader.process) offset)
    {f : Resolved → Memory α} (h : ∀ l', wp (T.quiet reader)
      (f ⟨statusSuccess, sys.psGetProcessSectionBaseAddress reader.process + offset⟩) l' Q) :
    wp (T.quiet reader) (resolveImageOffset offset >>= f) l Q := by
  refine wp_ask_bind.mpr ⟨trivial, fun r hr => ?_⟩
  change if _ then _ else _ at hr
  rw [if_pos ⟨hready, hrange⟩] at hr
  subst hr
  exact h _

/-- Where a pass of the search may begin: the rest of the tree is readable. -/
def Descending (T : Target sys) (header node : ULong) : Prop :=
  ∃ t, Represents T header t node ∧ ∀ n, Occurs n t → (T.field n.address 0x14).isSome

theorem not_unread {r : MemoryReadResult 32} {pointer : ULong} {offset : ULongPtr}
    (hr : r.value? = T.field pointer offset) (h : (T.field pointer offset).isSome) :
    ¬(!r.succeeded) = true := by
  intro hs
  rw [Target.eq_none hr hs] at h
  cases h

/-- A child that is entered has its own readable part of the tree, and its parent field can be
read. -/
theorem returns_descending {header node child : ULong} {s : BinaryTree TreeNode}
    (hs : Represents T header s child) (hback : T.field child 4 = some node)
    (hactors : ∀ m, Occurs m s → (T.field m.address 0x14).isSome) {r : ULong ⊕ Except NtStatus Bool}
    {l l' : ReaderLog} (h : SearchStep.Returns
      (fun _ pointer offset r _ => r.value? = T.field pointer offset) node child l r l') :
    Sum.elim (Descending T header) (fun e => ∃ found, e = .ok found) r := by
  cases h with
  | unread hparent hunread => exact absurd hunread (not_unread hparent (by rw [hback]; rfl))
  | strange => exact ⟨false, rfl⟩
  | back => exact ⟨s, hs, hactors⟩

theorem wp_searchStep_readable (hready : T.ready reader) {targetId header node : ULong}
    (hnode : Descending T header node) :
    wp (T.quiet reader) (searchStep targetId header node) l fun r _ =>
      Sum.elim (Descending T header) (fun e => ∃ found, e = .ok found) r := by
  obtain ⟨t, ht, hactors⟩ := hnode
  refine wp_mono (Target.wp_searchStep hready targetId header node l) fun r l' h => ?_
  cases t with
  | nil =>
    cases h with
    | leaf => exact ⟨false, rfl⟩
    | unread hleaf => exact absurd ht hleaf
    | found hleaf => exact absurd ht hleaf
    | down hleaf => exact absurd ht hleaf
  | node n left right =>
    obtain ⟨rfl, -, hn, ⟨toLeft, hl, hlback, hleft⟩, toRight, hr, hrback, hright⟩ := ht
    cases h with
    | leaf => exact ⟨false, rfl⟩
    | unread _ hkey hs => exact absurd hs (not_unread hkey (by rw [hn]; rfl))
    | found _ _ _ _ h =>
      cases h with
      | unread hactor hs => exact absurd hs (not_unread hactor (hactors n (.inl rfl)))
      | null => exact ⟨false, rfl⟩
      | compared => exact ⟨_, rfl⟩
    | @down key _ _ _ _ hkey hs _ h =>
      have hvalue : n.key = key.value :=
        Option.some.inj (hn.symm.trans (Target.eq_some_value hkey hs))
      rw [← hvalue] at h
      -- The child on either side is that of a tree, which a parent field leads back from.
      obtain ⟨child, s, hchild, hback, hs, hsActors⟩ : ∃ child s,
          T.field n.address (if targetId < n.key then 0 else 8) = some child ∧
          (¬IsLeaf header child → T.field child 4 = some n.address) ∧ Represents T header s child ∧
          ∀ m, Occurs m s → (T.field m.address 0x14).isSome := by
        by_cases hlt : targetId < n.key
        · rw [if_pos hlt]
          exact ⟨toLeft, left, hl, hlback, hleft, fun m hm => hactors m (.inr (.inl hm))⟩
        · rw [if_neg hlt]
          exact ⟨toRight, right, hr, hrback, hright, fun m hm => hactors m (.inr (.inr hm))⟩
      cases h with
      | unread hread hunread => exact absurd hunread (not_unread hread (by rw [hchild]; rfl))
      | leaf => exact ⟨false, rfl⟩
      | @inner entered _ _ _ hread hsucceeded hinner h =>
        have hvalue : child = entered.value :=
          Option.some.inj (hchild.symm.trans (Target.eq_some_value hread hsucceeded))
        subst hvalue
        exact returns_descending hs (hback hinner) hsActors h

theorem wp_search_readable (hready : T.ready reader) {targetId header root : ULong}
    (hroot : Descending T header root) (n : Nat) :
    wp (T.quiet reader) (Program.loop (searchStep targetId header) n root) l fun r _ =>
      ∀ e ∈ r, ∃ found, e = .ok found := by
  refine wp_loop (fun _ node _ => Descending T header node) (fun k node l' hnode => ?_)
    (fun _ _ _ => nofun) n root l hroot
  refine wp_mono (wp_searchStep_readable hready hnode) fun r l'' hr => ?_
  cases r with
  | inl child => exact hr
  | inr e =>
    intro e' he'
    obtain rfl := Option.some.inj he'
    exact hr

/-- A readable tree is searched to the end: the controller is found, or the target is not. -/
theorem wp_locate_readable (hready : T.ready reader) {t : BinaryTree TreeNode}
    {manager header root controller : ULong}
    (hmanages : Manages T (sys.psGetProcessSectionBaseAddress reader.process) t manager header root)
    (hcontrols : Controls T (sys.psGetProcessSectionBaseAddress reader.process) controller)
    (targetId : ULong) :
    wp (T.quiet reader) (locate targetId) l fun r _ =>
      r = .error statusNotFound ∨ ∃ found, r = .ok found := by
  obtain ⟨hmanagerRange, hmanager⟩ := imageDword_eq_some.mp hmanages.toManager
  obtain ⟨hcontrollerRange, hcontroller⟩ := imageDword_eq_some.mp hcontrols.toController
  obtain ⟨vtable, hvtable, hversion⟩ := hcontrols.vtable
  have hsuccess : ¬(!ntSuccess statusSuccess) = true := by decide
  rw [locate]
  apply wp_resolve_inside hready hcontrollerRange
  intro l₁
  rw [if_neg hsuccess]
  apply wp_resolve_inside hready hmanagerRange
  intro l₂
  rw [if_neg hsuccess]
  apply wp_resolve_inside hready (imageRange_vtable hmanagerRange)
  intro l₃
  rw [if_neg hsuccess]
  apply wp_fetch_readable hready hcontroller
  intro c l₄ hcs hcv
  apply wp_fetch_readable hready hmanager
  intro m l₅ hms hmv
  rw [if_neg (by simp [hcs]), if_neg (by simp [hms]), hcv, hmv,
    if_neg (not_or.mpr ⟨hcontrols.controller_ne, hmanages.manager_ne⟩)]
  apply wp_fetch_readable hready hvtable
  intro v l₆ hvs hvv
  rw [if_neg (by simp [hvs]), hvv, if_neg (not_not.mpr hversion)]
  apply wp_fetchField_readable hready hmanages.toHeader
  intro h l₇ hhs hhv
  rw [if_neg (by simp [hhs]), hhv, if_neg hmanages.header_ne]
  apply wp_fetchField_readable hready hmanages.toRoot
  intro r l₈ hrs hrv
  rw [if_neg (by simp [hrs]), hrv, wp_bind]
  refine wp_mono (wp_search_readable hready ⟨t, hmanages.tree, hmanages.actors⟩ 64)
    fun found l₉ hfound => ?_
  cases found with
  | none => exact .inl rfl
  | some found =>
    cases found with
    | error status =>
      obtain ⟨reached, hreached⟩ := hfound _ rfl
      cases hreached
    | ok reached =>
      cases reached with
      | false => exact .inl rfl
      | true => exact .inr ⟨_, rfl⟩

end Locating

section Request

variable {process : PEProcess} {t : BinaryTree TreeNode} {manager header root controller : ULong}

theorem controllerOf_iff_holds
    (hmanages : Manages T (sys.psGetProcessSectionBaseAddress process) t manager header root)
    (hcontrols : Controls T (sys.psGetProcessSectionBaseAddress process) controller)
    {targetId found : ULong} :
    T.controllerOf (sys.psGetProcessSectionBaseAddress process) targetId = some found ↔
      found = controller ∧ Holds T t targetId := by
  obtain ⟨hmanagerRange, hmanager⟩ := imageDword_eq_some.mp hmanages.toManager
  obtain ⟨hcontrollerRange, hcontroller⟩ := imageDword_eq_some.mp hcontrols.toController
  obtain ⟨vtable, hvtable, hversion⟩ := hcontrols.vtable
  rw [← search_iff_holds hmanages.tree hmanages.ordered]
  constructor
  · intro hfound
    obtain ⟨-, -, -, hc, -, m, _, h, r, hm, -, -, -, hh, -, hr, hsearch⟩ :=
      Target.controllerOf_eq_some.mp hfound
    obtain rfl : manager = m := Option.some.inj (hmanager.symm.trans hm)
    obtain rfl : header = h := Option.some.inj (hmanages.toHeader.symm.trans hh)
    obtain rfl : root = r := Option.some.inj (hmanages.toRoot.symm.trans hr)
    exact ⟨Option.some.inj (hc.symm.trans hcontroller), hsearch⟩
  · rintro ⟨rfl, hsearch⟩
    exact Target.controllerOf_eq_some.mpr ⟨hcontrollerRange, hmanagerRange,
      imageRange_vtable hmanagerRange, hcontroller, hcontrols.controller_ne, manager, vtable, header,
      root, hmanager, hmanages.manager_ne, hvtable, hversion, hmanages.toHeader, hmanages.header_ne,
      hmanages.toRoot, hsearch⟩

theorem wp_beforeWrite_readable (hready : T.ready ⟨process⟩)
    (hmanages : Manages T (sys.psGetProcessSectionBaseAddress process) t manager header root)
    (hcontrols : Controls T (sys.psGetProcessSectionBaseAddress process) controller)
    {request : SelectTargetRequest} (hvalid : validSelectTargetRequest request) :
    wp (T.openedSystem true process) (beforeWrite sys request) [] fun r l =>
      T.after l = T.byte ∧ (Holds T t request.targetId → r = (⟨process⟩, .ok controller)) ∧
      (¬Holds T t request.targetId → r = (⟨process⟩, .error statusNotFound)) := by
  have hsuccess : ntSuccess statusSuccess = true := rfl
  rw [beforeWrite, if_neg (by simpa using hvalid), wp_bind]
  refine wp_mono (Target.wp_initializeForRequest_opens (J := fun l => T.after l = T.byte)
    (Target.openedSystem_keeps (Target.system_keeps T.byte) true) (fun _ _ _ hx => hx.2)
    (fun _ _ hx => hx.1.trans (of_decide_eq_true hready).1)
    (Target.validSelectTargetRequest_processId hvalid) rfl) fun r l h => ?_
  obtain ⟨hl, rfl⟩ := h
  change wp _ (useReader sys .error (locate request.targetId) statusSuccess ⟨process⟩ >>= _) l _
  rw [useReader, if_pos hsuccess, wp_bind]
  have hlocate : wp (T.quiet ⟨process⟩) (locate request.targetId) [] fun r _ =>
      (r = .error statusNotFound ∨ ∃ found, r = .ok found) ∧
        r.toOption = T.controllerOf (sys.psGetProcessSectionBaseAddress process) request.targetId :=
    wp_and (wp_locate_readable hready hmanages hcontrols request.targetId)
      (Target.wp_locate_ready hready request.targetId [])
  refine wp_mono (Target.wp_opened (Target.wp_performed_quiet hlocate hl)) fun r l' h => ?_
  obtain ⟨⟨hends, hfound⟩, hl'⟩ := h
  rw [wp_pure]
  refine ⟨hl', fun hholds => ?_, fun hnot => ?_⟩
  · rw [(controllerOf_iff_holds hmanages hcontrols).mpr ⟨rfl, hholds⟩] at hfound
    obtain rfl | ⟨found, rfl⟩ := hends
    · cases hfound
    · rw [Option.some.inj hfound]
  · obtain rfl | ⟨found, rfl⟩ := hends
    · rfl
    · exact absurd ((controllerOf_iff_holds hmanages hcontrols).mp hfound.symm).2 hnot

end Request

section Reached

variable {process : PEProcess} {controller : ULong} {env : WinEnv} {request : SelectTargetRequest}

/-- The run forms the address of the controller's slot and calls `WriteUInt32` for it and the id. -/
def CallsWrite (sys : Platform) (env : WinEnv) (process : PEProcess) (controller targetId : ULong)
    (log : WinLog) : Prop :=
  ∃ l, ⟨.note (.field (controller.setWidth 64) 0x28), ()⟩ ∈ l ∧
    ((writeUInt32 sys ⟨process⟩ (controller.setWidth 64 + 0x28) targetId).run env l).2 <+: log

def slotless : Contract WinAns :=
  ⟨fun _ _ _ => True, fun _ o => ∀ pointer, o ≠ .note (.field pointer 0x28)⟩

theorem slotless_keeps : Keeps slotless fun _ => True where
  guar _ o _ ho pointer h := by
    rw [h] at ho
    cases ho
  keep _ _ _ _ _ _ := trivial

theorem perform_slotless {reader : KernelProcessMemoryReader} (o : ReaderOp) (l : WinLog)
    (ho : Walkers.Searching o) : wp slotless (perform sys reader o) l fun _ _ => True := by
  have hsum : ∀ a b, FreeNote slotless (fun _ => True) (.sum a b) :=
    fun _ _ _ _ => ⟨fun _ h => (by cases h), trivial⟩
  have hdiff : ∀ a b, FreeNote slotless (fun _ => True) (.diff a b) :=
    fun _ _ _ _ => ⟨fun _ h => (by cases h), trivial⟩
  cases o with
  | note n =>
    refine ⟨fun pointer h => ?_, fun _ _ => trivial⟩
    cases h
    exact ho rfl
  | resolveImageOffset offset =>
    exact wp_mono (wp_resolveImageOffset slotless_keeps rfl (fun _ => hdiff _ _) (fun _ => hsum _ _)
      trivial) fun _ _ _ => trivial
  | read bits address =>
    rw [perform, KernelProcessMemoryReader.read, wp_bind]
    exact wp_mono (wp_copyValue slotless_keeps (fun _ => hdiff _ _)
      (fun _ _ _ _ => ⟨fun _ h => (by cases h), fun _ _ => trivial⟩) trivial) fun _ _ _ => trivial
  | writeUInt32 address value => exact ho.elim

theorem wp_beforeWrite_slotless :
    wp slotless (beforeWrite sys request) [] fun _ _ => True := by
  rw [beforeWrite, wp_ite]
  refine ⟨fun _ => trivial, fun _ => ?_⟩
  rw [wp_bind]
  refine wp_mono (wp_initializeForRequest slotless_keeps trivial) fun r l _ => ?_
  rw [wp_bind, useReader, wp_ite]
  exact ⟨fun _ => wp_translate_invariant (Walkers.locate_searching _)
    (fun o l ho _ => perform_slotless o l ho) trivial, fun _ => trivial⟩

/-- A run that stops before its write does not call `WriteUInt32` for any slot. -/
theorem not_callsWrite_of_stopped {reader : KernelProcessMemoryReader} {status : NtStatus} {l : WinLog}
    (hrun : (beforeWrite sys request).run env [] = ((reader, .error status), l)) {targetId : ULong} :
    ¬CallsWrite sys env process controller targetId
      ((executeSelectTargetRequest sys request).run env []).2 := by
  rintro ⟨l₁, hmem, hpre⟩
  replace hmem := ((Program.prefix_run env _ l₁).trans hpre).mem hmem
  have hthroughout : Throughout slotless.guar ((beforeWrite sys request).run env []).2 :=
    throughout_of_wp (fun _ _ => trivial) wp_beforeWrite_slotless
  have hnotin : ⟨.note (.field (controller.setWidth 64) 0x28), ()⟩ ∉ l := by
    intro hl
    rw [hrun] at hthroughout
    obtain ⟨before, rest, hsplit⟩ := List.append_of_mem hl
    exact hthroughout _ _ _ hsplit (controller.setWidth 64) rfl
  rw [run_stopped hrun, destroy] at hmem
  by_cases hprocess : reader.process ≠ nullptr
  · rw [if_pos hprocess] at hmem
    obtain hmem | hmem := List.mem_append.mp hmem
    · exact hnotin hmem
    · cases List.mem_singleton.mp hmem
  · rw [if_neg hprocess] at hmem
    exact hnotin hmem

/-- A run that finds the controller calls `WriteUInt32` for its slot, with the memory as it was. -/
theorem callsWrite_of_found {l : WinLog} (hl : T.after l = T.byte)
    (hrun : (beforeWrite sys request).run env [] = ((⟨process⟩, .ok controller), l)) :
    ∃ l₁, T.after l₁ = T.byte ∧ ⟨.note (.field (controller.setWidth 64) 0x28), ()⟩ ∈ l₁ ∧
      ((writeUInt32 sys ⟨process⟩ (controller.setWidth 64 + 0x28) request.targetId).run env l₁).2 <+:
        ((executeSelectTargetRequest sys request).run env []).2 := by
  let slot := controller.setWidth 64 + 0x28
  let l₁ : WinLog := l ++ [⟨.note (.field (controller.setWidth 64) 0x28), ()⟩] ++
    [⟨.note (.sum (controller.setWidth 64) 0x28), ()⟩]
  refine ⟨l₁, ?_, by simp [l₁], ?_⟩
  · rw [Target.after_append_of_not_writes rfl, Target.after_append_of_not_writes rfl, hl]
  -- The two ghost steps of the address come first, then the call, then its consequences.
  obtain ⟨rest, hrest⟩ : ∃ rest : NtStatus → Windows SelectTargetResponse,
      afterFound sys request.targetId ⟨process⟩ (.ok controller) =
        Windows.note (.field (controller.setWidth 64) 0x28) >>= fun _ =>
        Windows.note (.sum (controller.setWidth 64) 0x28) >>= fun _ =>
          writeUInt32 sys ⟨process⟩ slot request.targetId >>= rest := ⟨_, rfl⟩
  rw [executeSelectTargetRequest_eq, Program.run_bind, hrun]
  change _ <+: ((afterFound sys request.targetId ⟨process⟩ (.ok controller) >>= _).run env l).2
  rw [hrest]
  simp only [Program.run_bind]
  exact (Program.prefix_run env (rest _) _).trans (Program.prefix_run env (destroy ⟨process⟩) _)

theorem wp_writeUInt32_exchanged {reader : KernelProcessMemoryReader} (hready : T.ready reader)
    {address : ULongPtr} {value : ULong} (hcheck : WriteCheck sys address)
    (hwritable : ByteMemory.covers T.writable address 4) (l : WinLog) :
    wp T.system (writeUInt32 sys reader address value) l fun _ l' =>
      ⟨.interlockedExchange address value, none⟩ ∈ l' := by
  have hkeeps : ∀ J : WinLog → Prop, (∀ l e, J l → J (l ++ [e])) → Keeps T.system J :=
    fun J hJ => ⟨fun _ _ _ _ => trivial, fun l o x hl _ _ => hJ l _ hl⟩
  refine wp_mono (wp_writeUInt32 (J := fun _ => True)
    (K := fun x l => ⟨.interlockedExchange address value, x⟩ ∈ l) (hkeeps _ fun _ _ _ => trivial)
    (fun x => hkeeps _ fun _ _ hl => List.mem_append_left _ hl) (fun _ _ => ⟨trivial, trivial⟩)
    (fun _ _ => ⟨trivial, trivial⟩) (fun _ _ _ _ => ⟨trivial, fun _ _ => trivial⟩)
    (fun _ _ _ _ => ⟨trivial, fun _ _ => List.mem_append_right _ (List.mem_singleton_self _)⟩)
    trivial) fun r l' hr => ?_
  obtain ⟨-, ⟨-, hnot⟩ | ⟨-, ⟨-, hbad⟩ | ⟨l₁, -, -, hprobed, -⟩⟩⟩ | ⟨-, x, l₁, hx, -, -, -, hfits⟩ := hr
  · rw [Target.not_ready_of_notReady hnot] at hready
    cases hready
  · exact absurd hcheck hbad
  · cases hprobed.1 hwritable
  · rwa [hfits.1.mpr hwritable] at hx

end Reached

section Request

variable {process : PEProcess} {t : BinaryTree TreeNode} {manager header root controller : ULong}

/-- On a readable tree in order, a selection comes to its write exactly if the tree holds the
wanted id within 64 nodes, and a slot that can be written is written then; else the selection
answers `STATUS_NOT_FOUND` and has written nothing. -/
theorem executeSelectTargetRequest_reaches (T : Target sys) {env : WinEnv}
    (henv : ∀ l o, (T.openedSystem true process).rely l o (env l o)) (hready : T.ready ⟨process⟩)
    (hmanages : Manages T (sys.psGetProcessSectionBaseAddress process) t manager header root)
    (hcontrols : Controls T (sys.psGetProcessSectionBaseAddress process) controller)
    {request : SelectTargetRequest} (hvalid : validSelectTargetRequest request) :
    let run := (executeSelectTargetRequest sys request).run env []
    let slot := controller.setWidth 64 + 0x28
    (CallsWrite sys env process controller request.targetId run.2 ↔ Holds T t request.targetId) ∧
      (WriteCheck sys slot → ByteMemory.covers T.writable slot 4 →
        (⟨.interlockedExchange slot request.targetId, none⟩ ∈ run.2 ↔
          Holds T t request.targetId)) ∧
      (¬Holds T t request.targetId →
        run.1 = SelectTarget.newResponse statusNotFound ∧ Untouched run.2) := by
  intro run slot
  let before := (beforeWrite sys request).run env []
  obtain ⟨hl, hfinds, hstops⟩ :=
    run_of_wp henv (wp_beforeWrite_readable hready hmanages hcontrols hvalid)
  have hfound : Holds T t request.targetId → ∃ l₁, T.after l₁ = T.byte ∧
      ⟨.note (.field (controller.setWidth 64) 0x28), ()⟩ ∈ l₁ ∧
      ((writeUInt32 sys ⟨process⟩ slot request.targetId).run env l₁).2 <+: run.2 :=
    fun hholds => callsWrite_of_found hl (Prod.ext (hfinds hholds) rfl : before = (_, before.2))
  have hstopped : ¬Holds T t request.targetId →
      before = ((⟨process⟩, .error statusNotFound), before.2) := fun hnot =>
    Prod.ext (hstops hnot) rfl
  have hnone : ¬Holds T t request.targetId →
      run.1 = SelectTarget.newResponse statusNotFound ∧ Untouched run.2 :=
    fun hnot => stopped_of_beforeWrite (hstopped hnot)
  refine ⟨⟨fun hcalls => ?_, fun hholds => ?_⟩, fun hcheck hwritable => ⟨fun hwritten => ?_,
    fun hholds => ?_⟩, hnone⟩
  · by_contra hnot
    exact not_callsWrite_of_stopped (hstopped hnot) hcalls
  · obtain ⟨l₁, -, hslot, hpre⟩ := hfound hholds
    exact ⟨l₁, hslot, hpre⟩
  · by_contra hnot
    cases (hnone hnot).2 _ hwritten
  · obtain ⟨l₁, -, -, hpre⟩ := hfound hholds
    exact hpre.mem (run_of_wp henv (Target.wp_opened
      (wp_writeUInt32_exchanged hready hcheck hwritable l₁)))

theorem crowdedGame_manages : Manages (Selectable.crowdedGame gameApi) 0x400000 Selectable.crowd
    0x01100000 0x01200000 0x01300000 where
  toManager := by decide +kernel
  manager_ne := by decide
  toHeader := by decide +kernel
  header_ne := by decide
  toRoot := by decide +kernel
  tree := Selectable.crowdedGame_represents (.inl rfl)
  actors node hnode := by
    obtain rfl | hnode | rfl | hnode | hnode := hnode
    · decide +kernel
    · exact hnode.elim
    · decide +kernel
    · exact hnode.elim
    · exact hnode.elim
  ordered := Selectable.crowd_ordered

theorem crowdedGame_controls : Controls (Selectable.crowdedGame gameApi) 0x400000 0x01000000 where
  toController := by decide +kernel
  vtable := ⟨0x009D8310, by decide +kernel, by decide⟩

theorem crowd_not_holds : ¬Holds (Selectable.crowdedGame gameApi) Selectable.crowd 6 := by
  intro ⟨node, depth, hoccurs, _, hkey, _⟩
  obtain rfl | hnode | rfl | hnode | hnode := hoccurs.occurs
  · exact absurd hkey (by decide)
  · exact hnode.elim
  · exact absurd hkey (by decide)
  · exact hnode.elim
  · exact hnode.elim

/-- In the crowded game, 5 is written to the slot and 6 is not found. -/
theorem executeSelectTargetRequest_reaches_sample :
    let env := (Selectable.crowdedGame gameApi).env 9 sampleImage
    let run := fun id => (executeSelectTargetRequest samplePlatform
      ⟨version, sizeofSelectTargetRequest, 7, id, 0⟩).run env []
    (CallsWrite samplePlatform env 9 0x01000000 5 (run 5).2 ∧
      ⟨.interlockedExchange 0x01000028 5, none⟩ ∈ (run 5).2) ∧
    (run 6).1 = SelectTarget.newResponse statusNotFound ∧ Untouched (run 6).2 := by
  intro env run
  have henv : ∀ l o, ((Selectable.crowdedGame gameApi).openedSystem true 9).rely l o (env l o) :=
    fun l o => ⟨(Selectable.crowdedGame gameApi).env_fits 9 sampleImage l o,
      (Selectable.crowdedGame gameApi).env_opens sampleImage_expected l o⟩
  have hready : (Selectable.crowdedGame gameApi).ready ⟨9⟩ := by decide
  have hholds : Holds (Selectable.crowdedGame gameApi) Selectable.crowd 5 :=
    ⟨⟨0x01300000, 5⟩, 0, rfl, by decide, rfl, 0x01400000, 0x00200010, by decide +kernel, by decide,
      by decide +kernel, by decide +kernel, by decide, by decide⟩
  have hwritable : WriteCheck samplePlatform 0x01000028 ∧
      ByteMemory.covers (Selectable.crowdedGame gameApi).writable 0x01000028 4 := by decide +kernel
  have hfive := executeSelectTargetRequest_reaches _ henv hready crowdedGame_manages
    crowdedGame_controls
    (show validSelectTargetRequest ⟨version, sizeofSelectTargetRequest, 7, 5, 0⟩ by decide)
  have hsix := executeSelectTargetRequest_reaches _ henv hready crowdedGame_manages
    crowdedGame_controls
    (show validSelectTargetRequest ⟨version, sizeofSelectTargetRequest, 7, 6, 0⟩ by decide)
  exact ⟨⟨hfive.1.mpr hholds, (hfive.2.1 hwritable.1 hwritable.2).mpr hholds⟩,
    hsix.2.2 crowd_not_holds⟩

end Request

end DarkEden.KeyedSearch
