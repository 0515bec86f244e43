import DarkEden.NearbyFromModule

namespace DarkEden.ScriptAgreement

open Interaction ByteMemory Protocol Client Engine EngineRules Traversal NearbyGraph NearbyNames
open ReaderRules
open NearbyFromModule
open Json (codes)

variable {sys : Platform} {T : Target sys} {process client : PEProcess} {processId : DWord}
variable {base : ULongPtr} {manager header root : ULong} {ce : CheatEngine}

section Reads

/-- Engine and driver read here: above the image, and in reach of a 32-bit process. -/
def InReach (sys : Platform) (process : PEProcess) (address : ULongPtr) : Prop :=
  sys.psGetProcessSectionBaseAddress process < address ∧ address ≤ 0xFFFFFFFF

/-- The fields of the node that the walk reads are in reach, and those of its actor. -/
structure NodeInReach (sys : Platform) (process : PEProcess) (ce : CheatEngine) (node : ULong) :
    Prop where
  fields : ∀ offset ∈ [(0 : ULongPtr), 4, 8, 0x10, 0x14],
    InReach sys process (node.setWidth 64 + offset)
  actor : ∀ actor, field ce.readInteger node 0x14 = some actor → actor ≠ 0 →
    InReach sys process (actor.setWidth 64 + 8) ∧ InReach sys process (actor.setWidth 64 + 0x0C)

/-- Cheat Engine is attached to the target, and all nodes of the tree are in reach of the engine. -/
structure Attached (T : Target sys) (process : PEProcess) (ce : CheatEngine) : Prop where
  byte : ce.byte = T.byte
  readable : ce.readable = T.readable
  module : ce.getAddressSafe (codes "darkeden.exe+AB31D0") =
    some (sys.psGetProcessSectionBaseAddress process + otherCharacterNameOffset)
  inReach : ∀ manager header root, Available ce manager header root → ∀ node,
    NearbyGraph.Reachable ce.readInteger header root node → NodeInReach sys process ce node

variable {address : ULongPtr} {value : ULong}

theorem readInteger_of_dword (h : Attached T process ce) (hvalue : T.dword address = some value) :
    ce.readInteger address = some value := by
  have hsize : (byteSize 32).toNat = 4 := rfl
  rw [Target.dword, Target.peek, hsize, Option.ite_none_right_eq_some] at hvalue
  obtain ⟨⟨-, hcovers⟩, hvalue⟩ := hvalue
  rw [CheatEngine.readInteger, CheatEngine.readBytes, h.byte, h.readable, if_pos hcovers]
  exact hvalue

theorem dword_of_readInteger (h : Attached T process ce) (hreach : InReach sys process address)
    (hvalue : ce.readInteger address = some value) : T.dword address = some value := by
  have hsize : (byteSize 32).toNat = 4 := rfl
  rw [CheatEngine.readInteger, CheatEngine.readBytes, h.byte, h.readable,
    Option.map_eq_some_iff] at hvalue
  obtain ⟨bytes, hbytes, hvalue⟩ := hvalue
  obtain ⟨hcovers, hbytes⟩ := Option.ite_none_right_eq_some.mp hbytes
  obtain rfl := Option.some.inj hbytes
  have hlast := T.user_of_readable _ (covers_iff.mp hcovers 3 (by decide))
  have hrange : CopyRange sys address (byteSize 32) := by
    obtain ⟨hlow, hhigh⟩ := hreach
    rw [CopyRange, hsize]
    bv_omega
  rw [Target.dword, Target.peek, hsize, if_pos ⟨hrange, hcovers⟩]
  exact congrArg some hvalue

theorem readInteger_of_sight (h : Attached T process ce) (hpid : processId ≠ 0)
    (hvalue : sight T process processId (sys.psGetProcessSectionBaseAddress process) address =
      some value) : ce.readInteger address = some value := by
  rw [sight_agrees hpid, seen_eq_some] at hvalue
  exact readInteger_of_dword h hvalue.2

/-- What the script reads in reach of the engine, the engine reads if it reads anything at all. -/
theorem sight_of_readInteger (h : Attached T process ce) (hpid : processId ≠ 0)
    (hreachable : EngineRules.Reachable T process) (hreach : InReach sys process address)
    (hvalue : ce.readInteger address = some value) :
    sight T process processId (sys.psGetProcessSectionBaseAddress process) address = some value := by
  rw [sight_agrees hpid, seen_eq_some]
  exact ⟨⟨hreachable, hreach⟩, dword_of_readInteger h hreach hvalue⟩

theorem reachable_script (h : Attached T process ce) (hpid : processId ≠ 0) {node : ULong}
    (hnode : NearbyGraph.Reachable
      (sight T process processId (sys.psGetProcessSectionBaseAddress process)) header root node) :
    NearbyGraph.Reachable ce.readInteger header root node := by
  induction hnode with
  | root hroot => exact .root hroot
  | left _ hleft hchild ih =>
    exact .left ih (readInteger_of_sight h hpid hleft)
      ⟨hchild.1, hchild.2.1, readInteger_of_sight h hpid hchild.2.2⟩
  | right _ hright hchild ih =>
    exact .right ih (readInteger_of_sight h hpid hright)
      ⟨hchild.1, hchild.2.1, readInteger_of_sight h hpid hchild.2.2⟩

/-- Where all nodes are in reach, the engine reaches those that the script reaches. -/
theorem reachable_engine (h : Attached T process ce) (hpid : processId ≠ 0)
    (hreachable : EngineRules.Reachable T process)
    (hreach : ∀ node, NearbyGraph.Reachable ce.readInteger header root node →
      NodeInReach sys process ce node)
    {node : ULong} (hnode : NearbyGraph.Reachable ce.readInteger header root node) :
    NearbyGraph.Reachable
      (sight T process processId (sys.psGetProcessSectionBaseAddress process)) header root node := by
  have hsight : ∀ {node value : ULong} {offset : ULongPtr},
      NearbyGraph.Reachable ce.readInteger header root node →
      offset ∈ [(0 : ULongPtr), 4, 8, 0x10, 0x14] → field ce.readInteger node offset = some value →
      field (sight T process processId (sys.psGetProcessSectionBaseAddress process)) node offset =
        some value :=
    fun hnode hoffset hvalue =>
      sight_of_readInteger h hpid hreachable ((hreach _ hnode).fields _ hoffset) hvalue
  induction hnode with
  | root hroot => exact .root hroot
  | left hnode hleft hchild ih =>
    exact .left ih (hsight hnode (by decide) hleft)
      ⟨hchild.1, hchild.2.1, hsight (.left hnode hleft hchild) (by decide) hchild.2.2⟩
  | right hnode hright hchild ih =>
    exact .right ih (hsight hnode (by decide) hright)
      ⟨hchild.1, hchild.2.1, hsight (.right hnode hright hchild) (by decide) hchild.2.2⟩

theorem accepted_script (h : Attached T process ce) (hpid : processId ≠ 0) {actor id packed : ULong}
    (haccepted : Accepted
      (reads (sight T process processId (sys.psGetProcessSectionBaseAddress process))) actor id packed) :
    Accepted (reads ce.readInteger) actor id packed :=
  ⟨haccepted.actor_ne, (readInteger_of_sight h hpid haccepted.readId.symm).symm,
    (readInteger_of_sight h hpid haccepted.readPacked.symm).symm, haccepted.id_ne, haccepted.x_lt,
    haccepted.y_lt⟩

theorem stores_iff (h : Attached T process ce) (hpid : processId ≠ 0)
    (hreachable : EngineRules.Reachable T process) {node actor : ULong}
    (hreach : NodeInReach sys process ce node) :
    Stores (sight T process processId (sys.psGetProcessSectionBaseAddress process)) node actor ↔
      Stores ce.readInteger node actor := by
  constructor
  · rintro ⟨hactor, key, packed, hkey, haccepted⟩
    exact ⟨readInteger_of_sight h hpid hactor, key, packed, readInteger_of_sight h hpid hkey,
      accepted_script h hpid haccepted⟩
  · rintro ⟨hactor, key, packed, hkey, haccepted⟩
    have hsight : ∀ {offset : ULongPtr} {value : ULong},
        offset ∈ [(0 : ULongPtr), 4, 8, 0x10, 0x14] → field ce.readInteger node offset = some value →
        field (sight T process processId (sys.psGetProcessSectionBaseAddress process)) node offset =
          some value :=
      fun hoffset hvalue =>
        sight_of_readInteger h hpid hreachable (hreach.fields _ hoffset) hvalue
    obtain ⟨hid, hpacked⟩ := hreach.actor actor hactor haccepted.actor_ne
    exact ⟨hsight (by decide) hactor, key, packed, hsight (by decide) hkey, haccepted.actor_ne,
      (sight_of_readInteger h hpid hreachable hid haccepted.readId.symm).symm,
      (sight_of_readInteger h hpid hreachable hpacked haccepted.readPacked.symm).symm,
      haccepted.id_ne, haccepted.x_lt, haccepted.y_lt⟩

end Reads

section Listing

/-- What the engine knows when it comes back with a list. -/
structure Surveyed (T : Target sys) (process : PEProcess) (processId : DWord) (base : ULongPtr)
    (manager header root : ULong) (actors : List ULong) (listing : Listing) : Prop where
  starts : Starts T process processId base manager header root
  lists : Lists T process processId base header root actors
  few : actors.length ≤ 2048
  entries : List.Forall₂ (fun actor c => ∃ packed,
    Accepted (reads (sight T process processId base)) actor c.id packed ∧
      c.x = packed &&& 0xFFFF ∧ c.y = packed >>> 16) actors listing.characters

theorem actors_few {see : ULongPtr → Option ULong} {walk : Walk}
    (h : Explored see header root walk) (hnodup : walk.seenActors.Nodup) :
    walk.seenActors.reverse.length ≤ 2048 := by
  have hsub : walk.seenActors.reverse ⊆ walk.seenNodes.reverse.filterMap (stored see) := by
    rw [h.actors]
    exact fun actor hactor => List.mem_eraseDups.mp hactor
  calc walk.seenActors.reverse.length
      ≤ (walk.seenNodes.reverse.filterMap (stored see)).length :=
        (List.subperm_of_subset (List.nodup_reverse.mpr hnodup) hsub).length_le
    _ ≤ walk.seenNodes.reverse.length := List.length_filterMap_le _ _
    _ ≤ 2048 := by rw [List.length_reverse]; exact h.room

theorem wp_surveyed (T : Target sys) (process : PEProcess) (processId : DWord) (l : Log UserAns) :
    wp (T.served process) (readNearbyCharacters sys processId).run l fun r _ => ∀ listing,
      r = .ok listing → ∃ base manager header root actors,
        Surveyed T process processId base manager header root actors listing := by
  refine wp_mono (wp_readNearbyCharacters (O := fun _ => True)
    (B := fun base => base = EngineRules.imageBase T processId)
    (R := fun base => reads (sight T process processId base))
    (W := fun base header root r => ∀ found, r = .ok found → root ≠ 0 → ∃ actors,
      Lists T process processId base header root actors ∧ actors.length ≤ 2048 ∧
        List.Forall₂ (Describes (reads (sight T process processId base)) fun _ _ => True)
          actors found)
    (wp_findImageBase processId l)
    (fun base address l _ => wp_readDword_sight processId base address l) (fun l => ?_)
    (fun base manager header root l hstart => ?_)) fun r _ hr listing hlisting => ?_
  · rw [readOwnName, wp_bind]
    exact wp_mono (wp_readText _ _ _) fun _ _ _ => trivial
  · refine wp_mono ((reads_sight T process processId base).walkTree
      (J := fun walk => Explored (sight T process processId base) header root walk ∧
        Collected (reads (sight T process processId base)) (fun _ _ => True) walk)
      ⟨explored_start, collected_nil _⟩
      (fun walk walk' hwalk hpass => ⟨hwalk.1.pass hpass, hwalk.2.pass hpass⟩) l)
      fun r _ hr found hfound hroot => ?_
    obtain ⟨walk, ⟨hexplored, hcollected⟩, hpass⟩ := hr
    subst hfound
    cases hpass with
    | stop hempty =>
      exact ⟨_, ⟨List.nodup_reverse.mpr hcollected.nodup,
        Explored.mem_actors hroot hexplored hempty⟩, actors_few hexplored hcollected.nodup,
        hcollected.described⟩
  · subst hlisting
    generalize hok : (Except.ok listing : Except WString Listing) = r at hr
    cases hr with
    | @walked base manager header root ownName found hstart hfound =>
      obtain ⟨-, hfound⟩ := hfound
      cases found with
      | error error => cases hok
      | ok found =>
        obtain ⟨actors, hlists, hfew, hdescribed⟩ := hfound found rfl hstart.root_ne
        refine ⟨base, manager, header, root, actors, hstart, hlists, hfew, ?_⟩
        rw [publish_eq_ok hok.symm, nameCharacters_eq, List.forall₂_map_right_iff]
        exact hdescribed.imp fun actor c hc => hc.2
    | _ => cases hok

def placeOf (see : ULongPtr → Option ULong) (actor : ULong) : ULong × ULong × ULong :=
  let packed := (field see actor 0x0C).getD 0
  ((field see actor 8).getD 0, packed &&& 0xFFFF, packed >>> 16)

theorem placeOf_accepted {see : ULongPtr → Option ULong} {actor id packed : ULong}
    (h : Accepted (reads see) actor id packed) :
    placeOf see actor = (id, packed &&& 0xFFFF, packed >>> 16) := by
  have hid : field see actor 8 = some id := h.readId.symm
  have hpacked : field see actor 0x0C = some packed := h.readPacked.symm
  rw [placeOf, hid, hpacked]
  rfl

def entries (listing : Listing) : List (ULong × ULong × ULong) :=
  listing.characters.map fun c => (c.id, c.x, c.y)

def lines (s : State) : List (ULong × ULong × ULong) :=
  s.rows.map fun row => (row.id, row.x.setWidth 32, row.y.setWidth 32)

theorem entries_eq {actors : List ULong} {listing : Listing} (hce : Attached T process ce)
    (hpid : processId ≠ 0)
    (h : Surveyed T process processId (sys.psGetProcessSectionBaseAddress process) manager header root
      actors listing) :
    entries listing = actors.map (placeOf ce.readInteger) := by
  have hentries := h.entries
  rw [entries]
  generalize listing.characters = characters at hentries
  clear h
  induction hentries with
  | nil => rfl
  | cons hc _ ih =>
    obtain ⟨packed, haccepted, hx, hy⟩ := hc
    rw [List.map_cons, List.map_cons, ih, placeOf_accepted (accepted_script hce hpid haccepted), hx, hy]

theorem lines_eq {s : State} (h : Printout ce header root s) :
    lines s = (s.rows.map Row.actor).map (placeOf ce.readInteger) := by
  rw [lines, List.map_map]
  apply List.map_congr_left
  intro row hrow
  obtain ⟨-, hshows⟩ := h.sound row hrow
  obtain ⟨packed, hx, hy⟩ := exists_packed row.x row.y
  have haccepted := hshows.accepted
  rw [← hx, ← hy] at haccepted
  obtain ⟨-, haccepted⟩ := (accepted_iff hshows.stored.2).mp haccepted
  obtain ⟨hlow, hhigh⟩ := packed_halves packed
  rw [Function.comp_apply, placeOf_accepted haccepted, hlow, hhigh, hx, hy]

theorem actors_perm {s : State} {actors : List ULong} (h : Printout ce header root s)
    (hnodup : actors.Nodup) (hfew : actors.length ≤ 2048)
    (hmem : ∀ actor, actor ∈ actors ↔ ∃ node, NearbyGraph.Reachable ce.readInteger header root node ∧
      Stores ce.readInteger node actor) : (s.rows.map Row.actor).Perm actors := by
  have hsub : s.rows.map Row.actor ⊆ actors := by
    intro actor hactor
    obtain ⟨row, hrow, rfl⟩ := List.mem_map.mp hactor
    obtain ⟨hreachable, hshows⟩ := h.sound row hrow
    exact (hmem row.actor).mpr ⟨row.node, hreachable, hshows.stores⟩
  have hsubperm := List.subperm_of_subset h.nodup hsub
  by_cases hroom : s.count < 2048
  · apply (List.perm_ext_iff_of_nodup h.nodup hnodup).mpr
    intro actor
    refine ⟨fun hactor => hsub hactor, fun hactor => ?_⟩
    obtain ⟨node, hreachable, hstores⟩ := (hmem actor).mp hactor
    exact h.complete hroom node actor hreachable hstores
  · -- The table is full, so there is no actor left that it could miss.
    apply hsubperm.perm_of_length_le
    have hcount := h.count
    rw [List.length_map]
    omega

end Listing

section Agreement

variable {env : WinEnv} {fuel : Nat} {listing : Listing}

theorem available_of_starts (hce : Attached T process ce)
    (hstarts : Starts T process processId (sys.psGetProcessSectionBaseAddress process) manager
      header root) : Available ce manager header root := by
  obtain ⟨-, hpid⟩ := open_of_starts hstarts
  refine ⟨?_, hstarts.manager_ne, ?_, hstarts.header_ne, ?_, hstarts.root_ne⟩
  · rw [hce.module, Option.bind_some]
    exact readInteger_of_sight hce hpid hstarts.toManager.symm
  · exact readInteger_of_sight hce hpid hstarts.toHeader.symm
  · exact readInteger_of_sight hce hpid hstarts.toRoot.symm

/-- Where the engine comes back with a list, the script prints the same characters: their ids and
coordinates, though in the order of the tree. -/
theorem script_agrees (T : Target sys) (client : PEProcess)
    (henv : ∀ l o, (T.openedSystem false process).rely l o (env l o))
    (hbase : EngineRules.imageBase T processId = some (sys.psGetProcessSectionBaseAddress process))
    (hce : Attached T process ce) (hfuel : 2 ^ 32 < fuel)
    (hlisting : ((System.runUser sys client (readNearbyCharacters sys processId).run).run env []).1 =
      .ok listing) :
    ∃ manager header root s, script ce fuel = some (.listed manager header root s) ∧
      (lines s).Perm (entries listing) := by
  obtain ⟨base, manager, header, root, actors, hsurveyed⟩ :=
    Target.run_of_served henv (wp_surveyed T process processId []) listing hlisting
  obtain rfl : base = sys.psGetProcessSectionBaseAddress process :=
    Option.some.inj (hsurveyed.starts.toBase.trans hbase)
  have havailable := available_of_starts hce hsurveyed.starts
  have hreachable := reachable_of_starts hsurveyed.starts
  obtain ⟨-, hpid⟩ := open_of_starts hsurveyed.starts
  have hreach := hce.inReach manager header root havailable
  obtain ⟨s, hs⟩ := walk_ends ce header root hfuel
  have hprintout := printout_of_walk havailable.root_ne hs
  have hmem : ∀ actor, actor ∈ actors ↔ ∃ node, NearbyGraph.Reachable ce.readInteger header root node ∧
      Stores ce.readInteger node actor := by
    intro actor
    rw [hsurveyed.lists.mem_iff]
    constructor
    · rintro ⟨node, hnode, hstores⟩
      have hnode := reachable_script hce hpid hnode
      exact ⟨node, hnode, (stores_iff hce hpid hreachable (hreach node hnode)).mp hstores⟩
    · rintro ⟨node, hnode, hstores⟩
      exact ⟨node, reachable_engine hce hpid hreachable hreach hnode,
        (stores_iff hce hpid hreachable (hreach node hnode)).mpr hstores⟩
  refine ⟨manager, header, root, s, ?_, ?_⟩
  · rw [script_available havailable, hs]
    rfl
  · rw [lines_eq hprintout, entries_eq hce hpid hsurveyed]
    exact (actors_perm hprintout hsurveyed.lists.nodup hsurveyed.few hmem).map _

theorem available_unique {manager' header' root' : ULong} (h : Available ce manager header root)
    (h' : Available ce manager' header' root') : header = header' ∧ root = root' := by
  obtain rfl := Option.some.inj (h.toManager.symm.trans h'.toManager)
  obtain rfl := Option.some.inj (h.toHeader.symm.trans h'.toHeader)
  exact ⟨rfl, Option.some.inj (h.toRoot.symm.trans h'.toRoot)⟩

theorem knot_nodes {node : ULong}
    (hnode : NearbyGraph.Reachable knotEngine.readInteger 0x01200000 0x01300000 node) :
    node = 0x01300000 ∨ node = 0x01310000 := by
  have hchildren :
      children knotEngine.readInteger 0x01200000 0x01300000 ⊆ [0x01300000, 0x01310000] ∧
      children knotEngine.readInteger 0x01200000 0x01310000 ⊆ [0x01300000, 0x01310000] := by
    decide +kernel
  obtain ⟨r, hr, hpath⟩ := (reachable_iff (by decide)).mp hnode
  clear hnode
  induction hpath with
  | refl => exact .inl (List.mem_singleton.mp (mem_real.mp hr).1)
  | tail _ hstep ih =>
    obtain rfl | rfl := ih
    · simpa using hchildren.1 hstep
    · simpa using hchildren.2 hstep

theorem knot_attached : Attached knot 9 knotEngine where
  byte := rfl
  readable := rfl
  module := rfl
  inReach manager header root havailable node hnode := by
    obtain ⟨rfl, rfl⟩ := available_unique knot_available havailable
    have hactor : field knotEngine.readInteger 0x01300000 0x14 = some 0x01400000 ∧
        field knotEngine.readInteger 0x01310000 0x14 = some 0x01400000 := by decide +kernel
    have hnodes := knot_nodes hnode
    constructor
    · intro offset hoffset
      simp only [List.mem_cons, List.not_mem_nil, or_false] at hoffset
      change (0x400000 : ULongPtr) < _ ∧ _
      obtain rfl | rfl := hnodes <;> bv_omega
    · intro actor hfield _
      obtain rfl : actor = 0x01400000 := by
        obtain rfl | rfl := hnodes
        · exact Option.some.inj (hfield.symm.trans hactor.1)
        · exact Option.some.inj (hfield.symm.trans hactor.2)
      exact ⟨⟨by decide, by decide⟩, by decide, by decide⟩

theorem knot_listing : ∃ listing, ((System.runUser samplePlatform 9
    (readNearbyCharacters samplePlatform 7).run).run (knot.env 9 sampleImage) []).1 = .ok listing := by
  have hsome : ((System.runUser samplePlatform 9 (readNearbyCharacters samplePlatform 7).run).run
      (knot.env 9 sampleImage) []).1.toOption.isSome := by decide +kernel
  cases h : ((System.runUser samplePlatform 9 (readNearbyCharacters samplePlatform 7).run).run
      (knot.env 9 sampleImage) []).1 with
  | ok listing => exact ⟨listing, rfl⟩
  | error e =>
    rw [h] at hsome
    cases hsome

theorem knot_agrees : ∃ listing, ((System.runUser samplePlatform 9
    (readNearbyCharacters samplePlatform 7).run).run (knot.env 9 sampleImage) []).1 = .ok listing ∧
    ∃ manager header root s, script knotEngine (2 ^ 32 + 1) = some (.listed manager header root s) ∧
      (lines s).Perm (entries listing) := by
  obtain ⟨listing, hlisting⟩ := knot_listing
  have henv : ∀ l o, (knot.openedSystem false 9).rely l o (knot.env 9 sampleImage l o) := fun l o =>
    ⟨knot.env_fits 9 sampleImage l o, (knot.env_opens sampleImage_expected l o).restrict false⟩
  exact ⟨listing, hlisting, script_agrees knot 9 henv (by decide +kernel) knot_attached
    (Nat.lt_succ_self _) hlisting⟩

end Agreement

end DarkEden.ScriptAgreement
