import DarkEden.CheatEngine

namespace DarkEden.NearbyCharacters

open Interaction Descent NearbyGraph CheatEngine
open Json (Text codes)

section Source

structure Row where
  name : Text
  x : BitVec 16
  y : BitVec 16
  id : ULong
  actor : ULong
  node : ULong
  deriving DecidableEq

/-- The tables of the script, and the lines it has printed; an id may be known to have no name. -/
structure State where
  nameCache : List (ULong × Option Text)
  seen : List ULong
  seenActors : List ULong
  count : Nat
  rows : List Row

variable (ce : CheatEngine)

def findName (nameCache : List (ULong × Option Text)) (id : ULong) :
    Option Text × List (ULong × Option Text) :=
  match nameCache.lookup id with
  | some name => (name, nameCache)
  | none => (ce.nameNear 24 id, (id, ce.nameNear 24 id) :: nameCache)

def accepted (node actor : ULong) : Option (ULong × BitVec 16 × BitVec 16) := do
  let id ← field ce.readInteger actor 8
  let x ← ce.readSmallInteger (actor.setWidth 64 + 0x0C)
  let y ← ce.readSmallInteger (actor.setWidth 64 + 0x0E)
  if field ce.readInteger node 0x10 = some id ∧ 0 < id ∧ id ≤ 0xFFFF then some (id, x, y) else none

def printRow (node actor : ULong) (s : State) (found : ULong × BitVec 16 × BitVec 16) : State :=
  let id := found.1
  let named := findName ce s.nameCache id
  { s with
    nameCache := named.2
    seenActors := actor :: s.seenActors
    rows := s.rows ++
      [⟨named.1.getD (codes "ID_" ++ hex id.toNat), found.2.1, found.2.2, id, actor, node⟩] }

/-- What `walk` does at a node between the two branches. -/
def printActor (node : ULong) (s : State) : State :=
  (field ce.readInteger node 0x18).elim s fun actor =>
    if actor = 0 ∨ s.seenActors.contains actor then s
    else (accepted ce node actor).elim s (printRow ce node actor s)

/-- A field of the tables that printing a line leaves alone is left alone at every node. -/
theorem printActor_cases {P : State → Prop} (node : ULong) {s : State} (hs : P s)
    (hrow : ∀ actor found, P (printRow ce node actor s found)) : P (printActor ce node s) := by
  rw [printActor]
  cases field ce.readInteger node 0x18 with
  | none => exact hs
  | some actor =>
    rw [Option.elim_some]
    by_cases hskip : actor = 0 ∨ s.seenActors.contains actor
    · rwa [if_pos hskip]
    · rw [if_neg hskip]
      cases accepted ce node actor with
      | none => exact hs
      | some found => exact hrow actor found

variable (sentinel : ULong)

def search : Search ULong State where
  seen s := s.seen
  full s := 1024 ≤ s.count
  refused node := node = 0 ∨ node = sentinel
  enter node s := { s with seen := node :: s.seen, count := s.count + 1 }
  act := printActor ce
  first node := ce.branch sentinel node 0
  last node := ce.branch sentinel node 8
  seen_enter _ _ := rfl
  seen_act node s := printActor_cases ce (P := fun s' => s'.seen = s.seen) node rfl fun _ _ => rfl
  full_enter _ _ h := Nat.le_succ_of_le h
  full_act node _ h := printActor_cases ce (P := fun s => 1024 ≤ s.count) node h fun _ _ => h

instance (node : ULong) (s : State) : Decidable ((search ce sentinel).Passes node s) :=
  inferInstanceAs (Decidable ((node = 0 ∨ node = sentinel) ∨ 1024 ≤ s.count ∨ node ∈ s.seen))

/-- The recursive `walk`; without fuel it has not come to an end. -/
def walk (fuel : Nat) (node : ULong) (s : State) : Option State :=
  (search ce sentinel).walk fuel node s

inductive Fault
  | empty
  | unreadable
  | notATree

omit sentinel in
/-- The checks before the walk: where it starts, and the node at which it turns back. -/
def start (pointerAddress : ULongPtr) : Except Fault (ULong × ULong) :=
  match ce.readInteger pointerAddress with
  | none => .error .empty
  | some root =>
    if root = 0 then .error .empty
    else match field ce.readInteger root 4 with
      | none => .error .unreadable
      | some sentinel =>
        match field ce.readInteger root 0x18, field ce.readInteger root 0x10 with
        | some rootActor, some rootNodeId =>
          if rootNodeId = 0 ∨ rootNodeId > 0xFFFF ∨
              field ce.readInteger rootActor 8 ≠ some rootNodeId then .error .notATree
          else .ok (root, sentinel)
        | _, _ => .error .notATree

inductive Outcome
  | unresolved
  | refused (fault : Fault)
  | listed (root : ULong) (s : State)

omit sentinel in
def script (rootPointerExpression : Text) (fuel : Nat) : Option Outcome :=
  match ce.getAddressSafe rootPointerExpression with
  | none => some .unresolved
  | some pointerAddress =>
    match start ce pointerAddress with
    | .error fault => some (.refused fault)
    | .ok (root, sentinel) => (walk ce sentinel fuel root ⟨[], [], [], 0, []⟩).map (.listed root)

end Source

section Run

variable {ce : CheatEngine} {sentinel node actor : ULong} {s s' : State}

structure Holds (ce : CheatEngine) (node actor : ULong) (found : ULong × BitVec 16 × BitVec 16) :
    Prop where
  field : field ce.readInteger node 0x18 = some actor
  actor_ne : actor ≠ 0
  accepted : accepted ce node actor = some found

inductive Prints (ce : CheatEngine) (node : ULong) (s : State) : State → Prop
  | nothing (h : ∀ actor found, Holds ce node actor found → actor ∈ s.seenActors) :
      Prints ce node s s
  | line {nameCache : List (ULong × Option Text)} {row : Row} (hnode : row.node = node)
      (hfresh : row.actor ∉ s.seenActors) (hrow : Holds ce node row.actor (row.id, row.x, row.y)) :
      Prints ce node s { s with
        nameCache := nameCache
        seenActors := row.actor :: s.seenActors
        rows := s.rows ++ [row] }

theorem printActor_prints (ce : CheatEngine) (node : ULong) (s : State) :
    Prints ce node s (printActor ce node s) := by
  rw [printActor]
  cases hactor : field ce.readInteger node 0x18 with
  | none =>
    refine .nothing fun actor found h => ?_
    rw [h.field] at hactor
    cases hactor
  | some actor =>
    rw [Option.elim_some]
    by_cases hskip : actor = 0 ∨ s.seenActors.contains actor
    · rw [if_pos hskip]
      refine .nothing fun actor' found h => ?_
      obtain rfl := Option.some.inj (h.field.symm.trans hactor)
      exact List.contains_iff_mem.mp (hskip.resolve_left h.actor_ne)
    · rw [if_neg hskip]
      obtain ⟨hne, hfresh⟩ := not_or.mp hskip
      rw [List.contains_iff_mem] at hfresh
      cases haccepted : accepted ce node actor with
      | none =>
        refine .nothing fun actor' found h => ?_
        obtain rfl := Option.some.inj (h.field.symm.trans hactor)
        rw [h.accepted] at haccepted
        cases haccepted
      | some found =>
        obtain ⟨id, x, y⟩ := found
        let named := findName ce s.nameCache id
        let row : Row := ⟨named.1.getD (codes "ID_" ++ hex id.toNat), x, y, id, actor, node⟩
        exact @Prints.line ce node s named.2 row rfl hfresh ⟨hactor, hne, haccepted⟩

/-- The tables agree with the lines; the nodes are counted, and there is room for 1024. -/
structure Consistent (ce : CheatEngine) (s : State) : Prop where
  count : s.count = s.seen.length
  room : s.count ≤ 1024
  fresh : s.seen.Nodup
  actors : s.seenActors = (s.rows.map Row.actor).reverse
  nodup : (s.rows.map Row.actor).Nodup
  rows : ∀ row ∈ s.rows, row.node ∈ s.seen ∧ Holds ce row.node row.actor (row.id, row.x, row.y)

theorem Consistent.enter (hnode : ¬(search ce sentinel).Passes node s) (h : Consistent ce s) :
    Consistent ce { s with seen := node :: s.seen, count := s.count + 1 } := by
  obtain ⟨-, hroom, hnew⟩ := not_or.mp hnode |>.imp_right not_or.mp
  constructor
  · simp [h.count]
  · exact Nat.lt_of_not_le hroom
  · exact List.nodup_cons.mpr ⟨hnew, h.fresh⟩
  · exact h.actors
  · exact h.nodup
  · exact fun row hrow => ⟨.tail _ (h.rows row hrow).1, (h.rows row hrow).2⟩

theorem Consistent.prints (h : Consistent ce s) (hnode : node ∈ s.seen)
    (hprints : Prints ce node s s') : Consistent ce s' := by
  cases hprints with
  | nothing => exact h
  | @line nameCache row hrowNode hfresh hrow =>
    rw [h.actors, List.mem_reverse] at hfresh
    refine ⟨h.count, h.room, h.fresh, by simp [h.actors], ?_, fun row' hrow' => ?_⟩
    · rw [List.map_append, List.map_singleton]
      apply List.nodup_append.mpr
      refine ⟨h.nodup, List.nodup_singleton _, fun actor hactor actor' hactor' heq => ?_⟩
      rw [heq, List.mem_singleton.mp hactor'] at hactor
      exact hfresh hactor
    · obtain hrow' | hrow' := List.mem_append.mp hrow'
      · exact h.rows row' hrow'
      · obtain rfl := List.mem_singleton.mp hrow'
        subst hrowNode
        exact ⟨hnode, hrow⟩

theorem consistent_of_runs {todo out : List ULong} (h : (search ce sentinel).Runs todo s s' out)
    (hs : Consistent ce s) : Consistent ce s' :=
  h.keeps (fun _ _ hnode hs => hs.enter hnode)
    (fun node s hseen hs => hs.prints hseen (printActor_prints ce node s)) hs

theorem listed_of_runs {todo out : List ULong} (h : (search ce sentinel).Runs todo s s' out)
    {found : ULong × BitVec 16 × BitVec 16} (hnode : node ∈ out) (hholds : Holds ce node actor found) :
    actor ∈ s'.seenActors := by
  refine h.achieves (P := fun node s => ∀ actor found, Holds ce node actor found →
    actor ∈ s.seenActors) (fun node s actor found hholds => ?_) (fun node node' s hs => ⟨hs, ?_⟩)
    node hnode actor found hholds
  · change actor ∈ (printActor ce node s).seenActors
    have hprints := printActor_prints ce node s
    generalize printActor ce node s = s' at hprints
    cases hprints with
    | nothing h => exact h actor found hholds
    | @line nameCache row hrowNode _ hrow =>
      obtain rfl : row.actor = actor := Option.some.inj (hrow.field.symm.trans hholds.field)
      exact .head _
  · intro actor found hholds
    change actor ∈ (printActor ce node' s).seenActors
    have hprints := printActor_prints ce node' s
    generalize printActor ce node' s = s' at hprints
    cases hprints with
    | nothing => exact hs actor found hholds
    | line => exact .tail _ (hs actor found hholds)

end Run

section Listing

variable {ce : CheatEngine} {root sentinel : ULong} {s : State} {fuel : Nat}

/-- What the script has printed: the number of nodes in the tree, up to 1024, and lines about
distinct actors of theirs, of which none is missing while the number stays below. -/
structure Listing (ce : CheatEngine) (sentinel root : ULong) (s : State) : Prop where
  few : {node | Reachable ce.readInteger sentinel root node}.encard ≤ 1024 →
    {node | Reachable ce.readInteger sentinel root node}.encard = s.count
  many : 1024 < {node | Reachable ce.readInteger sentinel root node}.encard → s.count = 1024
  nodup : (s.rows.map Row.actor).Nodup
  sound : ∀ row ∈ s.rows, Reachable ce.readInteger sentinel root row.node ∧
    Holds ce row.node row.actor (row.id, row.x, row.y)
  complete : s.count < 1024 → ∀ node actor found, Reachable ce.readInteger sentinel root node →
    Holds ce node actor found → actor ∈ s.rows.map Row.actor

theorem walks (ce : CheatEngine) (sentinel : ULong) : Walks ce sentinel (search ce sentinel) :=
  ⟨fun _ => Iff.rfl, fun _ => rfl, fun _ => rfl⟩

theorem listing_of_walk (hroot : root ≠ 0)
    (h : walk ce sentinel fuel root ⟨[], [], [], 0, []⟩ = some s) : Listing ce sentinel root s := by
  obtain ⟨out, hruns⟩ := Search.runs_of_walk h
  have hconsistent : Consistent ce s :=
    consistent_of_runs hruns ⟨rfl, Nat.zero_le _, List.nodup_nil, rfl, List.nodup_nil, nofun⟩
  have hseen : s.seen = out.reverse := hruns.seen.trans (List.append_nil _)
  obtain ⟨hreached, hall⟩ := (walks ce sentinel).reachable hroot hruns rfl
  have hnodes : ∀ node, node ∈ s.seen ↔ node ∈ out := fun node => by rw [hseen, List.mem_reverse]
  have hcard : {node | node ∈ s.seen}.encard = s.count := by
    rw [hconsistent.count]
    exact encard_of_nodup hconsistent.fresh fun _ => Iff.rfl
  have hsub : {node | node ∈ s.seen} ⊆ {node | Reachable ce.readInteger sentinel root node} :=
    fun node hnode => hreached node ((hnodes node).mp hnode)
  have hbelow : s.count < 1024 →
      {node | Reachable ce.readInteger sentinel root node}.encard = s.count := by
    intro hroom
    rw [← hcard, ← Set.Subset.antisymm hsub fun node hnode =>
      (hnodes node).mpr (hall (Nat.not_le_of_lt hroom) node hnode)]
  have hfull : ¬s.count < 1024 → s.count = 1024 :=
    fun h => Nat.le_antisymm hconsistent.room (Nat.not_lt.mp h)
  constructor
  · intro hfew
    by_cases hroom : s.count < 1024
    · exact hbelow hroom
    · apply le_antisymm
      · rwa [hfull hroom]
      · rw [← hcard]
        exact Set.encard_le_encard hsub
  · intro hmany
    by_contra hne
    have hroom : s.count < 1024 := by
      by_contra h
      exact hne (hfull h)
    rw [hbelow hroom] at hmany
    exact absurd (Nat.cast_lt.mp hmany) (Nat.not_lt.mpr (Nat.le_of_lt hroom))
  · exact hconsistent.nodup
  · intro row hrow
    obtain ⟨hnode, hholds⟩ := hconsistent.rows row hrow
    exact ⟨hreached row.node ((hnodes _).mp hnode), hholds⟩
  · intro hroom node actor found hreachable hholds
    have hnode := hall (Nat.not_le_of_lt hroom) node hreachable
    have hactor := listed_of_runs hruns hnode hholds
    rwa [hconsistent.actors, List.mem_reverse] at hactor

/-- The node that the pointer leads to passes for the root of a tree. -/
structure Roots (ce : CheatEngine) (pointerAddress : ULongPtr) (root sentinel : ULong) : Prop where
  toRoot : ce.readInteger pointerAddress = some root
  root_ne : root ≠ 0
  toSentinel : field ce.readInteger root 4 = some sentinel
  stored : ∃ actor id, field ce.readInteger root 0x18 = some actor ∧
    field ce.readInteger root 0x10 = some id ∧ 0 < id ∧ id ≤ 0xFFFF ∧
    field ce.readInteger actor 8 = some id

theorem start_eq_ok {pointerAddress : ULongPtr} :
    start ce pointerAddress = .ok (root, sentinel) ↔ Roots ce pointerAddress root sentinel := by
  rw [start]
  constructor
  · intro h
    split at h
    · cases h
    rename_i root' hroot
    split at h
    · cases h
    rename_i hne
    split at h
    · cases h
    rename_i sentinel' hsentinel
    split at h
    · rename_i actor id hactor hid
      split at h
      · cases h
      rename_i hchecks
      simp only [not_or, gt_iff_lt, BitVec.not_lt, not_not] at hchecks
      obtain ⟨hid0, hidMax, hsame⟩ := hchecks
      obtain ⟨rfl, rfl⟩ := Prod.mk.inj (Except.ok.inj h)
      exact ⟨hroot, hne, hsentinel, actor, id, hactor, hid, by bv_omega, hidMax, hsame⟩
    · cases h
  · rintro ⟨hroot, hne, hsentinel, actor, id, hactor, hid, hid0, hidMax, hsame⟩
    have hchecks : ¬(id = 0 ∨ id > 0xFFFF ∨ field ce.readInteger actor 8 ≠ some id) := by
      simp only [hsame, ne_eq, not_true_eq_false, or_false]
      bv_omega
    simp only [hroot, if_neg hne, hsentinel, hactor, hid, if_neg hchecks]

theorem script_listed (hfuel : 2 ^ 32 < fuel) {rootPointerExpression : Text}
    {pointerAddress : ULongPtr}
    (hpointer : ce.getAddressSafe rootPointerExpression = some pointerAddress)
    (hroots : Roots ce pointerAddress root sentinel) :
    ∃ s, script ce rootPointerExpression fuel = some (.listed root s) ∧ Listing ce sentinel root s := by
  rw [← card_uLong] at hfuel
  obtain ⟨s, hs, -⟩ := Search.walk_ends (S := search ce sentinel) root ⟨[], [], [], 0, []⟩
    List.nodup_nil hfuel
  refine ⟨s, ?_, listing_of_walk hroots.root_ne hs⟩
  have hwalk : walk ce sentinel fuel root ⟨[], [], [], 0, []⟩ = some s := hs
  rw [script, hpointer]
  simp only [start_eq_ok.mpr hroots, hwalk, Option.map_some]

theorem script_ends (ce : CheatEngine) (hfuel : 2 ^ 32 < fuel) (rootPointerExpression : Text) :
    (∃ outcome, script ce rootPointerExpression fuel = some outcome ∧
      ∀ root s, outcome ≠ .listed root s) ∨
    ∃ pointerAddress root sentinel s, ce.getAddressSafe rootPointerExpression = some pointerAddress ∧
      Roots ce pointerAddress root sentinel ∧
      script ce rootPointerExpression fuel = some (.listed root s) := by
  cases hpointer : ce.getAddressSafe rootPointerExpression with
  | none => exact .inl ⟨.unresolved, by rw [script, hpointer], nofun⟩
  | some pointerAddress =>
    cases hstart : start ce pointerAddress with
    | error fault =>
      refine .inl ⟨.refused fault, ?_, nofun⟩
      rw [script, hpointer]
      dsimp only
      rw [hstart]
    | ok found =>
      obtain ⟨root, sentinel⟩ := found
      have hroots := start_eq_ok.mp hstart
      obtain ⟨s, hs, -⟩ := script_listed hfuel hpointer hroots
      exact .inr ⟨pointerAddress, root, sentinel, s, rfl, hroots, hs⟩

/-- The script comes to an end; where the expression leads to a tree it prints it, and nowhere
else. -/
theorem script_lists (ce : CheatEngine) (rootPointerExpression : Text) (hfuel : 2 ^ 32 < fuel) :
    (script ce rootPointerExpression fuel).isSome ∧
    (∀ pointerAddress root sentinel, ce.getAddressSafe rootPointerExpression = some pointerAddress →
      Roots ce pointerAddress root sentinel → ∃ s, script ce rootPointerExpression fuel =
        some (.listed root s) ∧ Listing ce sentinel root s) ∧
    ∀ root s, script ce rootPointerExpression fuel = some (.listed root s) →
      ∃ pointerAddress sentinel, ce.getAddressSafe rootPointerExpression = some pointerAddress ∧
        Roots ce pointerAddress root sentinel := by
  have hends := script_ends ce hfuel rootPointerExpression
  refine ⟨?_, fun _ _ _ hpointer hroots => script_listed hfuel hpointer hroots, fun root s h => ?_⟩
  · obtain ⟨outcome, hs, -⟩ | ⟨_, root, _, s, -, -, hs⟩ := hends
    · exact Option.isSome_of_eq_some hs
    · exact Option.isSome_of_eq_some hs
  · obtain ⟨outcome, hs, hnot⟩ | ⟨pointerAddress, root', sentinel, s', hpointer, hroots, hs⟩ := hends
    · exact absurd (Option.some.inj (hs.symm.trans h)) (hnot root s)
    · obtain ⟨rfl, rfl⟩ := Outcome.listed.inj (Option.some.inj (hs.symm.trans h))
      exact ⟨pointerAddress, sentinel, hpointer, hroots⟩

def grove : Target samplePlatform := .ofCells samplePlatform silentApi [
  (0x01100000, 0x01300000), -- the root pointer
  (0x01300000, 0x01310000), (0x01300004, 0x01200000), (0x01300008, 0x01320000),
  (0x01300010, 5), (0x01300018, 0x01400000), -- the root
  (0x01310000, 0x01200000), (0x01310004, 0x01300000), (0x01310008, 0x01200000),
  (0x01310010, 6), (0x01310018, 0x01410000), -- its left branch
  (0x01320004, 0x01310000), (0x01320010, 7), (0x01320018, 0x01420000), -- its right one
  (0x01400008, 5), (0x0140000C, 0x00200010), (0x01410008, 6), (0x0141000C, 0x00300011),
  (0x01420008, 7), (0x0142000C, 0x00400012)] -- their actors

def groveEngine : CheatEngine := .ofTarget grove 0x01100000

example : (walk groveEngine 0x01200000 9 0x01300000 ⟨[], [], [], 0, []⟩).map (fun s =>
    (s.count, s.rows.map Row.id)) = some (2, [6, 5]) := by decide +kernel

theorem grove_roots : Roots groveEngine 0x01100000 0x01300000 0x01200000 where
  toRoot := by decide +kernel
  root_ne := by decide
  toSentinel := by decide +kernel
  stored := ⟨0x01400000, 5, by decide +kernel⟩

theorem grove_lists : ∃ s, script groveEngine [] (2 ^ 32 + 1) = some (.listed 0x01300000 s) ∧
    Listing groveEngine 0x01200000 0x01300000 s :=
  (script_lists groveEngine [] (Nat.lt_succ_self _)).2.1 0x01100000 _ _ rfl grove_roots

end Listing

end DarkEden.NearbyCharacters
