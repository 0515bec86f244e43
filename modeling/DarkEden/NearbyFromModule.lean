import DarkEden.CheatEngine
import DarkEden.NearbyNames

namespace DarkEden.NearbyFromModule

open Interaction Descent Traversal NearbyGraph CheatEngine
open Json (Text codes)

section Source

structure Row where
  name : Text
  race : Text
  x : BitVec 16
  y : BitVec 16
  id : ULong
  actor : ULong
  node : ULong
  deriving DecidableEq

/-- The tables of the script, and the lines it has printed. -/
structure State where
  names : List (ULong × Text)
  seenNodes : List ULong
  seenActors : List ULong
  count : Nat
  rows : List Row

variable (ce : CheatEngine)

/-- The name at the name pointer of the actor, or one found by its id. -/
def newName (id actor : ULong) : Text :=
  let direct := (field ce.readInteger actor 0x544).bind fun pointer =>
    ce.readString (pointer.setWidth 64) 64
  (direct.filter (· ≠ [])).getD ((ce.nameNear 32 id).getD (codes "ID_" ++ hex id.toNat))

def nameFor (names : List (ULong × Text)) (id actor : ULong) : Text × List (ULong × Text) :=
  match names.lookup id with
  | some name => (name, names)
  | none => (newName ce id actor, (id, newName ce id actor) :: names)

def raceFor (actor : ULong) : Text :=
  let flag := field ce.readInteger actor 0x558
  let kind := field ce.readInteger actor 0x610
  if flag = some 0x42 ∧ kind = some 0 then codes "Ousters"
  else if flag = some 0 ∧ kind = some 2 then codes "Vampire"
  else if flag = some 0x63 ∧ kind = some 0 then codes "Slayer"
  else codes "Unknown"

def accepted (node actor : ULong) : Option (ULong × BitVec 16 × BitVec 16) := do
  let id ← field ce.readInteger actor 8
  let x ← ce.readSmallInteger (actor.setWidth 64 + 0x0C)
  let y ← ce.readSmallInteger (actor.setWidth 64 + 0x0E)
  if 0 < id ∧ field ce.readInteger node 0x10 = some id ∧ x < 5000 ∧ y < 5000 then some (id, x, y)
  else none

def printRow (node actor : ULong) (s : State) (found : ULong × BitVec 16 × BitVec 16) : State :=
  let id := found.1
  let named := nameFor ce s.names id actor
  { s with
    names := named.2
    seenActors := actor :: s.seenActors
    count := s.count + 1
    rows := s.rows ++ [⟨named.1, raceFor ce actor, found.2.1, found.2.2, id, actor, node⟩] }

/-- What `walk` does at a node between the two branches. -/
def printActor (node : ULong) (s : State) : State :=
  (field ce.readInteger node 0x14).elim s fun actor =>
    if actor = 0 ∨ s.seenActors.contains actor then s
    else (accepted ce node actor).elim s (printRow ce node actor s)

/-- A field of the tables that printing a line leaves alone is left alone at every node. -/
theorem printActor_cases {P : State → Prop} (node : ULong) {s : State} (hs : P s)
    (hrow : ∀ actor found, P (printRow ce node actor s found)) : P (printActor ce node s) := by
  rw [printActor]
  cases field ce.readInteger node 0x14 with
  | none => exact hs
  | some actor =>
    rw [Option.elim_some]
    by_cases hskip : actor = 0 ∨ s.seenActors.contains actor
    · rwa [if_pos hskip]
    · rw [if_neg hskip]
      cases accepted ce node actor with
      | none => exact hs
      | some found => exact hrow actor found

variable (header : ULong)

def search : Search ULong State where
  seen s := s.seenNodes
  full s := 2048 ≤ s.count
  refused node := node = 0 ∨ node = header
  enter node s := { s with seenNodes := node :: s.seenNodes }
  act := printActor ce
  first node := ce.branch header node 0
  last node := ce.branch header node 8
  seen_enter _ _ := rfl
  seen_act node s := printActor_cases ce (P := fun s' => s'.seenNodes = s.seenNodes) node rfl
    fun _ _ => rfl
  full_enter _ _ h := h
  full_act node _ h := printActor_cases ce (P := fun s => 2048 ≤ s.count) node h
    fun _ _ => Nat.le_succ_of_le h

instance (node : ULong) (s : State) : Decidable ((search ce header).Passes node s) :=
  inferInstanceAs (Decidable ((node = 0 ∨ node = header) ∨ 2048 ≤ s.count ∨ node ∈ s.seenNodes))

/-- The recursive `walk`; without fuel it has not come to an end. -/
def walk (fuel : Nat) (node : ULong) (s : State) : Option State := (search ce header).walk fuel node s

inductive Outcome
  | noModule
  | notAvailable
  | listed (manager header root : ULong) (s : State)

omit header in
def script (fuel : Nat) : Option Outcome :=
  match ce.getAddressSafe (codes "darkeden.exe+AB31D0") with
  | none => some .noModule
  | some moduleField =>
    let manager := ce.readInteger moduleField
    let header := manager.bind fun manager => field ce.readInteger manager 0x34
    let root := header.bind fun header => field ce.readInteger header 4
    match manager, header, root with
    | some manager, some header, some root =>
      if manager = 0 ∨ header = 0 ∨ root = 0 then some .notAvailable
      else (walk ce header fuel root ⟨[], [], [], 0, []⟩).map (.listed manager header root)
    | _, _, _ => some .notAvailable

end Source

section Tree

variable {ce : CheatEngine} {header node actor : ULong}

theorem accepted_eq_some {id : ULong} {x y : BitVec 16} : accepted ce node actor = some (id, x, y) ↔
    field ce.readInteger actor 8 = some id ∧
      ce.readSmallInteger (actor.setWidth 64 + 0x0C) = some x ∧
      ce.readSmallInteger (actor.setWidth 64 + 0x0E) = some y ∧
      0 < id ∧ field ce.readInteger node 0x10 = some id ∧ x < 5000 ∧ y < 5000 := by
  simp only [accepted, Option.bind_eq_bind, Option.bind_eq_some_iff, Option.ite_none_right_eq_some,
    Option.some.injEq, Prod.mk.injEq]
  constructor
  · rintro ⟨id, hid, x, hx, y, hy, hchecks, rfl, rfl, rfl⟩
    exact ⟨hid, hx, hy, hchecks⟩
  · rintro ⟨hid, hx, hy, hchecks⟩
    exact ⟨id, hid, x, hx, y, hy, hchecks, rfl, rfl, rfl⟩

theorem readPacked_iff {packed : ULong} : field ce.readInteger actor 0x0C = some packed ↔
    ce.readSmallInteger (actor.setWidth 64 + 0x0C) = some (packed.setWidth 16) ∧
      ce.readSmallInteger (actor.setWidth 64 + 0x0E) = some ((packed >>> 16).setWidth 16) := by
  have haddress : actor.setWidth 64 + 0x0C + 2 = actor.setWidth 64 + (0x0E : ULongPtr) := by
    rw [BitVec.add_assoc]
    rfl
  rw [field, readInteger_eq_some, haddress]

theorem packed_halves (packed : ULong) : packed &&& 0xFFFF = (packed.setWidth 16).setWidth 32 ∧
    packed >>> 16 = ((packed >>> 16).setWidth 16).setWidth 32 := by
  have hlt := packed.isLt
  constructor
  · apply BitVec.eq_of_toNat_eq
    rw [BitVec.toNat_and, BitVec.toNat_setWidth, BitVec.toNat_setWidth,
      show BitVec.toNat (0xFFFF : ULong) = 2 ^ 16 - 1 from rfl, Nat.and_two_pow_sub_one_eq_mod]
    omega
  · bv_omega

theorem exists_packed (x y : BitVec 16) :
    ∃ packed : ULong, packed.setWidth 16 = x ∧ (packed >>> 16).setWidth 16 = y := by
  have hx := x.isLt
  have hy := y.isLt
  refine ⟨BitVec.ofNat 32 (x.toNat + 65536 * y.toNat), ?_, ?_⟩ <;> apply BitVec.eq_of_toNat_eq
  · rw [BitVec.toNat_setWidth, BitVec.toNat_ofNat]
    omega
  · rw [BitVec.toNat_setWidth, BitVec.toNat_ushiftRight, BitVec.toNat_ofNat,
      Nat.shiftRight_eq_div_pow]
    omega

theorem accepted_iff {id : ULong} {packed : ULong} (hne : actor ≠ 0) :
    accepted ce node actor = some (id, packed.setWidth 16, (packed >>> 16).setWidth 16) ↔
      field ce.readInteger node 0x10 = some id ∧
        Accepted (reads ce.readInteger) actor id packed := by
  obtain ⟨hlow, hhigh⟩ := packed_halves packed
  have hx : packed &&& 0xFFFF < 5000 ↔ packed.setWidth 16 < (5000 : BitVec 16) := by
    rw [hlow]
    bv_omega
  have hy : packed >>> 16 < 5000 ↔ (packed >>> 16).setWidth 16 < (5000 : BitVec 16) := by
    rw [hhigh]
    bv_omega
  rw [accepted_eq_some]
  constructor
  · rintro ⟨hid, hreadX, hreadY, hid0, hkey, hltX, hltY⟩
    exact ⟨hkey, hne, hid.symm, (readPacked_iff.mpr ⟨hreadX, hreadY⟩).symm,
      fun h => absurd (h ▸ hid0) (by decide), hx.mpr hltX, hy.mpr hltY⟩
  · rintro ⟨hkey, h⟩
    have hid := h.id_ne
    obtain ⟨hreadX, hreadY⟩ := readPacked_iff.mp h.readPacked.symm
    exact ⟨h.readId.symm, hreadX, hreadY, by bv_omega, hkey, hx.mp h.x_lt, hy.mp h.y_lt⟩

theorem stores_iff : Stores ce.readInteger node actor ↔
    field ce.readInteger node 0x14 = some actor ∧ actor ≠ 0 ∧
      ∃ id x y, accepted ce node actor = some (id, x, y) := by
  constructor
  · rintro ⟨hactor, id, packed, hkey, h⟩
    exact ⟨hactor, h.actor_ne, id, _, _, (accepted_iff h.actor_ne).mpr ⟨hkey, h⟩⟩
  · rintro ⟨hactor, hne, id, x, y, h⟩
    obtain ⟨packed, rfl, rfl⟩ := exists_packed x y
    exact ⟨hactor, id, packed, (accepted_iff hne).mp h⟩

end Tree

section Names

variable {ce : CheatEngine} {names names' : List (ULong × Text)} {id actor : ULong} {name : Text}

theorem newName_ne_nil (ce : CheatEngine) (id actor : ULong) : newName ce id actor ≠ [] := by
  rw [newName]
  cases hdirect : Option.filter (· ≠ []) _ with
  | some direct => exact of_decide_eq_true (Option.filter_eq_some_iff.mp hdirect).2
  | none =>
    cases hnear : ce.nameNear 32 id with
    | some near => exact nameNear_ne_nil hnear
    | none => exact List.append_ne_nil_of_left_ne_nil (by decide) _

/-- The name is not empty, it is in the table from now on, and no other entry changes. -/
theorem nameFor_spec (hnames : ∀ entry ∈ names, entry.2 ≠ [])
    (h : nameFor ce names id actor = (name, names')) :
    name ≠ [] ∧ (∀ entry ∈ names', entry.2 ≠ []) ∧ names'.lookup id = some name ∧
      ∀ id' name', names.lookup id' = some name' → names'.lookup id' = some name' := by
  rw [nameFor] at h
  cases hknown : names.lookup id with
  | some known =>
    rw [hknown] at h
    obtain ⟨rfl, rfl⟩ := Prod.mk.inj h
    obtain ⟨before, after, rfl, -⟩ := List.lookup_eq_some_iff.mp hknown
    exact ⟨hnames (id, known) (by simp), hnames, hknown, fun _ _ h => h⟩
  | none =>
    rw [hknown] at h
    obtain ⟨rfl, rfl⟩ := Prod.mk.inj h
    have hne := newName_ne_nil ce id actor
    refine ⟨hne, fun entry hentry => ?_, List.lookup_cons_self, fun id' name' hname' => ?_⟩
    · obtain rfl | hentry := List.mem_cons.mp hentry
      · exact hne
      · exact hnames entry hentry
    · have hother : id' ≠ id := by
        rintro rfl
        exact absurd (hknown.symm.trans hname') nofun
      rwa [List.lookup_cons, beq_false_of_ne hother]

end Names

section Run

variable {ce : CheatEngine} {header node actor : ULong} {s s' : State}

structure Row.Shows (ce : CheatEngine) (row : Row) : Prop where
  stored : field ce.readInteger row.node 0x14 = some row.actor ∧ row.actor ≠ 0
  accepted : NearbyFromModule.accepted ce row.node row.actor = some (row.id, row.x, row.y)
  race : row.race = raceFor ce row.actor

theorem Row.Shows.stores {row : Row} (h : row.Shows ce) :
    Stores ce.readInteger row.node row.actor :=
  stores_iff.mpr ⟨h.stored.1, h.stored.2, _, _, _, h.accepted⟩

inductive Prints (ce : CheatEngine) (node : ULong) (s : State) : State → Prop
  | nothing (h : ∀ actor, Stores ce.readInteger node actor → actor ∈ s.seenActors) :
      Prints ce node s s
  | line {names : List (ULong × Text)} {row : Row} (hnode : row.node = node)
      (hfresh : row.actor ∉ s.seenActors) (hrow : row.Shows ce)
      (hname : nameFor ce s.names row.id row.actor = (row.name, names)) :
      Prints ce node s { s with
        names := names
        seenActors := row.actor :: s.seenActors
        count := s.count + 1
        rows := s.rows ++ [row] }

theorem printActor_prints (ce : CheatEngine) (node : ULong) (s : State) :
    Prints ce node s (printActor ce node s) := by
  rw [printActor]
  cases hactor : field ce.readInteger node 0x14 with
  | none =>
    refine .nothing fun actor h => ?_
    rw [(stores_iff.mp h).1] at hactor
    cases hactor
  | some actor =>
    have hsame : ∀ {actor'}, Stores ce.readInteger node actor' → actor' = actor ∧ actor ≠ 0 ∧
        ∃ id x y, accepted ce node actor = some (id, x, y) := by
      intro actor' h
      obtain ⟨hactor', hne, haccepted⟩ := stores_iff.mp h
      obtain rfl := Option.some.inj (hactor'.symm.trans hactor)
      exact ⟨rfl, hne, haccepted⟩
    rw [Option.elim_some]
    by_cases hskip : actor = 0 ∨ s.seenActors.contains actor
    · rw [if_pos hskip]
      refine .nothing fun actor' h => ?_
      obtain ⟨rfl, hne, -⟩ := hsame h
      exact List.contains_iff_mem.mp (hskip.resolve_left hne)
    · rw [if_neg hskip]
      obtain ⟨hne, hfresh⟩ := not_or.mp hskip
      rw [List.contains_iff_mem] at hfresh
      cases haccepted : accepted ce node actor with
      | none =>
        refine .nothing fun actor' h => ?_
        obtain ⟨rfl, -, id, x, y, h⟩ := hsame h
        rw [haccepted] at h
        cases h
      | some found =>
        obtain ⟨id, x, y⟩ := found
        let named := nameFor ce s.names id actor
        let row : Row := ⟨named.1, raceFor ce actor, x, y, id, actor, node⟩
        have hrow : row.Shows ce := ⟨⟨hactor, hne⟩, haccepted, rfl⟩
        exact @Prints.line ce node s named.2 row rfl hfresh hrow rfl

structure Consistent (ce : CheatEngine) (s : State) : Prop where
  count : s.count = s.rows.length
  actors : s.seenActors = (s.rows.map Row.actor).reverse
  nodup : (s.rows.map Row.actor).Nodup
  rows : ∀ row ∈ s.rows, row.node ∈ s.seenNodes ∧ row.Shows ce
  named : ∀ row ∈ s.rows, row.name ≠ [] ∧ s.names.lookup row.id = some row.name
  names : ∀ entry ∈ s.names, entry.2 ≠ []

theorem Consistent.start (ce : CheatEngine) : Consistent ce ⟨[], [], [], 0, []⟩ :=
  ⟨rfl, rfl, List.nodup_nil, nofun, nofun, nofun⟩

theorem Consistent.enter (node : ULong) (h : Consistent ce s) :
    Consistent ce { s with seenNodes := node :: s.seenNodes } where
  count := h.count
  actors := h.actors
  nodup := h.nodup
  rows row hrow := ⟨.tail _ (h.rows row hrow).1, (h.rows row hrow).2⟩
  named := h.named
  names := h.names

theorem Consistent.prints (h : Consistent ce s) (hnode : node ∈ s.seenNodes)
    (hprints : Prints ce node s s') : Consistent ce s' := by
  cases hprints with
  | nothing => exact h
  | @line names row hrowNode hfresh hrow hname =>
    obtain ⟨hne, hnames, hlookup, hkept⟩ := nameFor_spec h.names hname
    have hnew : row.actor ∉ s.rows.map Row.actor := by
      intro hmem
      rw [h.actors, List.mem_reverse] at hfresh
      exact hfresh hmem
    constructor
    · simp [h.count]
    · simp [h.actors]
    · rw [List.map_append, List.map_singleton]
      apply List.nodup_append.mpr
      refine ⟨h.nodup, List.nodup_singleton _, fun actor hactor actor' hactor' heq => ?_⟩
      rw [heq, List.mem_singleton.mp hactor'] at hactor
      exact hnew hactor
    · intro row' hrow'
      obtain hrow' | hrow' := List.mem_append.mp hrow'
      · exact h.rows row' hrow'
      · obtain rfl := List.mem_singleton.mp hrow'
        exact ⟨hrowNode ▸ hnode, hrow⟩
    · intro row' hrow'
      obtain hrow' | hrow' := List.mem_append.mp hrow'
      · exact ⟨(h.named row' hrow').1, hkept _ _ (h.named row' hrow').2⟩
      · obtain rfl := List.mem_singleton.mp hrow'
        exact ⟨hne, hlookup⟩
    · exact hnames

end Run

section Printout

variable {ce : CheatEngine} {header root : ULong} {s : State} {fuel : Nat}

/-- What the script has printed: lines about distinct actors in the tree, on which an id never has
two names. While there are fewer than 2048 of them, no actor in the tree is missing. -/
structure Printout (ce : CheatEngine) (header root : ULong) (s : State) : Prop where
  count : s.count = s.rows.length
  nodup : (s.rows.map Row.actor).Nodup
  sound : ∀ row ∈ s.rows, Reachable ce.readInteger header root row.node ∧ row.Shows ce
  complete : s.count < 2048 → ∀ node actor, Reachable ce.readInteger header root node →
    Stores ce.readInteger node actor → actor ∈ s.rows.map Row.actor
  named : ∀ row ∈ s.rows, row.name ≠ []
  sameName : ∀ row ∈ s.rows, ∀ row' ∈ s.rows, row.id = row'.id → row.name = row'.name

theorem walks (ce : CheatEngine) (header : ULong) : Walks ce header (search ce header) :=
  ⟨fun _ => Iff.rfl, fun _ => rfl, fun _ => rfl⟩

theorem consistent_of_runs {todo out : List ULong} {s s' : State}
    (h : (search ce header).Runs todo s s' out) (hs : Consistent ce s) : Consistent ce s' :=
  h.keeps (fun node _ _ hs => hs.enter node)
    (fun node s hseen hs => hs.prints hseen (printActor_prints ce node s)) hs

theorem listed_of_runs {todo out : List ULong} {s s' : State}
    (h : (search ce header).Runs todo s s' out) {node actor : ULong} (hnode : node ∈ out)
    (hstores : Stores ce.readInteger node actor) : actor ∈ s'.seenActors := by
  refine h.achieves (P := fun node s => ∀ actor, Stores ce.readInteger node actor →
    actor ∈ s.seenActors) (fun node s actor hstores => ?_) (fun node node' s hs => ⟨hs, ?_⟩) node
    hnode actor hstores
  · change actor ∈ (printActor ce node s).seenActors
    have hprints := printActor_prints ce node s
    generalize printActor ce node s = s' at hprints
    cases hprints with
    | nothing h => exact h actor hstores
    | @line names row hrowNode _ hrow =>
      obtain rfl : row.actor = actor := by
        have hactor := (stores_iff.mp hstores).1
        rw [← hrowNode] at hactor
        exact Option.some.inj (hrow.stored.1.symm.trans hactor)
      exact .head _
  · intro actor hstores
    change actor ∈ (printActor ce node' s).seenActors
    have hprints := printActor_prints ce node' s
    generalize printActor ce node' s = s' at hprints
    cases hprints with
    | nothing => exact hs actor hstores
    | line => exact .tail _ (hs actor hstores)

theorem printout_of_walk (hroot : root ≠ 0)
    (h : walk ce header fuel root ⟨[], [], [], 0, []⟩ = some s) : Printout ce header root s := by
  obtain ⟨out, hruns⟩ := Search.runs_of_walk h
  have hconsistent := consistent_of_runs hruns (.start ce)
  have hseen : s.seenNodes = out.reverse := hruns.seen.trans (List.append_nil _)
  obtain ⟨hreached, hall⟩ := (walks ce header).reachable hroot hruns rfl
  constructor
  · exact hconsistent.count
  · exact hconsistent.nodup
  · intro row hrow
    obtain ⟨hnode, hshows⟩ := hconsistent.rows row hrow
    rw [hseen, List.mem_reverse] at hnode
    exact ⟨hreached row.node hnode, hshows⟩
  · intro hfew node actor hreachable hstores
    have hnode := hall (Nat.not_le_of_lt hfew) node hreachable
    have hactor := listed_of_runs hruns hnode hstores
    rwa [hconsistent.actors, List.mem_reverse] at hactor
  · exact fun row hrow => (hconsistent.named row hrow).1
  · intro row hrow row' hrow' hid
    have hname := (hconsistent.named row hrow).2
    have hname' := (hconsistent.named row' hrow').2
    rw [hid] at hname
    exact Option.some.inj (hname.symm.trans hname')

theorem walk_ends (ce : CheatEngine) (header root : ULong) (hfuel : 2 ^ 32 < fuel) :
    ∃ s, walk ce header fuel root ⟨[], [], [], 0, []⟩ = some s := by
  rw [← card_uLong] at hfuel
  obtain ⟨s, hs, -⟩ := Search.walk_ends (S := search ce header) root ⟨[], [], [], 0, []⟩
    List.nodup_nil hfuel
  exact ⟨s, hs⟩

/-- The pointers that lead from the module to the tree, none of which is zero. -/
structure Available (ce : CheatEngine) (manager header root : ULong) : Prop where
  toManager : (ce.getAddressSafe (codes "darkeden.exe+AB31D0")).bind ce.readInteger = some manager
  manager_ne : manager ≠ 0
  toHeader : field ce.readInteger manager 0x34 = some header
  header_ne : header ≠ 0
  toRoot : field ce.readInteger header 4 = some root
  root_ne : root ≠ 0

theorem script_available {manager : ULong} (h : Available ce manager header root) :
    script ce fuel =
      (walk ce header fuel root ⟨[], [], [], 0, []⟩).map (.listed manager header root) := by
  obtain ⟨moduleField, hmodule, hmanager⟩ := Option.bind_eq_some_iff.mp h.toManager
  have hzero : ¬(manager = 0 ∨ header = 0 ∨ root = 0) :=
    not_or.mpr ⟨h.manager_ne, not_or.mpr ⟨h.header_ne, h.root_ne⟩⟩
  rw [script, hmodule]
  simp only [hmanager, Option.bind_some, h.toHeader, h.toRoot, if_neg hzero]

theorem script_unavailable (h : ∀ manager header root, ¬Available ce manager header root) :
    script ce fuel = some .noModule ∨ script ce fuel = some .notAvailable := by
  rw [script]
  cases hmodule : ce.getAddressSafe (codes "darkeden.exe+AB31D0") with
  | none => exact .inl rfl
  | some moduleField =>
    right
    dsimp only
    split
    · rename_i manager header root hmanager hheader hroot
      rw [hmanager, Option.bind_some] at hheader hroot
      rw [hheader, Option.bind_some] at hroot
      by_cases hzero : manager = 0 ∨ header = 0 ∨ root = 0
      · rw [if_pos hzero]
      · obtain ⟨hm, hh, hr⟩ := not_or.mp hzero |>.imp_right not_or.mp
        refine absurd ⟨?_, hm, hheader, hh, hroot, hr⟩ (h manager header root)
        rw [hmodule, Option.bind_some, hmanager]
    · rfl

/-- On every memory, whatever its pointers, the script comes to an end. It prints the tree, if the
pointers lead to one. -/
theorem script_prints (ce : CheatEngine) (hfuel : 2 ^ 32 < fuel) :
    (∀ manager header root, Available ce manager header root →
      ∃ s, script ce fuel = some (.listed manager header root s) ∧ Printout ce header root s) ∧
    ((∀ manager header root, ¬Available ce manager header root) →
      script ce fuel = some .noModule ∨ script ce fuel = some .notAvailable) := by
  refine ⟨fun manager header root havailable => ?_, script_unavailable⟩
  obtain ⟨s, hs⟩ := walk_ends ce header root hfuel
  refine ⟨s, ?_, printout_of_walk havailable.root_ne hs⟩
  rw [script_available havailable, hs]
  rfl

def knotEngine : CheatEngine := .ofTarget knot 0x00EB31D0

example : (walk knotEngine 0x01200000 9 0x01300000 ⟨[], [], [], 0, []⟩).map (fun s =>
    s.rows.map fun row => (row.x, row.y, row.id, row.actor, row.node)) =
      some [(16, 32, 5, 0x01400000, 0x01300000)] := by decide +kernel

theorem knot_available : Available knotEngine 0x01100000 0x01200000 0x01300000 where
  toManager := by decide +kernel
  manager_ne := by decide
  toHeader := by decide +kernel
  header_ne := by decide
  toRoot := by decide +kernel
  root_ne := by decide

theorem knot_prints : ∃ s, script knotEngine (2 ^ 32 + 1) =
    some (.listed 0x01100000 0x01200000 0x01300000 s) ∧ Printout knotEngine 0x01200000 0x01300000 s :=
  (script_prints knotEngine (Nat.lt_succ_self _)).1 _ _ _ knot_available

end Printout

end DarkEden.NearbyFromModule
