import DarkEden.Interaction.Preorder
import DarkEden.Traversal
import Mathlib.Data.List.Nodup
import Mathlib.Data.Set.Card

namespace DarkEden.NearbyGraph

open Interaction Preorder Protocol Client Engine EngineRules Traversal

section Graph

/-! The graph that the nodes form in a memory of which `see` tells what `ReadDword` reads. -/

variable (see : ULongPtr → Option ULong) (header : ULong)

/-- The reads of a memory that does not change. -/
def reads (address : ULongPtr) (value : Option ULong) : Prop := value = see address

def field (pointer : ULong) (offset : ULongPtr) : Option ULong := see (pointer.setWidth 64 + offset)

/-- A child of the node: a node of its own that points back. -/
def IsChild (node child : ULong) : Prop :=
  child ≠ 0 ∧ child ≠ header ∧ field see child 4 = some node

instance (node child : ULong) : Decidable (IsChild see header node child) :=
  inferInstanceAs (Decidable (_ ∧ _ ∧ _))

def children (node : ULong) : List ULong :=
  ((field see node 0).toList ++ (field see node 8).toList).filter (IsChild see header node)

inductive Reachable (root : ULong) : ULong → Prop
  | root (h : root ≠ header) : Reachable root root
  | left {node child : ULong} (hnode : Reachable root node) (h : field see node 0 = some child)
      (hchild : IsChild see header node child) : Reachable root child
  | right {node child : ULong} (hnode : Reachable root node) (h : field see node 8 = some child)
      (hchild : IsChild see header node child) : Reachable root child

/-- The actor pointer stored at the node is one that the listing accepts. -/
def Stores (node actor : ULong) : Prop :=
  field see node 0x14 = some actor ∧ ∃ key packed, field see node 0x10 = some key ∧
    Accepted (reads see) actor key packed

/-- The same, computed. -/
def stored (node : ULong) : Option ULong := do
  let key ← field see node 0x10
  let actor ← field see node 0x14
  let id ← field see actor 8
  let packed ← field see actor 0x0C
  if actor ≠ 0 ∧ id ≠ 0 ∧ id = key ∧ packed &&& 0xFFFF < 5000 ∧ packed >>> 16 < 5000 then some actor
  else none

variable {see header}

theorem stored_eq_some {node actor : ULong} : stored see node = some actor ↔ Stores see node actor := by
  simp only [stored, Stores, Option.bind_eq_bind, Option.bind_eq_some_iff,
    Option.ite_none_right_eq_some, Option.some.injEq]
  constructor
  · rintro ⟨key, hkey, actor', hactor, id, hid, packed, hpacked, ⟨hne, hid0, rfl, hx, hy⟩, rfl⟩
    exact ⟨hactor, id, packed, hkey, hne, hid.symm, hpacked.symm, hid0, hx, hy⟩
  · rintro ⟨hactor, key, packed, hkey, haccepted⟩
    exact ⟨key, hkey, actor, hactor, key, haccepted.readId.symm, packed, haccepted.readPacked.symm,
      ⟨haccepted.actor_ne, haccepted.id_ne, rfl, haccepted.x_lt, haccepted.y_lt⟩, rfl⟩

theorem mem_children {node child : ULong} : child ∈ children see header node ↔
    (field see node 0 = some child ∨ field see node 8 = some child) ∧
      IsChild see header node child := by
  rw [children, List.mem_filter, List.mem_append, Option.mem_toList, Option.mem_toList,
    decide_eq_true_eq]

/-- The pointers of the list that stand for a node. -/
def real (header : ULong) (pointers : List ULong) : List ULong :=
  pointers.filter fun node => node ≠ 0 ∧ node ≠ header

theorem real_cons_pos {node : ULong} {rest : List ULong} (h : node ≠ 0 ∧ node ≠ header) :
    real header (node :: rest) = node :: real header rest :=
  List.filter_cons_of_pos (decide_eq_true h)

theorem real_cons_neg {node : ULong} {rest : List ULong} (h : ¬(node ≠ 0 ∧ node ≠ header)) :
    real header (node :: rest) = real header rest :=
  List.filter_cons_of_neg (by simpa using h)

theorem mem_real {node : ULong} {pointers : List ULong} :
    node ∈ real header pointers ↔ node ∈ pointers ∧ node ≠ 0 ∧ node ≠ header := by
  rw [real, List.mem_filter, decide_eq_true_eq]

theorem reachable_iff {root : ULong} (hroot : root ≠ 0) {node : ULong} :
    Reachable see header root node ↔ ∃ r ∈ real header [root],
      Relation.ReflTransGen (fun a b => b ∈ children see header a) r node := by
  constructor
  · intro h
    induction h with
    | root h => exact ⟨root, mem_real.mpr ⟨.head _, hroot, h⟩, .refl⟩
    | left _ h hchild ih =>
      obtain ⟨r, hr, hpath⟩ := ih
      exact ⟨r, hr, hpath.tail (mem_children.mpr ⟨.inl h, hchild⟩)⟩
    | right _ h hchild ih =>
      obtain ⟨r, hr, hpath⟩ := ih
      exact ⟨r, hr, hpath.tail (mem_children.mpr ⟨.inr h, hchild⟩)⟩
  · rintro ⟨r, hr, hpath⟩
    induction hpath with
    | refl =>
      obtain ⟨hmem, -, hheader⟩ := mem_real.mp hr
      obtain rfl := List.mem_singleton.mp hmem
      exact .root hheader
    | tail _ hstep ih =>
      obtain ⟨hside, hchild⟩ := mem_children.mp hstep
      obtain h | h := hside
      · exact .left ih h hchild
      · exact .right ih h hchild

end Graph

section Walking

variable {see : ULongPtr → Option ULong} {N : ULong → WString → Prop} {header root : ULong}

theorem pushed_cases {node child : ULong} {seenNodes pushed : List ULong}
    (h : Pushed (reads see) header node child seenNodes pushed) :
    pushed = [child].filter (IsChild see header node) ∨ pushed = [] ∧ child ∈ seenNodes := by
  cases h with
  | passed h =>
    obtain h | h | h := h
    · left
      simp [IsChild, h]
    · left
      simp [IsChild, h]
    · exact .inr ⟨rfl, h⟩
  | foreign _ hparent h =>
    left
    have hnot : ¬IsChild see header node child := fun hc => h (hparent.trans hc.2.2)
    simp [hnot]
  | own hfresh hparent =>
    left
    obtain ⟨hzero, hheader, -⟩ := not_or.mp hfresh |>.imp_right not_or.mp
    have hchild : IsChild see header node child := ⟨hzero, hheader, hparent.symm⟩
    simp [hchild]

theorem real_pushed {node child : ULong} {seenNodes pushed : List ULong}
    (h : Pushed (reads see) header node child seenNodes pushed) : real header pushed = pushed := by
  cases h with
  | own hfresh hparent =>
    obtain ⟨hzero, hheader, -⟩ := not_or.mp hfresh |>.imp_right not_or.mp
    exact real_cons_pos ⟨hzero, hheader⟩
  | _ => rfl

/-- Pushing the children of a node continues the visit as in the graph. -/
theorem visits_pushed {node child : ULong} {seenNodes pushed xs ys out : List ULong}
    (hpushed : Pushed (reads see) header node child seenNodes pushed)
    (h : Visits (children see header) (xs ++ (pushed ++ ys)) seenNodes out) :
    Visits (children see header) (xs ++ ([child].filter (IsChild see header node) ++ ys)) seenNodes
      out := by
  obtain rfl | ⟨rfl, hseen⟩ := pushed_cases hpushed
  · exact h
  · by_cases hchild : IsChild see header node child
    · rw [List.filter_cons_of_pos (by simpa using hchild)]
      exact h.insert hseen
    · rw [List.filter_cons_of_neg (by simpa using hchild)]
      exact h

structure Explored (see : ULongPtr → Option ULong) (header root : ULong) (walk : Walk) : Prop where
  nodup : walk.seenNodes.Nodup
  room : walk.seenNodes.length ≤ 2048
  seen : ∀ node ∈ walk.seenNodes, Reachable see header root node
  pending : ∀ node ∈ real header walk.pending, Reachable see header root node
  order : ∀ out, Visits (children see header) (real header walk.pending) walk.seenNodes out →
    Visits (children see header) (real header [root]) [] (walk.seenNodes.reverse ++ out)
  actors : walk.seenActors.reverse = (walk.seenNodes.reverse.filterMap (stored see)).eraseDups

theorem explored_start : Explored see header root ⟨[root], [], [], []⟩ where
  nodup := List.nodup_nil
  room := Nat.zero_le _
  seen := nofun
  pending node hnode := by
    obtain ⟨hmem, -, hheader⟩ := mem_real.mp hnode
    obtain rfl := List.mem_singleton.mp hmem
    exact .root hheader
  order _ h := h
  actors := rfl

theorem eraseDups_snoc (actors : List ULong) (actor : ULong) :
    (actors ++ [actor]).eraseDups =
      if actor ∈ actors then actors.eraseDups else actors.eraseDups ++ [actor] := by
  rw [List.eraseDups_append, List.cons_removeAll]
  by_cases h : actor ∈ actors
  · simp [h]
  · simp [h, List.eraseDups_cons]

theorem stored_accepted {node key actor a : ULong} (hkey : field see node 0x10 = some key)
    (hactor : field see node 0x14 = some actor) (h : stored see node = some a) :
    a = actor ∧ ∃ packed, Accepted (reads see) actor key packed := by
  obtain ⟨hactor', key', packed, hkey', haccepted⟩ := stored_eq_some.mp h
  obtain rfl : actor = a := Option.some.inj (hactor.symm.trans hactor')
  obtain rfl : key = key' := Option.some.inj (hkey.symm.trans hkey')
  exact ⟨rfl, packed, haccepted⟩

theorem not_accepted {key actor : ULong} {seenActors : List ULong}
    (h : Found (reads see) N key actor seenActors none) {packed : ULong}
    (haccepted : Accepted (reads see) actor key packed) : actor ∈ seenActors := by
  cases h with
  | skipped hskip => exact hskip.resolve_left haccepted.actor_ne
  | unreadable hoffset hunread =>
    obtain rfl | rfl := hoffset
    · exact nomatch hunread.trans haccepted.readId.symm
    · exact nomatch hunread.trans haccepted.readPacked.symm
  | @refused id packed' hid hpacked hbad =>
    obtain rfl : id = key := Option.some.inj (hid.trans haccepted.readId.symm)
    obtain rfl : packed' = packed := Option.some.inj (hpacked.trans haccepted.readPacked.symm)
    obtain h | h | h | h := hbad
    · exact absurd h haccepted.id_ne
    · exact absurd rfl h
    · exact absurd haccepted.x_lt (BitVec.not_lt.mpr h)
    · exact absurd haccepted.y_lt (BitVec.not_lt.mpr h)

theorem actors_found {node key actor : ULong} {seenNodes seenActors : List ULong}
    {found : Option Character} (hkey : field see node 0x10 = some key)
    (hactor : field see node 0x14 = some actor)
    (hfound : Found (reads see) N key actor seenActors found)
    (h : seenActors.reverse = (seenNodes.filterMap (stored see)).eraseDups) :
    ((found.map fun _ => actor).toList ++ seenActors).reverse =
      ((seenNodes ++ [node]).filterMap (stored see)).eraseDups := by
  have hmem : ∀ a, a ∈ seenActors ↔ a ∈ seenNodes.filterMap (stored see) := by
    intro a
    rw [← List.mem_reverse, h, List.mem_eraseDups]
  rw [List.filterMap_append, List.filterMap_cons, List.filterMap_nil]
  cases found with
  | none =>
    cases hstored : stored see node with
    | none => rw [List.append_nil, ← h]; rfl
    | some a =>
      obtain ⟨rfl, packed, haccepted⟩ := stored_accepted hkey hactor hstored
      rw [eraseDups_snoc, if_pos ((hmem a).mp (not_accepted hfound haccepted))]
      exact h
  | some c =>
    cases hfound with
    | accepted hfresh haccepted =>
      have hstored : stored see node = some actor :=
        stored_eq_some.mpr ⟨hactor, key, _, hkey, haccepted⟩
      rw [hstored, eraseDups_snoc, if_neg fun hc => hfresh ((hmem actor).mpr hc), ← h]
      exact List.reverse_cons

theorem Explored.skip {walk : Walk} {node : ULong} {rest : List ULong}
    (h : Explored see header root walk) (htop : walk.pending = node :: rest)
    (hpassed : Passed header node walk.seenNodes) :
    Explored see header root { walk with pending := rest } := by
  refine ⟨h.nodup, h.room, h.seen, fun node' hnode' => h.pending node' ?_, fun out hout => ?_,
    h.actors⟩
  · obtain ⟨hmem, hreal⟩ := mem_real.mp hnode'
    rw [htop]
    exact mem_real.mpr ⟨.tail _ hmem, hreal⟩
  · apply h.order
    rw [htop]
    by_cases hreal : node ≠ 0 ∧ node ≠ header
    · have hseen : node ∈ walk.seenNodes := (hpassed.resolve_left hreal.1).resolve_left hreal.2
      rw [real_cons_pos hreal]
      exact .seen hseen hout
    · rw [real_cons_neg hreal]
      exact hout

theorem real_stack {node left right : ULong} {seenNodes pushedLeft pushedRight : List ULong}
    (rest : List ULong) (hpushedLeft : Pushed (reads see) header node left seenNodes pushedLeft)
    (hpushedRight : Pushed (reads see) header node right seenNodes pushedRight) :
    real header (pushedLeft ++ (pushedRight ++ rest)) =
      pushedLeft ++ (pushedRight ++ real header rest) := by
  have hl := real_pushed hpushedLeft
  have hr := real_pushed hpushedRight
  rw [real] at hl hr ⊢
  rw [List.filter_append, List.filter_append, hl, hr]
  rfl

theorem reachable_of_pushed {node child c : ULong} {side : ULongPtr} {seenNodes pushed : List ULong}
    (hpushed : Pushed (reads see) header node child seenNodes pushed)
    (hnode : Reachable see header root node) (hside : side = 0 ∨ side = 8)
    (hfield : Field (reads see) node side (some child)) (hc : c ∈ pushed) :
    Reachable see header root c := by
  cases hpushed with
  | own hchild hparent =>
    obtain ⟨hc0, hch, -⟩ := not_or.mp hchild |>.imp_right not_or.mp
    obtain rfl := List.mem_singleton.mp hc
    obtain rfl | rfl := hside
    · exact .left hnode hfield.symm ⟨hc0, hch, hparent.symm⟩
    · exact .right hnode hfield.symm ⟨hc0, hch, hparent.symm⟩
  | _ => cases hc

theorem Explored.pass {walk walk' : Walk} (h : Explored see header root walk)
    (hpass : Pass (reads see) N header walk (.ok (.inl walk'))) : Explored see header root walk' := by
  cases hpass with
  | skip htop hpassed => exact h.skip htop hpassed
  | @visit node left right key actor rest pushedLeft pushedRight found htop hfresh hroom hleft hright
      hkey hactor hpushedRight hpushedLeft hfound =>
    obtain ⟨hzero, hheader, hnew⟩ := not_or.mp hfresh |>.imp_right not_or.mp
    have hsplit : real header walk.pending = node :: real header rest := by
      rw [htop]
      exact real_cons_pos ⟨hzero, hheader⟩
    have hreachable : Reachable see header root node := h.pending node (by rw [hsplit]; exact .head _)
    have hstack := real_stack rest hpushedLeft hpushedRight
    constructor
    · exact List.nodup_cons.mpr ⟨hnew, h.nodup⟩
    · exact hroom
    · intro node' hnode'
      obtain rfl | hnode' := List.mem_cons.mp hnode'
      · exact hreachable
      · exact h.seen node' hnode'
    · intro c hc
      rw [hstack] at hc
      obtain hc | hc := List.mem_append.mp hc
      · exact reachable_of_pushed hpushedLeft hreachable (.inl rfl) hleft hc
      obtain hc | hc := List.mem_append.mp hc
      · exact reachable_of_pushed hpushedRight hreachable (.inr rfl) hright hc
      · exact h.pending c (by rw [hsplit]; exact .tail _ hc)
    · intro out hout
      rw [hstack] at hout
      have hchildren : children see header node = [left].filter (IsChild see header node) ++
          [right].filter (IsChild see header node) := by
        rw [children, ← show some left = field see node 0 from hleft,
          ← show some right = field see node 8 from hright]
        exact List.filter_append [left] [right]
      rw [← List.nil_append (pushedLeft ++ _)] at hout
      have hvisits := visits_pushed hpushedRight (visits_pushed hpushedLeft hout)
      rw [← List.append_assoc, ← hchildren] at hvisits
      rw [List.reverse_cons, List.append_assoc]
      apply h.order
      rw [hsplit]
      exact hvisits.step hnew
    · change List.reverse _ = ((node :: walk.seenNodes).reverse.filterMap _).eraseDups
      rw [List.reverse_cons]
      exact actors_found hkey.symm hactor.symm hfound h.actors

def Readable (see : ULongPtr → Option ULong) (header root : ULong) : Prop :=
  ∀ node, Reachable see header root node → ∀ offset : ULongPtr,
    offset = 0 ∨ offset = 8 ∨ offset = 0x10 ∨ offset = 0x14 → field see node offset ≠ none

/-- The characters of the graph are found, or there are too many nodes. -/
def Exact (see : ULongPtr → Option ULong) (header root : ULong) :
    Except WString (List Character) → Prop
  | .ok found => ∃ order : List ULong, order.length ≤ 2048 ∧
      Visits (children see header) (real header [root]) [] order ∧
      ((order.filterMap (stored see)).eraseDups).Nodup ∧
      List.Forall₂ (Describes (reads see) fun _ _ => True)
        (order.filterMap (stored see)).eraseDups found
  | .error _ => ∃ nodes : List ULong, 2048 < nodes.length ∧ nodes.Nodup ∧
      ∀ node ∈ nodes, Reachable see header root node

theorem exact_of_pass {walk : Walk} {r : Except WString (List Character)}
    (hreadable : Readable see header root) (h : Explored see header root walk)
    (hcollected : Collected (reads see) (fun _ _ => True) walk)
    (hpass : Pass (reads see) (fun _ _ => True) header walk (r.map .inr)) :
    Exact see header root r := by
  have htop : ∀ {node : ULong} {rest : List ULong}, walk.pending = node :: rest →
      ¬Passed header node walk.seenNodes → node ∉ walk.seenNodes ∧ Reachable see header root node := by
    intro node rest htop hfresh
    obtain ⟨hzero, hheader, hnew⟩ := not_or.mp hfresh |>.imp_right not_or.mp
    exact ⟨hnew, h.pending node (mem_real.mpr ⟨by rw [htop]; exact .head _, hzero, hheader⟩)⟩
  generalize hr : r.map Sum.inr = s at hpass
  cases hpass with
  | stop hempty =>
    match r, hr with
    | .ok found, hr =>
      obtain rfl : found = walk.characters := Sum.inr.inj (Except.ok.inj hr)
      have hvisits := h.order [] (by rw [hempty]; exact .nil)
      rw [List.append_nil] at hvisits
      refine ⟨walk.seenNodes.reverse, by rw [List.length_reverse]; exact h.room, hvisits, ?_⟩
      rw [← h.actors]
      exact ⟨List.nodup_reverse.mpr hcollected.nodup, hcollected.described⟩
  | full hpending hfresh hfull =>
    match r, hr with
    | .error e, _ =>
      obtain ⟨hnew, hreachable⟩ := htop hpending hfresh
      refine ⟨_ :: walk.seenNodes, Nat.lt_succ_of_le hfull, List.nodup_cons.mpr ⟨hnew, h.nodup⟩, ?_⟩
      intro node hnode
      obtain rfl | hnode := List.mem_cons.mp hnode
      · exact hreachable
      · exact h.seen node hnode
  | unreadable hpending hfresh hroom hoffset hnone =>
    exact absurd hnone.symm (hreadable _ (htop hpending hfresh).2 _ hoffset)
  | _ => cases r <;> cases hr

end Walking

section Claim

variable {sys : Platform} {T : Target sys} {process client : PEProcess} {processId : DWord}

theorem reads_sight (T : Target sys) (process : PEProcess) (processId : DWord)
    (imageBase : ULongPtr) : Reads (T.served process) sys processId imageBase
      (reads (sight T process processId imageBase)) fun _ _ => True where
  dword address l := wp_readDword_sight processId imageBase address l
  name actor _ _ l _ := by
    rw [readName, wp_bind]
    exact wp_mono (wp_readText _ _ _) fun _ _ _ => trivial

def Starts (T : Target sys) (process : PEProcess) (processId : DWord) :
    ULongPtr → ULong → ULong → ULong → Prop :=
  Start (fun base => base = EngineRules.imageBase T processId)
    fun base => reads (sight T process processId base)

/-- Where the traversal starts, its outcome is that of the walk over the tree. -/
theorem finishes_starts
    {W : ULongPtr → ULong → ULong → WString → Except WString (List Character) → Prop}
    {r : Except WString Listing}
    (h : Finishes (fun base => base = EngineRules.imageBase T processId)
      (fun base => reads (sight T process processId base)) W r)
    {base : ULongPtr} {manager header root : ULong}
    (hstarts : Starts T process processId base manager header root) :
    ∃ ownName found, r = found >>= publish ownName ∧ W base header root ownName found := by
  have hbase : ∀ {base' : ULongPtr}, some base' = EngineRules.imageBase T processId →
      base' = base := fun h => Option.some.inj (h.trans hstarts.toBase.symm)
  have hpointer : ∀ {value : Option ULong} {address : ULongPtr} {pointer : ULong},
      reads (sight T process processId base) address (some pointer) →
      reads (sight T process processId base) address value → value = some pointer :=
    fun h h' => h'.trans h.symm
  cases h with
  | noImage h => exact nomatch h.trans hstarts.toBase.symm
  | noManager h hmanager hzero =>
    obtain rfl := hbase h
    rw [hpointer hstarts.toManager hmanager] at hzero
    exact absurd hzero hstarts.manager_ne
  | noHeader h hmanager hheader hzero =>
    obtain rfl := hbase h
    obtain rfl := Option.some.inj (hpointer hstarts.toManager hmanager)
    rw [hpointer hstarts.toHeader hheader] at hzero
    exact absurd hzero hstarts.header_ne
  | noRoot h hmanager hheader hroot hzero =>
    obtain rfl := hbase h
    obtain rfl := Option.some.inj (hpointer hstarts.toManager hmanager)
    obtain rfl := Option.some.inj (hpointer hstarts.toHeader hheader)
    rw [hpointer hstarts.toRoot hroot] at hzero
    exact absurd hzero hstarts.root_ne
  | walked hstart hfound =>
    obtain rfl := hbase hstart.toBase
    obtain rfl := Option.some.inj (hpointer hstarts.toManager hstart.toManager)
    obtain rfl := Option.some.inj (hpointer hstarts.toHeader hstart.toHeader)
    obtain rfl := Option.some.inj (hpointer hstarts.toRoot hstart.toRoot)
    exact ⟨_, _, rfl, hfound⟩

theorem wp_nearby (T : Target sys) (process : PEProcess) (processId : DWord) (l : Log UserAns) :
    wp (T.served process) (readNearbyCharacters sys processId).run l fun r _ =>
      ∀ base manager header root, Starts T process processId base manager header root →
        Readable (sight T process processId base) header root →
        ∃ ownName found, r = found >>= publish ownName ∧
          Exact (sight T process processId base) header root found := by
  refine wp_mono (wp_readNearbyCharacters (O := fun _ => True)
    (B := fun base => base = EngineRules.imageBase T processId)
    (R := fun base => reads (sight T process processId base))
    (W := fun base header root r => Readable (sight T process processId base) header root →
      Exact (sight T process processId base) header root r)
    (wp_findImageBase processId l)
    (fun base address l _ => wp_readDword_sight processId base address l) (fun l => ?_)
    (fun base manager header root l hstart => ?_)) fun r _ hr => ?_
  · rw [readOwnName, wp_bind]
    exact wp_mono (wp_readText _ _ _) fun _ _ _ => trivial
  · refine wp_mono ((reads_sight T process processId base).walkTree
      (J := fun walk => Explored (sight T process processId base) header root walk ∧
        Collected (reads (sight T process processId base)) (fun _ _ => True) walk)
      ⟨explored_start, collected_nil _⟩
      (fun walk walk' hwalk hpass => ⟨hwalk.1.pass hpass, hwalk.2.pass hpass⟩) l)
      fun r _ ⟨walk, hwalk, hpass⟩ hreadable => ?_
    exact exact_of_pass hreadable hwalk.1 hwalk.2 hpass
  · intro base manager header root hstarts hreadable
    obtain ⟨ownName, found, hresult, -, hexact⟩ := finishes_starts hr hstarts
    exact ⟨ownName, found, hresult, hexact hreadable⟩

theorem encard_of_nodup {p : ULong → Prop} {nodes : List ULong} (hnodup : nodes.Nodup)
    (hnodes : ∀ node, node ∈ nodes ↔ p node) : {node | p node}.encard = nodes.length := by
  have hset : {node | p node} = (nodes.toFinset : Set ULong) := by
    ext node
    simp [hnodes]
  rw [hset, Set.encard_coe_eq_coe_finsetCard, List.toFinset_card_of_nodup hnodup]

/-- The outcome is that of the graph: if it has at most 2048 nodes, there is one entry for each actor
stored at one of them, in the order in which the nodes are first visited. Otherwise the call fails. -/
structure ListsGraph (see : ULongPtr → Option ULong) (header root : ULong)
    (result : Except WString Listing) : Prop where
  few : {node | Reachable see header root node}.encard ≤ 2048 → ∃ order actors found ownName,
    result = publish ownName found ∧ Visits (children see header) (real header [root]) [] order ∧
      (∀ node, node ∈ order ↔ Reachable see header root node) ∧
      actors = (order.filterMap (stored see)).eraseDups ∧ actors.Nodup ∧
      (∀ actor, actor ∈ actors ↔ ∃ node, Reachable see header root node ∧ Stores see node actor) ∧
      List.Forall₂ (Describes (reads see) fun _ _ => True) actors found
  many : 2048 < {node | Reachable see header root node}.encard → ∃ error, result = .error error

/-- The listing is exact on every memory that does not change. -/
theorem nearby_exact (T : Target sys) (client : PEProcess) {env : WinEnv}
    (henv : ∀ l o, (T.openedSystem false process).rely l o (env l o))
    {base : ULongPtr} {manager header root : ULong}
    (hstarts : Starts T process processId base manager header root)
    (hreadable : Readable (sight T process processId base) header root) :
    ListsGraph (sight T process processId base) header root
      ((System.runUser sys client (readNearbyCharacters sys processId).run).run env []).1 := by
  obtain ⟨ownName, found, hresult, hexact⟩ := Target.run_of_served henv
    (wp_nearby T process processId []) base manager header root hstarts hreadable
  cases found with
  | ok found =>
    obtain ⟨order, hlength, hvisits, hnodup, hdescribed⟩ := hexact
    have horder : ∀ node, node ∈ order ↔
        Reachable (sight T process processId base) header root node := by
      intro node
      rw [reachable_iff hstarts.root_ne]
      exact ⟨hvisits.sound, fun ⟨r, hr, hpath⟩ => hvisits.complete hr hpath⟩
    have hencard := encard_of_nodup hvisits.nodup.1 horder
    constructor
    · intro _
      refine ⟨order, _, found, ownName, hresult, hvisits, horder, rfl, hnodup, fun actor => ?_,
        hdescribed⟩
      rw [List.mem_eraseDups, List.mem_filterMap]
      exact exists_congr fun node => and_congr (horder node) stored_eq_some
    · intro hmany
      rw [hencard] at hmany
      exact absurd (Nat.cast_lt.mp hmany) (Nat.not_lt.mpr hlength)
  | error error =>
    refine ⟨fun hfew => ?_, fun _ => ⟨error, hresult⟩⟩
    obtain ⟨many, hlength, hnodup, hmany⟩ := hexact
    have hcard : (many.length : ℕ∞) ≤
        {node | Reachable (sight T process processId base) header root node}.encard := by
      rw [← List.toFinset_card_of_nodup hnodup, ← Set.encard_coe_eq_coe_finsetCard]
      exact Set.encard_le_encard fun node hnode => hmany node (by simpa using hnode)
    exact absurd (Nat.cast_le.mp (hcard.trans hfew)) (Nat.not_le.mpr hlength)

/-- Two nodes that are each other's children, the first also its own, with the same actor. -/
def knot : Target samplePlatform := .ofCells samplePlatform gameApi [
  (0x00EB31D0, 0x01100000), (0x01100034, 0x01200000), (0x01200004, 0x01300000), -- manager, header
  (0x01300000, 0x01310000), (0x01300004, 0x01310000), (0x01300008, 0x01300000), -- the root
  (0x01300010, 5), (0x01300014, 0x01400000),
  (0x01310000, 0x01300000), (0x01310004, 0x01300000), (0x01310008, 0), -- its child
  (0x01310010, 6), (0x01310014, 0x01400000),
  (0x01400008, 5), (0x0140000C, 0x00200010)] -- their actor

theorem knot_starts : Starts knot 9 7 0x400000 0x01100000 0x01200000 0x01300000 where
  toBase := by decide +kernel
  toManager := by
    change some _ = sight _ _ _ _ _
    decide +kernel
  manager_ne := by decide
  toHeader := by
    change some _ = sight _ _ _ _ _
    decide +kernel
  header_ne := by decide
  toRoot := by
    change some _ = sight _ _ _ _ _
    decide +kernel
  root_ne := by decide

theorem knot_readable : Readable (sight knot 9 7 0x400000) 0x01200000 0x01300000 := by
  have hchildren : children (sight knot 9 7 0x400000) 0x01200000 0x01300000 ⊆ [0x01300000, 0x01310000] ∧
      children (sight knot 9 7 0x400000) 0x01200000 0x01310000 ⊆ [0x01300000, 0x01310000] := by
    decide +kernel
  have hnodes : ∀ node, Reachable (sight knot 9 7 0x400000) 0x01200000 0x01300000 node →
      node = 0x01300000 ∨ node = 0x01310000 := by
    intro node hnode
    obtain ⟨r, hr, hpath⟩ := (reachable_iff (by decide)).mp hnode
    clear hnode
    induction hpath with
    | refl => exact .inl (List.mem_singleton.mp (mem_real.mp hr).1)
    | tail _ hstep ih =>
      obtain rfl | rfl := ih
      · simpa using hchildren.1 hstep
      · simpa using hchildren.2 hstep
  intro node hnode offset hoffset
  obtain rfl | rfl := hnodes node hnode <;> obtain rfl | rfl | rfl | rfl := hoffset <;> decide +kernel

theorem nearby_exact_sample : ListsGraph (sight knot 9 7 0x400000) 0x01200000 0x01300000
    ((System.runUser samplePlatform 9 (readNearbyCharacters samplePlatform 7).run).run
      (knot.env 9 sampleImage) []).1 :=
  nearby_exact knot 9
    (fun l o => ⟨knot.env_fits 9 sampleImage l o,
      (knot.env_opens sampleImage_expected l o).restrict false⟩) knot_starts knot_readable

end Claim

end DarkEden.NearbyGraph
