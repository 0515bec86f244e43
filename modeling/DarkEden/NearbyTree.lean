import DarkEden.Interaction.SearchTree
import DarkEden.Traversal

namespace DarkEden.NearbyTree

open Interaction SearchTree Protocol Client Engine EngineRules ReaderRules Traversal

variable {sys : Platform} {T : Target sys} {process client : PEProcess} {processId : DWord}

/-- A node of the tree of nearby characters: where it lies, and its key. -/
structure TreeNode where
  address : ULong
  key : ULong

def TreeNode.order (n : TreeNode) : Nat := n.key.toNat

section Memory

variable (T) (header : ULong)

abbrev IsLeaf (pointer : ULong) : Prop := pointer = 0 ∨ pointer = header

/-- The tree lies in memory from the pointer on, and all children but the leaves point back. -/
def Represents : BinaryTree TreeNode → ULong → Prop
  | .nil, pointer => IsLeaf header pointer
  | .node n left right, pointer =>
    pointer = n.address ∧ ¬IsLeaf header pointer ∧ T.field pointer 0x10 = some n.key ∧
      (∃ child, T.field pointer 0 = some child ∧
        (¬IsLeaf header child → T.field child 4 = some pointer) ∧ Represents left child) ∧
      ∃ child, T.field pointer 8 = some child ∧
        (¬IsLeaf header child → T.field child 4 = some pointer) ∧ Represents right child

variable {T header}

/-- The node belongs to a character with the given id. -/
def Bears (T : Target sys) (id node : ULong) : Bool :=
  match T.field node 0x14 with
  | none => false
  | some actor => actor ≠ 0 && T.actorMatches id actor

theorem search_child {node child : ULong} {n : Nat} {id : ULong}
    (hback : ¬IsLeaf header child → T.field child 4 = some node) :
    (if child = 0 ∨ child = header then false
      else T.field child 4 == some node && T.search id header n child) =
      T.search id header n child := by
  by_cases hleaf : IsLeaf header child
  · rw [if_pos hleaf]
    cases n with
    | zero => rfl
    | succ n => exact (if_pos hleaf).symm
  · rw [if_neg hleaf, hback hleaf, beq_self_eq_true, Bool.true_and]

/-- The descent of the driver is the keyed descent through as many nodes of the tree. -/
theorem search_eq_descendWithin {t : BinaryTree TreeNode} {node : ULong}
    (ht : Represents T header t node)
    (n : Nat) (id : ULong) :
    T.search id header n node =
      (descendWithin TreeNode.order id.toNat n t).any fun found => Bears T id found.address := by
  induction t generalizing node n with
  | nil =>
    cases n with
    | zero => rfl
    | succ n => exact if_pos ht
  | node found left right ihLeft ihRight =>
    cases n with
    | zero => rfl
    | succ n =>
      obtain ⟨rfl, hleaf, hkey, ⟨l, hl, hlback, hleft⟩, r, hr, hrback, hright⟩ := ht
      rw [Target.search, if_neg hleaf, hkey, descendWithin]
      change ite _ _ _ = _
      by_cases hfound : found.key = id
      · have horder : found.order = id.toNat := congrArg BitVec.toNat hfound
        rw [if_pos hfound, if_pos horder]
        rfl
      have horder : ¬found.order = id.toNat := fun h => hfound (BitVec.eq_of_toNat_eq h)
      rw [if_neg hfound, if_neg horder]
      by_cases hlt : id < found.key
      · have hlt' : id.toNat < found.order := hlt
        rw [if_pos hlt, if_pos hlt', hl, ← ihLeft hleft n]
        exact search_child hlback
      · have hlt' : ¬id.toNat < found.order := hlt
        rw [if_neg hlt, if_neg hlt', hr, ← ihRight hright n]
        exact search_child hrback

/-- The id is that of a node of the tree with an actor that the driver accepts. -/
def Listed (T : Target sys) (t : BinaryTree TreeNode) (id : ULong) : Prop :=
  id ≠ 0 ∧ ∃ node, Occurs node t ∧ node.key = id ∧ Bears T id node.address

theorem search_of_listed {t : BinaryTree TreeNode} {root : ULong} {n : Nat}
    (ht : Represents T header t root) (hordered : Ordered TreeNode.order t) (hheight : t.height ≤ n)
    {id : ULong} (h : Listed T t id) : T.search id header n root := by
  obtain ⟨-, node, hoccurs, rfl, hbears⟩ := h
  rw [search_eq_descendWithin ht, descendWithin_of_height hheight,
    show node.key.toNat = node.order from rfl, descend_of_occurs hordered hoccurs]
  exact hbears

end Memory

section Visit

variable {header : ULong}

theorem reads_agrees (hpid : processId ≠ 0) :
    Reads (T.served process) sys processId (sys.psGetProcessSectionBaseAddress process)
      (fun address value => value = seen T process address) fun _ _ => True where
  dword address l := wp_readDword hpid address l
  name actor _ _ l _ := by
    rw [readName, wp_bind]
    exact wp_mono (wp_readText _ _ _) fun _ _ _ => trivial

inductive Visited (T : Target sys) (header : ULong) (walk : Walk) : Walk ⊕ List Character → Prop
  | stop (hempty : walk.pending = []) : Visited T header walk (.inr walk.characters)
  | skip {node : ULong} {rest : List ULong} (htop : walk.pending = node :: rest) :
      Visited T header walk (.inl { walk with pending := rest })
  | visit {node left right key actor : ULong} {rest pushed seenActors : List ULong}
      {found : Option Character} (htop : walk.pending = node :: rest) (hleaf : ¬IsLeaf header node)
      (hroom : walk.seenNodes.length < 2048) (hleft : T.field node 0 = some left)
      (hright : T.field node 8 = some right) (hkey : T.field node 0x10 = some key)
      (hactor : T.field node 0x14 = some actor) (hcount : pushed.length ≤ 2)
      (hpushed : ∀ child ∈ pushed, child = left ∨ child = right)
      (hfound : ∀ c ∈ found, (c.id ≠ 0 ∧ c.id = key) ∧ actor ≠ 0 ∧ T.actorMatches key actor) :
      Visited T header walk (.inl ⟨pushed ++ rest, node :: walk.seenNodes, seenActors,
        walk.characters ++ found.toList⟩)

theorem field_of_read {pointer value : ULong} {offset : ULongPtr}
    (h : Field (fun address value => value = seen T process address) pointer offset (some value)) :
    T.field pointer offset = some value := field_of_seen h.symm

theorem actorMatches_of_accepted {actor id packed : ULong}
    (h : Accepted (fun address value => value = seen T process address) actor id packed) :
    T.actorMatches id actor := by
  rw [Target.actorMatches, field_of_read h.readId, field_of_read h.readPacked]
  exact (Bool.and_eq_true _ _).mpr ⟨(Bool.and_eq_true _ _).mpr
    ⟨beq_self_eq_true id, decide_eq_true h.x_lt⟩, decide_eq_true h.y_lt⟩

theorem visited_of_pass {walk : Walk} {N : ULong → WString → Prop} {s : Walk ⊕ List Character}
    (h : Pass (fun address value => value = seen T process address) N header walk (.ok s)) :
    Visited T header walk s := by
  cases h with
  | stop hempty => exact .stop hempty
  | skip htop => exact .skip htop
  | visit htop hfresh hroom hleft hright hkey hactor hpushedRight hpushedLeft hfound =>
    have hcountRight := hpushedRight.length_le
    have hcountLeft := hpushedLeft.length_le
    rw [← List.append_assoc]
    apply Visited.visit htop (fun hleaf => hfresh (hleaf.imp_right .inl)) hroom (field_of_read hleft)
      (field_of_read hright) (field_of_read hkey) (field_of_read hactor)
    · rw [List.length_append]
      omega
    · intro child hchild
      obtain h | h := List.mem_append.mp hchild
      · exact .inl (hpushedLeft.eq_of_mem h)
      · exact .inr (hpushedRight.eq_of_mem h)
    · intro c hc
      cases hfound with
      | accepted _ haccepted =>
        obtain rfl := Option.some.inj hc
        exact ⟨⟨haccepted.id_ne, rfl⟩, haccepted.actor_ne, actorMatches_of_accepted haccepted⟩
      | _ => cases hc

end Visit

section Loop

variable {header : ULong}

structure Sound (T : Target sys) (header : ULong) (t : BinaryTree TreeNode) (walk : Walk) :
    Prop where
  pending : ∀ node ∈ walk.pending, ∃ s, Subtree t s ∧ Represents T header s node
  characters : ∀ c ∈ walk.characters, Listed T t c.id

theorem Sound.visited {t : BinaryTree TreeNode} {walk walk' : Walk} (h : Sound T header t walk)
    (hv : Visited T header walk (.inl walk')) : Sound T header t walk' := by
  cases hv with
  | skip htop =>
    exact ⟨fun node hnode => h.pending node (by rw [htop]; exact .tail _ hnode), h.characters⟩
  | @visit node left right key actor rest pushed seenActors found htop hleaf hroom hleft hright hkey
      hactor hcount hpushed hfound =>
    have hrest : ∀ p ∈ rest, ∃ s, Subtree t s ∧ Represents T header s p :=
      fun p hp => h.pending p (by rw [htop]; exact .tail _ hp)
    obtain ⟨s, hsub, hs⟩ := h.pending node (by rw [htop]; exact .head _)
    cases s with
    | nil => exact absurd hs hleaf
    | node n tl tr =>
      obtain ⟨rfl, -, hnkey, ⟨l, hl, -, htl⟩, r, hr, -, htr⟩ := hs
      obtain rfl : left = l := Option.some.inj (hleft.symm.trans hl)
      obtain rfl : right = r := Option.some.inj (hright.symm.trans hr)
      obtain rfl : key = n.key := Option.some.inj (hkey.symm.trans hnkey)
      constructor
      · intro p hp
        obtain hp | hp := List.mem_append.mp hp
        · obtain rfl | rfl := hpushed p hp
          · exact ⟨tl, hsub.left, htl⟩
          · exact ⟨tr, hsub.right, htr⟩
        · exact hrest p hp
      · intro c hc
        obtain hc | hc := List.mem_append.mp hc
        · exact h.characters c hc
        · obtain ⟨⟨hid, hkey'⟩, hne, hmatches⟩ := hfound c (Option.mem_toList.mp hc)
          refine ⟨hid, n, hsub.occurs (.inl rfl), hkey'.symm, ?_⟩
          rw [Bears, hactor]
          exact (Bool.and_eq_true _ _).mpr ⟨decide_eq_true hne, hkey' ▸ hmatches⟩

end Loop

end DarkEden.NearbyTree
