import Mathlib.Data.Tree.Basic
import Mathlib.Order.Lattice

namespace Interaction.SearchTree

variable {α K : Type}

def Occurs (a : α) : BinaryTree α → Prop
  | .nil => False
  | .node b left right => a = b ∨ Occurs a left ∨ Occurs a right

/-- The value is that of a node with `d` nodes above it. -/
def OccursAt (a : α) : BinaryTree α → Nat → Prop
  | .nil, _ => False
  | .node b _ _, 0 => a = b
  | .node _ left right, d + 1 => OccursAt a left d ∨ OccursAt a right d

theorem OccursAt.occurs {t : BinaryTree α} {a : α} {d : Nat} (h : OccursAt a t d) : Occurs a t := by
  induction t generalizing d with
  | nil => exact False.elim h
  | node b left right ihLeft ihRight =>
    cases d with
    | zero => exact .inl h
    | succ d =>
      obtain h | h := h
      · exact .inr (.inl (ihLeft h))
      · exact .inr (.inr (ihRight h))

inductive Subtree (t : BinaryTree α) : BinaryTree α → Prop
  | root : Subtree t t
  | left {a : α} {left right : BinaryTree α} (h : Subtree t (.node a left right)) : Subtree t left
  | right {a : α} {left right : BinaryTree α} (h : Subtree t (.node a left right)) : Subtree t right

theorem Subtree.occurs {t s : BinaryTree α} (h : Subtree t s) {a : α} (ha : Occurs a s) :
    Occurs a t := by
  induction h with
  | root => exact ha
  | left _ ih => exact ih (.inr (.inl ha))
  | right _ ih => exact ih (.inr (.inr ha))

variable [LinearOrder K] (key : α → K)

/-- The keys on the left of a node are smaller than its own, those on the right greater. -/
def Ordered : BinaryTree α → Prop
  | .nil => True
  | .node a left right => Ordered left ∧ Ordered right ∧
      (∀ b, Occurs b left → key b < key a) ∧ ∀ b, Occurs b right → key a < key b

def descend (k : K) : BinaryTree α → Option α
  | .nil => none
  | .node a left right =>
    if key a = k then some a else if k < key a then descend k left else descend k right

def descendWithin (k : K) : Nat → BinaryTree α → Option α
  | 0, _ => none
  | _ + 1, .nil => none
  | n + 1, .node a left right =>
    if key a = k then some a
    else if k < key a then descendWithin k n left else descendWithin k n right

variable {key}

theorem descendWithin_of_height {t : BinaryTree α} {n : Nat} (h : t.height ≤ n) (k : K) :
    descendWithin key k n t = descend key k t := by
  induction t generalizing n with
  | nil => cases n <;> rfl
  | node a left right ihLeft ihRight =>
    cases n with
    | zero => cases h
    | succ n =>
      rw [BinaryTree.height] at h
      have hleft : left.height ≤ n := by omega
      have hright : right.height ≤ n := by omega
      rw [descendWithin, descend, ihLeft hleft, ihRight hright]

theorem occursAt_node_lt {a b : α} {left right : BinaryTree α} {n : Nat} :
    (∃ d < n + 1, OccursAt a (.node b left right) d) ↔
      a = b ∨ (∃ d < n, OccursAt a left d) ∨ ∃ d < n, OccursAt a right d := by
  constructor
  · rintro ⟨d, hd, ha⟩
    cases d with
    | zero => exact .inl ha
    | succ d =>
      have hd' : d < n := by omega
      obtain ha | ha := ha
      · exact .inr (.inl ⟨d, hd', ha⟩)
      · exact .inr (.inr ⟨d, hd', ha⟩)
  · intro h
    obtain rfl | ⟨d, hd, ha⟩ | ⟨d, hd, ha⟩ := h
    · exact ⟨0, by omega, rfl⟩
    · exact ⟨d + 1, by omega, .inl ha⟩
    · exact ⟨d + 1, by omega, .inr ha⟩

/-- The descent through `n` nodes finds exactly what lies that high up in an ordered tree. -/
theorem descendWithin_eq_some {t : BinaryTree α} (ht : Ordered key t) {k : K} {n : Nat} {a : α} :
    descendWithin key k n t = some a ↔ key a = k ∧ ∃ d < n, OccursAt a t d := by
  induction t generalizing n with
  | nil =>
    constructor
    · intro h
      cases n <;> cases h
    · intro ⟨_, d, _, ha⟩
      exact False.elim ha
  | node b left right ihLeft ihRight =>
    obtain ⟨hleft, hright, hsmaller, hgreater⟩ := ht
    cases n with
    | zero =>
      constructor
      · intro h
        cases h
      · intro ⟨_, d, hd, _⟩
        omega
    | succ n =>
      rw [descendWithin, occursAt_node_lt]
      -- Where the key of `a` lies on the other side of `b`, the order excludes `a`.
      have hsideLeft : (∃ d < n, OccursAt a left d) → key a < key b :=
        fun ⟨_, _, ha⟩ => hsmaller a ha.occurs
      have hsideRight : (∃ d < n, OccursAt a right d) → key b < key a :=
        fun ⟨_, _, ha⟩ => hgreater a ha.occurs
      by_cases hk : key b = k
      · subst hk
        rw [if_pos rfl, Option.some.injEq]
        constructor
        · rintro rfl
          exact ⟨rfl, .inl rfl⟩
        · intro ⟨hka, h⟩
          obtain h | h | h := h
          · exact h.symm
          · exact absurd hka (ne_of_lt (hsideLeft h))
          · exact absurd hka (ne_of_gt (hsideRight h))
      rw [if_neg hk]
      have hne : key a = k → a ≠ b := by
        rintro hka rfl
        exact hk hka
      by_cases hlt : k < key b
      · rw [if_pos hlt, ihLeft hleft]
        refine and_congr_right fun hka => ⟨fun h => .inr (.inl h), fun h => ?_⟩
        obtain h | h | h := h
        · exact absurd h (hne hka)
        · exact h
        · exact absurd (hka ▸ hsideRight h) (lt_asymm hlt)
      · rw [if_neg hlt, ihRight hright]
        refine and_congr_right fun hka => ⟨fun h => .inr (.inr h), fun h => ?_⟩
        obtain h | h | h := h
        · exact absurd h (hne hka)
        · exact absurd (hka ▸ hsideLeft h) hlt
        · exact h

/-- A keyed descent finds everything that occurs in an ordered tree. -/
theorem descend_of_occurs {t : BinaryTree α} (ht : Ordered key t) {a : α} (ha : Occurs a t) :
    descend key (key a) t = some a := by
  induction t with
  | nil => exact ha.elim
  | node b left right ihLeft ihRight =>
    obtain ⟨hleft, hright, hsmaller, hgreater⟩ := ht
    rw [descend]
    obtain rfl | ha | ha := ha
    · exact if_pos rfl
    · have hlt := hsmaller a ha
      rw [if_neg (ne_of_gt hlt), if_pos hlt]
      exact ihLeft hleft ha
    · have hlt := hgreater a ha
      rw [if_neg (ne_of_lt hlt), if_neg (lt_asymm hlt)]
      exact ihRight hright ha

end Interaction.SearchTree
