import DarkEden.Interaction.Preorder
import Mathlib.SetTheory.Cardinal.Finite
import Mathlib.Data.List.Nodup

namespace Interaction.Descent

open Interaction.Preorder

/-- A recursive search of a graph. At a node that is not passed over it enters, descends to the
first children, acts, and descends to the last ones; once it is full it enters no more. -/
structure Search (α σ : Type) where
  seen : σ → List α
  full : σ → Prop
  refused : α → Prop
  enter : α → σ → σ
  act : α → σ → σ
  first : α → List α
  last : α → List α
  seen_enter : ∀ n s, seen (enter n s) = n :: seen s
  seen_act : ∀ n s, seen (act n s) = seen s
  full_enter : ∀ n s, full s → full (enter n s)
  full_act : ∀ n s, full s → full (act n s)

namespace Search

variable {α σ : Type} (S : Search α σ)

def Passes (n : α) (s : σ) : Prop := S.refused n ∨ S.full s ∨ n ∈ S.seen s

def next [DecidablePred S.refused] (n : α) : List α :=
  (S.first n ++ S.last n).filter fun c => ¬S.refused c

/-- The search from a list of nodes, with the nodes that it enters, in this order. -/
inductive Runs : List α → σ → σ → List α → Prop
  | nil {s : σ} : Runs [] s s []
  | pass {n : α} {todo out : List α} {s s' : σ} (hn : S.Passes n s) (hrest : Runs todo s s' out) :
      Runs (n :: todo) s s' out
  | visit {n : α} {todo out₁ out₂ out₃ : List α} {s s₁ s₂ s₃ : σ} (hn : ¬S.Passes n s)
      (hfirst : Runs (S.first n) (S.enter n s) s₁ out₁)
      (hlast : Runs (S.last n) (S.act n s₁) s₂ out₂) (hrest : Runs todo s₂ s₃ out₃) :
      Runs (n :: todo) s s₃ (n :: (out₁ ++ out₂ ++ out₃))

section Walk

variable [∀ n s, Decidable (S.Passes n s)]

/-- The search itself; without fuel it has not come to an end. -/
def walk : Nat → α → σ → Option σ
  | 0, _, _ => none
  | fuel + 1, n, s =>
    if S.Passes n s then some s
    else do
      let s ← (S.first n).foldlM (fun s c => walk fuel c s) (S.enter n s)
      (S.last n).foldlM (fun s c => walk fuel c s) (S.act n s)

variable {S}

theorem runs_foldlM {fuel : Nat}
    (ih : ∀ n s s', S.walk fuel n s = some s' → ∃ out, S.Runs [n] s s' out) (todo : List α)
    {s s' : σ} (h : todo.foldlM (fun s c => S.walk fuel c s) s = some s') :
    ∃ out, S.Runs todo s s' out := by
  induction todo generalizing s with
  | nil =>
    obtain rfl := Option.some.inj h
    exact ⟨[], .nil⟩
  | cons n todo ihTodo =>
    rw [List.foldlM_cons] at h
    obtain ⟨s₁, hn, hrest⟩ := Option.bind_eq_some_iff.mp h
    obtain ⟨rest, hrest⟩ := ihTodo hrest
    obtain ⟨out, hn⟩ := ih n s s₁ hn
    cases hn with
    | pass hpass hnil =>
      cases hnil
      exact ⟨rest, .pass hpass hrest⟩
    | visit hvisit hfirst hlast hnil =>
      cases hnil
      exact ⟨_, .visit hvisit hfirst hlast hrest⟩

theorem runs_of_walk {fuel : Nat} {n : α} {s s' : σ} (h : S.walk fuel n s = some s') :
    ∃ out, S.Runs [n] s s' out := by
  induction fuel generalizing n s s' with
  | zero => cases h
  | succ fuel ih =>
    rw [walk] at h
    by_cases hpass : S.Passes n s
    · rw [if_pos hpass] at h
      obtain rfl := Option.some.inj h
      exact ⟨[], .pass hpass .nil⟩
    · rw [if_neg hpass] at h
      obtain ⟨s₁, hfirst, hlast⟩ := Option.bind_eq_some_iff.mp h
      obtain ⟨out₁, hfirst⟩ := runs_foldlM (fun n s s' => ih) _ hfirst
      obtain ⟨out₂, hlast⟩ := runs_foldlM (fun n s s' => ih) _ hlast
      exact ⟨_, .visit hpass hfirst hlast .nil⟩

end Walk

section Rules

variable {S} {todo out : List α} {s s' : σ}

theorem Runs.seen (h : S.Runs todo s s' out) : S.seen s' = out.reverse ++ S.seen s := by
  induction h with
  | nil => rfl
  | pass _ _ ih => exact ih
  | visit _ _ _ _ ihFirst ihLast ihRest =>
    rw [ihRest, ihLast, S.seen_act, ihFirst, S.seen_enter]
    simp

theorem Runs.full (h : S.Runs todo s s' out) (hs : S.full s) : S.full s' := by
  induction h with
  | nil => exact hs
  | pass _ _ ih => exact ih hs
  | visit _ _ _ _ ihFirst ihLast ihRest =>
    apply ihRest
    apply ihLast
    apply S.full_act
    apply ihFirst
    exact S.full_enter _ _ hs

/-- A property that holds at the start is kept if entering and acting keep it. -/
theorem Runs.keeps {I : σ → Prop} (henter : ∀ n s, ¬S.Passes n s → I s → I (S.enter n s))
    (hact : ∀ n s, n ∈ S.seen s → I s → I (S.act n s)) (h : S.Runs todo s s' out) (hs : I s) :
    I s' := by
  induction h with
  | nil => exact hs
  | pass _ _ ih => exact ih hs
  | visit hn hfirst _ _ ihFirst ihLast ihRest =>
    apply ihRest
    apply ihLast
    apply hact
    · rw [hfirst.seen, S.seen_enter]
      exact List.mem_append_right _ (.head _)
    · exact ihFirst (henter _ _ hn hs)

/-- What acting at a node achieves, and nothing later undoes, is achieved for all nodes entered. -/
theorem Runs.achieves {P : α → σ → Prop} (hact : ∀ n s, P n (S.act n s))
    (hkeep : ∀ n m s, P n s → P n (S.enter m s) ∧ P n (S.act m s)) (h : S.Runs todo s s' out) :
    ∀ n ∈ out, P n s' := by
  have hlater : ∀ {todo : List α} {s s' : σ} {out : List α}, S.Runs todo s s' out →
      ∀ n, P n s → P n s' :=
    fun h n => h.keeps (fun m s _ hs => (hkeep n m s hs).1) fun m s _ hs => (hkeep n m s hs).2
  induction h with
  | nil => exact nofun
  | pass _ _ ih => exact ih
  | visit _ hfirst hlast hrest ihFirst ihLast ihRest =>
    intro n hn
    simp only [List.mem_cons, List.mem_append] at hn
    obtain rfl | (hn | hn) | hn := hn
    · exact hlater hrest _ (hlater hlast _ (hact _ _))
    · exact hlater hrest n (hlater hlast n (hkeep n _ _ (ihFirst n hn)).2)
    · exact hlater hrest n (ihLast n hn)
    · exact ihRest n hn

variable [DecidablePred S.refused]

theorem Runs.reached (h : S.Runs todo s s' out) {n : α} (hn : n ∈ out) :
    ∃ r ∈ todo.filter (fun c => ¬S.refused c),
      Relation.ReflTransGen (fun a b => b ∈ S.next a) r n := by
  induction h with
  | nil => cases hn
  | @pass m todo out s s' _ _ ih =>
    obtain ⟨r, hr, hpath⟩ := ih hn
    obtain ⟨hmem, hr⟩ := List.mem_filter.mp hr
    exact ⟨r, List.mem_filter.mpr ⟨.tail _ hmem, hr⟩, hpath⟩
  | @visit m todo out₁ out₂ out₃ s s₁ s₂ s₃ hm _ _ _ ihFirst ihLast ihRest =>
    have hroot : m ∈ (m :: todo).filter (fun c => ¬S.refused c) :=
      List.mem_filter.mpr ⟨.head _, decide_eq_true fun h => hm (.inl h)⟩
    have hchild : ∀ {r : α}, (r ∈ S.first m ∨ r ∈ S.last m) → ¬S.refused r → r ∈ S.next m :=
      fun hr hrefused => List.mem_filter.mpr ⟨List.mem_append.mpr hr, decide_eq_true hrefused⟩
    simp only [List.mem_cons, List.mem_append] at hn
    obtain rfl | (hn | hn) | hn := hn
    · exact ⟨n, hroot, .refl⟩
    · obtain ⟨r, hr, hpath⟩ := ihFirst hn
      obtain ⟨hmem, hr⟩ := List.mem_filter.mp hr
      exact ⟨m, hroot, .head (hchild (.inl hmem) (of_decide_eq_true hr)) hpath⟩
    · obtain ⟨r, hr, hpath⟩ := ihLast hn
      obtain ⟨hmem, hr⟩ := List.mem_filter.mp hr
      exact ⟨m, hroot, .head (hchild (.inr hmem) (of_decide_eq_true hr)) hpath⟩
    · obtain ⟨r, hr, hpath⟩ := ihRest hn
      obtain ⟨hmem, hr⟩ := List.mem_filter.mp hr
      exact ⟨r, List.mem_filter.mpr ⟨.tail _ hmem, hr⟩, hpath⟩

/-- If it is not full in the end, the search was depth first. -/
theorem Runs.visits (h : S.Runs todo s s' out) (hroom : ¬S.full s') :
    Visits S.next (todo.filter fun c => ¬S.refused c) (S.seen s) out := by
  induction h with
  | nil => exact .nil
  | @pass n todo out s s' hn hrest ih =>
    obtain hrefused | hfull | hseen := hn
    · rw [List.filter_cons_of_neg (by simpa using hrefused)]
      exact ih hroom
    · exact absurd (hrest.full hfull) hroom
    · by_cases hrefused : S.refused n
      · rw [List.filter_cons_of_neg (by simpa using hrefused)]
        exact ih hroom
      · rw [List.filter_cons_of_pos (by simpa using hrefused)]
        exact .seen hseen (ih hroom)
  | @visit n todo out₁ out₂ out₃ s s₁ s₂ s₃ hn hfirst hlast hrest ihFirst ihLast ihRest =>
    obtain ⟨hrefused, -, hnew⟩ := not_or.mp hn |>.imp_right not_or.mp
    have hroom₂ : ¬S.full s₂ := fun h => hroom (hrest.full h)
    have hroom₁ : ¬S.full s₁ := fun h => hroom₂ (hlast.full (S.full_act _ _ h))
    have hbelow := ihFirst hroom₁
    have hafter := ihLast hroom₂
    have hremaining := ihRest hroom
    rw [S.seen_enter] at hbelow
    rw [S.seen_act, hfirst.seen, S.seen_enter] at hafter
    rw [hlast.seen, S.seen_act, hfirst.seen, S.seen_enter] at hremaining
    rw [List.filter_cons_of_pos (by simpa using hrefused)]
    apply Visits.visit hnew
    · rw [next, List.filter_append]
      exact hbelow.append hafter
    · simpa using hremaining

end Rules

section Termination

variable {S} [∀ n s, Decidable (S.Passes n s)] [Finite α]

omit [Finite α] in
theorem foldlM_of_walks {fuel : Nat}
    (ih : ∀ n s, (S.seen s).Nodup → Nat.card α < fuel + (S.seen s).length →
      ∃ s', S.walk fuel n s = some s' ∧ (S.seen s').Nodup ∧
        (S.seen s).length ≤ (S.seen s').length) (todo : List α) {s : σ}
    (hnodup : (S.seen s).Nodup) (hfuel : Nat.card α < fuel + (S.seen s).length) :
    ∃ s', todo.foldlM (fun s c => S.walk fuel c s) s = some s' ∧ (S.seen s').Nodup ∧
      (S.seen s).length ≤ (S.seen s').length := by
  induction todo generalizing s with
  | nil => exact ⟨s, rfl, hnodup, Nat.le_refl _⟩
  | cons n todo ihTodo =>
    obtain ⟨s₁, hn, hnodup₁, hlength₁⟩ := ih n s hnodup hfuel
    obtain ⟨s₂, hrest, hnodup₂, hlength₂⟩ := ihTodo hnodup₁ (by omega)
    refine ⟨s₂, ?_, hnodup₂, Nat.le_trans hlength₁ hlength₂⟩
    rw [List.foldlM_cons]
    exact Option.bind_eq_some_iff.mpr ⟨s₁, hn, hrest⟩

/-- Each call enters a new node or returns, so there is an end when every node could be entered. -/
theorem walk_ends {fuel : Nat} (n : α) (s : σ) (hnodup : (S.seen s).Nodup)
    (hfuel : Nat.card α < fuel + (S.seen s).length) :
    ∃ s', S.walk fuel n s = some s' ∧ (S.seen s').Nodup ∧
      (S.seen s).length ≤ (S.seen s').length := by
  induction fuel generalizing n s with
  | zero =>
    have := Fintype.ofFinite α
    have hlength := hnodup.length_le_card
    rw [← Nat.card_eq_fintype_card] at hlength
    omega
  | succ fuel ih =>
    rw [walk]
    by_cases hpass : S.Passes n s
    · rw [if_pos hpass]
      exact ⟨s, rfl, hnodup, Nat.le_refl _⟩
    · rw [if_neg hpass]
      have hnew : n ∉ S.seen s := fun h => hpass (.inr (.inr h))
      have hentered : (S.seen (S.enter n s)).Nodup := by
        rw [S.seen_enter]
        exact List.nodup_cons.mpr ⟨hnew, hnodup⟩
      have hlength : (S.seen (S.enter n s)).length = (S.seen s).length + 1 := by
        rw [S.seen_enter, List.length_cons]
      obtain ⟨s₁, hfirst, hnodup₁, hlength₁⟩ := foldlM_of_walks ih (S.first n) hentered (by omega)
      have hacted : (S.seen (S.act n s₁)).Nodup := by rwa [S.seen_act]
      obtain ⟨s₂, hlast, hnodup₂, hlength₂⟩ := foldlM_of_walks ih (S.last n) hacted
        (by rw [S.seen_act]; omega)
      rw [S.seen_act] at hlength₂
      refine ⟨s₂, Option.bind_eq_some_iff.mpr ⟨s₁, hfirst, hlast⟩, hnodup₂, by omega⟩

end Termination

end Search

end Interaction.Descent
