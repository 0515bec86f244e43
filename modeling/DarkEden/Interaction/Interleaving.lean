import DarkEden.Interaction.Contract
import Mathlib.Algebra.BigOperators.Group.Finset.Piecewise

namespace Interaction

variable {ι Op : Type} {Ans : Op → Type} {α : Type}

/-- An operation of one of several programs, with its answer. -/
abbrev History (ι : Type) (Ans : Op → Type) := List (ι × Sigma Ans)

section Own

variable [DecidableEq ι]

def own (i : ι) (history : History ι Ans) : Log Ans :=
  (history.filter fun e => e.1 = i).map Prod.snd

@[simp]
theorem own_nil (i : ι) : own i ([] : History ι Ans) = [] := rfl

theorem own_append (i : ι) (h₁ h₂ : History ι Ans) : own i (h₁ ++ h₂) = own i h₁ ++ own i h₂ := by
  rw [own, List.filter_append, List.map_append, own, own]

@[simp]
theorem own_cons_self (i : ι) (e : Sigma Ans) (history : History ι Ans) :
    own i ((i, e) :: history) = e :: own i history := by
  simp [own]

@[simp]
theorem own_cons_ne {i j : ι} (h : j ≠ i) (e : Sigma Ans) (history : History ι Ans) :
    own i ((j, e) :: history) = own i history := by
  simp [own, h]

theorem exists_of_own {i : ι} {history : History ι Ans} {l₁ l₂ : Log Ans} {e : Sigma Ans}
    (h : own i history = l₁ ++ e :: l₂) :
    ∃ h₁ h₂, history = h₁ ++ (i, e) :: h₂ ∧ own i h₁ = l₁ ∧ own i h₂ = l₂ := by
  induction history generalizing l₁ with
  | nil => simp at h
  | cons first history ih =>
    obtain ⟨j, e'⟩ := first
    by_cases hj : j = i
    · subst hj
      rw [own_cons_self] at h
      cases l₁ with
      | nil =>
        obtain ⟨rfl, htail⟩ := List.cons.inj h
        exact ⟨[], history, rfl, rfl, htail⟩
      | cons e₁ l₁ =>
        obtain ⟨rfl, htail⟩ := List.cons.inj h
        obtain ⟨h₁, h₂, rfl, h₁', h₂'⟩ := ih htail
        exact ⟨(j, e') :: h₁, h₂, rfl, by rw [own_cons_self, h₁'], h₂'⟩
    · rw [own_cons_ne hj] at h
      obtain ⟨h₁, h₂, rfl, h₁', h₂'⟩ := ih h
      exact ⟨(j, e') :: h₁, h₂, rfl, by rw [own_cons_ne hj, h₁'], h₂'⟩

theorem countP_eq_sum [Fintype ι] (f : Sigma Ans → Bool) (history : History ι Ans) :
    history.countP (fun e => f e.2) = ∑ i, (own i history).countP f := by
  induction history with
  | nil => simp
  | cons first history ih =>
    obtain ⟨j, e⟩ := first
    have hown : ∀ i, (own i ((j, e) :: history)).countP f =
        (own i history).countP f + if i = j then (if f e then 1 else 0) else 0 := by
      intro i
      by_cases hj : i = j
      · subst hj
        rw [own_cons_self, List.countP_cons, if_pos rfl]
      · rw [own_cons_ne (Ne.symm hj), if_neg hj, Nat.add_zero]
    rw [List.countP_cons, ih, Finset.sum_congr rfl fun i _ => hown i, Finset.sum_add_distrib,
      Finset.sum_ite_eq' Finset.univ j, if_pos (Finset.mem_univ j)]

end Own

section Runs

variable [DecidableEq ι] {p rest : ι → Program Ans α} {history : History ι Ans}

/-- Programs that perform their operations one at a time, in any order. What else happens in
between shows in the answers only. The last argument is what is left to do. -/
inductive Interleaves (p : ι → Program Ans α) : History ι Ans → (ι → Program Ans α) → Prop
  | start : Interleaves p [] p
  | step {history : History ι Ans} {rest : ι → Program Ans α} {i : ι} {o : Op}
      {next : Ans o → Program Ans α} (h : Interleaves p history rest) (hi : rest i = .call o next)
      (x : Ans o) : Interleaves p (history ++ [(i, ⟨o, x⟩)]) fun j => if j = i then next x else rest j

/-- Every answer is one that the program which gets it relies on, given what it has done itself. -/
def Relied (C : ι → Contract Ans) (history : History ι Ans) : Prop :=
  ∀ h₁ i e h₂, history = h₁ ++ (i, e) :: h₂ → (C i).rely (own i h₁) e.1 e.2

theorem Throughout.snoc {P : Log Ans → Op → Prop} {l : Log Ans} (h : Throughout P l) {e : Sigma Ans}
    (he : P l e.1) : Throughout P (l ++ [e]) := by
  intro l₁ e' l₂ hsplit
  rcases List.eq_nil_or_concat l₂ with rfl | ⟨l₂, last, rfl⟩
  · obtain ⟨rfl, hlast⟩ := List.append_inj' hsplit rfl
    rwa [← (List.cons.inj hlast).1]
  · rw [List.concat_eq_append, ← List.cons_append, ← List.append_assoc] at hsplit
    exact h l₁ e' l₂ (List.append_inj' hsplit rfl).1

variable {C : ι → Contract Ans} {Q : ι → α → Log Ans → Prop}

/-- What a program owes it owes itself: no interleaving with others changes that. -/
theorem Interleaves.wp (h : Interleaves p history rest) (hp : ∀ i, wp (C i) (p i) [] (Q i))
    (hrely : Relied C history) (i : ι) :
    Interaction.wp (C i) (rest i) (own i history) (Q i) ∧ Throughout (C i).guar (own i history) := by
  induction h with
  | start => exact ⟨hp i, fun l₁ e l₂ hnil => by simp at hnil⟩
  | @step history rest j o next h hj x ih =>
    obtain ⟨hwp, hthrough⟩ := ih fun h₁ i e h₂ hsplit =>
      hrely h₁ i e (h₂ ++ [(j, ⟨o, x⟩)]) (by rw [hsplit, List.append_assoc, List.cons_append])
    rw [own_append]
    by_cases hij : j = i
    · subst hij
      beta_reduce
      rw [own_cons_self, own_nil, if_pos rfl]
      rw [hj] at hwp
      exact ⟨hwp.2 x (hrely history j ⟨o, x⟩ [] rfl), hthrough.snoc hwp.1⟩
    · beta_reduce
      rw [own_cons_ne hij, own_nil, List.append_nil, if_neg (Ne.symm hij)]
      exact ⟨hwp, hthrough⟩

theorem Interleaves.guar (h : Interleaves p history rest)
    (hp : ∀ i, Interaction.wp (C i) (p i) [] (Q i))
    (hrely : Relied C history) {h₁ h₂ : History ι Ans} {i : ι} {e : Sigma Ans}
    (hsplit : history = h₁ ++ (i, e) :: h₂) : (C i).guar (own i h₁) e.1 := by
  apply (h.wp hp hrely i).2 (own i h₁) e (own i h₂)
  rw [hsplit, own_append, own_cons_self]

theorem Interleaves.result (h : Interleaves p history rest)
    (hp : ∀ i, Interaction.wp (C i) (p i) [] (Q i)) (hrely : Relied C history) {i : ι} {a : α}
    (hdone : rest i = .done a) : Q i a (own i history) := by
  have hwp := (h.wp hp hrely i).1
  rwa [hdone] at hwp

/-- Let the programs take turns as the schedule says; one that has ended passes. -/
def interleave (env : History ι Ans → (o : Op) → Ans o) :
    List ι → History ι Ans × (ι → Program Ans α) → History ι Ans × (ι → Program Ans α)
  | [], s => s
  | i :: schedule, (history, rest) =>
    match rest i with
    | .done _ => interleave env schedule (history, rest)
    | .call o next => interleave env schedule
        (history ++ [(i, ⟨o, env history o⟩)],
          fun j => if j = i then next (env history o) else rest j)

def Answered (env : History ι Ans → (o : Op) → Ans o) (history : History ι Ans) : Prop :=
  ∀ h₁ i e h₂, history = h₁ ++ (i, e) :: h₂ → e.2 = env h₁ e.1

theorem interleaves_interleave (env : History ι Ans → (o : Op) → Ans o) (schedule : List ι)
    {s : History ι Ans × (ι → Program Ans α)} (h : Interleaves p s.1 s.2) (hs : Answered env s.1) :
    Interleaves p (interleave env schedule s).1 (interleave env schedule s).2 ∧
      Answered env (interleave env schedule s).1 := by
  induction schedule generalizing s with
  | nil => exact ⟨h, hs⟩
  | cons i schedule ih =>
    obtain ⟨history, rest⟩ := s
    rw [interleave]
    cases hi : rest i with
    | done a => exact ih h hs
    | call o next =>
      refine ih (h.step hi _) fun h₁ j e h₂ hsplit => ?_
      rcases List.eq_nil_or_concat h₂ with rfl | ⟨h₂, last, rfl⟩
      · obtain ⟨rfl, hlast⟩ := List.append_inj' hsplit rfl
        obtain ⟨-, rfl⟩ := Prod.mk.inj (List.cons.inj hlast).1
        rfl
      · rw [List.concat_eq_append, ← List.cons_append, ← List.append_assoc] at hsplit
        exact hs h₁ j e h₂ (List.append_inj' hsplit rfl).1

end Runs

/-- What is only done where it has never been done before is done at most once. -/
theorem countP_le_one {l : Log Ans} {f : Sigma Ans → Bool}
    (h : ∀ l₁ e l₂, l = l₁ ++ e :: l₂ → f e → ∀ e' ∈ l₁, f e' = false) : l.countP f ≤ 1 := by
  induction l using List.reverseRecOn with
  | nil => exact Nat.zero_le 1
  | append_singleton l e ih =>
    rw [List.countP_append, List.countP_singleton]
    by_cases he : f e
    · have hnone : l.countP f = 0 := List.countP_eq_zero.mpr fun e' he' => by
        simpa using h l e [] rfl he e' he'
      rw [hnone, if_pos he]
    · rw [if_neg he]
      refine ih fun l₁ e' l₂ hsplit => h l₁ e' (l₂ ++ [e]) ?_
      rw [hsplit, List.append_assoc, List.cons_append]

end Interaction
