import DarkEden.Interaction.Contract

namespace Interaction

variable {Op : Type} {Ans : Op → Type} {σ β : Type}

/-- The passes of a loop without a bound on their number: the states they begin with, from `s` on,
and the result of the last. -/
inductive Iterates (env : Env Ans) (body : σ → Program Ans (σ ⊕ β)) :
    σ → Log Ans → List σ → β → Log Ans → Prop
  | stop {s : σ} {l l' : Log Ans} {b : β} (h : (body s).run env l = (.inr b, l')) :
      Iterates env body s l [s] b l'
  | next {s s' : σ} {l l₁ l' : Log Ans} {trace : List σ} {b : β}
      (h : (body s).run env l = (.inl s', l₁)) (hrest : Iterates env body s' l₁ trace b l') :
      Iterates env body s l (s :: trace) b l'

variable {env : Env Ans} {body : σ → Program Ans (σ ⊕ β)}

/-- A bound that is not reached changes nothing. -/
theorem Iterates.run_loop {s : σ} {l l' : Log Ans} {trace : List σ} {b : β}
    (h : Iterates env body s l trace b l') {n : Nat} (hn : trace.length ≤ n) :
    (Program.loop body n s).run env l = (some b, l') := by
  induction h generalizing n with
  | stop h =>
    cases n with
    | zero => cases hn
    | succ n => rw [Program.loop, Program.run_bind, h, Program.run_pure]
  | next h _ ih =>
    cases n with
    | zero => cases hn
    | succ n =>
      rw [Program.loop, Program.run_bind, h]
      exact ih (Nat.le_of_succ_le_succ hn)

/-- A loop ends if every pass that goes on makes a measure smaller. -/
theorem exists_iterates (m : σ → Nat)
    (hstep : ∀ s l s', ((body s).run env l).1 = .inl s' → m s' < m s) (s : σ) (l : Log Ans) :
    ∃ trace b l', Iterates env body s l trace b l' := by
  induction hn : m s using Nat.strongRecOn generalizing s l with
  | ind n ih =>
    match hr : (body s).run env l with
    | (.inl s', l₁) =>
      have hlt := hstep s l s' (by rw [hr])
      obtain ⟨trace, b, l', hrest⟩ := ih (m s') (hn ▸ hlt) s' l₁ rfl
      exact ⟨s :: trace, b, l', .next hr hrest⟩
    | (.inr b, l₁) => exact ⟨[s], b, l₁, .stop hr⟩

theorem Iterates.length_le {s : σ} {l l' : Log Ans} {trace : List σ} {b : β}
    (h : Iterates env body s l trace b l') (m : σ → Nat)
    (hstep : ∀ s l s', ((body s).run env l).1 = .inl s' → m s' < m s) : trace.length ≤ m s + 1 := by
  induction h with
  | stop _ => exact Nat.le_add_left 1 _
  | next h _ ih =>
    have hlt := hstep _ _ _ (by rw [h])
    rw [List.length_cons]
    omega

theorem Iterates.last {I : σ → Prop} {s : σ} {l l' : Log Ans} {trace : List σ} {b : β}
    (h : Iterates env body s l trace b l') (hs : I s)
    (hstep : ∀ s l s', I s → ((body s).run env l).1 = .inl s' → I s') :
    ∃ s' l₁, I s' ∧ (body s').run env l₁ = (.inr b, l') := by
  induction h with
  | @stop s l l' b h => exact ⟨s, l, hs, h⟩
  | next h _ ih => exact ih (hstep _ _ _ hs (by rw [h]))

end Interaction
