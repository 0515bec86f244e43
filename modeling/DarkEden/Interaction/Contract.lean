import DarkEden.Interaction.Program

namespace Interaction

/-- What a program may assume about each answer, and what it must guarantee
before it performs each operation, both given the log so far. -/
structure Contract {Op : Type} (Ans : Op → Type) where
  rely : Log Ans → (o : Op) → Ans o → Prop
  guar : Log Ans → Op → Prop

variable {Op Op₁ Op₂ : Type} {Ans : Op → Type} {Ans₁ : Op₁ → Type} {Ans₂ : Op₂ → Type}
variable {α β σ : Type}

def Contract.ofEnv (env : Env Ans) : Contract Ans := ⟨fun l o x => x = env l o, fun _ _ => True⟩

/-- Weakest precondition under a contract: every operation is guaranteed when it
is performed, and the result and final log satisfy `Q`, for all answers relied on. -/
def wp (C : Contract Ans) : Program Ans α → Log Ans → (α → Log Ans → Prop) → Prop
  | .done a, l, Q => Q a l
  | .call o next, l, Q => C.guar l o ∧ ∀ x, C.rely l o x → wp C (next x) (l ++ [⟨o, x⟩]) Q

variable {C : Contract Ans}

@[simp]
theorem wp_pure (a : α) (l : Log Ans) (Q : α → Log Ans → Prop) :
    wp C (pure a : Program Ans α) l Q ↔ Q a l := Iff.rfl

@[simp]
theorem wp_bind (p : Program Ans α) (f : α → Program Ans β) (l : Log Ans)
    (Q : β → Log Ans → Prop) :
    wp C (p >>= f) l Q ↔ wp C p l fun a l' => wp C (f a) l' Q := by
  induction p generalizing l with
  | done a => rfl
  | call o next ih => exact and_congr_right' (forall₂_congr fun x _ => ih x _)

theorem wp_map (f : α → β) (p : Program Ans α) (l : Log Ans) (Q : β → Log Ans → Prop) :
    wp C (f <$> p) l Q ↔ wp C p l fun a l' => Q (f a) l' :=
  wp_bind p (fun a => pure (f a)) l Q

theorem wp_ask_bind {o : Op} {f : Ans o → Program Ans α} {l : Log Ans} {Q : α → Log Ans → Prop} :
    wp C (Program.ask o >>= f) l Q ↔
      C.guar l o ∧ ∀ x, C.rely l o x → wp C (f x) (l ++ [⟨o, x⟩]) Q := Iff.rfl

theorem wp_ite (c : Prop) [Decidable c] (p q : Program Ans α) (l : Log Ans)
    (Q : α → Log Ans → Prop) :
    wp C (if c then p else q) l Q ↔ (c → wp C p l Q) ∧ (¬c → wp C q l Q) := by
  split <;> simp [*]

theorem wp_mono {p : Program Ans α} {l : Log Ans} {Q Q' : α → Log Ans → Prop}
    (h : wp C p l Q) (hQ : ∀ a l', Q a l' → Q' a l') : wp C p l Q' := by
  induction p generalizing l with
  | done a => exact hQ a l h
  | call o next ih => exact ⟨h.1, fun x hx => ih x (h.2 x hx)⟩

theorem wp_of_forall (hguar : ∀ l o, C.guar l o) {Q : α → Log Ans → Prop} (hQ : ∀ a l, Q a l)
    (p : Program Ans α) (l : Log Ans) : wp C p l Q := by
  induction p generalizing l with
  | done a => exact hQ a l
  | call o next ih => exact ⟨hguar l o, fun x _ => ih x _⟩

theorem wp_and {p : Program Ans α} {l : Log Ans} {Q Q' : α → Log Ans → Prop}
    (h : wp C p l Q) (h' : wp C p l Q') : wp C p l fun a l' => Q a l' ∧ Q' a l' := by
  induction p generalizing l with
  | done a => exact ⟨h, h'⟩
  | call o next ih => exact ⟨h.1, fun x hx => ih x (h.2 x hx) (h'.2 x hx)⟩

theorem wp_prefix {p : Program Ans α} {l : Log Ans} {Q : α → Log Ans → Prop} (h : wp C p l Q) :
    wp C p l fun a l' => Q a l' ∧ l <+: l' := by
  induction p generalizing l with
  | done a => exact ⟨h, List.prefix_rfl⟩
  | call o next ih =>
    refine ⟨h.1, fun x hx => wp_mono (ih x (h.2 x hx)) fun a l' hl => ⟨hl.1, ?_⟩⟩
    exact (List.prefix_append l _).trans hl.2

/-- What every answer that is relied on preserves holds in the end. -/
theorem wp_invariant {J : Log Ans → Prop} (hkeep : ∀ l o x, C.rely l o x → J l → J (l ++ [⟨o, x⟩]))
    {p : Program Ans α} {l : Log Ans} {Q : α → Log Ans → Prop} (hl : J l) (h : wp C p l Q) :
    wp C p l fun a l' => Q a l' ∧ J l' := by
  induction p generalizing l with
  | done a => exact ⟨h, hl⟩
  | call o next ih => exact ⟨h.1, fun x hx => ih x (hkeep l o x hx hl) (h.2 x hx)⟩

theorem wp_contract {C' : Contract Ans} {p : Program Ans α} {l : Log Ans} {Q : α → Log Ans → Prop}
    (hrely : ∀ l o x, C'.rely l o x → C.rely l o x) (hguar : ∀ l o, C.guar l o → C'.guar l o)
    (h : wp C p l Q) : wp C' p l Q := by
  induction p generalizing l with
  | done a => exact h
  | call o next ih => exact ⟨hguar l o h.1, fun x hx => ih x (h.2 x (hrely l o x hx))⟩

/-- The invariant of a bounded loop may mention the iterations that are left. -/
theorem wp_loop {body : σ → Program Ans (σ ⊕ β)} {Q : Option β → Log Ans → Prop}
    (I : Nat → σ → Log Ans → Prop)
    (hbody : ∀ n s l, I (n + 1) s l → wp C (body s) l fun r l' =>
      Sum.elim (fun s' => I n s' l') (fun b => Q (some b) l') r)
    (hend : ∀ s l, I 0 s l → Q none l) (n : Nat) (s : σ) (l : Log Ans) (h : I n s l) :
    wp C (Program.loop body n s) l Q := by
  induction n generalizing s l with
  | zero => exact hend s l h
  | succ n ih =>
    rw [Program.loop, wp_bind]
    refine wp_mono (hbody n s l h) fun r l' hr => ?_
    cases r with
    | inl s' => exact ih s' l' hr
    | inr b => exact hr

section Errors

variable {ε : Type} {p : ExceptT ε (Program Ans) α} {f : α → ExceptT ε (Program Ans) β} {l : Log Ans}

theorem wp_run_bind {Q : Except ε β → Log Ans → Prop} :
    wp C (p >>= f).run l Q ↔ wp C p.run l fun r l' =>
      match r with
      | .ok a => wp C (f a).run l' Q
      | .error e => Q (.error e) l' := by
  rw [ExceptT.run_bind, wp_bind]
  refine ⟨fun h => wp_mono h fun r l' hr => ?_, fun h => wp_mono h fun r l' hr => ?_⟩
  · cases r <;> exact hr
  · cases r <;> exact hr

theorem wp_run_lift {q : Program Ans α} {Q : Except ε α → Log Ans → Prop} :
    wp C (ExceptT.lift q : ExceptT ε (Program Ans) α).run l Q ↔
      wp C q l fun a l' => Q (.ok a) l' :=
  wp_bind q _ l Q

theorem wp_run_bind_toOption {v : Option α} {g : α → Option β}
    (hp : wp C p.run l fun r _ => r.toOption = v)
    (hf : ∀ a l', v = some a → wp C (f a).run l' fun r _ => r.toOption = g a) :
    wp C (p >>= f).run l fun r _ => r.toOption = (v >>= g) := by
  refine wp_run_bind.mpr (wp_mono hp fun r l' hr => ?_)
  subst hr
  cases r with
  | error e => rfl
  | ok a => exact hf a l' rfl

end Errors

/-- Every operation in the log satisfied `P` where it was performed. -/
def Throughout (P : Log Ans → Op → Prop) (l : Log Ans) : Prop :=
  ∀ l₁ e l₂, l = l₁ ++ e :: l₂ → P l₁ e.1

section Adequacy

variable {env : Env Ans}

theorem run_of_wp (henv : ∀ l o, C.rely l o (env l o)) {p : Program Ans α} {l : Log Ans}
    {Q : α → Log Ans → Prop} (h : wp C p l Q) : Q (p.run env l).1 (p.run env l).2 := by
  induction p generalizing l with
  | done a => exact h
  | call o next ih => exact ih (env l o) (h.2 (env l o) (henv l o))

/-- A run achieves also what depends on the answers that it got. -/
theorem run_of_wp_where {S : (o : Op) → Ans o → Prop}
    (henv : ∀ l o, S o (env l o) → C.rely l o (env l o)) {p : Program Ans α} {l : Log Ans}
    {Q : α → Log Ans → Prop} (h : wp C p l Q) (hlog : ∀ e ∈ (p.run env l).2, S e.1 e.2) :
    Q (p.run env l).1 (p.run env l).2 := by
  induction p generalizing l with
  | done a => exact h
  | call o next ih =>
    have hmem : ⟨o, env l o⟩ ∈ ((next (env l o)).run env (l ++ [⟨o, env l o⟩])).2 :=
      (Program.prefix_run env _ _).subset (by simp)
    exact ih (env l o) (h.2 (env l o) (henv l o (hlog _ hmem))) hlog

/-- Every operation in the log of a run was guaranteed where it was performed. -/
theorem guar_of_wp (henv : ∀ l o, C.rely l o (env l o)) {p : Program Ans α} {l : Log Ans}
    {Q : α → Log Ans → Prop} (h : wp C p l Q) {l₁ l₂ : Log Ans} {e : Sigma Ans}
    (hsplit : (p.run env l).2 = l₁ ++ e :: l₂) (hl : l.length ≤ l₁.length) : C.guar l₁ e.1 := by
  induction p generalizing l with
  | done a =>
    have hlen := congrArg List.length hsplit
    simp only [Program.run, List.length_append, List.length_cons] at hlen
    omega
  | call o next ih =>
    have hpre := Program.prefix_run env (next (env l o)) (l ++ [⟨o, env l o⟩])
    rw [Program.run] at hsplit
    rcases Nat.lt_or_eq_of_le hl with hlt | heq
    · exact ih (env l o) (h.2 _ (henv l o)) hsplit (by rw [List.length_append]; exact hlt)
    · rw [hsplit] at hpre
      obtain ⟨t, ht⟩ := hpre
      rw [List.append_assoc] at ht
      obtain ⟨rfl, he⟩ := List.append_inj ht heq
      obtain ⟨rfl, -⟩ := List.cons.inj he
      exact h.1

theorem wp_ofEnv {p : Program Ans α} {l : Log Ans} {Q : α → Log Ans → Prop} :
    wp (.ofEnv env) p l Q ↔ Q (p.run env l).1 (p.run env l).2 := by
  refine ⟨run_of_wp fun _ _ => rfl, fun h => ?_⟩
  induction p generalizing l with
  | done a => exact h
  | call o next ih =>
    refine ⟨trivial, fun x hx => ?_⟩
    obtain rfl : x = env l o := hx
    exact ih _ h

theorem throughout_of_wp (henv : ∀ l o, C.rely l o (env l o)) {p : Program Ans α}
    {Q : α → Log Ans → Prop} (h : wp C p [] Q) : Throughout C.guar (p.run env []).2 :=
  fun _ _ _ hsplit => guar_of_wp henv h hsplit (Nat.zero_le _)

end Adequacy

/-- Forward simulation: if every operation of the upper interface is implemented so
that its guarantee is enough and its answer can be relied on, and the two logs stay
related, then what holds of the upper program holds of its implementation. -/
theorem wp_record {C : Contract Ans₁} {D : Contract Ans₂}
    {h : (o : Op₁) → Program Ans₂ (Ans₁ o)} {R : Log Ans₁ → Log Ans₂ → Prop}
    (sim : ∀ l m o, R l m → C.guar l o →
      wp D (h o) m fun x m' => C.rely l o x ∧ R (l ++ [⟨o, x⟩]) m')
    {p : Program Ans₁ α} {l : Log Ans₁} {m : Log Ans₂} {Q : α → Log Ans₁ → Prop}
    (hR : R l m) (hp : wp C p l Q) :
    wp D (p.record h l) m fun r m' => R r.2 m' ∧ Q r.1 r.2 := by
  induction p generalizing l m with
  | done a => exact ⟨hR, hp⟩
  | call o next ih =>
    rw [Program.record, wp_bind]
    exact wp_mono (sim l m o hR hp.1) fun x m' hx => ih x hx.2 (hp.2 x hx.1)

theorem wp_translate {C : Contract Ans₁} {D : Contract Ans₂}
    {h : (o : Op₁) → Program Ans₂ (Ans₁ o)} {R : Log Ans₁ → Log Ans₂ → Prop}
    (sim : ∀ l m o, R l m → C.guar l o →
      wp D (h o) m fun x m' => C.rely l o x ∧ R (l ++ [⟨o, x⟩]) m')
    {p : Program Ans₁ α} {l : Log Ans₁} {m : Log Ans₂} {Q : α → Log Ans₁ → Prop}
    (hR : R l m) (hp : wp C p l Q) :
    wp D (p.translate h) m fun a m' => ∃ l', R l' m' ∧ Q a l' := by
  rw [Program.translate_eq_record h p l, wp_bind]
  exact wp_mono (wp_record sim hR hp) fun r _ hr => ⟨r.2, hr⟩

/-- What a program on another interface achieves in a run, and what it has called for there. -/
theorem run_of_wp_record {C : Contract Ans₁} {D : Contract Ans₂} {env : Env Ans₂}
    (henv : ∀ l o, D.rely l o (env l o)) {h : (o : Op₁) → Program Ans₂ (Ans₁ o)}
    {R : Log Ans₁ → Log Ans₂ → Prop}
    (sim : ∀ l m o, R l m → C.guar l o →
      wp D (h o) m fun x m' => C.rely l o x ∧ R (l ++ [⟨o, x⟩]) m')
    {p : Program Ans₁ α} {Q : α → Log Ans₁ → Prop} (hR : R [] []) (hp : wp C p [] Q) :
    Q ((p.translate h).run env []).1 ((p.record h []).run env []).1.2 := by
  rw [← Program.run_record]
  exact (run_of_wp henv (wp_record sim hR hp)).2

/-- The program performs no operation outside `allowed`, whatever the answers are. -/
def Uses (allowed : Op → Prop) : Program Ans α → Prop
  | .done _ => True
  | .call o next => allowed o ∧ ∀ x, Uses allowed (next x)

section Uses

variable {allowed : Op → Prop}

theorem uses_mono {allowed' : Op → Prop} (h : ∀ o, allowed o → allowed' o) {p : Program Ans α}
    (hp : Uses allowed p) : Uses allowed' p := by
  induction p with
  | done a => trivial
  | call o next ih => exact ⟨h o hp.1, fun x => ih x (hp.2 x)⟩

theorem uses_of_forall (h : ∀ o, allowed o) (p : Program Ans α) : Uses allowed p := by
  induction p with
  | done a => trivial
  | call o next ih => exact ⟨h o, ih⟩

theorem uses_pure (a : α) : Uses allowed (pure a : Program Ans α) := trivial

theorem uses_ask {o : Op} (h : allowed o) : Uses allowed (Program.ask o : Program Ans (Ans o)) :=
  ⟨h, fun _ => trivial⟩

theorem uses_bind {p : Program Ans α} {f : α → Program Ans β} (hp : Uses allowed p)
    (hf : ∀ a, Uses allowed (f a)) : Uses allowed (p >>= f) := by
  induction p with
  | done a => exact hf a
  | call o next ih => exact ⟨hp.1, fun x => ih x (hp.2 x)⟩

theorem uses_ite {c : Prop} [Decidable c] {p q : Program Ans α} (hp : c → Uses allowed p)
    (hq : ¬c → Uses allowed q) : Uses allowed (if c then p else q) := by
  by_cases h : c
  · rw [if_pos h]
    exact hp h
  · rw [if_neg h]
    exact hq h

theorem uses_run_bind {ε : Type} {p : ExceptT ε (Program Ans) α}
    {f : α → ExceptT ε (Program Ans) β} (hp : Uses allowed p.run)
    (hf : ∀ a, Uses allowed (f a).run) : Uses allowed (p >>= f).run := by
  rw [ExceptT.run_bind]
  refine uses_bind hp fun r => ?_
  cases r with
  | ok a => exact hf a
  | error e => exact uses_pure _

theorem uses_run_lift {ε : Type} {p : Program Ans α} (hp : Uses allowed p) :
    Uses allowed (ExceptT.lift p : ExceptT ε (Program Ans) α).run :=
  uses_bind hp fun _ => uses_pure _

theorem uses_loop {body : σ → Program Ans (σ ⊕ β)} (h : ∀ s, Uses allowed (body s)) (n : Nat)
    (s : σ) : Uses allowed (Program.loop body n s) := by
  induction n generalizing s with
  | zero => exact uses_pure none
  | succ n ih =>
    refine uses_bind (h s) fun r => ?_
    cases r with
    | inl s' => exact ih s'
    | inr b => exact uses_pure (some b)

theorem wp_of_uses {p : Program Ans α} (hp : Uses allowed p) (l : Log Ans) :
    wp ⟨fun _ _ _ => True, fun _ o => allowed o⟩ p l fun _ _ => True := by
  induction p generalizing l with
  | done a => trivial
  | call o next ih => exact ⟨hp.1, fun x _ => ih x (hp.2 x) _⟩

/-- A contract with duties is as good as one without for a program that does its duties. -/
theorem wp_restrict {C' : Contract Ans} (hguar : ∀ l o, allowed o → C'.guar l o)
    (hrely : ∀ l o x, allowed o → C'.rely l o x → C.rely l o x) {p : Program Ans α}
    (hp : Uses allowed p) {l : Log Ans} {Q : α → Log Ans → Prop} (h : wp C p l Q) : wp C' p l Q := by
  induction p generalizing l with
  | done a => exact h
  | call o next ih =>
    exact ⟨hguar l o hp.1, fun x hx => ih x (hp.2 x) (h.2 x (hrely l o x hp.1 hx))⟩

/-- A program whose operations have only one answer comes to the same result everywhere. -/
theorem wp_of_silent (hguar : ∀ l o, allowed o → C.guar l o)
    (hans : ∀ o, allowed o → Subsingleton (Ans o)) {p : Program Ans α} (hp : Uses allowed p)
    (env : Env Ans) (l l₀ : Log Ans) : wp C p l fun a _ => a = (p.run env l₀).1 := by
  induction p generalizing l l₀ with
  | done a => rfl
  | call o next ih =>
    refine ⟨hguar l o hp.1, fun x _ => ?_⟩
    obtain rfl : x = env l₀ o := (hans o hp.1).elim _ _
    exact ih _ (hp.2 _) _ _

theorem wp_of_uses_run {env : Env Ans} {guar : Log Ans → Op → Prop}
    (hguar : ∀ l o, allowed o → guar l o) {p : Program Ans α} (hp : Uses allowed p) {l : Log Ans}
    {Q : α → Log Ans → Prop} (hQ : Q (p.run env l).1 (p.run env l).2) :
    wp ⟨fun l o x => x = env l o, guar⟩ p l Q := by
  induction p generalizing l with
  | done a => exact hQ
  | call o next ih =>
    refine ⟨hguar l o hp.1, fun x hx => ?_⟩
    obtain rfl : x = env l o := hx
    exact ih _ (hp.2 _) hQ

/-- An invariant that the implementation of every operation used keeps is kept by the
implementation of the program. -/
theorem wp_translate_invariant {allowed : Op₁ → Prop} {C : Contract Ans₂}
    {h : (o : Op₁) → Program Ans₂ (Ans₁ o)} {J : Log Ans₂ → Prop} {p : Program Ans₁ α}
    (hp : Uses allowed p) (hkeep : ∀ o l, allowed o → J l → wp C (h o) l fun _ l' => J l')
    {l : Log Ans₂} (hl : J l) : wp C (p.translate h) l fun _ l' => J l' :=
  wp_mono (wp_translate (R := fun _ l₂ => J l₂)
    (fun _ l₂ o hJ ho => wp_mono (hkeep o l₂ ho hJ) fun _ _ hJ' => ⟨trivial, hJ'⟩)
    hl (wp_of_uses hp [])) fun _ _ h => h.choose_spec.1

end Uses

end Interaction
