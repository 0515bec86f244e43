import Mathlib.Logic.Function.Basic

namespace Interaction

/-- A program over an interface of operations `Op`: each call continues with
whatever answer the environment gives to the operation. -/
inductive Program {Op : Type} (Ans : Op → Type) (α : Type) : Type
  | done (a : α)
  | call (o : Op) (next : Ans o → Program Ans α)

abbrev Log {Op : Type} (Ans : Op → Type) := List (Sigma Ans)

/-- An environment answers an operation knowing everything that happened
before it, so that every sequence of answers is produced by some environment. -/
abbrev Env {Op : Type} (Ans : Op → Type) := Log Ans → (o : Op) → Ans o

namespace Program

variable {Op Op₁ Op₂ : Type} {Ans : Op → Type} {Ans₁ : Op₁ → Type} {Ans₂ : Op₂ → Type}
variable {α β σ : Type}

protected def bind : Program Ans α → (α → Program Ans β) → Program Ans β
  | .done a, f => f a
  | .call o next, f => .call o (fun x => (next x).bind f)

instance : Monad (Program Ans) where
  pure := .done
  bind := Program.bind

theorem call_bind (o : Op) (next : Ans o → Program Ans α) (f : α → Program Ans β) :
    Program.call o next >>= f = .call o (fun x => next x >>= f) := rfl

theorem bind_done (p : Program Ans α) : p >>= Program.done = p := by
  induction p with
  | done a => rfl
  | call o next ih => rw [call_bind, funext ih]

theorem bind_bind {γ : Type} (p : Program Ans α) (f : α → Program Ans β) (g : β → Program Ans γ) :
    p >>= f >>= g = p >>= fun a => f a >>= g := by
  induction p with
  | done a => rfl
  | call o next ih => simp only [call_bind, ih]

instance : LawfulMonad (Program Ans) :=
  LawfulMonad.mk' (Program Ans) bind_done (fun _ _ => rfl) bind_bind

def result? : Program Ans α → Option α
  | .done a => some a
  | .call _ _ => none

theorem result?_eq_some {p : Program Ans α} {a : α} (h : p.result? = some a) : p = .done a := by
  cases p with
  | done b => rw [Option.some.inj h]
  | call o next => cases h

def ask (o : Op) : Program Ans (Ans o) := .call o .done

def run (env : Env Ans) : Program Ans α → Log Ans → α × Log Ans
  | .done a, l => (a, l)
  | .call o next, l => (next (env l o)).run env (l ++ [⟨o, env l o⟩])

@[simp]
theorem run_pure (env : Env Ans) (a : α) (l : Log Ans) :
    (pure a : Program Ans α).run env l = (a, l) := rfl

@[simp]
theorem run_bind (env : Env Ans) (p : Program Ans α) (f : α → Program Ans β) (l : Log Ans) :
    (p >>= f).run env l = (f (p.run env l).1).run env (p.run env l).2 := by
  induction p generalizing l with
  | done a => rfl
  | call o next ih => exact ih (env l o) (l ++ [⟨o, env l o⟩])

@[simp]
theorem run_ask (env : Env Ans) (o : Op) (l : Log Ans) :
    (ask o : Program Ans (Ans o)).run env l = (env l o, l ++ [⟨o, env l o⟩]) := rfl

theorem prefix_run (env : Env Ans) (p : Program Ans α) (l : Log Ans) :
    l <+: (p.run env l).2 := by
  induction p generalizing l with
  | done a => exact List.prefix_rfl
  | call o next ih => exact (List.prefix_append l _).trans (ih _ _)

/-- Implement every operation of one interface by a program over another. -/
def translate (h : (o : Op₁) → Program Ans₂ (Ans₁ o)) : Program Ans₁ α → Program Ans₂ α
  | .done a => .done a
  | .call o next => h o >>= fun x => (next x).translate h

theorem translate_bind (h : (o : Op₁) → Program Ans₂ (Ans₁ o)) (p : Program Ans₁ α)
    (f : α → Program Ans₁ β) :
    (p >>= f).translate h = p.translate h >>= fun a => (f a).translate h := by
  induction p with
  | done a => rfl
  | call o next ih => simp only [call_bind, translate, ih, bind_bind]

/-- Translate a program, and record the operations that were implemented with their answers. -/
def record (h : (o : Op₁) → Program Ans₂ (Ans₁ o)) : Program Ans₁ α → Log Ans₁ →
    Program Ans₂ (α × Log Ans₁)
  | .done a, l => .done (a, l)
  | .call o next, l => h o >>= fun x => (next x).record h (l ++ [⟨o, x⟩])

theorem translate_eq_record (h : (o : Op₁) → Program Ans₂ (Ans₁ o)) (p : Program Ans₁ α)
    (l : Log Ans₁) : p.translate h = p.record h l >>= fun r => pure r.1 := by
  induction p generalizing l with
  | done a => rfl
  | call o next ih =>
    rw [translate, record, bind_bind]
    exact congrArg (h o >>= ·) (funext fun x => ih x _)

theorem run_record (env : Env Ans₂) (h : (o : Op₁) → Program Ans₂ (Ans₁ o)) (p : Program Ans₁ α)
    (l : Log Ans₁) (m : Log Ans₂) :
    ((p.record h l).run env m).1.1 = ((p.translate h).run env m).1 := by
  rw [translate_eq_record h p l, run_bind, run_pure]

/-- Repeat a body until it produces a result, at most `n` times. -/
def loop (body : σ → Program Ans (σ ⊕ β)) : Nat → σ → Program Ans (Option β)
  | 0, _ => pure none
  | n + 1, s => do
    match ← body s with
    | .inl s' => loop body n s'
    | .inr b => pure (some b)

end Program

end Interaction
