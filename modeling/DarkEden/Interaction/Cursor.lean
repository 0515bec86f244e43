import Mathlib.Data.List.Forall2

namespace Interaction

/-- Programs that read a list from a position on, and move the position. -/
def Cursor (ε β α : Type) := List β → Nat → Except ε (α × Nat)

namespace Cursor

variable {ε β α γ : Type}

instance : Monad (Cursor ε β) where
  pure a := fun _ pos => .ok (a, pos)
  bind p f := fun data pos =>
    match p data pos with
    | .error e => .error e
    | .ok (a, pos') => f a data pos'

def times (n : Nat) (p : Cursor ε β α) : Cursor ε β (List α) :=
  match n with
  | 0 => pure []
  | n + 1 => do
    let a ← p
    let as ← times n p
    return a :: as

/-- A slice may be cut short by the end of the list; the position moves on all the same. -/
def slice (size : Nat) : Cursor ε β (List β) := fun data pos =>
  .ok ((data.drop pos).take size, pos + size)

/-- The reader accepts exactly what spells a result at its position, and stops behind it. -/
def Parses (p : Cursor ε β α) (S : List β → α → Prop) : Prop :=
  ∀ data pos a pos', p data pos = .ok (a, pos') ↔
    ∃ bytes rest, data.drop pos = bytes ++ rest ∧ S bytes a ∧ pos' = pos + bytes.length

variable {p : Cursor ε β α} {f : α → Cursor ε β γ} {S : List β → α → Prop}
  {S' : α → List β → γ → Prop}

theorem bind_eq_ok {data : List β} {pos pos' : Nat} {b : γ} :
    (p >>= f) data pos = .ok (b, pos') ↔
      ∃ a mid, p data pos = .ok (a, mid) ∧ f a data mid = .ok (b, pos') := by
  simp only [Bind.bind]
  cases p data pos with
  | error e => simp
  | ok r =>
    obtain ⟨a, mid⟩ := r
    simp

theorem Parses.congr {T : List β → α → Prop} (h : Parses p S) (hS : ∀ bytes a, S bytes a ↔ T bytes a) :
    Parses p T := by
  intro data pos a pos'
  simp only [h data pos a pos', hS]

theorem parses_pure (a : α) : Parses (pure a : Cursor ε β α) fun bytes b => bytes = [] ∧ b = a := by
  intro data pos b pos'
  change Except.ok (a, pos) = .ok (b, pos') ↔ _
  constructor
  · rintro ⟨⟩
    exact ⟨[], data.drop pos, rfl, ⟨rfl, rfl⟩, rfl⟩
  · rintro ⟨bytes, rest, -, ⟨rfl, rfl⟩, rfl⟩
    rfl

/-- What spells the result of a sequence spells the two results one behind the other. -/
theorem Parses.bind (h : Parses p S) (hf : ∀ a, Parses (f a) (S' a)) :
    Parses (p >>= f) fun bytes b =>
      ∃ first second a, bytes = first ++ second ∧ S first a ∧ S' a second b := by
  intro data pos b pos'
  rw [bind_eq_ok]
  constructor
  · rintro ⟨a, mid, hp, hq⟩
    obtain ⟨first, rest, hfirst, hS, rfl⟩ := (h data pos a mid).mp hp
    obtain ⟨second, rest', hsecond, hS', rfl⟩ := (hf a data _ b pos').mp hq
    rw [← List.drop_drop, hfirst, List.drop_left] at hsecond
    refine ⟨first ++ second, rest', ?_, ⟨first, second, a, rfl, hS, hS'⟩, ?_⟩
    · rw [hfirst, hsecond, List.append_assoc]
    · rw [List.length_append, Nat.add_assoc]
  · rintro ⟨bytes, rest, hbytes, ⟨first, second, a, rfl, hS, hS'⟩, rfl⟩
    rw [List.append_assoc] at hbytes
    refine ⟨a, pos + first.length, (h data pos a _).mpr ⟨first, _, hbytes, hS, rfl⟩, ?_⟩
    refine (hf a data _ b _).mpr ⟨second, rest, ?_, hS', ?_⟩
    · rw [← List.drop_drop, hbytes, List.drop_left]
    · rw [List.length_append, Nat.add_assoc]

theorem Parses.ite {c : Prop} [Decidable c] {q : Cursor ε β α} {T : List β → α → Prop}
    (hp : c → Parses p S) (hq : ¬c → Parses q T) :
    Parses (if c then p else q) fun bytes a => if c then S bytes a else T bytes a := by
  by_cases h : c
  · simpa only [if_pos h] using hp h
  · simpa only [if_neg h] using hq h

theorem Parses.times (h : Parses p S) (n : Nat) : Parses (times n p) fun bytes as =>
    ∃ pieces : List (List β), bytes = pieces.flatten ∧ pieces.length = n ∧
      List.Forall₂ S pieces as := by
  induction n with
  | zero =>
    refine (parses_pure []).congr fun bytes as => ?_
    constructor
    · rintro ⟨rfl, rfl⟩
      exact ⟨[], rfl, rfl, .nil⟩
    · rintro ⟨pieces, rfl, hlength, hall⟩
      obtain rfl := List.length_eq_zero_iff.mp hlength
      cases hall
      exact ⟨rfl, rfl⟩
  | succ n ih =>
    refine (h.bind fun a => ih.bind fun as => parses_pure (a :: as)).congr fun bytes as => ?_
    constructor
    · rintro ⟨first, _, a, rfl, hS, ⟨_, _, as, rfl, ⟨pieces, rfl, hlength, hall⟩, rfl, rfl⟩⟩
      exact ⟨first :: pieces, by simp, by simp [hlength], .cons hS hall⟩
    · rintro ⟨pieces, rfl, hlength, hall⟩
      cases hall with
      | nil => cases hlength
      | @cons first a pieces as hS hall =>
        refine ⟨first, pieces.flatten, a, rfl, hS, pieces.flatten, [], as, by simp, ?_, rfl, rfl⟩
        exact ⟨pieces, rfl, by simpa using hlength, hall⟩

theorem Parses.times_items {σ : Type} {Q : σ → Prop} {g : σ → List β} {f : σ → α}
    (h : Parses p fun bytes a => ∃ s, Q s ∧ bytes = g s ∧ a = f s) (n : Nat) :
    Parses (Cursor.times n p) fun bytes as =>
      ∃ items : List σ, items.length = n ∧ (∀ s ∈ items, Q s) ∧ bytes = items.flatMap g ∧
        as = items.map f := by
  have hitems : ∀ (pieces : List (List β)) (as : List α),
      List.Forall₂ (fun bytes a => ∃ s, Q s ∧ bytes = g s ∧ a = f s) pieces as ↔
        ∃ items : List σ, (∀ s ∈ items, Q s) ∧ pieces = items.map g ∧ as = items.map f := by
    intro pieces as
    constructor
    · intro hall
      induction hall with
      | nil => exact ⟨[], by simp, rfl, rfl⟩
      | cons hhead _ ih =>
        obtain ⟨s, hs, rfl, rfl⟩ := hhead
        obtain ⟨items, hQ, rfl, rfl⟩ := ih
        exact ⟨s :: items, List.forall_mem_cons.mpr ⟨hs, hQ⟩, rfl, rfl⟩
    · rintro ⟨items, hQ, rfl, rfl⟩
      rw [List.forall₂_map_left_iff, List.forall₂_map_right_iff, List.forall₂_same]
      exact fun s hs => ⟨s, hQ s hs, rfl, rfl⟩
  refine (h.times n).congr fun bytes as => ?_
  constructor
  · rintro ⟨pieces, rfl, rfl, hall⟩
    obtain ⟨items, hQ, rfl, rfl⟩ := (hitems pieces as).mp hall
    exact ⟨items, by simp, hQ, List.flatMap_def.symm, rfl⟩
  · rintro ⟨items, rfl, hQ, rfl, rfl⟩
    exact ⟨items.map g, List.flatMap_def, by simp, (hitems _ _).mpr ⟨items, hQ, rfl, rfl⟩⟩

/-- A slice that something is read behind is not cut short. -/
theorem parses_slice_bind {f : List β → Cursor ε β γ} {T : List β → List β → γ → Prop} (size : Nat)
    (hf : ∀ piece, Parses (f piece) (T piece)) (hne : ∀ piece bytes b, T piece bytes b → bytes ≠ []) :
    Parses (slice size >>= f) fun bytes b =>
      ∃ piece second, bytes = piece ++ second ∧ piece.length = size ∧ T piece second b := by
  intro data pos b pos'
  rw [bind_eq_ok]
  constructor
  · rintro ⟨piece, mid, ⟨⟩, hq⟩
    obtain ⟨second, rest, hsecond, hT, rfl⟩ := (hf _ data _ b pos').mp hq
    have hlong : pos + size < data.length := by
      by_contra hshort
      rw [List.drop_eq_nil_of_le (by omega)] at hsecond
      exact hne _ _ _ hT (List.append_eq_nil_iff.mp hsecond.symm).1
    have hsize : ((data.drop pos).take size).length = size := by
      rw [List.length_take, List.length_drop]
      omega
    refine ⟨(data.drop pos).take size ++ second, rest, ?_, ⟨_, second, rfl, hsize, hT⟩, ?_⟩
    · rw [List.append_assoc, ← hsecond, ← List.drop_drop, List.take_append_drop]
    · rw [List.length_append, hsize, Nat.add_assoc]
  · rintro ⟨bytes, rest, hbytes, ⟨piece, second, rfl, rfl, hT⟩, rfl⟩
    rw [List.append_assoc] at hbytes
    have hpiece : (data.drop pos).take piece.length = piece := by rw [hbytes, List.take_left]
    refine ⟨piece, pos + piece.length, congrArg (fun x => Except.ok (x, _)) hpiece, ?_⟩
    refine (hf piece data _ b _).mpr ⟨second, rest, ?_, hT, ?_⟩
    · rw [← List.drop_drop, hbytes, List.drop_left]
    · rw [List.length_append, Nat.add_assoc]

end Cursor

end Interaction
