import Mathlib.Data.List.Basic

namespace Interaction.Tiling

variable {α : Type} {lo len : α → Nat}

/-- The pieces lie one behind the other and fill the range from `s` to `e`. -/
def Tiles (lo len : α → Nat) : Nat → List α → Nat → Prop
  | s, [], e => s = e
  | s, p :: ps, e => lo p = s ∧ Tiles lo len (s + len p) ps e

def holds (lo len : α → Nat) (a : Nat) (p : α) : Bool := lo p ≤ a ∧ a < lo p + len p

variable {s e a d : Nat} {p : α} {ps qs : List α}

theorem holds_iff : holds lo len a p ↔ lo p ≤ a ∧ a < lo p + len p := decide_eq_true_iff

theorem tiles_append :
    Tiles lo len s (ps ++ qs) e ↔ ∃ m, Tiles lo len s ps m ∧ Tiles lo len m qs e := by
  induction ps generalizing s with
  | nil => exact ⟨fun h => ⟨s, rfl, h⟩, fun ⟨m, hm, h⟩ => hm ▸ h⟩
  | cons p ps ih =>
    rw [List.cons_append, Tiles, ih]
    exact ⟨fun ⟨hp, m, hps, hqs⟩ => ⟨m, ⟨hp, hps⟩, hqs⟩,
      fun ⟨m, ⟨hp, hps⟩, hqs⟩ => ⟨hp, m, hps, hqs⟩⟩

theorem Tiles.le_lo (h : Tiles lo len s ps e) : ∀ p ∈ ps, s ≤ lo p := by
  induction ps generalizing s with
  | nil => simp
  | cons p ps ih =>
    obtain ⟨hp, hps⟩ := h
    rw [List.forall_mem_cons]
    exact ⟨Nat.le_of_eq hp.symm, fun q hq => Nat.le_trans (Nat.le_add_right _ _) (ih hps q hq)⟩

theorem Tiles.le_end (h : Tiles lo len s ps e) : s ≤ e := by
  induction ps generalizing s with
  | nil => exact Nat.le_of_eq h
  | cons p ps ih => exact Nat.le_trans (Nat.le_add_right _ _) (ih h.2)

theorem Tiles.hi_le (h : Tiles lo len s ps e) : ∀ p ∈ ps, lo p + len p ≤ e := by
  induction ps generalizing s with
  | nil => simp
  | cons p ps ih =>
    obtain ⟨hp, hps⟩ := h
    rw [List.forall_mem_cons]
    exact ⟨hp ▸ hps.le_end, ih hps⟩

theorem Tiles.dvd_lo (h : Tiles lo len s ps e) (hs : d ∣ s) (hlen : ∀ p ∈ ps, d ∣ len p) :
    ∀ p ∈ ps, d ∣ lo p := by
  induction ps generalizing s with
  | nil => simp
  | cons p ps ih =>
    obtain ⟨hp, hps⟩ := h
    rw [List.forall_mem_cons] at hlen ⊢
    exact ⟨hp ▸ hs, ih hps (Nat.dvd_add hs hlen.1) hlen.2⟩

section Position

theorem Tiles.before (h : Tiles lo len s (ps ++ p :: qs) e) : ∀ q ∈ ps, lo q + len q ≤ lo p := by
  obtain ⟨m, hps, hp, -⟩ := tiles_append.mp h
  exact hp ▸ hps.hi_le

theorem Tiles.after (h : Tiles lo len s (ps ++ p :: qs) e) : ∀ q ∈ qs, lo p + len p ≤ lo q := by
  obtain ⟨m, -, hp, hqs⟩ := tiles_append.mp h
  exact hp ▸ hqs.le_lo

theorem Tiles.next_lo (h : Tiles lo len s (ps ++ p :: qs) e) :
    ∀ q ∈ qs.head?, lo q = lo p + len p := by
  obtain ⟨m, -, hp, hqs⟩ := tiles_append.mp h
  intro q hq
  obtain ⟨rest, rfl⟩ := List.head?_eq_some_iff.mp hq
  rw [hqs.1, hp]

theorem Tiles.find?_eq (h : Tiles lo len s (ps ++ p :: qs) e) (hp : holds lo len a p) :
    (ps ++ p :: qs).find? (holds lo len a) = some p := by
  have hbefore : ∀ q ∈ ps, ¬holds lo len a q := by
    intro q hq hqa
    have hle := h.before q hq
    have hlt := (holds_iff.mp hqa).2
    have hlo := (holds_iff.mp hp).1
    omega
  rw [List.find?_append, List.find?_eq_none.mpr hbefore, Option.none_or, List.find?_cons_of_pos hp]

/-- The piece in front of `p`, or `p` itself, that holds a point before `p`. -/
theorem Tiles.exists_holds (h : Tiles lo len s (ps ++ p :: qs) e) (hlen : 0 < len p) (hs : s ≤ a)
    (ha : a ≤ lo p) : ∃ before mid, ps = before ++ mid ∧
      ∀ q ∈ (mid ++ [p]).head?, holds lo len a q := by
  induction ps generalizing s with
  | nil =>
    refine ⟨[], [], rfl, fun q hq => ?_⟩
    obtain rfl := Option.some.inj hq
    have hp : lo p = s := h.1
    exact holds_iff.mpr ⟨by omega, by omega⟩
  | cons q ps ih =>
    obtain ⟨hq, hps⟩ := h
    by_cases hin : a < s + len q
    · refine ⟨[], q :: ps, rfl, fun r hr => ?_⟩
      obtain rfl := Option.some.inj hr
      exact holds_iff.mpr ⟨by omega, by omega⟩
    · obtain ⟨before, mid, hsplit, hmid⟩ := ih hps (Nat.le_of_not_lt hin)
      exact ⟨q :: before, mid, by rw [hsplit, List.cons_append], hmid⟩

end Position

end Interaction.Tiling
