import Mathlib.Algebra.Order.Ring.Nat
import Mathlib.Data.Nat.Bitwise

namespace Interaction.Packing

/-- Fields, each given by its width in bits and its value, packed least significant first. -/
def pack : List (Nat × Nat) → Nat
  | [] => 0
  | (w, v) :: fields => v % 2 ^ w + 2 ^ w * pack fields

/-- The `width` bits that start at bit `start`. -/
def field (n start width : Nat) : Nat := n >>> start % 2 ^ width

theorem pack_lt (fields : List (Nat × Nat)) : pack fields < 2 ^ (fields.map Prod.fst).sum := by
  induction fields with
  | nil => exact Nat.one_pos
  | cons head fields ih =>
    obtain ⟨w, v⟩ := head
    have hv : v % 2 ^ w < 2 ^ w := Nat.mod_lt v (Nat.two_pow_pos w)
    have hmul : 2 ^ w * pack fields + 2 ^ w ≤ 2 ^ w * 2 ^ (fields.map Prod.fst).sum := by
      rw [← Nat.mul_succ]
      exact Nat.mul_le_mul_left _ ih
    rw [pack, List.map_cons, List.sum_cons, pow_add]
    calc v % 2 ^ w + 2 ^ w * pack fields
        < 2 ^ w + 2 ^ w * pack fields := Nat.add_lt_add_right hv _
      _ ≤ 2 ^ w * 2 ^ (fields.map Prod.fst).sum := by rwa [Nat.add_comm]

theorem pack_lt_of_width {fields : List (Nat × Nat)} {w : Nat}
    (h : (fields.map Prod.fst).sum = w) : pack fields < 2 ^ w :=
  h ▸ pack_lt fields

theorem width_uniform (w : Nat) (vs : List Nat) :
    ((vs.map fun v => (w, v)).map Prod.fst).sum = w * vs.length := by
  induction vs with
  | nil => rfl
  | cons v vs ih => rw [List.map_cons, List.map_cons, List.sum_cons, ih, List.length_cons,
      Nat.mul_succ, Nat.add_comm]

@[simp]
theorem field_pack_head (w v : Nat) (fields : List (Nat × Nat)) :
    field (pack ((w, v) :: fields)) 0 w = v % 2 ^ w := by
  simp [field, pack]

@[simp]
theorem field_pack_tail (w v start width : Nat) (fields : List (Nat × Nat)) (h : w ≤ start) :
    field (pack ((w, v) :: fields)) start width = field (pack fields) (start - w) width := by
  have hw : 0 < 2 ^ w := Nat.two_pow_pos w
  have hs : 2 ^ start = 2 ^ w * 2 ^ (start - w) := by rw [← pow_add, Nat.add_sub_cancel' h]
  simp only [field, pack, Nat.shiftRight_eq_div_pow]
  rw [hs, ← Nat.div_div_eq_div_mul, Nat.add_mul_div_left _ _ hw,
    Nat.div_eq_of_lt (Nat.mod_lt v hw), Nat.zero_add]

theorem field_pack_append (fields rest : List (Nat × Nat)) (start width : Nat) :
    field (pack (fields ++ rest)) ((fields.map Prod.fst).sum + start) width =
      field (pack rest) start width := by
  induction fields with
  | nil => rw [List.nil_append, List.map_nil, List.sum_nil, Nat.zero_add]
  | cons head fields ih =>
    obtain ⟨w, v⟩ := head
    have hstart : ((((w, v) :: fields).map Prod.fst).sum + start) =
        w + ((fields.map Prod.fst).sum + start) := by
      rw [List.map_cons, List.sum_cons, Nat.add_assoc]
    rw [hstart, List.cons_append, field_pack_tail w v _ _ _ (Nat.le_add_right w _),
      Nat.add_sub_cancel_left, ih]

theorem field_pack_uniform (w : Nat) (vs : List Nat) (i : Nat) (h : i < vs.length) :
    field (pack (vs.map fun v => (w, v))) (w * i) w = vs[i] % 2 ^ w := by
  induction vs generalizing i with
  | nil => simp at h
  | cons v vs ih =>
    cases i with
    | zero => exact field_pack_head w v _
    | succ i =>
      have hi : i < vs.length := by simpa using h
      rw [List.map_cons, Nat.mul_succ, field_pack_tail _ _ _ _ _ (Nat.le_add_left w _),
        Nat.add_sub_cancel, ih i hi, List.getElem_cons_succ]

end Interaction.Packing
