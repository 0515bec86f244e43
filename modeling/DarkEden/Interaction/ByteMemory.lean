import Mathlib.Data.Nat.Digits.Defs
import Mathlib.Algebra.Order.Ring.Nat

namespace Interaction.ByteMemory

variable {w : Nat}

abbrev Bytes (w : Nat) := BitVec w → BitVec 8

def load (m : Bytes w) (a : BitVec w) (n : Nat) : List (BitVec 8) :=
  (List.range n).map fun i => m (a + BitVec.ofNat w i)

/-- The number that the bytes spell, least significant byte first. -/
def littleEndian (bytes : List (BitVec 8)) : Nat :=
  Nat.ofDigits 256 (bytes.map BitVec.toNat)

def byteOf (v i : Nat) : BitVec 8 := BitVec.ofNat 8 (v / 256 ^ i)

theorem load_add (m : Bytes w) (a : BitVec w) (n k : Nat) :
    load m a (n + k) = load m a n ++ load m (a + BitVec.ofNat w n) k := by
  rw [load, List.range_add, List.map_append, List.map_map]
  congr 1
  apply List.map_congr_left
  intro i _
  rw [Function.comp_apply, BitVec.ofNat_add, BitVec.add_assoc]

theorem littleEndian_append (xs ys : List (BitVec 8)) :
    littleEndian (xs ++ ys) = littleEndian xs + 256 ^ xs.length * littleEndian ys := by
  rw [littleEndian, List.map_append, Nat.ofDigits_append, List.length_map]
  rfl

def store (m : Bytes w) (a : BitVec w) (n v : Nat) : Bytes w :=
  fun b => if (b - a).toNat < n then byteOf v (b - a).toNat else m b

/-- The `n` bytes from `a` on all satisfy `p`. -/
def covers (p : BitVec w → Bool) (a : BitVec w) (n : Nat) : Bool :=
  (List.range n).all fun i => p (a + BitVec.ofNat w i)

theorem covers_iff {p : BitVec w → Bool} {a : BitVec w} {n : Nat} :
    covers p a n ↔ ∀ i < n, p (a + BitVec.ofNat w i) := by
  rw [covers, List.all_eq_true]
  exact ⟨fun h i hi => h i (List.mem_range.mpr hi), fun h i hi => h i (List.mem_range.mp hi)⟩

theorem covers_mono {p q : BitVec w → Bool} (hpq : ∀ a, p a → q a) {a : BitVec w} {n : Nat}
    (h : covers p a n) : covers q a n :=
  covers_iff.mpr fun i hi => hpq _ (covers_iff.mp h i hi)

theorem covers_add {p : BitVec w → Bool} {a : BitVec w} {n k : Nat} :
    covers p a (n + k) ↔ covers p a n ∧ covers p (a + BitVec.ofNat w n) k := by
  rw [covers, List.range_add, List.all_append, Bool.and_eq_true, List.all_map, covers, covers]
  refine and_congr_right' (iff_of_eq (congrArg (· = true) (congrArg _ ?_)))
  funext i
  rw [Function.comp_apply, BitVec.ofNat_add, BitVec.add_assoc]

theorem length_load (m : Bytes w) (a : BitVec w) (n : Nat) : (load m a n).length = n := by
  rw [load, List.length_map, List.length_range]

theorem toNat_add_sub (a : BitVec w) {i : Nat} (hi : i < 2 ^ w) :
    (a + BitVec.ofNat w i - a).toNat = i := by
  rw [BitVec.add_comm, BitVec.add_sub_cancel, BitVec.toNat_ofNat, Nat.mod_eq_of_lt hi]

theorem load_store (m : Bytes w) (a : BitVec w) (n v : Nat) (hn : n ≤ 2 ^ w) :
    load (store m a n v) a n = (List.range n).map (byteOf v) := by
  apply List.map_congr_left
  intro i hi
  have hlt := List.mem_range.mp hi
  rw [store, toNat_add_sub a (Nat.lt_of_lt_of_le hlt hn), if_pos hlt]

theorem littleEndian_byteOf (n v : Nat) :
    littleEndian ((List.range n).map (byteOf v)) = v % 256 ^ n := by
  induction n generalizing v with
  | zero => simp [littleEndian, Nat.mod_one]
  | succ n ih =>
    have htail : (byteOf v) ∘ Nat.succ = byteOf (v / 256) := by
      funext i
      rw [Function.comp_apply, byteOf, byteOf, Nat.pow_succ', Nat.div_div_eq_div_mul]
    have hhead : (byteOf v 0).toNat = v % 256 := by
      rw [byteOf, Nat.pow_zero, Nat.div_one, BitVec.toNat_ofNat]
    rw [List.range_succ_eq_map, List.map_cons, List.map_map, htail, littleEndian, List.map_cons,
      Nat.ofDigits_cons, hhead, ← littleEndian, ih, Nat.pow_succ', Nat.mod_mul]

theorem byteOf_littleEndian (bytes : List (BitVec 8)) (i : Nat) :
    byteOf (littleEndian bytes) i = bytes.getD i 0 := by
  induction bytes generalizing i with
  | nil =>
    rw [littleEndian, List.map_nil, Nat.ofDigits_nil, byteOf, Nat.zero_div]
    rfl
  | cons b bytes ih =>
    have hcons : littleEndian (b :: bytes) = b.toNat + 256 * littleEndian bytes := by
      rw [littleEndian, List.map_cons, Nat.ofDigits_cons, littleEndian]
    have hb := b.isLt
    rw [hcons, byteOf]
    cases i with
    | zero =>
      apply BitVec.eq_of_toNat_eq
      rw [List.getD_cons_zero, Nat.pow_zero, Nat.div_one, BitVec.toNat_ofNat]
      omega
    | succ i =>
      have hdiv : (b.toNat + 256 * littleEndian bytes) / 256 = littleEndian bytes := by omega
      rw [List.getD_cons_succ, ← ih, byteOf, Nat.pow_succ', ← Nat.div_div_eq_div_mul, hdiv]

theorem littleEndian_lt (bytes : List (BitVec 8)) : littleEndian bytes < 256 ^ bytes.length := by
  have hdigits : ∀ d ∈ bytes.map BitVec.toNat, d < 256 := by
    intro d hd
    obtain ⟨b, -, rfl⟩ := List.mem_map.mp hd
    exact b.isLt
  have hlt := Nat.ofDigits_lt_base_pow_length (by decide) hdigits
  rwa [List.length_map] at hlt

theorem littleEndian_load_store (m : Bytes w) (a : BitVec w) (n v : Nat) (hn : n ≤ 2 ^ w) :
    littleEndian (load (store m a n v) a n) = v % 256 ^ n := by
  rw [load_store m a n v hn, littleEndian_byteOf]

end Interaction.ByteMemory
