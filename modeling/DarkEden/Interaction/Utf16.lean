import Mathlib.Data.List.Basic
import Mathlib.Data.Set.Function

namespace Interaction.Utf16

abbrev Unit := BitVec 16

def isHigh (u : Unit) : Bool := 0xD800 ≤ u.toNat && u.toNat < 0xDC00
def isLow (u : Unit) : Bool := 0xDC00 ≤ u.toNat && u.toNat < 0xE000

theorem isHigh_iff {u : Unit} : isHigh u ↔ 0xD800 ≤ u.toNat ∧ u.toNat < 0xDC00 := by
  simp [isHigh]

theorem isLow_iff {u : Unit} : isLow u ↔ 0xDC00 ≤ u.toNat ∧ u.toNat < 0xE000 := by
  simp [isLow]

def pair (high low : Nat) : Nat := 0x10000 + (high - 0xD800) * 0x400 + (low - 0xDC00)

/-- The code points of a text. A surrogate without its partner stands for itself. -/
def decode : List Unit → List Nat
  | [] => []
  | [u] => [u.toNat]
  | u :: v :: rest =>
    if isHigh u && isLow v then pair u.toNat v.toNat :: decode rest
    else u.toNat :: decode (v :: rest)

def encodePoint (c : Nat) : List Unit :=
  if c < 0x10000 then [BitVec.ofNat 16 c]
  else [BitVec.ofNat 16 (0xD800 + (c - 0x10000) / 0x400),
    BitVec.ofNat 16 (0xDC00 + (c - 0x10000) % 0x400)]

def encode (text : List Nat) : List Unit := text.flatMap encodePoint

theorem decode_pair {u v : Unit} (hu : isHigh u) (hv : isLow v) (rest : List Unit) :
    decode (u :: v :: rest) = pair u.toNat v.toNat :: decode rest := by
  rw [decode, hu, hv]
  rfl

theorem decode_single {u v : Unit} (h : ¬(isHigh u && isLow v) = true) (rest : List Unit) :
    decode (u :: v :: rest) = u.toNat :: decode (v :: rest) := by
  rw [decode, if_neg h]

theorem decode_cons {u : Unit} {text : List Unit} (h : ∀ v ∈ text.head?, ¬(isHigh u ∧ isLow v)) :
    decode (u :: text) = u.toNat :: decode text := by
  cases text with
  | nil => rfl
  | cons v rest =>
    rw [decode, if_neg]
    simpa using h v rfl

theorem decode_cons_of_not_high {u : Unit} (h : isHigh u = false) (text : List Unit) :
    decode (u :: text) = u.toNat :: decode text := by
  apply decode_cons
  intro v _ hboth
  rw [h] at hboth
  exact Bool.false_ne_true hboth.1

theorem decode_eq_map {text : List Unit} (h : ∀ u ∈ text, isHigh u = false) :
    decode text = text.map BitVec.toNat := by
  induction text with
  | nil => rfl
  | cons u text ih =>
    rw [decode_cons_of_not_high (h u List.mem_cons_self), List.map_cons,
      ih fun v hv => h v (List.mem_cons_of_mem u hv)]

/-- A text may be cut in front of every unit that completes no pair. -/
theorem decode_append {left right : List Unit} (h : ∀ v ∈ right.head?, isLow v = false) :
    decode (left ++ right) = decode left ++ decode right := by
  have hno : ∀ u, ∀ v ∈ right.head?, ¬(isHigh u ∧ isLow v) := by
    intro u v hv hboth
    rw [h v hv] at hboth
    exact Bool.false_ne_true hboth.2
  induction left using decode.induct with
  | case1 => rfl
  | case2 u =>
    change decode (u :: right) = u.toNat :: decode right
    exact decode_cons (hno u)
  | case3 u v rest hpair ih =>
    obtain ⟨hu, hv⟩ := Bool.and_eq_true_iff.mp hpair
    rw [List.cons_append, List.cons_append, decode_pair hu hv, decode_pair hu hv, ih,
      List.cons_append]
  | case4 u v rest hpair ih =>
    rw [List.cons_append, List.cons_append, decode_single hpair, decode_single hpair,
      List.cons_append, ← ih]
    rfl

/-- No pair reaches over the end of the text. -/
def Whole (text : List Unit) : Prop := ∀ rest, decode (text ++ rest) = decode text ++ decode rest

theorem whole_nil : Whole [] := fun _ => rfl

theorem Whole.append {left right : List Unit} (hleft : Whole left) (hright : Whole right) :
    Whole (left ++ right) := by
  intro rest
  rw [List.append_assoc, hleft, hright, hleft, List.append_assoc]

theorem whole_of_not_high {text : List Unit} (h : ∀ u ∈ text, isHigh u = false) : Whole text := by
  induction text with
  | nil => exact whole_nil
  | cons u text ih =>
    intro rest
    have hu := h u List.mem_cons_self
    rw [List.cons_append, decode_cons_of_not_high hu, decode_cons_of_not_high hu,
      ih (fun v hv => h v (List.mem_cons_of_mem u hv)) rest, List.cons_append]

theorem whole_snoc (text : List Unit) {u : Unit} (hhigh : isHigh u = false)
    (hlow : isLow u = false) : Whole (text ++ [u]) := by
  intro rest
  have hcut : ∀ tail, decode (text ++ u :: tail) = decode text ++ u.toNat :: decode tail := by
    intro tail
    rw [decode_append, decode_cons_of_not_high hhigh]
    intro v hv
    obtain rfl : u = v := Option.some.inj hv
    exact hlow
  rw [List.append_assoc, List.singleton_append, hcut, hcut, List.append_assoc]
  rfl

theorem pair_split {high low p : Nat} (hp : pair high low = p) (hhigh : 0xD800 ≤ high)
    (hlow : 0xDC00 ≤ low) (hlow' : low < 0xE000) :
    0x10000 ≤ p ∧ 0xD800 + (p - 0x10000) / 0x400 = high ∧
      0xDC00 + (p - 0x10000) % 0x400 = low := by
  change 0x10000 + (high - 0xD800) * 0x400 + (low - 0xDC00) = p at hp
  omega

theorem encode_cons (c : Nat) (text : List Nat) :
    encode (c :: text) = encodePoint c ++ encode text := List.flatMap_cons

theorem encode_decode (text : List Unit) : encode (decode text) = text := by
  have hone : ∀ u : Unit, encodePoint u.toNat = [u] := by
    intro u
    rw [encodePoint, if_pos u.isLt, BitVec.ofNat_toNat, BitVec.setWidth_eq]
  induction text using decode.induct with
  | case1 => rfl
  | case2 u =>
    rw [decode, encode_cons, hone]
    rfl
  | case3 u v rest hpair ih =>
    obtain ⟨hu, hv⟩ := Bool.and_eq_true_iff.mp hpair
    obtain ⟨hmin, hmax⟩ := isLow_iff.mp hv
    obtain ⟨hlarge, hhigh, hlow⟩ := pair_split rfl (isHigh_iff.mp hu).1 hmin hmax
    have hboth : encodePoint (pair u.toNat v.toNat) = [u, v] := by
      rw [encodePoint, if_neg (Nat.not_lt.mpr hlarge), hhigh, hlow, BitVec.ofNat_toNat,
        BitVec.ofNat_toNat, BitVec.setWidth_eq, BitVec.setWidth_eq]
    rw [decode_pair hu hv, encode_cons, hboth, ih]
    rfl
  | case4 u v rest hpair ih =>
    rw [decode_single hpair, encode_cons, hone, ih]
    rfl

theorem decode_injective : Function.Injective decode :=
  Function.LeftInverse.injective encode_decode

end Interaction.Utf16
