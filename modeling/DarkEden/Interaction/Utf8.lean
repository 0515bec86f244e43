import Mathlib.Data.List.Basic

namespace Interaction.Utf8

abbrev Byte := BitVec 8

/-- What stands for bytes that spell no character. -/
def replacement : Nat := 0xFFFD

/-- A character of which `left` more bytes are to come, the next one between two bounds. -/
structure Pending where
  left : Nat
  low : Nat
  high : Nat
  value : Nat

def lead (b : Nat) : Option Pending :=
  if 0xC2 ≤ b ∧ b ≤ 0xDF then some ⟨0, 0x80, 0xBF, b - 0xC0⟩
  else if b = 0xE0 then some ⟨1, 0xA0, 0xBF, 0⟩
  else if b = 0xED then some ⟨1, 0x80, 0x9F, 0xD⟩
  else if 0xE1 ≤ b ∧ b ≤ 0xEF then some ⟨1, 0x80, 0xBF, b - 0xE0⟩
  else if b = 0xF0 then some ⟨2, 0x90, 0xBF, 0⟩
  else if 0xF1 ≤ b ∧ b ≤ 0xF3 then some ⟨2, 0x80, 0xBF, b - 0xF0⟩
  else if b = 0xF4 then some ⟨2, 0x80, 0x8F, 4⟩
  else none

def first (b : Nat) (continued : Option Pending → List Nat) : List Nat :=
  if b < 0x80 then b :: continued none
  else match lead b with
  | none => replacement :: continued none
  | some p => continued (some p)

/-- Decode, with one replacement for every longest start of a character that is broken off. -/
def decodeFrom : Option Pending → List Byte → List Nat
  | none, [] => []
  | some _, [] => [replacement]
  | none, b :: bytes => first b.toNat fun p => decodeFrom p bytes
  | some p, b :: bytes =>
    if p.low ≤ b.toNat ∧ b.toNat ≤ p.high then
      let value := p.value * 64 + (b.toNat - 0x80)
      match p.left with
      | 0 => value :: decodeFrom none bytes
      | left + 1 => decodeFrom (some ⟨left, 0x80, 0xBF, value⟩) bytes
    else replacement :: first b.toNat fun p => decodeFrom p bytes

def decode (bytes : List Byte) : List Nat := decodeFrom none bytes

def Scalar (c : Nat) : Prop := c < 0xD800 ∨ 0xE000 ≤ c ∧ c < 0x110000

instance (c : Nat) : Decidable (Scalar c) := inferInstanceAs (Decidable (_ ∨ _))

def encodeCharacter (c : Nat) : List Byte :=
  if c < 0x80 then [BitVec.ofNat 8 c]
  else if c < 0x800 then [BitVec.ofNat 8 (0xC0 + c / 0x40), BitVec.ofNat 8 (0x80 + c % 0x40)]
  else if c < 0x10000 then
    [BitVec.ofNat 8 (0xE0 + c / 0x1000), BitVec.ofNat 8 (0x80 + c / 0x40 % 0x40),
      BitVec.ofNat 8 (0x80 + c % 0x40)]
  else
    [BitVec.ofNat 8 (0xF0 + c / 0x40000), BitVec.ofNat 8 (0x80 + c / 0x1000 % 0x40),
      BitVec.ofNat 8 (0x80 + c / 0x40 % 0x40), BitVec.ofNat 8 (0x80 + c % 0x40)]

def encode (text : List Nat) : List Byte := text.flatMap encodeCharacter

theorem toNat_byte {n : Nat} (h : n < 0x100) : (BitVec.ofNat 8 n).toNat = n := by
  rw [BitVec.toNat_ofNat, Nat.mod_eq_of_lt h]

variable {p : Pending} {n m q v : Nat} {bytes : List Byte}

theorem decodeFrom_last (hleft : p.left = 0) (hlow : p.low ≤ 0x80 + n) (hhigh : 0x80 + n ≤ p.high)
    (hn : n < 0x40) (hvalue : p.value * 64 + n = v) :
    decodeFrom (some p) (BitVec.ofNat 8 (0x80 + n) :: bytes) = v :: decode bytes := by
  rw [decodeFrom, toNat_byte (by omega), if_pos ⟨hlow, hhigh⟩, hleft, Nat.add_sub_cancel_left]
  exact congrArg (· :: _) hvalue

theorem decodeFrom_next {left : Nat} (hleft : p.left = left + 1) (hlow : p.low ≤ 0x80 + n)
    (hhigh : 0x80 + n ≤ p.high) (hn : n < 0x40) (hvalue : p.value * 64 + n = v) :
    decodeFrom (some p) (BitVec.ofNat 8 (0x80 + n) :: bytes) =
      decodeFrom (some ⟨left, 0x80, 0xBF, v⟩) bytes := by
  rw [decodeFrom, toNat_byte (by omega), if_pos ⟨hlow, hhigh⟩, hleft, Nat.add_sub_cancel_left,
    hvalue]

theorem decode_lead (hn : n < 0x100) (hlong : 0x80 ≤ n) (hlead : lead n = some p) :
    decode (BitVec.ofNat 8 n :: bytes) = decodeFrom (some p) bytes := by
  rw [decode, decodeFrom, toNat_byte hn, first, if_neg (by omega), hlead]

/-- The bounds of the second byte leave out what is shorter in two bytes, and the surrogates. -/
theorem lead_three (hq : q < 0x10) (hm : m < 0x40) (hshort : q = 0 → 0x20 ≤ m)
    (hsurrogate : q = 0xD → m < 0x20) :
    ∃ p, lead (0xE0 + q) = some p ∧ p.left = 1 ∧ p.value = q ∧ p.low ≤ 0x80 + m ∧
      0x80 + m ≤ p.high := by
  rw [lead, if_neg (by omega)]
  by_cases h0 : q = 0
  · rw [if_pos (by omega)]
    have := hshort h0
    exact ⟨_, rfl, rfl, h0.symm, by simp only; omega, by simp only; omega⟩
  rw [if_neg (by omega)]
  by_cases hD : q = 0xD
  · rw [if_pos (by omega)]
    have := hsurrogate hD
    exact ⟨_, rfl, rfl, hD.symm, by simp only; omega, by simp only; omega⟩
  · rw [if_neg (by omega), if_pos (by omega)]
    exact ⟨_, rfl, rfl, Nat.add_sub_cancel_left _ _, by simp only; omega, by simp only; omega⟩

/-- The bounds of the second byte leave out what is shorter in three bytes, and what is too large. -/
theorem lead_four (hq : q ≤ 4) (hm : m < 0x40) (hshort : q = 0 → 0x10 ≤ m)
    (hlarge : q = 4 → m < 0x10) :
    ∃ p, lead (0xF0 + q) = some p ∧ p.left = 2 ∧ p.value = q ∧ p.low ≤ 0x80 + m ∧
      0x80 + m ≤ p.high := by
  rw [lead, if_neg (by omega), if_neg (by omega), if_neg (by omega), if_neg (by omega)]
  by_cases h0 : q = 0
  · rw [if_pos (by omega)]
    have := hshort h0
    exact ⟨_, rfl, rfl, h0.symm, by simp only; omega, by simp only; omega⟩
  rw [if_neg (by omega)]
  by_cases h4 : q = 4
  · rw [if_neg (by omega), if_pos (by omega)]
    have := hlarge h4
    exact ⟨_, rfl, rfl, h4.symm, by simp only; omega, by simp only; omega⟩
  · rw [if_pos (by omega)]
    exact ⟨_, rfl, rfl, Nat.add_sub_cancel_left _ _, by simp only; omega, by simp only; omega⟩

theorem decode_character {c : Nat} (hc : Scalar c) (rest : List Byte) :
    decode (encodeCharacter c ++ rest) = c :: decode rest := by
  rw [encodeCharacter]
  by_cases h1 : c < 0x80
  · rw [if_pos h1, List.singleton_append, decode, decodeFrom, toNat_byte (by omega), first, if_pos h1]
    rfl
  rw [if_neg h1]
  have hlow : c % 0x40 < 0x40 := Nat.mod_lt _ (by decide)
  have hmiddle : c / 0x40 % 0x40 < 0x40 := Nat.mod_lt _ (by decide)
  by_cases h2 : c < 0x800
  · have hlead : lead (0xC0 + c / 0x40) = some ⟨0, 0x80, 0xBF, c / 0x40⟩ := by
      rw [lead, if_pos (by omega), Nat.add_sub_cancel_left]
    rw [if_pos h2, List.cons_append, decode_lead (by omega) (by omega) hlead, List.singleton_append]
    exact decodeFrom_last rfl (Nat.le_add_right _ _) (by simp only; omega) hlow
      (by simp only; omega)
  rw [if_neg h2]
  by_cases h3 : c < 0x10000
  · obtain ⟨p, hlead, hleft, hvalue, hfrom, hto⟩ := lead_three (q := c / 0x1000)
      (m := c / 0x40 % 0x40) (by omega) hmiddle (by omega) (by rw [Scalar] at hc; omega)
    rw [if_pos h3, List.cons_append, decode_lead (by omega) (by omega) hlead, List.cons_append,
      decodeFrom_next hleft hfrom hto hmiddle rfl, List.singleton_append]
    exact decodeFrom_last rfl (Nat.le_add_right _ _) (by simp only; omega) hlow
      (by simp only [hvalue]; omega)
  · have hlarge : c < 0x110000 := by rw [Scalar] at hc; omega
    have hsecond : c / 0x1000 % 0x40 < 0x40 := Nat.mod_lt _ (by decide)
    obtain ⟨p, hlead, hleft, hvalue, hfrom, hto⟩ := lead_four (q := c / 0x40000)
      (m := c / 0x1000 % 0x40) (by omega) hsecond (by omega) (by omega)
    rw [if_neg h3, List.cons_append, decode_lead (by omega) (by omega) hlead, List.cons_append,
      decodeFrom_next hleft hfrom hto hsecond rfl, List.cons_append,
      decodeFrom_next rfl (Nat.le_add_right _ _) (by simp only; omega) hmiddle rfl,
      List.singleton_append]
    exact decodeFrom_last rfl (Nat.le_add_right _ _) (by simp only; omega) hlow
      (by simp only [hvalue]; omega)

theorem decode_encode {text : List Nat} (h : ∀ c ∈ text, Scalar c) : decode (encode text) = text := by
  induction text with
  | nil => rfl
  | cons c text ih =>
    rw [encode, List.flatMap_cons, decode_character (h c (by simp))]
    exact congrArg (c :: ·) (ih fun d hd => h d (by simp [hd]))

end Interaction.Utf8
