import DarkEden.Client
import DarkEden.Target
import Mathlib.Data.List.Forall2
import Mathlib.Data.List.TakeWhile

namespace DarkEden.Client

open Interaction

section Source

def uint64Max : ULongLong := 0xFFFFFFFFFFFFFFFF
def int64Max : ULongLong := 0x7FFFFFFFFFFFFFFF

/-- The two loops that move `start` and `end`. -/
def trim (iswspace : WChar → Bool) (text : WString) : WString :=
  trimRight iswspace (text.dropWhile iswspace)

def skipMark (text : WString) : WString :=
  if 2 ≤ text.length ∧ text[0]? = some 0x30 ∧ (text[1]? = some 0x78 ∨ text[1]? = some 0x58) then
    text.drop 2
  else text

/-- The digit that a character stands for, or 16. -/
def hexDigit (c : WChar) : ULong :=
  if 0x30 ≤ c ∧ c ≤ 0x39 then c.setWidth 32 - 0x30
  else if 0x61 ≤ c ∧ c ≤ 0x66 then c.setWidth 32 - 0x61 + 10
  else if 0x41 ≤ c ∧ c ≤ 0x46 then c.setWidth 32 - 0x41 + 10
  else 16

def hexStep (value : ULongLong) (c : WChar) : Except String ULongLong :=
  let digit := (hexDigit c).setWidth 64
  if digit ≥ 16 ∨ value > (uint64Max - digit) / 16 then
    .error "Invalid or overflowing hexadecimal address."
  else .ok (value * 16 + digit)

def parseAddress (sys : Platform) (text : WString) : Except String ULongLong := do
  let digits := skipMark (trim sys.iswspace text)
  if digits = [] then throw "Enter a hexadecimal address."
  let value ← digits.foldlM hexStep 0
  if value = 0 ∨ value > int64Max then throw "Enter a nonzero user-space address."
  return value

end Source

section Digits

def Digit (c : WChar) (d : Nat) : Prop :=
  (wide "0123456789abcdef")[d]? = some c ∨ (wide "0123456789ABCDEF")[d]? = some c

instance (c : WChar) (d : Nat) : Decidable (Digit c d) := inferInstanceAs (Decidable (_ ∨ _))

theorem hexDigit_lower : ∀ d : Fin 16,
    (wide "0123456789abcdef")[d.val]?.map hexDigit = some (BitVec.ofNat 32 d.val) := by decide

theorem hexDigit_upper : ∀ d : Fin 16,
    (wide "0123456789ABCDEF")[d.val]?.map hexDigit = some (BitVec.ofNat 32 d.val) := by decide

theorem Digit.lt {c : WChar} {d : Nat} (h : Digit c d) : d < 16 := by
  obtain h | h := h
  · exact (List.getElem?_eq_some_iff.mp h).1
  · exact (List.getElem?_eq_some_iff.mp h).1

theorem Digit.hexDigit_eq {c : WChar} {d : Nat} (h : Digit c d) :
    hexDigit c = BitVec.ofNat 32 d := by
  have hd := h.lt
  obtain h | h := h
  · have hlower := hexDigit_lower ⟨d, hd⟩
    rw [h] at hlower
    exact Option.some.inj hlower
  · have hupper := hexDigit_upper ⟨d, hd⟩
    rw [h] at hupper
    exact Option.some.inj hupper

theorem digit_decimal : ∀ d : Fin 10,
    (wide "0123456789abcdef")[d.val]? = some (BitVec.ofNat 16 (0x30 + d.val)) := by decide

theorem digit_letter : ∀ d : Fin 6,
    (wide "0123456789abcdef")[d.val + 10]? = some (BitVec.ofNat 16 (0x61 + d.val)) ∧
      (wide "0123456789ABCDEF")[d.val + 10]? = some (BitVec.ofNat 16 (0x41 + d.val)) := by decide

theorem digit_of_toNat {c : WChar} {n d : Nat} (hn : c.toNat = n)
    (h : Digit (BitVec.ofNat 16 n) d) : Digit c d := by
  rwa [← hn, BitVec.ofNat_toNat, BitVec.setWidth_eq] at h

theorem digit_hexDigit {c : WChar} (h : (hexDigit c).toNat < 16) : Digit c (hexDigit c).toNat := by
  by_cases hdecimal : 0x30 ≤ c ∧ c ≤ 0x39
  · have hvalue : (hexDigit c).toNat = c.toNat - 0x30 := by
      rw [hexDigit, if_pos hdecimal]
      bv_omega
    rw [hvalue]
    apply digit_of_toNat (Nat.add_sub_of_le hdecimal.1).symm
    exact .inl (digit_decimal ⟨c.toNat - 0x30, by bv_omega⟩)
  by_cases hlower : 0x61 ≤ c ∧ c ≤ 0x66
  · have hvalue : (hexDigit c).toNat = c.toNat - 0x61 + 10 := by
      rw [hexDigit, if_neg hdecimal, if_pos hlower]
      bv_omega
    rw [hvalue]
    apply digit_of_toNat (Nat.add_sub_of_le hlower.1).symm
    exact .inl (digit_letter ⟨c.toNat - 0x61, by bv_omega⟩).1
  by_cases hupper : 0x41 ≤ c ∧ c ≤ 0x46
  · have hvalue : (hexDigit c).toNat = c.toNat - 0x41 + 10 := by
      rw [hexDigit, if_neg hdecimal, if_neg hlower, if_pos hupper]
      bv_omega
    rw [hvalue]
    apply digit_of_toNat (Nat.add_sub_of_le hupper.1).symm
    exact .inr (digit_letter ⟨c.toNat - 0x41, by bv_omega⟩).2
  · rw [hexDigit, if_neg hdecimal, if_neg hlower, if_neg hupper] at h
    exact absurd h (by decide)

theorem digit_iff {c : WChar} {d : Nat} : Digit c d ↔ d < 16 ∧ (hexDigit c).toNat = d := by
  constructor
  · intro h
    have hd := h.lt
    rw [h.hexDigit_eq, BitVec.toNat_ofNat]
    omega
  · rintro ⟨hd, rfl⟩
    exact digit_hexDigit hd

end Digits

section Loop

theorem hexStep_ok_iff {value next : ULongLong} {c : WChar} :
    hexStep value c = .ok next ↔ ∃ d, Digit c d ∧ next.toNat = value.toNat * 16 + d := by
  have hnext := next.isLt
  have hvalue := value.isLt
  rw [hexStep]
  by_cases hdigit : (hexDigit c).toNat < 16
  · have hsmall : ¬(hexDigit c).setWidth 64 ≥ 16 := by bv_omega
    have hguard : value > (uint64Max - (hexDigit c).setWidth 64) / 16 ↔
        2 ^ 64 ≤ value.toNat * 16 + (hexDigit c).toNat := by
      have hdiv : ((uint64Max - (hexDigit c).setWidth 64) / 16).toNat =
          (2 ^ 64 - 1 - (hexDigit c).toNat) / 16 := by
        have hrest : (uint64Max - (hexDigit c).setWidth 64).toNat =
            2 ^ 64 - 1 - (hexDigit c).toNat := by
          rw [uint64Max]
          bv_omega
        rw [BitVec.toNat_udiv, hrest]
        rfl
      rw [gt_iff_lt, BitVec.lt_def, hdiv]
      omega
    simp only [hsmall, false_or, hguard]
    by_cases hfits : 2 ^ 64 ≤ value.toNat * 16 + (hexDigit c).toNat
    · rw [if_pos hfits]
      refine iff_of_false (by simp) ?_
      rintro ⟨d, hd, hsum⟩
      obtain ⟨-, rfl⟩ := digit_iff.mp hd
      omega
    · rw [if_neg hfits, Except.ok.injEq]
      constructor
      · rintro rfl
        exact ⟨_, digit_hexDigit hdigit, by bv_omega⟩
      · rintro ⟨d, hd, hsum⟩
        obtain ⟨-, rfl⟩ := digit_iff.mp hd
        bv_omega
  · have hlarge : (hexDigit c).setWidth 64 ≥ 16 := by bv_omega
    rw [if_pos (.inl hlarge)]
    refine iff_of_false (by simp) ?_
    rintro ⟨d, hd, -⟩
    obtain ⟨hlt, rfl⟩ := digit_iff.mp hd
    exact hdigit hlt

/-- The loop ends with the number that goes on with the digits, if it fits. -/
theorem foldlM_hexStep_iff {text : WString} {value last : ULongLong} :
    text.foldlM hexStep value = .ok last ↔ ∃ ds, List.Forall₂ Digit text ds ∧
      last.toNat = Nat.ofDigits 16 ds.reverse + 16 ^ ds.length * value.toNat := by
  induction text generalizing value with
  | nil =>
    have hsame : (Except.ok value : Except String ULongLong) = .ok last ↔
        last.toNat = value.toNat := by
      rw [Except.ok.injEq, eq_comm, BitVec.toNat_inj]
    refine hsame.trans ⟨fun h => ⟨[], .nil, by rw [h]; simp⟩, ?_⟩
    rintro ⟨ds, hds, h⟩
    cases hds
    simpa using h
  | cons c text ih =>
    rw [List.foldlM_cons]
    constructor
    · intro hrun
      cases hstep : hexStep value c with
      | error message =>
        rw [hstep] at hrun
        exact absurd hrun (by simp [bind, Except.bind])
      | ok next =>
        rw [hstep] at hrun
        obtain ⟨d, hd, hnext⟩ := hexStep_ok_iff.mp hstep
        obtain ⟨ds, hds, hlast⟩ := ih.mp hrun
        refine ⟨d :: ds, .cons hd hds, ?_⟩
        rw [hlast, hnext, Nat.ofDigits_reverse_cons, List.length_cons]
        ring
    · rintro ⟨ds, hds, hlast⟩
      cases hds with
      | @cons _ d _ ds hd hds =>
        rw [Nat.ofDigits_reverse_cons, List.length_cons] at hlast
        have hshift : last.toNat = Nat.ofDigits 16 ds.reverse +
            16 ^ ds.length * (value.toNat * 16 + d) := by
          rw [hlast]
          ring
        -- No number of digits read makes up for a step beyond the range.
        have hfits : value.toNat * 16 + d < 2 ^ 64 :=
          calc value.toNat * 16 + d
              ≤ 16 ^ ds.length * (value.toNat * 16 + d) :=
                Nat.le_mul_of_pos_left _ (Nat.pow_pos (by decide))
            _ ≤ last.toNat := by omega
            _ < 2 ^ 64 := last.isLt
        have hnext : (BitVec.ofNat 64 (value.toNat * 16 + d)).toNat = value.toNat * 16 + d := by
          rw [BitVec.toNat_ofNat, Nat.mod_eq_of_lt hfits]
        rw [hexStep_ok_iff.mpr ⟨d, hd, hnext⟩]
        exact ih.mpr ⟨ds, hds, by rw [hnext, hshift]⟩

end Loop

section Trimming

variable {iswspace : WChar → Bool} {text before mark digits after : WString}

theorem exists_trim (iswspace : WChar → Bool) (text : WString) :
    ∃ before after, text = before ++ trim iswspace text ++ after ∧
      (∀ c ∈ before, iswspace c) ∧ ∀ c ∈ after, iswspace c := by
  refine ⟨text.takeWhile iswspace,
    ((text.dropWhile iswspace).reverse.takeWhile iswspace).reverse, ?_, ?_, ?_⟩
  · rw [List.append_assoc, trim, trimRight, ← List.reverse_append, List.takeWhile_append_dropWhile,
      List.reverse_reverse, List.takeWhile_append_dropWhile]
  · exact fun c hc => List.mem_takeWhile_imp hc
  · exact fun c hc => List.mem_takeWhile_imp (List.mem_reverse.mp hc)

theorem trimRight_append (hlast : ∀ c ∈ text.getLast?, iswspace c = false)
    (hafter : ∀ c ∈ after, iswspace c) : trimRight iswspace (text ++ after) = text := by
  rw [trimRight, List.reverse_append,
    List.dropWhile_append_of_pos fun c hc => hafter c (List.mem_reverse.mp hc)]
  rw [List.getLast?_eq_head?_reverse] at hlast
  cases hreverse : text.reverse with
  | nil => rw [List.dropWhile_nil, ← hreverse, List.reverse_reverse]
  | cons c rest =>
    have hc : iswspace c = false := hlast c (by rw [hreverse]; rfl)
    rw [List.dropWhile_cons_of_neg (by rw [hc]; decide), ← hreverse, List.reverse_reverse]

theorem trim_append (hbefore : ∀ c ∈ before, iswspace c) (hafter : ∀ c ∈ after, iswspace c)
    (hne : text ≠ []) (hfirst : ∀ c ∈ text.head?, iswspace c = false)
    (hlast : ∀ c ∈ text.getLast?, iswspace c = false) :
    trim iswspace (before ++ text ++ after) = text := by
  rw [trim, List.append_assoc, List.dropWhile_append_of_pos hbefore]
  cases text with
  | nil => exact absurd rfl hne
  | cons c rest =>
    have hc : iswspace c = false := hfirst c rfl
    rw [List.cons_append, List.dropWhile_cons_of_neg (by rw [hc]; decide), ← List.cons_append,
      trimRight_append hlast hafter]

def Mark (mark : WString) : Prop := mark = [] ∨ mark = wide "0x" ∨ mark = wide "0X"

theorem eq_cons_cons {a b : WChar} (ha : text[0]? = some a) (hb : text[1]? = some b) :
    ∃ rest, text = a :: b :: rest := by
  cases text with
  | nil => simp at ha
  | cons c rest =>
    cases rest with
    | nil => simp at hb
    | cons d rest =>
      obtain rfl := Option.some.inj ha
      obtain rfl := Option.some.inj hb
      exact ⟨rest, rfl⟩

theorem exists_skipMark (text : WString) : ∃ mark, Mark mark ∧ text = mark ++ skipMark text := by
  rw [skipMark]
  split
  case isTrue h =>
    obtain ⟨-, hzero, hx | hx⟩ := h
    · obtain ⟨rest, rfl⟩ := eq_cons_cons hzero hx
      exact ⟨wide "0x", .inr (.inl rfl), rfl⟩
    · obtain ⟨rest, rfl⟩ := eq_cons_cons hzero hx
      exact ⟨wide "0X", .inr (.inr rfl), rfl⟩
  case isFalse => exact ⟨[], .inl rfl, rfl⟩

theorem not_digit_mark {c : WChar} (h : c = 0x78 ∨ c = 0x58) (d : Nat) : ¬Digit c d := by
  intro hd
  obtain ⟨hlt, rfl⟩ := digit_iff.mp hd
  obtain rfl | rfl := h
  · exact absurd hlt (by decide)
  · exact absurd hlt (by decide)

theorem skipMark_append {ds : List Nat} (hmark : Mark mark)
    (hdigits : List.Forall₂ Digit digits ds) : skipMark (mark ++ digits) = digits := by
  obtain rfl | rfl | rfl := hmark
  · refine if_neg ?_
    rintro ⟨-, hzero, hsecond⟩
    have hletter : ∃ c : WChar, (c = 0x78 ∨ c = 0x58) ∧ digits[1]? = some c := by
      obtain h | h := hsecond
      · exact ⟨_, .inl rfl, h⟩
      · exact ⟨_, .inr rfl, h⟩
    obtain ⟨c, hc, hone⟩ := hletter
    obtain ⟨rest, rfl⟩ := eq_cons_cons hzero hone
    obtain ⟨_, _, -, htail, -⟩ := List.forall₂_cons_left_iff.mp hdigits
    obtain ⟨d, _, hd, -, -⟩ := List.forall₂_cons_left_iff.mp htail
    exact not_digit_mark hc d hd
  · exact if_pos ⟨by simp [wide], rfl, .inl rfl⟩
  · exact if_pos ⟨by simp [wide], rfl, .inr rfl⟩

end Trimming

section Grammar

/-- White space, the mark or none, digits that spell `n`, and white space. -/
def Spells (iswspace : WChar → Bool) (text : WString) (n : Nat) : Prop :=
  ∃ before mark digits after ds, text = before ++ (mark ++ digits) ++ after ∧
    (∀ c ∈ before, iswspace c) ∧ Mark mark ∧ digits ≠ [] ∧ List.Forall₂ Digit digits ds ∧
    (∀ c ∈ after, iswspace c) ∧ n = Nat.ofDigits 16 ds.reverse

/-- No digit is white space. -/
def DigitsVisible (iswspace : WChar → Bool) : Prop := ∀ c d, Digit c d → iswspace c = false

variable {iswspace : WChar → Bool} {text : WString} {sys : Platform}

theorem exists_digit {digits : WString} {ds : List Nat} (h : List.Forall₂ Digit digits ds) :
    ∀ c ∈ digits, ∃ d, Digit c d := by
  induction h with
  | nil => simp
  | cons hd _ ih =>
    rintro c (_ | ⟨_, hc⟩)
    · exact ⟨_, hd⟩
    · exact ih c hc

theorem trim_spelled (hvisible : DigitsVisible iswspace) {before mark digits after : WString}
    {ds : List Nat} (hbefore : ∀ c ∈ before, iswspace c) (hmark : Mark mark) (hne : digits ≠ [])
    (hdigits : List.Forall₂ Digit digits ds) (hafter : ∀ c ∈ after, iswspace c) :
    trim iswspace (before ++ (mark ++ digits) ++ after) = mark ++ digits := by
  have hseen : ∀ c ∈ digits, iswspace c = false := by
    intro c hc
    obtain ⟨d, hd⟩ := exists_digit hdigits c hc
    exact hvisible c d hd
  have hzero : iswspace 0x30 = false := hvisible 0x30 0 (.inl rfl)
  apply trim_append hbefore hafter
  · exact List.append_ne_nil_of_right_ne_nil _ hne
  · intro c hc
    obtain rfl | rfl | rfl := hmark
    · exact hseen c (List.mem_of_mem_head? hc)
    · obtain rfl := Option.some.inj hc
      exact hzero
    · obtain rfl := Option.some.inj hc
      exact hzero
  · intro c hc
    rw [List.getLast?_append, List.getLast?_eq_some_getLast hne, Option.some_or] at hc
    exact hseen c (Option.some.inj hc ▸ List.getLast_mem hne)

/-- What the loop goes over is what the grammar leaves for it. -/
theorem spells_iff (hvisible : DigitsVisible iswspace) {n : Nat} :
    Spells iswspace text n ↔ skipMark (trim iswspace text) ≠ [] ∧
      ∃ ds, List.Forall₂ Digit (skipMark (trim iswspace text)) ds ∧
        n = Nat.ofDigits 16 ds.reverse := by
  constructor
  · rintro ⟨before, mark, digits, after, ds, rfl, hbefore, hmark, hne, hdigits, hafter, hn⟩
    rw [trim_spelled hvisible hbefore hmark hne hdigits hafter, skipMark_append hmark hdigits]
    exact ⟨hne, ds, hdigits, hn⟩
  · rintro ⟨hne, ds, hdigits, hn⟩
    obtain ⟨before, after, htext, hbefore, hafter⟩ := exists_trim iswspace text
    obtain ⟨mark, hmark, htrim⟩ := exists_skipMark (trim iswspace text)
    refine ⟨before, mark, _, after, ds, ?_, hbefore, hmark, hne, hdigits, hafter, hn⟩
    rw [← htrim]
    exact htext

theorem parseAddress_ok_iff {v : ULongLong} : parseAddress sys text = .ok v ↔
    skipMark (trim sys.iswspace text) ≠ [] ∧
      (skipMark (trim sys.iswspace text)).foldlM hexStep 0 = .ok v ∧
      1 ≤ v.toNat ∧ v.toNat ≤ 2 ^ 63 - 1 := by
  have hthrows : ∀ message, (.error message : Except String ULongLong) ≠ .ok v := by simp
  rw [parseAddress]
  by_cases hempty : skipMark (trim sys.iswspace text) = []
  · rw [if_pos hempty]
    exact iff_of_false (hthrows _) fun h => h.1 hempty
  rw [if_neg hempty, and_iff_right hempty]
  cases hloop : (skipMark (trim sys.iswspace text)).foldlM hexStep 0 with
  | error message => exact iff_of_false (hthrows _) fun h => hthrows _ h.1
  | ok value =>
    have hrange : (value = 0 ∨ value > int64Max) ↔
        ¬(1 ≤ value.toNat ∧ value.toNat ≤ 2 ^ 63 - 1) := by
      rw [int64Max]
      bv_omega
    change (if value = 0 ∨ value > int64Max then
      .error "Enter a nonzero user-space address." else .ok value : Except String ULongLong) = _ ↔ _
    rw [Except.ok.injEq]
    split
    case isTrue h =>
      refine iff_of_false (hthrows _) ?_
      rintro ⟨rfl, hin⟩
      exact hrange.mp h hin
    case isFalse h =>
      rw [Except.ok.injEq]
      refine ⟨?_, And.left⟩
      rintro rfl
      exact ⟨rfl, not_not.mp (mt hrange.mpr h)⟩

theorem digit_upperHexDigit : ∀ d : Fin 16, Digit (upperHexDigit d.val) d.val := by decide

theorem spells_hex (iswspace : WChar → Bool) {n : Nat} (hn : n ≠ 0) (width : Nat) :
    Spells iswspace (hex n width) n := by
  have hdigits : (Nat.digits 16 n).reverse.map upperHexDigit ≠ [] := by
    simpa using Nat.digits_ne_nil_iff_ne_zero.mpr hn
  obtain ⟨k, hk⟩ : ∃ k, hex n width =
      wide "0x" ++ List.replicate k 0x30 ++ (Nat.digits 16 n).reverse.map upperHexDigit := by
    rw [hex, if_neg hn]
    exact ⟨_, rfl⟩
  have htext : List.replicate k 0x30 ++ (Nat.digits 16 n).reverse.map upperHexDigit =
      (List.replicate k 0 ++ (Nat.digits 16 n).reverse).map upperHexDigit := by
    rw [List.map_append, List.map_replicate]
    rfl
  refine ⟨[], wide "0x", List.replicate k 0x30 ++ (Nat.digits 16 n).reverse.map upperHexDigit, [],
    List.replicate k 0 ++ (Nat.digits 16 n).reverse, ?_, by simp, .inr (.inl rfl),
    List.append_ne_nil_of_right_ne_nil _ hdigits, ?_, by simp, ?_⟩
  · rw [hk, List.nil_append, List.append_nil, List.append_assoc]
  · rw [htext, List.forall₂_map_left_iff, List.forall₂_same]
    intro d hd
    have hlt : d < 16 := by
      obtain hd | hd := List.mem_append.mp hd
      · rw [List.eq_of_mem_replicate hd]
        decide
      · exact Nat.digits_lt_base (by decide) (List.mem_reverse.mp hd)
    exact digit_upperHexDigit ⟨d, hlt⟩
  · rw [List.reverse_append, List.reverse_reverse, List.reverse_replicate,
      Nat.ofDigits_append_replicate_zero, Nat.ofDigits_digits]

/-- No product and no sum wraps on the way through the digits. -/
def NeverWraps (digits : WString) : Prop :=
  ∀ done c rest value next, digits = done ++ c :: rest → done.foldlM hexStep 0 = .ok value →
    hexStep value c = .ok next →
      value.toNat * 16 < 2 ^ 64 ∧ value.toNat * 16 + (hexDigit c).toNat < 2 ^ 64

theorem neverWraps (digits : WString) : NeverWraps digits := by
  intro done c rest value next _ _ hstep
  obtain ⟨d, hd, hnext⟩ := hexStep_ok_iff.mp hstep
  obtain ⟨-, rfl⟩ := digit_iff.mp hd
  have hlt := next.isLt
  exact ⟨by omega, by omega⟩

theorem parseAddress_ok_iff_spells (hvisible : DigitsVisible sys.iswspace) {v : ULongLong} :
    parseAddress sys text = .ok v ↔
      Spells sys.iswspace text v.toNat ∧ 1 ≤ v.toNat ∧ v.toNat ≤ 2 ^ 63 - 1 := by
  rw [parseAddress_ok_iff, spells_iff hvisible, foldlM_hexStep_iff, and_assoc]
  simp

/-- The parser accepts its grammar with the exact value and no other text, and reads back what
`hex` writes. -/
theorem parseAddress_grammar (sys : Platform) (hvisible : DigitsVisible sys.iswspace) :
    (∀ text (v : ULongLong), parseAddress sys text = .ok v ↔
      Spells sys.iswspace text v.toNat ∧ 1 ≤ v.toNat ∧ v.toNat ≤ 2 ^ 63 - 1) ∧
    (∀ text, (∃ message, parseAddress sys text = .error message) ↔
      ¬∃ n, Spells sys.iswspace text n ∧ 1 ≤ n ∧ n ≤ 2 ^ 63 - 1) ∧
    (∀ text, NeverWraps (skipMark (trim sys.iswspace text))) ∧
    ∀ v : ULongLong, 1 ≤ v.toNat → v.toNat ≤ 2 ^ 63 - 1 →
      parseAddress sys (hex v.toNat 8) = .ok v := by
  refine ⟨fun text v => parseAddress_ok_iff_spells hvisible, fun text => ⟨?_, ?_⟩,
    fun text => neverWraps _, fun v hlow hhigh => ?_⟩
  · rintro ⟨message, herror⟩ ⟨n, hspells, hlow, hhigh⟩
    have hn : (BitVec.ofNat 64 n).toNat = n := by
      rw [BitVec.toNat_ofNat]
      omega
    have hok : parseAddress sys text = .ok (BitVec.ofNat 64 n) := by
      rw [parseAddress_ok_iff_spells hvisible, hn]
      exact ⟨hspells, hlow, hhigh⟩
    rw [herror] at hok
    cases hok
  · intro hnone
    cases hparse : parseAddress sys text with
    | error message => exact ⟨message, rfl⟩
    | ok v => exact absurd ⟨_, (parseAddress_ok_iff_spells hvisible).mp hparse⟩ hnone
  · rw [parseAddress_ok_iff_spells hvisible]
    exact ⟨spells_hex _ (by omega) 8, hlow, hhigh⟩

theorem parseAddress_grammar_sample :
    parseAddress samplePlatform (wide "  0x009CB97C ") = .ok 0x009CB97C := by
  have hvisible : DigitsVisible samplePlatform.iswspace := by
    intro c d hd
    obtain ⟨hlt, rfl⟩ := digit_iff.mp hd
    by_contra hspace
    obtain rfl : c = 0x20 := by simpa [samplePlatform] using hspace
    exact absurd hlt (by decide)
  have hdigits : List.Forall₂ Digit (wide "009CB97C") [0, 0, 9, 12, 11, 9, 7, 12] := by decide
  have hspells : Spells samplePlatform.iswspace (wide "  0x009CB97C ") 0x009CB97C :=
    ⟨wide "  ", wide "0x", wide "009CB97C", wide " ", _, by decide,
      List.all_eq_true.mp (by decide), .inr (.inl rfl), by decide, hdigits,
      List.all_eq_true.mp (by decide), by simp [Nat.ofDigits_cons]⟩
  exact ((parseAddress_grammar samplePlatform hvisible).1 _ 0x009CB97C).mpr
    ⟨hspells, by decide, by decide⟩

end Grammar

end DarkEden.Client
