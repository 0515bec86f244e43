import Mathlib.Data.List.Basic
import Mathlib.Data.List.Forall2
import Mathlib.Data.Nat.Digits.Defs

namespace Interaction.Json

abbrev Text := List Nat

/-- A number with a fraction or an exponent is kept as it is spelled. -/
inductive Value
  | null
  | bool (b : Bool)
  | int (n : Int)
  | float (lexeme : Text)
  | str (s : Text)
  | arr (elements : List Value)
  | obj (fields : List (Text × Value))

def codes (s : String) : Text := s.toList.map Char.toNat

section Parser

def isSpace (c : Nat) : Bool := c == 0x20 || c == 0x09 || c == 0x0A || c == 0x0D

def skipSpace (text : Text) : Text := text.dropWhile isSpace

def expect (c : Nat) : Text → Option Text
  | [] => none
  | d :: rest => if d = c then some rest else none

def hexDigit (c : Nat) : Option Nat :=
  if 0x30 ≤ c ∧ c ≤ 0x39 then some (c - 0x30)
  else if 0x41 ≤ c ∧ c ≤ 0x46 then some (c - 0x37)
  else if 0x61 ≤ c ∧ c ≤ 0x66 then some (c - 0x57)
  else none

def hex4 : Text → Option (Nat × Text)
  | a :: b :: c :: d :: rest => do
    let a ← hexDigit a
    let b ← hexDigit b
    let c ← hexDigit c
    let d ← hexDigit d
    return (0x1000 * a + 0x100 * b + 0x10 * c + d, rest)
  | _ => none

def lowEscape (text : Text) : Option (Nat × Text) := do
  let rest ← expect 0x5C text
  let rest ← expect 0x75 rest
  let low ← hex4 rest
  if 0xDC00 ≤ low.1 ∧ low.1 < 0xE000 then some low else none

def simpleEscape (c : Nat) : Option Nat :=
  if c = 0x22 ∨ c = 0x5C ∨ c = 0x2F then some c
  else if c = 0x62 then some 0x08
  else if c = 0x66 then some 0x0C
  else if c = 0x6E then some 0x0A
  else if c = 0x72 then some 0x0D
  else if c = 0x74 then some 0x09
  else none

/-- What follows a backslash: the character that is meant, and what is left. -/
def escape : Text → Option (Nat × Text)
  | [] => none
  | e :: rest =>
    if e = 0x75 then
      match hex4 rest with
      | none => none
      | some (u, rest) =>
        if 0xD800 ≤ u ∧ u < 0xDC00 then
          match lowEscape rest with
          | some (low, after) => some (0x10000 + (u - 0xD800) * 0x400 + (low - 0xDC00), after)
          | none => some (u, rest)
        else some (u, rest)
    else (simpleEscape e).map fun c => (c, rest)

def stringBody : Nat → Text → Option (Text × Text)
  | 0, _ => none
  | _ + 1, [] => none
  | n + 1, c :: rest =>
    if c = 0x22 then some ([], rest)
    else if c = 0x5C then
      (escape rest).bind fun p => (stringBody n p.2).map fun q => (p.1 :: q.1, q.2)
    else if c < 0x20 then none
    else (stringBody n rest).map fun q => (c :: q.1, q.2)

def isDigit (c : Nat) : Bool := 0x30 ≤ c && c ≤ 0x39

/-- No zero leads, except in the number zero. -/
def intPart : Text → Option (Text × Text)
  | [] => none
  | c :: rest =>
    if c = 0x30 then some ([c], rest)
    else if isDigit c then some (c :: rest.takeWhile isDigit, rest.dropWhile isDigit)
    else none

def fraction : Text → Text × Text
  | [] => ([], [])
  | c :: rest =>
    if c = 0x2E ∧ rest.takeWhile isDigit ≠ [] then
      (c :: rest.takeWhile isDigit, rest.dropWhile isDigit)
    else ([], c :: rest)

def exponent : Text → Text × Text
  | [] => ([], [])
  | c :: rest =>
    let sign := rest.take 1 |>.filter fun s => s == 0x2B || s == 0x2D
    let digits := rest.drop sign.length
    if (c = 0x65 ∨ c = 0x45) ∧ digits.takeWhile isDigit ≠ [] then
      (c :: sign ++ digits.takeWhile isDigit, digits.dropWhile isDigit)
    else ([], c :: rest)

def digitsValue (digits : Text) : Nat := digits.foldl (fun n c => 10 * n + (c - 0x30)) 0

def number (text : Text) : Option (Value × Text) :=
  let sign := text.take 1 |>.filter (· == 0x2D)
  (intPart (text.drop sign.length)).map fun whole =>
    let frac := fraction whole.2
    let exp := exponent frac.2
    let magnitude : Int := digitsValue whole.1
    (if frac.1 = [] ∧ exp.1 = [] then .int (if sign = [] then magnitude else -magnitude)
      else .float (sign ++ whole.1 ++ frac.1 ++ exp.1), exp.2)

def constants : List (Text × Value) :=
  [(codes "null", .null), (codes "true", .bool true), (codes "false", .bool false),
    (codes "NaN", .float (codes "NaN")), (codes "Infinity", .float (codes "Infinity")),
    (codes "-Infinity", .float (codes "-Infinity"))]

def constant (text : Text) : Option (Value × Text) :=
  constants.findSome? fun word =>
    if word.1.isPrefixOf text then some (word.2, text.drop word.1.length) else none

/-- A key that occurs again keeps its place and gets the later value. -/
def assign (fields : List (Text × Value)) (key : Text) (v : Value) : List (Text × Value) :=
  if key ∈ fields.map Prod.fst then
    fields.map fun field => if field.1 = key then (key, v) else field
  else fields ++ [(key, v)]

mutual

/-- A value and the text after it. Every level of the nesting and every element takes one from
the number, which is never more than the characters that they are spelled with. -/
def value : Nat → Text → Option (Value × Text)
  | 0, _ => none
  | _ + 1, [] => none
  | n + 1, c :: rest =>
    if c = 0x22 then (stringBody n rest).map fun p => (.str p.1, p.2)
    else if c = 0x7B then
      if (skipSpace rest).head? = some 0x7D then some (.obj [], (skipSpace rest).tail)
      else (members n [] (skipSpace rest)).map fun p => (.obj p.1, p.2)
    else if c = 0x5B then
      if (skipSpace rest).head? = some 0x5D then some (.arr [], (skipSpace rest).tail)
      else (elements n (skipSpace rest)).map fun p => (.arr p.1, p.2)
    else constant (c :: rest) <|> number (c :: rest)

def elements : Nat → Text → Option (List Value × Text)
  | 0, _ => none
  | n + 1, text =>
    match value n text with
    | none => none
    | some (v, rest) =>
      match skipSpace rest with
      | [] => none
      | c :: rest =>
        if c = 0x5D then some ([v], rest)
        else if c = 0x2C then (elements n (skipSpace rest)).map fun p => (v :: p.1, p.2)
        else none

def members : Nat → List (Text × Value) → Text → Option (List (Text × Value) × Text)
  | 0, _, _ => none
  | n + 1, fields, text => do
    let rest ← expect 0x22 text
    let (key, rest) ← stringBody n rest
    let rest ← expect 0x3A (skipSpace rest)
    match value n (skipSpace rest) with
    | none => none
    | some (v, rest) =>
      match skipSpace rest with
      | [] => none
      | c :: rest =>
        if c = 0x7D then some (assign fields key v, rest)
        else if c = 0x2C then members n (assign fields key v) (skipSpace rest)
        else none

end

/-- The value that a text spells; nothing but white space may stand around it. -/
def loads (text : Text) : Option Value :=
  if text.head? = some 0xFEFF then none
  else match value (text.length + 1) (skipSpace text) with
    | some (v, rest) => if skipSpace rest = [] then some v else none
    | none => none

end Parser

section Strings

/-- The piece stands for the character inside a string. -/
inductive Piece : Text → Nat → Prop
  | plain {c : Nat} (hquote : c ≠ 0x22) (hbackslash : c ≠ 0x5C) (h : 0x20 ≤ c) : Piece [c] c
  | simple {e c : Nat} (h : simpleEscape e = some c) : Piece [0x5C, e] c
  | code {a b c d u : Nat} (h : hex4 [a, b, c, d] = some (u, [])) (hu : u < 0xD800) :
      Piece [0x5C, 0x75, a, b, c, d] u

theorem hex4_append {a b c d u : Nat} (h : hex4 [a, b, c, d] = some (u, [])) (rest : Text) :
    hex4 (a :: b :: c :: d :: rest) = some (u, rest) := by
  simp only [hex4, Option.bind_eq_bind, Option.bind_eq_some_iff] at h ⊢
  obtain ⟨a, ha, b, hb, c, hc, d, hd, hu⟩ := h
  refine ⟨a, ha, b, hb, c, hc, d, hd, ?_⟩
  obtain ⟨rfl, -⟩ := Prod.mk.inj (Option.some.inj hu)
  rfl

theorem stringBody_escape {n c : Nat} {text rest : Text} (h : escape text = some (c, rest)) :
    stringBody (n + 1) (0x5C :: text) = (stringBody n rest).map fun q => (c :: q.1, q.2) := by
  rw [stringBody, if_neg (by decide), if_pos rfl, h]
  rfl

theorem Piece.stringBody {piece : Text} {c : Nat} (h : Piece piece c) (n : Nat) (rest : Text) :
    stringBody (n + 1) (piece ++ rest) = (stringBody n rest).map fun q => (c :: q.1, q.2) := by
  cases h with
  | plain hquote hbackslash h =>
    change Json.stringBody (n + 1) (c :: rest) = _
    rw [Json.stringBody, if_neg hquote, if_neg hbackslash, if_neg (Nat.not_lt.mpr h)]
  | @simple e c h =>
    apply stringBody_escape
    have he : e ≠ 0x75 := by
      rintro rfl
      cases h
    change escape (e :: rest) = _
    rw [escape, if_neg he, h]
    rfl
  | code h hu =>
    apply stringBody_escape
    change escape (0x75 :: _ :: _ :: _ :: _ :: rest) = _
    rw [escape, if_pos rfl, hex4_append h]
    exact if_neg fun hhigh => Nat.not_le.mpr hu hhigh.1

def Quoted (body s : Text) : Prop :=
  ∀ n rest, body.length < n → stringBody n (body ++ 0x22 :: rest) = some (s, rest)

theorem Quoted.nil : Quoted [] [] := by
  intro n rest hn
  obtain ⟨n, rfl⟩ := Nat.exists_eq_add_of_lt hn
  rfl

theorem Piece.ne_nil {piece : Text} {c : Nat} (h : Piece piece c) : piece ≠ [] := by
  cases h <;> exact List.cons_ne_nil _ _

theorem Quoted.cons {piece body s : Text} {c : Nat} (hpiece : Piece piece c)
    (hbody : Quoted body s) : Quoted (piece ++ body) (c :: s) := by
  intro n rest hn
  have hpos := List.length_pos_iff.mpr hpiece.ne_nil
  rw [List.length_append] at hn
  obtain ⟨n, rfl⟩ : ∃ m, n = m + 1 := ⟨n - 1, by omega⟩
  rw [List.append_assoc, hpiece.stringBody, hbody n rest (by omega)]
  rfl

theorem Quoted.flatMap {spell : Nat → Text} {s : Text} (h : ∀ c ∈ s, Piece (spell c) c) :
    Quoted (s.flatMap spell) s := by
  induction s with
  | nil => exact Quoted.nil
  | cons c s ih =>
    rw [List.flatMap_cons]
    exact Quoted.cons (h c List.mem_cons_self) (ih fun d hd => h d (List.mem_cons_of_mem c hd))

theorem Quoted.plain {s : Text} (h : ∀ c ∈ s, c ≠ 0x22 ∧ c ≠ 0x5C ∧ 0x20 ≤ c) : Quoted s s := by
  have hquoted : Quoted (s.flatMap fun c => [c]) s := by
    apply Quoted.flatMap
    intro c hc
    obtain ⟨hquote, hbackslash, hc⟩ := h c hc
    exact Piece.plain hquote hbackslash hc
  rwa [List.flatMap_singleton'] at hquoted

end Strings

section Values

def Ends (rest : Text) : Prop :=
  ∀ c ∈ rest.head?, isDigit c = false ∧ c ≠ 0x2E ∧ c ≠ 0x65 ∧ c ≠ 0x45

def Leads (c : Nat) : Prop := isSpace c = false ∧ c ≠ 0x5D ∧ c ≠ 0xFEFF

structure Spells (text : Text) (v : Value) : Prop where
  leads : ∃ c ∈ text.head?, Leads c
  reads : ∀ n rest, text.length ≤ n → Ends rest → value n (text ++ rest) = some (v, rest)

theorem Ends.cons {c : Nat} {rest : Text}
    (h : isDigit c = false ∧ c ≠ 0x2E ∧ c ≠ 0x65 ∧ c ≠ 0x45) : Ends (c :: rest) := by
  intro d hd
  obtain rfl : c = d := Option.some.inj hd
  exact h

theorem skipSpace_cons {c : Nat} (h : isSpace c = false) (rest : Text) :
    skipSpace (c :: rest) = c :: rest := List.dropWhile_cons_of_neg (by rw [h]; decide)

theorem Spells.exists_cons {text : Text} {v : Value} (h : Spells text v) :
    ∃ c tail, text = c :: tail ∧ Leads c := by
  obtain ⟨c, hc, hleads⟩ := h.leads
  cases text with
  | nil => cases hc
  | cons d tail =>
    obtain rfl : d = c := Option.some.inj hc
    exact ⟨d, tail, rfl, hleads⟩

theorem Spells.skipSpace {text : Text} {v : Value} (h : Spells text v) (rest : Text) :
    skipSpace (text ++ rest) = text ++ rest := by
  obtain ⟨c, tail, rfl, hc⟩ := h.exists_cons
  exact skipSpace_cons hc.1 _

theorem Spells.loads {text : Text} {v : Value} (h : Spells text v) : loads text = some v := by
  obtain ⟨c, hc, hleads⟩ := h.leads
  have hread := h.reads (text.length + 1) [] (Nat.le_succ _) nofun
  have hskip := h.skipSpace []
  rw [List.append_nil] at hread hskip
  rw [Json.loads, hskip, hread, if_neg]
  · rfl
  · intro hbom
    rw [hbom] at hc
    exact hleads.2.2 (Option.some.inj hc).symm

theorem Spells.str {body s : Text} (h : Quoted body s) :
    Spells (0x22 :: (body ++ [0x22])) (.str s) := by
  refine ⟨⟨0x22, rfl, rfl, by decide, by decide⟩, fun n rest hn _ => ?_⟩
  simp only [List.length_cons, List.length_append, List.length_nil] at hn
  obtain ⟨n, rfl⟩ : ∃ m, n = m + 1 := ⟨n - 1, by omega⟩
  have hbody := h n rest (by omega)
  rw [List.cons_append, List.append_assoc, value, if_pos rfl]
  change Option.map _ (stringBody n (body ++ 0x22 :: rest)) = _
  rw [hbody]
  rfl

end Values

section Numbers

def decimal (n : Nat) : Text := codes (toString n)

theorem decimal_eq (n : Nat) :
    decimal n = if n < 10 then [0x30 + n] else decimal (n / 10) ++ [0x30 + n % 10] := by
  have hcodes : ∀ m, decimal m = (Nat.toDigits 10 m).map Char.toNat := by
    intro m
    rw [decimal, codes, Nat.toString_eq_repr, Nat.toList_repr]
  rw [hcodes, hcodes, Nat.toDigits_eq_if (by decide)]
  by_cases hn : n < 10
  · rw [if_pos hn, if_pos hn, List.map_singleton, Nat.toNat_digitChar_of_lt_ten hn]
  · rw [if_neg hn, if_neg hn, List.map_append, List.map_singleton,
      Nat.toNat_digitChar_of_lt_ten (Nat.mod_lt n (by decide))]

theorem digitsValue_snoc (digits : Text) (c : Nat) :
    digitsValue (digits ++ [c]) = 10 * digitsValue digits + (c - 0x30) := by
  rw [digitsValue, List.foldl_append]
  rfl

theorem digitsValue_decimal (n : Nat) : digitsValue (decimal n) = n := by
  induction n using Nat.strongRecOn with
  | ind n ih =>
    rw [decimal_eq]
    by_cases hn : n < 10
    · rw [if_pos hn]
      simp [digitsValue]
    · rw [if_neg hn, digitsValue_snoc, ih (n / 10) (by omega)]
      omega

theorem isDigit_of_mem_decimal {n c : Nat} (h : c ∈ decimal n) : isDigit c := by
  induction n using Nat.strongRecOn with
  | ind n ih =>
    rw [decimal_eq] at h
    by_cases hn : n < 10
    · rw [if_pos hn, List.mem_singleton] at h
      simp only [isDigit, Bool.and_eq_true, decide_eq_true_eq]
      omega
    · rw [if_neg hn, List.mem_append, List.mem_singleton] at h
      cases h with
      | inl h => exact ih (n / 10) (by omega) h
      | inr h =>
        simp only [isDigit, Bool.and_eq_true, decide_eq_true_eq]
        omega

theorem decimal_cases (n : Nat) :
    n = 0 ∧ decimal n = [0x30] ∨ ∃ c tail, decimal n = c :: tail ∧ c ≠ 0x30 := by
  induction n using Nat.strongRecOn with
  | ind n ih =>
    by_cases hn : n < 10
    · rw [decimal_eq, if_pos hn]
      by_cases hzero : n = 0
      · exact .inl ⟨hzero, by rw [hzero]⟩
      · exact .inr ⟨0x30 + n, [], rfl, by omega⟩
    · rw [decimal_eq, if_neg hn]
      obtain ⟨hzero, -⟩ | ⟨c, tail, hc, hne⟩ := ih (n / 10) (by omega)
      · omega
      · exact .inr ⟨c, tail ++ [0x30 + n % 10], by rw [hc]; rfl, hne⟩

theorem constant_of_digit {c : Nat} (h : isDigit c) (rest : Text) : constant (c :: rest) = none := by
  have hfirst : ∀ word ∈ constants, ∃ d tail, word.1 = d :: tail ∧ isDigit d = false := by
    intro word hword
    simp only [constants, List.mem_cons, List.not_mem_nil, or_false] at hword
    obtain rfl | rfl | rfl | rfl | rfl | rfl := hword <;> exact ⟨_, _, rfl, rfl⟩
  rw [constant, List.findSome?_eq_none_iff]
  intro word hword
  obtain ⟨d, tail, hd, hdigit⟩ := hfirst word hword
  have hne : d ≠ c := by
    rintro rfl
    rw [h] at hdigit
    cases hdigit
  simp [hd, hne]

theorem span_digits {digits rest : Text} (h : ∀ c ∈ digits, isDigit c) (hrest : Ends rest) :
    (digits ++ rest).takeWhile isDigit = digits ∧ (digits ++ rest).dropWhile isDigit = rest := by
  rw [List.takeWhile_append_of_pos h, List.dropWhile_append_of_pos h]
  cases rest with
  | nil => exact ⟨List.append_nil digits, rfl⟩
  | cons c rest =>
    have hc : ¬isDigit c = true := by
      rw [(hrest c rfl).1]
      decide
    rw [List.takeWhile_cons_of_neg hc, List.dropWhile_cons_of_neg hc]
    exact ⟨List.append_nil digits, rfl⟩

theorem intPart_decimal (n : Nat) {rest : Text} (hrest : Ends rest) :
    intPart (decimal n ++ rest) = some (decimal n, rest) := by
  obtain ⟨-, hzero⟩ | ⟨c, tail, hn, hc⟩ := decimal_cases n
  · rw [hzero]
    rfl
  · have hdigits : ∀ d ∈ c :: tail, isDigit d := fun d hd => isDigit_of_mem_decimal (hn ▸ hd)
    obtain ⟨htake, hdrop⟩ :=
      span_digits (fun d hd => hdigits d (List.mem_cons_of_mem c hd)) hrest
    rw [hn, List.cons_append, intPart, if_neg hc, if_pos (hdigits c List.mem_cons_self), htake,
      hdrop]

theorem Ends.fraction {rest : Text} (h : Ends rest) : fraction rest = ([], rest) := by
  cases rest with
  | nil => rfl
  | cons c rest => exact if_neg fun hdot => (h c rfl).2.1 hdot.1

theorem Ends.exponent {rest : Text} (h : Ends rest) : exponent rest = ([], rest) := by
  cases rest with
  | nil => rfl
  | cons c rest =>
    obtain ⟨-, -, hlower, hupper⟩ := h c rfl
    exact if_neg fun he => he.1.elim hlower hupper

theorem number_decimal (n : Nat) {rest : Text} (hrest : Ends rest) :
    number (decimal n ++ rest) = some (.int n, rest) := by
  have hsign : ((decimal n ++ rest).take 1 |>.filter (· == 0x2D)) = [] := by
    obtain ⟨-, hzero⟩ | ⟨c, tail, hn, -⟩ := decimal_cases n
    · rw [hzero]
      rfl
    · have hdigit := isDigit_of_mem_decimal (hn ▸ List.mem_cons_self : c ∈ decimal n)
      have hc : (c == 0x2D) = false := by
        simp only [isDigit, Bool.and_eq_true, decide_eq_true_eq] at hdigit
        simp only [beq_eq_false_iff_ne]
        omega
      rw [hn]
      simp [hc]
  rw [number, hsign, List.length_nil, List.drop_zero, intPart_decimal n hrest]
  simp [hrest.fraction, hrest.exponent, digitsValue_decimal]

theorem Spells.int (n : Nat) : Spells (decimal n) (.int n) := by
  obtain ⟨c, tail, hn⟩ : ∃ c tail, decimal n = c :: tail := by
    obtain ⟨-, hzero⟩ | ⟨c, tail, hn, -⟩ := decimal_cases n
    · exact ⟨0x30, [], hzero⟩
    · exact ⟨c, tail, hn⟩
  have hdigit := isDigit_of_mem_decimal (hn ▸ List.mem_cons_self : c ∈ decimal n)
  have hbounds : 0x30 ≤ c ∧ c ≤ 0x39 := by simpa [isDigit] using hdigit
  have hleads : Leads c := by
    refine ⟨?_, by omega, by omega⟩
    simp only [isSpace, Bool.or_eq_false_iff, beq_eq_false_iff_ne]
    omega
  refine ⟨⟨c, by rw [hn]; rfl, hleads⟩, fun m rest hm hrest => ?_⟩
  rw [hn, List.length_cons] at hm
  obtain ⟨m, rfl⟩ : ∃ k, m = k + 1 := ⟨m - 1, by omega⟩
  have hnumber := number_decimal n hrest
  rw [hn, List.cons_append] at hnumber
  rw [hn, List.cons_append, value, if_neg (by omega), if_neg (by omega), if_neg (by omega),
    constant_of_digit hdigit, hnumber]
  rfl

end Numbers

section Lists

def commas : List Text → Text
  | [] => []
  | text :: texts => text ++ texts.flatMap (0x2C :: ·)

theorem commas_cons_cons (text text' : Text) (texts : List Text) :
    commas (text :: text' :: texts) = text ++ 0x2C :: commas (text' :: texts) := rfl

theorem commas_snoc (texts : List Text) (text : Text) :
    commas (texts ++ [text]) = commas texts ++ (if texts = [] then [] else [0x2C]) ++ text := by
  cases texts with
  | nil => simp [commas]
  | cons first texts => simp [commas]

theorem skipSpace_commas {text tail : Text} {c : Nat} (htext : text = c :: tail)
    (hc : isSpace c = false) (texts : List Text) (rest : Text) :
    skipSpace (commas (text :: texts) ++ rest) = commas (text :: texts) ++ rest := by
  rw [htext]
  exact skipSpace_cons hc _

theorem elements_reads {text : Text} {v : Value} {texts : List Text} {vs : List Value}
    (h : Spells text v) (hs : List.Forall₂ Spells texts vs) {n : Nat} (rest : Text)
    (hn : (commas (text :: texts)).length < n) :
    elements n (commas (text :: texts) ++ 0x5D :: rest) = some (v :: vs, rest) := by
  induction hs generalizing text v n with
  | nil =>
    obtain ⟨n, rfl⟩ : ∃ m, n = m + 1 := ⟨n - 1, by omega⟩
    have hread := h.reads n (0x5D :: rest) (by simpa [commas] using Nat.le_of_lt_succ hn)
      (Ends.cons (by decide))
    rw [commas, List.flatMap_nil, List.append_nil, elements, hread]
    rfl
  | @cons text' v' texts vs h' hs ih =>
    obtain ⟨n, rfl⟩ : ∃ m, n = m + 1 := ⟨n - 1, by omega⟩
    rw [commas_cons_cons, List.length_append, List.length_cons] at hn
    have hread := h.reads n (0x2C :: (commas (text' :: texts) ++ 0x5D :: rest)) (by omega)
      (Ends.cons (by decide))
    have hrest := ih h' (n := n) (by omega)
    obtain ⟨c, tail, hc, hleads⟩ := h'.exists_cons
    have hskip := skipSpace_commas hc hleads.1 texts (0x5D :: rest)
    rw [commas_cons_cons, List.append_assoc, List.cons_append, elements, hread]
    change Option.map _ (elements n (skipSpace _)) = _
    rw [hskip, hrest]
    rfl

theorem Spells.arr {texts : List Text} {vs : List Value} (hs : List.Forall₂ Spells texts vs) :
    Spells (0x5B :: (commas texts ++ [0x5D])) (.arr vs) := by
  refine ⟨⟨0x5B, rfl, rfl, by decide, by decide⟩, fun n rest hn _ => ?_⟩
  rw [List.length_cons, List.length_append, List.length_singleton] at hn
  obtain ⟨n, rfl⟩ : ∃ m, n = m + 1 := ⟨n - 1, by omega⟩
  rw [List.cons_append, List.append_assoc, value, if_neg (by decide), if_neg (by decide),
    if_pos rfl]
  cases hs with
  | nil => rfl
  | @cons text v texts vs h hs =>
    have hread := elements_reads h hs (n := n) rest (by omega)
    obtain ⟨c, tail, hc, hleads⟩ := h.exists_cons
    have hopen : (commas (text :: texts) ++ 0x5D :: rest).head? ≠ some 0x5D := by
      rw [hc]
      exact fun hclose => hleads.2.1 (Option.some.inj hclose)
    rw [List.singleton_append, skipSpace_commas hc hleads.1, if_neg hopen, hread]
    rfl

def SpellsField (text : Text) (field : Text × Value) : Prop :=
  ∃ body spelled, text = 0x22 :: (body ++ 0x22 :: 0x3A :: spelled) ∧ Quoted body field.1 ∧
    Spells spelled field.2

theorem assign_of_notMem {fields : List (Text × Value)} {key : Text} {v : Value}
    (h : key ∉ fields.map Prod.fst) : assign fields key v = fields ++ [(key, v)] := if_neg h

theorem SpellsField.members {text : Text} {field : Text × Value} (h : SpellsField text field)
    {n c : Nat} {rest : Text} {fields : List (Text × Value)} (hn : text.length ≤ n)
    (hc : c = 0x2C ∨ c = 0x7D) (hfresh : field.1 ∉ fields.map Prod.fst) :
    members (n + 1) fields (text ++ c :: rest) =
      if c = 0x7D then some (fields ++ [field], rest)
      else members n (fields ++ [field]) (skipSpace rest) := by
  obtain ⟨body, spelled, rfl, hkey, hvalue⟩ := h
  simp only [List.length_cons, List.length_append] at hn
  have hends : Ends (c :: rest) := by
    apply Ends.cons
    obtain rfl | rfl := hc <;> decide
  have hspace : isSpace c = false := by
    obtain rfl | rfl := hc <;> rfl
  have hbody := hkey n (0x3A :: (spelled ++ c :: rest)) (by omega)
  have hread := hvalue.reads n (c :: rest) (by omega) hends
  have htext : 0x22 :: (body ++ 0x22 :: 0x3A :: spelled) ++ c :: rest =
      0x22 :: (body ++ 0x22 :: 0x3A :: (spelled ++ c :: rest)) := by simp
  rw [htext, Json.members]
  change (stringBody n (body ++ 0x22 :: 0x3A :: (spelled ++ c :: rest))).bind _ = _
  rw [hbody]
  change (match value n (skipSpace (spelled ++ c :: rest)) with | none => none | some (v, rest) => _)
    = _
  rw [hvalue.skipSpace, hread]
  simp only [skipSpace_cons hspace, assign_of_notMem hfresh]
  obtain rfl | rfl := hc <;> rfl

theorem members_reads {text : Text} {field : Text × Value} {texts : List Text}
    {fields : List (Text × Value)} (h : SpellsField text field)
    (hs : List.Forall₂ SpellsField texts fields) {n : Nat} (before : List (Text × Value))
    (rest : Text) (hnodup : ((before ++ field :: fields).map Prod.fst).Nodup)
    (hn : (commas (text :: texts)).length < n) :
    members n before (commas (text :: texts) ++ 0x7D :: rest) =
      some (before ++ field :: fields, rest) := by
  have hfresh : ∀ {field : Text × Value} {before fields : List (Text × Value)},
      ((before ++ field :: fields).map Prod.fst).Nodup → field.1 ∉ before.map Prod.fst := by
    intro field before fields hnodup hmem
    rw [List.map_append, List.nodup_append] at hnodup
    exact hnodup.2.2 _ hmem _ List.mem_cons_self rfl
  induction hs generalizing text field before n with
  | nil =>
    obtain ⟨n, rfl⟩ : ∃ m, n = m + 1 := ⟨n - 1, by omega⟩
    have hlength : text.length ≤ n := by simpa [commas] using Nat.le_of_lt_succ hn
    rw [commas, List.flatMap_nil, List.append_nil, h.members hlength (.inr rfl) (hfresh hnodup)]
    rfl
  | @cons text' field' texts fields h' hs ih =>
    obtain ⟨n, rfl⟩ : ∃ m, n = m + 1 := ⟨n - 1, by omega⟩
    rw [commas_cons_cons, List.length_append, List.length_cons] at hn
    obtain ⟨body, spelled, htext, -⟩ := id h'
    have hskip := skipSpace_commas htext rfl texts (0x7D :: rest)
    have hrest := ih h' (before ++ [field]) (by simpa using hnodup) (n := n) (by omega)
    rw [commas_cons_cons, List.append_assoc, List.cons_append,
      h.members (by omega) (.inl rfl) (hfresh hnodup), if_neg (by decide), hskip, hrest]
    simp

theorem Spells.obj {texts : List Text} {fields : List (Text × Value)}
    (hs : List.Forall₂ SpellsField texts fields) (hnodup : (fields.map Prod.fst).Nodup) :
    Spells (0x7B :: (commas texts ++ [0x7D])) (.obj fields) := by
  refine ⟨⟨0x7B, rfl, rfl, by decide, by decide⟩, fun n rest hn _ => ?_⟩
  rw [List.length_cons, List.length_append, List.length_singleton] at hn
  obtain ⟨n, rfl⟩ : ∃ m, n = m + 1 := ⟨n - 1, by omega⟩
  rw [List.cons_append, List.append_assoc, value, if_neg (by decide), if_pos rfl]
  cases hs with
  | nil => rfl
  | @cons text field texts fields h hs =>
    have hread := members_reads h hs (n := n) [] rest hnodup (by omega)
    obtain ⟨body, spelled, htext, -⟩ := h
    have hopen : (commas (text :: texts) ++ 0x7D :: rest).head? ≠ some 0x7D := by
      rw [htext]
      exact fun hclose => absurd (Option.some.inj hclose) (by decide)
    rw [List.singleton_append, skipSpace_commas htext rfl, if_neg hopen, hread]
    rfl

end Lists

end Interaction.Json
