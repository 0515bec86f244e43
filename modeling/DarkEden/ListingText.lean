import DarkEden.Engine
import DarkEden.Interaction.Json
import DarkEden.Interaction.Utf16

namespace DarkEden.ListingText

open Interaction Protocol Client Engine
open Utf16 (decode isHigh isLow Whole)
open Json (Text codes decimal commas Spells SpellsField)

structure Printable (c : Character) : Prop where
  name_le : c.name.length ≤ 256
  race_mem : c.race ∈ raceNames
  life_mem : c.life ∈ lifeNames
  x_lt : c.x < 5000
  y_lt : c.y < 5000

def record (c : Character) : Json.Value :=
  .obj [(codes "name", .str (decode c.name)), (codes "race", .str (decode c.race)),
    (codes "life", .str (decode c.life)), (codes "id", .int c.id.toNat),
    (codes "x", .int c.x.toNat), (codes "y", .int c.y.toNat)]

theorem record_injective : Function.Injective record := by
  intro c c' h
  simp only [record, Json.Value.obj.injEq, List.cons.injEq, Prod.mk.injEq, Json.Value.str.injEq,
    Json.Value.int.injEq, Nat.cast_inj, true_and, and_true] at h
  obtain ⟨hname, hrace, hlife, hid, hx, hy⟩ := h
  have hname := Utf16.decode_injective hname
  have hrace := Utf16.decode_injective hrace
  have hlife := Utf16.decode_injective hlife
  cases c
  cases c'
  simp only [Character.mk.injEq]
  exact ⟨hname, hrace, hlife, BitVec.eq_of_toNat_eq hid, BitVec.eq_of_toNat_eq hx,
    BitVec.eq_of_toNat_eq hy⟩

section Texts

/-- The characters of the text are single units. -/
def Basic (s : String) : Bool := s.toList.all fun c => c.toNat < 0xD800

theorem toNat_lt_of_basic {s : String} (h : Basic s) {c : Char} (hc : c ∈ s.toList) :
    c.toNat < 0xD800 := of_decide_eq_true (List.all_eq_true.mp h c hc)

theorem toNat_of_basic {c : Char} (h : c.toNat < 0xD800) : (BitVec.ofNat 16 c.toNat).toNat = c.toNat :=
  Nat.mod_eq_of_lt (by omega)

theorem not_high_of_mem_wide {s : String} (h : Basic s) : ∀ u ∈ wide s, isHigh u = false := by
  intro u hu
  obtain ⟨c, hc, rfl⟩ := List.mem_map.mp hu
  have hbasic := toNat_lt_of_basic h hc
  apply Bool.eq_false_iff.mpr
  intro hhigh
  have := (Utf16.isHigh_iff.mp hhigh).1
  rw [toNat_of_basic hbasic] at this
  omega

theorem whole_wide {s : String} (h : Basic s) : Whole (wide s) :=
  Utf16.whole_of_not_high (not_high_of_mem_wide h)

theorem decode_wide {s : String} (h : Basic s) : decode (wide s) = codes s := by
  rw [Utf16.decode_eq_map (not_high_of_mem_wide h), wide, codes, List.map_map]
  apply List.map_congr_left
  intro c hc
  exact toNat_of_basic (toNat_lt_of_basic h hc)

def spelled (c : Nat) : Text :=
  if c = 0x22 ∨ c = 0x5C then [0x5C, c]
  else if c < 0x20 then
    codes "\\u00" ++ [(upperHexDigit (c / 16)).toNat, (upperHexDigit (c % 16)).toNat]
  else [c]

theorem piece_spelled (c : Nat) : Json.Piece (spelled c) c := by
  have hsimple : ∀ c, c = 0x22 ∨ c = 0x5C → Json.simpleEscape c = some c := by
    rintro c (rfl | rfl) <;> rfl
  have hcode : ∀ c < 0x20, Json.hex4 [0x30, 0x30, (upperHexDigit (c / 16)).toNat,
      (upperHexDigit (c % 16)).toNat] = some (c, []) := by decide
  rw [spelled]
  by_cases hescaped : c = 0x22 ∨ c = 0x5C
  · rw [if_pos hescaped]
    exact .simple (hsimple c hescaped)
  rw [if_neg hescaped]
  by_cases hcontrol : c < 0x20
  · rw [if_pos hcontrol]
    exact .code (hcode c hcontrol) (by omega)
  · rw [if_neg hcontrol]
    exact .plain (fun h => hescaped (.inl h)) (fun h => hescaped (.inr h)) (Nat.le_of_not_lt hcontrol)

end Texts

section Strings

theorem upperHexDigit_spec : ∀ d < 16, isHigh (upperHexDigit d) = false ∧ upperHexDigit d ≠ 0 := by
  decide

theorem jsonCharacter_cases (u : WChar) :
    ((u = 0x22 ∨ u = 0x5C) ∧ jsonCharacter u = [0x5C, u]) ∨
    (u.toNat < 0x20 ∧ jsonCharacter u =
      wide "\\u00" ++ [upperHexDigit (u.toNat / 16), upperHexDigit (u.toNat % 16)]) ∨
    (¬(u.toNat = 0x22 ∨ u.toNat = 0x5C) ∧ 0x20 ≤ u.toNat ∧ jsonCharacter u = [u]) := by
  rw [jsonCharacter]
  by_cases hescaped : u = 0x22 ∨ u = 0x5C
  · exact .inl ⟨hescaped, if_pos hescaped⟩
  rw [if_neg hescaped]
  by_cases hcontrol : u < 0x20
  · exact .inr (.inl ⟨BitVec.lt_def.mp hcontrol, if_pos hcontrol⟩)
  · refine .inr (.inr ⟨?_, Nat.le_of_not_lt fun h => hcontrol (BitVec.lt_def.mpr h), if_neg hcontrol⟩)
    rintro (h | h)
    · exact hescaped (.inl (BitVec.eq_of_toNat_eq h))
    · exact hescaped (.inr (BitVec.eq_of_toNat_eq h))

theorem decode_jsonCharacter (u : WChar) : decode (jsonCharacter u) = spelled u.toNat := by
  obtain ⟨hescaped, hu⟩ | ⟨hcontrol, hu⟩ | ⟨hescaped, hcontrol, hu⟩ := jsonCharacter_cases u
  · have hescaped : u.toNat = 0x22 ∨ u.toNat = 0x5C := by
      obtain rfl | rfl := hescaped
      · exact .inl rfl
      · exact .inr rfl
    rw [hu, spelled, if_pos hescaped]
    exact Utf16.decode_cons_of_not_high rfl _
  · have hfirst := (upperHexDigit_spec (u.toNat / 16) (by omega)).1
    rw [hu, spelled, if_neg (by omega), if_pos hcontrol, whole_wide (by decide),
      decode_wide (by decide), Utf16.decode_cons_of_not_high hfirst]
    rfl
  · rw [hu, spelled, if_neg hescaped, if_neg (Nat.not_lt.mpr hcontrol)]
    rfl

theorem whole_jsonCharacter {u : WChar} (h : isHigh u = false) : Whole (jsonCharacter u) := by
  apply Utf16.whole_of_not_high
  intro v hv
  obtain ⟨-, hu⟩ | ⟨hcontrol, hu⟩ | ⟨-, -, hu⟩ := jsonCharacter_cases u
  · rw [hu, List.mem_pair] at hv
    obtain rfl | rfl := hv
    · rfl
    · exact h
  · rw [hu, List.mem_append, List.mem_pair] at hv
    obtain hv | rfl | rfl := hv
    · exact not_high_of_mem_wide (by decide) v hv
    · exact (upperHexDigit_spec _ (by omega)).1
    · exact (upperHexDigit_spec _ (by omega)).1
  · rw [hu, List.mem_singleton] at hv
    rw [hv]
    exact h

theorem jsonCharacter_of_large {u : WChar} (h : 0x80 ≤ u.toNat) : jsonCharacter u = [u] := by
  obtain ⟨rfl | rfl, -⟩ | ⟨hcontrol, -⟩ | ⟨-, -, hu⟩ := jsonCharacter_cases u
  · cases Nat.not_le.mpr (by decide) h
  · cases Nat.not_le.mpr (by decide) h
  · omega
  · exact hu

theorem spelled_of_large {c : Nat} (h : 0x80 ≤ c) : spelled c = [c] := by
  rw [spelled, if_neg (by omega), if_neg (by omega)]

theorem jsonCharacter_head (u : WChar) : ∃ v tail, jsonCharacter u = v :: tail ∧ (isLow v → v = u) := by
  obtain ⟨-, hu⟩ | ⟨-, hu⟩ | ⟨-, -, hu⟩ := jsonCharacter_cases u
  · exact ⟨_, _, hu, fun h => by cases h⟩
  · exact ⟨_, _, hu, fun h => by cases h⟩
  · exact ⟨u, [], hu, fun _ => rfl⟩

theorem decode_escaped (s : WString) :
    decode (s.flatMap jsonCharacter) = (decode s).flatMap spelled := by
  induction s using Utf16.decode.induct with
  | case1 => rfl
  | case2 u =>
    rw [List.flatMap_singleton, decode_jsonCharacter, decode, List.flatMap_singleton]
  | case3 u v rest hpair ih =>
    obtain ⟨hu, hv⟩ := Bool.and_eq_true_iff.mp hpair
    have hhigh := (Utf16.isHigh_iff.mp hu).1
    have hlow := (Utf16.isLow_iff.mp hv).1
    have hlarge : 0x80 ≤ Utf16.pair u.toNat v.toNat := by
      have := (Utf16.pair_split rfl hhigh hlow (Utf16.isLow_iff.mp hv).2).1
      omega
    rw [List.flatMap_cons, List.flatMap_cons, jsonCharacter_of_large (by omega),
      jsonCharacter_of_large (by omega), Utf16.decode_pair hu hv, List.flatMap_cons,
      spelled_of_large hlarge, List.singleton_append, List.singleton_append,
      Utf16.decode_pair hu hv, ih]
    rfl
  | case4 u v rest hpair ih =>
    have htext : (u :: v :: rest).flatMap jsonCharacter =
        jsonCharacter u ++ (v :: rest).flatMap jsonCharacter := List.flatMap_cons
    have hspelled : (u.toNat :: decode (v :: rest)).flatMap spelled =
        spelled u.toNat ++ (decode (v :: rest)).flatMap spelled := List.flatMap_cons
    rw [Utf16.decode_single hpair, htext, hspelled, ← ih, ← decode_jsonCharacter]
    cases hu : isHigh u with
    | false => exact whole_jsonCharacter hu _
    | true =>
      have hhigh := (Utf16.isHigh_iff.mp hu).1
      obtain ⟨w, tail, hv, hw⟩ := jsonCharacter_head v
      rw [jsonCharacter_of_large (by omega), List.singleton_append, List.flatMap_cons, hv]
      apply Utf16.decode_cons
      intro w' hw' hboth
      obtain rfl : w = w' := Option.some.inj hw'
      obtain rfl := hw hboth.2
      exact hpair (Bool.and_eq_true_iff.mpr hboth)

theorem decode_jsonString (s : WString) :
    decode (jsonString s) = 0x22 :: ((decode s).flatMap spelled ++ [0x22]) := by
  rw [jsonString, List.append_assoc, whole_wide (by decide), Utf16.decode_append, decode_escaped]
  · rfl
  · intro v hv
    obtain rfl := Option.some.inj hv
    rfl

theorem whole_jsonString (s : WString) : Whole (jsonString s) := Utf16.whole_snoc _ rfl rfl

theorem spells_jsonString (s : WString) : Spells (decode (jsonString s)) (.str (decode s)) := by
  rw [decode_jsonString]
  exact Spells.str (Json.Quoted.flatMap fun c _ => piece_spelled c)

theorem length_jsonString (s : WString) : (jsonString s).length ≤ 6 * s.length + 2 := by
  have hone : ∀ u, (jsonCharacter u).length ≤ 6 := by
    intro u
    obtain ⟨-, hu⟩ | ⟨-, hu⟩ | ⟨-, -, hu⟩ := jsonCharacter_cases u
    · rw [hu]
      exact Nat.le_add_left 2 4
    · rw [hu]
      exact Nat.le_refl 6
    · rw [hu]
      exact Nat.le_add_left 1 5
  have hall : (s.flatMap jsonCharacter).length ≤ 6 * s.length := by
    induction s with
    | nil => exact Nat.le_refl 0
    | cons u s ih =>
      have hu := hone u
      rw [List.flatMap_cons, List.length_append, List.length_cons]
      omega
  have hquotes : (wide "\"").length = 1 := rfl
  rw [jsonString, List.length_append, List.length_append, hquotes]
  omega

theorem nul_notMem_jsonString (s : WString) : 0 ∉ jsonString s := by
  have hone : ∀ u, 0 ∉ jsonCharacter u := by
    intro u hmem
    obtain ⟨hescaped, hu⟩ | ⟨hcontrol, hu⟩ | ⟨-, hcontrol, hu⟩ := jsonCharacter_cases u
    · obtain rfl | rfl := hescaped <;> exact absurd hmem (by decide)
    · have hhigh := (upperHexDigit_spec (u.toNat / 16) (by omega)).2
      have hlow := (upperHexDigit_spec (u.toNat % 16) (by omega)).2
      rw [hu, List.mem_append, List.mem_pair] at hmem
      obtain hmem | hmem | hmem := hmem
      · exact absurd hmem (by decide)
      · exact hhigh hmem.symm
      · exact hlow hmem.symm
    · rw [hu, List.mem_singleton] at hmem
      rw [← hmem] at hcontrol
      exact absurd hcontrol (by decide)
  have hquote : 0 ∉ wide "\"" := by decide
  rw [jsonString, List.mem_append, List.mem_append, List.mem_flatMap]
  rintro ((h | ⟨u, -, h⟩) | h)
  · exact hquote h
  · exact hone u h
  · exact hquote h

end Strings

section Entries

theorem digit_of_mem {n : Nat} {c : Char} (h : c ∈ (toString n).toList) :
    0x30 ≤ c.toNat ∧ c.toNat ≤ 0x39 := by
  have hdigit : Json.isDigit c.toNat := Json.isDigit_of_mem_decimal (List.mem_map_of_mem h)
  simpa [Json.isDigit] using hdigit

theorem basic_toString (n : Nat) : Basic (toString n) := by
  apply List.all_eq_true.mpr
  intro c hc
  have hdigit := digit_of_mem hc
  exact decide_eq_true (by omega)

theorem decode_toWString (n : Nat) : decode (toWString n) = decimal n :=
  decode_wide (basic_toString n)

theorem nul_notMem_toWString (n : Nat) : 0 ∉ toWString n := by
  intro h
  obtain ⟨c, hc, hzero⟩ := List.mem_map.mp h
  have hdigit := digit_of_mem hc
  have hnat := toNat_of_basic (toNat_lt_of_basic (basic_toString n) hc)
  rw [hzero] at hnat
  have : (0 : WChar).toNat = 0 := rfl
  omega

theorem length_toWString {n k : Nat} (hk : 0 < k) (h : n < 10 ^ k) : (toWString n).length ≤ k := by
  rw [toWString, wide, List.length_map, Nat.toString_eq_repr, Nat.toList_repr]
  exact (Nat.length_toDigits_le_iff (by decide) hk).mpr h

def field (key : String) (text : Text) : Text := 0x22 :: (codes key ++ 0x22 :: 0x3A :: text)

def objectText (c : Character) : Text :=
  0x7B :: (commas [field "name" (decode (jsonString c.name)),
    field "race" (decode (jsonString c.race)), field "life" (decode (jsonString c.life)),
    field "id" (decimal c.id.toNat), field "x" (decimal c.x.toNat),
    field "y" (decimal c.y.toNat)] ++ [0x7D])

theorem whole_toWString (n : Nat) : Whole (toWString n) := whole_wide (basic_toString n)

theorem decode_jsonObject (c : Character) : decode (jsonObject c) = objectText c := by
  simp only [jsonObject, List.append_assoc]
  rw [whole_wide (by decide), whole_jsonString, whole_wide (by decide), whole_jsonString,
    whole_wide (by decide), whole_jsonString, whole_wide (by decide), whole_toWString,
    whole_wide (by decide), whole_toWString, whole_wide (by decide), whole_toWString]
  simp only [decode_toWString, objectText, field, commas, List.flatMap_cons, List.flatMap_nil,
    List.append_assoc, List.cons_append, List.append_nil]
  rfl

theorem whole_jsonObject (c : Character) : Whole (jsonObject c) := Utf16.whole_snoc _ rfl rfl

theorem spells_objectText (c : Character) : Spells (objectText c) (record c) := by
  have hfield : ∀ {key : String} {text : Text} {v : Json.Value},
      (∀ u ∈ codes key, u ≠ 0x22 ∧ u ≠ 0x5C ∧ 0x20 ≤ u) → Spells text v →
        SpellsField (field key text) (codes key, v) := by
    intro key text v hkey hv
    exact ⟨codes key, text, rfl, Json.Quoted.plain hkey, hv⟩
  have hkeys : (["name", "race", "life", "id", "x", "y"].map codes).Nodup := by decide
  apply Spells.obj
  · exact .cons (hfield (by decide) (spells_jsonString _)) <|
      .cons (hfield (by decide) (spells_jsonString _)) <|
      .cons (hfield (by decide) (spells_jsonString _)) <|
      .cons (hfield (by decide) (Spells.int _)) <| .cons (hfield (by decide) (Spells.int _)) <|
      .cons (hfield (by decide) (Spells.int _)) .nil
  · exact hkeys

theorem nul_notMem_jsonObject (c : Character) : 0 ∉ jsonObject c := by
  simp only [jsonObject, List.mem_append, not_or]
  have hwide : ∀ n, 0 ∉ toWString n := nul_notMem_toWString
  have hstring : ∀ s, 0 ∉ jsonString s := nul_notMem_jsonString
  refine ⟨⟨⟨⟨⟨⟨⟨⟨⟨⟨⟨⟨?_, hstring _⟩, ?_⟩, hstring _⟩, ?_⟩, hstring _⟩, ?_⟩, hwide _⟩, ?_⟩, hwide _⟩,
    ?_⟩, hwide _⟩, ?_⟩ <;> decide

theorem length_jsonObject {c : Character} (h : Printable c) : (jsonObject c).length ≤ 1700 := by
  have hname := length_jsonString c.name
  have hrace := length_jsonString c.race
  have hlife := length_jsonString c.life
  have hid : (toWString c.id.toNat).length ≤ 10 :=
    length_toWString (by decide) (lt_of_lt_of_le c.id.isLt (by decide))
  have hx : (toWString c.x.toNat).length ≤ 4 :=
    length_toWString (by decide) (lt_of_lt_of_le (BitVec.lt_def.mp h.x_lt) (by decide))
  have hy : (toWString c.y.toNat).length ≤ 4 :=
    length_toWString (by decide) (lt_of_lt_of_le (BitVec.lt_def.mp h.y_lt) (by decide))
  have hraces : ∀ race ∈ raceNames, race.length ≤ 7 := by decide
  have hlives : ∀ life ∈ lifeNames, life.length ≤ 3 := by decide
  have hrace' := hraces _ h.race_mem
  have hlife' := hlives _ h.life_mem
  have hname' := h.name_le
  have hkeys : (wide "\x7b\"name\":").length = 8 ∧ (wide ",\"race\":").length = 8 ∧
      (wide ",\"life\":").length = 8 ∧ (wide ",\"id\":").length = 6 ∧
      (wide ",\"x\":").length = 5 ∧ (wide ",\"y\":").length = 5 ∧ (wide "\x7d").length = 1 :=
    ⟨rfl, rfl, rfl, rfl, rfl, rfl, rfl⟩
  obtain ⟨h₁, h₂, h₃, h₄, h₅, h₆, h₇⟩ := hkeys
  simp only [jsonObject, List.length_append, h₁, h₂, h₃, h₄, h₅, h₆, h₇]
  omega

end Entries

section Lists

structure Written (done : List Character) (json : WString) : Prop where
  length_le : json.length ≤ 61701
  nul_notMem : 0 ∉ json
  whole : Whole json
  text : decode json = 0x5B :: commas (done.map objectText)
  grown : json.length > 1 ↔ done ≠ []

theorem written_nil : Written [] (wide "[") :=
  ⟨by decide, by decide, whole_wide (by decide), rfl, by decide⟩

theorem Written.separator {done : List Character} {json : WString} (h : Written done json) :
    ∃ separator, (if json.length > 1 then wide "," else []) = separator ∧ separator.length ≤ 1 ∧
      0 ∉ separator ∧ Whole separator ∧
      decode separator = if done.map objectText = [] then [] else [0x2C] := by
  by_cases hdone : done = []
  · rw [if_neg fun hlong => h.grown.mp hlong hdone, hdone]
    exact ⟨[], rfl, Nat.zero_le 1, List.not_mem_nil, Utf16.whole_nil, rfl⟩
  · rw [if_pos (h.grown.mpr hdone), if_neg (mt List.map_eq_nil_iff.mp hdone)]
    exact ⟨_, rfl, Nat.le_refl 1, by decide, whole_wide (by decide), rfl⟩

theorem appendObject_eq_ok {json json' : WString} {c : Character}
    (h : appendObject json c = .ok json') : json.length ≤ 60000 ∧
      json' = json ++ (if json.length > 1 then wide "," else []) ++ jsonObject c := by
  rw [appendObject] at h
  by_cases hlimit : json.length > 60000
  · rw [if_pos hlimit] at h
    cases h
  · rw [if_neg hlimit] at h
    exact ⟨Nat.le_of_not_lt hlimit, (Except.ok.inj h).symm⟩

theorem Written.append {done : List Character} {json json' : WString} {c : Character}
    (h : Written done json) (hc : Printable c) (happend : appendObject json c = .ok json') :
    Written (done ++ [c]) json' := by
  have hlength := length_jsonObject hc
  have hbrace : jsonObject c ≠ [] := fun hnil =>
    List.cons_ne_nil _ _ ((decode_jsonObject c).symm.trans (congrArg decode hnil))
  have hbracket : json ≠ [] := fun hnil =>
    List.cons_ne_nil _ _ (h.text.symm.trans (congrArg decode hnil))
  obtain ⟨hlimit, rfl⟩ := appendObject_eq_ok happend
  obtain ⟨separator, hseparator, hone, hnul, hwhole, hdecode⟩ := h.separator
  rw [hseparator]
  constructor
  · simp only [List.length_append]
    omega
  · simp only [List.mem_append, not_or]
    exact ⟨⟨h.nul_notMem, hnul⟩, nul_notMem_jsonObject c⟩
  · exact (h.whole.append hwhole).append (whole_jsonObject c)
  · rw [List.append_assoc, h.whole, hwhole, decode_jsonObject, h.text, hdecode, List.map_append,
      List.map_singleton, Json.commas_snoc, List.append_assoc]
    rfl
  · rw [← List.length_pos_iff] at hbrace hbracket
    simp only [List.length_append]
    exact ⟨fun _ => List.append_ne_nil_of_right_ne_nil _ (List.cons_ne_nil _ _), fun _ => by omega⟩

theorem Written.foldlM {done characters : List Character} {json json' : WString}
    (h : Written done json) (hcharacters : ∀ c ∈ characters, Printable c)
    (hrun : characters.foldlM appendObject json = .ok json') :
    Written (done ++ characters) json' := by
  induction characters generalizing done json with
  | nil =>
    obtain rfl := Except.ok.inj hrun
    rwa [List.append_nil]
  | cons c characters ih =>
    rw [List.foldlM_cons] at hrun
    cases happend : appendObject json c with
    | error e =>
      rw [happend] at hrun
      cases hrun
    | ok next =>
      rw [happend] at hrun
      have hnext := h.append (hcharacters c List.mem_cons_self) happend
      have hall := ih hnext (fun d hd => hcharacters d (List.mem_cons_of_mem c hd)) hrun
      rwa [List.append_assoc] at hall

/-- The text fits the buffer, has no terminator inside, and spells the list. -/
theorem jsonList_spells {characters : List Character} {json : WString}
    (hcharacters : ∀ c ∈ characters, Printable c) (h : jsonList characters = .ok json) :
    json.length < 65536 ∧ 0 ∉ json ∧
      Spells (decode json) (.arr (characters.map record)) := by
  obtain ⟨written, hrun, rfl⟩ : ∃ written, characters.foldlM appendObject (wide "[") = .ok written ∧
      json = written ++ wide "]" := by
    rw [jsonList] at h
    cases hrun : characters.foldlM appendObject (wide "[") with
    | error e =>
      rw [hrun] at h
      cases h
    | ok written =>
      rw [hrun] at h
      exact ⟨written, rfl, (Except.ok.inj h).symm⟩
  have hwritten := written_nil.foldlM hcharacters hrun
  refine ⟨?_, ?_, ?_⟩
  · have hlength := hwritten.length_le
    have hbracket : (wide "]").length = 1 := rfl
    rw [List.length_append, hbracket]
    omega
  · rw [List.mem_append, not_or]
    exact ⟨hwritten.nul_notMem, by decide⟩
  · rw [hwritten.whole, hwritten.text]
    apply Spells.arr
    rw [List.nil_append, List.forall₂_map_left_iff, List.forall₂_map_right_iff, List.forall₂_same]
    exact fun c _ => spells_objectText c

end Lists

end DarkEden.ListingText
