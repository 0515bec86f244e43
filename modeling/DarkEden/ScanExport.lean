import DarkEden.ScanFile

namespace DarkEden.PointerScan

open Interaction
open Json (Text codes)

section Source

def plus : Nat := 0x2B

/-- `rsplit("+", 1)` of a text that has a `+`. -/
def rsplitPlus (text : Text) : Text × Text :=
  let after := text.reverse.takeWhile (· ≠ plus)
  ((text.reverse.drop (after.length + 1)).reverse, after.reverse)

variable (repr : Text → Text)

def exportValues (offsets : List Nat) : Text :=
  (codes ", ").intercalate (offsets.map fun o => codes "0x" ++ formatX o 0)

def exportLine (module base : Text) (offsets : List Nat) : Text :=
  codes "  \x7bmodule=" ++ repr module ++ codes ", base=0x" ++ base ++ codes ", offsets=\x7b" ++
    exportValues offsets ++ codes "\x7d\x7d,"

def exportRecord (maxOutputLevel : Int) (record : Text × List Nat) : Option Text :=
  if plus ∉ record.1 ∨ record.2.length > maxOutputLevel then none
  else
    let (module, base) := rsplitPlus record.1
    some (exportLine repr module base record.2)

/-- The lines of the output file; without an argument `max_output_level` is 99. -/
def exportLines (maxOutputLevel : Option Int) (records : List (Text × List Nat)) : List Text :=
  [codes "-- Pointer candidates from the saved Cheat Engine scan.", codes "return \x7b"] ++
    records.filterMap (exportRecord repr (maxOutputLevel.getD 99)) ++ [codes "\x7d"]

end Source

section Split

theorem upperDigit_ne_plus {d : Nat} (hd : d < 16) : upperDigit d ≠ plus := by
  rw [upperDigit, plus]
  by_cases h : d < 10
  · rw [if_pos h]
    omega
  · rw [if_neg h]
    omega

theorem plus_notMem_formatX (n width : Nat) : plus ∉ formatX n width := by
  rw [formatX]
  simp only [List.mem_append, not_or]
  constructor
  · intro h
    exact absurd (List.eq_of_mem_replicate h) (by decide)
  · by_cases hn : n = 0
    · rw [if_pos hn]
      decide
    · rw [if_neg hn, List.mem_map]
      rintro ⟨d, hd, hplus⟩
      exact upperDigit_ne_plus (Nat.digits_lt_base (by decide) (List.mem_reverse.mp hd)) hplus

/-- The last `+` is the one in front of the base, whatever the name of the module is. -/
theorem rsplitPlus_named (name : Text) {base : Text} (h : plus ∉ base) :
    rsplitPlus (name ++ codes "+" ++ base) = (name, base) := by
  have hplus : codes "+" = [plus] := rfl
  have hrest : (name ++ codes "+" ++ base).reverse = base.reverse ++ plus :: name.reverse := by
    rw [hplus]
    simp
  have hafter : (base.reverse ++ plus :: name.reverse).takeWhile (· ≠ plus) = base.reverse := by
    rw [List.takeWhile_append_of_pos]
    · simp
    · intro c hc
      have hmem : c ∈ base := List.mem_reverse.mp hc
      simp only [ne_eq, decide_not, Bool.not_eq_eq_eq_not, Bool.not_true, decide_eq_false_iff_not]
      rintro rfl
      exact h hmem
  have hdrop : (base.reverse ++ plus :: name.reverse).drop (base.reverse.length + 1) =
      name.reverse := by
    rw [← List.drop_drop, List.drop_left, List.drop_one, List.tail_cons]
  simp only [rsplitPlus, hrest, hafter, hdrop, List.reverse_reverse]

end Split

section File

variable (repr : Text → Text) {h : Header} {e : Entry}

/-- The line of an entry that names a module and has no more offsets than are wanted. -/
def Entry.exported (h : Header) (maxOutputLevel : Int) (e : Entry) : Option Text :=
  if e.id = -1 ∨ (h.fixed.length + e.offsets.length : Nat) > maxOutputLevel then none
  else (h.modules[e.id.toNat]?).map fun m => exportLine repr m.1 (formatX e.base 0)
    (h.fixed ++ e.offsets.map fun o => if h.aligned then o * 4 else o)

theorem exportRecord_printed {line : Text × List Nat} (maxOutputLevel : Int)
    (hknown : e.id = -1 ∨ 0 ≤ e.id ∧ e.id < h.modules.length) (hprinted : e.Printed h line) :
    exportRecord repr maxOutputLevel line = e.exported repr h maxOutputLevel := by
  have hlength : line.2.length = h.fixed.length + e.offsets.length := by
    rw [hprinted.offsets, List.length_append, List.length_map]
  rw [exportRecord, Entry.exported, hlength]
  obtain hbare | ⟨hlow, hhigh⟩ := hknown
  · have hplus : plus ∉ line.1 := by
      rw [hprinted.bare hbare]
      exact plus_notMem_formatX _ _
    rw [if_pos (.inl hplus), if_pos (.inl hbare)]
  · have hindex : e.id.toNat < h.modules.length := by omega
    have hline : line.1 = h.modules[e.id.toNat].1 ++ codes "+" ++ formatX e.base 0 :=
      hprinted.named e.id.toNat _ _ (Int.toNat_of_nonneg hlow).symm (List.getElem?_eq_getElem hindex)
    have hplus : plus ∈ line.1 := by
      rw [hline]
      simp [codes, plus]
    have hnamed : e.id ≠ -1 := by omega
    simp only [hplus, hnamed, not_true_eq_false, false_or]
    by_cases hlong : (h.fixed.length + e.offsets.length : Nat) > maxOutputLevel
    · rw [if_pos hlong, if_pos hlong]
    · rw [if_neg hlong, if_neg hlong, hline, rsplitPlus_named _ (plus_notMem_formatX _ _),
        List.getElem?_eq_getElem hindex, hprinted.offsets]
      rfl

/-- What is written for a scan that is laid out: a line for every entry that names a module and has
no more offsets than are wanted, in order, with the module, the base and the offsets of the entry. -/
theorem exportLines_written (L : Layout) (hindex : L.compressed ≠ 0 → L.indexBits ≠ 0)
    (hfixed : L.fixed.length ≤ L.maxLevel) {parts : List (List Entry)}
    (hstorable : ∀ entries ∈ parts, ∀ e ∈ entries, e.Storable L.header)
    (maxOutputLevel : Option Int) (rest : PyBytes) :
    ∃ records, parse (L.bytes ++ rest) (parts.map (writtenPart L.header)) = .ok records ∧
      exportLines repr maxOutputLevel records =
        [codes "-- Pointer candidates from the saved Cheat Engine scan.", codes "return \x7b"] ++
          parts.flatten.filterMap (Entry.exported repr L.header (maxOutputLevel.getD 99)) ++
          [codes "\x7d"] := by
  obtain ⟨records, hparse, hprinted⟩ := parse_laid L hindex hfixed rest hstorable
  refine ⟨records, hparse, ?_⟩
  have hknown : ∀ e ∈ parts.flatten, e.id = -1 ∨ 0 ≤ e.id ∧ e.id < L.header.modules.length := by
    intro e he
    obtain ⟨entries, hentries, he⟩ := List.mem_flatten.mp he
    exact (hstorable entries hentries e he).known
  rw [exportLines]
  congr 2
  clear hparse hstorable
  generalize parts.flatten = entries at hprinted hknown
  induction hprinted with
  | nil => rfl
  | cons hhead _ ih =>
    rw [List.filterMap_cons, List.filterMap_cons,
      exportRecord_printed repr _ (hknown _ (by simp)) hhead,
      ih fun e he => hknown e (by simp [he])]

/-- The entry that belongs to no module is left out. -/
theorem exportLines_written_plain :
    ∃ records, parse (plainLayout.bytes ++ []) (plainParts.map (writtenPart plainLayout.header)) =
        .ok records ∧
      exportLines id none records =
        [codes "-- Pointer candidates from the saved Cheat Engine scan.", codes "return \x7b"] ++
          [exportLine id (codes "darkeden.exe") (formatX 0x9FB03C 0) [0x20C, 0xA8, 4]] ++
          [codes "\x7d"] :=
  exportLines_written id plainLayout (by decide) (by decide) plainParts_storable none []

end File

end DarkEden.PointerScan
