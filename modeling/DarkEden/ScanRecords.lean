import DarkEden.PointerScan

namespace DarkEden.PointerScan

open Interaction ByteMemory Packing
open Json (Text codes)

theorem bits_eq (record : PyBytes) (start width : Nat) :
    bits record start width = field (littleEndian record) start width := by
  rw [bits, field, Nat.one_shiftLeft, Nat.and_two_pow_sub_one_eq_mod]

theorem signedId_eq {width u : Nat} (hwidth : 1 ≤ width) (hu : u < 2 ^ width) :
    signedId width u = .ok (BitVec.ofNat width u).toInt := by
  have hpow : 2 ^ width = 2 * 2 ^ (width - 1) := by
    rw [← Nat.pow_succ', Nat.succ_eq_add_one, Nat.sub_add_cancel hwidth]
  have hbit : u &&& (1 <<< (width - 1)) ≠ 0 ↔ 2 ^ (width - 1) ≤ u := by
    rw [Nat.one_shiftLeft, Nat.and_two_pow, Nat.testBit_eq_decide_div_mod_eq]
    have hpos : 0 < 2 ^ (width - 1) := Nat.two_pow_pos _
    by_cases h : 2 ^ (width - 1) ≤ u
    · have hdiv : u / 2 ^ (width - 1) = 1 :=
        Nat.div_eq_of_lt_le (by omega) (by omega)
      simp [hdiv, h]
    · simp [Nat.div_eq_of_lt (Nat.lt_of_not_le h), h]
  rw [signedId, if_neg (by omega), BitVec.toInt_eq_toNat_cond, BitVec.toNat_ofNat,
    Nat.mod_eq_of_lt hu]
  by_cases h : 2 ^ (width - 1) ≤ u
  · rw [if_pos (hbit.mpr h), if_neg (by omega), Nat.one_shiftLeft]
  · rw [if_neg (fun hb => h (hbit.mp hb)), if_pos (by omega)]

theorem readOffsets_eq (record : PyBytes) (width : Nat) (aligned : Bool) (n bit : Nat) :
    readOffsets record width aligned n bit =
      (List.range n).map fun i => scaled aligned (bits record (bit + width * i) width) := by
  induction n generalizing bit with
  | zero => rfl
  | succ n ih =>
    rw [readOffsets, ih, List.range_succ_eq_map, List.map_cons, List.map_map]
    congr 1
    apply List.map_congr_left
    intro i _
    rw [Function.comp_apply, Nat.mul_succ, Nat.add_comm (width * i), Nat.add_assoc]

section Packed

/-- What is stored in a record: a base, the number of a module or -1, and offsets. -/
structure Entry where
  base : Nat
  id : Int
  offsets : List Nat

structure Entry.Fits (h : Header) (e : Entry) : Prop where
  base_lt : e.base < 2 ^ h.baseBits
  known : e.id = -1 ∨ 0 ≤ e.id ∧ e.id < h.modules.length
  id_low : -2 ^ (h.indexBits - 1) ≤ e.id
  id_high : e.id < 2 ^ (h.indexBits - 1)
  count_le : h.fixed.length + e.offsets.length ≤ h.maxLevel
  count_lt : e.offsets.length < 2 ^ h.levelBits
  offset_lt : ∀ o ∈ e.offsets, o < 2 ^ h.offsetBits

variable {h : Header} {e : Entry}

def Entry.fields (h : Header) (e : Entry) : List (Nat × Nat) :=
  [(h.baseBits, e.base), (h.indexBits, (BitVec.ofInt h.indexBits e.id).toNat),
    (h.levelBits, e.offsets.length)] ++ e.offsets.map fun o => (h.offsetBits, o)

/-- The record of an entry: its fields without gaps, filled up with zeros. -/
def Entry.packed (h : Header) (e : Entry) : PyBytes :=
  (List.range h.entrySize.toNat).map (byteOf (pack (e.fields h)))

/-- What an entry says of its origin, and its offsets behind the fixed ones. -/
def Entry.record (h : Header) (e : Entry) : Record where
  origin := if e.id = -1 then .bare e.base else .named e.id.toNat e.base
  offsets := h.fixed ++ e.offsets.map (scaled h.aligned)

theorem entrySize_eq (hcompressed : h.compressed) (hfixed : h.fixed.length ≤ h.maxLevel) :
    h.entrySize = ((h.baseBits + h.indexBits + h.levelBits +
      h.offsetBits * (h.maxLevel - h.fixed.length) + 7) / 8 : Nat) := by
  rw [Header.entrySize, if_pos hcompressed]
  push_cast [Nat.cast_sub hfixed]
  rfl

theorem width_fields (h : Header) (e : Entry) : ((e.fields h).map Prod.fst).sum =
    h.baseBits + h.indexBits + h.levelBits + h.offsetBits * e.offsets.length := by
  rw [Entry.fields, List.map_append, List.sum_append, width_uniform]
  simp [Nat.add_assoc]

theorem littleEndian_packed (hcompressed : h.compressed) (hfits : e.Fits h) :
    littleEndian (e.packed h) = pack (e.fields h) := by
  have hcount := hfits.count_le
  have hoffsets : h.offsetBits * e.offsets.length ≤ h.offsetBits * (h.maxLevel - h.fixed.length) :=
    Nat.mul_le_mul_left _ (by omega)
  have hroom : ((e.fields h).map Prod.fst).sum ≤ 8 * h.entrySize.toNat := by
    rw [width_fields, entrySize_eq hcompressed (by omega), Int.toNat_natCast]
    omega
  have hlt : pack (e.fields h) < 256 ^ h.entrySize.toNat :=
    calc pack (e.fields h)
        < 2 ^ ((e.fields h).map Prod.fst).sum := pack_lt _
      _ ≤ 2 ^ (8 * h.entrySize.toNat) := Nat.pow_le_pow_right (by decide) hroom
      _ = 256 ^ h.entrySize.toNat := by rw [Nat.pow_mul]
  rw [Entry.packed, littleEndian_byteOf, Nat.mod_eq_of_lt hlt]

theorem readOffsets_packed (hcompressed : h.compressed) (hfits : e.Fits h) :
    readOffsets (e.packed h) h.offsetBits h.aligned e.offsets.length
      (h.baseBits + h.indexBits + h.levelBits) = e.offsets.map (scaled h.aligned) := by
  have hstart : h.baseBits + h.indexBits + h.levelBits = (([(h.baseBits, e.base),
      (h.indexBits, (BitVec.ofInt h.indexBits e.id).toNat),
      (h.levelBits, e.offsets.length)] : List (Nat × Nat)).map Prod.fst).sum := by
    simp [Nat.add_assoc]
  rw [readOffsets_eq]
  apply List.ext_getElem
  · rw [List.length_map, List.length_map, List.length_range]
  · intro i hi hi'
    rw [List.length_map] at hi'
    rw [List.getElem_map, List.getElem_map, List.getElem_range, bits_eq,
      littleEndian_packed hcompressed hfits, hstart, Entry.fields, field_pack_append,
      field_pack_uniform _ _ _ hi', Nat.mod_eq_of_lt (hfits.offset_lt _ (List.getElem_mem hi'))]

theorem decodeRecord_packed (hcompressed : h.compressed) (hindex : 1 ≤ h.indexBits)
    (hfits : e.Fits h) : decodeRecord h (e.packed h) = .ok (e.record h) := by
  have hpacked := littleEndian_packed hcompressed hfits
  have hbase : bits (e.packed h) 0 h.baseBits = e.base := by
    rw [bits_eq, hpacked, Entry.fields, List.cons_append, field_pack_head,
      Nat.mod_eq_of_lt hfits.base_lt]
  have hid : bits (e.packed h) h.baseBits h.indexBits = (BitVec.ofInt h.indexBits e.id).toNat := by
    rw [bits_eq, hpacked, Entry.fields, List.cons_append,
      field_pack_tail _ _ _ _ _ (Nat.le_refl _), Nat.sub_self, List.cons_append, field_pack_head,
      Nat.mod_eq_of_lt (BitVec.isLt _)]
  have hcount : bits (e.packed h) (h.baseBits + h.indexBits) h.levelBits = e.offsets.length := by
    rw [bits_eq, hpacked, Entry.fields, List.cons_append,
      field_pack_tail _ _ _ _ _ (Nat.le_add_right _ _), Nat.add_sub_cancel_left, List.cons_append,
      field_pack_tail _ _ _ _ _ (Nat.le_refl _), Nat.sub_self, List.cons_append, field_pack_head,
      Nat.mod_eq_of_lt hfits.count_lt]
  have hsigned : signedId h.indexBits (BitVec.ofInt h.indexBits e.id).toNat = .ok e.id := by
    rw [signedId_eq hindex (BitVec.isLt _), BitVec.ofNat_toNat, BitVec.setWidth_eq,
      BitVec.toInt_ofInt_eq_self hindex hfits.id_low hfits.id_high]
  have horigin : originOf h.modules e.id e.base = .ok (e.record h).origin := by
    rw [originOf, Entry.record]
    by_cases hbare : e.id = -1
    · rw [if_pos hbare, if_pos hbare]
    · obtain ⟨hlow, hhigh⟩ := hfits.known.resolve_left hbare
      rw [if_neg hbare, if_neg hbare, if_pos hhigh, pyIndex, if_pos ⟨hlow, hhigh⟩]
      rfl
  rw [decodeRecord, if_pos hcompressed, decodeCompressed, hbase, hid, hcount, hsigned]
  change (do
    let origin ← originOf h.modules e.id e.base
    return (⟨origin, _⟩ : Record) : Except PyError Record) = _
  rw [horigin, Nat.add_sub_cancel, readOffsets_packed hcompressed hfits]
  rfl

end Packed

section Slices

theorem cut_flatten {α : Type} {size : Nat} (pieces : List (List α))
    (hsize : ∀ p ∈ pieces, p.length = size) :
    ((List.range pieces.length).map fun i => (pieces.flatten.drop (i * size)).take size) =
      pieces := by
  induction pieces with
  | nil => rfl
  | cons p pieces ih =>
    have hp : p.length = size := hsize p List.mem_cons_self
    rw [List.length_cons, List.range_succ_eq_map, List.map_cons, List.map_map, List.flatten_cons]
    congr 1
    · rw [Nat.zero_mul, List.drop_zero, List.take_left' hp]
    · conv_rhs => rw [← ih fun q hq => hsize q (List.mem_cons_of_mem p hq)]
      apply List.map_congr_left
      intro i _
      rw [Function.comp_apply, Nat.succ_mul, Nat.add_comm, ← List.drop_drop, List.drop_left' hp]

theorem slices_flatten {h : Header} (hpos : 0 < h.entrySize) (pieces : List PyBytes)
    (hsize : ∀ p ∈ pieces, p.length = h.entrySize.toNat) :
    slices h pieces.flatten = pieces := by
  have hlength : (pieces.flatten.length : Int) = pieces.length * h.entrySize := by
    rw [List.length_flatten, List.map_congr_left hsize, List.map_const', List.sum_replicate_nat,
      Nat.cast_mul, Int.toNat_of_nonneg hpos.le]
  have hcount : ((pieces.flatten.length - h.entrySize + 1 + h.entrySize - 1) / h.entrySize).toNat =
      pieces.length := by
    rw [hlength, show (pieces.length * h.entrySize - h.entrySize + 1 + h.entrySize - 1 : Int) =
      pieces.length * h.entrySize by ring, Int.mul_ediv_cancel _ hpos.ne', Int.toNat_natCast]
  rw [slices, pyRange, if_neg (by omega), hcount, List.map_map]
  exact cut_flatten pieces hsize

end Slices

section File

structure Entry.Printed (h : Header) (e : Entry) (line : Text × List Nat) : Prop where
  bare : e.id = -1 → line.1 = formatX e.base 8
  named : ∀ i name base, e.id = (i : Nat) → h.modules[i]? = some (name, base) →
    line.1 = name ++ codes "+" ++ formatX e.base 0
  offsets : line.2 = h.fixed ++ e.offsets.map fun o => if h.aligned then o * 4 else o

theorem printed_record (h : Header) (e : Entry) :
    e.Printed h ((e.record h).origin.text h.modules, (e.record h).offsets) := by
  refine ⟨fun hbare => ?_, fun i name base hid hmodule => ?_, rfl⟩
  · rw [Entry.record, if_pos hbare, Origin.text]
  · rw [Entry.record, if_neg (by omega), hid, Int.toNat_natCast, Origin.text, hmodule]
    rfl

/-- A file of results is the records of its entries one behind the other. -/
def joined (h : Header) (entries : List Entry) : PyBytes :=
  (entries.map (Entry.packed h)).flatten

theorem decodePart_joined {h : Header} (hcompressed : h.compressed) (hindex : 1 ≤ h.indexBits)
    (hfixed : h.fixed.length ≤ h.maxLevel) {entries : List Entry}
    (hfits : ∀ e ∈ entries, e.Fits h) :
    decodePart h (joined h entries) = .ok (entries.map (Entry.record h)) := by
  have hpos : 0 < h.entrySize := by
    rw [entrySize_eq hcompressed hfixed]
    omega
  have hslices : slices h (joined h entries) = entries.map (Entry.packed h) := by
    apply slices_flatten hpos
    intro p hp
    obtain ⟨e, -, rfl⟩ := List.mem_map.mp hp
    rw [Entry.packed, List.length_map, List.length_range]
  rw [decodePart, if_neg hpos.ne', hslices]
  clear hslices
  induction entries with
  | nil => rfl
  | cons e entries ih =>
    rw [List.map_cons, List.mapM_cons,
      decodeRecord_packed hcompressed hindex (hfits e List.mem_cons_self),
      ih fun e' he' => hfits e' (List.mem_cons_of_mem e he')]
    rfl

/-- Entries packed into any number of files are decoded to themselves, in order. -/
theorem decodeParts_joined {h : Header} (hcompressed : h.compressed) (hindex : 1 ≤ h.indexBits)
    (hfixed : h.fixed.length ≤ h.maxLevel) {parts : List (List Entry)}
    (hfits : ∀ entries ∈ parts, ∀ e ∈ entries, e.Fits h) :
    decodeParts h (parts.map (joined h)) = .ok (parts.flatten.map (Entry.record h)) := by
  have hparts : (parts.map (joined h)).mapM (decodePart h) =
      .ok (parts.map (List.map (Entry.record h))) := by
    induction parts with
    | nil => rfl
    | cons entries parts ih =>
      rw [List.map_cons, List.mapM_cons,
        decodePart_joined hcompressed hindex hfixed (hfits entries List.mem_cons_self),
        ih fun es hes => hfits es (List.mem_cons_of_mem entries hes)]
      rfl
  rw [decodeParts, hparts, List.map_flatten]
  rfl

theorem parseRecords_joined {h : Header} (hcompressed : h.compressed) (hindex : 1 ≤ h.indexBits)
    (hfixed : h.fixed.length ≤ h.maxLevel) {parts : List (List Entry)}
    (hfits : ∀ entries ∈ parts, ∀ e ∈ entries, e.Fits h) :
    decodeParts h (parts.map (joined h)) = .ok (parts.flatten.map (Entry.record h)) ∧
      ∃ lines, parseRecords h (parts.map (joined h)) = .ok lines ∧
        List.Forall₂ (Entry.Printed h) parts.flatten lines := by
  have hdecode := decodeParts_joined hcompressed hindex hfixed hfits
  refine ⟨hdecode, _, by rw [parseRecords, hdecode]; rfl, ?_⟩
  rw [List.map_map, List.forall₂_map_right_iff, List.forall₂_same]
  exact fun e _ => printed_record h e

/-- Two modules, numbers of 3 bits for them and one offset that every record has. -/
def twoModules : Header where
  modules := [(codes "game.exe", 0x400000), (codes "nt.dll", 0x10000000)]
  maxLevel := 3
  compressed := true
  aligned := true
  indexBits := 3
  baseBits := 21
  levelBits := 2
  offsetBits := 10
  fixed := [0x1C]

theorem parseRecords_joined_twoModules :
    decodeParts twoModules ([[⟨0x1234, 1, [5, 0x3FF]⟩], [⟨0x1FFFFF, -1, []⟩]].map
        (joined twoModules)) =
      .ok [⟨.named 1 0x1234, [0x1C, 20, 0xFFC]⟩, ⟨.bare 0x1FFFFF, [0x1C]⟩] := by
  have hnamed : (⟨0x1234, 1, [5, 0x3FF]⟩ : Entry).Fits twoModules :=
    ⟨by decide, by decide, by decide, by decide, by decide, by decide, by decide⟩
  have hbare : (⟨0x1FFFFF, -1, []⟩ : Entry).Fits twoModules :=
    ⟨by decide, by decide, by decide, by decide, by decide, by decide, by decide⟩
  refine (parseRecords_joined rfl (by decide) (by decide) ?_).1
  intro entries hentries e he
  simp only [List.mem_cons, List.not_mem_nil, or_false] at hentries
  obtain rfl | rfl := hentries
  · obtain rfl := List.mem_singleton.mp he
    exact hnamed
  · obtain rfl := List.mem_singleton.mp he
    exact hbare

end File

end DarkEden.PointerScan
