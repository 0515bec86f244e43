import DarkEden.ScanRecords
import DarkEden.Interaction.Cursor
import DarkEden.Interaction.Utf8

namespace DarkEden.PointerScan

open Interaction ByteMemory
open Json (Text codes)

section Source

abbrev Reading := Cursor PyError (BitVec 8)

/-- `take` of an unsigned number of `size` bytes. -/
def take (size : Nat) : Reading Nat := fun data pos =>
  if pos + size ≤ data.length then .ok (littleEndian ((data.drop pos).take size), pos + size)
  else .error .structError

def readModule : Reading (Text × Nat) := do
  let size ← take 4
  let name ← Cursor.slice size
  let base ← take 8
  return (Utf8.decode name, base)

def readPacking (modules : List (Text × Nat)) (maxLevel : Nat) : Reading Header := do
  let aligned ← take 1
  let indexBits ← take 1
  let baseBits ← take 1
  let levelBits ← take 1
  let offsetBits ← take 1
  let fixedCount ← take 1
  let fixed ← Cursor.times fixedCount (take 4)
  return ⟨modules, maxLevel, true, aligned ≠ 0, indexBits, baseBits, levelBits, offsetBits, fixed⟩

def readForm (modules : List (Text × Nat)) (maxLevel compressed : Nat) : Reading Header :=
  if compressed ≠ 0 then readPacking modules maxLevel
  else return ⟨modules, maxLevel, false, false, 0, 0, 0, 0, []⟩

def readRange (version : Nat) : Reading Unit :=
  if version ≥ 2 then do
    let baseRange ← take 1
    if baseRange ≠ 0 then do
      let _ ← take 8
      return ()
    else return ()
  else return ()

def readBody (version : Nat) : Reading Header := do
  let moduleCount ← take 4
  let modules ← Cursor.times moduleCount readModule
  let maxLevel ← take 4
  let compressed ← take 1
  let h ← readForm modules maxLevel compressed
  readRange version
  return h

def parseHeader (data : PyBytes) : Except PyError (Nat × Header × Nat) :=
  if data.take 1 ≠ [0xCE] then .error .valueError
  else match data[1]? with
  | none => .error .indexError
  | some version => do
    let (h, pos) ← readBody version.toNat data 2
    return (version.toNat, h, pos)

/-- `parts` are the contents of the files of results, in the order of their names. -/
def parse (data : PyBytes) (parts : List PyBytes) : Except PyError (List (Text × List Nat)) := do
  let (_, h, _) ← parseHeader data
  parseRecords h parts

end Source

section Layout

/-- An unsigned number in `size` bytes. -/
def spell (size v : Nat) : PyBytes := (List.range size).map (byteOf v)

/-- A file as it is laid out: every number with the room that it has, and the names as bytes. -/
structure Layout where
  version : BitVec 8
  modules : List (PyBytes × Nat)
  maxLevel : Nat
  compressed : BitVec 8
  aligned : BitVec 8
  indexBits : BitVec 8
  baseBits : BitVec 8
  levelBits : BitVec 8
  offsetBits : BitVec 8
  fixed : List Nat
  baseRange : BitVec 8
  range : Nat
  modules_lt : modules.length < 2 ^ 32
  names_lt : ∀ m ∈ modules, m.1.length < 2 ^ 32
  bases_lt : ∀ m ∈ modules, m.2 < 2 ^ 64
  maxLevel_lt : maxLevel < 2 ^ 32
  fixed_length : fixed.length < 2 ^ 8
  fixed_lt : ∀ offset ∈ fixed, offset < 2 ^ 32
  range_lt : range < 2 ^ 64

namespace Layout

variable (L : Layout)

def moduleBytes (m : PyBytes × Nat) : PyBytes := spell 4 m.1.length ++ m.1 ++ spell 8 m.2

def packing : PyBytes :=
  [L.aligned, L.indexBits, L.baseBits, L.levelBits, L.offsetBits, BitVec.ofNat 8 L.fixed.length] ++
    L.fixed.flatMap (spell 4)

def rangeEnd (baseRange : BitVec 8) (range : Nat) : PyBytes :=
  if baseRange ≠ 0 then spell 8 range else []

def rangeBytes : PyBytes :=
  if L.version.toNat ≥ 2 then L.baseRange :: rangeEnd L.baseRange L.range else []

def body : PyBytes :=
  spell 4 L.modules.length ++ (L.modules.flatMap moduleBytes ++ (spell 4 L.maxLevel ++
    (L.compressed :: ((if L.compressed ≠ 0 then L.packing else []) ++ L.rangeBytes))))

def bytes : PyBytes := 0xCE :: L.version :: L.body

def header : Header where
  modules := L.modules.map fun m => (Utf8.decode m.1, m.2)
  maxLevel := L.maxLevel
  compressed := L.compressed ≠ 0
  aligned := if L.compressed ≠ 0 then L.aligned ≠ 0 else false
  indexBits := if L.compressed ≠ 0 then L.indexBits.toNat else 0
  baseBits := if L.compressed ≠ 0 then L.baseBits.toNat else 0
  levelBits := if L.compressed ≠ 0 then L.levelBits.toNat else 0
  offsetBits := if L.compressed ≠ 0 then L.offsetBits.toNat else 0
  fixed := if L.compressed ≠ 0 then L.fixed else []

end Layout

end Layout

section Reads

open Cursor (Parses parses_pure)

theorem length_spell (size v : Nat) : (spell size v).length = size := by
  rw [spell, List.length_map, List.length_range]

theorem eq_spell_iff {bytes : PyBytes} {size v : Nat} :
    bytes.length = size ∧ v = littleEndian bytes ↔ v < 256 ^ size ∧ bytes = spell size v := by
  constructor
  · rintro ⟨rfl, rfl⟩
    refine ⟨littleEndian_lt bytes, ?_⟩
    apply List.ext_getElem
    · rw [length_spell]
    · intro i hi hi'
      simp only [spell, List.getElem_map, List.getElem_range]
      rw [byteOf_littleEndian, List.getD_eq_getElem _ _ hi]
  · rintro ⟨hv, rfl⟩
    rw [length_spell, spell, littleEndian_byteOf, Nat.mod_eq_of_lt hv]
    exact ⟨rfl, rfl⟩

theorem take_parses (size : Nat) (hsize : 0 < size) :
    Parses (take size) fun bytes v => v < 256 ^ size ∧ bytes = spell size v := by
  intro data pos v pos'
  rw [take]
  constructor
  · intro h
    by_cases hlong : pos + size ≤ data.length
    · rw [if_pos hlong] at h
      cases h
      have hlength : ((data.drop pos).take size).length = size := by
        rw [List.length_take, List.length_drop]
        omega
      refine ⟨_, _, (List.take_append_drop size (data.drop pos)).symm, ?_, by rw [hlength]⟩
      exact eq_spell_iff.mp ⟨hlength, rfl⟩
    · rw [if_neg hlong] at h
      cases h
  · rintro ⟨bytes, rest, hbytes, hspell, rfl⟩
    obtain ⟨rfl, rfl⟩ := eq_spell_iff.mpr hspell
    have hlength := congrArg List.length hbytes
    rw [List.length_drop, List.length_append] at hlength
    rw [if_pos (by omega), hbytes, List.take_left]

theorem takeByte_parses : Parses (take 1) fun bytes v => ∃ b : BitVec 8, bytes = [b] ∧ v = b.toNat := by
  refine (take_parses 1 Nat.one_pos).congr fun bytes v => ?_
  rw [← eq_spell_iff, List.length_eq_one_iff]
  constructor
  · rintro ⟨⟨b, rfl⟩, rfl⟩
    exact ⟨b, rfl, by simp [littleEndian]⟩
  · rintro ⟨b, rfl, rfl⟩
    exact ⟨⟨b, rfl⟩, by simp [littleEndian]⟩

theorem readModule_parses : Parses readModule fun bytes m =>
    ∃ stored : PyBytes × Nat, (stored.1.length < 2 ^ 32 ∧ stored.2 < 2 ^ 64) ∧
      bytes = Layout.moduleBytes stored ∧ m = (Utf8.decode stored.1, stored.2) := by
  have hname : ∀ size, Parses (do
      let name ← Cursor.slice size
      let base ← take 8
      return (Utf8.decode name, base) : Reading (Text × Nat)) _ := fun size =>
    Cursor.parses_slice_bind size (fun name => (take_parses 8 (by decide)).bind fun base =>
      parses_pure (Utf8.decode name, base)) (by
        rintro name bytes m ⟨first, second, base, rfl, ⟨-, rfl⟩, -⟩ hnil
        have := congrArg List.length hnil
        simp [length_spell] at this)
  refine ((take_parses 4 (by decide)).bind hname).congr fun bytes m => ?_
  constructor
  · rintro ⟨_, _, size, rfl, ⟨hsize, rfl⟩, name, _, rfl, rfl, _, _, base, rfl, ⟨hbase, rfl⟩, rfl, rfl⟩
    exact ⟨(name, base), ⟨hsize, hbase⟩, by simp [Layout.moduleBytes], rfl⟩
  · rintro ⟨⟨name, base⟩, ⟨hname, hbase⟩, rfl, rfl⟩
    refine ⟨spell 4 name.length, name ++ spell 8 base, name.length, by simp [Layout.moduleBytes],
      ⟨hname, rfl⟩, name, spell 8 base, rfl, rfl, spell 8 base, [], base, by simp, ⟨hbase, rfl⟩,
      rfl, rfl⟩

theorem readFixed_parses (n : Nat) : Parses (Cursor.times n (take 4)) fun bytes fixed =>
    fixed.length = n ∧ (∀ o ∈ fixed, o < 2 ^ 32) ∧ bytes = fixed.flatMap (spell 4) := by
  have htake : Parses (take 4) fun bytes v => ∃ o : Nat, o < 2 ^ 32 ∧ bytes = spell 4 o ∧ v = id o := by
    refine (take_parses 4 (by decide)).congr fun bytes v => ?_
    constructor
    · exact fun h => ⟨v, h.1, h.2, rfl⟩
    · rintro ⟨o, ho, hbytes, rfl⟩
      exact ⟨ho, hbytes⟩
  refine (htake.times_items n).congr fun bytes fixed => ?_
  constructor
  · rintro ⟨items, hlength, hlt, hbytes, rfl⟩
    rw [List.map_id]
    exact ⟨hlength, hlt, hbytes⟩
  · rintro ⟨hlength, hlt, hbytes⟩
    exact ⟨fixed, hlength, hlt, hbytes, (List.map_id _).symm⟩

variable (modules : List (Text × Nat)) (maxLevel : Nat)

def PackingBytes (bytes : PyBytes) (h : Header) : Prop :=
  ∃ (aligned indexBits baseBits levelBits offsetBits : BitVec 8) (fixed : List Nat),
    fixed.length < 2 ^ 8 ∧ (∀ o ∈ fixed, o < 2 ^ 32) ∧
    bytes = [aligned, indexBits, baseBits, levelBits, offsetBits, BitVec.ofNat 8 fixed.length] ++
      fixed.flatMap (spell 4) ∧
    h = ⟨modules, maxLevel, true, aligned ≠ 0, indexBits.toNat, baseBits.toNat, levelBits.toNat,
      offsetBits.toNat, fixed⟩

theorem readPacking_parses : Parses (readPacking modules maxLevel) (PackingBytes modules maxLevel) := by
  refine (takeByte_parses.bind fun aligned => takeByte_parses.bind fun indexBits =>
    takeByte_parses.bind fun baseBits => takeByte_parses.bind fun levelBits =>
    takeByte_parses.bind fun offsetBits => takeByte_parses.bind fun fixedCount =>
    (readFixed_parses fixedCount).bind fun fixed => parses_pure _).congr fun bytes h => ?_
  constructor
  · rintro ⟨_, _, _, rfl, ⟨aligned, rfl, rfl⟩, _, _, _, rfl, ⟨indexBits, rfl, rfl⟩,
      _, _, _, rfl, ⟨baseBits, rfl, rfl⟩, _, _, _, rfl, ⟨levelBits, rfl, rfl⟩,
      _, _, _, rfl, ⟨offsetBits, rfl, rfl⟩, _, _, _, rfl, ⟨fixedCount, rfl, rfl⟩,
      _, _, fixed, rfl, ⟨hlength, hlt, rfl⟩, rfl, rfl⟩
    refine ⟨aligned, indexBits, baseBits, levelBits, offsetBits, fixed, ?_, hlt, ?_, ?_⟩
    · rw [hlength]
      exact fixedCount.isLt
    · simp [hlength]
    · simp [← BitVec.toNat_inj]
  · rintro ⟨aligned, indexBits, baseBits, levelBits, offsetBits, fixed, hlength, hlt, rfl, rfl⟩
    have hcount : fixed.length = (BitVec.ofNat 8 fixed.length).toNat := by
      rw [BitVec.toNat_ofNat, Nat.mod_eq_of_lt hlength]
    refine ⟨[aligned], _, _, rfl, ⟨aligned, rfl, rfl⟩, [indexBits], _, _, rfl, ⟨indexBits, rfl, rfl⟩,
      [baseBits], _, _, rfl, ⟨baseBits, rfl, rfl⟩, [levelBits], _, _, rfl, ⟨levelBits, rfl, rfl⟩,
      [offsetBits], _, _, rfl, ⟨offsetBits, rfl, rfl⟩, [BitVec.ofNat 8 fixed.length], _, _, rfl,
      ⟨_, rfl, rfl⟩, _, [], fixed, (List.append_nil _).symm, ⟨hcount, hlt, rfl⟩, rfl, ?_⟩
    simp [← BitVec.toNat_inj]

theorem toNat_ne_zero {b : BitVec 8} : b.toNat ≠ 0 ↔ b ≠ 0 := by simp [← BitVec.toNat_inj]

theorem readForm_parses (compressed : Nat) : Parses (readForm modules maxLevel compressed)
    fun bytes h => if compressed ≠ 0 then PackingBytes modules maxLevel bytes h
      else bytes = [] ∧ h = ⟨modules, maxLevel, false, false, 0, 0, 0, 0, []⟩ :=
  Parses.ite (fun _ => readPacking_parses modules maxLevel) fun _ => parses_pure _

theorem readRange_parses (version : Nat) : Parses (readRange version) fun bytes _ =>
    if version ≥ 2 then ∃ (baseRange : BitVec 8) (range : Nat), range < 2 ^ 64 ∧
      bytes = baseRange :: Layout.rangeEnd baseRange range
    else bytes = [] := by
  refine (Parses.ite (fun _ => takeByte_parses.bind fun baseRange => Parses.ite
    (fun _ => (take_parses 8 (by decide)).bind fun _ => parses_pure ())
    (fun _ => parses_pure ())) (fun _ => parses_pure ())).congr fun bytes _ => ?_
  by_cases hversion : version ≥ 2
  · rw [if_pos hversion, if_pos hversion]
    constructor
    · rintro ⟨_, second, _, rfl, ⟨baseRange, rfl, rfl⟩, hsecond⟩
      by_cases hb : baseRange ≠ 0
      · rw [if_pos (toNat_ne_zero.mpr hb)] at hsecond
        obtain ⟨_, _, range, rfl, ⟨hrange, rfl⟩, rfl, -⟩ := hsecond
        refine ⟨baseRange, range, hrange, ?_⟩
        rw [Layout.rangeEnd, if_pos hb, List.append_nil]
        rfl
      · rw [if_neg (mt toNat_ne_zero.mp hb)] at hsecond
        refine ⟨baseRange, 0, by decide, ?_⟩
        rw [Layout.rangeEnd, if_neg hb, hsecond.1]
        rfl
    · rintro ⟨baseRange, range, hrange, rfl⟩
      refine ⟨[baseRange], Layout.rangeEnd baseRange range, _, rfl, ⟨baseRange, rfl, rfl⟩, ?_⟩
      by_cases hb : baseRange ≠ 0
      · rw [if_pos (toNat_ne_zero.mpr hb), Layout.rangeEnd, if_pos hb]
        exact ⟨spell 8 range, [], range, (List.append_nil _).symm, ⟨hrange, rfl⟩, rfl, rfl⟩
      · rw [if_neg (mt toNat_ne_zero.mp hb), Layout.rangeEnd, if_neg hb]
        exact ⟨rfl, rfl⟩
  · rw [if_neg hversion, if_neg hversion, and_iff_left rfl]

variable {modules maxLevel} {bytes : PyBytes} {h : Header}

theorem form_iff {compressed : BitVec 8} :
    (if compressed.toNat ≠ 0 then PackingBytes modules maxLevel bytes h
      else bytes = [] ∧ h = ⟨modules, maxLevel, false, false, 0, 0, 0, 0, []⟩) ↔
    ∃ (aligned indexBits baseBits levelBits offsetBits : BitVec 8) (fixed : List Nat),
      fixed.length < 2 ^ 8 ∧ (∀ o ∈ fixed, o < 2 ^ 32) ∧
      bytes = (if compressed ≠ 0 then [aligned, indexBits, baseBits, levelBits, offsetBits,
        BitVec.ofNat 8 fixed.length] ++ fixed.flatMap (spell 4) else []) ∧
      h = ⟨modules, maxLevel, compressed ≠ 0, if compressed ≠ 0 then aligned ≠ 0 else false,
        if compressed ≠ 0 then indexBits.toNat else 0, if compressed ≠ 0 then baseBits.toNat else 0,
        if compressed ≠ 0 then levelBits.toNat else 0, if compressed ≠ 0 then offsetBits.toNat else 0,
        if compressed ≠ 0 then fixed else []⟩ := by
  by_cases hc : compressed ≠ 0
  · have htrue : decide (compressed ≠ 0) = true := decide_eq_true hc
    rw [if_pos (toNat_ne_zero.mpr hc), PackingBytes]
    simp only [if_pos hc, htrue]
  · have hfalse : decide (compressed ≠ 0) = false := decide_eq_false hc
    rw [if_neg (mt toNat_ne_zero.mp hc)]
    simp only [if_neg hc, hfalse]
    constructor
    · rintro ⟨rfl, rfl⟩
      exact ⟨0, 0, 0, 0, 0, [], by decide, by simp, rfl, rfl⟩
    · rintro ⟨_, _, _, _, _, _, -, -, rfl, rfl⟩
      exact ⟨rfl, rfl⟩

theorem range_iff {version : BitVec 8} :
    (if version.toNat ≥ 2 then ∃ (baseRange : BitVec 8) (range : Nat), range < 2 ^ 64 ∧
      bytes = baseRange :: Layout.rangeEnd baseRange range
    else bytes = []) ↔ ∃ (baseRange : BitVec 8) (range : Nat), range < 2 ^ 64 ∧
      bytes = if version.toNat ≥ 2 then baseRange :: Layout.rangeEnd baseRange range else [] := by
  by_cases hv : version.toNat ≥ 2
  · simp only [if_pos hv]
  · simp only [if_neg hv]
    constructor
    · exact fun h => ⟨0, 0, by decide, h⟩
    · rintro ⟨_, _, -, h⟩
      exact h

theorem readBody_parses (version : BitVec 8) : Parses (readBody version.toNat) fun bytes h =>
    ∃ L : Layout, L.version = version ∧ bytes = L.body ∧ h = L.header := by
  refine ((take_parses 4 (by decide)).bind fun moduleCount =>
    (readModule_parses.times_items moduleCount).bind fun modules =>
    (take_parses 4 (by decide)).bind fun maxLevel => takeByte_parses.bind fun compressed =>
    (readForm_parses modules maxLevel compressed).bind fun h => (readRange_parses version.toNat).bind
    fun _ => parses_pure h).congr fun bytes h => ?_
  constructor
  · rintro ⟨_, _, _, rfl, ⟨hmodules, rfl⟩, _, _, _, rfl, ⟨modules, rfl, hstored, rfl, rfl⟩,
      _, _, maxLevel, rfl, ⟨hlevel, rfl⟩, _, _, _, rfl, ⟨compressed, rfl, rfl⟩, form, _, h', rfl, hform,
      range, _, _, rfl, hrange, rfl, rfl⟩
    obtain ⟨a, i, b, l, o, fixed, hlength, hlt, rfl, rfl⟩ := form_iff.mp hform
    obtain ⟨baseRange, last, hlast, rfl⟩ := range_iff.mp hrange
    refine ⟨⟨version, modules, maxLevel, compressed, a, i, b, l, o, fixed, baseRange, last, hmodules,
      fun m hm => (hstored m hm).1, fun m hm => (hstored m hm).2, hlevel, hlength, hlt, hlast⟩, rfl,
      ?_, rfl⟩
    simp [Layout.body, Layout.packing, Layout.rangeBytes]
  · rintro ⟨L, rfl, rfl, rfl⟩
    refine ⟨_, _, L.modules.length, rfl, ⟨L.modules_lt, rfl⟩, _, _, _, rfl,
      ⟨L.modules, rfl, fun m hm => ⟨L.names_lt m hm, L.bases_lt m hm⟩, rfl, rfl⟩, _, _, L.maxLevel, rfl,
      ⟨L.maxLevel_lt, rfl⟩, [L.compressed], _, _, rfl, ⟨L.compressed, rfl, rfl⟩, _, _, L.header, rfl, ?_,
      L.rangeBytes, [], (), (List.append_nil _).symm, ?_, rfl, rfl⟩
    · exact form_iff.mpr ⟨_, _, _, _, _, L.fixed, L.fixed_length, L.fixed_lt, rfl, rfl⟩
    · exact range_iff.mpr ⟨L.baseRange, L.range, L.range_lt, rfl⟩

/-- A file is accepted exactly if it starts with a layout, and what is read is what it lays out. -/
theorem parseHeader_iff {data : PyBytes} {version pos : Nat} :
    parseHeader data = .ok (version, h, pos) ↔ ∃ L : Layout, L.bytes <+: data ∧
      version = L.version.toNat ∧ h = L.header ∧ pos = L.bytes.length := by
  constructor
  · intro hparse
    rw [parseHeader] at hparse
    by_cases hmark : data.take 1 ≠ [0xCE]
    · rw [if_pos hmark] at hparse
      cases hparse
    rw [if_neg hmark] at hparse
    match data with
    | [] => cases hparse
    | [_] => cases hparse
    | mark :: v :: rest =>
      obtain rfl : mark = 0xCE := by simpa using hmark
      change (readBody v.toNat (0xCE :: v :: rest) 2 >>= fun r => _) = _ at hparse
      cases hbody : readBody v.toNat (0xCE :: v :: rest) 2 with
      | error e =>
        rw [hbody] at hparse
        cases hparse
      | ok r =>
        obtain ⟨h', pos'⟩ := r
        rw [hbody] at hparse
        cases hparse
        obtain ⟨bytes, rest', hrest, ⟨L, rfl, rfl, rfl⟩, rfl⟩ := (readBody_parses v _ 2 _ _).mp hbody
        refine ⟨L, ⟨rest', ?_⟩, rfl, rfl, ?_⟩
        · rw [Layout.bytes, List.cons_append, List.cons_append, ← hrest]
          rfl
        · simp only [Layout.bytes, List.length_cons]
          omega
  · rintro ⟨L, ⟨rest, rfl⟩, rfl, rfl, rfl⟩
    have hbody : readBody L.version.toNat (L.bytes ++ rest) 2 = .ok (L.header, L.bytes.length) := by
      refine (readBody_parses L.version _ 2 _ _).mpr ⟨L.body, rest, rfl, ⟨L, rfl, rfl, rfl⟩, ?_⟩
      simp only [Layout.bytes, List.length_cons]
      omega
    change (readBody L.version.toNat (L.bytes ++ rest) 2 >>= fun r => _) = _
    rw [hbody]
    rfl

end Reads

section Records

variable {h : Header} {e : Entry}

structure Entry.FitsPlain (h : Header) (e : Entry) : Prop where
  base_lt : e.base < 2 ^ 64
  known : e.id = -1 ∨ 0 ≤ e.id ∧ e.id < h.modules.length
  id_lt : e.id < 2 ^ 32 - 1
  count_le : e.offsets.length ≤ h.maxLevel
  count_lt : e.offsets.length < 2 ^ 32
  offset_lt : ∀ o ∈ e.offsets, o < 2 ^ 32

/-- The record of an entry in the uncompressed form, filled up with zeros. -/
def Entry.plain (h : Header) (e : Entry) : PyBytes :=
  spell 4 (if e.id = -1 then 0xFFFFFFFF else e.id.toNat) ++ (spell 8 e.base ++
    (spell 4 e.offsets.length ++ (e.offsets.flatMap (spell 4) ++
      List.replicate (4 * (h.maxLevel - e.offsets.length)) 0)))

theorem littleEndian_spell {size v : Nat} (hv : v < 256 ^ size) : littleEndian (spell size v) = v := by
  rw [spell, littleEndian_byteOf, Nat.mod_eq_of_lt hv]

theorem unpackInt_spell (before : PyBytes) {rest : PyBytes} {size v : Nat} (hv : v < 256 ^ size) :
    unpackInt (before ++ (spell size v ++ rest)) before.length size = v := by
  rw [unpackInt, List.drop_left, List.take_left' (length_spell size v), littleEndian_spell hv]

theorem length_flatMap_spell (size : Nat) (vs : List Nat) :
    (vs.flatMap (spell size)).length = size * vs.length := by
  induction vs with
  | nil => rfl
  | cons v vs ih =>
    rw [List.flatMap_cons, List.length_append, ih, length_spell, List.length_cons, Nat.mul_succ,
      Nat.add_comm]

/-- A table of numbers is read back by its index. -/
theorem unpackInt_table {before rest : PyBytes} {size : Nat} {vs : List Nat}
    (hvs : ∀ v ∈ vs, v < 256 ^ size) :
    (List.range vs.length).map (fun i =>
      unpackInt (before ++ (vs.flatMap (spell size) ++ rest)) (before.length + size * i) size) = vs := by
  induction vs generalizing before with
  | nil => rfl
  | cons v vs ih =>
    rw [List.length_cons, List.range_succ_eq_map, List.map_cons, List.map_map, List.flatMap_cons]
    congr 1
    · rw [Nat.mul_zero, Nat.add_zero, List.append_assoc]
      exact unpackInt_spell _ (hvs v (by simp))
    · have htail := @ih (before ++ spell size v) fun w hw => hvs w (by simp [hw])
      rw [List.length_append, length_spell] at htail
      conv_rhs => rw [← htail]
      apply List.map_congr_left
      intro i _
      rw [Function.comp_apply, List.append_assoc, List.append_assoc, Nat.mul_succ,
        Nat.add_comm (size * i), Nat.add_assoc]

theorem length_plain (hfits : e.FitsPlain h) : (e.plain h).length = 16 + 4 * h.maxLevel := by
  have hcount := hfits.count_le
  rw [Entry.plain]
  simp only [List.length_append, length_spell, length_flatMap_spell, List.length_replicate]
  omega

theorem originOf_entry (hknown : e.id = -1 ∨ 0 ≤ e.id ∧ e.id < h.modules.length) :
    originOf h.modules e.id e.base = .ok (e.record h).origin := by
  rw [originOf, Entry.record]
  by_cases hbare : e.id = -1
  · rw [if_pos hbare, if_pos hbare]
  · obtain ⟨hlow, hhigh⟩ := hknown.resolve_left hbare
    rw [if_neg hbare, if_neg hbare, if_pos hhigh, pyIndex, if_pos ⟨hlow, hhigh⟩]
    rfl

theorem signed_stored {n : Nat} {id : Int} (hknown : id = -1 ∨ 0 ≤ id ∧ id < n)
    (hlt : id < 2 ^ 32 - 1) :
    (if (if id = -1 then 0xFFFFFFFF else id.toNat) = 0xFFFFFFFF then -1
      else ((if id = -1 then 0xFFFFFFFF else id.toNat : Nat) : Int)) = id := by
  by_cases hbare : id = -1
  · rw [if_pos hbare, if_pos rfl, hbare]
  · have hlow := (hknown.resolve_left hbare).1
    rw [if_neg hbare, if_neg (by omega), Int.toNat_of_nonneg hlow]

theorem decodeRecord_plain (hplain : h.compressed = false) (hfixed : h.fixed = [])
    (haligned : h.aligned = false) (hfits : e.FitsPlain h) :
    decodeRecord h (e.plain h) = .ok (e.record h) := by
  have hid := hfits.id_lt
  have hcount := hfits.count_le
  let stored := if e.id = -1 then 0xFFFFFFFF else e.id.toNat
  have hstored : stored < 256 ^ 4 := by
    change (if e.id = -1 then 0xFFFFFFFF else e.id.toNat) < _
    by_cases hbare : e.id = -1
    · rw [if_pos hbare]
      decide
    · rw [if_neg hbare]
      omega
  have hunpackId : unpackInt (e.plain h) 0 4 = stored := unpackInt_spell [] hstored
  have hunpackBase : unpackInt (e.plain h) 4 8 = e.base :=
    unpackInt_spell (spell 4 stored) hfits.base_lt
  have hunpackCount : unpackInt (e.plain h) 12 4 = e.offsets.length := by
    have hsplit : e.plain h = (spell 4 stored ++ spell 8 e.base) ++ (spell 4 e.offsets.length ++
        (e.offsets.flatMap (spell 4) ++ List.replicate (4 * (h.maxLevel - e.offsets.length)) 0)) := by
      rw [Entry.plain, List.append_assoc]
    rw [hsplit]
    exact unpackInt_spell _ hfits.count_lt
  have hunpackOffsets : (List.range e.offsets.length).map
      (fun i => unpackInt (e.plain h) (16 + 4 * i) 4) = e.offsets := by
    have hsplit : e.plain h = (spell 4 stored ++ spell 8 e.base ++ spell 4 e.offsets.length) ++
        (e.offsets.flatMap (spell 4) ++
          List.replicate (4 * (h.maxLevel - e.offsets.length)) 0) := by
      simp only [Entry.plain, List.append_assoc]
      rfl
    rw [hsplit]
    exact unpackInt_table hfits.offset_lt
  have hlength := length_plain hfits
  have horigin := originOf_entry hfits.known
  rw [decodeRecord, if_neg (by simp [hplain]), decodeUncompressed, if_neg (by omega)]
  simp only [hunpackId, hunpackBase, hunpackCount, hunpackOffsets]
  rw [if_neg (by omega), signed_stored hfits.known hid]
  change (do
    let origin ← originOf h.modules e.id e.base
    return (⟨origin, _⟩ : Record) : Except PyError Record) = _
  have hscaled : e.offsets.map (scaled false) = e.offsets :=
    (List.map_congr_left fun _ _ => rfl).trans (List.map_id _)
  rw [horigin, Entry.record, hfixed, haligned, hscaled]
  rfl

end Records

section File

variable {h : Header}

def Entry.written (h : Header) (e : Entry) : PyBytes := if h.compressed then e.packed h else e.plain h

def Entry.Storable (h : Header) (e : Entry) : Prop :=
  if h.compressed then e.Fits h else e.FitsPlain h

/-- Compressed records have at least a bit for the module, and room for the fixed offsets; the
uncompressed form has neither fixed offsets nor alignment. -/
structure Usable (h : Header) : Prop where
  index : h.compressed → 1 ≤ h.indexBits
  fixed : h.compressed → h.fixed.length ≤ h.maxLevel
  plain : h.compressed = false → h.fixed = [] ∧ h.aligned = false

theorem entrySize_pos (h : Header) (hfixed : h.compressed → h.fixed.length ≤ h.maxLevel)
    (hindex : h.compressed → 1 ≤ h.indexBits) : 0 < h.entrySize := by
  by_cases hc : h.compressed
  · have := hindex hc
    rw [entrySize_eq hc (hfixed hc)]
    omega
  · rw [Header.entrySize, if_neg hc]
    omega

theorem Entry.Storable.known {e : Entry} (h' : e.Storable h) :
    e.id = -1 ∨ 0 ≤ e.id ∧ e.id < h.modules.length := by
  rw [Entry.Storable] at h'
  by_cases hc : h.compressed
  · rw [if_pos hc] at h'
    exact h'.known
  · rw [if_neg hc] at h'
    exact h'.known

theorem length_written {e : Entry} (hstorable : e.Storable h) :
    (e.written h).length = h.entrySize.toNat := by
  rw [Entry.written]
  rw [Entry.Storable] at hstorable
  by_cases hc : h.compressed
  · rw [if_pos hc, Entry.packed, List.length_map, List.length_range]
  · rw [if_neg hc] at hstorable ⊢
    rw [length_plain hstorable, Header.entrySize, if_neg hc]
    omega

theorem decodeRecord_written (husable : Usable h) {e : Entry} (hstorable : e.Storable h) :
    decodeRecord h (e.written h) = .ok (e.record h) := by
  rw [Entry.written]
  rw [Entry.Storable] at hstorable
  by_cases hc : h.compressed
  · rw [if_pos hc] at hstorable ⊢
    exact decodeRecord_packed hc (husable.index hc) hstorable
  · rw [if_neg hc] at hstorable ⊢
    have hplain : h.compressed = false := by simpa using hc
    obtain ⟨hfixed, haligned⟩ := husable.plain hplain
    exact decodeRecord_plain hplain hfixed haligned hstorable

theorem mapM_ok {α β γ : Type} {f : β → Except PyError γ} {g : α → β} {r : α → γ} {items : List α}
    (hf : ∀ a ∈ items, f (g a) = .ok (r a)) : (items.map g).mapM f = .ok (items.map r) := by
  induction items with
  | nil => rfl
  | cons a items ih =>
    rw [List.map_cons, List.mapM_cons, hf a (by simp), ih fun b hb => hf b (by simp [hb])]
    rfl

def writtenPart (h : Header) (entries : List Entry) : PyBytes :=
  (entries.map (Entry.written h)).flatten

theorem decodePart_written (husable : Usable h) {entries : List Entry}
    (hstorable : ∀ e ∈ entries, e.Storable h) :
    decodePart h (writtenPart h entries) = .ok (entries.map (Entry.record h)) := by
  have hpos := entrySize_pos h husable.fixed husable.index
  have hslices : slices h (writtenPart h entries) = entries.map (Entry.written h) := by
    apply slices_flatten hpos
    intro p hp
    obtain ⟨e, he, rfl⟩ := List.mem_map.mp hp
    exact length_written (hstorable e he)
  rw [decodePart, if_neg hpos.ne', hslices]
  exact mapM_ok fun e he => decodeRecord_written husable (hstorable e he)

theorem Layout.usable (L : Layout) (hindex : L.compressed ≠ 0 → L.indexBits ≠ 0)
    (hfixed : L.fixed.length ≤ L.maxLevel) : Usable L.header where
  index hc := by
    have hcompressed : L.compressed ≠ 0 := of_decide_eq_true hc
    have hbits := toNat_ne_zero.mpr (hindex hcompressed)
    simp only [Layout.header, if_pos hcompressed]
    omega
  fixed hc := by
    have hcompressed : L.compressed ≠ 0 := of_decide_eq_true hc
    simpa only [Layout.header, if_pos hcompressed]
  plain hc := by
    have hcompressed : ¬L.compressed ≠ 0 := of_decide_eq_false hc
    simp only [Layout.header, if_neg hcompressed, and_self]

theorem Layout.header_modules (L : Layout) {modules : List (Text × Nat)}
    (hmodules : L.modules = modules.map fun m => (Utf8.encode m.1, m.2))
    (hscalar : ∀ m ∈ modules, ∀ c ∈ m.1, Utf8.Scalar c) : L.header.modules = modules := by
  change L.modules.map (fun m => (Utf8.decode m.1, m.2)) = modules
  rw [hmodules, List.map_map]
  conv_rhs => rw [← List.map_id modules]
  apply List.map_congr_left
  intro m hm
  rw [Function.comp_apply, Utf8.decode_encode (hscalar m hm)]
  rfl

theorem parse_laid (L : Layout) (hindex : L.compressed ≠ 0 → L.indexBits ≠ 0)
    (hfixed : L.fixed.length ≤ L.maxLevel) (rest : PyBytes) {parts : List (List Entry)}
    (hstorable : ∀ entries ∈ parts, ∀ e ∈ entries, e.Storable L.header) :
    ∃ lines, parse (L.bytes ++ rest) (parts.map (writtenPart L.header)) = .ok lines ∧
      List.Forall₂ (Entry.Printed L.header) parts.flatten lines := by
  have husable := L.usable hindex hfixed
  have hheader : parseHeader (L.bytes ++ rest) = .ok (L.version.toNat, L.header, L.bytes.length) :=
    parseHeader_iff.mpr ⟨L, List.prefix_append _ _, rfl, rfl, rfl⟩
  have hparts : (parts.map (writtenPart L.header)).mapM (decodePart L.header) =
      .ok (parts.map (List.map (Entry.record L.header))) :=
    mapM_ok fun entries hentries => decodePart_written husable (hstorable entries hentries)
  have hrecords : decodeParts L.header (parts.map (writtenPart L.header)) =
      .ok (parts.flatten.map (Entry.record L.header)) := by
    rw [decodeParts, hparts, List.map_flatten]
    rfl
  have hlines : parse (L.bytes ++ rest) (parts.map (writtenPart L.header)) = .ok
      ((parts.flatten.map (Entry.record L.header)).map
        fun r => (r.origin.text L.header.modules, r.offsets)) := by
    rw [parse, hheader]
    change parseRecords _ _ = _
    rw [parseRecords, hrecords]
    rfl
  refine ⟨_, hlines, ?_⟩
  rw [List.map_map, List.forall₂_map_right_iff, List.forall₂_same]
  exact fun e _ => printed_record L.header e

/-- A scan that is laid out, in either form, with entries in any number of files, is read back:
one line for every entry, in order, with the names of the modules. -/
theorem parse_written (L : Layout) {modules : List (Text × Nat)}
    (hmodules : L.modules = modules.map fun m => (Utf8.encode m.1, m.2))
    (hscalar : ∀ m ∈ modules, ∀ c ∈ m.1, Utf8.Scalar c)
    (hindex : L.compressed ≠ 0 → L.indexBits ≠ 0) (hfixed : L.fixed.length ≤ L.maxLevel)
    (rest : PyBytes) {parts : List (List Entry)}
    (hstorable : ∀ entries ∈ parts, ∀ e ∈ entries, e.Storable L.header) :
    L.header.modules = modules ∧
      ∃ lines, parse (L.bytes ++ rest) (parts.map (writtenPart L.header)) = .ok lines ∧
        List.Forall₂ (Entry.Printed L.header) parts.flatten lines :=
  ⟨L.header_modules hmodules hscalar, parse_laid L hindex hfixed rest hstorable⟩

/-- An uncompressed scan with two modules and paths of up to three offsets. -/
def plainLayout : Layout where
  version := 2
  modules := [(Utf8.encode (codes "darkeden.exe"), 0x400000), (Utf8.encode [0xAC00], 0x10000000)]
  maxLevel := 3
  compressed := 0
  aligned := 0
  indexBits := 0
  baseBits := 0
  levelBits := 0
  offsetBits := 0
  fixed := []
  baseRange := 1
  range := 0x7FFFFFFF
  modules_lt := by decide
  names_lt := by decide
  bases_lt := by decide
  maxLevel_lt := by decide
  fixed_length := by decide
  fixed_lt := by decide
  range_lt := by decide

def plainParts : List (List Entry) := [[⟨0x9FB03C, 0, [0x20C, 0xA8, 4]⟩], [⟨0x1FF, -1, []⟩]]

theorem plainParts_storable :
    ∀ entries ∈ plainParts, ∀ e ∈ entries, e.Storable plainLayout.header := by
  have hnamed : (⟨0x9FB03C, 0, [0x20C, 0xA8, 4]⟩ : Entry).FitsPlain plainLayout.header :=
    ⟨by decide, by decide, by decide, by decide, by decide, by decide⟩
  have hbare : (⟨0x1FF, -1, []⟩ : Entry).FitsPlain plainLayout.header :=
    ⟨by decide, by decide, by decide, by decide, by decide, by decide⟩
  simp only [plainParts, List.forall_mem_cons, List.not_mem_nil, false_implies, implies_true, and_true]
  exact ⟨hnamed, hbare⟩

theorem parse_written_plain :
    plainLayout.header.modules = [(codes "darkeden.exe", 0x400000), ([0xAC00], 0x10000000)] ∧
      ∃ lines, parse (plainLayout.bytes ++ []) (plainParts.map (writtenPart plainLayout.header)) =
          .ok lines ∧
        List.Forall₂ (Entry.Printed plainLayout.header) plainParts.flatten lines :=
  parse_written plainLayout rfl (by decide) (by decide) (by decide) [] plainParts_storable

end File

end DarkEden.PointerScan
