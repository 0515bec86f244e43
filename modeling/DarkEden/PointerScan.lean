import DarkEden.Interaction.ByteMemory
import DarkEden.Interaction.Json
import DarkEden.Interaction.Packing

namespace DarkEden.PointerScan

open Interaction ByteMemory
open Json (Text codes)

abbrev PyBytes := List (BitVec 8)

inductive PyError
  | indexError
  | structError
  | valueError
  | zeroDivisionError
  deriving DecidableEq

/-- What `parse` has read before the records. In the uncompressed form the widths are 0 and
no offset is fixed. -/
structure Header where
  modules : List (Text × Nat)
  maxLevel : Nat
  compressed : Bool
  aligned : Bool
  indexBits : Nat
  baseBits : Nat
  levelBits : Nat
  offsetBits : Nat
  fixed : List Nat

/-- A damaged header can make the size of a record negative. -/
def Header.entrySize (h : Header) : Int :=
  if h.compressed then
    (h.baseBits + h.indexBits + h.levelBits +
      h.offsetBits * ((h.maxLevel : Int) - h.fixed.length) + 7) / 8
  else 16 + 4 * h.maxLevel

section Origin

inductive Origin
  | bare (base : Nat)
  | named (index base : Nat)
  | bad (moduleId : Int) (base : Nat)
  deriving DecidableEq

/-- The position that an index of a list of length `n` refers to. -/
def pyIndex (n : Nat) (i : Int) : Except PyError Nat :=
  if 0 ≤ i ∧ i < n then .ok i.toNat
  else if i < 0 ∧ -n ≤ i then .ok (n + i).toNat
  else .error .indexError

def originOf (modules : List (Text × Nat)) (moduleId : Int) (base : Nat) : Except PyError Origin :=
  if moduleId = -1 then .ok (.bare base)
  else if moduleId < modules.length then do
    let index ← pyIndex modules.length moduleId
    return .named index base
  else .ok (.bad moduleId base)

def upperDigit (d : Nat) : Nat := if d < 10 then 0x30 + d else 0x37 + d

/-- The format `X`, filled up with zeros to a width. -/
def formatX (n width : Nat) : Text :=
  let digits := if n = 0 then [0x30] else (Nat.digits 16 n).reverse.map upperDigit
  List.replicate (width - digits.length) 0x30 ++ digits

def Origin.text (modules : List (Text × Nat)) : Origin → Text
  | .bare base => formatX base 8
  | .named index base => (modules[index]?.map Prod.fst).getD [] ++ codes "+" ++ formatX base 0
  | .bad moduleId base =>
    codes "bad_module_" ++ codes (toString moduleId) ++ codes "+" ++ formatX base 0

end Origin

structure Record where
  origin : Origin
  offsets : List Nat
  deriving DecidableEq

section Compressed

def bits (record : PyBytes) (start width : Nat) : Nat :=
  (littleEndian record >>> start) &&& ((1 <<< width) - 1)

/-- The id read as a signed number; a shift by a negative count raises an error. -/
def signedId (indexBits moduleId : Nat) : Except PyError Int :=
  if indexBits = 0 then .error .valueError
  else if moduleId &&& (1 <<< (indexBits - 1)) ≠ 0 then .ok ((moduleId : Int) - 1 <<< indexBits)
  else .ok moduleId

def scaled (aligned : Bool) (offset : Nat) : Nat := if aligned then offset * 4 else offset

def readOffsets (record : PyBytes) (width : Nat) (aligned : Bool) : Nat → Nat → List Nat
  | 0, _ => []
  | n + 1, bit =>
    scaled aligned (bits record bit width) :: readOffsets record width aligned n (bit + width)

def decodeCompressed (h : Header) (record : PyBytes) : Except PyError Record := do
  let base := bits record 0 h.baseBits
  let moduleId ← signedId h.indexBits (bits record h.baseBits h.indexBits)
  let count := bits record (h.baseBits + h.indexBits) h.levelBits + h.fixed.length
  let offsets := h.fixed ++ readOffsets record h.offsetBits h.aligned (count - h.fixed.length)
    (h.baseBits + h.indexBits + h.levelBits)
  let origin ← originOf h.modules moduleId base
  return ⟨origin, offsets⟩

end Compressed

section Uncompressed

/-- `unpack_from` of one unsigned number of `size` bytes, where there are enough of them. -/
def unpackInt (record : PyBytes) (start size : Nat) : Nat :=
  littleEndian ((record.drop start).take size)

def decodeUncompressed (h : Header) (record : PyBytes) : Except PyError Record := do
  if record.length < 16 then throw .structError
  let stored := unpackInt record 0 4
  let base := unpackInt record 4 8
  let count := unpackInt record 12 4
  let moduleId : Int := if stored = 0xFFFFFFFF then -1 else stored
  if record.length < 16 + 4 * count then throw .structError
  let offsets := (List.range count).map fun i => unpackInt record (16 + 4 * i) 4
  let origin ← originOf h.modules moduleId base
  return ⟨origin, offsets⟩

end Uncompressed

section Parts

def decodeRecord (h : Header) (record : PyBytes) : Except PyError Record :=
  if h.compressed then decodeCompressed h record else decodeUncompressed h record

/-- `range(0, stop, step)` for a step that is not 0, where a negative step meets no negative
stop. -/
def pyRange (stop step : Int) : List Nat :=
  if step < 0 then [] else (List.range ((stop + step - 1) / step).toNat).map (· * step.toNat)

def slices (h : Header) (raw : PyBytes) : List PyBytes :=
  (pyRange (raw.length - h.entrySize + 1) h.entrySize).map fun i =>
    (raw.drop i).take h.entrySize.toNat

/-- The records of one file of results. Its length is first divided by the size of a record. -/
def decodePart (h : Header) (raw : PyBytes) : Except PyError (List Record) :=
  if h.entrySize = 0 then .error .zeroDivisionError else (slices h raw).mapM (decodeRecord h)

def decodeParts (h : Header) (parts : List PyBytes) : Except PyError (List Record) := do
  let records ← parts.mapM (decodePart h)
  return records.flatten

def parseRecords (h : Header) (parts : List PyBytes) : Except PyError (List (Text × List Nat)) := do
  let records ← decodeParts h parts
  return records.map fun r => (r.origin.text h.modules, r.offsets)

end Parts

end DarkEden.PointerScan
