import DarkEden.Interaction.Packing
import DarkEden.Windows

namespace DarkEden

open Interaction.Packing

namespace Protocol

def version : ULong := 3
def deviceType : ULong := 0x8000

/-- `CTL_CODE(deviceType, function, METHOD_BUFFERED, access)`. -/
def ctlCode (function access : ULong) : ULong :=
  deviceType <<< 16 ||| access <<< 14 ||| function <<< 2

def fileReadAccess : ULong := 1
def fileWriteAccess : ULong := 2
def readCoordinates : ULong := ctlCode 0x800 fileReadAccess
def readText : ULong := ctlCode 0x801 fileReadAccess
def selectTarget : ULong := ctlCode 0x802 fileWriteAccess

def defaultYOffset : ULongLong := 0x009DF9A8
def defaultTextOffset : ULongLong := 0x000A8B14
def otherCharacterNameOffset : ULongLong := 0x00AB31D0
def targetControllerOffset : ULongLong := 0x00AB3254
def targetControllerVtableOffset : ULongLong := 0x005D8310

end Protocol

open Protocol

/-- `enum class Axis : UInt32`; a buffer may hold any other value. -/
abbrev Axis := ULong

namespace Axis
def x : Axis := 1
def y : Axis := 2
def both : Axis := 3
end Axis

abbrev ValueType := ULong

namespace ValueType
def int32 : ValueType := 1
def float32 : ValueType := 2
end ValueType

structure Request where
  version : ULong
  size : ULong
  processId : ULongLong
  baseAddress : ULongLong
  axis : Axis
  pointerBytes : ULong
  valueType : ValueType
  reserved : ULong
  deriving DecidableEq

structure Response where
  version : ULong
  size : ULong
  status : NtStatus
  bytesRead : ULong
  axis : Axis
  valueType : ValueType
  xBits : ULong
  yBits : ULong
  deriving DecidableEq

structure TextRequest where
  version : ULong
  size : ULong
  processId : ULongLong
  baseAddress : ULongLong
  characterBytes : ULong
  reserved : ULong
  deriving DecidableEq

structure TextResponse where
  version : ULong
  size : ULong
  status : NtStatus
  bytesRead : ULong
  textAddress : ULongLong
  terminated : ULong
  reserved : ULong
  data : Fin 256 → Byte

structure SelectTargetRequest where
  version : ULong
  size : ULong
  processId : ULongLong
  targetId : ULong
  reserved : ULong
  deriving DecidableEq

structure SelectTargetResponse where
  version : ULong
  size : ULong
  status : NtStatus
  selectedId : ULong
  deriving DecidableEq

def sizeofRequest : ULong := 40
def sizeofResponse : ULong := 32
def sizeofTextRequest : ULong := 32
def sizeofTextResponse : ULong := 288
def sizeofSelectTargetRequest : ULong := 24
def sizeofSelectTargetResponse : ULong := 16

def validSelectTargetRequest (r : SelectTargetRequest) : Bool :=
  r.version = version ∧ r.size = sizeofSelectTargetRequest ∧ r.processId ≠ 0 ∧
    r.processId ≤ 0xFFFFFFFF ∧ r.targetId ≠ 0 ∧ r.targetId ≠ 0xFFFFFFFF ∧ r.reserved = 0

def validTextRequest (r : TextRequest) : Bool :=
  r.version = version ∧ r.size = sizeofTextRequest ∧ r.processId ≠ 0 ∧
    r.processId ≤ 0xFFFFFFFF ∧ r.baseAddress ≠ 0 ∧
    r.characterBytes ≥ 1 ∧ r.characterBytes ≤ 2 ∧ r.reserved ≤ 1

def validRequest (r : Request) : Bool :=
  r.version = version ∧ r.size = sizeofRequest ∧
    (r.reserved = 0 ∨ (r.reserved = 1 ∧ r.pointerBytes = 4 ∧ r.axis = Axis.x) ∨
      (r.reserved = 2 ∧ r.pointerBytes = 4 ∧ r.axis = Axis.y) ∨
      (r.reserved = 3 ∧ r.pointerBytes = 4 ∧ r.axis = Axis.x) ∨
      (r.reserved = 4 ∧ r.pointerBytes = 4 ∧ r.axis = Axis.y) ∨
      (r.reserved = 5 ∧ r.pointerBytes = 4 ∧ r.axis = Axis.both ∧
        r.valueType = ValueType.int32)) ∧
    r.processId ≠ 0 ∧ r.processId ≤ 0xFFFFFFFF ∧ r.baseAddress ≠ 0 ∧
    (r.axis = Axis.x ∨ r.axis = Axis.y ∨ r.axis = Axis.both) ∧
    ((r.pointerBytes = 0 ∧ r.axis = Axis.x) ∨ r.pointerBytes = 4 ∨ r.pointerBytes = 8) ∧
    (r.valueType = ValueType.int32 ∨ r.valueType = ValueType.float32)

section Wire

/-! Each structure is exchanged as its object representation, read as one
little-endian number. -/

def fieldAt (image start width : Nat) : BitVec width := BitVec.ofNat width (field image start width)

def Request.encode (r : Request) : Nat :=
  pack [(32, r.version.toNat), (32, r.size.toNat), (64, r.processId.toNat),
    (64, r.baseAddress.toNat), (32, r.axis.toNat), (32, r.pointerBytes.toNat),
    (32, r.valueType.toNat), (32, r.reserved.toNat)]

def Request.decode (image : Nat) : Request where
  version := fieldAt image 0 32
  size := fieldAt image 32 32
  processId := fieldAt image 64 64
  baseAddress := fieldAt image 128 64
  axis := fieldAt image 192 32
  pointerBytes := fieldAt image 224 32
  valueType := fieldAt image 256 32
  reserved := fieldAt image 288 32

def Response.encode (r : Response) : Nat :=
  pack [(32, r.version.toNat), (32, r.size.toNat), (32, r.status.toNat), (32, r.bytesRead.toNat),
    (32, r.axis.toNat), (32, r.valueType.toNat), (32, r.xBits.toNat), (32, r.yBits.toNat)]

def Response.decode (image : Nat) : Response where
  version := fieldAt image 0 32
  size := fieldAt image 32 32
  status := fieldAt image 64 32
  bytesRead := fieldAt image 96 32
  axis := fieldAt image 128 32
  valueType := fieldAt image 160 32
  xBits := fieldAt image 192 32
  yBits := fieldAt image 224 32

def TextRequest.encode (r : TextRequest) : Nat :=
  pack [(32, r.version.toNat), (32, r.size.toNat), (64, r.processId.toNat),
    (64, r.baseAddress.toNat), (32, r.characterBytes.toNat), (32, r.reserved.toNat)]

def TextRequest.decode (image : Nat) : TextRequest where
  version := fieldAt image 0 32
  size := fieldAt image 32 32
  processId := fieldAt image 64 64
  baseAddress := fieldAt image 128 64
  characterBytes := fieldAt image 192 32
  reserved := fieldAt image 224 32

def dataFields {n : Nat} (data : Fin n → Byte) : List (Nat × Nat) :=
  (List.ofFn fun i => (data i).toNat).map fun b => (8, b)

def TextResponse.encode (r : TextResponse) : Nat :=
  pack ((32, r.version.toNat) :: (32, r.size.toNat) :: (32, r.status.toNat) ::
    (32, r.bytesRead.toNat) :: (64, r.textAddress.toNat) :: (32, r.terminated.toNat) ::
    (32, r.reserved.toNat) :: dataFields r.data)

def TextResponse.decode (image : Nat) : TextResponse where
  version := fieldAt image 0 32
  size := fieldAt image 32 32
  status := fieldAt image 64 32
  bytesRead := fieldAt image 96 32
  textAddress := fieldAt image 128 64
  terminated := fieldAt image 192 32
  reserved := fieldAt image 224 32
  data i := fieldAt image (256 + 8 * i) 8

def SelectTargetRequest.encode (r : SelectTargetRequest) : Nat :=
  pack [(32, r.version.toNat), (32, r.size.toNat), (64, r.processId.toNat),
    (32, r.targetId.toNat), (32, r.reserved.toNat)]

def SelectTargetRequest.decode (image : Nat) : SelectTargetRequest where
  version := fieldAt image 0 32
  size := fieldAt image 32 32
  processId := fieldAt image 64 64
  targetId := fieldAt image 128 32
  reserved := fieldAt image 160 32

def SelectTargetResponse.encode (r : SelectTargetResponse) : Nat :=
  pack [(32, r.version.toNat), (32, r.size.toNat), (32, r.status.toNat), (32, r.selectedId.toNat)]

def SelectTargetResponse.decode (image : Nat) : SelectTargetResponse where
  version := fieldAt image 0 32
  size := fieldAt image 32 32
  status := fieldAt image 64 32
  selectedId := fieldAt image 96 32

theorem fieldAt_head {w : Nat} (v : BitVec w) (fields : List (Nat × Nat)) :
    fieldAt (pack ((w, v.toNat) :: fields)) 0 w = v := by
  simp [fieldAt]

theorem fieldAt_tail {w start width : Nat} (v : Nat) (fields : List (Nat × Nat)) (h : w ≤ start) :
    fieldAt (pack ((w, v) :: fields)) start width = fieldAt (pack fields) (start - w) width := by
  rw [fieldAt, field_pack_tail _ _ _ _ _ h, fieldAt]

@[simp]
theorem Request.decode_encode (r : Request) : decode r.encode = r := by
  simp [decode, encode, fieldAt_head, fieldAt_tail]

@[simp]
theorem Response.decode_encode (r : Response) : decode r.encode = r := by
  simp [decode, encode, fieldAt_head, fieldAt_tail]

@[simp]
theorem TextRequest.decode_encode (r : TextRequest) : decode r.encode = r := by
  simp [decode, encode, fieldAt_head, fieldAt_tail]

@[simp]
theorem SelectTargetRequest.decode_encode (r : SelectTargetRequest) : decode r.encode = r := by
  simp [decode, encode, fieldAt_head, fieldAt_tail]

@[simp]
theorem SelectTargetResponse.decode_encode (r : SelectTargetResponse) : decode r.encode = r := by
  simp [decode, encode, fieldAt_head, fieldAt_tail]

theorem fieldAt_data {n : Nat} (data : Fin n → Byte) (i : Fin n) :
    fieldAt (pack (dataFields data)) (8 * i) 8 = data i := by
  rw [fieldAt, dataFields, field_pack_uniform _ _ _ (by simp)]
  apply BitVec.eq_of_toNat_eq
  simpa using (data i).isLt

@[simp]
theorem TextResponse.decode_encode (r : TextResponse) : decode r.encode = r := by
  have hdata : ∀ i : Fin 256, fieldAt r.encode (256 + 8 * i) 8 = r.data i := by
    intro i
    rw [encode]
    iterate 7 rw [fieldAt_tail _ _ (by omega)]
    convert fieldAt_data r.data i using 2
    omega
  simp only [decode, hdata]
  simp [encode, fieldAt_head, fieldAt_tail]

theorem Response.encode_lt (r : Response) : r.encode < 2 ^ (8 * sizeofResponse.toNat) := by
  apply pack_lt_of_width
  simp only [List.map_cons, List.map_nil, List.sum_cons, List.sum_nil]
  rfl

theorem SelectTargetResponse.encode_lt (r : SelectTargetResponse) :
    r.encode < 2 ^ (8 * sizeofSelectTargetResponse.toNat) := by
  apply pack_lt_of_width
  simp only [List.map_cons, List.map_nil, List.sum_cons, List.sum_nil]
  rfl

theorem TextResponse.encode_lt (r : TextResponse) :
    r.encode < 2 ^ (8 * sizeofTextResponse.toNat) := by
  have hdata : ((dataFields r.data).map Prod.fst).sum = 8 * 256 := by
    rw [dataFields, width_uniform, List.length_ofFn]
  apply pack_lt_of_width
  simp only [List.map_cons, List.sum_cons, hdata]
  rfl

end Wire

end DarkEden
