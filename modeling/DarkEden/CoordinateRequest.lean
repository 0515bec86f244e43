import DarkEden.MemoryReader
import DarkEden.Protocol

namespace DarkEden

open Memory Protocol

namespace CoordinateReader

/-- `AddOffset`: rejects null pointers and overflow in both target and host widths. -/
def addOffset (pointerBits : Nat) (pointer offset : ULongPtr) :
    Memory (Except NtStatus ULongPtr) := do
  let targetMax : ULongLong := (BitVec.allOnes pointerBits).setWidth 64
  let hostMax : ULongLong := BitVec.allOnes 64
  let limit := if targetMax < hostMax then targetMax else hostMax
  if pointer = 0 then return .error statusInvalidAddress
  if pointer > limit then return .error statusIntegerOverflow
  let room ← subAddress limit pointer
  if offset > room then return .error statusIntegerOverflow
  let address ← addAddress pointer offset
  return .ok address

/-- The loop of `ReadAtOffset` over its offsets. -/
def followOffsets (pointerBits : Nat) : List ULong → ULongPtr → Memory (Except NtStatus ULongPtr)
  | [], address => return .ok address
  | offset :: offsets, address => do
    let pointer ← read pointerBits address
    if !pointer.succeeded then return .error pointer.failure
    note (.field (pointer.value.setWidth 64) (offset.setWidth 64))
    match ← addOffset pointerBits (pointer.value.setWidth 64) (offset.setWidth 64) with
    | .error status => return .error status
    | .ok address => followOffsets pointerBits offsets address

def readAtOffset (pointerBits bits : Nat) (basePointerAddress : ULongPtr) (finalOffset : ULong) :
    Memory (MemoryReadResult bits) := do
  match ← addOffset pointerBits basePointerAddress 0 with
  | .error status => return ⟨status, 0, 0⟩
  | .ok address =>
    match ← followOffsets pointerBits [0xC, 0x44, finalOffset] address with
    | .error status => return ⟨status, 0, 0⟩
    | .ok address => read bits address

def readX (pointerBits : Nat) (basePointerAddress : ULongPtr) : Memory (MemoryReadResult 32) :=
  readAtOffset pointerBits 32 basePointerAddress 0x214

def readY (pointerBits : Nat) (basePointerAddress : ULongPtr) : Memory (MemoryReadResult 32) :=
  readAtOffset pointerBits 32 basePointerAddress 0x218

/-- `Coordinates` are the adjacent x and y fields, x in the low half. -/
def readPair (pointerBits : Nat) (basePointerAddress : ULongPtr) : Memory (MemoryReadResult 64) :=
  readAtOffset pointerBits 64 basePointerAddress 0x214

end CoordinateReader

open CoordinateReader

def newResponse (request : Request) (status : NtStatus) : Response :=
  ⟨version, sizeofResponse, status, 0, request.axis, request.valueType, 0, 0⟩

/-- `ReadCoordinateRequest`. `LONG` and `float` values are copied byte by byte, so the
value type does not select a different walk; `ULONG_PTR` holds every base address. -/
def readCoordinateRequest (pointerBits : Nat) (request : Request) : Memory Response := do
  let response := newResponse request statusUnsuccessful
  if request.axis = Axis.both then
    let result ← readPair pointerBits request.baseAddress
    let response := { response with
      status := result.finalStatus, bytesRead := result.bytesRead.setWidth 32 }
    if result.succeeded then
      return { response with
        xBits := result.value.setWidth 32, yBits := (result.value >>> 32).setWidth 32 }
    return response
  else
    let result ← if request.axis = Axis.x then readX pointerBits request.baseAddress
      else readY pointerBits request.baseAddress
    let response := { response with
      status := result.finalStatus, bytesRead := result.bytesRead.setWidth 32 }
    if result.succeeded then
      return if request.axis = Axis.x then { response with xBits := result.value }
        else { response with yBits := result.value }
    return response

/-- The pointer loops of `DispatchCoordinateRequest` and `ReadOtherCharacterText`. -/
def walkPointers : List ULong → ULongPtr → Memory (Except NtStatus ULongPtr)
  | [], address => return .ok address
  | offset :: offsets, address => do
    let pointer ← read 32 address
    if !pointer.succeeded then return .error pointer.failure
    if pointer.value = 0 then return .error statusInvalidAddress
    note (.field (pointer.value.setWidth 64) (offset.setWidth 64))
    if pointer.value > 0xFFFFFFFF - offset then return .error statusIntegerOverflow
    let address ← addAddress (pointer.value.setWidth 64) (offset.setWidth 64)
    walkPointers offsets address

def dispatchCoordinateRequest (request : Request) : Memory Response := do
  let response := newResponse request statusInvalidParameter
  if !validRequest request then return response
  if request.reserved = 5 then
    match ← walkPointers [0x34, 0, 0x14, 0x0C] request.baseAddress with
    | .error status => return { response with status := status }
    | .ok address =>
      let packed ← read 32 address
      let response := { response with
        status := packed.finalStatus, bytesRead := packed.bytesRead.setWidth 32 }
      if packed.succeeded then
        return { response with xBits := packed.value &&& 0xFFFF, yBits := packed.value >>> 16 }
      return response
  if request.pointerBytes = 0 ∨ request.reserved = 1 ∨ request.reserved = 2 ∨
      request.reserved = 3 ∨ request.reserved = 4 then
    let offsets : List ULong := [
      if request.reserved = 4 then 0xC else if request.reserved ≥ 2 then 4 else 0,
      if request.reserved = 4 then 0x44 else if request.reserved = 3 then 0xA8 else 0x900,
      if request.reserved = 4 then 0x210 else 0x20C]
    let levels := if request.reserved = 4 then 3 else request.reserved.toNat
    match ← walkPointers (offsets.take levels) request.baseAddress with
    | .error status => return { response with status := status }
    | .ok address =>
      let result ← read 32 address
      let response := { response with
        status := result.finalStatus, bytesRead := result.bytesRead.setWidth 32 }
      if result.succeeded then
        return if request.axis = Axis.y then { response with yBits := result.value }
          else { response with xBits := result.value }
      return response
  if request.pointerBytes = 4 then readCoordinateRequest 32 request
  else readCoordinateRequest 64 request

end DarkEden
