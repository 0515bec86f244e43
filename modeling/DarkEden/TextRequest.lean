import DarkEden.CoordinateRequest

namespace DarkEden

open Interaction Memory

def storeByte (data : Fin 256 → Byte) (index : Nat) (value : Byte) : Fin 256 → Byte :=
  fun i => if i.val = index then value else data i

/-- One pass of the loop of `ReadTextAtAddress` at `index`. -/
def readCharacter (address : ULongPtr) (characterBytes : ULong) (s : ULong × TextResponse) :
    Memory ((ULong × TextResponse) ⊕ TextResponse) := do
  let (index, response) := s
  if index + characterBytes > 256 then return .inr { response with status := statusSuccess }
  note (.field address (index.setWidth 64))
  if address > (0xFFFFFFFF - index).setWidth 64 then
    return .inr { response with status := statusIntegerOverflow }
  let characterAddress ← addAddress address (index.setWidth 64)
  if characterBytes = 1 then
    let value ← read 8 characterAddress
    if !value.succeeded then return .inr { response with status := value.failure }
    if value.value = 0 then
      return .inr { response with terminated := 1, status := statusSuccess }
    return .inl (index + characterBytes, { response with
      data := storeByte response.data index.toNat value.value
      bytesRead := response.bytesRead + characterBytes })
  else
    let value ← read 16 characterAddress
    if !value.succeeded then return .inr { response with status := value.failure }
    if value.value = 0 then
      return .inr { response with terminated := 1, status := statusSuccess }
    let data := storeByte response.data index.toNat (value.value.setWidth 8)
    return .inl (index + characterBytes, { response with
      data := storeByte data (index.toNat + 1) ((value.value >>> 8).setWidth 8)
      bytesRead := response.bytesRead + characterBytes })

/-- The loop leaves after at most 256 characters, so 257 passes always reach its exit. -/
def readTextAtAddress (address : ULongPtr) (characterBytes : ULong) (response : TextResponse) :
    Memory TextResponse := do
  if characterBytes ≠ 1 ∧ characterBytes ≠ 2 then
    return { response with status := statusInvalidParameter }
  if address = 0 ∨ address > 0xFFFFFFFF then
    return { response with status := statusInvalidAddress }
  let response := { response with textAddress := address }
  let stopped ← Program.loop (readCharacter address characterBytes) 257 (0, response)
  return stopped.getD response

def readPointedText (slot : ULongPtr) (characterBytes : ULong) (response : TextResponse) :
    Memory TextResponse := do
  if characterBytes ≠ 1 ∧ characterBytes ≠ 2 then
    return { response with status := statusInvalidParameter }
  let pointer ← read 32 slot
  if !pointer.succeeded then return { response with status := pointer.failure }
  readTextAtAddress (pointer.value.setWidth 64) characterBytes response

def readOtherCharacterText (root : ULongPtr) (characterBytes : ULong) (response : TextResponse) :
    Memory TextResponse := do
  if characterBytes ≠ 1 ∧ characterBytes ≠ 2 then
    return { response with status := statusInvalidParameter }
  match ← walkPointers [0x34, 0, 0x14, 0x544, 0] root with
  | .error status => return { response with status := status }
  | .ok address => readTextAtAddress address characterBytes response

end DarkEden
