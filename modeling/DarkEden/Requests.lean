import DarkEden.TextRequest

namespace DarkEden

open Interaction Memory Protocol

/-- The part of `ExecuteDarkEdenRequest` after the initialization of its reader. -/
def readResolved (request : Request) : Memory Response := do
  let resolved ← resolveImageOffset request.baseAddress
  if !ntSuccess resolved.status then return newResponse request resolved.status
  dispatchCoordinateRequest { request with baseAddress := resolved.address }

def executeDarkEdenRequest (sys : Platform) (request : Request) : Windows Response := do
  if !validRequest request then return newResponse request statusInvalidParameter
  withReader sys request.processId false (newResponse request) (readResolved request)

def newTextResponse (status : NtStatus) : TextResponse :=
  ⟨version, sizeofTextResponse, status, 0, 0, 0, 0, fun _ => 0⟩

/-- The part of `ExecuteDarkEdenTextRequest` after the initialization of its reader. -/
def readResolvedText (request : TextRequest) : Memory TextResponse := do
  let slot ← resolveImageOffset request.baseAddress
  if !ntSuccess slot.status then return newTextResponse slot.status
  if request.reserved = 1 then
    readOtherCharacterText slot.address request.characterBytes (newTextResponse slot.status)
  else readPointedText slot.address request.characterBytes (newTextResponse slot.status)

def executeDarkEdenTextRequest (sys : Platform) (request : TextRequest) :
    Windows TextResponse := do
  if !validTextRequest request then return newTextResponse statusInvalidParameter
  withReader sys request.processId false newTextResponse (readResolvedText request)

namespace SelectTarget

/-- `static_cast<ULONG_PTR>(pointer) + offset`, which is not checked for overflow. -/
def fieldAddress (pointer : ULong) (offset : ULongPtr) : Memory ULongPtr := do
  note (.field (pointer.setWidth 64) offset)
  addAddress (pointer.setWidth 64) offset

def readField (pointer : ULong) (offset : ULongPtr) : Memory (MemoryReadResult 32) := do
  let address ← fieldAddress pointer offset
  read 32 address

def actorMatches (targetId : ULong) (id xy : MemoryReadResult 32) : Bool :=
  id.succeeded && xy.succeeded && id.value == targetId &&
    (xy.value &&& 0xFFFF) < 5000 && (xy.value >>> 16) < 5000

/-- One pass of the search loop: the next node, or the end of the search with
an error status or with `found`. -/
def searchStep (targetId header node : ULong) : Memory (ULong ⊕ Except NtStatus Bool) := do
  if node = 0 ∨ node = header then return .inr (.ok false)
  let key ← readField node 0x10
  if !key.succeeded then return .inr (.error key.status)
  if key.value = targetId then
    let actor ← readField node 0x14
    if !actor.succeeded then return .inr (.error actor.status)
    if actor.value = 0 then return .inr (.ok false)
    let id ← readField actor.value 8
    let xy ← readField actor.value 0x0C
    return .inr (.ok (actorMatches targetId id xy))
  let child ← readField node (if targetId < key.value then 0 else 8)
  if !child.succeeded then return .inr (.error child.status)
  if child.value = 0 ∨ child.value = header then return .inr (.ok false)
  let parent ← readField child.value 4
  if !parent.succeeded then return .inr (.error parent.status)
  if parent.value ≠ node then return .inr (.ok false)
  return .inl child.value

/-- All of `ExecuteSelectTargetRequest` between the initialization and the write:
the controller whose slot is to be written, or the status it returns with. -/
def locate (targetId : ULong) : Memory (Except NtStatus ULong) := do
  let controllerField ← resolveImageOffset targetControllerOffset
  if !ntSuccess controllerField.status then return .error controllerField.status
  let treeField ← resolveImageOffset otherCharacterNameOffset
  if !ntSuccess treeField.status then return .error treeField.status
  let vtableAddress ← resolveImageOffset targetControllerVtableOffset
  if !ntSuccess vtableAddress.status then return .error vtableAddress.status
  let controller ← read 32 controllerField.address
  let manager ← read 32 treeField.address
  if !controller.succeeded then return .error controller.status
  if !manager.succeeded then return .error manager.status
  if controller.value = 0 ∨ manager.value = 0 then return .error statusNotFound
  let vtable ← read 32 (controller.value.setWidth 64)
  if !vtable.succeeded then return .error vtable.status
  if vtable.value.setWidth 64 ≠ vtableAddress.address then return .error statusRevisionMismatch
  let header ← readField manager.value 0x34
  if !header.succeeded then return .error header.status
  if header.value = 0 then return .error statusNotFound
  let root ← readField header.value 4
  if !root.succeeded then return .error root.status
  match ← Program.loop (searchStep targetId header.value) 64 root.value with
  | some (.error status) => return .error status
  | some (.ok true) => return .ok controller.value
  | _ => return .error statusNotFound

/-- The write and the read-back that follow a successful search. -/
def commit (targetId controller : ULong) (response : SelectTargetResponse) :
    Memory SelectTargetResponse := do
  let slot ← fieldAddress controller 0x28
  let written ← writeUInt32 slot targetId
  if !ntSuccess written then return { response with status := written }
  let selected ← read 32 slot
  if !selected.succeeded then return { response with status := selected.status }
  return { response with
    selectedId := selected.value
    status := if selected.value = targetId then statusSuccess else statusUnsuccessful }

def newResponse (status : NtStatus) : SelectTargetResponse :=
  ⟨version, sizeofSelectTargetResponse, status, 0⟩

def select (targetId : ULong) : Memory SelectTargetResponse := do
  match ← locate targetId with
  | .error status => return newResponse status
  | .ok controller => commit targetId controller (newResponse statusSuccess)

end SelectTarget

def executeSelectTargetRequest (sys : Platform) (request : SelectTargetRequest) :
    Windows SelectTargetResponse := do
  if !validSelectTargetRequest request then
    return SelectTarget.newResponse statusInvalidParameter
  withReader sys request.processId true SelectTarget.newResponse
    (SelectTarget.select request.targetId)

end DarkEden
