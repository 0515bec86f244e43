import DarkEden.Requests

namespace DarkEden

open Protocol Windows

inductive ProcessorMode
  | kernelMode
  | userMode
  deriving DecidableEq

/-- An IRP on its way into `DeviceControl`, with the process context it arrives in.
The system buffer is read as one little-endian number. -/
structure Irp where
  ioControlCode : ULong
  inputBufferLength : ULong
  outputBufferLength : ULong
  systemBuffer : Option Nat
  requestorMode : ProcessorMode
  requestorProcess : PEProcess
  currentProcess : PEProcess

structure Completed where
  status : NtStatus
  information : ULongPtr
  systemBuffer : Option Nat

def complete (irp : Irp) (status : NtStatus) : Completed := ⟨status, 0, irp.systemBuffer⟩

def deviceControl (sys : Platform) (irp : Irp) : Windows Completed := do
  let command := irp.ioControlCode
  if command ≠ readCoordinates ∧ command ≠ readText ∧ command ≠ selectTarget then
    return complete irp statusInvalidDeviceRequest
  let requestSize := if command = readText then sizeofTextRequest
    else if command = selectTarget then sizeofSelectTargetRequest else sizeofRequest
  let responseSize := if command = readText then sizeofTextResponse
    else if command = selectTarget then sizeofSelectTargetResponse else sizeofResponse
  match irp.systemBuffer with
  | none => return complete irp statusBufferTooSmall
  | some buffer =>
    if irp.inputBufferLength ≠ requestSize ∨ irp.outputBufferLength < responseSize then
      return complete irp statusBufferTooSmall
    let irql ← keGetCurrentIrql
    if irql ≠ passiveLevel ∨ irp.requestorMode ≠ .userMode ∨
        irp.requestorProcess ≠ irp.currentProcess then
      return complete irp statusInvalidDeviceState
    if command = readText then
      let request := TextRequest.decode buffer
      if request.version ≠ version then return complete irp statusRevisionMismatch
      if !validTextRequest request then return complete irp statusInvalidParameter
      let response ← executeDarkEdenTextRequest sys request
      return ⟨statusSuccess, sizeofTextResponse.setWidth 64, some response.encode⟩
    if command = selectTarget then
      let request := SelectTargetRequest.decode buffer
      if request.version ≠ version then return complete irp statusRevisionMismatch
      if !validSelectTargetRequest request then return complete irp statusInvalidParameter
      let response ← executeSelectTargetRequest sys request
      return ⟨statusSuccess, sizeofSelectTargetResponse.setWidth 64, some response.encode⟩
    let request := Request.decode buffer
    if request.version ≠ version then return complete irp statusRevisionMismatch
    if !validRequest request then return complete irp statusInvalidParameter
    let response ← executeDarkEdenRequest sys request
    return ⟨statusSuccess, sizeofResponse.setWidth 64, some response.encode⟩

end DarkEden
