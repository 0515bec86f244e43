import DarkEden.Client
import DarkEden.Driver

namespace DarkEden.System

open Interaction

variable (sys : Platform) (client : PEProcess)

/-- The IRP that the I/O manager builds for a buffered request of a user-mode thread and
delivers in the context of that thread. -/
def irpOf (command : ULong) (input : Nat) (inputLength outputLength : ULong) : Irp where
  ioControlCode := command
  inputBufferLength := inputLength
  outputBufferLength := outputLength
  systemBuffer := some input
  requestorMode := .userMode
  requestorProcess := client
  currentProcess := client

/-- How the completed IRP comes back: the first `information` bytes of the system buffer,
or the error that stands for the status. -/
def ioctlResult (completed : Completed) : IoctlResult :=
  if ntSuccess completed.status then
    .completed (completed.systemBuffer.getD 0 % 2 ^ (8 * completed.information.toNat))
      (completed.information.setWidth 32)
  else .failed (sys.rtlNtStatusToDosError completed.status)

def deviceIoControl (command : ULong) (input : Nat) (inputLength outputLength : ULong) :
    Windows IoctlResult := do
  let completed ← deviceControl sys (irpOf client command input inputLength outputLength)
  return ioctlResult sys completed

def perform : (o : UserOp) → Windows (UserAns o)
  | .api o => .ask (WinOp.user o)
  | .deviceIoControl command input inputLength outputLength =>
    deviceIoControl sys client command input inputLength outputLength

variable {sys} in
theorem ioctlResult_success {size : ULong} {image : Nat} (h : image < 2 ^ (8 * size.toNat)) :
    ioctlResult sys ⟨statusSuccess, size.setWidth 64, some image⟩ = .completed image size := by
  have hsize : (size.setWidth 64).toNat = size.toNat := BitVec.toNat_setWidth_of_le (by omega)
  have hsuccess : ntSuccess statusSuccess = true := rfl
  rw [ioctlResult, if_pos hsuccess, hsize, BitVec.setWidth_setWidth_of_le _ (by omega),
    BitVec.setWidth_eq]
  exact congrArg (IoctlResult.completed · size) (Nat.mod_eq_of_lt h)

variable {sys} in
theorem ioctlResult_failed {completed : Completed} (h : ntSuccess completed.status = false) :
    ioctlResult sys completed = .failed (sys.rtlNtStatusToDosError completed.status) :=
  if_neg (by simp [h])

def runUser {α : Type} (p : User α) : Windows α := p.translate (perform sys client)

/-- What a program has called for in a run, and what came back. -/
def calls {α : Type} (p : User α) (env : WinEnv) : Log UserAns :=
  ((p.record (perform sys client) []).run env []).1.2

end DarkEden.System
