import DarkEden.Interaction.ByteMemory
import DarkEden.Interaction.Contract

namespace DarkEden

open Interaction

abbrev Byte := BitVec 8
abbrev UShort := BitVec 16
abbrev WChar := BitVec 16
abbrev ULong := BitVec 32
abbrev DWord := BitVec 32
abbrev AccessMask := BitVec 32
abbrev NtStatus := BitVec 32
abbrev ULongLong := BitVec 64
abbrev ULongPtr := BitVec 64
abbrev SizeT := BitVec 64
abbrev Handle := BitVec 64
abbrev PEProcess := BitVec 64
abbrev Kirql := BitVec 8
abbrev WString := List WChar

def nullptr : BitVec 64 := 0

/-- `NT_SUCCESS(status)`: the signed status is not negative. -/
def ntSuccess (status : NtStatus) : Bool := decide (0 ≤ status.toInt)

def statusSuccess : NtStatus := 0x00000000
def statusPartialCopy : NtStatus := 0x8000000D
def statusUnsuccessful : NtStatus := 0xC0000001
def statusInfoLengthMismatch : NtStatus := 0xC0000004
def statusAccessViolation : NtStatus := 0xC0000005
def statusInvalidParameter : NtStatus := 0xC000000D
def statusInvalidDeviceRequest : NtStatus := 0xC0000010
def statusAccessDenied : NtStatus := 0xC0000022
def statusBufferTooSmall : NtStatus := 0xC0000023
def statusObjectNameInvalid : NtStatus := 0xC0000033
def statusRevisionMismatch : NtStatus := 0xC0000059
def statusIntegerOverflow : NtStatus := 0xC0000095
def statusInvalidAddress : NtStatus := 0xC0000141
def statusInvalidDeviceState : NtStatus := 0xC0000184
def statusNotFound : NtStatus := 0xC0000225

def passiveLevel : Kirql := 0

/-- `UNICODE_STRING`: `length` counts bytes. -/
structure UnicodeString where
  length : UShort
  buffer : Nat → WChar

def UnicodeString.units (s : UnicodeString) : WString :=
  (List.range (s.length.toNat / 2)).map s.buffer

def wide (text : String) : WString := text.toList.map fun c => BitVec.ofNat 16 c.toNat

/-- A call guarded by `__try`/`__except` either returns or raises an exception. -/
inductive Completion
  | returned (status : NtStatus)
  | raised (code : NtStatus)

/-- Both ways out leave a status behind: the returned one or `GetExceptionCode()`. -/
def Completion.status : Completion → NtStatus
  | .returned status => status
  | .raised code => code

/-- What `MmCopyMemory` leaves behind: `copied` and the front of the scratch buffer
are set also when it fails or raises after a partial copy. -/
structure CopyOutcome where
  completion : Completion
  copied : SizeT
  scratch : List Byte

/-- `MEMORY_BASIC_INFORMATION`, with the two flags `FindImageBase` compares. -/
structure MemoryBasicInformation where
  baseAddress : ULongPtr
  allocationBase : ULongPtr
  regionSize : SizeT
  committed : Bool
  image : Bool

/-- Parts of the system that do not change while the driver is loaded. -/
structure Platform where
  mmHighestUserAddress : ULongPtr
  psGetProcessSectionBaseAddress : PEProcess → ULongPtr
  rtlUpcaseUnicodeChar : WChar → WChar
  multiByteToWideChar : (codePage flags : ULong) → List Byte → Option WString
  rtlNtStatusToDosError : NtStatus → DWord
  formatMessageW : DWord → WString
  iswspace : WChar → Bool

/-- Ghost steps: an address sum or difference is computed, or a pointer fetched from
the target is about to be combined with a field offset. -/
inductive Note
  | sum (a b : ULongPtr)
  | diff (a b : ULongPtr)
  | field (pointer offset : ULongPtr)

/-- What `QueryDriverService` learns from the service control manager. -/
structure DriverServiceStatus where
  queryError : DWord
  state : DWord
  win32ExitCode : DWord
  serviceSpecificExitCode : DWord

inductive UserApi
  | createFileW (desiredAccess : DWord)
  | openProcess (desiredAccess processId : DWord)
  | virtualQueryEx (address : ULongPtr)
  | getMappedFileNameW (address : ULongPtr)
  | queryDriverService

/-- `createFileW` answers with the error of a device that does not open. -/
@[reducible]
def UserApiAns : UserApi → Type
  | .createFileW _ => Option DWord
  | .openProcess _ _ => Bool
  | .virtualQueryEx _ => Option MemoryBasicInformation
  | .getMappedFileNameW _ => Option WString
  | .queryDriverService => DriverServiceStatus

inductive WinOp
  | user (o : UserApi)
  | note (n : Note)
  | keGetCurrentIrql
  | psLookupProcessByProcessId (processId : Handle)
  | zwOpenProcess (desiredAccess : AccessMask) (attributes : ULong) (uniqueProcess : Handle)
  | zwQueryObject (handle : Handle)
  | obReferenceObjectByHandle (handle : Handle) (desiredAccess : AccessMask)
  | zwClose (handle : Handle)
  | seLocateProcessImageName (process : PEProcess)
  | exFreePool
  | obDereferenceObject (process : PEProcess)
  | keStackAttachProcess (process : PEProcess)
  | keUnstackDetachProcess
  | mmCopyMemory (address : ULongPtr) (size : SizeT)
  | probeForWrite (address : ULongPtr) (length alignment : SizeT)
  | interlockedExchange (address : ULongPtr) (value : ULong)

structure QueryOutcome where
  status : NtStatus
  grantedAccess : AccessMask
  returned : ULong

structure Handed where
  status : NtStatus
  object : BitVec 64

structure NameOutcome where
  status : NtStatus
  name : UnicodeString

/-- `probeForWrite` and `interlockedExchange` answer with the exception code they raise. -/
@[reducible]
def WinAns : WinOp → Type
  | .user o => UserApiAns o
  | .note _ => Unit
  | .keGetCurrentIrql => Kirql
  | .psLookupProcessByProcessId _ => Handed
  | .zwOpenProcess _ _ _ => Handed
  | .zwQueryObject _ => QueryOutcome
  | .obReferenceObjectByHandle _ _ => Handed
  | .zwClose _ => Unit
  | .seLocateProcessImageName _ => NameOutcome
  | .exFreePool => Unit
  | .obDereferenceObject _ => Unit
  | .keStackAttachProcess _ => Unit
  | .keUnstackDetachProcess => Unit
  | .mmCopyMemory _ _ => CopyOutcome
  | .probeForWrite _ _ _ => Option NtStatus
  | .interlockedExchange _ _ => Option NtStatus

abbrev Windows := Program WinAns
abbrev WinLog := Log WinAns
abbrev WinEnv := Env WinAns

/-- The value of a plain type whose object representation is `bytes`. -/
def valueOfBytes (bits : Nat) (bytes : List Byte) : BitVec bits :=
  BitVec.ofNat bits (ByteMemory.littleEndian bytes)

/-- Operations that touch the memory of the attached process; `ProbeForWrite` does so too. -/
def WinOp.accesses : WinOp → Bool
  | .mmCopyMemory _ _ | .probeForWrite _ _ _ | .interlockedExchange _ _ => true
  | _ => false

def WinOp.writes : WinOp → Bool
  | .interlockedExchange _ _ => true
  | _ => false

end DarkEden
