import DarkEden.Windows

namespace DarkEden

open Interaction

/-- `sizeof(T)` of a plain type of `bits` bits. -/
def byteSize (bits : Nat) : SizeT := BitVec.ofNat 64 (bits / 8)

structure MemoryReadResult (bits : Nat) where
  status : NtStatus
  bytesRead : SizeT
  value : BitVec bits

namespace MemoryReadResult

variable {bits : Nat}

def succeeded (r : MemoryReadResult bits) : Bool :=
  ntSuccess r.status && r.bytesRead == byteSize bits

def failure (r : MemoryReadResult bits) : NtStatus :=
  if ntSuccess r.status then statusPartialCopy else r.status

def finalStatus (r : MemoryReadResult bits) : NtStatus :=
  if r.succeeded then statusSuccess else r.failure

end MemoryReadResult

structure Resolved where
  status : NtStatus
  address : ULongPtr

/-- The methods of an initialized reader, as the request code calls them. The
coordinate and text walkers are templates that only use `read`. -/
inductive ReaderOp
  | note (n : Note)
  | resolveImageOffset (offset : ULongPtr)
  | read (bits : Nat) (address : ULongPtr)
  | writeUInt32 (address : ULongPtr) (value : ULong)

@[reducible]
def ReaderAns : ReaderOp → Type
  | .note _ => Unit
  | .resolveImageOffset _ => Resolved
  | .read bits _ => MemoryReadResult bits
  | .writeUInt32 _ _ => NtStatus

abbrev Memory := Program ReaderAns
abbrev ReaderLog := Log ReaderAns

namespace Memory

def note (n : Note) : Memory Unit := .ask (ReaderOp.note n)

def resolveImageOffset (offset : ULongPtr) : Memory Resolved :=
  .ask (ReaderOp.resolveImageOffset offset)

def read (bits : Nat) (address : ULongPtr) : Memory (MemoryReadResult bits) :=
  .ask (ReaderOp.read bits address)

def writeUInt32 (address : ULongPtr) (value : ULong) : Memory NtStatus :=
  .ask (ReaderOp.writeUInt32 address value)

def addAddress (a b : ULongPtr) : Memory ULongPtr := do
  note (.sum a b)
  return a + b

def subAddress (a b : ULongPtr) : Memory ULongPtr := do
  note (.diff a b)
  return a - b

end Memory

namespace Windows

def note (n : Note) : Windows Unit := .ask (WinOp.note n)

def addAddress (a b : ULongPtr) : Windows ULongPtr := do
  note (.sum a b)
  return a + b

def subAddress (a b : ULongPtr) : Windows ULongPtr := do
  note (.diff a b)
  return a - b

def keGetCurrentIrql : Windows Kirql := .ask WinOp.keGetCurrentIrql

def psLookupProcessByProcessId (processId : Handle) : Windows Handed :=
  .ask (WinOp.psLookupProcessByProcessId processId)

def zwOpenProcess (desiredAccess : AccessMask) (attributes : ULong) (uniqueProcess : Handle) :
    Windows Handed := .ask (WinOp.zwOpenProcess desiredAccess attributes uniqueProcess)

def zwQueryObject (handle : Handle) : Windows QueryOutcome := .ask (WinOp.zwQueryObject handle)

def obReferenceObjectByHandle (handle : Handle) (desiredAccess : AccessMask) : Windows Handed :=
  .ask (WinOp.obReferenceObjectByHandle handle desiredAccess)

def zwClose (handle : Handle) : Windows Unit := .ask (WinOp.zwClose handle)

def seLocateProcessImageName (process : PEProcess) : Windows NameOutcome :=
  .ask (WinOp.seLocateProcessImageName process)

def exFreePool : Windows Unit := .ask WinOp.exFreePool

def obDereferenceObject (process : PEProcess) : Windows Unit :=
  .ask (WinOp.obDereferenceObject process)

def keStackAttachProcess (process : PEProcess) : Windows Unit :=
  .ask (WinOp.keStackAttachProcess process)

def keUnstackDetachProcess : Windows Unit := .ask WinOp.keUnstackDetachProcess

def mmCopyMemory (address : ULongPtr) (size : SizeT) : Windows CopyOutcome :=
  .ask (WinOp.mmCopyMemory address size)

def probeForWrite (address : ULongPtr) (length alignment : SizeT) : Windows (Option NtStatus) :=
  .ask (WinOp.probeForWrite address length alignment)

def interlockedExchange (address : ULongPtr) (value : ULong) : Windows (Option NtStatus) :=
  .ask (WinOp.interlockedExchange address value)

end Windows

open Windows

/-- The only member, `process_`, is null until the reader is initialized. -/
structure KernelProcessMemoryReader where
  process : PEProcess

namespace KernelProcessMemoryReader

def empty : KernelProcessMemoryReader := ⟨nullptr⟩

/-- The method `Initialize`, whose bare name is reserved here. -/
def initializeById (reader : KernelProcessMemoryReader) (processId : Handle) :
    Windows (NtStatus × KernelProcessMemoryReader) := do
  let irql ← keGetCurrentIrql
  if irql ≠ passiveLevel then return (statusInvalidDeviceState, reader)
  if reader.process ≠ nullptr then return (statusInvalidDeviceState, reader)
  if processId = nullptr then return (statusInvalidParameter, reader)
  let found ← psLookupProcessByProcessId processId
  return (found.status, if ntSuccess found.status then ⟨found.object⟩ else reader)

/-- The destructor; its `NT_ASSERT` is compiled out of the driver. -/
def destroy (reader : KernelProcessMemoryReader) : Windows Unit := do
  if reader.process ≠ nullptr then obDereferenceObject reader.process

def processVmRead : AccessMask := 0x0010
def processVmWrite : AccessMask := 0x0020
def processVmOperation : AccessMask := 0x0008

def requestedAccess (allowWrite : Bool) : AccessMask :=
  processVmRead ||| 0x1000 ||| if allowWrite then processVmWrite ||| processVmOperation else 0

def objKernelHandle : ULong := 0x200
def objForceAccessCheck : ULong := 0x400
def maxULong : Handle := 0xFFFFFFFF
def sizeofPublicObjectBasicInformation : ULong := 56

def backslash : WChar := 0x5C

/-- The backwards scan for the last backslash: where the leaf name starts. -/
def leafStart (buffer : Nat → WChar) : Nat → Nat
  | 0 => 0
  | start + 1 => if buffer start ≠ backslash then leafStart buffer start else start + 1

def leaf (fullName : UnicodeString) : UnicodeString :=
  let start := leafStart fullName.buffer (fullName.length.toNat / 2)
  { length := BitVec.ofNat 16 (fullName.length.toNat - start * 2)
    buffer := fun i => fullName.buffer (start + i) }

def expectedImage : WString := wide "darkeden.exe"

/-- `RtlEqualUnicodeString(a, b, TRUE)` for a constant string `b`. -/
def rtlEqualUnicodeString (sys : Platform) (a : UnicodeString) (b : WString) : Bool :=
  a.length.toNat = 2 * b.length ∧
    a.units.map sys.rtlUpcaseUnicodeChar = b.map sys.rtlUpcaseUnicodeChar

def grantedStatus (access : AccessMask) (info : QueryOutcome) : NtStatus :=
  let status := if ntSuccess info.status ∧ info.returned < sizeofPublicObjectBasicInformation
    then statusInfoLengthMismatch else info.status
  if ntSuccess status ∧ info.grantedAccess &&& access ≠ access then statusAccessDenied else status

def referenceProcess (handle : Handle) (access : AccessMask) (status : NtStatus) :
    Windows Handed :=
  if ntSuccess status then obReferenceObjectByHandle handle access else pure ⟨status, nullptr⟩

variable (sys : Platform)

def checkImageName (image : NameOutcome) : Windows NtStatus :=
  if ntSuccess image.status then do
    let status := if rtlEqualUnicodeString sys (leaf image.name) expectedImage
      then image.status else statusObjectNameInvalid
    exFreePool
    return status
  else return image.status

def initializeForRequest (reader : KernelProcessMemoryReader) (processId : Handle)
    (allowWrite : Bool) : Windows (NtStatus × KernelProcessMemoryReader) := do
  let irql ← keGetCurrentIrql
  if irql ≠ passiveLevel ∨ reader.process ≠ nullptr then
    return (statusInvalidDeviceState, reader)
  if processId = nullptr ∨ processId > maxULong then
    return (statusInvalidParameter, reader)
  let access := requestedAccess allowWrite
  let opened ← zwOpenProcess access (objKernelHandle ||| objForceAccessCheck) processId
  if !ntSuccess opened.status then return (opened.status, reader)
  let info ← zwQueryObject opened.object
  let referenced ← referenceProcess opened.object access (grantedStatus access info)
  zwClose opened.object
  if !ntSuccess referenced.status then return (referenced.status, reader)
  let image ← seLocateProcessImageName referenced.object
  let status ← checkImageName sys image
  if !ntSuccess status then
    obDereferenceObject referenced.object
    return (status, reader)
  return (statusSuccess, ⟨referenced.object⟩)

variable (reader : KernelProcessMemoryReader)

/-- The callers pass the address of a zeroed local, never a null pointer. -/
def resolveImageOffset (offset : ULongPtr) : Windows Resolved := do
  let irql ← keGetCurrentIrql
  if irql ≠ passiveLevel ∨ reader.process = nullptr then
    return ⟨statusInvalidDeviceState, 0⟩
  let imageBase := sys.psGetProcessSectionBaseAddress reader.process
  let highestUserAddress := sys.mmHighestUserAddress
  if imageBase = 0 ∨ imageBase > highestUserAddress then return ⟨statusIntegerOverflow, 0⟩
  let room ← subAddress highestUserAddress imageBase
  if offset > room then return ⟨statusIntegerOverflow, 0⟩
  let address ← addAddress imageBase offset
  return ⟨statusSuccess, address⟩

def maxReadSize : SizeT := 256

/-- `output` is what `CopyValue` stores through its output pointer, if anything. -/
structure Copied where
  status : NtStatus
  bytesRead : SizeT
  output : Option (List Byte)

def copyValue (address : ULongPtr) (size : SizeT) : Windows Copied := do
  let irql ← keGetCurrentIrql
  if irql ≠ passiveLevel ∨ reader.process = nullptr then
    return ⟨statusInvalidDeviceState, 0, none⟩
  let highestUserAddress := sys.mmHighestUserAddress
  if address = 0 ∨ size = 0 ∨ size > maxReadSize ∨ address > highestUserAddress then
    return ⟨statusInvalidParameter, 0, none⟩
  let room ← subAddress highestUserAddress address
  if size - 1 > room then return ⟨statusInvalidParameter, 0, none⟩
  keStackAttachProcess reader.process
  let outcome ← mmCopyMemory address size
  keUnstackDetachProcess
  let status := outcome.completion.status
  if !ntSuccess status then return ⟨status, outcome.copied, none⟩
  if outcome.copied ≠ size then return ⟨statusPartialCopy, outcome.copied, none⟩
  return ⟨statusSuccess, outcome.copied, some (outcome.scratch.take size.toNat)⟩

def read (bits : Nat) (address : ULongPtr) : Windows (MemoryReadResult bits) := do
  let copied ← copyValue sys reader address (byteSize bits)
  return ⟨copied.status, copied.bytesRead, valueOfBytes bits (copied.output.getD [])⟩

def writeUInt32 (address : ULongPtr) (value : ULong) : Windows NtStatus := do
  let irql ← keGetCurrentIrql
  if irql ≠ passiveLevel ∨ reader.process = nullptr then return statusInvalidDeviceState
  if address = 0 then return statusInvalidParameter
  let below ← subAddress sys.mmHighestUserAddress 4
  let last ← addAddress below 1
  if address > last ∨ address &&& 3 ≠ 0 then return statusInvalidParameter
  keStackAttachProcess reader.process
  let probed ← probeForWrite address 4 4
  let raised ← match probed with
    | some code => pure (some code)
    | none => interlockedExchange address value
  keUnstackDetachProcess
  return raised.getD statusSuccess

def perform : (o : ReaderOp) → Windows (ReaderAns o)
  | .note n => note n
  | .resolveImageOffset offset => resolveImageOffset sys reader offset
  | .read bits address => read sys reader bits address
  | .writeUInt32 address value => writeUInt32 sys reader address value

end KernelProcessMemoryReader

def useReader {α : Type} (sys : Platform) (failed : NtStatus → α) (body : Memory α)
    (status : NtStatus) (reader : KernelProcessMemoryReader) : Windows α :=
  if ntSuccess status then body.translate (reader.perform sys) else pure (failed status)

/-- A request opens its process with a local reader, which is destroyed on every way out. -/
def withReader {α : Type} (sys : Platform) (processId : Handle) (allowWrite : Bool)
    (failed : NtStatus → α) (body : Memory α) : Windows α := do
  let (status, reader) ←
    KernelProcessMemoryReader.empty.initializeForRequest sys processId allowWrite
  let response ← useReader sys failed body status reader
  reader.destroy
  return response

end DarkEden
