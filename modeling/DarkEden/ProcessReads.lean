import DarkEden.Concurrency
import DarkEden.PairReads

namespace DarkEden.ProcessReads

open Interaction ByteMemory Windows Memory CoordinateReader Protocol KernelProcessMemoryReader
open ReaderBalance PairReads
open PointerChase (sumWithin)

section Source

/-- `DarkEdenCoordinateReader::BaseOffset`, the absolute address of the first pointer slot. -/
def baseOffset : ULongPtr := 0x009CB97C

/-- `InterpretAsFloat`: the representation is copied byte by byte. -/
def interpretAsFloat (source : MemoryReadResult 64) : MemoryReadResult 64 :=
  let zero : List Byte := List.replicate 8 0
  let copied := if source.succeeded then
      (List.range 8).foldl (fun bytes i => bytes.set i (byteOf source.value.toNat i)) zero
    else zero
  ⟨source.status, source.bytesRead, valueOfBytes 64 copied⟩

structure DarkEdenAllCoordinates where
  pointer32Int : MemoryReadResult 64
  pointer32Float : MemoryReadResult 64
  pointer64Int : MemoryReadResult 64
  pointer64Float : MemoryReadResult 64

/-- `MemoryReadResult<T>{}`: no bytes, and the status that its member starts with. -/
def initialResult (bits : Nat) : MemoryReadResult bits := ⟨statusUnsuccessful, 0, 0⟩

def DarkEdenAllCoordinates.initial : DarkEdenAllCoordinates :=
  ⟨initialResult 64, initialResult 64, initialResult 64, initialResult 64⟩

def readAllDarkEdenCoordinates (basePointerAddress : ULongPtr) : Memory DarkEdenAllCoordinates := do
  let pointer32Int ← readPair 32 basePointerAddress
  let pointer64Int ← readPair 64 basePointerAddress
  return ⟨pointer32Int, interpretAsFloat pointer32Int, pointer64Int, interpretAsFloat pointer64Int⟩

def readFromModule (moduleBase : ULongPtr) : Memory (MemoryReadResult 64) := do
  match ← addOffset 32 moduleBase baseOffset with
  | .error status => return ⟨status, 0, 0⟩
  | .ok basePointerAddress => readPair 32 basePointerAddress

variable {α : Type}

def valueOrStatus {bits : Nat} (result : MemoryReadResult bits) : NtStatus × BitVec bits :=
  if result.succeeded then (statusSuccess, result.value) else (result.status, 0)

/-- What the functions below have in common. The argument `out` is what their pointer argument points
at, if it is not null, and what it points at afterwards comes with the status. -/
def readInto (sys : Platform) (darkedenPid : Handle) (initial : α) (out : Option α)
    (body : Memory (NtStatus × α)) : Windows (NtStatus × Option α) := do
  if out.isNone then return (statusInvalidParameter, none)
  let initialized ← KernelProcessMemoryReader.empty.initializeById darkedenPid
  let result ← useReader sys (fun status => (status, initial)) body initialized.1 initialized.2
  initialized.2.destroy
  return (result.1, some result.2)

def readDarkEdenInt32 (sys : Platform) (darkedenPid : Handle) (address : ULongPtr)
    (value : Option ULong) : Windows (NtStatus × Option ULong) :=
  readInto sys darkedenPid 0 value (valueOrStatus <$> read 32 address)

/-- The coordinates are those of `readPair`, x in the low half. -/
def readDarkEdenCoordinates (sys : Platform) (darkedenPid : Handle)
    (coordinates : Option (BitVec 64)) : Windows (NtStatus × Option (BitVec 64)) :=
  readInto sys darkedenPid 0 coordinates (valueOrStatus <$> readPair 32 baseOffset)

def readAllDarkEdenCoordinateFormats (sys : Platform) (darkedenPid : Handle)
    (readings : Option DarkEdenAllCoordinates) : Windows (NtStatus × Option DarkEdenAllCoordinates) :=
  readInto sys darkedenPid .initial readings
    ((statusSuccess, ·) <$> readAllDarkEdenCoordinates baseOffset)

end Source

section Rules

variable {sys : Platform} {T : Target sys} {found : Handed} {darkedenPid : Handle}
variable {α : Type} {initial : α} {out : Option α} {body : Memory (NtStatus × α)}
variable {P : NtStatus × α → Prop}
variable {l : WinLog}

def Looks (found : Handed) : (o : WinOp) → WinAns o → Prop
  | .psLookupProcessByProcessId _, x => x = found
  | _, _ => True

def lookedUp (T : Target sys) (found : Handed) : Contract WinAns :=
  ⟨fun l o x => T.Fits l o x ∧ Looks found o x, fun _ _ => True⟩

def Binds (T : Target sys) (found : Handed) (darkedenPid : Handle) : Prop :=
  T.irql = passiveLevel ∧ darkedenPid ≠ nullptr ∧ ntSuccess found.status

theorem wp_initializeById_found (l : WinLog) (h : T.after l = T.byte) :
    wp (lookedUp T found) (KernelProcessMemoryReader.empty.initializeById darkedenPid) l fun r l' =>
      T.after l' = T.byte ∧ (Binds T found darkedenPid ∧ r = (found.status, ⟨found.object⟩) ∨
        ¬Binds T found darkedenPid ∧ ntSuccess r.1 = false) := by
  have hkeep : ∀ {l : WinLog} {o : WinOp} (x : WinAns o), o.writes = false → T.after l = T.byte →
      T.after (l ++ [⟨o, x⟩]) = T.byte :=
    fun x ho h => (Target.after_append_of_not_writes ho _ x).trans h
  rw [initializeById]
  refine wp_ask_bind.mpr ⟨trivial, fun irql hirql => ?_⟩
  replace hirql : irql = T.irql := hirql.1
  have h₁ := hkeep (o := .keGetCurrentIrql) irql rfl h
  rw [wp_ite]
  refine ⟨fun hlevel => ⟨h₁, .inr ⟨fun hbinds => hlevel (hirql.trans hbinds.1), rfl⟩⟩, fun hlevel => ?_⟩
  rw [wp_ite]
  refine ⟨fun hbound => absurd rfl hbound, fun _ => ?_⟩
  rw [wp_ite]
  refine ⟨fun hpid => ⟨h₁, .inr ⟨fun hbinds => hbinds.2.1 hpid, rfl⟩⟩, fun hpid => ?_⟩
  refine wp_ask_bind.mpr ⟨trivial, fun x hx => ?_⟩
  obtain rfl : x = found := hx.2
  refine ⟨hkeep (o := .psLookupProcessByProcessId darkedenPid) x rfl h₁, ?_⟩
  by_cases hfound : ntSuccess x.status
  · rw [if_pos hfound]
    exact .inl ⟨⟨hirql.symm.trans (not_not.mp hlevel), hpid, hfound⟩, rfl⟩
  · exact .inr ⟨fun hbinds => hfound hbinds.2.2, Bool.eq_false_iff.mpr hfound⟩

/-- What becomes of the argument that is pointed at: it is read into where the process can be bound,
and else it is as it was initialized. -/
def Filled (T : Target sys) (found : Handed) (darkedenPid : Handle) (initial : α) (out : Option α)
    (P : NtStatus × α → Prop) (r : NtStatus × Option α) : Prop :=
  (out.isSome ∧ Binds T found darkedenPid → ∃ result, r = (result.1, some result.2) ∧ P result) ∧
    (¬(out.isSome ∧ Binds T found darkedenPid) →
      ntSuccess r.1 = false ∧ r.2 = out.map fun _ => initial)

theorem wp_readInto (hbody : wp (T.quiet ⟨found.object⟩) body [] fun r _ => P r)
    (h : T.after l = T.byte) :
    wp (lookedUp T found) (readInto sys darkedenPid initial out body) l fun r _ =>
      Filled T found darkedenPid initial out P r := by
  rw [readInto, wp_ite]
  cases out with
  | none =>
    refine ⟨fun _ => ⟨fun hc => ?_, fun _ => ⟨rfl, rfl⟩⟩, fun hc => absurd rfl hc⟩
    cases hc.1
  | some _ =>
    refine ⟨fun hc => (by cases hc), fun _ => ?_⟩
    rw [wp_bind]
    refine wp_mono (wp_initializeById_found l h) fun initialized l₁ hinitialized => ?_
    obtain ⟨h₁, hr⟩ := hinitialized
    have hdestroyed : ∀ {r : NtStatus × Option α} {l' : WinLog},
        Filled T found darkedenPid initial (some ‹α›) P r →
        wp (lookedUp T found) (initialized.2.destroy >>= fun _ => pure r) l' fun r _ =>
          Filled T found darkedenPid initial (some ‹α›) P r := by
      intro r l' hr
      rw [wp_bind, destroy, wp_ite]
      exact ⟨fun _ => ⟨trivial, fun _ _ => hr⟩, fun _ => hr⟩
    obtain ⟨hbinds, rfl⟩ | ⟨hbinds, hstatus⟩ := hr
    · rw [useReader, if_pos hbinds.2.2, wp_bind]
      have hperformed : wp (lookedUp T found) (body.translate
          (KernelProcessMemoryReader.perform sys ⟨found.object⟩)) l₁
          fun result l' => P result ∧ T.after l' = T.byte :=
        wp_contract (C := T.system) (fun _ _ _ h => h.1) (fun _ _ h => h)
          (Target.wp_performed_quiet hbody h₁)
      refine wp_mono hperformed fun result l₂ hresult => hdestroyed ⟨fun _ => ?_, fun hc => ?_⟩
      · exact ⟨result, rfl, hresult.1⟩
      · exact absurd ⟨rfl, hbinds⟩ hc
    · rw [useReader, if_neg (by simp [hstatus])]
      exact hdestroyed ⟨fun hc => absurd hc.2 hbinds, fun _ => ⟨hstatus, rfl⟩⟩

/-- Whatever the kernel answers, all that is handed out is given back. -/
theorem wp_readInto_balanced (S : Resource → Bool) :
    wp Concurrency.anything (readInto sys darkedenPid initial out body) [] fun _ l' =>
      Owes S 0 l' := by
  have hpass : ∀ {β : Type} {reader : KernelProcessMemoryReader} {p : Windows β} {l : WinLog}
      {Q : β → WinLog → Prop}, wp (attaching reader) p l Q →
      wp Concurrency.anything p l Q :=
    fun h => wp_contract (fun _ _ _ _ => trivial) (fun _ _ _ => trivial) h
  rw [readInto, wp_ite]
  refine ⟨fun _ => rfl, fun _ => ?_⟩
  have hinitialized := wp_initializeById (owes_nil (S := S)) darkedenPid
  rw [wp_bind]
  refine wp_mono (hpass hinitialized) fun initialized l₁ hbound => ?_
  have h₁ := hbound.1
  have hused : wp (attaching initialized.2) (useReader sys (fun status => (status, initial)) body
      initialized.1 initialized.2) l₁ fun _ l' => Owes S (held S initialized.2) l' := by
    rw [useReader, wp_ite]
    exact ⟨fun _ => wp_translate_invariant (uses_of_forall (fun _ => trivial) body)
      (fun o l _ hl => Concurrency.perform_owes initialized.2 o hl) h₁, fun _ => h₁⟩
  rw [wp_bind]
  refine wp_mono (hpass hused) fun _ l₂ h₂ => ?_
  rw [wp_bind]
  exact wp_mono (hpass (wp_destroy h₂)) fun _ _ h₃ => h₃

end Rules

section Readings

variable {sys : Platform} {T : Target sys} {reader : KernelProcessMemoryReader}

def Delivers {bits : Nat} (value : Option (BitVec bits)) (r : MemoryReadResult bits) : Prop :=
  r.value? = value ∧ (value = none → ntSuccess r.status = false)

theorem wp_readAtOffset_delivers {pointerBits : Nat} (hbits : pointerBits ≤ 64) (bits : Nat)
    (base : ULongPtr) (finalOffset : ULong) (l : ReaderLog) :
    wp (T.quiet reader) (readAtOffset pointerBits bits base finalOffset) l fun r _ =>
      Delivers (valueAt T reader pointerBits bits base finalOffset) r := by
  have hfails : wp (T.quiet reader) (readAtOffset pointerBits bits base finalOffset) l fun r _ =>
      r.value? = none → ntSuccess r.status = false := by
    rw [readAtOffset, wp_bind]
    refine wp_mono (wp_addOffset hbits _ _ _) fun r l₁ hr => ?_
    cases r with
    | error status => exact fun _ => (sumWithin_ends _ _ _).2 status hr.symm
    | ok address =>
      change wp _ (followOffsets _ _ _ >>= _) _ _
      rw [wp_bind]
      refine wp_mono (wp_followOffsets hbits _ _ _) fun r l₂ h => ?_
      cases r with
      | error status => exact fun _ => h.2 status rfl
      | ok address => exact ⟨trivial, fun x hx => hx.2⟩
  refine wp_mono (wp_and (wp_readAtOffset hbits bits base finalOffset l) hfails) fun r _ h => ⟨h.1, ?_⟩
  rw [← h.1]
  exact h.2

/-- The value is handed back with success, or else nothing but an error. -/
def HandsBack {bits : Nat} (value : Option (BitVec bits)) (r : NtStatus × BitVec bits) : Prop :=
  (∀ v, value = some v → r = (statusSuccess, v)) ∧ (value = none → ntSuccess r.1 = false ∧ r.2 = 0)

theorem handsBack_of_delivers {bits : Nat} {value : Option (BitVec bits)}
    {r : MemoryReadResult bits} (h : Delivers value r) : HandsBack value (valueOrStatus r) := by
  obtain ⟨rfl, hfailed⟩ := h
  rw [HandsBack, valueOrStatus]
  rw [MemoryReadResult.value?] at hfailed ⊢
  by_cases hs : r.succeeded
  · rw [if_pos hs, if_pos hs]
    exact ⟨fun v hv => by rw [Option.some.inj hv], fun hnone => absurd hnone (Option.some_ne_none _)⟩
  · rw [if_neg hs] at hfailed ⊢
    rw [if_neg hs]
    exact ⟨fun v hv => absurd hv.symm (Option.some_ne_none v), fun _ => ⟨hfailed rfl, rfl⟩⟩

theorem value?_interpretAsFloat (r : MemoryReadResult 64) :
    (interpretAsFloat r).value? = r.value? := by
  have hsucceeded : (interpretAsFloat r).succeeded = r.succeeded := rfl
  rw [MemoryReadResult.value?, MemoryReadResult.value?, hsucceeded]
  by_cases hs : r.succeeded
  · have hbytes : (interpretAsFloat r).value =
        valueOfBytes 64 ((List.range 8).map (byteOf r.value.toNat)) := by
      rw [interpretAsFloat, if_pos hs]
      rfl
    rw [if_pos hs, if_pos hs, hbytes, valueOfBytes, littleEndian_byteOf]
    have hlt : r.value.toNat < 256 ^ 8 := r.value.isLt
    rw [Nat.mod_eq_of_lt hlt, BitVec.ofNat_toNat, BitVec.setWidth_eq]
  · rw [if_neg hs, if_neg hs]

def DarkEdenAllCoordinates.reading (all : DarkEdenAllCoordinates) (request : Request) :
    MemoryReadResult 64 :=
  if request.pointerBytes = 4 then
    if request.valueType = ValueType.int32 then all.pointer32Int else all.pointer32Float
  else if request.valueType = ValueType.int32 then all.pointer64Int else all.pointer64Float

def Shows (r : MemoryReadResult 64) (response : Response) : Prop :=
  (r.succeeded ↔ ntSuccess response.status) ∧
    (r.succeeded → response.xBits = (split r.value).1 ∧ response.yBits = (split r.value).2)

theorem shows_of_says {r : MemoryReadResult 64} {response : Response}
    (h : Says (r.value?.map split) response) : Shows r response := by
  rw [MemoryReadResult.value?] at h
  by_cases hs : r.succeeded
  · rw [if_pos hs] at h
    exact ⟨iff_of_true hs h.1, fun _ => h.2⟩
  · rw [if_neg hs] at h
    have hfailed : ntSuccess response.status = false := h
    exact ⟨iff_of_false hs (by simp [hfailed]), fun hc => absurd hc hs⟩

/-- The request of the driver for a pair of coordinates in one of the formats. -/
structure FormatRequest (request : Request) : Prop where
  valid : validRequest request
  legacy : request.reserved = 0
  pointerBytes : request.pointerBytes = 4 ∨ request.pointerBytes = 8
  both : request.axis = Axis.both
  base : request.baseAddress = baseOffset

/-- Each reading shows what the driver answers to the request for its format. -/
def AgreesWithDriver (T : Target sys) (reader : KernelProcessMemoryReader)
    (all : DarkEdenAllCoordinates) : Prop :=
  ∀ request response, FormatRequest request → Answered T reader request response →
    Shows (all.reading request) response

theorem wp_readAllDarkEdenCoordinates (l : ReaderLog) :
    wp (T.quiet reader) (readAllDarkEdenCoordinates baseOffset) l fun all _ =>
      AgreesWithDriver T reader all := by
  rw [readAllDarkEdenCoordinates, wp_bind]
  refine wp_mono (wp_readAtOffset (by decide) 64 _ _ _) fun pointer32Int l₁ h32 => ?_
  rw [wp_bind]
  refine wp_mono (wp_readAtOffset (by decide) 64 _ _ _) fun pointer64Int l₂ h64 => ?_
  intro request response hformat hanswered
  apply shows_of_says
  have hsays := says_of_answered hformat.valid hformat.legacy hformat.pointerBytes hanswered
  rw [legacyCoordinates, if_pos hformat.both, hformat.base, widthOf] at hsays
  rw [DarkEdenAllCoordinates.reading]
  by_cases hbytes : request.pointerBytes = 4
  · rw [if_pos hbytes] at hsays ⊢
    rw [← h32] at hsays
    by_cases htype : request.valueType = ValueType.int32
    · rwa [if_pos htype]
    · rwa [if_neg htype, value?_interpretAsFloat]
  · rw [if_neg hbytes] at hsays ⊢
    rw [← h64] at hsays
    by_cases htype : request.valueType = ValueType.int32
    · rwa [if_pos htype]
    · rwa [if_neg htype, value?_interpretAsFloat]

theorem wp_readFromModule (moduleBase : ULongPtr) (l : ReaderLog) :
    wp (T.quiet reader) (readFromModule moduleBase) l fun r _ =>
      Delivers ((sumWithin 32 moduleBase baseOffset).toOption.bind fun base =>
        valueAt T reader 32 64 base 0x214) r := by
  rw [readFromModule, wp_bind]
  refine wp_mono (wp_addOffset (by decide) _ _ _) fun r l₁ hr => ?_
  rw [← hr]
  cases r with
  | error status =>
    have hstatus := (sumWithin_ends _ _ _).2 status hr.symm
    have hfailed : (⟨status, 0, 0⟩ : MemoryReadResult 64).succeeded = false := by
      rw [MemoryReadResult.succeeded, hstatus, Bool.false_and]
    exact ⟨if_neg (Bool.eq_false_iff.mp hfailed), fun _ => hstatus⟩
  | ok base => exact wp_readAtOffset_delivers (by decide) 64 _ _ _

theorem wp_readDarkEdenCoordinates {found : Handed} {darkedenPid : Handle}
    {coordinates : Option (BitVec 64)} {l : WinLog} (h : T.after l = T.byte) :
    wp (lookedUp T found) (readDarkEdenCoordinates sys darkedenPid coordinates) l fun r _ =>
      Filled T found darkedenPid 0 coordinates
        (HandsBack (valueAt T ⟨found.object⟩ 32 64 baseOffset 0x214)) r := by
  refine wp_readInto ((wp_map _ _ _ _).mpr ?_) h
  exact wp_mono (wp_readAtOffset_delivers (by decide) 64 _ _ _) fun _ _ hr => handsBack_of_delivers hr

theorem wp_readDarkEdenInt32 {found : Handed} {darkedenPid : Handle} {address : ULongPtr}
    {value : Option ULong} {l : WinLog} (h : T.after l = T.byte) :
    wp (lookedUp T found) (readDarkEdenInt32 sys darkedenPid address value) l fun r _ =>
      Filled T found darkedenPid 0 value (HandsBack (view T ⟨found.object⟩ 32 address)) r := by
  refine wp_readInto ((wp_map _ _ _ _).mpr ⟨trivial, fun x hx => ?_⟩) h
  exact handsBack_of_delivers ⟨hx.1, fun hnone => hx.2 (hx.1.trans hnone)⟩

/-- `ReadAllDarkEdenCoordinateFormats` reads what the driver answers to the requests for the four
formats, hands back four unsuccessful readings where the process cannot be bound by its id, and
keeps nothing. -/
theorem readAll_agrees (T : Target sys) (found : Handed) {env : WinEnv}
    (henv : ∀ l o, T.Fits l o (env l o) ∧ Looks found o (env l o)) (darkedenPid : Handle)
    (readings : Option DarkEdenAllCoordinates) :
    let run := (readAllDarkEdenCoordinateFormats sys darkedenPid readings).run env []
    Filled T found darkedenPid .initial readings
        (fun r => r.1 = statusSuccess ∧ AgreesWithDriver T ⟨found.object⟩ r.2) run.1 ∧
      ∀ S, acquired S run.2 = released S run.2 := by
  refine ⟨?_, fun S => run_of_wp (fun _ _ => trivial) (wp_readInto_balanced S)⟩
  refine run_of_wp (C := lookedUp T found) henv (wp_readInto ((wp_map _ _ _ _).mpr ?_) rfl)
  exact wp_mono (wp_readAllDarkEdenCoordinates _) fun all _ hall => ⟨rfl, hall⟩

/-- A process with coordinates 5, 6, whose pointers are not followed by zeros. -/
def narrowGame : Target samplePlatform := .ofCells samplePlatform silentApi [
  (0x009CB97C, 0x01000000), (0x009CB980, 1), (0x0100000C, 0x01100000), (0x01100044, 0x01200000),
  (0x01200214, 5), (0x01200218, 6)]

/-- Only the formats with 32-bit pointers succeed. -/
theorem readAll_agrees_sample :
    let run := (readAllDarkEdenCoordinateFormats samplePlatform 7 (some .initial)).run
      (narrowGame.env 9 sampleImage) []
    (∃ all, run.1 = (statusSuccess, some all) ∧ AgreesWithDriver narrowGame ⟨9⟩ all) ∧
      run.1.2.map (fun all => (split all.pointer32Float.value, all.pointer64Float.succeeded)) =
        some ((5, 6), false) := by
  intro run
  have henv : ∀ l o, narrowGame.Fits l o (narrowGame.env 9 sampleImage l o) ∧
      Looks ⟨statusSuccess, 9⟩ o (narrowGame.env 9 sampleImage l o) := by
    refine fun l o => ⟨narrowGame.env_fits 9 sampleImage l o, ?_⟩
    cases o <;> first | rfl | trivial
  have hbinds : (some DarkEdenAllCoordinates.initial).isSome ∧ Binds narrowGame ⟨statusSuccess, 9⟩ 7 :=
    ⟨rfl, rfl, by decide, rfl⟩
  obtain ⟨result, hrun, hstatus, hall⟩ :=
    (readAll_agrees narrowGame ⟨statusSuccess, 9⟩ henv 7 (some .initial)).1.1 hbinds
  exact ⟨⟨result.2, by rw [← hstatus]; exact hrun, hall⟩, by decide +kernel⟩

end Readings

end DarkEden.ProcessReads
