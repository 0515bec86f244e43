import DarkEden.ReaderRules

namespace DarkEden

open Interaction ByteMemory KernelProcessMemoryReader ReaderRules

/-- A target process whose memory nothing but the driver changes, on a system where the
interrupt level stays put and user-mode calls are answered the same way every time. -/
structure Target (sys : Platform) where
  byte : Bytes 64
  readable : ULongPtr → Bool
  writable : ULongPtr → Bool
  irql : Kirql
  api : (o : UserApi) → UserApiAns o
  readable_of_writable : ∀ a, writable a → readable a
  user_of_readable : ∀ a, readable a → a ≤ sys.mmHighestUserAddress

instance (sys : Platform) (address : ULongPtr) (size : SizeT) :
    Decidable (CopyRange sys address size) :=
  inferInstanceAs (Decidable (_ ∧ _ ∧ _ ∧ _))

instance (sys : Platform) (imageBase offset : ULongPtr) :
    Decidable (ImageRange sys imageBase offset) :=
  inferInstanceAs (Decidable (_ ∧ _))

instance (sys : Platform) (address : ULongPtr) : Decidable (WriteCheck sys address) :=
  inferInstanceAs (Decidable (_ ∧ _))

/-- The value a read that succeeded has delivered. -/
def MemoryReadResult.value? {bits : Nat} (r : MemoryReadResult bits) : Option (BitVec bits) :=
  if r.succeeded then some r.value else none

namespace Target

variable {sys : Platform} (T : Target sys)

/-- The memory after the exchanges of a run. -/
def after (l : WinLog) : Bytes 64 :=
  l.foldl (fun m e => match e.1, e.2 with
    | .interlockedExchange a v, none => store m a 4 v.toNat
    | _, _ => m) T.byte

def Complete (size : SizeT) (bytes : List Byte) (x : CopyOutcome) : Prop :=
  ntSuccess x.completion.status ∧ x.copied = size ∧ x.scratch.take size.toNat = bytes

/-- The answers of the system that fit the target. Opening the process is left open. -/
def Fits (l : WinLog) : (o : WinOp) → WinAns o → Prop
  | .user o, x => x = T.api o
  | .keGetCurrentIrql, irql => irql = T.irql
  | .mmCopyMemory a n, x =>
    if covers T.readable a n.toNat then Complete n (load (T.after l) a n.toNat) x
    else ¬(ntSuccess x.completion.status ∧ x.copied = n)
  | .probeForWrite a n _, x =>
    (covers T.writable a n.toNat → x = none) ∧ ∀ code ∈ x, ntSuccess code = false
  | .interlockedExchange a _, x =>
    (x = none ↔ covers T.writable a 4) ∧ ∀ code ∈ x, ntSuccess code = false
  | _, _ => True

/-- The value at an address, where a reader may fetch it. -/
def peek (m : Bytes 64) (bits : Nat) (a : ULongPtr) : Option (BitVec bits) :=
  if CopyRange sys a (byteSize bits) ∧ covers T.readable a (byteSize bits).toNat then
    some (valueOfBytes bits (load m a (byteSize bits).toNat))
  else none

def dword (a : ULongPtr) : Option ULong := T.peek T.byte 32 a

/-- The process opens with the rights that a request asks for, with or without those to write. -/
def Opens (sys : Platform) (allowWrite : Bool) (process : PEProcess) :
    (o : WinOp) → WinAns o → Prop
  | .zwOpenProcess _ _ _, x => ntSuccess x.status
  | .zwQueryObject _, x => ntSuccess x.status ∧ sizeofPublicObjectBasicInformation ≤ x.returned ∧
      x.grantedAccess &&& requestedAccess allowWrite = requestedAccess allowWrite
  | .obReferenceObjectByHandle _ _, x => ntSuccess x.status ∧ x.object = process
  | .seLocateProcessImageName _, x =>
    ntSuccess x.status ∧ rtlEqualUnicodeString sys (leaf x.name) expectedImage
  | _, _ => True

def openedSystem (allowWrite : Bool) (process : PEProcess) : Contract WinAns :=
  ⟨fun l o x => T.Fits l o x ∧ Opens sys allowWrite process o x, fun _ _ => True⟩

/-- The methods of the reader find the interrupt level and the process they need. -/
def ready (reader : KernelProcessMemoryReader) : Bool :=
  T.irql = passiveLevel ∧ reader.process ≠ nullptr

def written (l : ReaderLog) : Bytes 64 :=
  l.foldl (fun m e => match e.1, e.2 with
    | .writeUInt32 a v, status => if ntSuccess status then store m a 4 v.toNat else m
    | _, _ => m) T.byte

def Answers (reader : KernelProcessMemoryReader) (l : ReaderLog) :
    (o : ReaderOp) → ReaderAns o → Prop
  | .note _, _ => True
  | .resolveImageOffset offset, x =>
    let imageBase := sys.psGetProcessSectionBaseAddress reader.process
    if T.ready reader ∧ ImageRange sys imageBase offset then x = ⟨statusSuccess, imageBase + offset⟩
    else ntSuccess x.status = false
  | .read bits a, x =>
    x.value? = (if T.ready reader then T.peek (T.written l) bits a else none) ∧
      (x.value? = none → ntSuccess x.status = false)
  | .writeUInt32 a _, x =>
    ntSuccess x ↔ T.ready reader ∧ WriteCheck sys a ∧ covers T.writable a 4

def system : Contract WinAns := ⟨T.Fits, fun _ _ => True⟩

def readerOf (reader : KernelProcessMemoryReader) : Contract ReaderAns :=
  ⟨T.Answers reader, fun _ _ => True⟩

variable {T}

theorem after_append (l : WinLog) (e : Sigma WinAns) :
    T.after (l ++ [e]) = match e.1, e.2 with
      | .interlockedExchange a v, none => store (T.after l) a 4 v.toNat
      | _, _ => T.after l := by
  rw [after, List.foldl_append]
  rfl

theorem after_append_of_not_writes {o : WinOp} (ho : o.writes = false) (l : WinLog) (x : WinAns o) :
    T.after (l ++ [⟨o, x⟩]) = T.after l := by
  rw [after_append]
  cases o <;> first | rfl | cases ho

theorem written_append (l : ReaderLog) (e : Sigma ReaderAns) :
    T.written (l ++ [e]) = match e.1, e.2 with
      | .writeUInt32 a v, status => if ntSuccess status then store (T.written l) a 4 v.toNat
        else T.written l
      | _, _ => T.written l := by
  rw [written, List.foldl_append]
  rfl

theorem system_keeps (m : Bytes 64) : Keeps T.system fun l => T.after l = m where
  guar _ _ _ _ := trivial
  keep l o x h ho _ := by
    have hwrites : o.writes = false := by cases o <;> first | rfl | cases ho
    rw [after_append_of_not_writes hwrites, h]

theorem system_freeNote (m : Bytes 64) (n : Note) :
    FreeNote T.system (fun l => T.after l = m) n :=
  fun l h => ⟨trivial, by
    change T.after _ = m
    rw [after_append_of_not_writes rfl, h]⟩

variable {reader : KernelProcessMemoryReader}

theorem ready_of_wasReady {J : WinLog → Prop} (h : WasReady T.system J reader) :
    T.ready reader = true := by
  obtain ⟨hprocess, l, -, hirql⟩ := h
  exact decide_eq_true ⟨hirql.symm, hprocess⟩

theorem not_ready_of_notReady {J : WinLog → Prop} (h : NotReady T.system J reader) :
    T.ready reader = false := by
  apply decide_eq_false
  rintro ⟨hirql, hprocess⟩
  rcases h with hnull | ⟨l, irql, -, hfits, hne⟩
  · exact hprocess hnull
  · exact hne (hfits.trans hirql)

theorem value?_failed {bits : Nat} {r : Copied} (h : ntSuccess r.status = false) :
    (readResult bits r).value? = none := by
  rw [MemoryReadResult.value?, readResult_failed h]
  rfl

theorem value?_copiedOf {bits : Nat} {m : Bytes 64} {a : ULongPtr} {x : CopyOutcome}
    (hrange : CopyRange sys a (byteSize bits))
    (hfits : if covers T.readable a (byteSize bits).toNat then
        Complete (byteSize bits) (load m a (byteSize bits).toNat) x
      else ¬(ntSuccess x.completion.status ∧ x.copied = byteSize bits)) :
    let r := readResult bits (copiedOf (byteSize bits) x)
    r.value? = T.peek m bits a ∧ (r.value? = none → ntSuccess r.status = false) := by
  intro r
  rcases copiedOf_cases (byteSize bits) x with ⟨hcomplete, hr⟩ | ⟨hincomplete, hr⟩
  · have hcovers : covers T.readable a (byteSize bits).toNat := by
      by_contra hnot
      rw [if_neg hnot] at hfits
      exact hfits hcomplete
    rw [if_pos hcovers] at hfits
    have hvalue : r.value? = T.peek m bits a := by
      rw [peek, if_pos ⟨hrange, hcovers⟩, ← hfits.2.2, MemoryReadResult.value?,
        MemoryReadResult.succeeded]
      simp [r, readResult, hr, show ntSuccess statusSuccess = true from rfl]
    refine ⟨hvalue, fun hnone => ?_⟩
    rw [hvalue, peek, if_pos ⟨hrange, hcovers⟩] at hnone
    cases hnone
  · refine ⟨?_, fun _ => hr⟩
    rw [value?_failed hr, peek, if_neg]
    rintro ⟨-, hcovers⟩
    rw [if_pos hcovers] at hfits
    exact hincomplete ⟨hfits.1, hfits.2.1⟩

section Methods

variable {l₁ : ReaderLog} {l₂ : WinLog}

theorem wp_resolveImageOffset_answers (offset : ULongPtr) (h : T.after l₂ = T.written l₁) :
    wp T.system (resolveImageOffset sys reader offset) l₂ fun r l₂' =>
      T.Answers reader l₁ (.resolveImageOffset offset) r ∧ T.after l₂' = T.written l₁ := by
  refine wp_mono (wp_resolveImageOffset (system_keeps _) rfl (fun _ => system_freeNote _ _)
    (fun _ => system_freeNote _ _) h) fun r l' ⟨hl', hr⟩ => ⟨?_, hl'⟩
  rcases hr with ⟨rfl, hnot⟩ | ⟨hready, ⟨rfl, hrange⟩ | ⟨rfl, hrange⟩⟩
  · rw [Answers, if_neg (by simp [not_ready_of_notReady hnot])]
    rfl
  · rw [Answers, if_neg fun hc => hrange hc.2]
    rfl
  · rw [Answers, if_pos ⟨ready_of_wasReady hready, hrange⟩]

theorem wp_read_answers (bits : Nat) (a : ULongPtr) (h : T.after l₂ = T.written l₁) :
    wp T.system (read sys reader bits a) l₂ fun r l₂' =>
      T.Answers reader l₁ (.read bits a) r ∧ T.after l₂' = T.written l₁ := by
  rw [KernelProcessMemoryReader.read, wp_bind]
  refine wp_mono (wp_copyValue (system_keeps _) (fun _ => system_freeNote _ _)
    (fun l hl _ _ => ⟨trivial, fun x _ => ?_⟩) h) fun r l' ⟨hl', hr⟩ => ⟨?_, hl'⟩
  · rw [after_append_of_not_writes rfl, hl]
  · change (readResult bits r).value? = _ ∧ _
    rcases hr with ⟨rfl, hnot⟩ | ⟨hready, ⟨rfl, hrange⟩ | ⟨x, l₃, rfl, hrange, hl₃, hfits, -⟩⟩
    · rw [value?_failed rfl, not_ready_of_notReady hnot]
      exact ⟨rfl, fun _ => rfl⟩
    · rw [value?_failed rfl, if_pos (ready_of_wasReady hready), peek, if_neg fun hc => hrange hc.1]
      exact ⟨rfl, fun _ => rfl⟩
    · rw [if_pos (ready_of_wasReady hready)]
      change if covers T.readable a _ then Complete _ (load (T.after l₃) a _) x else ¬_ at hfits
      rw [hl₃] at hfits
      exact value?_copiedOf hrange hfits

theorem refused_answers {a : ULongPtr} {v : ULong} {status : NtStatus}
    (hs : ntSuccess status = false)
    (hnot : ¬(T.ready reader ∧ WriteCheck sys a ∧ covers T.writable a 4))
    (h : T.after l₂ = T.written l₁) :
    T.Answers reader l₁ (.writeUInt32 a v) status ∧
      T.after l₂ = T.written (l₁ ++ [⟨.writeUInt32 a v, status⟩]) := by
  refine ⟨⟨fun hsuccess => absurd hsuccess (by simp [hs]), fun hc => absurd hc hnot⟩, ?_⟩
  rw [written_append, h]
  exact (if_neg (by simp [hs])).symm

theorem wp_writeUInt32_answers (a : ULongPtr) (v : ULong) (h : T.after l₂ = T.written l₁) :
    wp T.system (writeUInt32 sys reader a v) l₂ fun status l₂' =>
      T.Answers reader l₁ (.writeUInt32 a v) status ∧
        T.after l₂' = T.written (l₁ ++ [⟨.writeUInt32 a v, status⟩]) := by
  refine wp_mono (wp_writeUInt32
    (K := fun x l => T.after l = match x with
      | none => store (T.written l₁) a 4 v.toNat
      | some _ => T.written l₁)
    (system_keeps (T.written l₁)) (fun x => system_keeps _) (system_freeNote _ _)
    (system_freeNote _ _)
    (fun l hl _ _ => ⟨trivial, fun x _ => ?_⟩) (fun l hl _ _ => ⟨trivial, fun x _ => ?_⟩) h)
    fun r l' hr => ?_
  · rw [after_append_of_not_writes rfl, hl]
  · rw [after_append, hl]
    cases x <;> rfl
  rcases hr with ⟨hl', ⟨rfl, hnot⟩ | ⟨hready, ⟨rfl, hcheck⟩ | ⟨l₃, -, -, hfits, -⟩⟩⟩ |
    ⟨hready, x, l₃, hl', rfl, hcheck, -, hfits⟩
  · exact refused_answers rfl (fun hc => by simp [not_ready_of_notReady hnot] at hc) hl'
  · exact refused_answers rfl (fun hc => hcheck hc.2.1) hl'
  · exact refused_answers (hfits.2 r rfl) (fun hc => absurd (hfits.1 hc.2.2) (by simp)) hl'
  · cases x with
    | none =>
      have hsuccess : ntSuccess statusSuccess = true := rfl
      refine ⟨⟨fun _ => ⟨ready_of_wasReady hready, hcheck, hfits.1.mp rfl⟩, fun _ => rfl⟩, ?_⟩
      rw [written_append, hl']
      exact (if_pos hsuccess).symm
    | some code =>
      exact refused_answers (hfits.2 code rfl) (fun hc => absurd (hfits.1.mpr hc.2.2) (by simp)) hl'

end Methods

theorem perform_answers (l₁ : ReaderLog) (l₂ : WinLog) (o : ReaderOp)
    (h : T.after l₂ = T.written l₁) :
    wp T.system (perform sys reader o) l₂ fun x l₂' =>
      T.Answers reader l₁ o x ∧ T.after l₂' = T.written (l₁ ++ [⟨o, x⟩]) := by
  cases o with
  | note n =>
    refine ⟨trivial, fun _ _ => ⟨trivial, ?_⟩⟩
    rw [after_append_of_not_writes rfl, h, written_append]
  | resolveImageOffset offset =>
    refine wp_mono (wp_resolveImageOffset_answers offset h) fun r l' ⟨hr, hl'⟩ => ⟨hr, ?_⟩
    rw [hl', written_append]
  | read bits a =>
    refine wp_mono (wp_read_answers bits a h) fun r l' ⟨hr, hl'⟩ => ⟨hr, ?_⟩
    rw [hl', written_append]
  | writeUInt32 a v => exact wp_writeUInt32_answers a v h

theorem wp_performed {α : Type} {body : Memory α} {Q : α → ReaderLog → Prop}
    (h : wp (T.readerOf reader) body [] Q) {l : WinLog} (hl : T.after l = T.byte) :
    wp T.system (body.translate (perform sys reader)) l fun a l' =>
      ∃ l₁, T.after l' = T.written l₁ ∧ Q a l₁ :=
  wp_translate (R := fun l₁ l₂ => T.after l₂ = T.written l₁)
    (fun l₁ l₂ o h _ => perform_answers l₁ l₂ o h) (l := []) hl h

section Opening

variable {C : Contract WinAns} {J : WinLog → Prop} {process : PEProcess}

theorem granted_requestedAccess {granted : AccessMask} (allowWrite : Bool)
    (h : granted &&& requestedAccess true = requestedAccess true) :
    granted &&& requestedAccess allowWrite = requestedAccess allowWrite := by
  have hsub : requestedAccess true &&& requestedAccess allowWrite = requestedAccess allowWrite := by
    cases allowWrite <;> decide
  calc granted &&& requestedAccess allowWrite
      = granted &&& requestedAccess true &&& requestedAccess allowWrite := by
        rw [BitVec.and_assoc, hsub]
    _ = requestedAccess allowWrite := by rw [h, hsub]

theorem Opens.restrict {o : WinOp} {x : WinAns o} (allowWrite : Bool)
    (h : Opens sys true process o x) : Opens sys allowWrite process o x := by
  cases o with
  | zwQueryObject handle => exact ⟨h.1, h.2.1, granted_requestedAccess allowWrite h.2.2⟩
  | _ => exact h

/-! The process ids of valid requests pass the check of `InitializeForRequest`. -/

theorem processId_accepted {processId : Handle} (hzero : processId ≠ 0)
    (hmax : processId ≤ 0xFFFFFFFF) : ¬(processId = nullptr ∨ processId > maxULong) := by
  rintro (h | h)
  · exact hzero h
  · exact BitVec.not_lt.mpr hmax h

theorem validRequest_processId {request : Request} (h : validRequest request) :
    ¬(request.processId = nullptr ∨ request.processId > maxULong) := by
  obtain ⟨-, -, -, hzero, hmax, -⟩ := of_decide_eq_true h
  exact processId_accepted hzero hmax

theorem validTextRequest_processId {request : TextRequest} (h : validTextRequest request) :
    ¬(request.processId = nullptr ∨ request.processId > maxULong) := by
  obtain ⟨-, -, hzero, hmax, -⟩ := of_decide_eq_true h
  exact processId_accepted hzero hmax

theorem validSelectTargetRequest_processId {request : SelectTargetRequest}
    (h : validSelectTargetRequest request) :
    ¬(request.processId = nullptr ∨ request.processId > maxULong) := by
  obtain ⟨-, -, hzero, hmax, -⟩ := of_decide_eq_true h
  exact processId_accepted hzero hmax

theorem wp_initializeForRequest_opens (hJ : Keeps C J)
    {allowWrite : Bool} (hopens : ∀ l o x, C.rely l o x → Opens sys allowWrite process o x)
    (hirql : ∀ l x, C.rely l .keGetCurrentIrql x → x = passiveLevel) {processId : Handle}
    (hpid : ¬(processId = nullptr ∨ processId > maxULong)) {l : WinLog} (h : J l) :
    wp C (initializeForRequest sys .empty processId allowWrite) l fun r l' =>
      J l' ∧ r = (statusSuccess, ⟨process⟩) := by
  refine hJ.bind_ask rfl h fun irql hirql' h₁ => ?_
  rw [if_neg (by simp [hirql _ _ hirql', KernelProcessMemoryReader.empty]), if_neg hpid]
  refine hJ.bind_ask rfl h₁ fun opened hopened h₂ => ?_
  have hopened : ntSuccess opened.status := hopens _ _ _ hopened
  rw [if_neg (by simp [hopened])]
  refine hJ.bind_ask rfl h₂ fun info hinfo h₃ => ?_
  obtain ⟨hstatus, hlength, hgranted⟩ := hopens _ _ _ hinfo
  have hgranted : ntSuccess (grantedStatus (requestedAccess allowWrite) info) := by
    have hlength : ¬(ntSuccess info.status ∧ info.returned < sizeofPublicObjectBasicInformation) :=
      fun hc => absurd hc.2 (BitVec.not_lt.mpr hlength)
    simp only [grantedStatus, if_neg hlength]
    rwa [if_neg fun hc => hc.2 hgranted]
  rw [referenceProcess, if_pos hgranted]
  refine hJ.bind_ask rfl h₃ fun referenced href h₄ => ?_
  obtain ⟨hreferenced, rfl⟩ := hopens _ _ _ href
  refine hJ.bind_ask rfl h₄ fun _ _ h₅ => ?_
  rw [if_neg (by simp [hreferenced])]
  refine hJ.bind_ask rfl h₅ fun image himage h₆ => ?_
  obtain ⟨himage, hname⟩ := hopens _ _ _ himage
  rw [checkImageName, if_pos himage]
  refine hJ.bind_ask rfl h₆ fun _ _ h₇ => ?_
  rw [if_pos hname]
  change wp C (ite _ _ _) _ _
  rw [if_neg (by simp [himage])]
  exact ⟨h₇, rfl⟩

/-- Where the process opens, the body runs with it; the destructor only releases it. -/
theorem wp_withReader_opens (hJ : Keeps C J)
    {allowWrite : Bool} (hopens : ∀ l o x, C.rely l o x → Opens sys allowWrite process o x)
    (hirql : ∀ l x, C.rely l .keGetCurrentIrql x → x = passiveLevel) {α : Type}
    {processId : Handle} (hpid : ¬(processId = nullptr ∨ processId > maxULong))
    {failed : NtStatus → α} {body : Memory α} {Q : α → WinLog → Prop} (hQ : ∀ r, Keeps C (Q r))
    (hbody : ∀ l, J l → wp C (body.translate (perform sys ⟨process⟩)) l Q) {l : WinLog} (h : J l) :
    wp C (withReader sys processId allowWrite failed body) l Q := by
  rw [withReader, wp_bind]
  refine wp_mono (wp_initializeForRequest_opens hJ hopens hirql hpid h) fun r l₁ ⟨h₁, hr⟩ => ?_
  subst hr
  change wp C (useReader sys failed body statusSuccess ⟨process⟩ >>= _) l₁ Q
  have hsuccess : ntSuccess statusSuccess = true := rfl
  rw [useReader, if_pos hsuccess, wp_bind]
  refine wp_mono (hbody l₁ h₁) fun response l₂ h₂ => ?_
  rw [wp_bind, destroy, wp_ite]
  exact ⟨fun _ => ⟨(hQ response).guar _ _ h₂ rfl, fun x hx => (hQ response).keep _ _ x h₂ rfl hx⟩,
    fun _ => h₂⟩

end Opening

section Instance

variable (T)

/-- An environment of the target in which the process opens. -/
def env (process : PEProcess) (image : UnicodeString) : WinEnv := fun l o =>
  match o with
  | .user o => T.api o
  | .note _ => ()
  | .keGetCurrentIrql => T.irql
  | .psLookupProcessByProcessId _ => ⟨statusSuccess, process⟩
  | .zwOpenProcess _ _ _ => ⟨statusSuccess, 4⟩
  | .zwQueryObject _ => ⟨statusSuccess, 0x1FFFFF, sizeofPublicObjectBasicInformation⟩
  | .obReferenceObjectByHandle _ _ => ⟨statusSuccess, process⟩
  | .zwClose _ => ()
  | .seLocateProcessImageName _ => ⟨statusSuccess, image⟩
  | .exFreePool => ()
  | .obDereferenceObject _ => ()
  | .keStackAttachProcess _ => ()
  | .keUnstackDetachProcess => ()
  | .mmCopyMemory a n =>
    if covers T.readable a n.toNat then ⟨.returned statusSuccess, n, load (T.after l) a n.toNat⟩
    else ⟨.returned statusPartialCopy, 0, []⟩
  | .probeForWrite a n _ => if covers T.writable a n.toNat then none else some statusAccessViolation
  | .interlockedExchange a _ => if covers T.writable a 4 then none else some statusAccessViolation

theorem env_fits (process : PEProcess) (image : UnicodeString) (l : WinLog) (o : WinOp) :
    T.Fits l o (T.env process image l o) := by
  have hfault : ∀ {c : Prop} [Decidable c], ((if c then none else some statusAccessViolation :
      Option NtStatus) = none ↔ c) ∧
      ∀ code ∈ (if c then none else some statusAccessViolation : Option NtStatus),
        ntSuccess code = false := by
    intro c _
    by_cases h : c
    · simp [h]
    · simp only [h, if_false]
      exact ⟨by simp, fun code hcode => by cases hcode; rfl⟩
  cases o with
  | mmCopyMemory a n =>
    rw [Fits, env]
    by_cases h : covers T.readable a n.toNat
    · rw [if_pos h, if_pos h]
      refine ⟨rfl, rfl, ?_⟩
      rw [List.take_of_length_le (Nat.le_of_eq (length_load _ _ _))]
    · rw [if_neg h, if_neg h]
      exact fun hc => absurd hc.1 (by decide)
  | probeForWrite a n alignment => exact ⟨hfault.1.mpr, hfault.2⟩
  | interlockedExchange a v => exact hfault
  | keGetCurrentIrql => rfl
  | user o => rfl
  | _ => trivial

theorem env_copied_le (process : PEProcess) (image : UnicodeString) (l : WinLog)
    (address : ULongPtr) (size : SizeT) :
    (T.env process image l (.mmCopyMemory address size)).copied ≤ size := by
  rw [env]
  by_cases h : covers T.readable address size.toNat
  · rw [if_pos h]
    exact BitVec.le_refl _
  · rw [if_neg h]
    exact BitVec.le_def.mpr (Nat.zero_le _)

theorem allAccess_granted :
    (0x1FFFFF : AccessMask) &&& requestedAccess true = requestedAccess true := by decide

theorem env_opens {process : PEProcess} {image : UnicodeString}
    (himage : rtlEqualUnicodeString sys (leaf image) expectedImage) (l : WinLog) (o : WinOp) :
    Opens sys true process o (T.env process image l o) := by
  cases o with
  | zwOpenProcess => rfl
  | zwQueryObject => exact ⟨rfl, BitVec.le_refl _, allAccess_granted⟩
  | obReferenceObjectByHandle => exact ⟨rfl, rfl⟩
  | seLocateProcessImageName => exact ⟨rfl, himage⟩
  | _ => trivial

end Instance

end Target

/-- A 64-bit system whose processes are loaded at `0x400000`. -/
def samplePlatform : Platform where
  mmHighestUserAddress := 0x7FFFFFFEFFFF
  psGetProcessSectionBaseAddress _ := 0x400000
  rtlUpcaseUnicodeChar c := if 0x61 ≤ c ∧ c ≤ 0x7A then c - 0x20 else c
  multiByteToWideChar _ _ bytes := some (bytes.map (BitVec.setWidth 16))
  rtlNtStatusToDosError status := status
  formatMessageW _ := []
  iswspace c := c = 0x20

def silentApi : (o : UserApi) → UserApiAns o
  | .createFileW _ => none
  | .openProcess _ _ => true
  | .virtualQueryEx _ => none
  | .getMappedFileNameW _ => none
  | .queryDriverService => ⟨0, 0, 0, 0⟩

/-- The user-mode side of a game whose image is mapped at `0x400000`. -/
def gameApi : (o : UserApi) → UserApiAns o
  | .createFileW _ => none
  | .openProcess _ _ => true
  | .virtualQueryEx address =>
    if address < 0x400000 then some ⟨address, 0, 0x400000 - address, false, false⟩
    else some ⟨0x400000, 0x400000, 0x1000, true, true⟩
  | .getMappedFileNameW _ => some (wide "\\Device\\Volume\\Game\\DarkEden.exe")
  | .queryDriverService => ⟨0, 0, 0, 0⟩

def sampleIrp : Irp where
  ioControlCode := Protocol.selectTarget
  inputBufferLength := sizeofSelectTargetRequest
  outputBufferLength := sizeofSelectTargetResponse
  systemBuffer := some (SelectTargetRequest.mk 3 sizeofSelectTargetRequest 7 5 0).encode
  requestorMode := .userMode
  requestorProcess := 9
  currentProcess := 9

def sampleImage : UnicodeString :=
  let path := wide "\\Game\\DarkEden.exe"
  { length := BitVec.ofNat 16 (2 * path.length), buffer := fun i => path.getD i 0 }

theorem sampleImage_expected :
    rtlEqualUnicodeString samplePlatform (leaf sampleImage) expectedImage := by
  decide +kernel

/-- The target whose mapped memory consists of the given dwords, all writable. -/
def Target.ofCells (sys : Platform) (api : (o : UserApi) → UserApiAns o)
    (cells : List (ULongPtr × ULong)) : Target sys :=
  let cellAt := fun a : ULongPtr => cells.find? fun c => (a - c.1).toNat < 4
  let mapped := fun a : ULongPtr => (cellAt a).isSome && decide (a ≤ sys.mmHighestUserAddress)
  { byte := fun a => match cellAt a with
      | some c => byteOf c.2.toNat (a - c.1).toNat
      | none => 0
    readable := mapped
    writable := mapped
    irql := passiveLevel
    api := api
    readable_of_writable := fun _ h => h
    user_of_readable := fun _ h => of_decide_eq_true ((Bool.and_eq_true _ _).mp h).2 }

/-- A game with one character, whose id is 5. -/
def sampleGame : Target samplePlatform := .ofCells samplePlatform silentApi [
  (0x00EB3254, 0x01000000), (0x01000000, 0x009D8310), (0x01000028, 0), -- the controller
  (0x00EB31D0, 0x01100000), (0x01100034, 0x01200000), (0x01200004, 0x01300000), -- manager, header
  (0x01300010, 5), (0x01300014, 0x01400000), -- the root of the tree
  (0x01400008, 5), (0x0140000C, 0x00200010)] -- its actor

end DarkEden
