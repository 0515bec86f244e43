import DarkEden.Driver

namespace DarkEden.ReaderRules

open Interaction Windows KernelProcessMemoryReader

variable {C : Contract WinAns} {J : WinLog → Prop} {sys : Platform}
variable {reader : KernelProcessMemoryReader}

/-- Every operation that neither touches the target nor is a ghost step. -/
def plain : WinOp → Bool
  | .note _ => false
  | o => !o.accesses

/-- Plain operations are allowed wherever `J` holds and do not disturb it. -/
structure Keeps (C : Contract WinAns) (J : WinLog → Prop) : Prop where
  guar : ∀ l o, J l → plain o → C.guar l o
  keep : ∀ l o x, J l → plain o → C.rely l o x → J (l ++ [⟨o, x⟩])

theorem Keeps.bind_ask {α : Type} (hJ : Keeps C J) {o : WinOp} {f : WinAns o → Windows α}
    {l : WinLog} {Q : α → WinLog → Prop} (ho : plain o) (h : J l)
    (hf : ∀ x, C.rely l o x → J (l ++ [⟨o, x⟩]) → wp C (f x) (l ++ [⟨o, x⟩]) Q) :
    wp C (Program.ask o >>= f) l Q :=
  wp_ask_bind.mpr ⟨hJ.guar l o h ho, fun x hx => hf x hx (hJ.keep l o x h ho hx)⟩

theorem wp_subAddress {a b : ULongPtr} {l : WinLog} {Q : ULongPtr → WinLog → Prop} :
    wp C (subAddress a b) l Q ↔ C.guar l (.note (.diff a b)) ∧
      (C.rely l (.note (.diff a b)) () → Q (a - b) (l ++ [⟨.note (.diff a b), ()⟩])) :=
  and_congr_right' ⟨fun h => h (), fun h _ => h⟩

theorem wp_addAddress {a b : ULongPtr} {l : WinLog} {Q : ULongPtr → WinLog → Prop} :
    wp C (addAddress a b) l Q ↔ C.guar l (.note (.sum a b)) ∧
      (C.rely l (.note (.sum a b)) () → Q (a + b) (l ++ [⟨.note (.sum a b), ()⟩])) :=
  and_congr_right' ⟨fun h => h (), fun h _ => h⟩

def attached (l : WinLog) : Option PEProcess :=
  l.foldl (fun s e => match e.1 with
    | .keStackAttachProcess p => some p
    | .keUnstackDetachProcess => none
    | _ => s) none

theorem attached_append (l : WinLog) (p : PEProcess) (x : WinAns (.keStackAttachProcess p)) :
    attached (l ++ [⟨.keStackAttachProcess p, x⟩]) = some p := by
  simp [attached]

/-- `[address, address + size - 1]` lies in the user address space, without wrap-around. -/
def CopyRange (sys : Platform) (address : ULongPtr) (size : SizeT) : Prop :=
  1 ≤ address.toNat ∧ 1 ≤ size.toNat ∧ size.toNat ≤ 256 ∧
    address.toNat + size.toNat - 1 ≤ sys.mmHighestUserAddress.toNat

theorem copyRange_of_checks {address : ULongPtr} {size : SizeT}
    (h : ¬(address = 0 ∨ size = 0 ∨ size > maxReadSize ∨ address > sys.mmHighestUserAddress))
    (hroom : ¬size - 1 > sys.mmHighestUserAddress - address) : CopyRange sys address size := by
  simp only [not_or, maxReadSize] at h
  unfold CopyRange
  bv_omega

theorem checks_of_copyRange {address : ULongPtr} {size : SizeT} (h : CopyRange sys address size) :
    ¬(address = 0 ∨ size = 0 ∨ size > maxReadSize ∨ address > sys.mmHighestUserAddress) ∧
      ¬size - 1 > sys.mmHighestUserAddress - address := by
  unfold CopyRange at h
  simp only [not_or, maxReadSize]
  bv_omega

def FreeNote (C : Contract WinAns) (J : WinLog → Prop) (n : Note) : Prop :=
  ∀ l, J l → C.guar l (.note n) ∧ J (l ++ [⟨.note n, ()⟩])

/-- Why a method of the reader may give up before it touches the target. -/
def NotReady (C : Contract WinAns) (J : WinLog → Prop) (reader : KernelProcessMemoryReader) : Prop :=
  reader.process = nullptr ∨
    ∃ l irql, J l ∧ C.rely l .keGetCurrentIrql irql ∧ irql ≠ passiveLevel

/-- The state check that every method starts with was passed. -/
def WasReady (C : Contract WinAns) (J : WinLog → Prop) (reader : KernelProcessMemoryReader) : Prop :=
  reader.process ≠ nullptr ∧ ∃ l, J l ∧ C.rely l .keGetCurrentIrql passiveLevel

theorem wp_stateCheck {α : Type} (hJ : Keeps C J) {refused : α} {p : Windows α} {l : WinLog}
    {Q : α → WinLog → Prop} (h : J l)
    (hrefused : ∀ l', J l' → NotReady C J reader → Q refused l')
    (hp : ∀ l', J l' → WasReady C J reader → wp C p l' Q) :
    wp C (do
      let irql ← keGetCurrentIrql
      if irql ≠ passiveLevel ∨ reader.process = nullptr then return refused
      p) l Q := by
  refine hJ.bind_ask rfl h fun irql hirql h₁ => ?_
  rw [wp_ite]
  refine ⟨fun hbad => hrefused _ h₁ ?_, fun hgood => hp _ h₁ ?_⟩
  · rcases hbad with hne | hnull
    · exact .inr ⟨l, irql, h, hirql, hne⟩
    · exact .inl hnull
  · rw [not_or, not_not] at hgood
    exact ⟨hgood.2, l, h, hgood.1 ▸ hirql⟩

def copiedOf (size : SizeT) (x : CopyOutcome) : Copied :=
  if !ntSuccess x.completion.status then ⟨x.completion.status, x.copied, none⟩
  else if x.copied ≠ size then ⟨statusPartialCopy, x.copied, none⟩
  else ⟨statusSuccess, x.copied, some (x.scratch.take size.toNat)⟩

theorem copiedOf_cases (size : SizeT) (x : CopyOutcome) :
    (ntSuccess x.completion.status ∧ x.copied = size) ∧
        copiedOf size x = ⟨statusSuccess, size, some (x.scratch.take size.toNat)⟩ ∨
      ¬(ntSuccess x.completion.status ∧ x.copied = size) ∧
        ntSuccess (copiedOf size x).status = false := by
  unfold copiedOf
  by_cases hstatus : ntSuccess x.completion.status
  · rw [if_neg (by simpa using hstatus)]
    by_cases hcopied : x.copied = size
    · exact .inl ⟨⟨hstatus, hcopied⟩, by rw [if_neg (not_not.mpr hcopied), hcopied]⟩
    · exact .inr ⟨fun h => hcopied h.2, by rw [if_pos hcopied]; rfl⟩
  · exact .inr ⟨fun h => hstatus h.1, by rw [if_pos (by simpa using hstatus)]; simpa using hstatus⟩

def readResult (bits : Nat) (r : Copied) : MemoryReadResult bits :=
  ⟨r.status, r.bytesRead, valueOfBytes bits (r.output.getD [])⟩

theorem readResult_failed {bits : Nat} {r : Copied} (h : ntSuccess r.status = false) :
    (readResult bits r).succeeded = false := by
  rw [MemoryReadResult.succeeded, readResult, h, Bool.false_and]

theorem wp_copyValue (hJ : Keeps C J) {address : ULongPtr} {size : SizeT}
    (hdiff : address ≤ sys.mmHighestUserAddress →
      FreeNote C J (.diff sys.mmHighestUserAddress address))
    (hcopy : ∀ l, J l → attached l = some reader.process → CopyRange sys address size →
      C.guar l (.mmCopyMemory address size) ∧ ∀ x, C.rely l (.mmCopyMemory address size) x →
        J (l ++ [⟨.mmCopyMemory address size, x⟩])) {l : WinLog} (h : J l) :
    wp C (copyValue sys reader address size) l fun r l' => J l' ∧
      (r = ⟨statusInvalidDeviceState, 0, none⟩ ∧ NotReady C J reader ∨ WasReady C J reader ∧
        (r = ⟨statusInvalidParameter, 0, none⟩ ∧ ¬CopyRange sys address size ∨
          ∃ x l₁, r = copiedOf size x ∧ CopyRange sys address size ∧ J l₁ ∧
            C.rely l₁ (.mmCopyMemory address size) x ∧
            l₁ ++ [⟨.mmCopyMemory address size, x⟩] <+: l')) := by
  refine wp_stateCheck hJ h (fun _ h₁ hnot => ⟨h₁, .inl ⟨rfl, hnot⟩⟩) fun l₁ h₁ hready => ?_
  refine wp_mono (Q := fun r l' => J l' ∧ _) ?_ fun r l' hr => ⟨hr.1, .inr ⟨hready, hr.2⟩⟩
  rw [wp_ite]
  refine ⟨fun hbad => ⟨h₁, .inl ⟨rfl, fun hr => (checks_of_copyRange hr).1 hbad⟩⟩,
    fun hgood => ?_⟩
  have hle : address ≤ sys.mmHighestUserAddress := by
    simp only [not_or] at hgood
    exact BitVec.not_lt.mp hgood.2.2.2
  obtain ⟨hguar, h₂⟩ := hdiff hle _ h₁
  rw [wp_bind, wp_subAddress]
  refine ⟨hguar, fun _ => ?_⟩
  rw [wp_ite]
  refine ⟨fun hbad => ⟨h₂, .inl ⟨rfl, fun hr => (checks_of_copyRange hr).2 hbad⟩⟩,
    fun hroom => ?_⟩
  have hrange := copyRange_of_checks hgood hroom
  refine hJ.bind_ask rfl h₂ fun att _ h₃ => ?_
  obtain ⟨hguar, hkeep⟩ := hcopy _ h₃ (attached_append _ _ _) hrange
  refine wp_ask_bind.mpr ⟨hguar, fun x hx => ?_⟩
  refine hJ.bind_ask rfl (hkeep x hx) fun det _ h₅ => ?_
  have hstep : copiedOf size x = if !ntSuccess x.completion.status then _ else _ := rfl
  rw [wp_ite]
  refine ⟨fun hs => ⟨h₅, .inr ⟨x, _, (if_pos hs).symm, hrange, h₃, hx, List.prefix_append _ _⟩⟩,
    fun hs => ?_⟩
  rw [if_neg hs] at hstep
  rw [wp_ite]
  refine ⟨fun hc => ⟨h₅, .inr ⟨x, _, ?_, hrange, h₃, hx, List.prefix_append _ _⟩⟩,
    fun hc => ⟨h₅, .inr ⟨x, _, ?_, hrange, h₃, hx, List.prefix_append _ _⟩⟩⟩
  · exact (hstep.trans (if_pos hc)).symm
  · rw [hstep, if_neg hc, not_not.mp hc]

/-- The image holds `offset` bytes of user address space after its base. -/
def ImageRange (sys : Platform) (imageBase offset : ULongPtr) : Prop :=
  imageBase ≠ 0 ∧ imageBase.toNat + offset.toNat ≤ sys.mmHighestUserAddress.toNat

theorem wp_resolveImageOffset (hJ : Keeps C J) {offset imageBase : ULongPtr}
    (hbase : sys.psGetProcessSectionBaseAddress reader.process = imageBase)
    (hdiff : imageBase ≤ sys.mmHighestUserAddress →
      FreeNote C J (.diff sys.mmHighestUserAddress imageBase))
    (hsum : ImageRange sys imageBase offset → FreeNote C J (.sum imageBase offset))
    {l : WinLog} (h : J l) :
    wp C (resolveImageOffset sys reader offset) l fun r l' => J l' ∧
      (r = ⟨statusInvalidDeviceState, 0⟩ ∧ NotReady C J reader ∨ WasReady C J reader ∧
        (r = ⟨statusIntegerOverflow, 0⟩ ∧ ¬ImageRange sys imageBase offset ∨
          r = ⟨statusSuccess, imageBase + offset⟩ ∧ ImageRange sys imageBase offset)) := by
  subst hbase
  refine wp_stateCheck hJ h (fun _ h₁ hnot => ⟨h₁, .inl ⟨rfl, hnot⟩⟩) fun l₁ h₁ hready => ?_
  refine wp_mono (Q := fun r l' => J l' ∧ _) ?_ fun r l' hr => ⟨hr.1, .inr ⟨hready, hr.2⟩⟩
  rw [wp_ite]
  refine ⟨fun hbad => ⟨h₁, .inl ⟨rfl, fun hr => ?_⟩⟩, fun hgood => ?_⟩
  · unfold ImageRange at hr
    bv_omega
  rw [not_or] at hgood
  obtain ⟨hguar, h₂⟩ := hdiff (BitVec.not_lt.mp hgood.2) _ h₁
  rw [wp_bind, wp_subAddress]
  refine ⟨hguar, fun _ => ?_⟩
  rw [wp_ite]
  refine ⟨fun hbad => ⟨h₂, .inl ⟨rfl, fun hr => ?_⟩⟩, fun hroom => ?_⟩
  · unfold ImageRange at hr
    bv_omega
  have hrange : ImageRange sys (sys.psGetProcessSectionBaseAddress reader.process) offset := by
    unfold ImageRange
    bv_omega
  obtain ⟨hguar, h₃⟩ := hsum hrange _ h₂
  rw [wp_bind, wp_addAddress]
  exact ⟨hguar, fun _ => ⟨h₃, .inr ⟨rfl, hrange⟩⟩⟩

/-- The range and alignment check of `WriteUInt32`, as the code computes it. -/
def WriteCheck (sys : Platform) (address : ULongPtr) : Prop :=
  address ≠ 0 ∧ ¬(address > sys.mmHighestUserAddress - 4 + 1 ∨ address &&& 3 ≠ 0)

theorem wp_writeUInt32 (hJ : Keeps C J) {K : Option NtStatus → WinLog → Prop}
    (hK : ∀ x, Keeps C (K x)) {address : ULongPtr} {value : ULong}
    (hdiff : FreeNote C J (.diff sys.mmHighestUserAddress 4))
    (hsum : FreeNote C J (.sum (sys.mmHighestUserAddress - 4) 1))
    (hprobe : ∀ l, J l → attached l = some reader.process → WriteCheck sys address →
      C.guar l (.probeForWrite address 4 4) ∧ ∀ x, C.rely l (.probeForWrite address 4 4) x →
        J (l ++ [⟨.probeForWrite address 4 4, x⟩]))
    (hexchange : ∀ l, J l → attached l = some reader.process → WriteCheck sys address →
      C.guar l (.interlockedExchange address value) ∧
        ∀ x, C.rely l (.interlockedExchange address value) x →
          K x (l ++ [⟨.interlockedExchange address value, x⟩])) {l : WinLog} (h : J l) :
    wp C (writeUInt32 sys reader address value) l fun r l' =>
      J l' ∧ (r = statusInvalidDeviceState ∧ NotReady C J reader ∨ WasReady C J reader ∧
        (r = statusInvalidParameter ∧ ¬WriteCheck sys address ∨
          ∃ l₁, WriteCheck sys address ∧ J l₁ ∧
            C.rely l₁ (.probeForWrite address 4 4) (some r) ∧
            l₁ ++ [⟨.probeForWrite address 4 4, some r⟩] <+: l')) ∨
      WasReady C J reader ∧ ∃ x l₁, K x l' ∧ r = x.getD statusSuccess ∧ WriteCheck sys address ∧
        J l₁ ∧ C.rely l₁ (.interlockedExchange address value) x := by
  refine wp_stateCheck hJ h (fun _ h₁ hnot => .inl ⟨h₁, .inl ⟨rfl, hnot⟩⟩) fun l₁ h₁ hready => ?_
  rw [wp_ite]
  refine ⟨fun hzero => .inl ⟨h₁, .inr ⟨hready, .inl ⟨rfl, fun hc => hc.1 hzero⟩⟩⟩, fun hne => ?_⟩
  obtain ⟨hguar, h₂⟩ := hdiff _ h₁
  rw [wp_bind, wp_subAddress]
  refine ⟨hguar, fun _ => ?_⟩
  obtain ⟨hguar, h₃⟩ := hsum _ h₂
  rw [wp_bind, wp_addAddress]
  refine ⟨hguar, fun _ => ?_⟩
  rw [wp_ite]
  refine ⟨fun hbad => .inl ⟨h₃, .inr ⟨hready, .inl ⟨rfl, fun hc => hc.2 hbad⟩⟩⟩, fun hgood => ?_⟩
  have hcheck : WriteCheck sys address := ⟨hne, hgood⟩
  refine hJ.bind_ask rfl h₃ fun att _ h₄ => ?_
  obtain ⟨hguar, hkeep⟩ := hprobe _ h₄ (attached_append _ _ _) hcheck
  refine wp_ask_bind.mpr ⟨hguar, fun probed hprobed => ?_⟩
  have h₅ := hkeep probed hprobed
  cases probed with
  | some code =>
    refine hJ.bind_ask rfl h₅ fun _ _ h₆ => ?_
    exact .inl ⟨h₆, .inr ⟨hready, .inr ⟨_, hcheck, h₄, hprobed, List.prefix_append _ _⟩⟩⟩
  | none =>
    obtain ⟨hguar, hkeep⟩ := hexchange _ h₅ (by simp [attached]) hcheck
    refine wp_ask_bind.mpr ⟨hguar, fun x hx => ?_⟩
    refine (hK x).bind_ask rfl (hkeep x hx) fun _ _ h₆ => ?_
    exact .inr ⟨hready, x, _, h₆, rfl, hcheck, h₅, hx⟩

/-- The log shows the process opened for the request: forced access checks, all requested
rights granted, and the image name of the referenced object checked. -/
def Opened (sys : Platform) (processId : Handle) (allowWrite : Bool) (process : PEProcess)
    (l : WinLog) : Prop :=
  ∃ (opened : Handed) (info : QueryOutcome) (referenced : Handed) (image : NameOutcome),
    ⟨.zwOpenProcess (requestedAccess allowWrite) (objKernelHandle ||| objForceAccessCheck)
      processId, opened⟩ ∈ l ∧ ntSuccess opened.status ∧
    ⟨.zwQueryObject opened.object, info⟩ ∈ l ∧ ntSuccess info.status ∧
    info.grantedAccess &&& requestedAccess allowWrite = requestedAccess allowWrite ∧
    ⟨.obReferenceObjectByHandle opened.object (requestedAccess allowWrite), referenced⟩ ∈ l ∧
    ntSuccess referenced.status ∧ referenced.object = process ∧
    ⟨.seLocateProcessImageName process, image⟩ ∈ l ∧ ntSuccess image.status ∧
    rtlEqualUnicodeString sys (leaf image.name) expectedImage

theorem Opened.mono {processId : Handle} {allowWrite : Bool} {process : PEProcess} {l l' : WinLog}
    (h : Opened sys processId allowWrite process l) (hl : l <+: l') :
    Opened sys processId allowWrite process l' := by
  obtain ⟨opened, info, referenced, image, h₁, h₂, h₃, h₄, h₅, h₆, h₇, h₈, h₉, h₁₀⟩ := h
  exact ⟨opened, info, referenced, image, hl.mem h₁, h₂, hl.mem h₃, h₄, h₅, hl.mem h₆, h₇, h₈,
    hl.mem h₉, h₁₀⟩

theorem granted_of_grantedStatus {access : AccessMask} {info : QueryOutcome}
    (h : ntSuccess (grantedStatus access info)) :
    ntSuccess info.status ∧ info.grantedAccess &&& access = access := by
  unfold grantedStatus at h
  by_cases hlen : ntSuccess info.status ∧ info.returned < sizeofPublicObjectBasicInformation
  · simp only [if_pos hlen] at h
    rw [if_neg fun hm => absurd hm.1 (by decide)] at h
    exact absurd h (by decide)
  · simp only [if_neg hlen] at h
    by_cases hd : ntSuccess info.status ∧ info.grantedAccess &&& access ≠ access
    · rw [if_pos hd] at h
      exact absurd h (by decide)
    · rw [if_neg hd] at h
      exact ⟨h, by_contra fun hne => hd ⟨h, hne⟩⟩

theorem wp_referenceProcess (hJ : Keeps C J) {handle : Handle} {access : AccessMask}
    {status : NtStatus} {l : WinLog} (h : J l) :
    wp C (referenceProcess handle access status) l fun r l' => J l' ∧ l <+: l' ∧
      (ntSuccess r.status → ntSuccess status ∧
        ⟨.obReferenceObjectByHandle handle access, r⟩ ∈ l') := by
  unfold referenceProcess
  rw [wp_ite]
  refine ⟨fun hs => ?_, fun hs => ⟨h, List.prefix_rfl, fun hs' => absurd hs' hs⟩⟩
  refine ⟨hJ.guar _ _ h rfl, fun r hr => ⟨hJ.keep _ _ r h rfl hr, List.prefix_append _ _, ?_⟩⟩
  exact fun _ => ⟨hs, by simp⟩

theorem wp_checkImageName (hJ : Keeps C J) {image : NameOutcome} {l : WinLog} (h : J l) :
    wp C (checkImageName sys image) l fun status l' => J l' ∧ l <+: l' ∧ (ntSuccess status →
      ntSuccess image.status ∧ rtlEqualUnicodeString sys (leaf image.name) expectedImage) := by
  unfold checkImageName
  rw [wp_ite]
  refine ⟨fun hs => ?_, fun hs => ⟨h, List.prefix_rfl, fun hs' => absurd hs' hs⟩⟩
  refine hJ.bind_ask rfl h fun _ _ h' => ⟨h', List.prefix_append _ _, fun hs' => ⟨hs, ?_⟩⟩
  by_contra hne
  rw [if_neg hne] at hs'
  exact absurd hs' (by decide)

theorem wp_initializeForRequest (hJ : Keeps C J) {processId : Handle} {allowWrite : Bool}
    {l : WinLog} (h : J l) :
    wp C (initializeForRequest sys reader processId allowWrite) l fun r l' => J l' ∧
      (ntSuccess r.1 = false ∧ r.2 = reader ∨
        r.1 = statusSuccess ∧ Opened sys processId allowWrite r.2.process l') := by
  unfold initializeForRequest
  refine hJ.bind_ask rfl h fun irql _ h₁ => ?_
  rw [wp_ite]
  refine ⟨fun _ => ⟨h₁, .inl ⟨rfl, rfl⟩⟩, fun _ => ?_⟩
  rw [wp_ite]
  refine ⟨fun _ => ⟨h₁, .inl ⟨rfl, rfl⟩⟩, fun _ => ?_⟩
  refine hJ.bind_ask rfl h₁ fun opened _ h₂ => ?_
  rw [wp_ite]
  refine ⟨fun hs => ⟨h₂, .inl ⟨by simpa using hs, rfl⟩⟩, fun hopened => ?_⟩
  refine hJ.bind_ask rfl h₂ fun info _ h₃ => ?_
  rw [wp_bind]
  refine wp_mono (wp_referenceProcess hJ h₃) fun referenced l₄ ⟨h₄, hl₄, href⟩ => ?_
  refine hJ.bind_ask rfl h₄ fun _ _ h₅ => ?_
  rw [wp_ite]
  refine ⟨fun hs => ⟨h₅, .inl ⟨by simpa using hs, rfl⟩⟩, fun hs => ?_⟩
  obtain ⟨hgranted, href⟩ := href (by simpa using hs)
  obtain ⟨hinfo, hgranted⟩ := granted_of_grantedStatus hgranted
  refine hJ.bind_ask rfl h₅ fun image _ h₆ => ?_
  rw [wp_bind]
  refine wp_mono (wp_checkImageName hJ h₆) fun status l₇ ⟨h₇, hl₇, himage⟩ => ?_
  rw [wp_ite]
  refine ⟨fun hf => hJ.bind_ask rfl h₇ fun _ _ h₈ => ⟨h₈, .inl ⟨by simpa using hf, rfl⟩⟩,
    fun hf => ⟨h₇, .inr ⟨rfl, ?_⟩⟩⟩
  obtain ⟨himage, hname⟩ := himage (by simpa using hf)
  refine Opened.mono ?_ hl₇
  have hlog : ∀ e ∈ l₄, e ∈ l₄ ++ [⟨.zwClose opened.object, ()⟩] ++
      [⟨.seLocateProcessImageName referenced.object, image⟩] := fun e he => by simp [he]
  exact ⟨opened, info, referenced, image, hlog _ (hl₄.mem (by simp)), by simpa using hopened,
    hlog _ (hl₄.mem (by simp)), hinfo, hgranted, hlog _ href, by simpa using hs, rfl,
    by simp, himage, hname⟩

/-- What holds after the body must survive the destructor of the reader. -/
theorem wp_withReader {α : Type} (hJ : Keeps C J) {processId : Handle} {allowWrite : Bool}
    {failed : NtStatus → α} {body : Memory α} {Q : α → WinLog → Prop} (hQ : ∀ r, Keeps C (Q r))
    (hfail : ∀ status l, J l → ntSuccess status = false → Q (failed status) l)
    (hbody : ∀ reader l, J l → Opened sys processId allowWrite reader.process l →
      wp C (body.translate (perform sys reader)) l Q) {l : WinLog} (h : J l) :
    wp C (withReader sys processId allowWrite failed body) l Q := by
  unfold withReader
  rw [wp_bind]
  refine wp_mono (wp_initializeForRequest hJ h) fun r l₁ ⟨h₁, hr⟩ => ?_
  have huse : wp C (useReader sys failed body r.1 r.2) l₁ Q := by
    unfold useReader
    rcases hr with ⟨hs, -⟩ | ⟨hs, hopened⟩
    · rw [hs]
      exact hfail r.1 l₁ h₁ hs
    · rw [hs]
      exact hbody r.2 l₁ h₁ hopened
  change wp C (useReader sys failed body r.1 r.2 >>= _) l₁ Q
  rw [wp_bind]
  refine wp_mono huse fun response l₂ h₂ => ?_
  rw [wp_bind, destroy, wp_ite]
  exact ⟨fun _ => ⟨(hQ response).guar _ _ h₂ rfl, fun x hx => (hQ response).keep _ _ x h₂ rfl hx⟩,
    fun _ => h₂⟩

/-- The checks `DeviceControl` makes on an IRP of one command before it reads the request. -/
structure Gate (irp : Irp) (buffer : Nat) (command requestSize responseSize : ULong) : Prop where
  command : irp.ioControlCode = command
  buffer : irp.systemBuffer = some buffer
  input : irp.inputBufferLength = requestSize
  output : responseSize ≤ irp.outputBufferLength
  mode : irp.requestorMode = .userMode
  process : irp.requestorProcess = irp.currentProcess

open Protocol in
theorem wp_deviceControl_of_irql
    (hJ : ∀ l, J l → C.guar l .keGetCurrentIrql ∧ ∀ irql, C.rely l .keGetCurrentIrql irql →
      J (l ++ [⟨.keGetCurrentIrql, irql⟩])) {irp : Irp} {Q : Completed → WinLog → Prop}
    (hrefuse : ∀ status l, J l → ntSuccess status = false → Q (complete irp status) l)
    (htext : ∀ buffer l, Gate irp buffer readText sizeofTextRequest sizeofTextResponse → J l →
      ⟨.keGetCurrentIrql, passiveLevel⟩ ∈ l → validTextRequest (.decode buffer) →
      wp C (executeDarkEdenTextRequest sys (.decode buffer)) l fun r =>
        Q ⟨statusSuccess, sizeofTextResponse.setWidth 64, some r.encode⟩)
    (hselect : ∀ buffer l,
      Gate irp buffer selectTarget sizeofSelectTargetRequest sizeofSelectTargetResponse → J l →
      ⟨.keGetCurrentIrql, passiveLevel⟩ ∈ l → validSelectTargetRequest (.decode buffer) →
      wp C (executeSelectTargetRequest sys (.decode buffer)) l fun r =>
        Q ⟨statusSuccess, sizeofSelectTargetResponse.setWidth 64, some r.encode⟩)
    (hcoordinates : ∀ buffer l, Gate irp buffer readCoordinates sizeofRequest sizeofResponse →
      J l → ⟨.keGetCurrentIrql, passiveLevel⟩ ∈ l → validRequest (.decode buffer) →
      wp C (executeDarkEdenRequest sys (.decode buffer)) l fun r =>
        Q ⟨statusSuccess, sizeofResponse.setWidth 64, some r.encode⟩)
    {l : WinLog} (h : J l) : wp C (deviceControl sys irp) l Q := by
  unfold deviceControl
  rw [wp_ite]
  refine ⟨fun _ => hrefuse _ l h (by decide), fun hcommand => ?_⟩
  cases hbuffer : irp.systemBuffer with
  | none => exact hrefuse _ l h (by decide)
  | some buffer =>
    simp only [wp_ite]
    refine ⟨fun _ => hrefuse _ l h (by decide), fun hsize => ?_⟩
    rw [not_or, not_not, BitVec.not_lt] at hsize
    obtain ⟨hguar, hkeep⟩ := hJ l h
    refine wp_ask_bind.mpr ⟨hguar, fun irql hirql => ?_⟩
    have h₁ := hkeep irql hirql
    rw [wp_ite]
    refine ⟨fun _ => hrefuse _ _ h₁ (by decide), fun hcontext => ?_⟩
    simp only [not_or, not_not] at hcontext
    obtain ⟨rfl, hmode, hprocess⟩ := hcontext
    have hpassive : (⟨.keGetCurrentIrql, passiveLevel⟩ : Sigma WinAns) ∈
      l ++ [⟨.keGetCurrentIrql, passiveLevel⟩] := by simp
    rw [wp_ite]
    refine ⟨fun hread => ?_, fun hread => ?_⟩
    · simp only [hread, if_true] at hsize
      simp only [wp_ite]
      refine ⟨fun _ => hrefuse _ _ h₁ (by decide), fun _ => ⟨fun _ => hrefuse _ _ h₁ (by decide),
        fun hvalid => ?_⟩⟩
      rw [wp_bind]
      exact htext buffer _ ⟨hread, hbuffer, hsize.1, hsize.2, hmode, hprocess⟩ h₁ hpassive
        (by simpa using hvalid)
    rw [wp_ite]
    refine ⟨fun hread' => ?_, fun hread' => ?_⟩
    · simp only [hread', if_true] at hsize
      simp only [wp_ite]
      refine ⟨fun _ => hrefuse _ _ h₁ (by decide), fun _ => ⟨fun _ => hrefuse _ _ h₁ (by decide),
        fun hvalid => ?_⟩⟩
      rw [wp_bind]
      exact hselect buffer _ ⟨hread', hbuffer, hsize.1, hsize.2, hmode, hprocess⟩ h₁ hpassive
        (by simpa using hvalid)
    · have hcoord : irp.ioControlCode = readCoordinates := by
        by_contra hne
        exact hcommand ⟨hne, hread, hread'⟩
      simp only [hread, hread', if_false] at hsize
      simp only [wp_ite]
      refine ⟨fun _ => hrefuse _ _ h₁ (by decide), fun _ => ⟨fun _ => hrefuse _ _ h₁ (by decide),
        fun hvalid => ?_⟩⟩
      rw [wp_bind]
      exact hcoordinates buffer _ ⟨hcoord, hbuffer, hsize.1, hsize.2, hmode, hprocess⟩ h₁ hpassive
        (by simpa using hvalid)

open Protocol in
theorem wp_deviceControl (hJ : Keeps C J) {irp : Irp} {Q : Completed → WinLog → Prop}
    (hrefuse : ∀ status l, J l → ntSuccess status = false → Q (complete irp status) l)
    (htext : ∀ buffer l, Gate irp buffer readText sizeofTextRequest sizeofTextResponse → J l →
      ⟨.keGetCurrentIrql, passiveLevel⟩ ∈ l → validTextRequest (.decode buffer) →
      wp C (executeDarkEdenTextRequest sys (.decode buffer)) l fun r =>
        Q ⟨statusSuccess, sizeofTextResponse.setWidth 64, some r.encode⟩)
    (hselect : ∀ buffer l,
      Gate irp buffer selectTarget sizeofSelectTargetRequest sizeofSelectTargetResponse → J l →
      ⟨.keGetCurrentIrql, passiveLevel⟩ ∈ l → validSelectTargetRequest (.decode buffer) →
      wp C (executeSelectTargetRequest sys (.decode buffer)) l fun r =>
        Q ⟨statusSuccess, sizeofSelectTargetResponse.setWidth 64, some r.encode⟩)
    (hcoordinates : ∀ buffer l, Gate irp buffer readCoordinates sizeofRequest sizeofResponse →
      J l → ⟨.keGetCurrentIrql, passiveLevel⟩ ∈ l → validRequest (.decode buffer) →
      wp C (executeDarkEdenRequest sys (.decode buffer)) l fun r =>
        Q ⟨statusSuccess, sizeofResponse.setWidth 64, some r.encode⟩)
    {l : WinLog} (h : J l) : wp C (deviceControl sys irp) l Q :=
  wp_deviceControl_of_irql (fun l hl => ⟨hJ.guar l _ hl rfl, fun irql => hJ.keep l _ irql hl rfl⟩)
    hrefuse htext hselect hcoordinates h

open Protocol in
theorem wp_deviceControl_refused (hJ : Keeps C J)
    (hirql : ∀ l x, C.rely l .keGetCurrentIrql x → x ≠ passiveLevel) (irp : Irp) {l : WinLog}
    (h : J l) :
    wp C (deviceControl sys irp) l fun completed l' => J l' ∧ ntSuccess completed.status = false := by
  rw [deviceControl, wp_ite]
  refine ⟨fun _ => ⟨h, rfl⟩, fun _ => ?_⟩
  cases irp.systemBuffer with
  | none => exact ⟨h, rfl⟩
  | some buffer =>
    simp only [wp_ite]
    refine ⟨fun _ => ⟨h, rfl⟩, fun _ => hJ.bind_ask rfl h fun irql hx h₁ => ?_⟩
    rw [if_pos (.inl (hirql _ _ hx))]
    exact ⟨h₁, rfl⟩

open Protocol in
theorem wp_deviceControl_select (hJ : Keeps C J)
    (hirql : ∀ l x, C.rely l .keGetCurrentIrql x → x = passiveLevel) {irp : Irp} {buffer : Nat}
    (hgate : Gate irp buffer selectTarget sizeofSelectTargetRequest sizeofSelectTargetResponse)
    (hvalid : validSelectTargetRequest (.decode buffer)) {Q : Completed → WinLog → Prop}
    (hselect : ∀ l, J l → wp C (executeSelectTargetRequest sys (.decode buffer)) l fun r =>
      Q ⟨statusSuccess, sizeofSelectTargetResponse.setWidth 64, some r.encode⟩)
    {l : WinLog} (h : J l) : wp C (deviceControl sys irp) l Q := by
  have hread : selectTarget ≠ readText := by decide
  have hversion : (SelectTargetRequest.decode buffer).version = version :=
    (of_decide_eq_true hvalid).1
  rw [deviceControl, hgate.command, hgate.buffer, hgate.input, hgate.mode, hgate.process]
  rw [if_neg fun hc => hc.2.2 rfl]
  simp only [if_neg hread, if_true]
  rw [if_neg (not_or.mpr ⟨not_not.mpr rfl, BitVec.not_lt.mpr hgate.output⟩)]
  refine hJ.bind_ask rfl h fun irql hx h₁ => ?_
  rw [if_neg (by simp [hirql _ _ hx]), if_neg (not_not.mpr hversion),
    if_neg (by simpa using hvalid), wp_bind]
  exact hselect _ h₁

open Protocol in
theorem wp_deviceControl_coordinates (hJ : Keeps C J)
    (hirql : ∀ l x, C.rely l .keGetCurrentIrql x → x = passiveLevel) {irp : Irp} {buffer : Nat}
    (hgate : Gate irp buffer readCoordinates sizeofRequest sizeofResponse)
    (hvalid : validRequest (.decode buffer)) {Q : Completed → WinLog → Prop}
    (hcoordinates : ∀ l, J l → wp C (executeDarkEdenRequest sys (.decode buffer)) l fun r =>
      Q ⟨statusSuccess, sizeofResponse.setWidth 64, some r.encode⟩)
    {l : WinLog} (h : J l) : wp C (deviceControl sys irp) l Q := by
  have hread : readCoordinates ≠ readText := by decide
  have hselect : readCoordinates ≠ selectTarget := by decide
  have hversion : (Request.decode buffer).version = version := (of_decide_eq_true hvalid).1
  rw [deviceControl, hgate.command, hgate.buffer, hgate.input, hgate.mode, hgate.process]
  rw [if_neg fun hc => hc.1 rfl]
  simp only [if_neg hread, if_neg hselect]
  rw [if_neg (not_or.mpr ⟨not_not.mpr rfl, BitVec.not_lt.mpr hgate.output⟩)]
  refine hJ.bind_ask rfl h fun irql hx h₁ => ?_
  rw [if_neg (by simp [hirql _ _ hx]), if_neg (not_not.mpr hversion),
    if_neg (by simpa using hvalid), wp_bind]
  exact hcoordinates _ h₁

open Protocol in
theorem wp_deviceControl_text (hJ : Keeps C J)
    (hirql : ∀ l x, C.rely l .keGetCurrentIrql x → x = passiveLevel) {irp : Irp} {buffer : Nat}
    (hgate : Gate irp buffer readText sizeofTextRequest sizeofTextResponse)
    (hvalid : validTextRequest (.decode buffer)) {Q : Completed → WinLog → Prop}
    (htext : ∀ l, J l → wp C (executeDarkEdenTextRequest sys (.decode buffer)) l fun r =>
      Q ⟨statusSuccess, sizeofTextResponse.setWidth 64, some r.encode⟩)
    {l : WinLog} (h : J l) : wp C (deviceControl sys irp) l Q := by
  have hversion : (TextRequest.decode buffer).version = version := (of_decide_eq_true hvalid).1
  rw [deviceControl, hgate.command, hgate.buffer, hgate.input, hgate.mode, hgate.process]
  rw [if_neg fun hc => hc.2.1 rfl]
  simp only [if_true]
  rw [if_neg (not_or.mpr ⟨not_not.mpr rfl, BitVec.not_lt.mpr hgate.output⟩)]
  refine hJ.bind_ask rfl h fun irql hx h₁ => ?_
  rw [if_neg (by simp [hirql _ _ hx]), if_neg (not_not.mpr hversion),
    if_neg (by simpa using hvalid), wp_bind]
  exact htext _ h₁

end DarkEden.ReaderRules
