import DarkEden.ReaderRules
import DarkEden.Walkers

namespace DarkEden.Authorization

open Interaction ReaderRules Walkers KernelProcessMemoryReader Protocol

variable {sys : Platform}

/-- The text after the last backslash, or all of it where there is none. -/
def afterLastBackslash (path : WString) : WString :=
  (path.reverse.takeWhile (· ≠ backslash)).reverse

def Supported (irp : Irp) : Prop :=
  ∃ buffer, irp.systemBuffer = some buffer ∧
    (irp.ioControlCode = readCoordinates ∧ irp.inputBufferLength = sizeofRequest ∧
        sizeofResponse ≤ irp.outputBufferLength ∧ (Request.decode buffer).version = version ∧
        validRequest (.decode buffer) ∨
      irp.ioControlCode = readText ∧ irp.inputBufferLength = sizeofTextRequest ∧
        sizeofTextResponse ≤ irp.outputBufferLength ∧
        (TextRequest.decode buffer).version = version ∧ validTextRequest (.decode buffer) ∨
      irp.ioControlCode = selectTarget ∧ irp.inputBufferLength = sizeofSelectTargetRequest ∧
        sizeofSelectTargetResponse ≤ irp.outputBufferLength ∧
        (SelectTargetRequest.decode buffer).version = version ∧
        validSelectTargetRequest (.decode buffer))

/-- The log shows that `process` was opened with forced access checks and rights `access`
and is the image `darkeden.exe`. -/
def OpenedWith (sys : Platform) (access : AccessMask) (process : PEProcess) (l : WinLog) : Prop :=
  ∃ (desired : AccessMask) (attributes : ULong) (processId : Handle) (opened : Handed)
    (info : QueryOutcome) (referenced : Handed) (image : NameOutcome),
    ⟨.zwOpenProcess desired attributes processId, opened⟩ ∈ l ∧ ntSuccess opened.status ∧
    attributes &&& objForceAccessCheck = objForceAccessCheck ∧
    ⟨.zwQueryObject opened.object, info⟩ ∈ l ∧ ntSuccess info.status ∧
    info.grantedAccess &&& access = access ∧
    ⟨.obReferenceObjectByHandle opened.object desired, referenced⟩ ∈ l ∧
    ntSuccess referenced.status ∧ referenced.object = process ∧
    ⟨.seLocateProcessImageName process, image⟩ ∈ l ∧ ntSuccess image.status ∧
    (afterLastBackslash image.name.units).map sys.rtlUpcaseUnicodeChar =
      expectedImage.map sys.rtlUpcaseUnicodeChar

/-- Everything that must have happened before the driver touches the process it is attached to. -/
structure Authorized (sys : Platform) (irp : Irp) (access : AccessMask) (l : WinLog) : Prop where
  supported : Supported irp
  userMode : irp.requestorMode = .userMode
  ownContext : irp.requestorProcess = irp.currentProcess
  passive : ⟨.keGetCurrentIrql, passiveLevel⟩ ∈ l
  opened : ∃ process, attached l = some process ∧ OpenedWith sys access process l

section LeafName

theorem leafStart_le (buffer : Nat → WChar) (n : Nat) : leafStart buffer n ≤ n := by
  induction n with
  | zero => exact Nat.le_refl 0
  | succ n ih =>
    rw [leafStart]
    split <;> omega

theorem leafStart_units (buffer : Nat → WChar) (n : Nat) :
    (List.range (n - leafStart buffer n)).map (fun i => buffer (leafStart buffer n + i)) =
      afterLastBackslash ((List.range n).map buffer) := by
  induction n with
  | zero => rfl
  | succ n ih =>
    have hlast : (List.range (n + 1)).map buffer = (List.range n).map buffer ++ [buffer n] := by
      rw [List.range_succ, List.map_append, List.map_singleton]
    rw [hlast, afterLastBackslash, List.reverse_append, List.reverse_singleton,
      List.singleton_append, leafStart]
    by_cases h : buffer n = backslash
    · simp [h]
    · have hle := leafStart_le buffer n
      rw [if_pos h, List.takeWhile_cons_of_pos (by simpa using h), List.reverse_cons,
        ← afterLastBackslash, ← ih, Nat.succ_sub hle, List.range_succ, List.map_append,
        List.map_singleton, Nat.add_sub_cancel' hle]

theorem leaf_units (name : UnicodeString) : (leaf name).units = afterLastBackslash name.units := by
  have hle := leafStart_le name.buffer (name.length.toNat / 2)
  have hlen : (leaf name).length.toNat / 2 =
      name.length.toNat / 2 - leafStart name.buffer (name.length.toNat / 2) := by
    have hlt := name.length.isLt
    simp only [leaf, BitVec.toNat_ofNat]
    omega
  rw [UnicodeString.units, hlen, UnicodeString.units]
  exact leafStart_units name.buffer _

theorem name_of_rtlEqual {name : UnicodeString} {b : WString}
    (h : rtlEqualUnicodeString sys (leaf name) b) :
    (afterLastBackslash name.units).map sys.rtlUpcaseUnicodeChar =
      b.map sys.rtlUpcaseUnicodeChar := by
  rw [← leaf_units]
  exact (of_decide_eq_true h).2

end LeafName

section Gates

variable {irp : Irp} {l l' : WinLog} {process : PEProcess}

theorem OpenedWith.mono {access : AccessMask} (h : OpenedWith sys access process l)
    (hl : l <+: l') : OpenedWith sys access process l' := by
  obtain ⟨desired, attributes, processId, opened, info, referenced, image, h₁, h₂, h₃, h₄, h₅, h₆,
    h₇, h₈, h₉, h₁₀, h₁₁⟩ := h
  exact ⟨desired, attributes, processId, opened, info, referenced, image, hl.mem h₁, h₂, h₃,
    hl.mem h₄, h₅, h₆, hl.mem h₇, h₈, h₉, hl.mem h₁₀, h₁₁⟩

theorem OpenedWith.weaken {access fewer : AccessMask} (h : OpenedWith sys access process l)
    (hfewer : fewer &&& access = fewer) : OpenedWith sys fewer process l := by
  obtain ⟨desired, attributes, processId, opened, info, referenced, image, h₁, h₂, h₃, h₄, h₅, h₆,
    h₇⟩ := h
  refine ⟨desired, attributes, processId, opened, info, referenced, image, h₁, h₂, h₃, h₄, h₅, ?_,
    h₇⟩
  rw [← hfewer, BitVec.and_comm fewer, ← BitVec.and_assoc, h₆]

theorem openedWith_of_opened {processId : Handle} {allowWrite : Bool}
    (h : Opened sys processId allowWrite process l) :
    OpenedWith sys (requestedAccess allowWrite) process l := by
  obtain ⟨opened, info, referenced, image, h₁, h₂, h₃, h₄, h₅, h₆, h₇, h₈, h₉, h₁₀, h₁₁⟩ := h
  exact ⟨_, _, processId, opened, info, referenced, image, h₁, h₂, by decide, h₃, h₄, h₅, h₆, h₇,
    h₈, h₉, h₁₀, name_of_rtlEqual h₁₁⟩

/-- What a reader opened by an accepted request may rely on until the request ends. -/
structure Ready (sys : Platform) (irp : Irp) (access : AccessMask) (process : PEProcess)
    (l : WinLog) : Prop where
  supported : Supported irp
  userMode : irp.requestorMode = .userMode
  ownContext : irp.requestorProcess = irp.currentProcess
  passive : ⟨.keGetCurrentIrql, passiveLevel⟩ ∈ l
  opened : OpenedWith sys access process l

theorem Ready.mono {access : AccessMask} (h : Ready sys irp access process l) (hl : l <+: l') :
    Ready sys irp access process l' :=
  { h with passive := hl.mem h.passive, opened := h.opened.mono hl }

theorem Ready.authorized {access fewer : AccessMask} (h : Ready sys irp access process l)
    (hfewer : fewer &&& access = fewer) (hattached : attached l = some process) :
    Authorized sys irp fewer l :=
  { h with opened := ⟨process, hattached, h.opened.weaken hfewer⟩ }

def Gated (sys : Platform) (irp : Irp) (l : WinLog) : WinOp → Prop
  | .mmCopyMemory _ _ => Authorized sys irp 0x1010 l
  | .probeForWrite _ _ _ => irp.ioControlCode = selectTarget ∧ Authorized sys irp 0x1038 l
  | .interlockedExchange _ _ => irp.ioControlCode = selectTarget ∧ Authorized sys irp 0x1038 l
  | _ => True

def gates (sys : Platform) (irp : Irp) : Contract WinAns := ⟨fun _ _ _ => True, Gated sys irp⟩

theorem gated_of_plain {o : WinOp} (h : plain o) : Gated sys irp l o := by
  cases o <;> trivial

theorem keeps_of_mono {J : WinLog → Prop} (hJ : ∀ l l', J l → l <+: l' → J l') :
    Keeps (gates sys irp) J where
  guar _ _ _ ho := gated_of_plain ho
  keep l _ _ h _ _ := hJ l _ h (List.prefix_append _ _)

theorem freeNote_of_mono {J : WinLog → Prop} (hJ : ∀ l l', J l → l <+: l' → J l') (n : Note) :
    FreeNote (gates sys irp) J n :=
  fun l h => ⟨trivial, hJ l _ h (List.prefix_append _ _)⟩

def Permitted (irp : Irp) (access : AccessMask) : ReaderOp → Prop
  | .writeUInt32 _ _ => irp.ioControlCode = selectTarget ∧ 0x1038 &&& access = 0x1038
  | _ => True

theorem perform_gated {access : AccessMask} {reader : KernelProcessMemoryReader}
    (hread : 0x1010 &&& access = 0x1010) (o : ReaderOp) (l : WinLog) (ho : Permitted irp access o)
    (h : Ready sys irp access reader.process l) :
    wp (gates sys irp) (perform sys reader o) l fun _ l' =>
      Ready sys irp access reader.process l' := by
  have hmono : ∀ l l', Ready sys irp access reader.process l → l <+: l' →
      Ready sys irp access reader.process l' := fun _ _ => Ready.mono
  have hkeeps : Keeps (gates sys irp) (Ready sys irp access reader.process) := keeps_of_mono hmono
  cases o with
  | note n => exact ⟨trivial, fun x _ => h.mono (List.prefix_append _ _)⟩
  | resolveImageOffset offset =>
    exact wp_mono (wp_resolveImageOffset hkeeps rfl (fun _ => freeNote_of_mono hmono _)
      (fun _ => freeNote_of_mono hmono _) h) fun _ _ hr => hr.1
  | read bits address =>
    rw [perform, KernelProcessMemoryReader.read, wp_bind]
    refine wp_mono (wp_copyValue hkeeps (fun _ => freeNote_of_mono hmono _) ?_ h)
      fun _ _ hr => hr.1
    intro l hl hattached _
    exact ⟨hl.authorized hread hattached, fun x _ => hl.mono (List.prefix_append _ _)⟩
  | writeUInt32 address value =>
    obtain ⟨hcommand, hwrite⟩ := ho
    have hgated : ∀ l, Ready sys irp access reader.process l → attached l = some reader.process →
        irp.ioControlCode = selectTarget ∧ Authorized sys irp 0x1038 l :=
      fun _ hl hattached => ⟨hcommand, hl.authorized hwrite hattached⟩
    refine wp_mono (wp_writeUInt32 hkeeps (fun _ => hkeeps) (freeNote_of_mono hmono _)
      (freeNote_of_mono hmono _) ?_ ?_ h) ?_
    · exact fun l hl hattached _ => ⟨hgated l hl hattached, fun _ _ => hl.mono (List.prefix_append _ _)⟩
    · exact fun l hl hattached _ => ⟨hgated l hl hattached, fun _ _ => hl.mono (List.prefix_append _ _)⟩
    · rintro r l' (hr | ⟨-, x, l₁, hr, -⟩)
      · exact hr.1
      · exact hr

theorem withReader_gated {α : Type} {processId : Handle} {allowWrite : Bool}
    {failed : NtStatus → α} {body : Memory α} {l : WinLog}
    (hbody : Uses (Permitted irp (requestedAccess allowWrite)) body) (hsupported : Supported irp)
    (hmode : irp.requestorMode = .userMode) (hprocess : irp.requestorProcess = irp.currentProcess)
    (hpassive : ⟨.keGetCurrentIrql, passiveLevel⟩ ∈ l) :
    wp (gates sys irp) (withReader sys processId allowWrite failed body) l fun _ _ => True := by
  have hread : 0x1010 &&& requestedAccess allowWrite = 0x1010 := by cases allowWrite <;> decide
  refine wp_withReader (J := fun l => ⟨.keGetCurrentIrql, passiveLevel⟩ ∈ l)
    (keeps_of_mono fun _ _ h hl => hl.mem h) (fun _ => keeps_of_mono fun _ _ _ _ => trivial)
    (fun _ _ _ _ => trivial) (fun reader l hl hopened => ?_) hpassive
  exact wp_mono (wp_translate_invariant hbody (perform_gated hread)
    ⟨hsupported, hmode, hprocess, hl, openedWith_of_opened hopened⟩) fun _ _ _ => trivial

theorem permitted_of_tame {access : AccessMask} (o : ReaderOp) (ho : Tame o) :
    Permitted irp access o := by
  cases o with
  | writeUInt32 => exact ho.elim
  | _ => trivial

theorem permitted_of_selectTarget (hcommand : irp.ioControlCode = selectTarget) (o : ReaderOp) :
    Permitted irp (requestedAccess true) o := by
  cases o with
  | writeUInt32 => exact ⟨hcommand, by decide⟩
  | _ => trivial

end Gates

/-- Whatever the kernel answers, the driver touches a process only behind all of its gates. -/
theorem deviceControl_gated (sys : Platform) (env : WinEnv) (irp : Irp) :
    Throughout (Gated sys irp) ((deviceControl sys irp).run env []).2 := by
  refine throughout_of_wp (C := gates sys irp) (Q := fun _ _ => True) (fun _ _ => trivial) ?_
  refine wp_deviceControl (J := fun _ => True) (keeps_of_mono fun _ _ _ _ => trivial)
    (fun _ _ _ _ => trivial) ?_ ?_ ?_ trivial
  · intro buffer l hgate _ hpassive hvalid
    have hversion := (of_decide_eq_true hvalid).1
    rw [executeDarkEdenTextRequest, if_neg (by simpa using hvalid)]
    exact withReader_gated (uses_mono permitted_of_tame (readResolvedText_tame _))
      ⟨buffer, hgate.buffer, .inr (.inl
        ⟨hgate.command, hgate.input, hgate.output, hversion, hvalid⟩)⟩ hgate.mode hgate.process
      hpassive
  · intro buffer l hgate _ hpassive hvalid
    have hversion := (of_decide_eq_true hvalid).1
    rw [executeSelectTargetRequest, if_neg (by simpa using hvalid)]
    exact withReader_gated (uses_of_forall (permitted_of_selectTarget hgate.command) _)
      ⟨buffer, hgate.buffer, .inr (.inr
        ⟨hgate.command, hgate.input, hgate.output, hversion, hvalid⟩)⟩ hgate.mode hgate.process
      hpassive
  · intro buffer l hgate _ hpassive hvalid
    have hversion := (of_decide_eq_true hvalid).1
    rw [executeDarkEdenRequest, if_neg (by simpa using hvalid)]
    exact withReader_gated (uses_mono permitted_of_tame (readResolved_tame _))
      ⟨buffer, hgate.buffer, .inl
        ⟨hgate.command, hgate.input, hgate.output, hversion, hvalid⟩⟩ hgate.mode hgate.process
      hpassive

end DarkEden.Authorization
