import DarkEden.FieldTrace

namespace DarkEden.OverflowGuard

open Interaction ByteMemory Memory SelectTarget Protocol KernelProcessMemoryReader ReaderRules
open PointerOverflow

variable {sys : Platform}

def winFormedBy : WinOp → Option FieldRef
  | .note n => Note.formed n
  | _ => none

def formedIn (l : WinLog) : List FieldRef := l.filterMap fun e => winFormedBy e.1

def FitsIn (l : WinLog) : Prop := ∀ f ∈ formedIn l, ¬Overflows f

def touches : WinOp → ULongPtr → Prop
  | .mmCopyMemory a _, b => a = b
  | .probeForWrite a _ _, b => a = b
  | .interlockedExchange a _, b => a = b
  | _, _ => False

instance (o : WinOp) (a : ULongPtr) : Decidable (touches o a) := by
  cases o <;> unfold touches <;> infer_instance

/-- No operation touches the target at a field address that did not fit when it was formed. -/
def Spared (l : WinLog) (o : WinOp) : Prop :=
  ∀ f ∈ formedIn l, Overflows f → ¬touches o (f.1 + f.2)

/-- A run in which 32-bit pointers never lead above 4 GiB. -/
structure Guarded (status : NtStatus) (l : WinLog) : Prop where
  spared : Throughout Spared l
  answered : ∀ f ∈ formedIn l, Overflows f → status = statusIntegerOverflow

theorem formedIn_append (l : WinLog) (e : Sigma WinAns) :
    formedIn (l ++ [e]) = formedIn l ++ (winFormedBy e.1).toList := by
  rw [formedIn, List.filterMap_append]
  cases h : winFormedBy e.1 <;> simp [formedIn, h]

theorem formedIn_snoc {o : WinOp} (ho : winFormedBy o = none) (l : WinLog) (x : WinAns o) :
    formedIn (l ++ [⟨o, x⟩]) = formedIn l := by
  rw [formedIn_append, ho]
  exact List.append_nil _

theorem formedIn_mono {l l' : WinLog} (h : l <+: l') {f : FieldRef} (hf : f ∈ formedIn l) :
    f ∈ formedIn l' := by
  obtain ⟨t, rfl⟩ := h
  rw [formedIn, List.filterMap_append]
  exact List.mem_append_left _ hf

theorem guarded_of_fits {status : NtStatus} {l : WinLog} (h : FitsIn l) : Guarded status l where
  spared := by
    intro l₁ e l₂ hsplit f hf hover
    exact absurd hover (h f (formedIn_mono ⟨e :: l₂, hsplit.symm⟩ hf))
  answered f hf hover := absurd hover (h f hf)

theorem formed_of_plain {o : WinOp} (h : plain o) : winFormedBy o = none := by
  cases o <;> first | rfl | cases h

theorem not_touches_of_plain {o : WinOp} (h : plain o) (a : ULongPtr) : ¬touches o a := by
  cases o <;> first | exact id | cases h

theorem keeps_formed {C : Contract WinAns} (hguar : ∀ l o, plain o → C.guar l o)
    (P : List FieldRef → Prop) : Keeps C fun l => P (formedIn l) where
  guar l o _ ho := hguar l o ho
  keep l o x h ho _ := by rwa [formedIn_snoc (formed_of_plain ho)]

section Coordinates

def sparingSystem : Contract WinAns := ⟨fun _ _ _ => True, Spared⟩

theorem sparingSystem_guar (l : WinLog) (o : WinOp) (ho : plain o) : sparingSystem.guar l o :=
  fun _ _ _ => not_touches_of_plain ho _

theorem sparingSystem_freeNote {P : List FieldRef → Prop} {n : Note} (hn : Note.formed n = none) :
    FreeNote sparingSystem (fun l => P (formedIn l)) n :=
  fun l h => ⟨fun _ _ _ => id, by
    change P (formedIn _)
    rwa [formedIn_snoc (o := .note n) hn]⟩

theorem perform_sparing {reader : KernelProcessMemoryReader} (l₁ : ReaderLog) (l₂ : WinLog)
    (o : ReaderOp) (h : formed l₁ = formedIn l₂) (ho : SparedBy l₁ o) :
    wp sparingSystem (perform sys reader o) l₂ fun x l₂' =>
      True ∧ formed (l₁ ++ [⟨o, x⟩]) = formedIn l₂' := by
  have hkeeps : Keeps sparingSystem fun l => formedIn l = formed l₁ :=
    keeps_formed sparingSystem_guar (· = formed l₁)
  have hnote : ∀ n, Note.formed n = none →
      FreeNote sparingSystem (fun l => formedIn l = formed l₁) n :=
    fun n hn => sparingSystem_freeNote (P := (· = formed l₁)) hn
  have hsame : ∀ {o : ReaderOp} (x : ReaderAns o) {l : WinLog}, formedBy o = none →
      formedIn l = formed l₁ → formed (l₁ ++ [⟨o, x⟩]) = formedIn l := by
    intro o x l ho hl
    rw [formed_append, ho, hl]
    exact List.append_nil _
  cases o with
  | note n =>
    refine ⟨fun _ _ _ => id, fun _ _ => ⟨trivial, ?_⟩⟩
    rw [formed_append, formedIn_append, h]
    rfl
  | resolveImageOffset offset =>
    exact wp_mono (wp_resolveImageOffset hkeeps rfl (fun _ => hnote _ rfl)
      (fun _ => hnote _ rfl) h.symm) fun r l' hr => ⟨trivial, hsame r rfl hr.1⟩
  | read bits a =>
    rw [perform, KernelProcessMemoryReader.read, wp_bind]
    refine wp_mono (wp_copyValue hkeeps (fun _ => hnote _ rfl)
      (fun l hl _ _ => ⟨fun f hf hover htouch => ?_, fun x _ => ?_⟩) h.symm)
      fun r l' hr => ⟨trivial, hsame (o := .read bits a) _ rfl hr.1⟩
    · exact ho f (hl ▸ hf) hover htouch.symm
    · rw [formedIn_snoc rfl, hl]
  | writeUInt32 a v =>
    have hspared : ∀ l, formedIn l = formed l₁ → ∀ f ∈ formedIn l, Overflows f → ¬a = f.1 + f.2 :=
      fun l hl f hf hover htouch => ho f (hl ▸ hf) hover htouch.symm
    refine wp_mono (wp_writeUInt32 (K := fun _ l => formedIn l = formed l₁) hkeeps (fun _ => hkeeps)
      (hnote _ rfl) (hnote _ rfl)
      (fun l hl _ _ => ⟨hspared l hl, fun x _ => by rw [formedIn_snoc rfl, hl]⟩)
      (fun l hl _ _ => ⟨hspared l hl, fun x _ => by rw [formedIn_snoc rfl, hl]⟩) h.symm)
      fun r l' hr => ⟨trivial, hsame r rfl ?_⟩
    obtain ⟨hl', -⟩ | ⟨-, x, l₃, hl', -⟩ := hr
    · exact hl'
    · exact hl'

/-- Every field address that did not fit is answered with an overflow. -/
def SoundIn (status : NtStatus) (l : WinLog) : Prop :=
  ∀ f ∈ formedIn l, Overflows f → status = statusIntegerOverflow

theorem wp_withReader_sound {α : Type} {processId : Handle} {allowWrite : Bool}
    {failed : NtStatus → α} {body : Memory α} (statusOf : α → NtStatus)
    (hbody : wp sparing body [] fun a => Sound (statusOf a)) {l : WinLog} (hl : formedIn l = []) :
    wp sparingSystem (withReader sys processId allowWrite failed body) l fun a =>
      SoundIn (statusOf a) := by
  refine wp_withReader (J := fun l => formedIn l = []) (keeps_formed sparingSystem_guar (· = []))
    (fun a => keeps_formed sparingSystem_guar fun fs =>
      ∀ f ∈ fs, Overflows f → statusOf a = statusIntegerOverflow)
    (fun status l hl _ f hf => by rw [hl] at hf; cases hf) (fun reader l hl _ => ?_) hl
  refine wp_mono (wp_translate (R := fun l₁ l₂ => formed l₁ = formedIn l₂)
    perform_sparing (l := []) hl.symm hbody) fun a l₂ ⟨l₁, hR, hsound⟩ f hf hover => ?_
  obtain hfits | hstatus := hsound
  · exact absurd hover (hfits f (hR ▸ hf))
  · exact hstatus

end Coordinates

section Select

def anySystem : Contract WinAns := ⟨fun _ _ _ => True, fun _ _ => True⟩

def Escaped (l : WinLog) : Prop :=
  ∃ l₁ e, l₁ ++ [e] <+: l ∧ ∃ f ∈ formedIn l₁, Overflows f ∧ touches e.1 (f.1 + f.2)

theorem Escaped.mono {l l' : WinLog} (h : Escaped l) (hl : l <+: l') : Escaped l' := by
  obtain ⟨l₁, e, hpre, hf⟩ := h
  exact ⟨l₁, e, hpre.trans hl, hf⟩

theorem not_guarded_of_escaped {status : NtStatus} {l : WinLog} (h : Escaped l) :
    ¬Guarded status l := by
  intro hguarded
  obtain ⟨l₁, e, ⟨l₂, hl₂⟩, f, hf, hover, htouch⟩ := h
  exact hguarded.spared l₁ e l₂ (by rw [← hl₂, List.append_assoc]; rfl) f hf hover htouch

structure Mirrors (l₁ : ReaderLog) (l₂ : WinLog) : Prop where
  formed : formed l₁ = formedIn l₂
  touched : Touched l₁ → Escaped l₂

def After (l₁ : ReaderLog) (l₂ l : WinLog) : Prop := l₂ <+: l ∧ formedIn l = formed l₁

theorem After.snoc {l₁ : ReaderLog} {l₂ l : WinLog} (h : After l₁ l₂ l) {o : WinOp}
    (ho : winFormedBy o = none) (x : WinAns o) : After l₁ l₂ (l ++ [⟨o, x⟩]) :=
  ⟨h.1.trans (List.prefix_append _ _), by rw [formedIn_snoc ho, h.2]⟩

theorem after_keeps (l₁ : ReaderLog) (l₂ : WinLog) : Keeps anySystem (After l₁ l₂) where
  guar _ _ _ _ := trivial
  keep _ _ x h ho _ := h.snoc (formed_of_plain ho) x

theorem after_freeNote {l₁ : ReaderLog} {l₂ : WinLog} {n : Note} (hn : Note.formed n = none) :
    FreeNote anySystem (After l₁ l₂) n :=
  fun _ h => ⟨trivial, h.snoc (o := .note n) hn ()⟩

def TouchedAt (l₁ : ReaderLog) (l₂ : WinLog) (a : ULongPtr) (l : WinLog) : Prop :=
  ∃ l₃ e, After l₁ l₂ l₃ ∧ touches e.1 a ∧ l₃ ++ [e] <+: l

theorem TouchedAt.mono {l₁ : ReaderLog} {l₂ l l' : WinLog} {a : ULongPtr}
    (h : TouchedAt l₁ l₂ a l) (hl : l <+: l') : TouchedAt l₁ l₂ a l' := by
  obtain ⟨l₃, e, hafter, htouches, hpre⟩ := h
  exact ⟨l₃, e, hafter, htouches, hpre.trans hl⟩

theorem mirrors_snoc {l₁ : ReaderLog} {l₂ l : WinLog} (h : Mirrors l₁ l₂) (hl : After l₁ l₂ l)
    {o : ReaderOp} (ho : formedBy o = none) (x : ReaderAns o)
    (htouch : ∀ a, touchedBy ⟨o, x⟩ a → TouchedAt l₁ l₂ a l) : Mirrors (l₁ ++ [⟨o, x⟩]) l where
  formed := by
    rw [formed_append, ho, hl.2]
    exact List.append_nil _
  touched := by
    intro ⟨l₃, e, hpre, f, hf, hover, hby⟩
    obtain heq | hpre := List.prefix_concat_iff.mp hpre
    · obtain ⟨rfl, he⟩ := List.append_inj' heq rfl
      obtain rfl := List.singleton_inj.mp he
      obtain ⟨l₄, e', hafter, htouches, hpre'⟩ := htouch _ hby
      exact ⟨l₄, e', hpre', f, hafter.2 ▸ hf, hover, htouches⟩
    · exact (h.touched ⟨l₃, e, hpre, f, hf, hover, hby⟩).mono hl.1

theorem perform_mirrors {reader : KernelProcessMemoryReader} (l₁ : ReaderLog) (l₂ : WinLog)
    (o : ReaderOp) (h : Mirrors l₁ l₂) :
    wp anySystem (perform sys reader o) l₂ fun x l₂' => Mirrors (l₁ ++ [⟨o, x⟩]) l₂' := by
  have hstart : After l₁ l₂ l₂ := ⟨List.prefix_rfl, h.formed.symm⟩
  cases o with
  | note n =>
    refine ⟨trivial, fun _ _ => ⟨?_, fun htouched => ?_⟩⟩
    · rw [formed_append, formedIn_append, h.formed]
      rfl
    · obtain ⟨l₃, e, hpre, f, hf, hover, hby⟩ := htouched
      obtain heq | hpre := List.prefix_concat_iff.mp hpre
      · obtain ⟨rfl, he⟩ := List.append_inj' heq rfl
        obtain rfl := List.singleton_inj.mp he
        exact hby.elim
      · exact (h.touched ⟨l₃, e, hpre, f, hf, hover, hby⟩).mono (List.prefix_append _ _)
  | resolveImageOffset offset =>
    exact wp_mono (wp_resolveImageOffset (after_keeps l₁ l₂) rfl (fun _ => after_freeNote rfl)
      (fun _ => after_freeNote rfl) hstart) fun r l' hr =>
        mirrors_snoc h hr.1 rfl r fun _ htouches => htouches.elim
  | read bits a =>
    rw [perform, KernelProcessMemoryReader.read, wp_bind]
    refine wp_mono (wp_copyValue (after_keeps l₁ l₂) (fun _ => after_freeNote rfl)
      (fun l hl _ _ => ⟨trivial, fun x _ => hl.snoc rfl x⟩) hstart) fun r l' hcopied => ?_
    obtain ⟨hl', hr⟩ := hcopied
    refine mirrors_snoc h hl' (o := .read bits a) rfl _ fun b hb => ?_
    obtain ⟨rfl, hrefused⟩ := hb
    obtain ⟨rfl, -⟩ | ⟨-, ⟨rfl, -⟩ | ⟨x, l₃, -, -, hl₃, -, hpre⟩⟩ := hr
    · exact absurd (.inl rfl) hrefused
    · exact absurd (.inr rfl) hrefused
    · exact ⟨l₃, ⟨.mmCopyMemory a _, x⟩, hl₃, rfl, hpre⟩
  | writeUInt32 a v =>
    refine wp_mono (wp_writeUInt32 (K := fun _ l => After l₁ l₂ l ∧ TouchedAt l₁ l₂ a l)
      (after_keeps l₁ l₂) (fun _ => ?_) (after_freeNote rfl) (after_freeNote rfl)
      (fun l hl _ _ => ⟨trivial, fun x _ => hl.snoc rfl x⟩)
      (fun l hl _ _ => ⟨trivial, fun x _ => ⟨hl.snoc rfl x, l, ⟨.interlockedExchange a v, x⟩, hl, rfl,
        List.prefix_rfl⟩⟩) hstart)
      fun r l' hr => ?_
    · exact ⟨fun _ _ _ _ => trivial, fun l o x hl ho _ => ⟨hl.1.snoc (formed_of_plain ho) x,
        hl.2.mono (List.prefix_append _ _)⟩⟩
    obtain ⟨hl', ⟨rfl, -⟩ | ⟨-, ⟨rfl, -⟩ | ⟨l₃, -, hl₃, -, hpre⟩⟩⟩ | ⟨-, x, l₃, ⟨hl', ht⟩, -⟩ := hr
    · exact mirrors_snoc h hl' rfl _ fun b hb => absurd (.inl rfl) hb.2
    · exact mirrors_snoc h hl' rfl _ fun b hb => absurd (.inr rfl) hb.2
    · exact mirrors_snoc h hl' rfl _ fun b hb =>
        ⟨l₃, ⟨.probeForWrite a 4 4, some r⟩, hl₃, hb.1, hpre⟩
    · exact mirrors_snoc h hl' rfl _ fun b hb => hb.1 ▸ ht

theorem exposedIn_keeps (P : Prop) : Keeps anySystem fun l => FitsIn l ∨ Escaped l ∨ P where
  guar _ _ _ _ := trivial
  keep l o x h ho _ := by
    refine h.imp (fun hl => ?_) (Or.imp_left fun hl => hl.mono (List.prefix_append _ _))
    rwa [FitsIn, formedIn_snoc (formed_of_plain ho)]

theorem wp_executeSelectTargetRequest_exposed (request : SelectTargetRequest) {l : WinLog}
    (hl : formedIn l = []) :
    wp anySystem (executeSelectTargetRequest sys request) l fun r l' =>
      FitsIn l' ∨ Escaped l' ∨ r.status ≠ statusIntegerOverflow := by
  have hfits : ∀ {l : WinLog}, formedIn l = [] → FitsIn l := by
    intro l hl f hf
    rw [hl] at hf
    cases hf
  have hnone : Fits [] := fun f hf => by cases hf
  rw [executeSelectTargetRequest, wp_ite]
  refine ⟨fun _ => .inl (hfits hl), fun _ => ?_⟩
  refine wp_withReader (J := fun l => formedIn l = [])
    (keeps_formed (fun _ _ _ => trivial) (· = [])) (fun r => exposedIn_keeps _)
    (fun _ _ hl _ => .inl (hfits hl)) (fun reader l hl _ => ?_) hl
  have huntouched : Touched [] → Escaped l := by
    rintro ⟨l₃, e, hpre, -⟩
    simp at hpre
  refine wp_mono (wp_translate (C := anyReader) (R := Mirrors) (fun l₁ l₂ o h _ =>
    wp_mono (perform_mirrors l₁ l₂ o h) fun x l₂' hm => ⟨trivial, hm⟩) (l := [])
    ⟨hl.symm, huntouched⟩ (wp_select_exposed request.targetId (.inl hnone))) fun r l₂ h => ?_
  obtain ⟨l₁, hR, hr⟩ := h
  obtain (hl₁ | hl₁) | hstatus := hr
  · exact .inl fun f hf => hl₁ f (hR.formed ▸ hf)
  · exact .inr (.inl (hR.touched hl₁))
  · exact .inr (.inr hstatus)

end Select

section Run

/-- Every response holds its status at the same place. -/
def answeredStatus (completed : Completed) : NtStatus :=
  fieldAt (completed.systemBuffer.getD 0) 64 32

theorem wp_deviceControl_sound {irp : Irp} (hcommand : irp.ioControlCode ≠ selectTarget)
    (h32 : irp.ioControlCode = readCoordinates →
      ∀ buffer ∈ irp.systemBuffer, (Request.decode buffer).pointerBytes ≠ 8) :
    wp sparingSystem (deviceControl sys irp) [] fun completed =>
      SoundIn (answeredStatus completed) := by
  have hnone : Fits [] := fun f hf => by cases hf
  refine wp_deviceControl (J := fun l => formedIn l = [])
    (keeps_formed sparingSystem_guar (· = []))
    (fun _ _ hl _ f hf => by rw [hl] at hf; cases hf) ?_ ?_ ?_ rfl
  · intro buffer l _ hl _ hvalid
    rw [executeDarkEdenTextRequest, if_neg (by simpa using hvalid)]
    refine wp_mono (wp_withReader_sound TextResponse.status
      (wp_readResolvedText_sound _ hnone) hl) fun r l' hr => ?_
    change SoundIn (TextResponse.decode r.encode).status l'
    rwa [TextResponse.decode_encode]
  · intro buffer l hgate
    exact absurd hgate.command hcommand
  · intro buffer l hgate hl _ hvalid
    rw [executeDarkEdenRequest, if_neg (by simpa using hvalid)]
    refine wp_mono (wp_withReader_sound Response.status
      (wp_readResolved_sound (h32 hgate.command buffer hgate.buffer) hnone) hl) fun r l' hr => ?_
    change SoundIn (Response.decode r.encode).status l'
    rwa [Response.decode_encode]

theorem wp_deviceControl_exposed {irp : Irp} (hcommand : irp.ioControlCode = selectTarget) :
    wp anySystem (deviceControl sys irp) [] fun completed l =>
      FitsIn l ∨ Escaped l ∨ answeredStatus completed ≠ statusIntegerOverflow := by
  refine wp_deviceControl (J := fun l => formedIn l = [])
    (keeps_formed (fun _ _ _ => trivial) (· = []))
    (fun _ _ hl _ => .inl fun f hf => by rw [hl] at hf; cases hf) ?_ ?_ ?_ rfl
  · intro buffer l hgate
    exact absurd (hgate.command.symm.trans hcommand) (by decide)
  · intro buffer l _ hl _ _
    refine wp_mono (wp_executeSelectTargetRequest_exposed _ hl) fun r l' hr => ?_
    change _ ∨ _ ∨ (SelectTargetResponse.decode r.encode).status ≠ _
    rwa [SelectTargetResponse.decode_encode]
  · intro buffer l hgate
    exact absurd (hgate.command.symm.trans hcommand) (by decide)

variable {T : Target sys}

/-- A selection in `process` follows only pointers that leave room for the offsets. -/
def RoomFor (T : Target sys) (irp : Irp) (process : PEProcess) : Prop :=
  ∀ buffer, Gate irp buffer selectTarget sizeofSelectTargetRequest sizeofSelectTargetResponse →
    validSelectTargetRequest (.decode buffer) → T.ready ⟨process⟩ →
    ∀ f ∈ followed T (sys.psGetProcessSectionBaseAddress process)
      (SelectTargetRequest.decode buffer).targetId, ¬Overflows f

theorem wp_select_formed (reader : KernelProcessMemoryReader) (targetId : ULong) {l : WinLog}
    (hl : formedIn l = [] ∧ T.after l = T.byte) :
    wp T.system ((select targetId).translate (perform sys reader)) l fun _ l' =>
      formedIn l' = if T.ready reader then
        followed T (sys.psGetProcessSectionBaseAddress reader.process) targetId else [] := by
  refine wp_mono (wp_translate (C := T.readerOf reader)
    (R := fun l₁ l₂ => Mirrors l₁ l₂ ∧ T.after l₂ = T.written l₁) (fun l₁ l₂ o h _ => ?_) (l := [])
    ⟨⟨hl.1.symm, fun ⟨_, _, hpre, _⟩ => by simp at hpre⟩, hl.2⟩
    (wp_select_trace reader targetId rfl)) fun _ l₂ ⟨l₁, hR, hl₁⟩ => ?_
  · have hmirrors : wp T.system (perform sys reader o) l₂ fun x l₂' =>
        Mirrors (l₁ ++ [⟨o, x⟩]) l₂' :=
      wp_contract (C := anySystem) (fun _ _ _ _ => trivial) (fun _ _ h => h)
        (perform_mirrors l₁ l₂ o h.1)
    exact wp_mono (wp_and hmirrors (Target.perform_answers l₁ l₂ o h.2))
      fun x l₂' ⟨hm, ha, hw⟩ => ⟨ha, hm, hw⟩
  · rw [← hR.1.formed, hl₁]
    rfl

theorem quiescent_keeps (P : List FieldRef → Bytes 64 → Prop) :
    Keeps T.system fun l => P (formedIn l) (T.after l) where
  guar _ _ _ _ := trivial
  keep l o x h ho _ := by
    rwa [formedIn_snoc (formed_of_plain ho),
      Target.after_append_of_not_writes (by cases o <;> first | rfl | cases ho)]

/-- Whatever process is opened, a selection forms no field address that does not fit, if no
process makes it do so. -/
theorem wp_deviceControl_roomy {irp : Irp} (hroom : ∀ process, RoomFor T irp process)
    (hcommand : irp.ioControlCode = selectTarget) :
    wp T.system (deviceControl sys irp) [] fun _ l => FitsIn l := by
  have hnone : ∀ {l : WinLog}, formedIn l = [] → FitsIn l := by
    intro l hl f hf
    rw [hl] at hf
    cases hf
  refine wp_deviceControl (J := fun l => formedIn l = [] ∧ T.after l = T.byte)
    (quiescent_keeps fun fs m => fs = [] ∧ m = T.byte) (fun _ _ hl _ => hnone hl.1) ?_ ?_ ?_
    ⟨rfl, rfl⟩
  · intro buffer l hgate
    exact absurd (hgate.command.symm.trans hcommand) (by decide)
  · intro buffer l hgate hl _ hvalid
    rw [executeSelectTargetRequest, if_neg (by simpa using hvalid)]
    refine wp_withReader (J := fun l => formedIn l = [] ∧ T.after l = T.byte)
      (quiescent_keeps fun fs m => fs = [] ∧ m = T.byte)
      (fun _ => quiescent_keeps fun fs _ => ∀ f ∈ fs, ¬Overflows f)
      (fun _ _ hl _ => hnone hl.1) (fun reader l hl _ => ?_) hl
    refine wp_mono (wp_select_formed reader _ hl) fun _ l' hl' => ?_
    by_cases hready : T.ready reader
    · rw [if_pos hready] at hl'
      intro f hf
      exact hroom reader.process buffer hgate hvalid hready f (hl' ▸ hf)
    · rw [if_neg hready] at hl'
      exact hnone hl'
  · intro buffer l hgate
    exact absurd (hgate.command.symm.trans hcommand) (by decide)

/-- In a process that opens, a well-formed selection forms the field addresses that the
memory tells it to. -/
theorem wp_deviceControl_formed {irp : Irp} {buffer : Nat} {process : PEProcess}
    (hgate : Gate irp buffer selectTarget sizeofSelectTargetRequest sizeofSelectTargetResponse)
    (hvalid : validSelectTargetRequest (.decode buffer)) (hpassive : T.irql = passiveLevel) :
    wp (T.openedSystem true process) (deviceControl sys irp) [] fun _ l =>
      formedIn l = if T.ready ⟨process⟩ then
        followed T (sys.psGetProcessSectionBaseAddress process)
          (SelectTargetRequest.decode buffer).targetId else [] := by
  have hirql : ∀ l x, (T.openedSystem true process).rely l .keGetCurrentIrql x → x = passiveLevel :=
    fun l x hx => hx.1.trans hpassive
  have hkeeps : ∀ P : List FieldRef → Bytes 64 → Prop,
      Keeps (T.openedSystem true process) fun l => P (formedIn l) (T.after l) :=
    fun P => ⟨fun _ _ _ _ => trivial, fun l o x h ho hx => (quiescent_keeps P).keep l o x h ho hx.1⟩
  refine wp_deviceControl_select (J := fun l => formedIn l = [] ∧ T.after l = T.byte)
    (hkeeps fun fs m => fs = [] ∧ m = T.byte) hirql hgate hvalid (fun l hl => ?_) ⟨rfl, rfl⟩
  rw [executeSelectTargetRequest, if_neg (by simpa using hvalid)]
  refine Target.wp_withReader_opens (J := fun l => formedIn l = [] ∧ T.after l = T.byte)
    (hkeeps fun fs m => fs = [] ∧ m = T.byte) (fun _ _ _ hx => hx.2) hirql
    (Target.validSelectTargetRequest_processId hvalid)
    (fun _ => hkeeps fun fs _ => fs = _) (fun l hl => ?_) hl
  exact wp_contract (C := T.system) (fun _ _ _ hx => hx.1) (fun _ _ h => h)
    (wp_select_formed ⟨process⟩ _ hl)

/-- The coordinate and text requests never leave the 32-bit range; a selection stays in it
exactly if every pointer it follows leaves room for the offsets added to it. -/
theorem deviceControl_guarded_iff (T : Target sys) {env : WinEnv}
    (hfits : ∀ l o, T.Fits l o (env l o)) (irp : Irp)
    (h32 : irp.ioControlCode = readCoordinates →
      ∀ buffer ∈ irp.systemBuffer, (Request.decode buffer).pointerBytes ≠ 8) :
    let run := (deviceControl sys irp).run env []
    ((∀ process, RoomFor T irp process) → Guarded (answeredStatus run.1) run.2) ∧
      ∀ process, (∀ l o, Target.Opens sys true process o (env l o)) →
        (Guarded (answeredStatus run.1) run.2 ↔ RoomFor T irp process) := by
  intro run
  have hroomy : (∀ process, RoomFor T irp process) → Guarded (answeredStatus run.1) run.2 := by
    intro hroom
    by_cases hcommand : irp.ioControlCode = selectTarget
    · exact guarded_of_fits (run_of_wp hfits (wp_deviceControl_roomy hroom hcommand))
    · exact ⟨throughout_of_wp (fun _ _ => trivial) (wp_deviceControl_sound hcommand h32),
        run_of_wp (fun _ _ => trivial) (wp_deviceControl_sound hcommand h32)⟩
  refine ⟨hroomy, fun process hopens => ⟨fun hguarded buffer hgate hvalid hready => ?_,
    fun hroom => ?_⟩⟩
  · have hpassive : T.irql = passiveLevel := (of_decide_eq_true hready).1
    have hformed := run_of_wp (C := T.openedSystem true process) (fun l o => ⟨hfits l o, hopens l o⟩)
      (wp_deviceControl_formed hgate hvalid hpassive)
    rw [if_pos hready] at hformed
    have hfit : FitsIn run.2 := by
      have hexposed : FitsIn run.2 ∨ Escaped run.2 ∨ answeredStatus run.1 ≠ statusIntegerOverflow :=
        run_of_wp (fun _ _ => trivial) (wp_deviceControl_exposed hgate.command)
      obtain hfit | hescaped | hstatus := hexposed
      · exact hfit
      · exact absurd hguarded (not_guarded_of_escaped hescaped)
      · exact fun f hf hover => hstatus (hguarded.answered f hf hover)
    exact fun f hf => hfit f (hformed ▸ hf)
  · by_cases hreached : T.irql = passiveLevel ∧ ∃ buffer,
        Gate irp buffer selectTarget sizeofSelectTargetRequest sizeofSelectTargetResponse ∧
        validSelectTargetRequest (.decode buffer)
    · obtain ⟨hpassive, buffer, hgate, hvalid⟩ := hreached
      have hformed := run_of_wp (C := T.openedSystem true process) (fun l o => ⟨hfits l o, hopens l o⟩)
        (wp_deviceControl_formed hgate hvalid hpassive)
      apply guarded_of_fits
      intro f hf
      rw [hformed] at hf
      by_cases hready : T.ready ⟨process⟩
      · rw [if_pos hready] at hf
        exact hroom buffer hgate hvalid hready f hf
      · rw [if_neg hready] at hf
        cases hf
    · apply hroomy
      intro process' buffer hgate hvalid hready
      exact absurd ⟨(of_decide_eq_true hready).1, buffer, hgate, hvalid⟩ hreached

end Run

theorem sampleGame_room : ∀ f ∈ followed sampleGame 0x400000 5, ¬Overflows f := by
  have hall : (followed sampleGame 0x400000 5).all fun f => !decide (Overflows f) := by
    decide +kernel
  intro f hf
  simpa using List.all_eq_true.mp hall f hf

/-- The selection in the sample game keeps below 4 GiB. -/
theorem deviceControl_guarded_iff_sample :
    let run := (deviceControl samplePlatform sampleIrp).run (sampleGame.env 9 sampleImage) []
    Guarded (answeredStatus run.1) run.2 := by
  refine ((deviceControl_guarded_iff sampleGame (sampleGame.env_fits 9 sampleImage) sampleIrp
    (fun h => absurd h (by decide))).2 9 (sampleGame.env_opens sampleImage_expected)).mpr ?_
  intro buffer hgate _ _
  obtain rfl := Option.some.inj hgate.buffer
  rw [SelectTargetRequest.decode_encode]
  exact sampleGame_room

/-- A game whose tree manager is a pointer to the top of the 32-bit range. -/
def highGame : Target samplePlatform := .ofCells samplePlatform silentApi [
  (0x00EB3254, 0x01000000), (0x01000000, 0x009D8310), -- the controller
  (0x00EB31D0, 0xFFFFFFF0), (0x100000024, 0x01200000)] -- the manager, and what lies at its field

theorem highGame_escapes :
    let run := (deviceControl samplePlatform sampleIrp).run (highGame.env 9 sampleImage) []
    (0xFFFFFFF0, 0x34) ∈ formedIn run.2 ∧ (∃ e ∈ run.2, touches e.1 0x100000024) ∧
      answeredStatus run.1 ≠ statusIntegerOverflow := by
  decide +kernel

/-- `SelectTarget` reads above 4 GiB and does not report an overflow. -/
theorem deviceControl_not_guarded :
    let run := (deviceControl samplePlatform sampleIrp).run (highGame.env 9 sampleImage) []
    (∃ e ∈ run.2, touches e.1 0x100000024) ∧ ¬Guarded (answeredStatus run.1) run.2 := by
  obtain ⟨hformed, htouched, hstatus⟩ := highGame_escapes
  exact ⟨htouched, fun hguarded => hstatus (hguarded.answered _ hformed (by decide))⟩

end DarkEden.OverflowGuard
