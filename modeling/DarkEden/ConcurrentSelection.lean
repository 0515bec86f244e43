import DarkEden.Concurrency
import DarkEden.System

namespace DarkEden.Concurrency

open Interaction ByteMemory Memory ReaderRules SelectTarget Protocol Client
open KernelProcessMemoryReader (perform)

variable {sys : Platform}

section Reader

def Written (slot : ULongPtr) (v : ULong) (l : ReaderLog) : Prop :=
  ∃ status, ⟨.writeUInt32 slot v, status⟩ ∈ l ∧ ntSuccess status

def Reread (slot : ULongPtr) (v : ULong) (l : ReaderLog) : Prop :=
  ∃ l₁ r l₂, l = l₁ ++ ⟨.read 32 slot, r⟩ :: l₂ ∧ Written slot v l₁ ∧ r.succeeded ∧ r.value = v

theorem Written.of_append {slot : ULongPtr} {v : ULong} {l : ReaderLog} {o : ReaderOp} {x : ReaderAns o}
    (h : Written slot v (l ++ [⟨o, x⟩])) :
    Written slot v l ∨ ∃ status, (⟨o, x⟩ : Sigma ReaderAns) = ⟨.writeUInt32 slot v, status⟩ ∧
      ntSuccess status := by
  obtain ⟨status, hmem, hs⟩ := h
  rcases List.mem_append.mp hmem with hmem | hmem
  · exact .inl ⟨status, hmem, hs⟩
  · exact .inr ⟨status, (List.mem_singleton.mp hmem).symm, hs⟩

theorem Reread.of_append {slot : ULongPtr} {v : ULong} {l : ReaderLog} {o : ReaderOp} {x : ReaderAns o}
    (h : Reread slot v (l ++ [⟨o, x⟩])) :
    Reread slot v l ∨ ∃ r : MemoryReadResult 32, (⟨o, x⟩ : Sigma ReaderAns) = ⟨.read 32 slot, r⟩ ∧
      Written slot v l ∧ r.succeeded ∧ r.value = v := by
  obtain ⟨l₁, r, l₂, hsplit, hwritten, hs, hv⟩ := h
  rcases List.eq_nil_or_concat l₂ with rfl | ⟨l₂, last, rfl⟩
  · obtain ⟨rfl, hlast⟩ := List.append_inj' hsplit rfl
    exact .inr ⟨r, (List.cons.inj hlast).1, hwritten, hs, hv⟩
  · rw [List.concat_eq_append, ← List.cons_append, ← List.append_assoc] at hsplit
    exact .inl ⟨l₁, r, l₂, (List.append_inj' hsplit rfl).1, hwritten, hs, hv⟩

/-- A selection only reports the id that it has read back from where it wrote it. -/
theorem wp_select_reread {targetId : ULong} (hid : targetId ≠ 0) (l : ReaderLog) :
    wp (⟨fun _ _ _ => True, fun _ _ => True⟩ : Contract ReaderAns) (select targetId) l
      fun response l' => response.selectedId = targetId → ∃ slot, Reread slot targetId l' := by
  rw [select, wp_bind]
  refine wp_mono (wp_of_forall (Q := fun _ _ => True) (fun _ _ => trivial) (fun _ _ => trivial) _ _)
    fun found l₁ _ => ?_
  cases found with
  | error status => exact fun h => absurd h (Ne.symm hid)
  | ok controller =>
    change wp _ (commit targetId controller (SelectTarget.newResponse statusSuccess)) l₁ _
    rw [commit, wp_bind]
    refine ⟨trivial, fun _ _ => ⟨trivial, fun _ _ => ?_⟩⟩
    refine wp_ask_bind.mpr ⟨trivial, fun written _ => ?_⟩
    rw [wp_ite]
    refine ⟨fun _ h => absurd h (Ne.symm hid), fun hwritten => ?_⟩
    refine wp_ask_bind.mpr ⟨trivial, fun selected _ => ?_⟩
    rw [wp_ite]
    refine ⟨fun _ h => absurd h (Ne.symm hid), fun hs h => ?_⟩
    refine ⟨_, _, selected, [], rfl, ⟨written, List.mem_append_right _ (List.mem_singleton.mpr rfl),
      by simpa using hwritten⟩, by simpa using hs, h⟩

end Reader

section System

variable {process : PEProcess} {reader : KernelProcessMemoryReader} {l₁ : ReaderLog} {l₂ : WinLog}

/-- The value was exchanged into the slot of the process. -/
def Wrote (process : PEProcess) (slot : ULongPtr) (v : ULong) (l : WinLog) : Prop :=
  ∃ l₁ l₂, l = l₁ ++ ⟨.interlockedExchange slot v, none⟩ :: l₂ ∧ attached l₁ = some process

/-- And then a complete copy of the slot delivered it. -/
def ReadBack (process : PEProcess) (slot : ULongPtr) (v : ULong) (l : WinLog) : Prop :=
  ∃ l₁ x l₂, l = l₁ ++ ⟨.mmCopyMemory slot 4, x⟩ :: l₂ ∧ Wrote process slot v l₁ ∧
    attached l₁ = some process ∧ ntSuccess x.completion.status ∧ x.copied = 4 ∧
    valueOfBytes 32 (x.scratch.take 4) = v

theorem Wrote.mono {slot : ULongPtr} {v : ULong} {l l' : WinLog} (h : Wrote process slot v l)
    (hl : l <+: l') : Wrote process slot v l' := by
  obtain ⟨l₁, l₂, rfl, hattached⟩ := h
  obtain ⟨rest, rfl⟩ := hl
  exact ⟨l₁, l₂ ++ rest, by rw [List.append_assoc, List.cons_append], hattached⟩

theorem ReadBack.mono {slot : ULongPtr} {v : ULong} {l l' : WinLog} (h : ReadBack process slot v l)
    (hl : l <+: l') : ReadBack process slot v l' := by
  obtain ⟨l₁, x, l₂, rfl, hrest⟩ := h
  obtain ⟨rest, rfl⟩ := hl
  exact ⟨l₁, x, l₂ ++ rest, by rw [List.append_assoc, List.cons_append], hrest⟩

def raising : Contract WinAns where
  rely
    | _, .probeForWrite _ _ _, x => ∀ code ∈ x, ntSuccess code = false
    | _, .interlockedExchange _ _, x => ∀ code ∈ x, ntSuccess code = false
    | _, _, _ => True
  guar _ _ := True

def AttachedTo (process : PEProcess) (l : WinLog) (o : WinOp) : Prop :=
  o.accesses → attached l = some process

/-- What the reader reports has happened in its process, in the same order. -/
structure Traces (process : PEProcess) (l₁ : ReaderLog) (l₂ : WinLog) : Prop where
  written : ∀ slot v, Written slot v l₁ → Wrote process slot v l₂
  reread : ∀ slot v, Reread slot v l₁ → ReadBack process slot v l₂
  attached : Throughout (AttachedTo process) l₂

theorem Traces.extend (h : Traces process l₁ l₂) {o : WinOp} (x : WinAns o)
    (ho : AttachedTo process l₂ o) : Traces process l₁ (l₂ ++ [⟨o, x⟩]) where
  written slot v hw := (h.written slot v hw).mono (List.prefix_append _ _)
  reread slot v hr := (h.reread slot v hr).mono (List.prefix_append _ _)
  attached := h.attached.snoc ho

theorem Traces.snoc (h : Traces process l₁ l₂) {o : ReaderOp} {x : ReaderAns o}
    (hwrite : ∀ slot v status, (⟨o, x⟩ : Sigma ReaderAns) = ⟨.writeUInt32 slot v, status⟩ →
      ntSuccess status → Wrote process slot v l₂)
    (hread : ∀ slot v r, (⟨o, x⟩ : Sigma ReaderAns) = ⟨.read 32 slot, r⟩ → Written slot v l₁ →
      r.succeeded → r.value = v → ReadBack process slot v l₂) :
    Traces process (l₁ ++ [⟨o, x⟩]) l₂ where
  written slot v hw := by
    rcases hw.of_append with hw | ⟨status, heq, hs⟩
    · exact h.written slot v hw
    · exact hwrite slot v status heq hs
  reread slot v hr := by
    rcases hr.of_append with hr | ⟨r, heq, hw, hs, hv⟩
    · exact h.reread slot v hr
    · exact hread slot v r heq hw hs hv
  attached := h.attached

theorem not_accesses_of_plain {o : WinOp} (h : plain o) : o.accesses = false := by
  cases o <;> first | rfl | cases h

theorem traces_keeps : Keeps raising (Traces process l₁) where
  guar _ _ _ _ := trivial
  keep l o x h ho _ := h.extend x fun haccesses => by
    rw [not_accesses_of_plain ho] at haccesses
    cases haccesses

theorem traces_freeNote (n : Note) : FreeNote raising (Traces process l₁) n :=
  fun _ h => ⟨trivial, h.extend (o := .note n) () nofun⟩

theorem wp_read_traces (bits : Nat) (a : ULongPtr) (h : Traces reader.process l₁ l₂) :
    wp raising (KernelProcessMemoryReader.read sys reader bits a) l₂ fun r l₂' =>
      Traces reader.process (l₁ ++ [⟨.read bits a, r⟩]) l₂' := by
  rw [KernelProcessMemoryReader.read, wp_bind]
  refine wp_mono (wp_copyValue traces_keeps (fun _ => traces_freeNote _)
    (fun l hl hattached _ => ⟨trivial, fun x _ => hl.extend x fun _ => hattached⟩) h)
    fun r l' hread => ?_
  obtain ⟨hl', hr⟩ := hread
  refine hl'.snoc (fun _ _ _ heq => by cases heq) fun slot v r' heq hw hs hv => ?_
  cases heq
  change (readResult 32 r).succeeded at hs
  change (readResult 32 r).value = v at hv
  rcases hr with ⟨rfl, -⟩ | ⟨-, ⟨rfl, -⟩ | ⟨x, l₃, rfl, -, h₃, -, hpre⟩⟩
  · cases hs
  · cases hs
  · rcases copiedOf_cases (byteSize 32) x with ⟨⟨hstatus, hcopied⟩, hx⟩ | ⟨-, hx⟩
    · obtain ⟨rest, rfl⟩ := hpre
      rw [List.append_assoc, List.singleton_append] at hl' ⊢
      refine ⟨l₃, x, rest, rfl, h₃.written a v hw, hl'.attached l₃ _ rest rfl rfl, hstatus, hcopied, ?_⟩
      rw [hx] at hv
      exact hv
    · rw [readResult_failed hx] at hs
      cases hs

theorem wp_writeUInt32_traces (a : ULongPtr) (value : ULong) (h : Traces reader.process l₁ l₂) :
    wp raising (KernelProcessMemoryReader.writeUInt32 sys reader a value) l₂ fun r l₂' =>
      Traces reader.process (l₁ ++ [⟨.writeUInt32 a value, r⟩]) l₂' := by
  refine wp_mono (wp_writeUInt32 (K := fun x l => Traces reader.process l₁ l ∧
      (x = none → Wrote reader.process a value l)) traces_keeps (fun x => ?_)
    (traces_freeNote _) (traces_freeNote _)
    (fun l hl hattached _ => ⟨trivial, fun x _ => hl.extend x fun _ => hattached⟩)
    (fun l hl hattached _ => ⟨trivial, fun x _ => ⟨hl.extend x fun _ => hattached, fun hx => ?_⟩⟩) h)
    fun r l' hr => ?_
  · refine ⟨fun _ _ _ _ => trivial, fun l o y hl ho hy => ⟨traces_keeps.keep l o y hl.1 ho hy, ?_⟩⟩
    exact fun hx => (hl.2 hx).mono (List.prefix_append _ _)
  · subst hx
    exact ⟨l, [], rfl, hattached⟩
  · rcases hr with ⟨hl', hr⟩ | ⟨-, x, l₃, ⟨hl', hwrote⟩, rfl, -, -, hx⟩
    · refine hl'.snoc (fun slot v status heq hs => ?_) (fun _ _ _ heq => by cases heq)
      cases heq
      rcases hr with ⟨rfl, -⟩ | ⟨-, ⟨rfl, -⟩ | ⟨l₃, -, -, hx, -⟩⟩
      · cases hs
      · cases hs
      · rw [hx r rfl] at hs
        cases hs
    · refine hl'.snoc (fun slot v status heq hs => ?_) (fun _ _ _ heq => by cases heq)
      cases heq
      cases x with
      | none => exact hwrote rfl
      | some code =>
        change ntSuccess code at hs
        rw [hx code rfl] at hs
        cases hs

theorem perform_traces (l₁ : ReaderLog) (l₂ : WinLog) (o : ReaderOp)
    (h : Traces reader.process l₁ l₂) :
    wp raising (perform sys reader o) l₂ fun x l₂' =>
      True ∧ Traces reader.process (l₁ ++ [⟨o, x⟩]) l₂' := by
  have hother : ∀ {o : ReaderOp} {x : ReaderAns o} {l : WinLog},
      (∀ slot v status, (⟨o, x⟩ : Sigma ReaderAns) ≠ ⟨.writeUInt32 slot v, status⟩) →
      (∀ slot r, (⟨o, x⟩ : Sigma ReaderAns) ≠ ⟨.read 32 slot, r⟩) →
      Traces reader.process l₁ l → Traces reader.process (l₁ ++ [⟨o, x⟩]) l :=
    fun hw hr hl => hl.snoc (fun _ _ _ heq => absurd heq (hw _ _ _))
      fun _ _ _ heq => absurd heq (hr _ _)
  cases o with
  | note n =>
    exact ⟨trivial, fun x _ => ⟨trivial, hother nofun nofun (h.extend (o := .note n) x nofun)⟩⟩
  | resolveImageOffset offset =>
    exact wp_mono (wp_resolveImageOffset traces_keeps rfl (fun _ => traces_freeNote _)
      (fun _ => traces_freeNote _) h) fun _ _ hr => ⟨trivial, hother nofun nofun hr.1⟩
  | read bits a => exact wp_mono (wp_read_traces bits a h) fun _ _ hr => ⟨trivial, hr⟩
  | writeUInt32 a value => exact wp_mono (wp_writeUInt32_traces a value h) fun _ _ hr => ⟨trivial, hr⟩

def Idle (l : WinLog) : Prop := ∀ e ∈ l, e.1.accesses = false

theorem Idle.snoc {l : WinLog} (h : Idle l) {o : WinOp} (ho : o.accesses = false) (x : WinAns o) :
    Idle (l ++ [⟨o, x⟩]) := by
  intro e he
  rcases List.mem_append.mp he with he | he
  · exact h e he
  · rw [List.mem_singleton.mp he]
    exact ho

theorem idle_keeps : Keeps raising Idle :=
  ⟨fun _ _ _ _ => trivial, fun _ _ x hl ho _ => hl.snoc (not_accesses_of_plain ho) x⟩

theorem Idle.traces {l : WinLog} (h : Idle l) : Traces process [] l where
  written _ _ hw := by
    obtain ⟨status, hmem, -⟩ := hw
    cases hmem
  reread _ _ hr := by
    obtain ⟨l₁, r, l₂, hsplit, -⟩ := hr
    simp at hsplit
  attached l₁ e l₂ hsplit haccesses := by
    rw [h e (by rw [hsplit]; simp)] at haccesses
    cases haccesses

theorem readBack_keeps (q : Prop) (targetId : ULong) :
    Keeps raising fun l => q → ∃ process slot, ReadBack process slot targetId l := by
  refine ⟨fun _ _ _ _ => trivial, fun l o x hl _ _ hq => ?_⟩
  obtain ⟨process, slot, hback⟩ := hl hq
  exact ⟨process, slot, hback.mono (List.prefix_append _ _)⟩

/-- A selection that answers with its id has written it, and read it back afterwards. -/
theorem wp_executeSelectTargetRequest_readBack {request : SelectTargetRequest}
    (hvalid : validSelectTargetRequest request) {l : WinLog} (hl : Idle l) :
    wp raising (executeSelectTargetRequest sys request) l fun response l' =>
      response.selectedId = request.targetId →
        ∃ process slot, ReadBack process slot request.targetId l' := by
  have hid : request.targetId ≠ 0 := (of_decide_eq_true hvalid).2.2.2.2.1
  rw [executeSelectTargetRequest, if_neg (by simpa using hvalid)]
  have hfail : ∀ status (l : WinLog), Idle l → ntSuccess status = false →
      (SelectTarget.newResponse status).selectedId = request.targetId →
      ∃ process slot, ReadBack process slot request.targetId l :=
    fun _ _ _ _ h => absurd h (Ne.symm hid)
  refine wp_withReader (Q := fun (response : SelectTargetResponse) l' =>
    response.selectedId = request.targetId →
      ∃ process slot, ReadBack process slot request.targetId l') idle_keeps
    (fun response => readBack_keeps (SelectTargetResponse.selectedId response = _) _) hfail
    (fun reader l hl _ => ?_) hl
  refine wp_mono (wp_translate (fun l₁ l₂ o h _ => perform_traces l₁ l₂ o h) hl.traces
    (wp_select_reread hid [])) fun response l' hselect h => ?_
  obtain ⟨l₁, htraces, hresponse⟩ := hselect
  obtain ⟨slot, hreread⟩ := hresponse h
  exact ⟨reader.process, slot, htraces.reread slot _ hreread⟩

theorem selectReply_ok {completed : Completed} {targetId : ULong}
    (h : (selectReply sys targetId (System.ioctlResult sys completed)).ok) :
    ntSuccess completed.status ∧ ∀ response : SelectTargetResponse,
      completed = ⟨statusSuccess, sizeofSelectTargetResponse.setWidth 64, some response.encode⟩ →
      response.selectedId = targetId := by
  constructor
  · by_contra hs
    rw [System.ioctlResult_failed (by simpa using hs)] at h
    cases h
  · rintro response rfl
    by_contra hne
    rw [System.ioctlResult_success response.encode_lt, selectReply,
      SelectTargetResponse.decode_encode] at h
    by_cases hvalid : !validSelectTargetResponse response sizeofSelectTargetResponse
    · rw [if_pos hvalid] at h
      cases h
    · rw [if_neg hvalid, if_pos (.inr hne)] at h
      cases h

theorem wp_deviceControl_readBack (sys : Platform) {irp : Irp} {request : SelectTargetRequest}
    (hasks : Asks irp request) :
    wp raising (deviceControl sys irp) [] fun completed l =>
      (selectReply sys request.targetId (System.ioctlResult sys completed)).ok →
        ∃ process slot, ReadBack process slot request.targetId l := by
  obtain ⟨hcommand, ⟨buffer, hbuffer, rfl⟩, -⟩ := hasks
  refine wp_deviceControl idle_keeps (fun status l _ hs h => ?_) ?_ ?_ ?_ (by simp [Idle])
  · exact absurd (selectReply_ok h).1 (by rw [complete, hs]; decide)
  · intro buffer' l hgate
    exact absurd (hgate.command.symm.trans hcommand) (by decide)
  · intro buffer' l hgate hl _ hvalid
    obtain rfl : buffer' = buffer := Option.some.inj (hgate.buffer.symm.trans hbuffer)
    refine wp_mono (wp_executeSelectTargetRequest_readBack hvalid hl) fun response l' hback h => ?_
    exact hback ((selectReply_ok h).2 response rfl)
  · intro buffer' l hgate
    exact absurd (hgate.command.symm.trans hcommand) (by decide)

end System

section Requests

variable {ι : Type} [DecidableEq ι] {irps : ι → Irp} {history : History ι WinAns}
variable {rest : ι → Windows Completed}

/-- `memory` is what the processes hold before each step of the history: a complete copy delivers
what it finds. The game and the other requests may change it between any two steps. -/
def Observes (memory : Nat → PEProcess → Bytes 64) (history : History ι WinAns) : Prop :=
  ∀ h₁ i a n x h₂ process, history = h₁ ++ (i, ⟨.mmCopyMemory a n, x⟩) :: h₂ →
    attached (own i h₁) = some process → ntSuccess x.completion.status → x.copied = n →
    x.scratch.take n.toNat = load (memory h₁.length process) a n.toNat

/-- At some step after its own write the id of the request was in the slot. -/
def TookEffect (memory : Nat → PEProcess → Bytes 64) (history : History ι WinAns) (i : ι)
    (targetId : ULong) : Prop :=
  ∃ h₁ h₂ process slot, history = h₁ ++ h₂ ∧
    (∃ h₃ h₄, h₁ = h₃ ++ (i, ⟨.interlockedExchange slot targetId, none⟩) :: h₄ ∧
      attached (own i h₃) = some process) ∧
    valueOfBytes 32 (load (memory h₁.length process) slot 4) = targetId

/-- Whatever other requests and the game do in between: if a client is told that its selection was
made, then at some moment after the write of the request the slot held the id it asked for. -/
theorem serving_selected {memory : Nat → PEProcess → Bytes 64} (h : Serving sys irps history rest)
    (hraise : Relied (fun _ => raising) history) (hobserves : Observes memory history) {i : ι}
    {completed : Completed} (hdone : rest i = .done completed) {request : SelectTargetRequest}
    (hasks : Asks (irps i) request)
    (hok : (selectReply sys request.targetId (System.ioctlResult sys completed)).ok) :
    TookEffect memory history i request.targetId := by
  have hwp : ∀ j, wp raising (deviceControl sys (irps j)) [] fun completed l =>
      Asks (irps j) request →
        (selectReply sys request.targetId (System.ioctlResult sys completed)).ok →
          ∃ process slot, ReadBack process slot request.targetId l := by
    intro j
    by_cases hj : Asks (irps j) request
    · exact wp_mono (wp_deviceControl_readBack sys hj) fun _ _ hback _ => hback
    · exact wp_of_forall (fun _ _ => trivial) (fun _ _ hc => absurd hc hj) _ _
  obtain ⟨process, slot, l₁, x, l₂, hsplit, hwrote, hattached, hstatus, hcopied, hvalue⟩ :=
    h.result (C := fun _ => raising) hwp hraise hdone hasks hok
  obtain ⟨h₁, h₂, hhistory, hown, -⟩ := exists_of_own hsplit
  refine ⟨h₁, (i, ⟨.mmCopyMemory slot 4, x⟩) :: h₂, process, slot, hhistory, ?_, ?_⟩
  · obtain ⟨l₃, l₄, hl₁, hattached₃⟩ := hwrote
    obtain ⟨h₃, h₄, hh₁, hown₃, -⟩ := exists_of_own (hown.trans hl₁)
    exact ⟨h₃, h₄, hh₁, by rw [hown₃]; exact hattached₃⟩
  · have hload := hobserves h₁ i slot 4 x h₂ process hhistory (by rw [hown]; exact hattached) hstatus
      hcopied
    change x.scratch.take 4 = load _ slot 4 at hload
    rw [← hload]
    exact hvalue

def sampleMemory (step : Nat) (_ : PEProcess) : Bytes 64 :=
  sampleGame.after ((sampleServing.1.take step).map Prod.snd)

theorem sampleServing_raising : Relied (fun _ => raising) sampleServing.1 := by
  intro h₁ i e h₂ hsplit
  obtain ⟨o, x⟩ := e
  have hanswer : x = sampleGame.env 9 sampleImage (h₁.map Prod.snd) o :=
    sampleServing_serves.2 h₁ i ⟨o, x⟩ h₂ hsplit
  have hfits := sampleGame.env_fits 9 sampleImage (h₁.map Prod.snd) o
  rw [← hanswer] at hfits
  cases o with
  | probeForWrite => exact hfits.2
  | interlockedExchange => exact hfits.2
  | _ => trivial

theorem sampleServing_observes : Observes sampleMemory sampleServing.1 := by
  intro h₁ i a n x h₂ process hsplit _ hstatus hcopied
  have hanswer : x = sampleGame.env 9 sampleImage (h₁.map Prod.snd) (.mmCopyMemory a n) :=
    sampleServing_serves.2 h₁ i ⟨.mmCopyMemory a n, x⟩ h₂ hsplit
  have hmemory : sampleMemory h₁.length process = sampleGame.after (h₁.map Prod.snd) := by
    rw [sampleMemory, hsplit, List.take_left]
  have hfits := sampleGame.env_fits 9 sampleImage (h₁.map Prod.snd) (.mmCopyMemory a n)
  rw [hmemory]
  rw [← hanswer, Target.Fits] at hfits
  by_cases hcovers : covers sampleGame.readable a n.toNat
  · rw [if_pos hcovers] at hfits
    exact hfits.2.2
  · rw [if_neg hcovers] at hfits
    exact absurd ⟨hstatus, hcopied⟩ hfits

theorem serving_selected_sample : TookEffect sampleMemory sampleServing.1 true 5 := by
  have hreply : ((sampleServing.2 true).result?.map fun completed =>
      (selectReply samplePlatform 5 (System.ioctlResult samplePlatform completed)).ok) = some true := by
    decide +kernel
  have hasks : Asks (twoSelections true) ⟨3, sizeofSelectTargetRequest, 7, 5, 0⟩ :=
    ⟨rfl, ⟨_, rfl, by decide +kernel⟩, by decide +kernel⟩
  obtain ⟨completed, hcompleted, hok⟩ := Option.map_eq_some_iff.mp hreply
  exact serving_selected sampleServing_serves.1 sampleServing_raising sampleServing_observes
    (Program.result?_eq_some hcompleted) hasks hok

end Requests

end DarkEden.Concurrency
