import DarkEden.Quiescent

namespace DarkEden.Atomicity

open Interaction ByteMemory Memory SelectTarget Protocol Client ReaderRules
open Target (Settled)

variable {sys : Platform} {T : Target sys}

section Driver

/-- The slot of the controller that a selection in an opened process is to write. -/
structure Slot (T : Target sys) (processId : Handle) (targetId : ULong) (slot : ULongPtr)
    (process : PEProcess) (l : WinLog) : Prop where
  opened : Opened sys processId true process l
  located : T.slotOf (sys.psGetProcessSectionBaseAddress process) targetId = some slot

def AllOrNothing (T : Target sys) (processId : Handle) (targetId : ULong)
    (response : SelectTargetResponse) (l : WinLog) : Prop :=
  ∃ slot, T.Settled targetId slot response (T.after l) ∧
    ∀ s ∈ slot, ∃ process, Slot T processId targetId s process l

theorem allOrNothing_keeps (processId : Handle) (targetId : ULong)
    (response : SelectTargetResponse) :
    Keeps T.system (AllOrNothing T processId targetId response) where
  guar _ _ _ _ := trivial
  keep l o x := by
    intro ⟨slot, hsettled, hslot⟩ ho _
    refine ⟨slot, ?_, fun s hs => ?_⟩
    · rwa [Target.after_append_of_not_writes (by cases o <;> first | rfl | cases ho)]
    · obtain ⟨process, hprocess⟩ := hslot s hs
      exact ⟨process, hprocess.opened.mono (List.prefix_append _ _), hprocess.located⟩

theorem allOrNothing_failed {processId : Handle} {targetId : ULong} {status : NtStatus}
    {l : WinLog} (hstatus : ntSuccess status = false) (hl : T.after l = T.byte) :
    AllOrNothing T processId targetId (SelectTarget.newResponse status) l :=
  ⟨none, ⟨hstatus, hl⟩, nofun⟩

theorem wp_executeSelectTargetRequest {request : SelectTargetRequest} {l : WinLog}
    (hl : T.after l = T.byte) :
    wp T.system (executeSelectTargetRequest sys request) l
      (AllOrNothing T request.processId request.targetId) := by
  rw [executeSelectTargetRequest, wp_ite]
  refine ⟨fun _ => allOrNothing_failed rfl hl, fun _ => ?_⟩
  refine wp_withReader (J := fun l => T.after l = T.byte) (Target.system_keeps T.byte)
    (allOrNothing_keeps _ _) (fun status l hl hs => allOrNothing_failed hs hl)
    (fun reader l hl hopened => ?_) hl
  have hrun := wp_prefix
    (Target.wp_performed (Target.wp_select_settled reader rfl request.targetId) hl)
  refine wp_mono hrun fun response l' hresponse => ?_
  obtain ⟨⟨l₁, hR, hsettled⟩, hl'⟩ := hresponse
  refine ⟨_, hR ▸ hsettled, fun slot hslot => ?_⟩
  by_cases hready : T.ready reader
  · rw [if_pos hready] at hslot
    exact ⟨reader.process, hopened.mono hl', hslot⟩
  · rw [if_neg hready] at hslot
    cases hslot

end Driver

section Client

def Answered (T : Target sys) (request : SelectTargetRequest) (completed : Completed)
    (l : WinLog) : Prop :=
  ntSuccess completed.status = false ∧ T.after l = T.byte ∨
    ∃ response, completed = ⟨statusSuccess, sizeofSelectTargetResponse.setWidth 64,
      some response.encode⟩ ∧ AllOrNothing T request.processId request.targetId response l

theorem wp_deviceControl_answered (client : PEProcess) (request : SelectTargetRequest)
    {l : WinLog} (hl : T.after l = T.byte) :
    wp T.system (deviceControl sys (System.irpOf client selectTarget request.encode
      sizeofSelectTargetRequest sizeofSelectTargetResponse)) l (Answered T request) := by
  refine wp_deviceControl (J := fun l => T.after l = T.byte) (Target.system_keeps T.byte)
    (fun status l hl hs => .inl ⟨hs, hl⟩) ?_ ?_ ?_ hl
  · intro buffer l hgate
    cases hgate.command
  · intro buffer l hgate hl _ _
    obtain rfl := Option.some.inj hgate.buffer
    rw [SelectTargetRequest.decode_encode]
    exact wp_mono (wp_executeSelectTargetRequest hl) fun response _ h => .inr ⟨response, rfl, h⟩
  · intro buffer l hgate
    cases hgate.command

/-- What a client that asked for a selection may conclude from the result. -/
def Concluded (T : Target sys) (processId : Handle) (targetId : ULong) (ok : Bool) (l : WinLog) :
    Prop :=
  ok = true ∧ (∃ process slot, Slot T processId targetId slot process l ∧
      T.after l = store T.byte slot 4 targetId.toNat) ∨
    ok = false ∧ T.after l = T.byte

theorem selectReply_concluded {request : SelectTargetRequest} {completed : Completed} {l : WinLog}
    (h : Answered T request completed l) :
    Concluded T request.processId request.targetId
      (selectReply sys request.targetId (System.ioctlResult sys completed)).ok l := by
  obtain ⟨hs, hl⟩ | ⟨response, rfl, slot, hsettled, hslot⟩ := h
  · rw [System.ioctlResult_failed hs]
    exact .inr ⟨rfl, hl⟩
  · rw [System.ioctlResult_success response.encode_lt]
    cases slot with
    | none =>
      refine .inr ⟨ResponseFormat.selectReply_failed ?_, hsettled.2⟩
      rw [SelectTargetResponse.decode_encode]
      exact hsettled.1
    | some slot =>
      obtain ⟨rfl, hm⟩ := hsettled
      obtain ⟨process, hprocess⟩ := hslot slot rfl
      exact .inl ⟨ResponseFormat.selectReply_selected ⟨rfl, rfl, fun _ => rfl⟩ rfl, process, slot,
        hprocess, hm⟩

theorem wp_deviceIoControl_concluded (client : PEProcess) (request : SelectTargetRequest)
    {l : WinLog} (hl : T.after l = T.byte) :
    wp T.system (System.deviceIoControl sys client selectTarget request.encode
      sizeofSelectTargetRequest sizeofSelectTargetResponse) l fun reply l' =>
        Concluded T request.processId request.targetId
          (selectReply sys request.targetId reply).ok l' := by
  rw [System.deviceIoControl, wp_bind]
  exact wp_mono (wp_deviceControl_answered client request hl) fun _ _ => selectReply_concluded

theorem wp_api {α : Type} {client : PEProcess} {p : User α}
    (hp : Uses (fun o => ∃ a, o = UserOp.api a) p) {l : WinLog} (hl : T.after l = T.byte) :
    wp T.system (System.runUser sys client p) l fun _ l' => T.after l' = T.byte := by
  refine wp_translate_invariant hp (fun o l ho hl => ?_) hl
  obtain ⟨a, rfl⟩ := ho
  refine ⟨trivial, fun x _ => ?_⟩
  rwa [wp, Target.after_append_of_not_writes rfl]

theorem wp_selectNearbyTarget (client : PEProcess) (pid : DWord) (targetId : ULong) {l : WinLog}
    (hl : T.after l = T.byte) :
    wp T.system (System.runUser sys client (selectNearbyTarget sys pid targetId)) l
      fun outcome l' => Concluded T (pid.setWidth 64) targetId outcome.ok l' := by
  let request : SelectTargetRequest :=
    ⟨version, sizeofSelectTargetRequest, pid.setWidth 64, targetId, 0⟩
  rw [selectNearbyTarget]
  by_cases hvalid : validSelectTargetRequest request
  · rw [if_neg (by simpa [request] using hvalid)]
    rw [System.runUser, Program.translate_bind, wp_bind]
    refine ⟨trivial, fun opened _ => ?_⟩
    have hl' : T.after (l ++ [⟨.user (.createFileW (genericRead ||| genericWrite)), opened⟩]) =
        T.byte := by
      rwa [Target.after_append_of_not_writes rfl]
    cases opened with
    | some code =>
      change wp T.system (System.runUser sys client (deviceError sys code >>= _)) _ _
      rw [System.runUser, Program.translate_bind, wp_bind]
      exact wp_mono (wp_api (deviceError_api sys code) hl') fun error l' h => .inr ⟨rfl, h⟩
    | none =>
      change wp T.system (System.deviceIoControl sys client _ _ _ _ >>= _) _ _
      rw [wp_bind]
      exact wp_mono (wp_deviceIoControl_concluded client request hl') fun reply l' h => h
  · rw [if_pos (by simpa [request] using hvalid)]
    exact .inr ⟨rfl, hl⟩

end Client

/-- On a target that only the driver changes, the client reports a selection exactly if the id
was stored in the slot of the controller, and nothing else ever changes. -/
theorem selectNearbyTarget_allOrNothing (T : Target sys) {env : WinEnv}
    (hfits : ∀ l o, T.Fits l o (env l o)) (client : PEProcess) (pid : DWord) (targetId : ULong) :
    let run := (System.runUser sys client (selectNearbyTarget sys pid targetId)).run env []
    run.1.ok = true ∧ (∃ process controller, Opened sys (pid.setWidth 64) true process run.2 ∧
        T.dword (sys.psGetProcessSectionBaseAddress process + targetControllerOffset) =
          some controller ∧ controller ≠ 0 ∧
        T.after run.2 = store T.byte (controller.setWidth 64 + 0x28) 4 targetId.toNat) ∨
      run.1.ok = false ∧ T.after run.2 = T.byte := by
  intro run
  obtain ⟨hok, process, slot, hslot, hm⟩ | hfailed :=
    run_of_wp (C := T.system) hfits (wp_selectNearbyTarget client pid targetId (l := []) rfl)
  · obtain ⟨controller, hcontroller, rfl, -⟩ := Target.slotOf_eq_some.mp hslot.located
    obtain ⟨-, -, -, hcontroller, hne, -⟩ := Target.controllerOf_eq_some.mp hcontroller
    exact .inl ⟨hok, process, controller, hslot.opened, hcontroller, hne, hm⟩
  · exact .inr hfailed

theorem sampleGame_selected :
    ((System.runUser samplePlatform 9 (selectNearbyTarget samplePlatform 7 5)).run
      (sampleGame.env 9 sampleImage) []).1.ok = true := by
  decide +kernel

/-- In the sample game the character is selected. -/
theorem selectNearbyTarget_allOrNothing_sample :
    let run := (System.runUser samplePlatform 9 (selectNearbyTarget samplePlatform 7 5)).run
      (sampleGame.env 9 sampleImage) []
    run.1.ok = true ∧ ∃ process controller,
      Opened samplePlatform ((7 : DWord).setWidth 64) true process run.2 ∧
      sampleGame.dword (samplePlatform.psGetProcessSectionBaseAddress process +
        targetControllerOffset) = some controller ∧ controller ≠ 0 ∧
      sampleGame.after run.2 =
        store sampleGame.byte (controller.setWidth 64 + 0x28) 4 (5 : ULong).toNat :=
  (selectNearbyTarget_allOrNothing sampleGame (sampleGame.env_fits 9 sampleImage) 9 7 5).resolve_right
    fun h => Bool.false_ne_true (h.1.symm.trans sampleGame_selected)

end DarkEden.Atomicity
