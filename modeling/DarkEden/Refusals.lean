import DarkEden.TextSight

namespace DarkEden.Target

open Interaction Memory Protocol Client ReaderRules
open KernelProcessMemoryReader (perform)

variable {sys : Platform} (T : Target sys) (process : PEProcess)

/-- There is nothing but the value. -/
def AtMost {α : Type} (value told : Option α) : Prop := ∀ v, told = some v → value = some v

theorem atMost_none {α : Type} (value : Option α) : AtMost value none := nofun

theorem atMost_of_eq {α : Type} {value told : Option α} (h : told = value) : AtMost value told :=
  fun _ hv => h.symm.trans hv

/-- If an object is handed out for the process id, it is the process. -/
def Hands : (o : WinOp) → WinAns o → Prop
  | .obReferenceObjectByHandle _ _, x => ntSuccess x.status → x.object = process
  | _, _ => True

/-- The system on the target, where the process need not open for every request. -/
def refusingSystem : Contract WinAns :=
  ⟨fun l o x => T.Fits l o x ∧ Hands process o x, fun _ _ => True⟩

structure Unchanged (l : WinLog) : Prop where
  after : T.after l = T.byte
  hands : ∀ e ∈ l, Hands process e.1 e.2

variable {T process}

theorem refusing_of_opened {allowWrite : Bool} {l : WinLog} {o : WinOp} {x : WinAns o}
    (h : (T.openedSystem allowWrite process).rely l o x) : (T.refusingSystem process).rely l o x := by
  refine ⟨h.1, ?_⟩
  cases o with
  | obReferenceObjectByHandle => exact fun _ => h.2.2
  | _ => trivial

section Driver

variable {client : PEProcess}

theorem hands_append {l : WinLog} {o : WinOp} {x : WinAns o} (h : ∀ e ∈ l, Hands process e.1 e.2)
    (hx : Hands process o x) : ∀ e ∈ l ++ [⟨o, x⟩], Hands process e.1 e.2 :=
  List.forall_mem_append.mpr ⟨h, List.forall_mem_singleton.mpr hx⟩

theorem unchanged_keeps : Keeps (T.refusingSystem process) (T.Unchanged process) where
  guar _ _ _ _ := trivial
  keep l o x h ho hx :=
    ⟨(system_keeps T.byte).keep l o x h.after ho hx.1, hands_append h.hands hx.2⟩

theorem wp_refusing {α : Type} {p : Windows α} {l : WinLog} {Q : α → WinLog → Prop}
    (h : wp T.system p l Q) : wp (T.refusingSystem process) p l Q :=
  wp_contract (C := T.system) (fun _ _ _ hx => hx.1) (fun _ _ hg => hg) h

theorem wp_unchanged {α : Type} {p : Windows α} {l : WinLog} {P : α → Prop}
    (hl : T.Unchanged process l)
    (h : wp (T.refusingSystem process) p l fun a l' => P a ∧ T.after l' = T.byte) :
    wp (T.refusingSystem process) p l fun a l' => P a ∧ T.Unchanged process l' :=
  wp_mono (wp_invariant (C := T.refusingSystem process) (J := fun l => ∀ e ∈ l, Hands process e.1 e.2)
    (fun _ _ _ hx hl => hands_append hl hx.2) hl.hands h) fun _ _ ⟨⟨ha, hafter⟩, hhands⟩ =>
      ⟨ha, hafter, hhands⟩

/-- A request whose process opens is executed with a reader of the target; otherwise it fails. -/
theorem wp_withReader_refusing {α : Type} {processId : Handle} {failed : NtStatus → α}
    {body : Memory α} {P : α → Prop}
    (hfail : ∀ status, ntSuccess status = false → P (failed status))
    (hbody : wp (T.quiet ⟨process⟩) body [] fun a _ => P a) {l : WinLog}
    (hl : T.Unchanged process l) :
    wp (T.refusingSystem process) (withReader sys processId false failed body) l fun a l' =>
      P a ∧ T.Unchanged process l' := by
  have hQ : ∀ a, Keeps (T.refusingSystem process) fun l => P a ∧ T.after l = T.byte := fun a =>
    ⟨fun _ _ _ _ => trivial,
      fun l o x hl ho hx => ⟨hl.1, (system_keeps T.byte).keep l o x hl.2 ho hx.1⟩⟩
  refine wp_unchanged hl (wp_withReader unchanged_keeps hQ
    (fun status l hl hs => ⟨hfail status hs, hl.after⟩) (fun reader l hl hopened => ?_) hl)
  obtain ⟨opened, info, referenced, image, -, -, -, -, -, href, hsuccess, hobject, -⟩ := hopened
  obtain ⟨found⟩ := reader
  obtain rfl : process = found := (hl.hands _ href hsuccess).symm.trans hobject
  exact wp_refusing (wp_performed_quiet hbody hl.after)

theorem wp_deviceIoControl_coordinate_refusing {request : Request} (hvalid : validRequest request)
    (htable : TableDriven request) {l : WinLog} (hl : T.Unchanged process l) :
    wp (T.refusingSystem process) (System.deviceIoControl sys client readCoordinates
      request.encode sizeofRequest sizeofResponse) l fun reply l' =>
        AtMost (T.coordinate process request) (accepted request (readReply sys request reply)) ∧
          T.Unchanged process l' := by
  refine wp_deviceIoControl_coordinate_of unchanged_keeps (fun _ _ hx => hx.1) hvalid htable
    (fun _ => atMost_none _) (fun _ l hl => ?_) hl
  rw [executeDarkEdenRequest, if_neg (by simpa using hvalid)]
  refine wp_withReader_refusing (fun status hs => ⟨none, atMost_none _, by exact hs⟩) ?_ hl
  exact wp_mono (wp_readResolved hvalid htable process []) fun response _ h =>
    ⟨_, atMost_of_eq rfl, h⟩

theorem wp_deviceIoControl_text_refusing {request : TextRequest} (hvalid : validTextRequest request)
    (hnarrow : request.characterBytes = 1) (hpointed : request.reserved = 0) {l : WinLog}
    (hl : T.Unchanged process l) :
    wp (T.refusingSystem process) (System.deviceIoControl sys client Protocol.readText
      request.encode sizeofTextRequest sizeofTextResponse) l fun reply l' =>
        AtMost (T.textAt process request.baseAddress) (acceptedText (readTextReply sys request reply)) ∧
          T.Unchanged process l' := by
  refine wp_deviceIoControl_text_of unchanged_keeps (fun _ _ hx => hx.1) hvalid hnarrow
    (fun _ => atMost_none _) (fun _ l hl => ?_) hl
  rw [executeDarkEdenTextRequest, if_neg (by simpa using hvalid)]
  refine wp_withReader_refusing (fun status hs => ⟨none, atMost_none _, by exact hs⟩) ?_ hl
  exact wp_mono (wp_readResolvedText_tells hnarrow hpointed []) fun response _ h =>
    ⟨_, atMost_of_eq rfl, h⟩

end Driver

section User

variable (T process)

/-- What a user-mode program may rely on where each of its requests may be refused. -/
def refusing : Contract UserAns where
  rely
    | _, .api o, x => x = T.api o
    | _, .deviceIoControl command input inputLength outputLength, x =>
      (∀ request, Asks command input inputLength outputLength request →
        AtMost (T.coordinate process request) (accepted request (readReply sys request x))) ∧
      ∀ request, AsksText command input inputLength outputLength request →
        AtMost (T.textAt process request.baseAddress) (acceptedText (readTextReply sys request x))
  guar := (T.served process).guar

variable {T process} {client : PEProcess}

theorem not_asksText {command inputLength outputLength : ULong} {input : Nat} {request : Request}
    {textRequest : TextRequest} (h : Asks command input inputLength outputLength request) :
    ¬AsksText command input inputLength outputLength textRequest := by
  have hcommand : readCoordinates ≠ Protocol.readText := by decide
  exact fun h' => hcommand (h.1.symm.trans h'.1)

theorem perform_refusing (l₁ : Log UserAns) (l₂ : WinLog) (o : UserOp) (hl : T.Unchanged process l₂)
    (ho : (T.refusing process).guar l₁ o) :
    wp (T.refusingSystem process) (System.perform sys client o) l₂ fun x l₂' =>
      (T.refusing process).rely l₁ o x ∧ T.Unchanged process l₂' := by
  cases o with
  | api o => exact ⟨trivial, fun x hx => ⟨hx.1, unchanged_keeps.keep _ _ _ hl rfl hx⟩⟩
  | deviceIoControl command input inputLength outputLength =>
    change wp _ (System.deviceIoControl _ _ _ _ _ _) _ _
    by_cases hasks : ∃ request, Asks command input inputLength outputLength request
    · obtain ⟨request, h⟩ := hasks
      obtain ⟨rfl, rfl, rfl, rfl, hvalid, htable⟩ := id h
      refine wp_mono (wp_deviceIoControl_coordinate_refusing hvalid htable hl)
        fun reply l' ⟨hreply, hl'⟩ => ⟨⟨fun request' h' => ?_, fun _ h' => ?_⟩, hl'⟩
      · have hrequest : request = request' := by
          rw [← Request.decode_encode request, h'.2.1, Request.decode_encode]
        rwa [← hrequest]
      · exact absurd h' (not_asksText h)
    by_cases hasks' : ∃ request, AsksText command input inputLength outputLength request
    · obtain ⟨request, rfl, rfl, rfl, rfl, hvalid, hnarrow, hpointed⟩ := hasks'
      refine wp_mono (wp_deviceIoControl_text_refusing hvalid hnarrow hpointed hl)
        fun reply l' ⟨hreply, hl'⟩ => ⟨⟨fun request' h' => ?_, fun request' h' => ?_⟩, hl'⟩
      · exact absurd ⟨request', h'⟩ hasks
      · have hrequest : request = request' := by
          rw [← TextRequest.decode_encode request, h'.2.1, TextRequest.decode_encode]
        rwa [← hrequest]
    · have hcommand : (System.irpOf client command input inputLength outputLength).ioControlCode ≠
          selectTarget := ho
      rw [System.deviceIoControl, wp_bind]
      refine wp_mono (wp_unchanged (P := fun _ => True) hl (wp_mono (wp_refusing
        (wp_deviceControl_untouched hcommand hl.after)) fun _ _ h => ⟨trivial, h⟩))
        fun completed l' hl' => ⟨⟨fun request h => ?_, fun request h => ?_⟩, hl'.2⟩
      · exact absurd ⟨request, h⟩ hasks
      · exact absurd ⟨request, h⟩ hasks'

theorem unchanged_nil : T.Unchanged process [] := ⟨rfl, nofun⟩

/-- What a program achieves, and what it has called for on the way. -/
theorem run_of_refusing {α : Type} {env : WinEnv}
    (henv : ∀ l o, (T.refusingSystem process).rely l o (env l o)) {p : User α}
    {Q : α → Log UserAns → Prop} (h : wp (T.refusing process) p [] Q) :
    Q ((System.runUser sys client p).run env []).1 (System.calls sys client p env) :=
  run_of_wp_record (R := fun _ => T.Unchanged process) henv perform_refusing unchanged_nil h

theorem run_of_told {α : Type} {env : WinEnv}
    (henv : ∀ l o, (T.openedSystem false process).rely l o (env l o)) {p : User α}
    {Q : α → Log UserAns → Prop} (h : wp (T.told process) p [] Q) :
    Q ((System.runUser sys client p).run env []).1 (System.calls sys client p env) :=
  run_of_wp_record (R := fun _ l₂ => T.after l₂ = T.byte) henv perform_told rfl h

end User

section Engine

open Engine EngineRules

variable {processId : DWord}

/-- Programs that do not talk to the driver do what they do where nothing is refused. -/
theorem wp_refusing_api {α : Type} {p : User α} (hp : Uses (fun o => ∃ a, o = UserOp.api a) p)
    {l : Log UserAns} {Q : α → Log UserAns → Prop} (h : wp (T.served process) p l Q) :
    wp (T.refusing process) p l Q := by
  refine wp_restrict (fun l o ho => ?_) (fun l o x ho hx => ?_) hp h
  · obtain ⟨a, rfl⟩ := ho
    trivial
  · obtain ⟨a, rfl⟩ := ho
    exact hx

theorem wp_read_refusing {request : Request} (l : Log UserAns) :
    wp (T.refusing process) (read sys processId request) l fun outcome _ => ∀ value,
      accepted request outcome = some value → TableDriven request →
        T.api (.createFileW genericRead) = none ∧
        validRequest { request with processId := processId.setWidth 64 } ∧
        T.coordinate process { request with processId := processId.setWidth 64 } = some value := by
  have hfail : ∀ error, accepted request (.fail emptyResponse error) = none := fun _ => rfl
  apply wp_read_of sys trivial
  · exact fun code _ => wp_mono (wp_refusing_api (deviceError_api sys code) (wp_deviceError code _))
      fun error _ _ value hvalue _ => nomatch (hfail error).symm.trans hvalue
  · exact fun _ _ error _ value hvalue _ => nomatch (hfail error).symm.trans hvalue
  · intro hopened hvalid
    have hcommand : readCoordinates ≠ selectTarget := by decide
    refine ⟨hcommand, fun reply hreply value hvalue htable => ⟨Eq.symm hopened, hvalid, ?_⟩⟩
    exact hreply.1 _ ⟨rfl, rfl, rfl, rfl, hvalid, htable⟩ value hvalue

theorem wp_readDword_refusing (processId : DWord) (imageBase address : ULongPtr) (l : Log UserAns) :
    wp (T.refusing process) (readDword sys processId imageBase address).run l fun r _ =>
      AtMost (sight T process processId imageBase address) r.toOption := by
  rw [readDword]
  refine wp_run_bind.mpr (wp_require.mpr ⟨fun hrange => ?_, fun _ => atMost_none _⟩)
  obtain ⟨hlow, hhigh⟩ := not_or.mp hrange
  refine wp_run_bind.mpr ((wp_map _ _ _ _).mpr ?_)
  refine wp_mono (wp_read_refusing l) fun outcome l' houtcome => ?_
  rw [accept]
  cases hok : outcome.ok with
  | false => exact atMost_none _
  | true =>
    have haccepted : accepted (directRequest processId (address - imageBase)) outcome =
        some outcome.response.xBits := if_pos hok
    obtain ⟨hopened, hvalid, hvalue⟩ := houtcome _ haccepted ⟨.inl ⟨rfl, rfl⟩, .inl rfl⟩
    have hpid : processId ≠ 0 := by
      rintro rfl
      obtain ⟨-, -, -, hzero, -⟩ := of_decide_eq_true hvalid
      exact hzero rfl
    refine atMost_of_eq (Eq.symm ?_)
    rw [sight, if_pos ⟨hopened, hpid, BitVec.not_le.mp hlow, BitVec.not_lt.mp hhigh⟩]
    exact hvalue

end Engine

end DarkEden.Target
