import DarkEden.Engine
import DarkEden.Quiescent
import DarkEden.Walkers

namespace DarkEden.Target

open Interaction Memory Protocol Client ReaderRules PointerChase
open KernelProcessMemoryReader (perform maxULong)

variable {sys : Platform} (T : Target sys)

def walk : List ULong → ULongPtr → Option ULongPtr
  | [], address => some address
  | offset :: offsets, address => do
    let pointer ← T.dword address
    guard (pointer ≠ 0 ∧ ¬pointer > 0xFFFFFFFF - offset)
    walk offsets (pointer.setWidth 64 + offset.setWidth 64)

/-- The dword at the end of the pointers of a request. -/
def coordinate (process : PEProcess) (request : Request) : Option ULong :=
  let imageBase := sys.psGetProcessSectionBaseAddress process
  if T.ready ⟨process⟩ ∧ ImageRange sys imageBase request.baseAddress then
    T.walk (offsets request) (imageBase + request.baseAddress) >>= T.dword
  else none

variable {T} in
theorem coordinate_eq_some {process : PEProcess} {request : Request} {value : ULong} :
    T.coordinate process request = some value ↔
      (T.ready ⟨process⟩ ∧
        ImageRange sys (sys.psGetProcessSectionBaseAddress process) request.baseAddress) ∧
      ∃ address, T.walk (offsets request)
        (sys.psGetProcessSectionBaseAddress process + request.baseAddress) = some address ∧
        T.dword address = some value := by
  simp only [coordinate, Option.ite_none_right_eq_some, Option.bind_eq_bind, Option.bind_eq_some_iff]

/-- The modes that walk the offset table of `DispatchCoordinateRequest`. -/
def TableDriven (request : Request) : Prop :=
  (request.reserved = 0 ∧ request.pointerBytes = 0 ∨ request.reserved = 1 ∨
    request.reserved = 2 ∨ request.reserved = 3 ∨ request.reserved = 4) ∧
  (request.axis = Axis.x ∨ request.axis = Axis.y)

def Reports (request : Request) (value : Option ULong) (response : Response) : Prop :=
  match value with
  | some v => response = report request (⟨statusSuccess, byteSize 32, v⟩ : MemoryReadResult 32)
      (fun v => v) (fun v => v)
  | none => ntSuccess response.status = false

section Reader

variable {T} {reader : KernelProcessMemoryReader} {request : Request}

theorem wp_walkPointers (hready : T.ready reader) (offsets : List ULong) (address : ULongPtr)
    (l : ReaderLog) :
    wp (T.quiet reader) (walkPointers offsets address) l fun r _ =>
      r.toOption = T.walk offsets address ∧ ResponseFormat.Failing r := by
  induction offsets generalizing address l with
  | nil => exact ⟨rfl, nofun⟩
  | cons offset offsets ih =>
    rw [walkPointers, walk]
    apply wp_fetch hready
    intro pointer l₁ hpointer
    rw [wp_ite]
    refine ⟨fun hs => ?_, fun hs => ?_⟩
    · rw [eq_none hpointer hs]
      exact ⟨rfl, ResponseFormat.failing_error (failure_error pointer)⟩
    rw [eq_some_value hpointer hs, Option.bind_eq_bind, Option.bind_some, wp_ite]
    refine ⟨fun hzero => ?_, fun hzero => ?_⟩
    · rw [guard_bind_none fun hc => hc.1 hzero]
      exact ⟨rfl, ResponseFormat.failing_error rfl⟩
    refine wp_ask_bind.mpr ⟨trivial, fun _ _ => ?_⟩
    rw [wp_ite]
    refine ⟨fun hexceeds => ?_, fun hexceeds => ?_⟩
    · rw [guard_bind_none fun hc => hc.2 hexceeds]
      exact ⟨rfl, ResponseFormat.failing_error rfl⟩
    · rw [guard_bind ⟨hzero, hexceeds⟩, wp_bind]
      exact ⟨trivial, fun _ _ => ih _ _⟩

theorem report_succeeded {r : MemoryReadResult 32} (hs : r.succeeded) :
    report request r (fun v => v) (fun v => v) =
      report request (⟨statusSuccess, byteSize 32, r.value⟩ : MemoryReadResult 32)
        (fun v => v) (fun v => v) := by
  have hbytes : r.bytesRead = byteSize 32 := eq_of_beq ((Bool.and_eq_true _ _).mp hs).2
  have hs' : (⟨statusSuccess, byteSize 32, r.value⟩ : MemoryReadResult 32).succeeded = true := rfl
  simp only [report, MemoryReadResult.finalStatus, hs, hs', hbytes, if_true]

theorem wp_dispatchCoordinateRequest (hready : T.ready reader) (hvalid : validRequest request)
    (htable : TableDriven request) (l : ReaderLog) :
    wp (T.quiet reader) (dispatchCoordinateRequest request) l fun response _ =>
      Reports request (T.walk (offsets request) request.baseAddress >>= T.dword) response := by
  obtain ⟨hmode, haxis⟩ := htable
  have hreserved : request.reserved ≠ 5 := by
    obtain ⟨h, -⟩ | h | h | h | h := hmode <;> rw [h] <;> decide
  have htable : request.pointerBytes = 0 ∨ request.reserved = 1 ∨ request.reserved = 2 ∨
      request.reserved = 3 ∨ request.reserved = 4 := hmode.imp_left And.right
  rw [dispatchCoordinateRequest, if_neg (by simpa using hvalid), if_neg hreserved, if_pos htable]
  extract_lets table levels
  rw [show table.take levels = offsets request from table_offsets hmode rfl, wp_bind]
  refine wp_mono (wp_walkPointers hready _ _ _) fun r l₁ ⟨hr, hfailing⟩ => ?_
  rw [← hr]
  cases r with
  | error status => exact hfailing status rfl
  | ok address =>
    apply wp_fetch hready
    intro value l₂ hvalue
    change wp _ _ _ fun response _ => Reports request (T.dword address) response
    rw [← hvalue, MemoryReadResult.value?, wp_ite]
    refine ⟨fun hs => ?_, fun hs => ?_⟩
    · rw [if_pos hs, wp_pure]
      apply Eq.trans _ (report_succeeded hs)
      obtain hx | hy := haxis
      · rw [if_neg (by rw [hx]; decide), report_x hs hx]
        rfl
      · rw [if_pos hy, report_y hs hy]
        rfl
    · rw [if_neg hs, wp_pure]
      change ntSuccess value.finalStatus = false
      rw [MemoryReadResult.finalStatus, if_neg hs]
      exact failure_error value

theorem validRequest_resolved (hvalid : validRequest request) {address : ULongPtr}
    (h : address ≠ 0) : validRequest { request with baseAddress := address } := by
  obtain ⟨hversion, hsize, hmode, hpid, hpid', -, hrest⟩ := of_decide_eq_true hvalid
  exact decide_eq_true ⟨hversion, hsize, hmode, hpid, hpid', h, hrest⟩

theorem ne_zero_of_imageRange {imageBase offset : ULongPtr} (h : ImageRange sys imageBase offset) :
    imageBase + offset ≠ 0 := by
  obtain ⟨hbase, hroom⟩ := h
  have hhighest := sys.mmHighestUserAddress.isLt
  bv_omega

theorem wp_readResolved (hvalid : validRequest request) (htable : TableDriven request)
    (process : PEProcess) (l : ReaderLog) :
    wp (T.quiet ⟨process⟩) (readResolved request) l fun response _ =>
      Reports request (T.coordinate process request) response := by
  refine wp_ask_bind.mpr ⟨trivial, fun resolved hresolved => ?_⟩
  change if _ then _ else _ at hresolved
  rw [coordinate]
  by_cases hc : T.ready ⟨process⟩ ∧
      ImageRange sys (sys.psGetProcessSectionBaseAddress process) request.baseAddress
  · rw [if_pos hc] at hresolved
    subst hresolved
    have hsuccess : ntSuccess statusSuccess = true := rfl
    rw [if_neg (by simp [hsuccess])]
    simp only [if_pos hc]
    have hvalid' := validRequest_resolved hvalid (ne_zero_of_imageRange hc.2)
    exact wp_dispatchCoordinateRequest hc.1 hvalid' htable _
  · rw [if_neg hc] at hresolved
    simp only [if_neg hc]
    rw [if_pos (by simpa using hresolved)]
    exact hresolved

end Reader

section Driver

variable {T} {process client : PEProcess} {request : Request}

theorem openedSystem_keeps {J : WinLog → Prop} (hJ : Keeps T.system J) (allowWrite : Bool) :
    Keeps (T.openedSystem allowWrite process) J :=
  ⟨fun _ _ _ _ => trivial, fun l o x hl ho hx => hJ.keep l o x hl ho hx.1⟩

theorem wp_opened {α : Type} {p : Windows α} {l : WinLog} {Q : α → WinLog → Prop}
    (h : wp T.system p l Q) {allowWrite : Bool} : wp (T.openedSystem allowWrite process) p l Q :=
  wp_contract (C := T.system) (fun _ _ _ hx => hx.1) (fun _ _ hg => hg) h

theorem wp_executeDarkEdenRequest (hirql : T.irql = passiveLevel) (hvalid : validRequest request)
    (htable : TableDriven request) {l : WinLog} (hl : T.after l = T.byte) :
    wp (T.openedSystem false process) (executeDarkEdenRequest sys request) l fun response l' =>
      Reports request (T.coordinate process request) response ∧ T.after l' = T.byte := by
  have hkeeps : Keeps (T.openedSystem false process) fun l => T.after l = T.byte :=
    openedSystem_keeps (system_keeps T.byte) false
  rw [executeDarkEdenRequest, if_neg (by simpa using hvalid)]
  refine wp_withReader_opens (J := fun l => T.after l = T.byte) hkeeps (fun _ _ _ hx => hx.2)
    (fun _ _ hx => hx.1.trans hirql) (validRequest_processId hvalid)
    (fun r => ⟨fun _ _ _ _ => trivial, fun l o x hr ho hx => ⟨hr.1, hkeeps.keep l o x hr.2 ho hx⟩⟩)
    (fun l hl => ?_) hl
  exact wp_opened (wp_performed_quiet (wp_readResolved hvalid htable process []) hl)

/-- The value that a client takes from the outcome of `Read`. -/
def accepted (request : Request) (outcome : Outcome Response) : Option ULong :=
  if outcome.ok then
    some (if request.axis = Axis.y then outcome.response.yBits else outcome.response.xBits)
  else none

theorem readReply_failed {output : Nat} {returned : DWord}
    (h : ntSuccess (Response.decode output).status = false) :
    (readReply sys request (.completed output returned)).ok = false := by
  rw [readReply]
  by_cases hvalid : !validResponse request (.decode output) returned
  · rw [if_pos hvalid]
    rfl
  · rw [if_neg hvalid, if_pos (by simp [h])]
    rfl

theorem accepted_reports (htable : TableDriven request) {value : Option ULong} {response : Response}
    (h : Reports request value response) :
    accepted request (readReply sys request (.completed response.encode sizeofResponse)) = value := by
  rw [accepted]
  cases value with
  | none => rw [readReply_failed (by rw [Response.decode_encode]; exact h)]; rfl
  | some v =>
    have haxis : request.axis ≠ Axis.both := by obtain h | h := htable.2 <;> rw [h] <;> decide
    have hreserved : request.reserved ≠ 5 := by
      obtain ⟨h, -⟩ | h | h | h | h := htable.1 <;> rw [h] <;> decide
    have hexpected : (byteSize 32).setWidth 32 = ResponseFormat.expectedBytes request := by
      rw [ResponseFormat.expectedBytes, if_neg hreserved, if_neg haxis]
      rfl
    have hvalid : validResponse request response sizeofResponse := by
      change response = _ at h
      rw [h]
      exact ResponseFormat.validResponse_report ⟨BitVec.le_refl _, rfl⟩ hexpected (by decide) _ _
    have hreply : readReply sys request (.completed response.encode sizeofResponse) =
        .done response := by
      have hsuccess : ntSuccess response.status = true := by rw [h]; rfl
      rw [readReply, Response.decode_encode, if_neg (by simpa using hvalid),
        if_neg (by simp [hsuccess])]
    rw [hreply]
    change some (ite _ _ _) = some v
    rw [h]
    obtain hx | hy := htable.2
    · rw [if_neg (by rw [hx]; decide)]
      exact congrArg some (if_pos ⟨rfl, by rw [hx]; decide⟩)
    · rw [if_pos hy]
      exact congrArg some (if_pos ⟨rfl, by rw [hy]; decide⟩)

theorem coordinate_notReady (h : ¬T.ready ⟨process⟩) : T.coordinate process request = none :=
  if_neg fun hc => h hc.1

theorem wp_deviceIoControl_coordinate_of {C : Contract WinAns} {J : WinLog → Prop} (hJ : Keeps C J)
    (hlevel : ∀ l x, C.rely l .keGetCurrentIrql x → x = T.irql) (hvalid : validRequest request)
    (htable : TableDriven request) {V : Option ULong → Prop}
    (hrefused : T.irql ≠ passiveLevel → V none)
    (hexecuted : T.irql = passiveLevel → ∀ l, J l →
      wp C (executeDarkEdenRequest sys request) l fun response l' =>
        (∃ value, V value ∧ Reports request value response) ∧ J l')
    {l : WinLog} (hl : J l) :
    wp C (System.deviceIoControl sys client readCoordinates request.encode sizeofRequest
      sizeofResponse) l fun reply l' => V (accepted request (readReply sys request reply)) ∧ J l' := by
  let irp := System.irpOf client readCoordinates request.encode sizeofRequest sizeofResponse
  have hgate : Gate irp request.encode readCoordinates sizeofRequest sizeofResponse :=
    ⟨rfl, rfl, rfl, BitVec.le_refl _, rfl, rfl⟩
  rw [System.deviceIoControl, wp_bind]
  by_cases hirql : T.irql = passiveLevel
  · refine wp_deviceControl_coordinates hJ (fun l x hx => (hlevel l x hx).trans hirql) hgate
      (by rwa [Request.decode_encode]) (fun l hl => ?_) hl
    rw [Request.decode_encode]
    refine wp_mono (hexecuted hirql l hl) fun response l' hresponse => ?_
    obtain ⟨⟨value, hvalue, h⟩, hl'⟩ := hresponse
    rw [wp_pure, System.ioctlResult_success response.encode_lt, accepted_reports htable h]
    exact ⟨hvalue, hl'⟩
  · refine wp_mono (wp_deviceControl_refused hJ (fun l x hx hpassive =>
      hirql ((hlevel l x hx).symm.trans hpassive)) irp hl) fun completed l' hcompleted => ?_
    obtain ⟨hl', hs⟩ := hcompleted
    rw [wp_pure, System.ioctlResult_failed hs]
    exact ⟨hrefused hirql, hl'⟩

/-- A client that asks for a coordinate gets it exactly where the memory has it. -/
theorem wp_deviceIoControl_coordinate (hvalid : validRequest request) (htable : TableDriven request)
    {l : WinLog} (hl : T.after l = T.byte) :
    wp (T.openedSystem false process) (System.deviceIoControl sys client readCoordinates
      request.encode sizeofRequest sizeofResponse) l fun reply l' =>
        accepted request (readReply sys request reply) = T.coordinate process request ∧
          T.after l' = T.byte := by
  refine wp_deviceIoControl_coordinate_of (V := fun value => value = T.coordinate process request)
    (openedSystem_keeps (system_keeps T.byte) false) (fun _ _ hx => hx.1) hvalid htable
    (fun hirql => ?_) (fun hirql l hl => ?_) hl
  · exact (coordinate_notReady fun hready => hirql (of_decide_eq_true hready).1).symm
  · exact wp_mono (wp_executeDarkEdenRequest hirql hvalid htable hl) fun response l' h =>
      ⟨⟨_, rfl, h.1⟩, h.2⟩

theorem wp_translate_tame {α : Type} {body : Memory α} (hbody : Uses Walkers.Tame body)
    (reader : KernelProcessMemoryReader) {l : WinLog} (hl : T.after l = T.byte) :
    wp T.system (body.translate (perform sys reader)) l fun _ l' => T.after l' = T.byte := by
  refine wp_translate_invariant hbody (fun o l ho hl => ?_) hl
  refine wp_mono (perform_answers [] l o hl) fun x l' ⟨_, hl'⟩ => ?_
  rw [hl', written_append]
  cases o with
  | writeUInt32 address value => exact ho.elim
  | _ => rfl

theorem wp_deviceControl_untouched {irp : Irp} (hcommand : irp.ioControlCode ≠ selectTarget)
    {l : WinLog} (hl : T.after l = T.byte) :
    wp T.system (deviceControl sys irp) l fun _ l' => T.after l' = T.byte := by
  have hkeeps := system_keeps (T := T) T.byte
  refine wp_deviceControl (J := fun l => T.after l = T.byte) hkeeps (fun _ _ hl _ => hl) ?_ ?_ ?_ hl
  · intro buffer l hgate hl _ hvalid
    rw [executeDarkEdenTextRequest, if_neg (by simpa using hvalid)]
    exact wp_withReader hkeeps (fun _ => hkeeps) (fun _ _ hl _ => hl)
      (fun reader l hl _ => wp_translate_tame (Walkers.readResolvedText_tame _) reader hl) hl
  · intro buffer l hgate
    exact absurd hgate.command hcommand
  · intro buffer l hgate hl _ hvalid
    rw [executeDarkEdenRequest, if_neg (by simpa using hvalid)]
    exact wp_withReader hkeeps (fun _ => hkeeps) (fun _ _ hl _ => hl)
      (fun reader l hl _ => wp_translate_tame (Walkers.readResolved_tame _) reader hl) hl

end Driver

section User

/-- A well-formed request for the offset table, asked for with the right buffers. -/
def Asks (command : ULong) (input : Nat) (inputLength outputLength : ULong) (request : Request) :
    Prop :=
  command = readCoordinates ∧ input = request.encode ∧ inputLength = sizeofRequest ∧
    outputLength = sizeofResponse ∧ validRequest request ∧ TableDriven request

/-- What a user-mode program may rely on that selects no character. -/
def served (process : PEProcess) : Contract UserAns where
  rely
    | _, .api o, x => x = T.api o
    | _, .deviceIoControl command input inputLength outputLength, x =>
      ∀ request, Asks command input inputLength outputLength request →
        accepted request (readReply sys request x) = T.coordinate process request
  guar
    | _, .api _ => True
    | _, .deviceIoControl command _ _ _ => command ≠ selectTarget

variable {T} {process client : PEProcess}

theorem perform_served (l₁ : Log UserAns) (l₂ : WinLog) (o : UserOp) (hl : T.after l₂ = T.byte)
    (ho : (T.served process).guar l₁ o) :
    wp (T.openedSystem false process) (System.perform sys client o) l₂ fun x l₂' =>
      (T.served process).rely l₁ o x ∧ T.after l₂' = T.byte := by
  cases o with
  | api o => exact ⟨trivial, fun x hx => ⟨hx.1, by rwa [after_append_of_not_writes rfl]⟩⟩
  | deviceIoControl command input inputLength outputLength =>
    change wp _ (System.deviceIoControl _ _ _ _ _ _) _ _
    by_cases hasks : ∃ request, Asks command input inputLength outputLength request
    · obtain ⟨request, rfl, rfl, rfl, rfl, hvalid, htable⟩ := hasks
      refine wp_mono (wp_deviceIoControl_coordinate hvalid htable hl) fun reply l' ⟨h, hl'⟩ => ⟨?_, hl'⟩
      intro request' hasks
      have hrequest : request = request' := by
        rw [← Request.decode_encode request, hasks.2.1, Request.decode_encode]
      rwa [← hrequest]
    · have hcommand : (System.irpOf client command input inputLength outputLength).ioControlCode ≠
          selectTarget := ho
      rw [System.deviceIoControl, wp_bind]
      refine wp_mono (wp_opened (wp_deviceControl_untouched hcommand hl))
        fun completed l' hl' => ⟨?_, hl'⟩
      exact fun request h => absurd ⟨request, h⟩ hasks

theorem wp_runUser {α : Type} {p : User α} {l : WinLog} {P : α → Prop}
    (h : wp (T.served process) p [] fun a _ => P a) (hl : T.after l = T.byte) :
    wp (T.openedSystem false process) (System.runUser sys client p) l fun a l' =>
      P a ∧ T.after l' = T.byte :=
  wp_mono (wp_translate (R := fun _ l₂ => T.after l₂ = T.byte) perform_served hl h)
    fun _ _ ⟨_, hl', ha⟩ => ⟨ha, hl'⟩

theorem run_of_served {α : Type} {env : WinEnv}
    (henv : ∀ l o, (T.openedSystem false process).rely l o (env l o)) {p : User α} {P : α → Prop}
    (h : wp (T.served process) p [] fun a _ => P a) : P ((System.runUser sys client p).run env []).1 :=
  (run_of_wp henv (wp_runUser h rfl)).1

end User

end DarkEden.Target
