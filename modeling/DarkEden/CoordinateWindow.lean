import DarkEden.Engine
import DarkEden.PairedCoordinates
import DarkEden.ParseAddress
import DarkEden.System

namespace DarkEden.CoordinateWindow

open Interaction Protocol Client

section Source

inductive Pointer
  | direct
  | pointer32
  | pointer64
  | playerCoordinates
  deriving DecidableEq

inductive Format
  | int32
  | float32
  deriving DecidableEq

inductive Control
  | process
  | refresh
  | connect
  | address
  | pointer
  | type
  | readX
  | readY
  | readBoth
  deriving DecidableEq

inductive Reading
  | x
  | y
  | both
  deriving DecidableEq

def Reading.axis : Reading → Axis
  | .x => Axis.x
  | .y => Axis.y
  | .both => Axis.both

def Reading.control : Reading → Control
  | .x => .readX
  | .y => .readY
  | .both => .readBoth

/-- What the user has chosen; `selected` is `none` where `CB_GETCURSEL` answers `CB_ERR`. -/
structure Settings where
  processes : List DWord
  selected : Option Nat
  address : WString
  pointer : Pointer
  type : Format

structure Job where
  pid : DWord
  request : Request
  response : Response
  success : Bool
  playerCoordinates : Bool
  error : WString

/-- The thread object: without a thread, with one that runs, with one that has ended. -/
inductive Worker
  | none
  | running
  | returned
  deriving DecidableEq

/-- The window with its worker; `messages` counts the posted `Finished`. -/
structure Window where
  settings : Settings
  enabled : Control → Bool
  readXText : WString
  valueLabel : WString
  xValue : WString
  yValue : WString
  status : WString
  errorState : Bool
  busy : Bool
  job : Option Job
  worker : Worker
  messages : Nat
  closed : Bool
  terminated : Bool

/-- What the window runs on: Windows, the process of the window, and `operator<<` of a `float`. -/
structure Desktop where
  sys : Platform
  process : PEProcess
  formatFloat32 : ULong → WString

def defaultXOffset : ULongLong := 0x009FB03C

def dash : WString := wide "—"

def cbErr : DWord := 0xFFFFFFFF

def Settings.itemData (s : Settings) (index : Nat) : DWord := (s.processes[index]?).getD cbErr

def directMode (s : Settings) : Bool := s.pointer = .direct

def playerCoordinatesMode (s : Settings) : Bool := s.pointer = .playerCoordinates

def singleValueMode (s : Settings) : Bool := directMode s

def resetValues (a : Window) : Window := { a with xValue := dash, yValue := dash }

def statusText (message : WString) (error : Bool) (a : Window) : Window :=
  { a with errorState := error, status := message }

def setBusy (value : Bool) (a : Window) : Window :=
  { a with
    busy := value
    enabled := fun control =>
      if control = .readY ∨ control = .readBoth then !value && !singleValueMode a.settings else !value
    readXText := wide (if directMode a.settings then "값 읽기 (4바이트)" else "X좌표 요청")
    valueLabel := wide (if directMode a.settings then "조회한 값" else "X 좌표") }

/-- The handler of exceptions in `WindowProcedure`. -/
def guiException (what : WString) (a : Window) : Window :=
  statusText (wide "GUI 예외: " ++ what) true (resetValues a)

/-- The last entry of the list that is the former choice, or the first entry. -/
def reselect (previous : DWord) (processes : List DWord) : Nat :=
  processes.zipIdx.foldl (fun select entry => if entry.1 = previous then entry.2 else select) 0

/-- `processes` is what `FindProcesses` returns or throws. -/
def refreshProcesses (processes : Except WString (List DWord)) (a : Window) : Window :=
  let b := resetValues a
  let previous := match b.settings.selected with
    | none => 0
    | some selection => b.settings.itemData selection
  let c := { b with settings := { b.settings with processes := [], selected := none } }
  match processes with
  | .error what => guiException what c
  | .ok processes =>
    if processes ≠ [] then
      statusText (wide "대상 프로세스를 선택하고 좌표를 요청하세요.") false { c with
        settings := { c.settings with processes, selected := some (reselect previous processes) } }
    else statusText (wide "darkeden.exe가 실행 중이지 않습니다. 실행 후 새로고침하세요.") true c

def checkConnection (sys : Platform) : User (WString × Bool) := do
  match ← createFileW genericRead with
  | some code =>
    let error ← deviceError sys code
    return (error, true)
  | none => return (wide "드라이버 장치 연결 성공. 좌표 버튼으로 읽기를 요청하세요.", false)

def pointerBytes (s : Settings) : ULong :=
  if directMode s then 0 else if s.pointer = .pointer64 then 8 else 4

def jobFor (reading : Reading) (s : Settings) (selected : Nat) (address : ULongLong) : Job where
  pid := s.itemData selected
  request := ⟨version, sizeofRequest, 0, address, reading.axis, pointerBytes s,
    if s.type = .int32 then ValueType.int32 else ValueType.float32,
    if playerCoordinatesMode s then 3 else 0⟩
  response := emptyResponse
  success := false
  playerCoordinates := playerCoordinatesMode s
  error := []

/-- The job that `StartRead` sets up, or the message that it stops with. -/
def nextJob (sys : Platform) (reading : Reading) (s : Settings) : Except WString Job :=
  match s.selected with
  | none => .error (wide "darkeden.exe를 실행하고 대상 프로세스를 선택하세요.")
  | some selected =>
    match parseAddress sys s.address with
    | .error _ => .error (wide "모듈 오프셋을 0이 아닌 16진수로 입력하세요. 예: 0x009FB03C")
    | .ok address =>
      if pointerBytes s = 4 ∧ address > 0xFFFFFFFF then
        .error (wide "32비트 포인터의 기준 주소는 0xFFFFFFFF 이하여야 합니다.")
      else .ok (jobFor reading s selected address)

/-- Assigning to a thread object that has a thread calls `std::terminate`. -/
def assignWorker (a : Window) : Window :=
  if a.worker ≠ .none then { a with terminated := true } else { a with worker := .running }

/-- `thrown` is what the constructor of the thread throws, if it does. -/
def startRead (sys : Platform) (reading : Reading) (thrown : Option WString) (a : Window) : Window :=
  if a.busy then a
  else if singleValueMode a.settings ∧ reading.axis ≠ Axis.x then a
  else
    let b := resetValues a
    match nextJob sys reading b.settings with
    | .error message => statusText message true b
    | .ok next =>
      let c := statusText (wide "커널 드라이버에서 값을 읽는 중…") false
        (setBusy true { b with job := some next })
      match thrown with
      | some what => guiException what { setBusy false c with job := none }
      | none => assignWorker c

/-- `ReadPlayerCoordinates` or `Read`, with the response of the job and an empty error text. -/
def clientRead (sys : Platform) (job : Job) : User (Bool × Published) :=
  if job.playerCoordinates then
    readPlayerCoordinates sys job.pid job.request ⟨job.response, []⟩
  else do
    let answer ← readTransport sys ⟨job.pid, job.request, job.response, []⟩
    return (answer.ok, ⟨answer.response, answer.error⟩)

/-- `wcsncpy_s` into `Job::error` with `_TRUNCATE`. -/
def truncated (error : WString) : WString := (error.takeWhile (· ≠ 0)).take 2047

/-- The worker stores its result in the global job and posts a message, which is always delivered;
without a job it would write through a null pointer. -/
def postFinished (store : Job → Job) (a : Window) : Window :=
  if a.worker ≠ .running then a
  else match a.job with
  | none => { a with terminated := true }
  | some job => { a with job := some (store job), worker := .returned, messages := a.messages + 1 }

variable (d : Desktop)

def Desktop.outcome (job : Job) (env : WinEnv) : Bool × Published :=
  ((System.runUser d.sys d.process (clientRead d.sys job)).run env []).1

def Desktop.formatValue (bits : ULong) (type : ValueType) : WString :=
  if type = ValueType.int32 then Engine.formatInt32 bits else d.formatFloat32 bits

def store (outcome : Bool × Published) (job : Job) : Job :=
  { job with
    success := outcome.1
    response := outcome.2.response
    error := truncated outcome.2.error }

def readDone (job : Job) : WString :=
  wide "읽기 성공 · PID " ++ toWString job.pid.toNat ++ wide " · " ++
    toWString job.response.bytesRead.toNat ++ wide " 바이트 · NTSTATUS 0x00000000"

/-- `worker.join()` has nothing to wait for: the message is the last thing that a worker does. -/
def Desktop.finishRead (a : Window) : Window :=
  let b := setBusy false { a with worker := .none }
  match b.job with
  | none => b
  | some job =>
    if !job.success then { statusText job.error true b with job := none }
    else
      let result := job.response
      let xValue := if result.axis ≠ Axis.y then d.formatValue result.xBits result.valueType
        else b.xValue
      let yValue := if result.axis ≠ Axis.x then d.formatValue result.yBits result.valueType
        else b.yValue
      { statusText (readDone job) false { b with xValue, yValue } with job := none }

inductive Event
  | refresh (processes : Except WString (List DWord))
  | connect (env : WinEnv)
  | read (reading : Reading) (thrown : Option WString)
  | chooseProcess (index : Nat)
  | choosePointer (pointer : Pointer)
  | chooseType (type : Format)
  | editAddress (address : WString)
  | workerReturned (env : WinEnv)
  | workerThrew (error : WString)
  | finished
  | close

def click (control : Control) (handler : Window → Window) (a : Window) : Window :=
  if a.enabled control ∧ !a.busy then handler a else a

def edit (control : Control) (change : Settings → Settings) (a : Window) : Window :=
  if !a.enabled control then a
  else
    let b := { a with settings := change a.settings }
    if b.busy then b
    else statusText (wide "설정이 변경되었습니다. 좌표를 다시 요청하세요.") false
      (resetValues (setBusy false b))

def Desktop.step (a : Window) (e : Event) : Window :=
  if a.closed ∨ a.terminated then a
  else match e with
  | .refresh processes => click .refresh (refreshProcesses processes) a
  | .connect env =>
    let checked := ((System.runUser d.sys d.process (checkConnection d.sys)).run env []).1
    click .connect (statusText checked.1 checked.2) a
  | .read reading thrown => click reading.control (startRead d.sys reading thrown) a
  | .chooseProcess index =>
    if index < a.settings.processes.length then
      edit .process (fun s => { s with selected := some index }) a
    else a
  | .choosePointer pointer => edit .pointer (fun s => { s with pointer }) a
  | .chooseType type => edit .type (fun s => { s with type }) a
  | .editAddress address => edit .address (fun s => { s with address }) a
  | .workerReturned env => postFinished (fun job => store (d.outcome job env) job) a
  | .workerThrew error => postFinished (fun job => { job with error }) a
  | .finished =>
    if a.messages = 0 then a else d.finishRead { a with messages := a.messages - 1 }
  | .close =>
    if a.busy then
      statusText (wide "요청 처리 중입니다. 응답을 받은 뒤 닫을 수 있습니다.") false a
    else { a with closed := true }

/-- `BuildControls` up to the first refresh. -/
def Window.new : Window where
  settings := ⟨[], none, hex defaultXOffset.toNat 8, .playerCoordinates, .int32⟩
  enabled := fun _ => true
  readXText := wide "X좌표 요청"
  valueLabel := wide "직접 읽은 값"
  xValue := dash
  yValue := dash
  status := wide "준비 중…"
  errorState := false
  busy := false
  job := none
  worker := .none
  messages := 0
  closed := false
  terminated := false

/-- The window as `WM_CREATE` leaves it; where `FindProcesses` throws there, no window is made. -/
def start (processes : List DWord) : Window := refreshProcesses (.ok processes) (setBusy false .new)

def Desktop.run (a : Window) (events : List Event) : Window := events.foldl d.step a

end Source

section Invariant

variable {d : Desktop} {Good : Job → Bool × Published → Prop} {a b : Window}

def Blank (a : Window) : Prop := a.xValue = dash ∧ a.yValue = dash

/-- `StartRead` does not ignore the button. -/
def Permits (s : Settings) (reading : Reading) : Prop := singleValueMode s → reading.axis = Axis.x

/-- The displayed values are those of a response to the displayed settings. -/
def Shows (d : Desktop) (Good : Job → Bool × Published → Prop) (a : Window) : Prop :=
  Blank a ∨ ∃ reading job out, Permits a.settings reading ∧
    nextJob d.sys reading a.settings = .ok job ∧ Good job (true, out) ∧
    a.xValue = (if out.response.axis ≠ Axis.y then
      d.formatValue out.response.xBits out.response.valueType else dash) ∧
    a.yValue = (if out.response.axis ≠ Axis.x then
      d.formatValue out.response.yBits out.response.valueType else dash)

def Stored (Good : Job → Bool × Published → Prop) (job stored : Job) : Prop :=
  ∃ success response error, stored = { job with success, response, error } ∧
    (success = true → ∃ out, Good job (true, out) ∧ out.response = response)

/-- Where the window is with its request. -/
inductive Phase (d : Desktop) (Good : Job → Bool × Published → Prop) (a : Window) : Prop
  | idle (busy : a.busy = false) (job : a.job = none) (worker : a.worker = .none)
      (messages : a.messages = 0) (shows : Shows d Good a)
  | reading (busy : a.busy = true) (closed : a.closed = false) (blank : Blank a) (r : Reading)
      (job : Job) (permits : Permits a.settings r) (next : nextJob d.sys r a.settings = .ok job)
      (stored : a.job = some job) (worker : a.worker = .running) (messages : a.messages = 0)
  | returned (busy : a.busy = true) (closed : a.closed = false) (blank : Blank a) (r : Reading)
      (job stored : Job) (permits : Permits a.settings r) (next : nextJob d.sys r a.settings = .ok job)
      (hstored : Stored Good job stored) (hjob : a.job = some stored) (worker : a.worker = .returned)
      (messages : a.messages = 1)

structure Invariant (d : Desktop) (Good : Job → Bool × Published → Prop) (a : Window) : Prop where
  alive : a.terminated = false
  tidy : setBusy a.busy a = a
  selected : ∀ i, a.settings.selected = some i → i < a.settings.processes.length
  phase : Phase d Good a

theorem Phase.same (h : Phase d Good a) (hsettings : b.settings = a.settings)
    (hx : b.xValue = a.xValue) (hy : b.yValue = a.yValue) (hbusy : b.busy = a.busy)
    (hjob : b.job = a.job) (hworker : b.worker = a.worker) (hmessages : b.messages = a.messages)
    (hclosed : b.closed = a.closed) : Phase d Good b := by
  have hblank : Blank b ↔ Blank a := by rw [Blank, Blank, hx, hy]
  cases h with
  | idle busy job worker messages shows =>
    apply Phase.idle (hbusy.trans busy) (hjob.trans job) (hworker.trans worker)
      (hmessages.trans messages)
    rwa [Shows, hblank, hsettings, hx, hy]
  | reading busy closed blank r job permits next stored worker messages =>
    exact .reading (hbusy.trans busy) (hclosed.trans closed) (hblank.mpr blank) r job
      (hsettings ▸ permits) (hsettings ▸ next) (hjob.trans stored) (hworker.trans worker)
      (hmessages.trans messages)
  | returned busy closed blank r job stored permits next hstored hj worker messages =>
    exact .returned (hbusy.trans busy) (hclosed.trans closed) (hblank.mpr blank) r job stored
      (hsettings ▸ permits) (hsettings ▸ next) hstored (hjob.trans hj) (hworker.trans worker)
      (hmessages.trans messages)

theorem Phase.of_not_busy (h : Phase d Good a) (hbusy : a.busy = false) :
    a.job = none ∧ a.worker = .none ∧ a.messages = 0 ∧ Shows d Good a := by
  cases h with
  | idle busy job worker messages shows => exact ⟨job, worker, messages, shows⟩
  | reading busy => exact absurd busy (by simp [hbusy])
  | returned busy => exact absurd busy (by simp [hbusy])

theorem Invariant.statusText (h : Invariant d Good a) (message : WString) (error : Bool) :
    Invariant d Good (statusText message error a) where
  alive := h.alive
  tidy := congrArg (CoordinateWindow.statusText message error) h.tidy
  selected := h.selected
  phase := h.phase.same rfl rfl rfl rfl rfl rfl rfl rfl

theorem invariant_blank (halive : a.terminated = false) (htidy : setBusy a.busy a = a)
    (hselected : ∀ i, a.settings.selected = some i → i < a.settings.processes.length)
    (hbusy : a.busy = false) (hjob : a.job = none) (hworker : a.worker = .none)
    (hmessages : a.messages = 0) (hblank : Blank a) : Invariant d Good a :=
  ⟨halive, htidy, hselected, .idle hbusy hjob hworker hmessages (.inl hblank)⟩

theorem reselect_lt {previous : DWord} {processes : List DWord} (h : processes ≠ []) :
    reselect previous processes < processes.length := by
  have hfold : ∀ (entries : List (DWord × Nat)) (select : Nat), select < processes.length →
      (∀ entry ∈ entries, entry.2 < processes.length) →
      entries.foldl (fun select entry => if entry.1 = previous then entry.2 else select) select <
        processes.length := by
    intro entries
    induction entries with
    | nil => intro select hselect _; exact hselect
    | cons entry entries ih =>
      intro select hselect hentries
      apply ih
      · change (if entry.1 = previous then entry.2 else select) < _
        by_cases hfound : entry.1 = previous
        · rw [if_pos hfound]
          exact hentries entry (by simp)
        · rwa [if_neg hfound]
      · exact fun e he => hentries e (by simp [he])
  apply hfold
  · exact List.length_pos_of_ne_nil h
  · intro entry hentry
    have := List.snd_lt_of_mem_zipIdx hentry
    simpa using this

theorem tidy_of_pointer (htidy : setBusy a.busy a = a) (hbusy : b.busy = a.busy)
    (hpointer : b.settings.pointer = a.settings.pointer) (henabled : b.enabled = a.enabled)
    (hreadX : b.readXText = a.readXText) (hlabel : b.valueLabel = a.valueLabel) :
    setBusy b.busy b = b := by
  have hdirect : directMode b.settings = directMode a.settings := by
    rw [directMode, directMode, hpointer]
  have he : (setBusy a.busy a).enabled = b.enabled := by rw [htidy, henabled]
  have hx : (setBusy a.busy a).readXText = b.readXText := by rw [htidy, hreadX]
  have hl : (setBusy a.busy a).valueLabel = b.valueLabel := by rw [htidy, hlabel]
  simp only [setBusy, singleValueMode] at he hx hl ⊢
  rw [hdirect, hbusy, he, hx, hl, ← hbusy]

theorem Invariant.cleared (h : Invariant d Good a) (hbusy : a.busy = false) {settings : Settings}
    (hpointer : settings.pointer = a.settings.pointer)
    (hselected : ∀ i, settings.selected = some i → i < settings.processes.length)
    (status : WString) (errorState : Bool) :
    Invariant d Good { a with settings, xValue := dash, yValue := dash, status, errorState } := by
  obtain ⟨hjob, hworker, hmessages, -⟩ := h.phase.of_not_busy hbusy
  refine invariant_blank h.alive ?_ hselected hbusy hjob hworker hmessages ⟨rfl, rfl⟩
  exact tidy_of_pointer h.tidy rfl hpointer rfl rfl rfl

theorem refreshProcesses_invariant (h : Invariant d Good a) (hbusy : a.busy = false)
    (processes : Except WString (List DWord)) : Invariant d Good (refreshProcesses processes a) := by
  have hnone : ∀ i : Nat, none = some i → i < 0 := by simp
  cases processes with
  | error what =>
    refine h.cleared hbusy ?_ ?_ _ _
    · rfl
    · exact hnone
  | ok processes =>
    simp only [refreshProcesses]
    by_cases hempty : processes ≠ []
    · rw [if_pos hempty]
      refine h.cleared hbusy ?_ ?_ _ _
      · rfl
      · intro i hi
        obtain rfl := Option.some.inj hi
        exact reselect_lt hempty
    · rw [if_neg hempty]
      refine h.cleared hbusy ?_ ?_ _ _
      · rfl
      · exact hnone

theorem assignWorker_joined (hworker : a.worker = .none) :
    assignWorker a = { a with worker := .running } := by
  rw [assignWorker, if_neg (not_not.mpr hworker)]

theorem startRead_invariant (h : Invariant d Good a) (hbusy : a.busy = false)
    (hclosed : a.closed = false) (reading : Reading) (thrown : Option WString) :
    Invariant d Good (startRead d.sys reading thrown a) := by
  obtain ⟨hjob, hworker, hmessages, -⟩ := h.phase.of_not_busy hbusy
  rw [startRead, if_neg (by simp [hbusy])]
  by_cases hignored : singleValueMode a.settings ∧ reading.axis ≠ Axis.x
  · rwa [if_pos hignored]
  rw [if_neg hignored]
  have hpermits : Permits a.settings reading := by
    intro hsingle
    by_contra haxis
    exact hignored ⟨hsingle, haxis⟩
  cases hnext : nextJob d.sys reading (resetValues a).settings with
  | error message =>
    simp only [hnext]
    refine h.cleared hbusy ?_ ?_ _ _
    · rfl
    · exact h.selected
  | ok next =>
    simp only [hnext]
    cases thrown with
    | some what =>
      exact invariant_blank h.alive rfl h.selected rfl rfl hworker hmessages ⟨rfl, rfl⟩
    | none =>
      -- The last worker has been joined, so the assignment is safe.
      simp only
      rw [assignWorker_joined (by exact hworker)]
      exact ⟨h.alive, rfl, h.selected,
        .reading rfl hclosed ⟨rfl, rfl⟩ reading next hpermits hnext rfl rfl hmessages⟩

theorem edit_invariant (h : Invariant d Good a) {control : Control} {change : Settings → Settings}
    (hchange : ∀ i, (change a.settings).selected = some i →
      i < (change a.settings).processes.length) :
    Invariant d Good (edit control change a) := by
  rw [edit]
  by_cases henabled : !a.enabled control
  · rwa [if_pos henabled]
  rw [if_neg henabled]
  have hbusy : a.busy = false := by
    have hswitch : (setBusy a.busy a).enabled control = true := by rw [h.tidy]; simpa using henabled
    cases hb : a.busy with
    | false => rfl
    | true => simp [setBusy, hb] at hswitch
  obtain ⟨hjob, hworker, hmessages, -⟩ := h.phase.of_not_busy hbusy
  simp only [hbusy]
  exact invariant_blank h.alive rfl hchange rfl hjob hworker hmessages ⟨rfl, rfl⟩

theorem postFinished_invariant (h : Invariant d Good a) {change : Job → Job}
    (hchange : ∀ r job, a.worker = .running → a.job = some job →
      nextJob d.sys r a.settings = .ok job → Stored Good job (change job)) :
    Invariant d Good (postFinished change a) := by
  rw [postFinished]
  by_cases hrunning : a.worker ≠ .running
  · rwa [if_pos hrunning]
  rw [if_neg hrunning]
  rw [not_not] at hrunning
  cases h.phase with
  | idle busy job worker => exact absurd (hrunning.symm.trans worker) (by simp)
  | returned _ _ _ _ _ _ _ _ _ _ worker => exact absurd (hrunning.symm.trans worker) (by simp)
  | reading busy closed blank r job permits next stored worker messages =>
    simp only [stored]
    exact ⟨h.alive, tidy_of_pointer h.tidy rfl rfl rfl rfl rfl, h.selected,
      .returned busy closed blank r job (change job) permits next
        (hchange r job hrunning stored next) rfl rfl (congrArg (· + 1) messages)⟩

theorem finishRead_invariant (h : Invariant d Good a) (hposted : a.messages ≠ 0) :
    Invariant d Good (d.finishRead { a with messages := a.messages - 1 }) := by
  cases h.phase with
  | idle _ _ _ messages => exact absurd messages hposted
  | reading _ _ _ _ _ _ _ _ _ messages => exact absurd messages hposted
  | returned busy closed blank r job stored permits next hstored hjob worker messages =>
    obtain ⟨success, response, error, rfl, hgood⟩ := hstored
    have hmessages : a.messages - 1 = 0 := by omega
    simp only [Desktop.finishRead, setBusy, hjob]
    cases success with
    | false => exact invariant_blank h.alive rfl h.selected rfl rfl rfl hmessages blank
    | true =>
      obtain ⟨out, hout, rfl⟩ := hgood rfl
      refine ⟨h.alive, rfl, h.selected, .idle rfl rfl rfl hmessages (.inr ?_)⟩
      refine ⟨r, job, out, permits, next, hout, ?_, ?_⟩
      · exact congrArg (ite _ _) blank.1
      · exact congrArg (ite _ _) blank.2

/-- What is known of the answers that the workers of a run get for their jobs. -/
def Answered (d : Desktop) (Known : Job → WinEnv → Prop) : Window → List Event → Prop
  | _, [] => True
  | a, e :: events => (∀ env job, e = .workerReturned env → a.worker = .running →
      a.job = some job → Known job env) ∧ Answered d Known (d.step a e) events

theorem stored_outcome {job : Job} {outcome : Bool × Published} (h : Good job outcome) :
    Stored Good job (store outcome job) := by
  refine ⟨_, _, _, rfl, fun hsuccess => ⟨outcome.2, ?_, rfl⟩⟩
  rwa [← hsuccess]

theorem nextJob_eq_ok {r : Reading} {s : Settings} {job : Job} :
    nextJob d.sys r s = .ok job ↔ ∃ selected address, s.selected = some selected ∧
      parseAddress d.sys s.address = .ok address ∧ ¬(pointerBytes s = 4 ∧ address > 0xFFFFFFFF) ∧
      jobFor r s selected address = job := by
  rw [nextJob]
  cases hselected : s.selected with
  | none => simp
  | some selected =>
    cases hparse : parseAddress d.sys s.address with
    | error message => simp
    | ok address =>
      simp only
      by_cases hlong : pointerBytes s = 4 ∧ address > 0xFFFFFFFF
      · rw [if_pos hlong]
        refine iff_of_false (by simp) fun h => ?_
        obtain ⟨_, _, -, ⟨⟩, hshort, -⟩ := h
        exact hshort hlong
      · rw [if_neg hlong]
        constructor
        · exact fun h => ⟨selected, address, rfl, rfl, hlong, Except.ok.inj h⟩
        · rintro ⟨_, _, ⟨⟩, ⟨⟩, -, rfl⟩
          rfl

theorem step_invariant (h : Invariant d Good a) (e : Event)
    (hgood : ∀ env job, e = .workerReturned env → a.worker = .running → a.job = some job →
      Good job (d.outcome job env)) : Invariant d Good (d.step a e) := by
  by_cases hover : a.closed ∨ a.terminated
  · rwa [Desktop.step.eq_def, if_pos hover]
  rw [Desktop.step.eq_def, if_neg hover]
  have hclick : ∀ control handler, (a.busy = false → Invariant d Good (handler a)) →
      Invariant d Good (click control handler a) := by
    intro control handler hhandler
    rw [click]
    by_cases hc : a.enabled control ∧ !a.busy
    · rw [if_pos hc]
      exact hhandler (by simpa using hc.2)
    · rwa [if_neg hc]
  cases e with
  | refresh processes => exact hclick _ _ fun hbusy => refreshProcesses_invariant h hbusy processes
  | connect env => exact hclick _ _ fun _ => h.statusText _ _
  | read reading thrown =>
    exact hclick _ _ fun hbusy =>
      startRead_invariant h hbusy (by simpa using fun hc => hover (.inl hc)) reading thrown
  | chooseProcess index =>
    by_cases hindex : index < a.settings.processes.length
    · simp only [if_pos hindex]
      apply edit_invariant h
      intro i hi
      obtain rfl := Option.some.inj hi
      exact hindex
    · simpa only [if_neg hindex]
  | choosePointer pointer => exact edit_invariant h h.selected
  | chooseType type => exact edit_invariant h h.selected
  | editAddress address => exact edit_invariant h h.selected
  | workerReturned env =>
    exact postFinished_invariant h fun _ job hrunning hjob _ =>
      stored_outcome (hgood env job rfl hrunning hjob)
  | workerThrew error =>
    refine postFinished_invariant h fun r job _ _ hnext => ⟨_, _, _, rfl, fun hsuccess => ?_⟩
    obtain ⟨_, _, -, -, -, rfl⟩ := nextJob_eq_ok.mp hnext
    cases hsuccess
  | finished =>
    by_cases hposted : a.messages = 0
    · simpa only [if_pos hposted]
    · simp only [if_neg hposted]
      exact finishRead_invariant h hposted
  | close =>
    by_cases hbusy : a.busy
    · simp only [if_pos hbusy]
      exact h.statusText _ _
    · simp only [if_neg hbusy]
      obtain ⟨hjob, hworker, hmessages, hshows⟩ := h.phase.of_not_busy (by simpa using hbusy)
      exact ⟨h.alive, tidy_of_pointer h.tidy rfl rfl rfl rfl rfl, h.selected,
        .idle (by simpa using hbusy) hjob hworker hmessages hshows⟩

theorem start_invariant (processes : List DWord) : Invariant d Good (start processes) := by
  apply refreshProcesses_invariant
  · exact invariant_blank rfl rfl nofun rfl rfl rfl rfl ⟨rfl, rfl⟩
  · rfl

theorem run_invariant {Known : Job → WinEnv → Prop} (h : Invariant d Good a) {events : List Event}
    (hgood : ∀ job env, Known job env → Good job (d.outcome job env))
    (hanswered : Answered d Known a events) : Invariant d Good (d.run a events) := by
  induction events generalizing a with
  | nil => exact h
  | cons e events ih =>
    apply ih (step_invariant h e _) hanswered.2
    exact fun env job he hrunning hjob => hgood job env (hanswered.1 env job he hrunning hjob)

/-- The worker that runs for the job after `before` comes back next. -/
def Returns (d : Desktop) (a : Window) (before : List Event) (job : Job) : Prop :=
  (d.run a before).worker = .running ∧ (d.run a before).job = some job

theorem answered_of_returns {Known : Job → WinEnv → Prop} {events : List Event}
    (h : ∀ before env after job, events = before ++ .workerReturned env :: after →
      Returns d a before job → Known job env) : Answered d Known a events := by
  induction events generalizing a with
  | nil => trivial
  | cons e events ih =>
    constructor
    · rintro env job rfl hrunning hjob
      exact h [] env events job rfl ⟨hrunning, hjob⟩
    · refine ih fun before env after job hevents hreturns => ?_
      exact h (e :: before) env after job (by rw [hevents]; rfl) hreturns

end Invariant

section Safety

variable (d : Desktop) {Good : Job → Bool × Published → Prop} {a : Window}

def Ends (e : Event) : Prop := (∃ env, e = .workerReturned env) ∨ ∃ error, e = .workerThrew error

variable {d} in
theorem postFinished_not_running (h : Invariant d Good a) (change : Job → Job) :
    (postFinished change a).worker ≠ .running := by
  rw [postFinished]
  by_cases hrunning : a.worker ≠ .running
  · rwa [if_pos hrunning]
  rw [if_neg hrunning]
  cases h.phase with
  | idle _ _ worker => exact absurd (by simp [worker]) hrunning
  | returned _ _ _ _ _ _ _ _ _ _ worker => exact absurd (by simp [worker]) hrunning
  | reading _ _ _ _ _ _ _ stored => simp [stored]

variable {d} in
theorem Invariant.ends_not_running (h : Invariant d Good a) {e : Event} (he : Ends e) :
    (d.step a e).worker ≠ .running := by
  by_cases hover : a.closed ∨ a.terminated
  · rw [Desktop.step.eq_def, if_pos hover]
    cases h.phase with
    | idle _ _ worker => simp [worker]
    | reading _ closed => simp [closed, h.alive] at hover
    | returned _ closed => simp [closed, h.alive] at hover
  · rw [Desktop.step.eq_def, if_neg hover]
    obtain ⟨env, rfl⟩ | ⟨error, rfl⟩ := he
    · exact postFinished_not_running h _
    · exact postFinished_not_running h _

variable {d} in
theorem Invariant.finished_not_busy (h : Invariant d Good a) (hworker : a.worker ≠ .running) :
    (d.step a .finished).busy = false := by
  rw [Desktop.step.eq_def]
  cases h.phase with
  | idle busy _ _ messages =>
    by_cases hover : a.closed ∨ a.terminated
    · rwa [if_pos hover]
    · rw [if_neg hover]
      simpa [messages] using busy
  | reading _ _ _ _ _ _ _ _ worker => exact absurd worker hworker
  | returned _ closed _ _ _ stored _ _ _ hjob _ messages =>
    simp only [closed, h.alive, Bool.false_eq_true, or_self, if_false, messages]
    simp only [Desktop.finishRead, setBusy, hjob]
    cases stored.success <;> rfl

theorem run_append (a : Window) (events more : List Event) :
    d.run a (events ++ more) = d.run (d.run a events) more := List.foldl_append

/-- Whatever happens, in any order: the program is not terminated, one worker at most is on its
way, exactly while the window is busy and has a job for it, a closed window has none, what is
switched off follows from the mode, and a worker that comes back makes the window usable again. -/
theorem run_safe (processes : List DWord) (events : List Event) :
    let a := d.run (start processes) events
    a.terminated = false ∧ (a.closed → a.busy = false) ∧
      (a.busy ↔ a.job.isSome) ∧ (a.busy ↔ a.worker ≠ .none) ∧
      a.messages = (if a.worker = .returned then 1 else 0) ∧
      (∀ control, a.enabled control ↔ a.busy = false ∧
        ¬((control = .readY ∨ control = .readBoth) ∧ a.settings.pointer = .direct)) ∧
      ∀ e, Ends e → (d.run (start processes) (events ++ [e, .finished])).busy = false := by
  intro a
  have hanswered : Answered d (fun _ _ => True) (start processes) events :=
    answered_of_returns fun _ _ _ _ _ _ => trivial
  have h : Invariant d (fun _ _ => True) a :=
    run_invariant (start_invariant processes) (fun _ _ _ => trivial) hanswered
  refine ⟨h.alive, ?_, ?_, ?_, ?_, ?_, ?_⟩
  · intro hclosed
    cases h.phase with
    | idle busy => exact busy
    | reading _ closed => simp [closed] at hclosed
    | returned _ closed => simp [closed] at hclosed
  · cases h.phase with
    | idle busy job => simp [busy, job]
    | reading busy _ _ _ _ _ _ stored => simp [busy, stored]
    | returned busy _ _ _ _ _ _ _ _ hjob => simp [busy, hjob]
  · cases h.phase with
    | idle busy _ worker => simp [busy, worker]
    | reading busy _ _ _ _ _ _ _ worker => simp [busy, worker]
    | returned busy _ _ _ _ _ _ _ _ _ worker => simp [busy, worker]
  · cases h.phase with
    | idle _ _ worker messages => simp [worker, messages]
    | reading _ _ _ _ _ _ _ _ worker messages => simp [worker, messages]
    | returned _ _ _ _ _ _ _ _ _ _ worker messages => simp [worker, messages]
  · intro control
    rw [← congrFun (congrArg Window.enabled h.tidy) control]
    by_cases hcontrol : control = .readY ∨ control = .readBoth
    · simp [setBusy, hcontrol, singleValueMode, directMode]
    · simp [setBusy, hcontrol]
  · intro e he
    rw [run_append]
    exact (step_invariant h e fun _ _ _ _ _ => trivial).finished_not_busy (h.ends_not_running he)

end Safety

section Display

variable {sys : Platform} {d : Desktop} {job : Job}

theorem wp_clientRead {C : Contract UserAns} (hguar : ∀ l o, C.guar l o)
    (hreserved : job.request.reserved ≠ 5) (l : Log UserAns) :
    wp C (clientRead sys job) l fun r _ =>
      r.1 → validResponse job.request r.2.response sizeofResponse := by
  rw [clientRead]
  by_cases hplayer : job.playerCoordinates
  · rw [if_pos hplayer]
    exact wp_readPlayerCoordinates hguar hreserved _ l
  · rw [if_neg hplayer, wp_bind]
    exact wp_mono (wp_readTransport hguar _ l) fun _ _ hformatted hok => (hformatted hok).1

/-- What holds of a user-mode program holds of it with the driver behind it. -/
theorem run_of_wp_user {α : Type} {p : User α} {P : α → Prop} (client : PEProcess) (env : WinEnv)
    (h : wp ⟨fun _ _ _ => True, fun _ _ => True⟩ p [] fun a _ => P a) :
    P ((System.runUser sys client p).run env []).1 := by
  have hsim := wp_translate (D := ⟨fun _ _ _ => True, fun _ _ => True⟩) (m := [])
    (R := fun _ _ => True) (h := System.perform sys client) (fun _ m o _ _ =>
      wp_of_forall (fun _ _ => trivial) (fun _ _ => ⟨trivial, trivial⟩) _ m) trivial h
  have henv : ∀ l o, (⟨fun _ _ _ => True, fun _ _ => True⟩ : Contract WinAns).rely l o (env l o) :=
    fun _ _ => trivial
  obtain ⟨_, -, hP⟩ := run_of_wp henv hsim
  exact hP

theorem outcome_valid {r : Reading} {s : Settings} {env : WinEnv} {out : Published}
    (hnext : nextJob d.sys r s = .ok job) (hout : d.outcome job env = (true, out)) :
    validResponse job.request out.response sizeofResponse := by
  have hreserved : job.request.reserved ≠ 5 := by
    obtain ⟨_, _, -, -, -, rfl⟩ := nextJob_eq_ok.mp hnext
    change (if playerCoordinatesMode s then 3 else 0) ≠ (5 : ULong)
    split <;> decide
  have hvalid : (d.outcome job env).1 = true →
      validResponse job.request (d.outcome job env).2.response sizeofResponse :=
    run_of_wp_user d.process env (wp_clientRead (fun _ _ => trivial) hreserved [])
  rw [hout] at hvalid
  exact hvalid rfl

def Displays (d : Desktop) (a : Window) (reading : Reading) (job : Job) (response : Response) :
    Prop :=
  a.xValue = (if reading = .y then dash else
    d.formatValue response.xBits job.request.valueType) ∧
  a.yValue = (if reading = .x then dash else
    d.formatValue response.yBits job.request.valueType)

theorem Reading.axis_ne_y {r : Reading} : r.axis ≠ Axis.y ↔ r ≠ .y := by
  cases r <;> decide

theorem Reading.axis_ne_x {r : Reading} : r.axis ≠ Axis.x ↔ r ≠ .x := by
  cases r <;> decide

theorem displays_of_shown {a : Window} {r : Reading} {s : Settings} {response : Response}
    (hnext : nextJob d.sys r s = .ok job)
    (hvalid : validResponse job.request response sizeofResponse)
    (hx : a.xValue = (if response.axis ≠ Axis.y then
      d.formatValue response.xBits response.valueType else dash))
    (hy : a.yValue = (if response.axis ≠ Axis.x then
      d.formatValue response.yBits response.valueType else dash)) :
    Displays d a r job response := by
  obtain ⟨⟨-, -, -, haxis, htype⟩, -⟩ := ResponseFormat.validResponse_iff.mp hvalid
  have hr : job.request.axis = r.axis := by
    obtain ⟨_, _, -, -, -, rfl⟩ := nextJob_eq_ok.mp hnext
    rfl
  rw [haxis, htype, hr] at hx hy
  constructor
  · rw [hx]
    by_cases h : r = .y
    · rw [if_pos h, if_neg (not_not.mpr (by rw [h]; rfl))]
    · rw [if_neg h, if_pos (Reading.axis_ne_y.mpr h)]
  · rw [hy]
    by_cases h : r = .x
    · rw [if_pos h, if_neg (not_not.mpr (by rw [h]; rfl))]
    · rw [if_neg h, if_pos (Reading.axis_ne_x.mpr h)]

/-- Whatever happens, in any order: either no values are displayed, or they are those of a
successful read that a worker of this run made with the settings that are displayed beside them. -/
theorem run_displays (d : Desktop) (processes : List DWord) (events : List Event) :
    let a := d.run (start processes) events
    Blank a ∨ ∃ reading job before env after out,
      events = before ++ .workerReturned env :: after ∧
      Returns d (start processes) before job ∧ d.outcome job env = (true, out) ∧
      Permits a.settings reading ∧ nextJob d.sys reading a.settings = .ok job ∧
      Displays d a reading job out.response := by
  intro a
  let Known : Job → WinEnv → Prop := fun job env => ∃ before after,
    events = before ++ .workerReturned env :: after ∧ Returns d (start processes) before job
  have h : Invariant d (fun job r => ∃ env, Known job env ∧ d.outcome job env = r) a :=
    run_invariant (start_invariant processes) (fun job env henv => ⟨env, henv, rfl⟩)
      (answered_of_returns fun before env after job hevents hreturns =>
        ⟨before, after, hevents, hreturns⟩)
  cases h.phase with
  | reading _ _ blank => exact .inl blank
  | returned _ _ blank => exact .inl blank
  | idle _ _ _ _ shows =>
    obtain hblank | ⟨reading, job, out, hpermits, hnext, ⟨env, hknown, hout⟩, hx, hy⟩ := shows
    · exact .inl hblank
    · obtain ⟨before, after, hevents, hreturns⟩ := hknown
      refine .inr ⟨reading, job, before, env, after, out, hevents, hreturns, hout, hpermits, hnext, ?_⟩
      exact displays_of_shown hnext (outcome_valid hnext hout) hx hy

end Display

end DarkEden.CoordinateWindow
