import DarkEden.Concurrency

namespace DarkEden.Lifecycle

open Interaction Protocol

section Source

abbrev PDeviceObject := BitVec 64

inductive ValueName
  | initializationStage
  | initializationStatus
  deriving DecidableEq

/-- The kernel services that the driver calls, those that serve its requests in `request`. There is
one name each for its device and its link. -/
inductive DriverOp
  | zwOpenKey
  | zwSetValueKey (key : Handle) (name : ValueName) (value : ULong)
  | zwClose (key : Handle)
  | ioCreateDeviceSecure
  | ioCreateSymbolicLink
  | ioDeleteSymbolicLink
  | ioDeleteDevice (device : PDeviceObject)
  | deviceObject
  | doneInitializing (device : PDeviceObject)
  | request (o : WinOp)

@[reducible]
def DriverAns : DriverOp → Type
  | .zwOpenKey => NtStatus × Handle
  | .zwSetValueKey _ _ _ => NtStatus
  | .zwClose _ => NtStatus
  | .ioCreateDeviceSecure => NtStatus × PDeviceObject
  | .ioCreateSymbolicLink => NtStatus
  | .ioDeleteSymbolicLink => NtStatus
  | .ioDeleteDevice _ => Unit
  | .deviceObject => PDeviceObject
  | .doneInitializing _ => Unit
  | .request o => WinAns o

abbrev Driver := Program DriverAns
abbrev DriverLog := Log DriverAns
abbrev DriverEnv := Env DriverAns

def ask (o : DriverOp) : Driver (DriverAns o) := .ask o

/-- `RecordInitialization`, where the path of the key is always the same. -/
def recordInitialization (stage : ULong) (status : NtStatus) : Driver Unit := do
  let opened ← ask .zwOpenKey
  if ntSuccess opened.1 then
    let _ ← ask (.zwSetValueKey opened.2 .initializationStage stage)
    let _ ← ask (.zwSetValueKey opened.2 .initializationStatus status)
    let _ ← ask (.zwClose opened.2)
    pure ()
  else pure ()

inductive Dispatch
  | unsupported
  | openClose
  | deviceControl
  deriving DecidableEq

abbrev MajorFunction := Fin 0x1C

def irpMjCreate : MajorFunction := 0x00
def irpMjClose : MajorFunction := 0x02
def irpMjDeviceControl : MajorFunction := 0x0E
def irpMjCleanup : MajorFunction := 0x12

structure DriverObject where
  majorFunction : MajorFunction → Dispatch
  driverUnload : Bool

def driverObject : DriverObject where
  majorFunction := Function.update (Function.update (Function.update (Function.update
    (fun _ => .unsupported) irpMjCreate .openClose) irpMjClose .openClose) irpMjCleanup .openClose)
    irpMjDeviceControl .deviceControl
  driverUnload := true

def driverEntry : Driver (NtStatus × DriverObject) := do
  recordInitialization 1 statusSuccess
  let created ← ask .ioCreateDeviceSecure
  recordInitialization 2 created.1
  if !ntSuccess created.1 then return (created.1, driverObject)
  let linked ← ask .ioCreateSymbolicLink
  recordInitialization 3 linked
  if !ntSuccess linked then
    ask (.ioDeleteDevice created.2)
    return (linked, driverObject)
  ask (.doneInitializing created.2)
  return (statusSuccess, driverObject)

def unload : Driver Unit := do
  let _ ← ask .ioDeleteSymbolicLink
  let device ← ask .deviceObject
  if device ≠ 0 then ask (.ioDeleteDevice device)

def statusObjectNameNotFound : NtStatus := 0xC0000034

structure IoRequest where
  majorFunction : MajorFunction
  fileNameLength : UShort
  irp : Irp

def openClose (r : IoRequest) : Completed :=
  if r.majorFunction = irpMjCreate ∧ r.fileNameLength ≠ 0 then complete r.irp statusObjectNameNotFound
  else complete r.irp statusSuccess

variable (sys : Platform)

def dispatch (driver : DriverObject) (r : IoRequest) : Driver Completed :=
  match driver.majorFunction r.majorFunction with
  | .unsupported => pure (complete r.irp statusInvalidDeviceRequest)
  | .openClose => pure (openClose r)
  | .deviceControl => (deviceControl sys r.irp).translate fun o => ask (.request o)

inductive Event
  | load
  | request (r : IoRequest)
  | unload

/-- The system keeps the driver object of a load that has succeeded until it unloads the driver. -/
def handle : Option DriverObject → Event → Driver (Option DriverObject)
  | none, .load => do
    let entered ← driverEntry
    return if ntSuccess entered.1 then some entered.2 else none
  | some driver, .request r => do
    let _ ← dispatch sys driver r
    return some driver
  | some driver, .unload => do
    if driver.driverUnload then unload
    return none
  | loaded, _ => return loaded

def handleAll : Option DriverObject → List Event → Driver (Option DriverObject)
  | loaded, [] => return loaded
  | loaded, event :: events => do
    let loaded ← handle sys loaded event
    handleAll loaded events

end Source

section Ownership

/-- A link that could not be deleted is left behind. -/
inductive Link
  | absent
  | present
  | left
  deriving DecidableEq

structure KernelState where
  device : Option PDeviceObject
  initializing : Bool
  link : Link
  keys : List Handle
  deriving DecidableEq

def KernelState.vacant (link : Link) : KernelState := ⟨none, false, link, []⟩

def KernelState.loaded (device : PDeviceObject) : KernelState := ⟨some device, false, .present, []⟩

def after (s : KernelState) : (o : DriverOp) → DriverAns o → KernelState
  | .zwOpenKey, x => if ntSuccess x.1 then { s with keys := x.2 :: s.keys } else s
  | .zwClose key, _ => { s with keys := s.keys.erase key }
  | .ioCreateDeviceSecure, x =>
    if ntSuccess x.1 then { s with device := some x.2, initializing := true } else s
  | .ioCreateSymbolicLink, x => if ntSuccess x then { s with link := .present } else s
  | .ioDeleteSymbolicLink, x => { s with link := if ntSuccess x then .absent else .left }
  | .ioDeleteDevice _, _ => { s with device := none, initializing := false }
  | .doneInitializing _, _ => { s with initializing := false }
  | _, _ => s

def state (l : DriverLog) : KernelState := l.foldl (fun s e => after s e.1 e.2) (.vacant .absent)

def requests (l : DriverLog) : WinLog := l.filterMap fun e =>
  match e.1, e.2 with
  | .request o, x => some ⟨o, x⟩
  | _, _ => none

/-- What the driver may do: use only the key that it has opened, and nothing else before that is
closed; create what is not there, and the link after the device; delete the device that is there,
and only after it tried to delete the link; and serve requests while both are there. -/
def Allowed (s : KernelState) : DriverOp → Prop
  | .zwOpenKey => s.keys = []
  | .zwSetValueKey key _ _ | .zwClose key => s.keys = [key]
  | .ioCreateDeviceSecure => s.keys = [] ∧ s.device = none ∧ s.link ≠ .present
  | .ioCreateSymbolicLink => s.keys = [] ∧ s.device.isSome ∧ s.link ≠ .present
  | .ioDeleteSymbolicLink => s.keys = [] ∧ s.device.isSome ∧ s.link = .present
  | .ioDeleteDevice device => s.keys = [] ∧ s.device = some device ∧ s.link ≠ .present
  | .deviceObject => True
  | .doneInitializing device =>
    s.keys = [] ∧ s.device = some device ∧ s.initializing ∧ s.link = .present
  | .request _ => ∃ device, s = .loaded device

/-- A device that was created has an address, and the driver object refers to it. -/
def Answers (s : KernelState) : (o : DriverOp) → DriverAns o → Prop
  | .ioCreateDeviceSecure, x => ntSuccess x.1 → x.2 ≠ 0
  | .deviceObject, x => x = s.device.getD 0
  | _, _ => True

def kernel : Contract DriverAns :=
  ⟨fun l o x => Answers (state l) o x, fun l o => Allowed (state l) o⟩

end Ownership

section Rules

open ReaderBalance (Resource Owes acquired released)

variable {s : KernelState} {w : WinLog} {l : DriverLog} {sys : Platform}

structure Reached (s : KernelState) (w : WinLog) (l : DriverLog) : Prop where
  state : state l = s
  requests : requests l = w

def DriverOp.own : DriverOp → Bool
  | .request _ => false
  | _ => true

theorem Reached.append (h : Reached s w l) {o : DriverOp} (ho : o.own) (x : DriverAns o) :
    Reached (after s o x) w (l ++ [⟨o, x⟩]) where
  state := by rw [Lifecycle.state, List.foldl_append, ← Lifecycle.state, h.state]; rfl
  requests := by
    rw [Lifecycle.requests, List.filterMap_append, ← Lifecycle.requests, h.requests]
    cases o with
    | request o => cases ho
    | _ => exact List.append_nil w

theorem Reached.ask (h : Reached s w l) (o : DriverOp) (ho : o.own) (hallowed : Allowed s o)
    {Q : DriverAns o → DriverLog → Prop}
    (hQ : ∀ x l', Answers s o x → Reached (after s o x) w l' → Q x l') :
    wp kernel (Lifecycle.ask o) l Q := by
  refine ⟨by change Allowed (Lifecycle.state l) o; rwa [h.state], fun x hx => hQ x _ ?_ (h.append ho x)⟩
  change Answers (Lifecycle.state l) o x at hx
  rwa [h.state] at hx

theorem wp_recordInitialization (h : Reached s w l) (hkeys : s.keys = []) (stage : ULong)
    (status : NtStatus) :
    wp kernel (recordInitialization stage status) l fun _ l' => Reached s w l' := by
  rw [recordInitialization, wp_bind]
  refine h.ask .zwOpenKey rfl hkeys fun opened l₁ _ h₁ => ?_
  rw [wp_ite]
  rw [after] at h₁
  refine ⟨fun hs => ?_, fun hs => ?_⟩
  · rw [if_pos hs, hkeys] at h₁
    rw [wp_bind]
    refine h₁.ask (.zwSetValueKey _ _ _) rfl rfl fun _ l₂ _ h₂ => ?_
    rw [wp_bind]
    refine h₂.ask (.zwSetValueKey _ _ _) rfl rfl fun _ l₃ _ h₃ => ?_
    rw [wp_bind]
    refine h₃.ask (.zwClose _) rfl rfl fun _ l₄ _ h₄ => ?_
    have hkept : { s with keys := [opened.2].erase opened.2 } = s := by
      rw [List.erase_cons_head, ← hkeys]
    replace h₄ : Reached { s with keys := [opened.2].erase opened.2 } w l₄ := h₄
    rwa [hkept] at h₄
  · rwa [if_neg hs] at h₁

/-- The driver is not there, and left nothing but a link that could not be deleted, or its device and
its link both are there. -/
def Owned (loaded : Option DriverObject) (s : KernelState) : Prop :=
  match loaded with
  | none => ∃ link, link ≠ .present ∧ s = .vacant link
  | some driver => driver = driverObject ∧ ∃ device, device ≠ 0 ∧ s = .loaded device

theorem wp_driverEntry {link : Link} (hlink : link ≠ .present) (h : Reached (.vacant link) w l) :
    wp kernel driverEntry l fun r l' => ∃ s,
      Owned (if ntSuccess r.1 then some r.2 else none) s ∧ Reached s w l' := by
  rw [driverEntry, wp_bind]
  refine wp_mono (wp_recordInitialization h rfl _ _) fun _ l₁ h₁ => ?_
  rw [wp_bind]
  refine h₁.ask .ioCreateDeviceSecure rfl ⟨rfl, rfl, hlink⟩ fun created l₂ hcreated h₂ => ?_
  rw [after] at h₂
  rw [wp_bind]
  by_cases hs : ntSuccess created.1
  · rw [if_pos hs] at h₂
    refine wp_mono (wp_recordInitialization h₂ rfl _ _) fun _ l₃ h₃ => ?_
    rw [wp_ite]
    refine ⟨fun hc => by simp [hs] at hc, fun _ => ?_⟩
    rw [wp_bind]
    refine h₃.ask .ioCreateSymbolicLink rfl ⟨rfl, rfl, hlink⟩ fun linked l₄ _ h₄ => ?_
    rw [after] at h₄
    rw [wp_bind]
    by_cases hlinked : ntSuccess linked
    · rw [if_pos hlinked] at h₄
      refine wp_mono (wp_recordInitialization h₄ rfl _ _) fun _ l₅ h₅ => ?_
      rw [wp_ite]
      refine ⟨fun hc => by simp [hlinked] at hc, fun _ => ?_⟩
      rw [wp_bind]
      refine h₅.ask (.doneInitializing _) rfl ⟨rfl, rfl, rfl, rfl⟩ fun _ l₆ _ h₆ => ?_
      exact ⟨.loaded created.2, ⟨rfl, created.2, hcreated hs, rfl⟩, h₆⟩
    · rw [if_neg hlinked] at h₄
      refine wp_mono (wp_recordInitialization h₄ rfl _ _) fun _ l₅ h₅ => ?_
      rw [wp_ite]
      refine ⟨fun _ => ?_, fun hc => by simp [hlinked] at hc⟩
      rw [wp_bind]
      refine h₅.ask (.ioDeleteDevice _) rfl ⟨rfl, rfl, hlink⟩ fun _ l₆ _ h₆ => ?_
      refine ⟨.vacant link, ?_, h₆⟩
      rw [if_neg hlinked]
      exact ⟨link, hlink, rfl⟩
  · rw [if_neg hs] at h₂
    refine wp_mono (wp_recordInitialization h₂ rfl _ _) fun _ l₃ h₃ => ?_
    rw [wp_ite]
    refine ⟨fun _ => ⟨.vacant link, ?_, h₃⟩, fun hc => by simp [hs] at hc⟩
    rw [if_neg hs]
    exact ⟨link, hlink, rfl⟩

theorem wp_unload {device : PDeviceObject} (hdevice : device ≠ 0) (h : Reached (.loaded device) w l) :
    wp kernel unload l fun _ l' => ∃ link, link ≠ .present ∧ Reached (.vacant link) w l' := by
  rw [unload, wp_bind]
  refine h.ask .ioDeleteSymbolicLink rfl ⟨rfl, rfl, rfl⟩ fun status l₁ _ h₁ => ?_
  have hlink : (if ntSuccess status then Link.absent else Link.left) ≠ .present := by
    split <;> decide
  rw [wp_bind]
  refine h₁.ask .deviceObject rfl trivial fun found l₂ hfound h₂ => ?_
  replace hfound : found = device := hfound
  rw [wp_ite, hfound]
  refine ⟨fun _ => ?_, fun hc => absurd hdevice hc⟩
  exact h₂.ask (.ioDeleteDevice _) rfl ⟨rfl, rfl, hlink⟩ fun _ l₃ _ h₃ => ⟨_, hlink, h₃⟩

/-- A request changes nothing that the kernel holds for the driver, and gives back all that it was
handed out. -/
theorem wp_dispatch {S : Resource → Bool} {device : PDeviceObject} (howes : Owes S 0 w)
    (h : Reached (.loaded device) w l) (r : IoRequest) :
    wp kernel (dispatch sys driverObject r) l fun _ l' =>
      ∃ w', Owes S 0 w' ∧ Reached (.loaded device) w' l' := by
  rw [dispatch]
  cases driverObject.majorFunction r.majorFunction with
  | unsupported => exact ⟨w, howes, h⟩
  | openClose => exact ⟨w, howes, h⟩
  | deviceControl =>
    have hserved : ∀ (w : WinLog) (l : DriverLog) (o : WinOp), Reached (.loaded device) w l →
        Concurrency.anything.guar w o → wp kernel (ask (.request o)) l fun x l' =>
          Concurrency.anything.rely w o x ∧ Reached (.loaded device) (w ++ [⟨o, x⟩]) l' := by
      intro w l o h _
      refine ⟨⟨device, h.state⟩, fun x _ => ⟨trivial, ?_, ?_⟩⟩
      · rw [Lifecycle.state, List.foldl_append, ← Lifecycle.state, h.state]
        rfl
      · rw [Lifecycle.requests, List.filterMap_append, ← Lifecycle.requests, h.requests]
        rfl
    refine wp_mono (wp_translate hserved h (Concurrency.deviceControl_owes sys r.irp howes)) ?_
    rintro _ l' ⟨w', hreached, howes'⟩
    exact ⟨w', howes', hreached⟩

theorem wp_handle {S : Resource → Bool} {loaded : Option DriverObject} (howned : Owned loaded s)
    (howes : Owes S 0 w) (h : Reached s w l) (event : Event) :
    wp kernel (handle sys loaded event) l fun loaded l' =>
      ∃ s w', Owned loaded s ∧ Owes S 0 w' ∧ Reached s w' l' := by
  cases loaded with
  | none =>
    cases event with
    | load =>
      obtain ⟨link, hlink, rfl⟩ := howned
      rw [handle, wp_bind]
      refine wp_mono (wp_driverEntry hlink h) fun r l₁ ⟨s, hs, h₁⟩ => ⟨s, w, hs, howes, h₁⟩
    | request r => exact ⟨s, w, howned, howes, h⟩
    | unload => exact ⟨s, w, howned, howes, h⟩
  | some driver =>
    obtain ⟨rfl, device, hdevice, rfl⟩ := howned
    have hloaded : Owned (some driverObject) (.loaded device) := ⟨rfl, device, hdevice, rfl⟩
    cases event with
    | load => exact ⟨_, w, hloaded, howes, h⟩
    | request r =>
      rw [handle, wp_bind]
      refine wp_mono (wp_dispatch howes h r) fun _ l₁ ⟨w', howes', h₁⟩ => ?_
      exact ⟨_, w', hloaded, howes', h₁⟩
    | unload =>
      rw [handle, wp_ite]
      refine ⟨fun _ => ?_, fun hc => absurd rfl hc⟩
      rw [wp_bind]
      exact wp_mono (wp_unload hdevice h) fun _ l₁ ⟨link, hlink, h₁⟩ =>
        ⟨.vacant link, w, ⟨link, hlink, rfl⟩, howes, h₁⟩

theorem wp_handleAll {S : Resource → Bool} {loaded : Option DriverObject} (howned : Owned loaded s)
    (howes : Owes S 0 w) (h : Reached s w l) (events : List Event) :
    wp kernel (handleAll sys loaded events) l fun loaded l' =>
      ∃ s w', Owned loaded s ∧ Owes S 0 w' ∧ Reached s w' l' := by
  induction events generalizing loaded s w l with
  | nil => exact ⟨s, w, howned, howes, h⟩
  | cons event events ih =>
    rw [handleAll, wp_bind]
    refine wp_mono (wp_handle howned howes h event) ?_
    rintro loaded l₁ ⟨s, w', howned, howes, h₁⟩
    exact ih howned howes h₁

/-- Over any number of loads, requests and unloads, whatever the kernel answers: the driver only
does what is allowed, owns its device and its link while it is loaded and at most a link that could
not be deleted when it is not, and its requests have given back all that they were handed out. -/
theorem handleAll_safe (sys : Platform) {env : DriverEnv}
    (henv : ∀ l o, Answers (state l) o (env l o)) (events : List Event) :
    let run := (handleAll sys none events).run env []
    Throughout (fun l o => Allowed (state l) o) run.2 ∧ Owned run.1 (state run.2) ∧
      ∀ S, acquired S (requests run.2) = released S (requests run.2) := by
  have hnone : Owned none (.vacant .absent) := ⟨.absent, by decide, rfl⟩
  have hstart : Reached (.vacant .absent) [] [] := ⟨rfl, rfl⟩
  have hall : ∀ S, wp kernel (handleAll sys none events) [] fun loaded l' =>
      ∃ s w', Owned loaded s ∧ Owes S 0 w' ∧ Reached s w' l' := by
    intro S
    have howes : Owes S 0 [] := rfl
    exact wp_handleAll hnone howes hstart events
  refine ⟨throughout_of_wp henv (hall fun _ => true), ?_, fun S => ?_⟩
  · obtain ⟨s, w, howned, -, h⟩ := run_of_wp henv (hall fun _ => true)
    rwa [h.state]
  · obtain ⟨s, w, -, howes, h⟩ := run_of_wp henv (hall S)
    rw [h.requests]
    exact howes

/-- A kernel that does not delete the link, and so does not create a second one. -/
def sampleKernel : DriverEnv := fun l o =>
  match o with
  | .zwOpenKey => (statusSuccess, 4)
  | .zwSetValueKey _ _ _ => statusSuccess
  | .zwClose _ => statusSuccess
  | .ioCreateDeviceSecure => (statusSuccess, 0x1000)
  | .ioCreateSymbolicLink => if requests l = [] then statusSuccess else statusUnsuccessful
  | .ioDeleteSymbolicLink => statusUnsuccessful
  | .ioDeleteDevice _ => ()
  | .deviceObject => (state l).device.getD 0
  | .doneInitializing _ => ()
  | .request o => sampleGame.env 9 sampleImage (requests l) o

theorem sampleKernel_answers (l : DriverLog) (o : DriverOp) :
    Answers (state l) o (sampleKernel l o) := by
  cases o with
  | ioCreateDeviceSecure =>
    intro _
    change (0x1000 : PDeviceObject) ≠ 0
    decide
  | deviceObject => rfl
  | _ => trivial

def sampleEvents : List Event := [.load, .request ⟨irpMjDeviceControl, 0, sampleIrp⟩, .unload, .load]

/-- The driver is loaded, selects a target and is unloaded, and the second load fails. The link is
left. -/
theorem handleAll_safe_sample :
    let run := (handleAll samplePlatform none sampleEvents).run sampleKernel []
    (Throughout (fun l o => Allowed (state l) o) run.2 ∧ Owned run.1 (state run.2) ∧
      ∀ S, acquired S (requests run.2) = released S (requests run.2)) ∧
      run.1.isNone ∧ (state run.2).link = .left ∧ 0 < acquired (fun _ => true) (requests run.2) :=
  ⟨handleAll_safe samplePlatform sampleKernel_answers sampleEvents, by decide +kernel⟩

end Rules

end DarkEden.Lifecycle
