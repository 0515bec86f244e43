import DarkEden.CoordinateWindow
import DarkEden.OwnCoordinates
import DarkEden.Refusals

namespace DarkEden.CoordinateWindow

open Interaction Protocol Client EngineRules
open Target (TableDriven AtMost atMost_of_eq accepted)

section Transport

variable {sys : Platform} {T : Target sys} {process : PEProcess} {call : ReadCall}

/-- The dword that a call of `Read` is to come back with. -/
def located (T : Target sys) (process : PEProcess) (pid : DWord) (request : Request) :
    Option ULong :=
  if pid ≠ 0 ∧ T.api (.createFileW genericRead) = none then
    T.coordinate process { request with processId := pid.setWidth 64 }
  else none

/-- The request is well formed once the pid is filled in, unless there is no pid. -/
def Sendable (pid : DWord) (request : Request) : Prop :=
  (validRequest { request with processId := pid.setWidth 64 } ↔ pid ≠ 0) ∧ TableDriven request

def told (call : ReadCall) (answer : ReadAnswer) : Option ULong :=
  if answer.ok then
    some (if call.request.axis = Axis.y then answer.response.yBits else answer.response.xBits)
  else none

/-- The call comes back with the dword, where there is one. -/
def Located (T : Target sys) (process : PEProcess) (call : ReadCall) (answer : ReadAnswer) : Prop :=
  Sendable call.pid call.request →
    told call answer = located T process call.pid call.request

/-- The call comes back with the dword or with an error. -/
def Trusted (T : Target sys) (process : PEProcess) (call : ReadCall) (answer : ReadAnswer) : Prop :=
  Sendable call.pid call.request →
    AtMost (located T process call.pid call.request) (told call answer)

theorem wp_readTransport_located (l : Log UserAns) :
    wp (T.served process) (readTransport sys call) l fun answer _ => Located T process call answer := by
  rw [readTransport, wp_bind]
  by_cases hvalid : validRequest { call.request with processId := call.pid.setWidth 64 } ∧
      TableDriven call.request
  · refine wp_mono (wp_read call.request hvalid.1 hvalid.2 l) fun outcome l' houtcome hsendable => ?_
    rw [located]
    simp only [hsendable.1.mp hvalid.1, ne_eq, not_false_eq_true, true_and]
    exact houtcome
  · -- Without a pid `Read` refuses the request.
    have hnone : ∀ answer : ReadAnswer, answer.ok = false →
        (¬validRequest { call.request with processId := call.pid.setWidth 64 } ∨
          T.api (.createFileW genericRead) ≠ none) → Located T process call answer := by
      intro answer hok hwhy hsendable
      rw [told, hok, located]
      refine (if_neg ?_).symm
      rintro ⟨hpid, hopen⟩
      obtain h | h := hwhy
      · exact h (hsendable.1.mpr hpid)
      · exact h hopen
    apply wp_read_of sys trivial
    · intro code hopened
      refine wp_mono (wp_deviceError code _) fun error l' _ => hnone _ rfl (.inr ?_)
      rw [show T.api (.createFileW genericRead) = some code from hopened.symm]
      simp
    · exact fun _ hinvalid error l' => hnone _ rfl (.inl hinvalid)
    · intro _ hgood
      have hcommand : readCoordinates ≠ selectTarget := by decide
      refine ⟨hcommand, fun reply _ hsendable => ?_⟩
      exact absurd ⟨hgood, hsendable.2⟩ hvalid

theorem wp_readTransport_trusted (l : Log UserAns) :
    wp (T.refusing process) (readTransport sys call) l fun answer _ =>
      Trusted T process call answer := by
  rw [readTransport, wp_bind]
  refine wp_mono (Target.wp_read_refusing l) fun outcome l' houtcome hsendable v hv => ?_
  obtain ⟨hopened, hvalid, hvalue⟩ := houtcome v hv hsendable.2
  rw [located, if_pos ⟨hsendable.1.mp hvalid, hopened⟩]
  exact hvalue

def Sound (T : Target sys) (process : PEProcess) (pid : DWord) (axes : List Axis)
    (request : Axis → Request) (r : Bool × Published) : Prop :=
  r.1 = true → ∀ axis ∈ axes, located T process pid (request axis) =
    some (if axis = Axis.y then r.2.response.yBits else r.2.response.xBits)

theorem Sound.isSome {pid : DWord} {axes : List Axis} {request : Axis → Request}
    {r : Bool × Published} (h : Sound T process pid axes request r) (hok : r.1 = true) :
    ∀ axis ∈ axes, (located T process pid (request axis)).isSome :=
  fun axis haxis => Option.isSome_of_eq_some (h hok axis haxis)

theorem trusted_of_sent {pid : DWord} {request : Request} {e : Sigma ReadAns}
    (hsendable : ∀ axis, axis = Axis.x ∨ axis = Axis.y → Sendable pid (part request axis))
    (hsent : Sent pid request e) (htrusted : Trusted T process e.1 e.2) (hok : e.2.ok) :
    (axisOf e = Axis.x ∨ axisOf e = Axis.y) ∧ located T process pid (part request (axisOf e)) =
      some (if axisOf e = Axis.y then e.2.response.yBits else e.2.response.xBits) := by
  obtain ⟨axis, error, haxis, hcall⟩ := hsent
  have haxisOf : axisOf e = axis := by rw [axisOf, hcall]; rfl
  rw [haxisOf]
  refine ⟨haxis, ?_⟩
  rw [Trusted, hcall] at htrusted
  exact htrusted (hsendable axis haxis) _ (if_pos hok)

theorem sound_of_ended {pid : DWord} {request : Request} {calls : Log ReadAns}
    {r : Bool × Published}
    (hsendable : ∀ axis, axis = Axis.x ∨ axis = Axis.y → Sendable pid (part request axis))
    (hcalls : ∀ e ∈ calls, Sent pid request e ∧ Trusted T process e.1 e.2)
    (hended : Ended request (requestedAxes request) calls r) :
    Sound T process pid (requestedAxes request) (part request) r := by
  cases hended with
  | failed => exact fun h => absurd h Bool.false_ne_true
  | @whole out hok hall hcombined =>
    intro _ axis haxis
    obtain ⟨e, he, rfl⟩ := List.mem_map.mp (hall ▸ haxis)
    obtain ⟨hxy, hvalue⟩ := trusted_of_sent hsendable (hcalls e he).1 (hcalls e he).2 (hok e he)
    rw [hvalue]
    obtain hx | hy := hxy
    · rw [hx, if_neg (by decide), if_neg (by decide), hcombined.xBits_own e he hx]
    · rw [hy, if_pos rfl, if_pos rfl, hcombined.yBits_own e he hy]

theorem ok_of_ended {pid : DWord} {request : Request} {calls : Log ReadAns} {r : Bool × Published}
    (hsendable : ∀ axis, axis = Axis.x ∨ axis = Axis.y → Sendable pid (part request axis))
    (hcalls : ∀ e ∈ calls, Sent pid request e ∧ Located T process e.1 e.2)
    (hended : Ended request (requestedAxes request) calls r)
    (hall : ∀ axis ∈ requestedAxes request,
      (located T process pid (part request axis)).isSome) : r.1 = true := by
  cases hended with
  | whole => rfl
  | @failed done e out hsplit hdone he horder =>
    have hmem : e ∈ calls := by rw [hsplit]; simp
    obtain ⟨⟨axis, error, haxis, hcall⟩, hlocated⟩ := hcalls e hmem
    have hsome := hall axis (horder.subset (List.mem_map.mpr ⟨e, hmem, by rw [axisOf, hcall]; rfl⟩))
    rw [Located, hcall] at hlocated
    rw [← hlocated (hsendable axis haxis), told, he] at hsome
    cases hsome

end Transport

section Jobs

variable {d : Desktop} {job : Job} {r : Reading} {s : Settings}

def requestOf (job : Job) (axis : Axis) : Request :=
  if job.playerCoordinates then part job.request axis else job.request

/-- The reading methods that follow a table of offsets. -/
def Tabled (s : Settings) : Prop := s.pointer = .direct ∨ s.pointer = .playerCoordinates

theorem Reading.valid_axis (r : Reading) : ValidAxis r.axis := by
  cases r
  · exact .inl rfl
  · exact .inr (.inl rfl)
  · exact .inr (.inr rfl)

theorem requestedAxes_reading (request : Request) (h : request.axis = r.axis) :
    requestedAxes request = match r with
      | .x => [Axis.x]
      | .y => [Axis.y]
      | .both => [Axis.x, Axis.y] := by
  cases r <;> simp only [requestedAxes, Requested, h] <;> decide

theorem baseAddress_ne_zero {text : WString} {address : ULongLong} {sys : Platform}
    (h : parseAddress sys text = .ok address) : address ≠ 0 := by
  rintro rfl
  exact absurd (parseAddress_ok_iff.mp h).2.2.1 (by decide)

theorem sendable_of_valid {pid : DWord} {request : Request} (htable : TableDriven request)
    (h : pid ≠ 0 → validRequest { request with processId := pid.setWidth 64 }) :
    Sendable pid request := by
  refine ⟨⟨fun hvalid => ?_, h⟩, htable⟩
  rintro rfl
  exact (of_decide_eq_true hvalid).2.2.2.1 rfl

theorem type_cases (s : Settings) :
    (if s.type = .int32 then ValueType.int32 else ValueType.float32) = ValueType.int32 ∨
      (if s.type = .int32 then ValueType.int32 else ValueType.float32) = ValueType.float32 := by
  by_cases h : s.type = .int32
  · exact .inl (if_pos h)
  · exact .inr (if_neg h)

theorem sendable_direct (hdirect : s.pointer = .direct) (hpermits : Permits s r)
    {selected : Nat} {address : ULongLong} (haddress : address ≠ 0) :
    Sendable (s.itemData selected) (jobFor r s selected address).request := by
  have hmode : directMode s = true := decide_eq_true hdirect
  have hbytes : pointerBytes s = 0 := if_pos hmode
  have hplayer : playerCoordinatesMode s = false := by simp [playerCoordinatesMode, hdirect]
  have haxis : r.axis = Axis.x := hpermits hmode
  apply sendable_of_valid
  · exact ⟨.inl ⟨by simp [jobFor, hplayer], hbytes⟩, .inl haxis⟩
  · intro hpid
    obtain ⟨hwide, hsmall⟩ := widened_processId hpid
    apply decide_eq_true
    exact ⟨rfl, rfl, .inl (by simp [jobFor, hplayer]), hwide, hsmall, haddress, .inl haxis,
      .inl ⟨hbytes, haxis⟩, type_cases s⟩

theorem sendable_part {selected : Nat} {address : ULongLong} (haddress : address ≠ 0) {axis : Axis}
    (haxis : axis = Axis.x ∨ axis = Axis.y) :
    Sendable (s.itemData selected) (part (jobFor r s selected address).request axis) := by
  apply sendable_of_valid
  · obtain rfl | rfl := haxis
    · exact ⟨.inr (.inr (.inr (.inl rfl))), .inl rfl⟩
    · exact ⟨.inr (.inr (.inr (.inr rfl))), .inr rfl⟩
  · exact fun hpid => validRequest_part rfl rfl (type_cases s) haddress hpid haxis

/-- Every request that is sent for the job is well formed but for a missing pid. -/
structure WellFormed (job : Job) : Prop where
  axis : ValidAxis job.request.axis
  direct : job.playerCoordinates = false → Sendable job.pid job.request ∧ job.request.axis = Axis.x
  parts : job.playerCoordinates = true → ∀ axis, axis = Axis.x ∨ axis = Axis.y →
    Sendable job.pid (part job.request axis)

theorem wellFormed_of_next (hnext : nextJob d.sys r s = .ok job) (hpermits : Permits s r)
    (htabled : Tabled s) : WellFormed job := by
  obtain ⟨selected, address, -, hparse, -, rfl⟩ := nextJob_eq_ok.mp hnext
  have haddress := baseAddress_ne_zero hparse
  refine ⟨r.valid_axis, fun hjob => ?_, fun _ axis haxis => sendable_part haddress haxis⟩
  have hdirect : s.pointer = .direct :=
    htabled.resolve_right (of_decide_eq_false (p := s.pointer = .playerCoordinates) hjob)
  exact ⟨sendable_direct hdirect hpermits haddress, hpermits (decide_eq_true hdirect)⟩

/-- How a job comes to its outcome from the calls of `Read` that are made for it. -/
inductive Made (K : ReadCall → ReadAnswer → Prop) (job : Job) : Bool × Published → Prop
  | direct {answer : ReadAnswer} (hjob : job.playerCoordinates = false)
      (hcall : K ⟨job.pid, job.request, job.response, []⟩ answer) :
      Made K job (answer.ok, ⟨answer.response, answer.error⟩)
  | parts {calls : Log ReadAns} {outcome : Bool × Published} (hjob : job.playerCoordinates = true)
      (hcalls : ∀ e ∈ calls, Sent job.pid job.request e ∧ K e.1 e.2)
      (hended : Ended job.request (requestedAxes job.request) calls outcome) : Made K job outcome

theorem wp_clientRead_made {C : Contract UserAns} {K : ReadCall → ReadAnswer → Prop}
    (hcall : ∀ call l, wp C (readTransport d.sys call) l fun answer _ => K call answer)
    (haxis : ValidAxis job.request.axis) (l : Log UserAns) :
    wp C (clientRead d.sys job) l fun outcome _ => Made K job outcome := by
  rw [clientRead]
  cases hjob : job.playerCoordinates with
  | false =>
    rw [if_neg Bool.false_ne_true, wp_bind]
    exact wp_mono (hcall _ l) fun answer _ h => .direct hjob h
  | true =>
    rw [if_pos rfl]
    have hcore := @wp_readPlayerCoordinatesWith job.pid job.request K ⟨job.response, []⟩ []
    refine wp_mono (wp_translate (R := fun _ _ => True) ?_ trivial hcore) fun outcome m hr => ?_
    · exact fun _ m call _ _ => wp_mono (hcall call m) fun _ _ h => ⟨h, trivial⟩
    · obtain ⟨_, -, calls, -, hcalls, ⟨hinvalid, -⟩ | ⟨-, hended⟩⟩ := hr
      · exact absurd haxis hinvalid
      · exact .parts hjob hcalls hended

variable {T : Target d.sys} {process : PEProcess} {outcome : Bool × Published}

theorem requestOf_direct (hjob : job.playerCoordinates = false) (axis : Axis) :
    requestOf job axis = job.request := if_neg (by simp [hjob])

theorem requestOf_parts (hjob : job.playerCoordinates = true) :
    requestOf job = part job.request := funext fun _ => if_pos hjob

theorem requestedAxes_x {request : Request} (h : request.axis = Axis.x) :
    requestedAxes request = [Axis.x] := by
  rw [requestedAxes, List.filter_cons_of_pos (by simp [Requested, h]),
    List.filter_cons_of_neg (by simp only [Requested, h]; decide), List.filter_nil]

theorem sound_of_made (hjob : WellFormed job) (h : Made (Trusted T process) job outcome) :
    Sound T process job.pid (requestedAxes job.request) (requestOf job) outcome := by
  cases h with
  | direct hdirect hcall =>
    obtain ⟨hsendable, haxis⟩ := hjob.direct hdirect
    intro hok axis hmem
    rw [requestedAxes_x haxis, List.mem_singleton] at hmem
    have hvalue := hcall hsendable _ (if_pos hok)
    rw [requestOf_direct hdirect, hmem]
    rwa [haxis] at hvalue
  | parts hparts hcalls hended =>
    rw [requestOf_parts hparts]
    exact sound_of_ended (hjob.parts hparts) hcalls hended

theorem ok_of_made (hjob : WellFormed job) (h : Made (Located T process) job outcome)
    (hall : ∀ axis ∈ requestedAxes job.request,
      (located T process job.pid (requestOf job axis)).isSome) : outcome.1 = true := by
  cases h with
  | @direct answer hdirect hcall =>
    obtain ⟨hsendable, haxis⟩ := hjob.direct hdirect
    have hsome := hall Axis.x (by simp [requestedAxes_x haxis])
    rw [requestOf_direct hdirect, ← hcall hsendable, told] at hsome
    by_contra hfailed
    rw [if_neg hfailed] at hsome
    cases hsome
  | parts hparts hcalls hended =>
    rw [requestOf_parts hparts] at hall
    exact ok_of_ended (hjob.parts hparts) hcalls hended hall

theorem Made.mono {K K' : ReadCall → ReadAnswer → Prop} (hK : ∀ call answer, K call answer →
    K' call answer) (h : Made K job outcome) : Made K' job outcome := by
  cases h with
  | direct hjob hcall => exact .direct hjob (hK _ _ hcall)
  | parts hjob hcalls hended =>
    exact .parts hjob (fun e he => ⟨(hcalls e he).1, hK _ _ (hcalls e he).2⟩) hended

end Jobs

section Run

variable (d : Desktop) (T : DWord → Target d.sys) (process : DWord → PEProcess)

/-- The worker is answered by a system whose memory stays as it is; no other process than the one
that the job is for is handed out, but that one need not open. -/
def Served (job : Job) (env : WinEnv) : Prop :=
  ∀ l o, ((T job.pid).refusingSystem (process job.pid)).rely l o (env l o)

/-- The process opens for every request of the worker. -/
def Opened (job : Job) (env : WinEnv) : Prop :=
  ∀ e ∈ ((System.runUser d.sys d.process (clientRead d.sys job)).run env []).2,
    Target.Opens d.sys false (process job.pid) e.1 e.2

def here (job : Job) (axis : Axis) : Option ULong :=
  located (T job.pid) (process job.pid) job.pid (requestOf job axis)

def Complete (job : Job) : Prop :=
  ∀ axis ∈ requestedAxes job.request, (here d T process job axis).isSome

/-- The fields show what the process has for the axes of the button. -/
structure DisplaysMemory (a : Window) (r : Reading) (job : Job) : Prop where
  x : r ≠ .y → ∃ v, here d T process job Axis.x = some v ∧
    a.xValue = d.formatValue v job.request.valueType
  noX : r = .y → a.xValue = dash
  y : r ≠ .x → ∃ v, here d T process job Axis.y = some v ∧
    a.yValue = d.formatValue v job.request.valueType
  noY : r = .x → a.yValue = dash

variable {d T process} {job : Job} {r : Reading} {a : Window} {env : WinEnv} {out : Published}

theorem nextJob_axis {s : Settings} (h : nextJob d.sys r s = .ok job) :
    job.request.axis = r.axis := by
  obtain ⟨_, _, -, -, -, rfl⟩ := nextJob_eq_ok.mp h
  rfl

theorem outcome_sound (hjob : WellFormed job) (hserved : Served d T process job env) :
    Sound (T job.pid) (process job.pid) job.pid (requestedAxes job.request) (requestOf job)
      (d.outcome job env) :=
  sound_of_made hjob (Target.run_of_refusing hserved
    (wp_clientRead_made (fun _ l => wp_readTransport_trusted l) hjob.axis []))

theorem outcome_ok (hjob : WellFormed job) (hserved : Served d T process job env)
    (hopened : Opened d process job env) (hall : Complete d T process job) :
    (d.outcome job env).1 = true := by
  have hmade := wp_clientRead_made (C := (T job.pid).served (process job.pid))
    (fun _ l => wp_readTransport_located l) hjob.axis []
  have hrun : Made (Located (T job.pid) (process job.pid)) job (d.outcome job env) ∧ _ :=
    run_of_wp_where (C := (T job.pid).openedSystem false (process job.pid))
      (fun l o hopens => ⟨(hserved l o).1, hopens⟩) (Target.wp_runUser hmade rfl) hopened
  exact ok_of_made hjob hrun.1 hall

theorem opened_of_opens (h : ∀ l o, Target.Opens d.sys false (process job.pid) o (env l o)) :
    Opened d process job env :=
  (run_of_wp (C := ⟨fun _ o x => Target.Opens d.sys false (process job.pid) o x, fun _ _ => True⟩) h
    (wp_invariant (J := fun l => ∀ e ∈ l, Target.Opens d.sys false (process job.pid) e.1 e.2)
      (fun _ _ _ hx hl => List.forall_mem_append.mpr ⟨hl, List.forall_mem_singleton.mpr hx⟩) (by simp)
      (wp_of_forall (Q := fun _ _ => True) (fun _ _ => trivial) (fun _ _ => trivial) _ _))).2

theorem displaysMemory_of_sound {s : Settings} (hnext : nextJob d.sys r s = .ok job)
    (hsound : Sound (T job.pid) (process job.pid) job.pid (requestedAxes job.request)
      (requestOf job) (true, out))
    (hdisplays : Displays d a r job out.response) : DisplaysMemory d T process a r job := by
  have hvalues := hsound rfl
  rw [requestedAxes_reading _ (nextJob_axis hnext)] at hvalues
  obtain ⟨hx, hy⟩ := hdisplays
  refine ⟨fun h => ?_, fun h => ?_, fun h => ?_, fun h => ?_⟩
  · rw [if_neg h] at hx
    refine ⟨_, hvalues Axis.x ?_, hx⟩
    cases r with
    | x => simp
    | y => exact absurd rfl h
    | both => simp
  · rwa [if_pos h] at hx
  · rw [if_neg h] at hy
    refine ⟨_, hvalues Axis.y ?_, hy⟩
    cases r with
    | x => exact absurd rfl h
    | y => simp
    | both => simp
  · rwa [if_pos h] at hy

theorem run_read (halive : a.terminated = false) (hclosed : a.closed = false)
    (hworker : a.worker = .running) (hjob : a.job = some job) (hmessages : a.messages = 0) :
    d.run a [.workerReturned env, .finished] = d.finishRead
      { a with job := some (store (d.outcome job env) job), worker := .returned } := by
  have hpost : d.step a (.workerReturned env) =
      { a with
        job := some (store (d.outcome job env) job)
        worker := .returned
        messages := 1 } := by
    simp [Desktop.step.eq_def, postFinished, halive, hclosed, hworker, hjob, hmessages]
  change d.step (d.step a (.workerReturned env)) .finished = _
  rw [hpost, Desktop.step.eq_def, if_neg (by simp [halive, hclosed])]
  simp [hmessages]

/-- What a window shows after a read: the values in the memory, or none and an error. -/
def ShowsOutcome (d : Desktop) (T : DWord → Target d.sys) (process : DWord → PEProcess) (r : Reading)
    (job : Job) (b : Window) : Prop :=
  Complete d T process job ∧ DisplaysMemory d T process b r job ∧ b.errorState = false ∨
    Blank b ∧ b.errorState = true

theorem finishRead_displays (hblank : Blank a) (hnext : nextJob d.sys r a.settings = .ok job)
    (hjob : WellFormed job) (hserved : Served d T process job env) :
    let b := d.finishRead
      { a with job := some (store (d.outcome job env) job), worker := .returned }
    ShowsOutcome d T process r job b ∧ ((d.outcome job env).1 = true → b.errorState = false) := by
  intro b
  have hsound := outcome_sound hjob hserved
  cases hout : d.outcome job env with
  | mk ok out =>
    rw [hout] at hsound
    have hb : b = d.finishRead { a with job := some (store (ok, out) job), worker := .returned } := by
      rw [← hout]
    cases ok with
    | false =>
      refine ⟨.inr ?_, fun h => absurd h Bool.false_ne_true⟩
      rw [hb]
      exact ⟨hblank, rfl⟩
    | true =>
      have herror : b.errorState = false := by rw [hb]; rfl
      have hdisplays : Displays d b r job out.response := by
        apply displays_of_shown hnext (outcome_valid hnext hout)
        · rw [hb]
          exact congrArg (ite _ _) hblank.1
        · rw [hb]
          exact congrArg (ite _ _) hblank.2
      refine ⟨.inl ⟨hsound.isSome rfl, ?_, herror⟩, fun _ => herror⟩
      exact displaysMemory_of_sound hnext hsound hdisplays

/-- On targets whose memory stays as it is, whether or not their process opens, whatever happens to
the window and in any order: in the modes that follow a table of offsets, no values are displayed or
those that the memory has for the displayed settings; a worker that comes back has its values
displayed, all of which are there, or an error; and where the process opened for its requests, there
is no error exactly if all of them are there. -/
theorem run_displays_memory (d : Desktop) (T : DWord → Target d.sys) (process : DWord → PEProcess)
    (processes : List DWord) (events : List Event)
    (hserved : Answered d (Served d T process) (start processes) events) :
    let a := d.run (start processes) events
    Tabled a.settings →
      (Blank a ∨ ∃ r job, Permits a.settings r ∧ nextJob d.sys r a.settings = .ok job ∧
        DisplaysMemory d T process a r job) ∧
      ∀ job env, a.worker = .running → a.job = some job → Served d T process job env →
        let b := d.run (start processes) (events ++ [.workerReturned env, .finished])
        (∃ r, nextJob d.sys r a.settings = .ok job ∧ ShowsOutcome d T process r job b) ∧
          (Opened d process job env → (b.errorState = false ↔ Complete d T process job)) := by
  intro a htabled
  have h : Invariant d (fun job r => ∃ env, Served d T process job env ∧ d.outcome job env = r) a :=
    run_invariant (start_invariant processes) (fun job env henv => ⟨env, henv, rfl⟩) hserved
  constructor
  · cases h.phase with
    | reading _ _ blank => exact .inl blank
    | returned _ _ blank => exact .inl blank
    | idle _ _ _ _ shows =>
      obtain hblank | ⟨r, job, out, hpermits, hnext, ⟨env, henv, hout⟩, hx, hy⟩ := shows
      · exact .inl hblank
      · refine .inr ⟨r, job, hpermits, hnext, ?_⟩
        have hsound := outcome_sound (wellFormed_of_next hnext hpermits htabled) henv
        rw [hout] at hsound
        exact displaysMemory_of_sound hnext hsound
          (displays_of_shown hnext (outcome_valid hnext hout) hx hy)
  · intro job env hrunning hjob henv b
    cases h.phase with
    | idle _ _ worker => simp [worker] at hrunning
    | returned _ _ _ _ _ _ _ _ _ _ worker => simp [worker] at hrunning
    | reading _ closed blank r fresh permits next stored _ messages =>
      obtain rfl : fresh = job := Option.some.inj (stored.symm.trans hjob)
      have hwell := wellFormed_of_next next permits htabled
      obtain ⟨hshows, hsuccess⟩ := finishRead_displays blank next hwell henv
      rw [← run_read h.alive closed hrunning hjob messages, ← run_append] at hshows hsuccess
      refine ⟨⟨r, next, hshows⟩, fun hopened => ⟨fun herror => ?_, fun hall => ?_⟩⟩
      · obtain ⟨hall, -⟩ | ⟨-, hfailed⟩ := hshows
        · exact hall
        · exact absurd (hfailed.symm.trans herror) (by decide)
      · exact hsuccess (outcome_ok hwell henv hopened hall)

def mapGame : Target samplePlatform := .ofCells samplePlatform silentApi [
  (0x00DFB03C, 0x01500000), (0x01500004, 0x01600000), (0x016000A8, 0x01700000), (0x0170020C, 100),
  (0x00DDF9A8, 0x01800000), (0x0180000C, 0x01900000), (0x01900044, 0x01A00000), (0x01A00210, 200)]

def sampleDesktop : Desktop := ⟨samplePlatform, 9, fun _ => []⟩

theorem mapGame_opens (l : WinLog) (o : WinOp) :
    (mapGame.openedSystem false 9).rely l o (mapGame.env 9 sampleImage l o) :=
  ⟨mapGame.env_fits 9 sampleImage l o, (mapGame.env_opens sampleImage_expected l o).restrict false⟩

theorem mapGame_served (job : Job) :
    Served sampleDesktop (fun _ => mapGame) (fun _ => 9) job (mapGame.env 9 sampleImage) :=
  fun l o => Target.refusing_of_opened (mapGame_opens l o)

def sampleJob : Job := jobFor .both (start [7]).settings 0 defaultXOffset

/-- Both coordinates are asked for with the settings as they are at first. -/
theorem run_displays_memory_sample :
    let b := sampleDesktop.run (start [7])
      ([.read .both none] ++ [.workerReturned (mapGame.env 9 sampleImage), .finished])
    (∃ r, nextJob samplePlatform r (start [7]).settings = .ok sampleJob ∧
      ShowsOutcome sampleDesktop (fun _ => mapGame) (fun _ => 9) r sampleJob b) ∧
      b.xValue = wide "100" ∧ b.yValue = wide "200" ∧ b.errorState = false := by
  have hcomplete : Complete sampleDesktop (fun _ => mapGame) (fun _ => 9) sampleJob := by
    have haxes : requestedAxes sampleJob.request = [Axis.x, Axis.y] :=
      requestedAxes_reading (r := .both) _ rfl
    intro axis haxis
    rw [haxes] at haxis
    obtain rfl | haxis := List.mem_cons.mp haxis
    · decide +kernel
    · rw [List.mem_singleton.mp haxis]
      decide +kernel
  have hread := (run_displays_memory sampleDesktop (fun _ => mapGame) (fun _ => 9) [7]
    [.read .both none] ⟨fun _ _ he => (by cases he), trivial⟩ (.inr rfl)).2 sampleJob
    (mapGame.env 9 sampleImage) rfl (by rfl) (mapGame_served _)
  have herror := (hread.2 (opened_of_opens fun l o => (mapGame_opens l o).2)).mpr hcomplete
  exact ⟨hread.1, by decide +kernel, by decide +kernel, herror⟩

end Run

end DarkEden.CoordinateWindow
