import DarkEden.ResponseFormat
import Mathlib.Data.BitVec

namespace DarkEden.Client

open Interaction Protocol

section Source

/-- A call of the transport: its arguments, with what the two references hold before. -/
structure ReadCall where
  pid : DWord
  request : Request
  response : Response
  error : WString

structure ReadAnswer where
  ok : Bool
  response : Response
  error : WString

@[reducible]
def ReadAns (_ : ReadCall) : Type := ReadAnswer

structure Published where
  response : Response
  error : WString

def part (request : Request) (axis : Axis) : Request :=
  { request with
    axis := axis
    pointerBytes := 4
    reserved := if axis = Axis.x then 3 else 4
    baseAddress := if axis = Axis.x then request.baseAddress else defaultYOffset }

def combine (combined : Response) (axis : Axis) (result : Response) : Response :=
  { combined with
    bytesRead := combined.bytesRead + result.bytesRead
    xBits := if axis = Axis.x then result.xBits else combined.xBits
    yBits := if axis = Axis.x then combined.yBits else result.yBits }

/-- The loop over the axes, with the response that is put together. -/
def readAxes (pid : DWord) (request : Request) :
    List Axis → Response → Published → Program ReadAns (Bool × Published)
  | [], combined, out => pure (true, { out with response := combined })
  | axis :: axes, combined, out =>
    if request.axis ≠ Axis.both ∧ request.axis ≠ axis then readAxes pid request axes combined out
    else do
      let answer : ReadAnswer ← .ask ⟨pid, part request axis, emptyResponse, out.error⟩
      if !answer.ok then
        return (false, { out with
          error := wide (if axis = Axis.x then "X: " else "Y: ") ++ answer.error })
      readAxes pid request axes (combine combined axis answer.response)
        { out with error := answer.error }

def readPlayerCoordinatesWith (pid : DWord) (request : Request) (out : Published) :
    Program ReadAns (Bool × Published) :=
  let out := { out with response := emptyResponse, error := [] }
  if request.axis ≠ Axis.x ∧ request.axis ≠ Axis.y ∧ request.axis ≠ Axis.both then
    return (false, { out with error := wide "Invalid coordinate axis." })
  else readAxes pid request [Axis.x, Axis.y]
    ⟨version, sizeofResponse, 0, 0, request.axis, request.valueType, 0, 0⟩ out

/-- `Read` as the transport: it sets the error text only if it fails. -/
def readTransport (sys : Platform) (call : ReadCall) : User ReadAnswer := do
  let outcome ← read sys call.pid call.request
  return ⟨outcome.ok, outcome.response, outcome.error.getD call.error⟩

def readPlayerCoordinates (sys : Platform) (pid : DWord) (request : Request) (out : Published) :
    User (Bool × Published) :=
  (readPlayerCoordinatesWith pid request out).translate (readTransport sys)

end Source

section Loop

variable {pid : DWord} {request : Request} {Good : ReadCall → ReadAnswer → Prop}

def ValidAxis (axis : Axis) : Prop := axis = Axis.x ∨ axis = Axis.y ∨ axis = Axis.both

def Requested (request : Request) (axis : Axis) : Prop :=
  request.axis = Axis.both ∨ request.axis = axis

instance (axis : Axis) : Decidable (Requested request axis) := inferInstanceAs (Decidable (_ ∨ _))

def axisOf (e : Sigma ReadAns) : Axis := e.1.request.axis

/-- The response consists of what the calls have left behind. -/
structure Combined (request : Request) (calls : Log ReadAns) (response : Response) : Prop where
  version_eq : response.version = version
  size_eq : response.size = sizeofResponse
  status_eq : response.status = 0
  axis_eq : response.axis = request.axis
  valueType_eq : response.valueType = request.valueType
  bytesRead_eq : response.bytesRead = (calls.map fun e => e.2.response.bytesRead).sum
  xBits_own : ∀ e ∈ calls, axisOf e = Axis.x → response.xBits = e.2.response.xBits
  xBits_none : (∀ e ∈ calls, axisOf e ≠ Axis.x) → response.xBits = 0
  yBits_own : ∀ e ∈ calls, axisOf e = Axis.y → response.yBits = e.2.response.yBits
  yBits_none : (∀ e ∈ calls, axisOf e ≠ Axis.y) → response.yBits = 0

theorem combined_nil :
    Combined request [] ⟨version, sizeofResponse, 0, 0, request.axis, request.valueType, 0, 0⟩ where
  version_eq := rfl
  size_eq := rfl
  status_eq := rfl
  axis_eq := rfl
  valueType_eq := rfl
  bytesRead_eq := rfl
  xBits_own := by simp
  xBits_none _ := rfl
  yBits_own := by simp
  yBits_none _ := rfl

theorem combine_x (combined result : Response) : combine combined Axis.x result =
    { combined with
      bytesRead := combined.bytesRead + result.bytesRead
      xBits := result.xBits } := by
  rw [combine, if_pos rfl, if_pos rfl]

theorem combine_y (combined result : Response) : combine combined Axis.y result =
    { combined with
      bytesRead := combined.bytesRead + result.bytesRead
      yBits := result.yBits } := by
  rw [combine, if_neg (by decide), if_neg (by decide)]

theorem combined_snoc {calls : Log ReadAns} {response : Response} (e : Sigma ReadAns)
    (hcombined : Combined request calls response) (haxis : axisOf e = Axis.x ∨ axisOf e = Axis.y)
    (hnew : ∀ d ∈ calls, axisOf d ≠ axisOf e) :
    Combined request (calls ++ [e]) (combine response (axisOf e) e.2.response) := by
  have hxy : Axis.x ≠ Axis.y := by decide
  have hbytes : response.bytesRead + e.2.response.bytesRead =
      ((calls ++ [e]).map fun d => d.2.response.bytesRead).sum := by
    rw [List.map_append, List.sum_append, ← hcombined.bytesRead_eq]
    simp
  obtain ⟨hversion, hsize, hstatus, hax, htype, -, hx, hx0, hy, hy0⟩ := hcombined
  obtain haxis | haxis := haxis
  · rw [haxis] at hnew
    rw [haxis, combine_x]
    refine ⟨hversion, hsize, hstatus, hax, htype, hbytes, ?_, ?_, ?_, ?_⟩
    all_goals simp only [List.forall_mem_append, List.forall_mem_singleton]
    · exact ⟨fun d hd hdx => absurd hdx (hnew d hd), fun _ => trivial⟩
    · exact fun hnone => absurd haxis hnone.2
    · exact ⟨hy, fun hey => absurd (haxis.symm.trans hey) hxy⟩
    · exact fun hnone => hy0 hnone.1
  · rw [haxis] at hnew
    rw [haxis, combine_y]
    refine ⟨hversion, hsize, hstatus, hax, htype, hbytes, ?_, ?_, ?_, ?_⟩
    all_goals simp only [List.forall_mem_append, List.forall_mem_singleton]
    · exact ⟨hx, fun hex => absurd (hex.symm.trans haxis) hxy⟩
    · exact fun hnone => hx0 hnone.1
    · exact ⟨fun d hd hdy => absurd hdy (hnew d hd), fun _ => trivial⟩
    · exact fun hnone => absurd haxis hnone.2

def Sent (pid : DWord) (request : Request) (e : Sigma ReadAns) : Prop :=
  ∃ axis error, (axis = Axis.x ∨ axis = Axis.y) ∧
    e.1 = ⟨pid, part request axis, emptyResponse, error⟩

/-- The calls of a run over `axes`: all of them succeed and make up the response, or the last one
fails. -/
inductive Ended (request : Request) (axes : List Axis) (calls : Log ReadAns) :
    Bool × Published → Prop
  | whole {out : Published} (hok : ∀ e ∈ calls, e.2.ok) (hall : calls.map axisOf = axes)
      (hcombined : Combined request calls out.response) : Ended request axes calls (true, out)
  | failed {done : Log ReadAns} {e : Sigma ReadAns} {out : Published} (hcalls : calls = done ++ [e])
      (hdone : ∀ d ∈ done, d.2.ok) (he : e.2.ok = false) (horder : calls.map axisOf <+: axes)
      (hempty : out.response = emptyResponse)
      (herror : out.error = wide (if axisOf e = Axis.x then "X: " else "Y: ") ++ e.2.error) :
      Ended request axes calls (false, out)

theorem wp_readAxes (axes : List Axis) (haxes : ∀ axis ∈ axes, axis = Axis.x ∨ axis = Axis.y)
    (hnodup : axes.Nodup) {calls log : Log ReadAns} {combined : Response} {out : Published}
    (hcombined : Combined request calls combined)
    (hsent : ∀ e ∈ calls, Sent pid request e ∧ Good e.1 e.2) (hok : ∀ e ∈ calls, e.2.ok)
    (hnew : ∀ e ∈ calls, axisOf e ∉ axes) (hempty : out.response = emptyResponse) :
    wp ⟨fun _ o x => Good o x, fun _ _ => True⟩ (readAxes pid request axes combined out)
      (log ++ calls) fun r l => ∃ calls', l = log ++ calls' ∧
        (∀ e ∈ calls', Sent pid request e ∧ Good e.1 e.2) ∧
        Ended request (calls.map axisOf ++ axes.filter (Requested request)) calls' r := by
  induction axes generalizing calls combined out with
  | nil =>
    rw [List.filter_nil, List.append_nil]
    exact ⟨calls, rfl, hsent, .whole hok rfl hcombined⟩
  | cons axis axes ih =>
    have hhead := haxes axis List.mem_cons_self
    have htail : ∀ a ∈ axes, a = Axis.x ∨ a = Axis.y :=
      fun a ha => haxes a (List.mem_cons_of_mem _ ha)
    obtain ⟨hfresh, hnodup⟩ := List.nodup_cons.mp hnodup
    have hskip : request.axis ≠ Axis.both ∧ request.axis ≠ axis ↔ ¬Requested request axis :=
      not_or.symm
    rw [readAxes, wp_ite]
    constructor
    · intro hother
      rw [List.filter_cons_of_neg (by simpa using hskip.mp hother)]
      exact ih htail hnodup hcombined hsent hok
        (fun e he hmem => hnew e he (List.mem_cons_of_mem _ hmem)) hempty
    · intro hrequested
      have hrequested : Requested request axis := not_not.mp (mt hskip.mpr hrequested)
      rw [List.filter_cons_of_pos (by simpa using hrequested)]
      refine wp_ask_bind.mpr ⟨trivial, fun answer hgood => ?_⟩
      let e : Sigma ReadAns := ⟨⟨pid, part request axis, emptyResponse, out.error⟩, answer⟩
      have hcalls : ∀ d ∈ calls ++ [e], Sent pid request d ∧ Good d.1 d.2 := by
        rw [List.forall_mem_append, List.forall_mem_singleton]
        exact ⟨hsent, ⟨axis, out.error, hhead, rfl⟩, hgood⟩
      have hmap : calls.map axisOf ++ axis :: axes.filter (Requested request) =
          (calls ++ [e]).map axisOf ++ axes.filter (Requested request) := by
        rw [List.map_append, List.append_cons]
        rfl
      rw [List.append_assoc, wp_ite, hmap]
      constructor
      · intro hfailed
        have he : e.2.ok = false := by simpa using hfailed
        exact ⟨calls ++ [e], rfl, hcalls, .failed rfl hok he (List.prefix_append _ _) hempty rfl⟩
      · intro hsucceeded
        have he : e.2.ok = true := by simpa using hsucceeded
        have hnewHead : ∀ d ∈ calls, axisOf d ≠ axisOf e :=
          fun d hd heq => hnew d hd (heq ▸ List.mem_cons_self)
        refine ih htail hnodup (combined_snoc e hcombined hhead hnewHead) hcalls ?_ ?_ hempty
        · rw [List.forall_mem_append, List.forall_mem_singleton]
          exact ⟨hok, he⟩
        · rw [List.forall_mem_append, List.forall_mem_singleton]
          exact ⟨fun d hd hmem => hnew d hd (List.mem_cons_of_mem _ hmem), hfresh⟩

end Loop

section Calls

variable {pid : DWord} {request : Request} {Good : ReadCall → ReadAnswer → Prop}

def requestedAxes (request : Request) : List Axis := [Axis.x, Axis.y].filter (Requested request)

def Refused (calls : Log ReadAns) (r : Bool × Published) : Prop :=
  calls = [] ∧ r = (false, ⟨emptyResponse, wide "Invalid coordinate axis."⟩)

theorem wp_readPlayerCoordinatesWith (out : Published) (log : Log ReadAns) :
    wp ⟨fun _ o x => Good o x, fun _ _ => True⟩ (readPlayerCoordinatesWith pid request out) log
      fun r l => ∃ calls, l = log ++ calls ∧ (∀ e ∈ calls, Sent pid request e ∧ Good e.1 e.2) ∧
        (¬ValidAxis request.axis ∧ Refused calls r ∨
          ValidAxis request.axis ∧ Ended request (requestedAxes request) calls r) := by
  have hvalid : request.axis ≠ Axis.x ∧ request.axis ≠ Axis.y ∧ request.axis ≠ Axis.both ↔
      ¬ValidAxis request.axis := by
    rw [ValidAxis, not_or, not_or]
  rw [readPlayerCoordinatesWith, wp_ite]
  constructor
  · exact fun h => ⟨[], by simp, by simp, .inl ⟨hvalid.mp h, rfl, rfl⟩⟩
  · intro h
    have haxis : ValidAxis request.axis := not_not.mp (mt hvalid.mpr h)
    have hloop := @wp_readAxes pid request Good [Axis.x, Axis.y] (by simp) (by decide) [] log _
      ⟨emptyResponse, []⟩ combined_nil (by simp) (by simp) (by simp) rfl
    rw [List.append_nil] at hloop
    refine wp_mono hloop fun r l hr => ?_
    obtain ⟨calls, hl, hcalls, hended⟩ := hr
    exact ⟨calls, hl, hcalls, .inr ⟨haxis, hended⟩⟩

theorem validRequest_part (hversion : request.version = version)
    (hsize : request.size = sizeofRequest)
    (htype : request.valueType = ValueType.int32 ∨ request.valueType = ValueType.float32)
    (hbase : request.baseAddress ≠ 0) (hpid : pid ≠ 0) {axis : Axis}
    (haxis : axis = Axis.x ∨ axis = Axis.y) :
    validRequest { part request axis with processId := pid.setWidth 64 } := by
  have hnonzero : pid.setWidth 64 ≠ (0 : ULongLong) := fun h => hpid (by bv_omega)
  have hsmall : pid.setWidth 64 ≤ (0xFFFFFFFF : ULongLong) := by bv_omega
  apply decide_eq_true
  obtain rfl | rfl := haxis
  · exact ⟨hversion, hsize, .inr (.inr (.inr (.inl ⟨rfl, rfl, rfl⟩))), hnonzero, hsmall, hbase,
      .inl rfl, .inr (.inl rfl), htype⟩
  · have hoffset : defaultYOffset ≠ 0 := by decide
    exact ⟨hversion, hsize, .inr (.inr (.inr (.inr (.inl ⟨rfl, rfl, rfl⟩)))), hnonzero, hsmall,
      hoffset, .inr (.inl rfl), .inr (.inl rfl), htype⟩

/-- What any transport makes of a request. -/
structure Whole (pid : DWord) (request : Request) (calls : Log ReadAns) (r : Bool × Published) :
    Prop where
  sent : ∀ e ∈ calls, Sent pid request e
  inOrder : calls.map axisOf <+: requestedAxes request
  last : ∀ before e after, calls = before ++ e :: after → e.2.ok = false → after = []
  nothing : ¬ValidAxis request.axis ∨ (∃ e ∈ calls, e.2.ok = false) →
    r.1 = false ∧ r.2.response = ⟨0, 0, 0, 0, 0, 0, 0, 0⟩
  whole : ValidAxis request.axis → (∀ e ∈ calls, e.2.ok) →
    r.1 = true ∧ calls.map axisOf = requestedAxes request ∧ Combined request calls r.2.response
  valid : request.version = version → request.size = sizeofRequest →
    (request.valueType = ValueType.int32 ∨ request.valueType = ValueType.float32) →
    request.baseAddress ≠ 0 → pid ≠ 0 →
    ∀ e ∈ calls, validRequest { e.1.request with processId := e.1.pid.setWidth 64 }

theorem valid_of_sent {calls : Log ReadAns} (hsent : ∀ e ∈ calls, Sent pid request e)
    (hversion : request.version = version) (hsize : request.size = sizeofRequest)
    (htype : request.valueType = ValueType.int32 ∨ request.valueType = ValueType.float32)
    (hbase : request.baseAddress ≠ 0) (hpid : pid ≠ 0) :
    ∀ e ∈ calls, validRequest { e.1.request with processId := e.1.pid.setWidth 64 } := by
  intro e he
  obtain ⟨axis, error, haxis, hcall⟩ := hsent e he
  rw [hcall]
  exact validRequest_part hversion hsize htype hbase hpid haxis

theorem emptyResponse_eq : emptyResponse = ⟨0, 0, 0, 0, 0, 0, 0, 0⟩ := by decide

theorem whole_refused {calls : Log ReadAns} {r : Bool × Published} (haxis : ¬ValidAxis request.axis)
    (hrefused : Refused calls r) : Whole pid request calls r := by
  obtain ⟨rfl, rfl⟩ := hrefused
  have hsent : ∀ e ∈ ([] : Log ReadAns), Sent pid request e := by simp
  exact ⟨hsent, List.nil_prefix, by simp, fun _ => ⟨rfl, emptyResponse_eq⟩,
    fun h => absurd h haxis, valid_of_sent hsent⟩

theorem whole_ended {calls : Log ReadAns} {r : Bool × Published} (haxis : ValidAxis request.axis)
    (hsent : ∀ e ∈ calls, Sent pid request e)
    (hended : Ended request (requestedAxes request) calls r) : Whole pid request calls r := by
  cases hended with
  | whole hok hall hcombined =>
    refine ⟨hsent, hall ▸ List.prefix_rfl, ?_, ?_, fun _ _ => ⟨rfl, hall, hcombined⟩,
      valid_of_sent hsent⟩
    · intro before e after hcalls he
      have hmem : e ∈ calls := by rw [hcalls]; simp
      exact absurd (hok e hmem) (by simp [he])
    · rintro (hinvalid | ⟨e, he, hfailed⟩)
      · exact absurd haxis hinvalid
      · exact absurd (hok e he) (by simp [hfailed])
  | @failed done e out hcalls hdone he horder hempty herror =>
    have hmem : e ∈ calls := by rw [hcalls]; simp
    refine ⟨hsent, horder, ?_, fun _ => ⟨rfl, hempty.trans emptyResponse_eq⟩, ?_, valid_of_sent hsent⟩
    · intro before d after hsplit hd
      -- Only the last call has failed, so nothing can stand behind it.
      by_contra hne
      obtain ⟨after, last, rfl⟩ : ∃ rest last, after = rest ++ [last] :=
        ⟨_, _, (List.dropLast_concat_getLast hne).symm⟩
      have hsame : done ++ [e] = before ++ d :: after ++ [last] := by
        rw [← hcalls, hsplit, List.append_assoc, List.cons_append]
      obtain ⟨rfl, -⟩ := List.append_inj' hsame rfl
      exact absurd (hdone d (by simp)) (by simp [hd])
    · exact fun _ hok => absurd (hok e hmem) (by simp [he])

end Calls

section Transport

open ResponseFormat

variable {sys : Platform} {pid : DWord} {request : Request}

def Formatted (call : ReadCall) (answer : ReadAnswer) : Prop :=
  answer.ok → validResponse call.request answer.response sizeofResponse ∧
    ntSuccess answer.response.status

theorem readReply_ok {reply : IoctlResult} (h : (readReply sys request reply).ok) :
    validResponse request (readReply sys request reply).response sizeofResponse ∧
      ntSuccess (readReply sys request reply).response.status := by
  cases reply with
  | failed code => cases h
  | completed output returned =>
    by_cases hvalid : validResponse request (.decode output) returned
    · by_cases hstatus : ntSuccess (Response.decode output).status
      · have hreply : readReply sys request (.completed output returned) =
            .done (.decode output) := by
          rw [readReply, if_neg (by simpa using hvalid), if_neg (by simpa using hstatus)]
        rw [hreply]
        have hreturned : returned = sizeofResponse := (validResponse_iff.mp hvalid).1.1
        exact ⟨hreturned ▸ hvalid, hstatus⟩
      · rw [readReply, if_neg (by simpa using hvalid), if_pos (by simpa using hstatus)] at h
        cases h
    · rw [readReply, if_pos (by simpa using hvalid)] at h
      cases h

theorem wp_readTransport {C : Contract UserAns} (hguar : ∀ l o, C.guar l o) (call : ReadCall)
    (l : Log UserAns) : wp C (readTransport sys call) l fun answer _ => Formatted call answer := by
  rw [readTransport, wp_bind]
  apply wp_read_of sys (hguar _ _)
  · intro code _
    refine wp_of_forall hguar (fun _ _ hok => ?_) _ _
    cases hok
  · intro _ _ _ _ hok
    cases hok
  · -- The format of the response does not depend on the pid that is filled in.
    exact fun _ _ => ⟨hguar _ _, fun reply _ hok => readReply_ok hok⟩

theorem requestedAxes_valid (haxis : ValidAxis request.axis) :
    ((requestedAxes request).map fun _ => (4 : ULong)).sum =
      if request.axis = Axis.both then 8 else 4 := by
  obtain h | h | h := haxis
  · simp only [requestedAxes, Requested, h]
    decide
  · simp only [requestedAxes, Requested, h]
    decide
  · simp only [requestedAxes, Requested, h]
    decide

theorem expectedBytes_part {axis : Axis} (haxis : axis = Axis.x ∨ axis = Axis.y) :
    expectedBytes (part request axis) = 4 := by
  obtain rfl | rfl := haxis
  · rfl
  · rfl

/-- Responses that are each valid for a part make up one that is valid for the whole. -/
theorem validResponse_combined {calls : Log ReadAns} {response : Response}
    (hreserved : request.reserved ≠ 5) (haxis : ValidAxis request.axis)
    (hsent : ∀ e ∈ calls, Sent pid request e ∧ Formatted e.1 e.2) (hok : ∀ e ∈ calls, e.2.ok)
    (hall : calls.map axisOf = requestedAxes request)
    (hcombined : Combined request calls response) : validResponse request response sizeofResponse := by
  have hfour : ∀ e ∈ calls, e.2.response.bytesRead = 4 := by
    intro e he
    obtain ⟨⟨axis, error, hxy, hcall⟩, hformatted⟩ := hsent e he
    obtain ⟨hvalid, hstatus⟩ := hformatted (hok e he)
    rw [hcall] at hvalid
    rw [(validResponse_iff.mp hvalid).2.1.2 hstatus, expectedBytes_part hxy]
  have hbytes : response.bytesRead = expectedBytes request := by
    have hmap : (calls.map fun e => e.2.response.bytesRead) =
        (requestedAxes request).map fun _ => 4 := by
      rw [← hall, List.map_map]
      exact List.map_congr_left hfour
    rw [hcombined.bytesRead_eq, hmap, requestedAxes_valid haxis, expectedBytes, if_neg hreserved]
  have hother : ∀ {axis other : Axis}, request.axis = axis → axis ≠ Axis.both → axis ≠ other →
      ∀ e ∈ calls, axisOf e ≠ other := by
    intro axis other hrequest hboth hne e he heq
    have hmem : axisOf e ∈ requestedAxes request := hall ▸ List.mem_map_of_mem he
    obtain ⟨-, hrequested⟩ := List.mem_filter.mp hmem
    obtain h | h := of_decide_eq_true hrequested
    · exact hboth (hrequest.symm.trans h)
    · exact hne (hrequest.symm.trans (h.trans heq))
  have hsuccess : ntSuccess response.status = true := by
    rw [hcombined.status_eq]
    decide
  rw [validResponse_iff]
  refine ⟨⟨rfl, hcombined.version_eq, hcombined.size_eq, hcombined.axis_eq, hcombined.valueType_eq⟩,
    ⟨BitVec.le_of_eq hbytes, fun _ => hbytes⟩, fun h => absurd h (by simp [hsuccess]), ?_, ?_⟩
  · exact fun hx => hcombined.yBits_none (hother hx (by decide) (by decide))
  · exact fun hy => hcombined.xBits_none (hother hy (by decide) (by decide))

theorem wp_readPlayerCoordinates {C : Contract UserAns} (hguar : ∀ l o, C.guar l o)
    (hreserved : request.reserved ≠ 5) (out : Published) (l : Log UserAns) :
    wp C (readPlayerCoordinates sys pid request out) l fun r _ =>
      r.1 → validResponse request r.2.response sizeofResponse := by
  have hcore := @wp_readPlayerCoordinatesWith pid request Formatted out []
  refine wp_mono (wp_translate (R := fun _ _ => True) ?_ trivial hcore) fun r m hr hok => ?_
  · exact fun _ m call _ _ => wp_mono (wp_readTransport hguar call m) fun _ _ hformatted =>
      ⟨hformatted, trivial⟩
  · obtain ⟨_, -, calls, -, hsent, ⟨-, hrefused⟩ | ⟨haxis, hended⟩⟩ := hr
    · rw [hrefused.2] at hok
      cases hok
    · cases hended with
      | whole hall_ok hall hcombined =>
        exact validResponse_combined hreserved haxis hsent hall_ok hall hcombined
      | failed => cases hok

/-- A pair is published whole or not at all, whatever the transport does, and with `Read` as the
transport what is published is a valid response to the request. -/
theorem readPlayerCoordinatesWith_allOrNothing (pid : DWord) (request : Request) (out : Published) :
    (∀ (env : Env ReadAns) (log : Log ReadAns),
      let run := (readPlayerCoordinatesWith pid request out).run env log
      ∃ calls, run.2 = log ++ calls ∧ Whole pid request calls run.1) ∧
    ∀ (sys : Platform) (env : Env UserAns) (log : Log UserAns), request.reserved ≠ 5 →
      let run := (readPlayerCoordinates sys pid request out).run env log
      run.1.1 = true → validResponse request run.1.2.response sizeofResponse = true := by
  refine ⟨fun env log => ?_, fun sys env log hreserved => ?_⟩
  · have hcore := @wp_readPlayerCoordinatesWith pid request (fun _ _ => True) out log
    obtain ⟨calls, hlog, hsent, h⟩ := run_of_wp (fun l o => (trivial : True)) hcore
    have hsent : ∀ e ∈ calls, Sent pid request e := fun e he => (hsent e he).1
    obtain ⟨haxis, hrefused⟩ | ⟨haxis, hended⟩ := h
    · exact ⟨calls, hlog, whole_refused haxis hrefused⟩
    · exact ⟨calls, hlog, whole_ended haxis hsent hended⟩
  · have hread : wp (.ofEnv env) (readPlayerCoordinates sys pid request out) log fun r _ =>
        r.1 → validResponse request r.2.response sizeofResponse :=
      wp_readPlayerCoordinates (fun _ _ => trivial) hreserved out log
    exact wp_ofEnv.mp hread

def pairRequest : Request :=
  ⟨version, sizeofRequest, 0, 0x009FB03C, Axis.both, 4, ValueType.int32, 3⟩

def pairAnswer (request : Request) : Response :=
  ⟨version, sizeofResponse, 0, 4, request.axis, request.valueType,
    if request.axis = Axis.x then 48 else 0, if request.axis = Axis.y then 137 else 0⟩

def pairEnv : Env UserAns
  | _, .api o => silentApi o
  | _, .deviceIoControl _ input _ _ => .completed (pairAnswer (.decode input)).encode sizeofResponse

theorem readPlayerCoordinatesWith_allOrNothing_pair :
    let run := (readPlayerCoordinates samplePlatform 123 pairRequest
      ⟨emptyResponse, []⟩).run pairEnv []
    run.1.1 = true ∧ validResponse pairRequest run.1.2.response sizeofResponse = true :=
  have hok : ((readPlayerCoordinates samplePlatform 123 pairRequest
      ⟨emptyResponse, []⟩).run pairEnv []).1.1 = true := by decide
  ⟨hok, (readPlayerCoordinatesWith_allOrNothing 123 pairRequest _).2 samplePlatform pairEnv []
    (by decide) hok⟩

end Transport

end DarkEden.Client
