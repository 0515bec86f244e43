import DarkEden.CoordinateRequest

namespace DarkEden.PointerChase

open Interaction Memory CoordinateReader Protocol

/-- A memory reader: what a read of so many bits at an address comes back with. -/
abbrev Reader := (bits : Nat) → ULongPtr → MemoryReadResult bits

/-- The reads of a run, as sizes and addresses in the order they were made. -/
abbrev Reads := List (Nat × ULongPtr)

section Reference

variable (f : Reader)

/-- Fetch one pointer for each offset, and stop at the first that cannot be followed. -/
def chase (bits : Nat) : List ULong → ULongPtr → Except NtStatus ULongPtr × Reads
  | [], address => (.ok address, [])
  | offset :: offsets, address =>
    let pointer := f bits address
    if !pointer.succeeded then (.error pointer.failure, [(bits, address)])
    else if pointer.value = 0 then (.error statusInvalidAddress, [(bits, address)])
    else if 2 ^ bits ≤ pointer.value.toNat + offset.toNat then
      (.error statusIntegerOverflow, [(bits, address)])
    else
      let rest := chase bits offsets (pointer.value.setWidth 64 + offset.setWidth 64)
      (rest.1, (bits, address) :: rest.2)

/-- The legacy modes use the pointer width of the request. -/
def legacy (request : Request) : Bool := request.reserved = 0 ∧ request.pointerBytes ≠ 0

def pointerBits (request : Request) : Nat :=
  if legacy request ∧ request.pointerBytes = 8 then 64 else 32

def offsets (request : Request) : List ULong :=
  if request.reserved = 1 then [0]
  else if request.reserved = 2 then [4, 0x900]
  else if request.reserved = 3 then [4, 0xA8, 0x20C]
  else if request.reserved = 4 then [0xC, 0x44, 0x210]
  else if request.reserved = 5 then [0x34, 0, 0x14, 0xC]
  else if request.pointerBytes = 0 then []
  else if request.axis = Axis.y then [0xC, 0x44, 0x218]
  else [0xC, 0x44, 0x214]

def refuse (request : Request) (status : NtStatus) : Response :=
  ⟨version, sizeofResponse, status, 0, request.axis, request.valueType, 0, 0⟩

def report {bits : Nat} (request : Request) (r : MemoryReadResult bits)
    (xBits yBits : BitVec bits → ULong) : Response :=
  { refuse request r.finalStatus with
    bytesRead := r.bytesRead.setWidth 32
    xBits := if r.succeeded ∧ request.axis ≠ Axis.y then xBits r.value else 0
    yBits := if r.succeeded ∧ request.axis ≠ Axis.x then yBits r.value else 0 }

def reference (request : Request) : Response × Reads :=
  if legacy request ∧ 2 ^ pointerBits request ≤ request.baseAddress.toNat then
    (refuse request statusIntegerOverflow, [])
  else match chase f (pointerBits request) (offsets request) request.baseAddress with
    | (.error status, reads) => (refuse request status, reads)
    | (.ok address, reads) =>
      if request.axis ≠ Axis.both then
        (report request (f 32 address) (fun v => v) (fun v => v), reads ++ [(32, address)])
      else if request.reserved = 5 then
        (report request (f 32 address) (fun v => v &&& 0xFFFF) (fun v => v >>> 16),
          reads ++ [(32, address)])
      else
        (report request (f 64 address) (fun v => v.setWidth 32) (fun v => (v >>> 32).setWidth 32),
          reads ++ [(64, address)])

end Reference

section Runs

variable {α β : Type} {f : Reader}

def answering (f : Reader) : Env ReaderAns := fun _ o =>
  match o with
  | .note _ => ()
  | .resolveImageOffset _ => ⟨statusInvalidDeviceState, 0⟩
  | .read bits address => f bits address
  | .writeUInt32 _ _ => statusInvalidDeviceState

def readsOf (l : ReaderLog) : Reads :=
  l.filterMap fun e => match e.1 with
    | .read bits address => some (bits, address)
    | _ => none

/-- From any point on, the program returns `a` after exactly these reads. -/
def Runs (f : Reader) (p : Memory α) (a : α) (reads : Reads) : Prop :=
  ∀ l, (p.run (answering f) l).1 = a ∧ readsOf (p.run (answering f) l).2 = readsOf l ++ reads

theorem runs_pure (a : α) : Runs f (pure a) a [] :=
  fun l => ⟨rfl, (List.append_nil (readsOf l)).symm⟩

theorem Runs.bind {p : Memory α} {a : α} {reads : Reads} {g : α → Memory β} {b : β}
    {reads' : Reads} (hp : Runs f p a reads) (hg : Runs f (g a) b reads') :
    Runs f (p >>= g) b (reads ++ reads') := by
  intro l
  obtain ⟨ha, hreads⟩ := hp l
  obtain ⟨hb, hreads'⟩ := hg (p.run (answering f) l).2
  rw [Program.run_bind, ha]
  exact ⟨hb, by rw [hreads', hreads, List.append_assoc]⟩

theorem Runs.then_pure {p : Memory α} {a : α} {reads : Reads} {g : α → Memory β} {b : β}
    (hp : Runs f p a reads) (hg : g a = pure b) : Runs f (p >>= g) b reads := by
  rw [← List.append_nil reads]
  apply hp.bind
  rw [hg]
  exact runs_pure b

theorem runs_read (bits : Nat) (address : ULongPtr) :
    Runs f (read bits address) (f bits address) [(bits, address)] :=
  fun l => ⟨rfl, by simp [Memory.read, readsOf]⟩

theorem runs_note (n : Note) : Runs f (note n) () [] :=
  fun l => ⟨rfl, by simp [Memory.note, readsOf]⟩

theorem runs_addAddress (a b : ULongPtr) : Runs f (addAddress a b) (a + b) [] :=
  (runs_note _).bind (runs_pure _)

theorem runs_subAddress (a b : ULongPtr) : Runs f (subAddress a b) (a - b) [] :=
  (runs_note _).bind (runs_pure _)

theorem runs_if_pos {c : Prop} [Decidable c] {p q : Memory α} {a : α} {reads : Reads} (h : c)
    (hp : Runs f p a reads) : Runs f (if c then p else q) a reads := by
  rwa [if_pos h]

theorem runs_if_neg {c : Prop} [Decidable c] {p q : Memory α} {a : α} {reads : Reads} (h : ¬c)
    (hq : Runs f q a reads) : Runs f (if c then p else q) a reads := by
  rwa [if_neg h]

theorem runs_result {c : Prop} [Decidable c] {a b x : α} (ha : c → a = x) (hb : ¬c → b = x) :
    Runs f (if c then pure a else pure b) x [] := by
  by_cases h : c
  · rw [if_pos h, ha h]
    exact runs_pure x
  · rw [if_neg h, hb h]
    exact runs_pure x

end Runs

section Walkers

variable {f : Reader}

theorem exceeds_iff (pointer offset : ULong) :
    pointer > 0xFFFFFFFF - offset ↔ 2 ^ 32 ≤ pointer.toNat + offset.toNat := by
  bv_omega

theorem walkPointers_runs (offsets : List ULong) (address : ULongPtr) :
    Runs f (walkPointers offsets address) (chase f 32 offsets address).1
      (chase f 32 offsets address).2 := by
  induction offsets generalizing address with
  | nil => exact runs_pure _
  | cons offset offsets ih =>
    rw [walkPointers, chase]
    by_cases hs : !(f 32 address).succeeded
    · rw [if_pos hs]
      exact (runs_read 32 address).bind (runs_if_pos hs (runs_pure _))
    rw [if_neg hs]
    by_cases hzero : (f 32 address).value = 0
    · rw [if_pos hzero]
      exact (runs_read 32 address).bind (runs_if_neg hs (runs_if_pos hzero (runs_pure _)))
    rw [if_neg hzero]
    have hnext : ∀ {p : Memory (Except NtStatus ULongPtr)} {a : Except NtStatus ULongPtr}
        {reads : Reads}, Runs f p a reads → Runs f (do
          note (.field ((f 32 address).value.setWidth 64) (offset.setWidth 64))
          p) a reads := fun hp => (runs_note _).bind hp
    by_cases hexceeds : (f 32 address).value > 0xFFFFFFFF - offset
    · rw [if_pos ((exceeds_iff _ _).mp hexceeds)]
      exact (runs_read 32 address).bind (runs_if_neg hs (runs_if_neg hzero
        (hnext (runs_if_pos hexceeds (runs_pure _)))))
    · rw [if_neg fun h => hexceeds ((exceeds_iff _ _).mpr h)]
      exact (runs_read 32 address).bind (runs_if_neg hs (runs_if_neg hzero
        (hnext (runs_if_neg hexceeds ((runs_addAddress _ _).bind (ih _))))))

/-- What `AddOffset` answers, in exact arithmetic. -/
def sumWithin (pointerBits : Nat) (pointer offset : ULongPtr) : Except NtStatus ULongPtr :=
  if pointer = 0 then .error statusInvalidAddress
  else if 2 ^ pointerBits ≤ pointer.toNat + offset.toNat then .error statusIntegerOverflow
  else .ok (pointer + offset)

theorem addOffset_runs {pointerBits : Nat} (hbits : pointerBits ≤ 64) (pointer offset : ULongPtr) :
    Runs f (addOffset pointerBits pointer offset) (sumWithin pointerBits pointer offset) [] := by
  unfold addOffset sumWithin
  extract_lets targetMax hostMax limit
  have hpos : 0 < 2 ^ pointerBits := Nat.two_pow_pos pointerBits
  have hlimit : limit.toNat = 2 ^ pointerBits - 1 := by
    have hle : 2 ^ pointerBits ≤ 2 ^ 64 := Nat.pow_le_pow_right (by decide) hbits
    have htarget : targetMax.toNat = 2 ^ pointerBits - 1 := by
      rw [BitVec.toNat_setWidth, BitVec.toNat_allOnes, Nat.mod_eq_of_lt (by omega)]
    have hhost : hostMax.toNat = 2 ^ 64 - 1 := BitVec.toNat_allOnes
    by_cases h : targetMax < hostMax
    · rw [← htarget]
      exact congrArg BitVec.toNat (if_pos h)
    · rw [BitVec.lt_def] at h
      have heq : limit = hostMax := if_neg (by rwa [BitVec.lt_def])
      rw [heq]
      omega
  by_cases hzero : pointer = 0
  · rw [if_pos hzero, if_pos hzero]
    exact runs_pure _
  rw [if_neg hzero, if_neg hzero]
  by_cases hpointer : pointer > limit
  · rw [if_pos hpointer, if_pos (by rw [gt_iff_lt, BitVec.lt_def] at hpointer; omega)]
    exact runs_pure _
  rw [if_neg hpointer]
  refine (runs_subAddress _ _).bind ?_
  have hle : pointer ≤ limit := BitVec.not_lt.mp hpointer
  have hroom : offset > limit - pointer ↔ 2 ^ pointerBits ≤ pointer.toNat + offset.toNat := by
    rw [gt_iff_lt, BitVec.lt_def, BitVec.toNat_sub_of_le hle]
    rw [BitVec.le_def] at hle
    omega
  by_cases hexceeds : offset > limit - pointer
  · rw [if_pos hexceeds, if_pos (hroom.mp hexceeds)]
    exact runs_pure _
  · rw [if_neg hexceeds, if_neg fun h => hexceeds (hroom.mpr h)]
    exact (runs_addAddress _ _).bind (runs_pure _)

theorem followOffsets_runs {pointerBits : Nat} (hbits : pointerBits ≤ 64) (offsets : List ULong)
    (address : ULongPtr) :
    Runs f (followOffsets pointerBits offsets address) (chase f pointerBits offsets address).1
      (chase f pointerBits offsets address).2 := by
  induction offsets generalizing address with
  | nil => exact runs_pure _
  | cons offset offsets ih =>
    rw [followOffsets, chase]
    have hwide : ((f pointerBits address).value.setWidth 64).toNat =
        (f pointerBits address).value.toNat := by
      have hlt := (f pointerBits address).value.isLt
      have hle : 2 ^ pointerBits ≤ 2 ^ 64 := Nat.pow_le_pow_right (by decide) hbits
      rw [BitVec.toNat_setWidth, Nat.mod_eq_of_lt (by omega)]
    have hoffset : (offset.setWidth 64).toNat = offset.toNat := by
      have hlt := offset.isLt
      rw [BitVec.toNat_setWidth, Nat.mod_eq_of_lt (by omega)]
    have hsum := addOffset_runs (f := f) hbits ((f pointerBits address).value.setWidth 64)
      (offset.setWidth 64)
    by_cases hs : !(f pointerBits address).succeeded
    · rw [if_pos hs]
      exact (runs_read pointerBits address).bind (runs_if_pos hs (runs_pure _))
    rw [if_neg hs]
    have hzero_iff : (f pointerBits address).value.setWidth 64 = 0 ↔
        (f pointerBits address).value = 0 := by
      rw [← BitVec.toNat_inj, ← BitVec.toNat_inj, hwide]
      simp
    rw [sumWithin, hwide, hoffset] at hsum
    by_cases hzero : (f pointerBits address).value = 0
    · rw [if_pos (hzero_iff.mpr hzero)] at hsum
      rw [if_pos hzero]
      exact (runs_read pointerBits address).bind (runs_if_neg hs
        ((runs_note _).bind (hsum.bind (runs_pure _))))
    rw [if_neg fun h => hzero (hzero_iff.mp h)] at hsum
    rw [if_neg hzero]
    by_cases hexceeds : 2 ^ pointerBits ≤ (f pointerBits address).value.toNat + offset.toNat
    · rw [if_pos hexceeds] at hsum
      rw [if_pos hexceeds]
      exact (runs_read pointerBits address).bind (runs_if_neg hs
        ((runs_note _).bind (hsum.bind (runs_pure _))))
    · rw [if_neg hexceeds] at hsum
      rw [if_neg hexceeds]
      exact (runs_read pointerBits address).bind (runs_if_neg hs
        ((runs_note _).bind (hsum.bind (ih _))))

theorem failure_error {bits : Nat} (r : MemoryReadResult bits) : ntSuccess r.failure = false := by
  unfold MemoryReadResult.failure
  by_cases hs : ntSuccess r.status
  · rw [if_pos hs]
    rfl
  · rw [if_neg hs]
    simpa using hs

theorem chase_error {bits : Nat} {offsets : List ULong} {address : ULongPtr} {status : NtStatus}
    (h : (chase f bits offsets address).1 = .error status) : ntSuccess status = false := by
  induction offsets generalizing address with
  | nil => cases h
  | cons offset offsets ih =>
    rw [chase] at h
    by_cases hs : !(f bits address).succeeded
    · rw [if_pos hs] at h
      cases h
      exact failure_error _
    rw [if_neg hs] at h
    by_cases hzero : (f bits address).value = 0
    · rw [if_pos hzero] at h
      cases h
      rfl
    rw [if_neg hzero] at h
    by_cases hexceeds : 2 ^ bits ≤ (f bits address).value.toNat + offset.toNat
    · rw [if_pos hexceeds] at h
      cases h
      rfl
    · rw [if_neg hexceeds] at h
      exact ih h

end Walkers

section Requests

variable {f : Reader} {request : Request}

def readAt (f : Reader) (pointerBits bits : Nat) (base : ULongPtr) (finalOffset : ULong) :
    MemoryReadResult bits × Reads :=
  if 2 ^ pointerBits ≤ base.toNat then (⟨statusIntegerOverflow, 0, 0⟩, [])
  else match chase f pointerBits [0xC, 0x44, finalOffset] base with
    | (.error status, reads) => (⟨status, 0, 0⟩, reads)
    | (.ok address, reads) => (f bits address, reads ++ [(bits, address)])

theorem readAtOffset_runs {pointerBits : Nat} (hbits : pointerBits ≤ 64) (bits : Nat)
    {base : ULongPtr} (hbase : base ≠ 0) (finalOffset : ULong) :
    Runs f (readAtOffset pointerBits bits base finalOffset)
      (readAt f pointerBits bits base finalOffset).1
      (readAt f pointerBits bits base finalOffset).2 := by
  have hstart := addOffset_runs (f := f) hbits base 0
  rw [sumWithin, if_neg hbase] at hstart
  unfold readAtOffset readAt
  by_cases hfits : 2 ^ pointerBits ≤ base.toNat
  · rw [if_pos (by simpa using hfits)] at hstart
    rw [if_pos hfits]
    exact hstart.bind (runs_pure _)
  have hadd : base + 0 = base := BitVec.add_zero base
  rw [if_neg (by simpa using hfits), hadd] at hstart
  rw [if_neg hfits]
  have hchase := followOffsets_runs (f := f) hbits [0xC, 0x44, finalOffset] base
  generalize chase f pointerBits [0xC, 0x44, finalOffset] base = found at hchase ⊢
  rcases found with ⟨status | address, reads⟩
  · exact hstart.bind (hchase.then_pure rfl)
  · exact hstart.bind (hchase.bind (runs_read bits address))

theorem finalStatus_error (bits : Nat) {status : NtStatus} (h : ntSuccess status = false) :
    (⟨status, 0, 0⟩ : MemoryReadResult bits).succeeded = false ∧
      (⟨status, 0, 0⟩ : MemoryReadResult bits).finalStatus = status := by
  have hs : (⟨status, 0, 0⟩ : MemoryReadResult bits).succeeded = false := by
    rw [MemoryReadResult.succeeded, h, Bool.false_and]
  refine ⟨hs, ?_⟩
  rw [MemoryReadResult.finalStatus, hs, if_neg (by decide), MemoryReadResult.failure,
    if_neg (by simp [h])]

section Report

variable {bits : Nat} {r : MemoryReadResult bits} {x y : BitVec bits → ULong}

theorem report_failed (hs : ¬r.succeeded) : report request r x y =
    { refuse request r.finalStatus with bytesRead := r.bytesRead.setWidth 32 } := by
  rw [report, if_neg fun h => hs h.1, if_neg fun h => hs h.1]
  rfl

theorem report_x (hs : r.succeeded) (hx : request.axis = Axis.x) : report request r x y =
    { refuse request r.finalStatus with
      bytesRead := r.bytesRead.setWidth 32, xBits := x r.value } := by
  rw [report, if_pos ⟨hs, by rw [hx]; decide⟩, if_neg fun h => h.2 hx]
  rfl

theorem report_y (hs : r.succeeded) (hy : request.axis = Axis.y) : report request r x y =
    { refuse request r.finalStatus with
      bytesRead := r.bytesRead.setWidth 32, yBits := y r.value } := by
  rw [report, if_neg fun h => h.2 hy, if_pos ⟨hs, by rw [hy]; decide⟩]
  rfl

theorem report_both (hs : r.succeeded) (hboth : request.axis = Axis.both) :
    report request r x y =
      { refuse request r.finalStatus with
        bytesRead := r.bytesRead.setWidth 32, xBits := x r.value, yBits := y r.value } := by
  rw [report, if_pos ⟨hs, by rw [hboth]; decide⟩, if_pos ⟨hs, by rw [hboth]; decide⟩]

end Report

theorem report_error {bits : Nat} {status : NtStatus} (h : ntSuccess status = false)
    (x y : BitVec bits → ULong) : report request ⟨status, 0, 0⟩ x y = refuse request status := by
  obtain ⟨hs, hfinal⟩ := finalStatus_error bits h
  rw [report, hfinal, hs, if_neg (by simp), if_neg (by simp)]
  rfl

/-- What is reported through `ReadAtOffset` is what the reference reports. -/
theorem report_readAt {bits : Nat} {pointerBits : Nat} {finalOffset : ULong}
    (x y : BitVec bits → ULong) :
    let r := readAt f pointerBits bits request.baseAddress finalOffset
    (report request r.1 x y, r.2) =
      if 2 ^ pointerBits ≤ request.baseAddress.toNat then
        (refuse request statusIntegerOverflow, [])
      else match chase f pointerBits [0xC, 0x44, finalOffset] request.baseAddress with
        | (.error status, reads) => (refuse request status, reads)
        | (.ok address, reads) => (report request (f bits address) x y,
            reads ++ [(bits, address)]) := by
  intro r
  by_cases hfits : 2 ^ pointerBits ≤ request.baseAddress.toNat
  · have hr : r = (⟨statusIntegerOverflow, 0, 0⟩, []) := if_pos hfits
    rw [hr, if_pos hfits, report_error rfl]
  have hr : r = _ := if_neg hfits
  rw [hr, if_neg hfits]
  rcases hchase : chase f pointerBits [0xC, 0x44, finalOffset] request.baseAddress
    with ⟨status | address, reads⟩
  · have herror : ntSuccess status = false := chase_error (congrArg Prod.fst hchase)
    exact congrArg (·, reads) (report_error herror x y)
  · rfl

theorem readCoordinateRequest_single {pointerBits : Nat} (hbits : pointerBits ≤ 64)
    (hbase : request.baseAddress ≠ 0) (haxis : request.axis = Axis.x ∨ request.axis = Axis.y) :
    let finalOffset := if request.axis = Axis.y then 0x218 else 0x214
    Runs f (readCoordinateRequest pointerBits request)
      (report request (readAt f pointerBits 32 request.baseAddress finalOffset).1
        (fun v => v) (fun v => v))
      (readAt f pointerBits 32 request.baseAddress finalOffset).2 := by
  have hrun : ∀ finalOffset, Runs f _ _ _ := readAtOffset_runs (f := f) hbits 32 hbase
  intro finalOffset
  unfold readCoordinateRequest
  rw [← List.append_nil (readAt _ _ _ _ _).2]
  rcases haxis with hx | hy
  · have hoffset : finalOffset = 0x214 := if_neg (by rw [hx]; decide)
    rw [hoffset, if_neg (by rw [hx]; decide), if_pos hx]
    refine (hrun 0x214).bind (runs_result (fun hs => ?_) fun hs => (report_failed hs).symm)
    rw [if_pos hx, report_x hs hx]
    rfl
  · have hoffset : finalOffset = 0x218 := if_pos hy
    have hnotx : request.axis ≠ Axis.x := by rw [hy]; decide
    rw [hoffset, if_neg (by rw [hy]; decide), if_neg hnotx]
    refine (hrun 0x218).bind (runs_result (fun hs => ?_) fun hs => (report_failed hs).symm)
    rw [if_neg hnotx, report_y hs hy]
    rfl

theorem readCoordinateRequest_both {pointerBits : Nat} (hbits : pointerBits ≤ 64)
    (hbase : request.baseAddress ≠ 0) (hboth : request.axis = Axis.both) :
    Runs f (readCoordinateRequest pointerBits request)
      (report request (readAt f pointerBits 64 request.baseAddress 0x214).1
        (fun v => v.setWidth 32) (fun v => (v >>> 32).setWidth 32))
      (readAt f pointerBits 64 request.baseAddress 0x214).2 := by
  have hrun := readAtOffset_runs (f := f) hbits 64 hbase 0x214
  unfold readCoordinateRequest
  rw [← List.append_nil (readAt _ _ _ _ _).2, if_pos hboth]
  refine hrun.bind (runs_result (fun hs => ?_) fun hs => (report_failed hs).symm)
  rw [report_both hs hboth]
  rfl

theorem table_offsets {levels : Nat}
    (h : request.reserved = 0 ∧ request.pointerBytes = 0 ∨ request.reserved = 1 ∨
      request.reserved = 2 ∨ request.reserved = 3 ∨ request.reserved = 4)
    (hlevels : levels = if request.reserved = 4 then 3 else request.reserved.toNat) :
    List.take levels [
      if request.reserved = 4 then 0xC else if request.reserved ≥ 2 then 4 else 0,
      if request.reserved = 4 then 0x44 else if request.reserved = 3 then 0xA8 else 0x900,
      if request.reserved = 4 then 0x210 else 0x20C] = offsets request := by
  subst hlevels
  rcases h with ⟨h, h'⟩ | h | h | h | h
  · rw [offsets, h, h']
    rfl
  · rw [offsets, h]
    rfl
  · rw [offsets, h]
    rfl
  · rw [offsets, h]
    rfl
  · rw [offsets, h]
    rfl

/-- The modes that follow 32-bit pointers and read a single dword. -/
theorem walk_reference {k : Except NtStatus ULongPtr → Memory Response}
    {x y : ULong → ULong} (hlegacy : legacy request = false)
    (herror : ∀ status, k (.error status) = pure (refuse request status))
    (hok : ∀ address, Runs f (k (.ok address)) (report request (f 32 address) x y) [(32, address)])
    (hfinal : ∀ address, report request (f 32 address) x y =
      if request.axis ≠ Axis.both then report request (f 32 address) (fun v => v) (fun v => v)
      else report request (f 32 address) (fun v => v &&& 0xFFFF) (fun v => v >>> 16))
    (hmode : request.axis = Axis.both → request.reserved = 5) :
    Runs f (walkPointers (offsets request) request.baseAddress >>= k) (reference f request).1
      (reference f request).2 := by
  have hwidth : pointerBits request = 32 := by rw [pointerBits, hlegacy]; rfl
  have hwalk := walkPointers_runs (f := f) (offsets request) request.baseAddress
  rw [reference, hlegacy, hwidth, if_neg (by simp)]
  generalize chase f 32 (offsets request) request.baseAddress = found at hwalk ⊢
  rcases found with ⟨status | address, reads⟩
  · exact hwalk.then_pure (herror status)
  · have hrun := hwalk.bind (hok address)
    rw [hfinal address] at hrun
    by_cases hboth : request.axis = Axis.both
    · rw [if_neg (not_not.mpr hboth)] at hrun
      dsimp only
      rw [if_neg (not_not.mpr hboth), if_pos (hmode hboth)]
      exact hrun
    · rw [if_pos hboth] at hrun
      dsimp only
      rw [if_pos hboth]
      exact hrun

theorem reference_single {finalOffset : ULong} (hlegacy : legacy request = true)
    (hoffsets : offsets request = [0xC, 0x44, finalOffset]) (hne : request.axis ≠ Axis.both) :
    reference f request =
      (report request (readAt f (pointerBits request) 32 request.baseAddress finalOffset).1
        (fun v => v) (fun v => v),
      (readAt f (pointerBits request) 32 request.baseAddress finalOffset).2) := by
  rw [report_readAt, reference, hlegacy, hoffsets]
  by_cases hfits : 2 ^ pointerBits request ≤ request.baseAddress.toNat
  · rw [if_pos ⟨rfl, hfits⟩, if_pos hfits]
  rw [if_neg fun h => hfits h.2, if_neg hfits]
  generalize chase f (pointerBits request) [0xC, 0x44, finalOffset] request.baseAddress = found
  rcases found with ⟨status | address, reads⟩
  · rfl
  · exact if_pos hne

theorem reference_both (hlegacy : legacy request = true)
    (hoffsets : offsets request = [0xC, 0x44, 0x214]) (hboth : request.axis = Axis.both) :
    reference f request =
      (report request (readAt f (pointerBits request) 64 request.baseAddress 0x214).1
        (fun v => v.setWidth 32) (fun v => (v >>> 32).setWidth 32),
      (readAt f (pointerBits request) 64 request.baseAddress 0x214).2) := by
  have hreserved : request.reserved ≠ 5 := by
    rw [(of_decide_eq_true hlegacy).1]
    decide
  rw [report_readAt, reference, hlegacy, hoffsets]
  by_cases hfits : 2 ^ pointerBits request ≤ request.baseAddress.toNat
  · rw [if_pos ⟨rfl, hfits⟩, if_pos hfits]
  rw [if_neg fun h => hfits h.2, if_neg hfits]
  generalize chase f (pointerBits request) [0xC, 0x44, 0x214] request.baseAddress = found
  rcases found with ⟨status | address, reads⟩
  · rfl
  · exact (if_neg (not_not.mpr hboth)).trans (if_neg hreserved)

theorem legacy_reference (hreserved : request.reserved = 0) (hbytes : request.pointerBytes ≠ 0)
    (hbase : request.baseAddress ≠ 0)
    (haxis : request.axis = Axis.x ∨ request.axis = Axis.y ∨ request.axis = Axis.both) :
    Runs f (readCoordinateRequest (pointerBits request) request) (reference f request).1
      (reference f request).2 := by
  have hlegacy : legacy request = true := decide_eq_true ⟨hreserved, hbytes⟩
  have hbits : pointerBits request ≤ 64 := by
    rw [pointerBits]
    split <;> decide
  have hoffsets : offsets request =
      [0xC, 0x44, if request.axis = Axis.y then 0x218 else 0x214] := by
    rw [offsets, hreserved, if_neg (by decide), if_neg (by decide), if_neg (by decide),
      if_neg (by decide), if_neg (by decide), if_neg hbytes]
    split <;> rfl
  have hsingle : request.axis = Axis.x ∨ request.axis = Axis.y →
      Runs f (readCoordinateRequest (pointerBits request) request) (reference f request).1
        (reference f request).2 := by
    intro h
    have hne : request.axis ≠ Axis.both := by rcases h with h | h <;> rw [h] <;> decide
    rw [reference_single hlegacy hoffsets hne]
    exact readCoordinateRequest_single hbits hbase h
  rcases haxis with hx | hy | hboth
  · exact hsingle (.inl hx)
  · exact hsingle (.inr hy)
  · rw [if_neg (by rw [hboth]; decide)] at hoffsets
    rw [reference_both hlegacy hoffsets hboth]
    exact readCoordinateRequest_both hbits hbase hboth

theorem packed_reference (hreserved : request.reserved = 5) (hboth : request.axis = Axis.both)
    (hvalid : validRequest request) :
    Runs f (dispatchCoordinateRequest request) (reference f request).1 (reference f request).2 := by
  have hlegacy : legacy request = false := by
    apply decide_eq_false
    rw [hreserved]
    exact fun h => absurd h.1 (by decide)
  have hoffsets : offsets request = [0x34, 0, 0x14, 0x0C] := by
    rw [offsets, hreserved]
    rfl
  unfold dispatchCoordinateRequest
  rw [if_neg (by simpa using hvalid), if_pos hreserved, ← hoffsets]
  refine walk_reference (x := fun v => v &&& 0xFFFF) (y := fun v => v >>> 16) hlegacy
    (fun _ => rfl) (fun address => (runs_read 32 address).bind (runs_result (fun hs => ?_)
      fun hs => (report_failed hs).symm)) (fun _ => (if_neg (not_not.mpr hboth)).symm)
    fun _ => hreserved
  rw [report_both hs hboth]
  rfl

theorem table_reference (hmode : request.reserved = 0 ∧ request.pointerBytes = 0 ∨
      request.reserved = 1 ∨ request.reserved = 2 ∨ request.reserved = 3 ∨ request.reserved = 4)
    (haxis : request.axis = Axis.x ∨ request.axis = Axis.y) (hvalid : validRequest request) :
    Runs f (dispatchCoordinateRequest request) (reference f request).1 (reference f request).2 := by
  have hne : request.axis ≠ Axis.both := by rcases haxis with h | h <;> rw [h] <;> decide
  have hreserved : request.reserved ≠ 5 := by
    rcases hmode with ⟨h, -⟩ | h | h | h | h <;> rw [h] <;> decide
  have hlegacy : legacy request = false := by
    apply decide_eq_false
    rintro ⟨h₀, hbytes⟩
    rcases hmode with ⟨-, h⟩ | h | h | h | h
    · exact hbytes h
    all_goals exact absurd (h₀.symm.trans h) (by decide)
  have htable : request.pointerBytes = 0 ∨ request.reserved = 1 ∨ request.reserved = 2 ∨
      request.reserved = 3 ∨ request.reserved = 4 := hmode.imp_left And.right
  unfold dispatchCoordinateRequest
  rw [if_neg (by simpa using hvalid), if_neg hreserved, if_pos htable]
  extract_lets table levels
  rw [show table.take levels = offsets request from table_offsets hmode rfl]
  refine walk_reference (x := fun v => v) (y := fun v => v) hlegacy (fun _ => rfl)
    (fun address => (runs_read 32 address).bind (runs_result (fun hs => ?_)
      fun hs => (report_failed hs).symm)) (fun _ => (if_pos hne).symm) fun h => absurd h hne
  rcases haxis with hx | hy
  · rw [if_neg (by rw [hx]; decide), report_x hs hx]
    rfl
  · rw [if_pos hy, report_y hs hy]
    rfl

theorem dispatchCoordinateRequest_runs (hvalid : validRequest request) :
    Runs f (dispatchCoordinateRequest request) (reference f request).1 (reference f request).2 := by
  obtain ⟨-, -, hmode, -, -, hbase, haxis, hbytes, -⟩ := of_decide_eq_true hvalid
  rcases hmode with h₀ | ⟨h, -, hx⟩ | ⟨h, -, hy⟩ | ⟨h, -, hx⟩ | ⟨h, -, hy⟩ | ⟨h, -, hboth, -⟩
  · rcases hbytes with ⟨hzero, hx⟩ | hwidth
    · exact table_reference (.inl ⟨h₀, hzero⟩) (.inl hx) hvalid
    have hne : request.pointerBytes ≠ 0 := by rcases hwidth with h | h <;> rw [h] <;> decide
    have hlegacy : legacy request = true := decide_eq_true ⟨h₀, hne⟩
    have hrun := legacy_reference (f := f) h₀ hne hbase haxis
    unfold dispatchCoordinateRequest
    rw [if_neg (by simpa using hvalid), if_neg (by rw [h₀]; decide),
      if_neg (by rw [h₀]; simpa using hne)]
    rcases hwidth with h | h
    · rw [if_pos h]
      rwa [pointerBits, if_neg fun hc => absurd (h.symm.trans hc.2) (by decide)] at hrun
    · rw [if_neg (by rw [h]; decide)]
      rwa [pointerBits, if_pos ⟨hlegacy, h⟩] at hrun
  · exact table_reference (.inr (.inl h)) (.inl hx) hvalid
  · exact table_reference (.inr (.inr (.inl h))) (.inr hy) hvalid
  · exact table_reference (.inr (.inr (.inr (.inl h)))) (.inl hx) hvalid
  · exact table_reference (.inr (.inr (.inr (.inr h)))) (.inr hy) hvalid
  · exact packed_reference h hboth hvalid

theorem reference_failed (h : ntSuccess (reference f request).1.status = false) :
    (reference f request).1.xBits = 0 ∧ (reference f request).1.yBits = 0 := by
  have hrefuse : ∀ status, (refuse request status).xBits = 0 ∧ (refuse request status).yBits = 0 :=
    fun _ => ⟨rfl, rfl⟩
  have hreport : ∀ {bits : Nat} {r : MemoryReadResult bits} {x y : BitVec bits → ULong},
      ntSuccess (report request r x y).status = false →
        (report request r x y).xBits = 0 ∧ (report request r x y).yBits = 0 := by
    intro bits r x y hstatus
    by_cases hs : r.succeeded
    · have hfinal : (report request r x y).status = statusSuccess := if_pos hs
      rw [hfinal] at hstatus
      cases hstatus
    · rw [report_failed hs]
      exact ⟨rfl, rfl⟩
  revert h
  rw [reference]
  by_cases hfits : legacy request ∧ 2 ^ pointerBits request ≤ request.baseAddress.toNat
  · rw [if_pos hfits]
    exact fun _ => hrefuse _
  rw [if_neg hfits]
  generalize chase f (pointerBits request) (offsets request) request.baseAddress = found
  rcases found with ⟨status | address, reads⟩
  · exact fun _ => hrefuse _
  dsimp only
  by_cases hboth : request.axis ≠ Axis.both
  · rw [if_pos hboth]
    exact hreport
  rw [if_neg hboth]
  by_cases hpacked : request.reserved = 5
  · rw [if_pos hpacked]
    exact hreport
  · rw [if_neg hpacked]
    exact hreport

/-- The dispatcher answers like the reference chase, after the very same reads. -/
theorem dispatchCoordinateRequest_reference (f : Reader) (request : Request)
    (hvalid : validRequest request) :
    let run := (dispatchCoordinateRequest request).run (answering f) []
    run.1 = (reference f request).1 ∧ readsOf run.2 = (reference f request).2 ∧
      (ntSuccess run.1.status = false → run.1.xBits = 0 ∧ run.1.yBits = 0) := by
  obtain ⟨hresponse, hreads⟩ := dispatchCoordinateRequest_runs (f := f) hvalid []
  refine ⟨hresponse, hreads, fun hfailed => ?_⟩
  rw [hresponse] at hfailed ⊢
  exact reference_failed hfailed

theorem dispatchCoordinateRequest_reference_sample :
    let f : Reader := fun bits address => ⟨statusSuccess, byteSize bits, address.setWidth bits⟩
    let request : Request := ⟨3, sizeofRequest, 7, 0x1000, Axis.y, 4, ValueType.int32, 4⟩
    let run := (dispatchCoordinateRequest request).run (answering f) []
    run.1 = (reference f request).1 ∧ readsOf run.2 = (reference f request).2 ∧
      (ntSuccess run.1.status = false → run.1.xBits = 0 ∧ run.1.yBits = 0) :=
  dispatchCoordinateRequest_reference _ _ (by decide)

end Requests

end DarkEden.PointerChase
