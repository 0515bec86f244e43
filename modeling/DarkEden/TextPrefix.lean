import DarkEden.Requests

namespace DarkEden.TextPrefix

open Interaction ByteMemory Memory

/-- The reads of a run with what they came back with, in order. -/
def readings (l : ReaderLog) : List ((bits : Nat) × ULongPtr × MemoryReadResult bits) :=
  l.filterMap fun e => match e.1, e.2 with
    | .read bits address, r => some ⟨bits, address, r⟩
    | _, _ => none

theorem readings_append (l : ReaderLog) (e : Sigma ReaderAns) :
    readings (l ++ [e]) = readings l ++ readings [e] := List.filterMap_append

section Units

/-- The answer for one unit of a text whose units are `w` bytes wide. -/
abbrev Answer (w : Nat) := MemoryReadResult (8 * w)

variable (a : ULongPtr) (w : Nat)

def unitAddress (i : Nat) : ULongPtr := a + BitVec.ofNat 64 (w * i)

/-- The units from `a` on are read one after the other. -/
def transcript (answers : List (Answer w)) :
    List ((bits : Nat) × ULongPtr × MemoryReadResult bits) :=
  answers.mapIdx fun i r => ⟨8 * w, unitAddress a w i, r⟩

theorem transcript_append (answers : List (Answer w)) (r : Answer w) :
    transcript a w (answers ++ [r]) =
      transcript a w answers ++ [⟨8 * w, unitAddress a w answers.length, r⟩] :=
  List.mapIdx_concat

/-- Readable units other than zero, at 32-bit addresses, that fit the response. -/
structure Stored (stored : List (Answer w)) : Prop where
  fits : w * stored.length ≤ 256
  inRange : ∀ i < stored.length, a.toNat + w * i ≤ 0xFFFFFFFF
  readable : ∀ r ∈ stored, r.succeeded
  nonzero : ∀ r ∈ stored, r.value ≠ 0

/-- What ends a text after the units that were stored: all answers, the status, and the flag
that reports a terminator. -/
inductive Stops (stored : List (Answer w)) : List (Answer w) → NtStatus → ULong → Prop
  | terminator {r : Answer w} (hroom : w * (stored.length + 1) ≤ 256)
      (hrange : a.toNat + w * stored.length ≤ 0xFFFFFFFF) (hs : r.succeeded) (hzero : r.value = 0) :
      Stops stored (stored ++ [r]) statusSuccess 1
  | unreadable {r : Answer w} (hroom : w * (stored.length + 1) ≤ 256)
      (hrange : a.toNat + w * stored.length ≤ 0xFFFFFFFF) (hs : ¬r.succeeded) :
      Stops stored (stored ++ [r]) r.failure 0
  | overflow (hroom : w * (stored.length + 1) ≤ 256)
      (hrange : a.toNat + w * stored.length > 0xFFFFFFFF) :
      Stops stored stored statusIntegerOverflow 0
  | full (hfull : w * stored.length = 256) : Stops stored stored statusSuccess 0

def unitBytes (stored : List (Answer w)) (i : Nat) : Byte :=
  match stored[i / w]? with
  | some r => byteOf r.value.toNat (i % w)
  | none => 0

def holding (response : TextResponse) (stored : List (Answer w)) : TextResponse :=
  { response with
    textAddress := a
    bytesRead := BitVec.ofNat 32 (w * stored.length)
    data := fun i => unitBytes w stored i }

/-- The response to a text of which the answers are the units that were read. -/
def Preview (before : TextResponse) (answers : List (Answer w)) (response : TextResponse) : Prop :=
  ∃ stored status terminated, Stored a w stored ∧ Stops a w stored answers status terminated ∧
    response = { holding a w before stored with status := status, terminated := terminated }

/-- A zero unit lies wholly within the first 256 bytes, and no unit up to it is unreadable
or lies above 4 GiB. -/
def Terminated (units : Nat → Answer w) : Prop :=
  ∃ i, w * (i + 1) ≤ 256 ∧ (units i).value = 0 ∧
    ∀ j ≤ i, a.toNat + w * j ≤ 0xFFFFFFFF ∧ (units j).succeeded

variable {a w}

/-- The terminator is reported exactly if there is one, whatever lies behind the units read. -/
theorem terminated_iff {before response : TextResponse} {answers : List (Answer w)}
    (h : Preview a w before answers response) {units : Nat → Answer w}
    (hunits : ∀ i r, answers[i]? = some r → units i = r) :
    response.terminated = 1 ↔ Terminated a w units := by
  obtain ⟨stored, status, terminated, hstored, hstops, rfl⟩ := h
  change terminated = 1 ↔ _
  -- The units before the stop are the stored ones, so none of them is zero.
  have hfront : ∀ {rest : List (Answer w)}, answers = stored ++ rest → ∀ i < stored.length,
      units i ∈ stored := by
    intro rest hanswers i hi
    have hget : answers[i]? = some stored[i] := by
      rw [hanswers, List.getElem?_append_left hi, List.getElem?_eq_getElem hi]
    rw [hunits i _ hget]
    exact List.getElem_mem hi
  have hbeyond : ∀ {rest : List (Answer w)}, answers = stored ++ rest → Terminated a w units →
      ∃ i, stored.length ≤ i ∧ w * (i + 1) ≤ 256 ∧ (units i).value = 0 ∧
        ∀ j ≤ i, a.toNat + w * j ≤ 0xFFFFFFFF ∧ (units j).succeeded := by
    intro rest hanswers ⟨i, hroom, hzero, hbefore⟩
    refine ⟨i, Nat.le_of_not_lt fun hi => ?_, hroom, hzero, hbefore⟩
    exact hstored.nonzero _ (hfront hanswers i hi) hzero
  have hlast : ∀ {r : Answer w}, answers = stored ++ [r] → units stored.length = r := by
    intro r hanswers
    apply hunits
    rw [hanswers, List.getElem?_append_right (Nat.le_refl _), Nat.sub_self]
    rfl
  cases hstops with
  | @terminator r hroom hrange hs hzero =>
    refine ⟨fun _ => ⟨stored.length, hroom, by rw [hlast rfl]; exact hzero, fun j hj => ?_⟩,
      fun _ => rfl⟩
    obtain hlt | rfl := Nat.lt_or_eq_of_le hj
    · exact ⟨hstored.inRange j hlt, hstored.readable _ (hfront rfl j hlt)⟩
    · exact ⟨hrange, by rw [hlast rfl]; exact hs⟩
  | @unreadable r hroom hrange hs =>
    refine ⟨nofun, fun h => ?_⟩
    obtain ⟨i, hi, -, -, hbefore⟩ := hbeyond rfl h
    exact absurd (hlast rfl ▸ (hbefore _ hi).2) hs
  | overflow hroom hrange =>
    refine ⟨nofun, fun h => ?_⟩
    obtain ⟨i, hi, -, -, hbefore⟩ := hbeyond (List.append_nil _).symm h
    exact absurd (hbefore _ hi).1 (Nat.not_le_of_lt hrange)
  | full hfull =>
    refine ⟨nofun, fun h => ?_⟩
    obtain ⟨i, hi, hroom, -⟩ := hbeyond (List.append_nil _).symm h
    have hlt : w * answers.length < w * (i + 1) := by
      have hw : 0 < w := Nat.pos_of_ne_zero fun hw => by simp [hw] at hfull
      exact Nat.mul_lt_mul_of_pos_left (Nat.lt_succ_of_le hi) hw
    omega

end Units

section Loop

def storeUnit (w : Nat) (data : Fin 256 → Byte) (index value : Nat) : Fin 256 → Byte :=
  fun i => if index ≤ i ∧ i < index + w then byteOf value (i - index) else data i

def readUnit (w : Nat) (a : ULongPtr) (s : ULong × TextResponse) :
    Memory ((ULong × TextResponse) ⊕ TextResponse) := do
  let (index, response) := s
  if index + BitVec.ofNat 32 w > 256 then return .inr { response with status := statusSuccess }
  note (.field a (index.setWidth 64))
  if a > (0xFFFFFFFF - index).setWidth 64 then
    return .inr { response with status := statusIntegerOverflow }
  let address ← addAddress a (index.setWidth 64)
  let r ← read (8 * w) address
  if !r.succeeded then return .inr { response with status := r.failure }
  if r.value = 0 then return .inr { response with terminated := 1, status := statusSuccess }
  return .inl (index + BitVec.ofNat 32 w, { response with
    data := storeUnit w response.data index.toNat r.value.toNat
    bytesRead := response.bytesRead + BitVec.ofNat 32 w })

theorem storeByte_eq (data : Fin 256 → Byte) (index : Nat) (value : BitVec 8) :
    storeByte data index value = storeUnit 1 data index value.toNat := by
  funext i
  rw [storeByte, storeUnit]
  by_cases hi : i.val = index
  · rw [if_pos hi, if_pos (by omega), hi, Nat.sub_self, byteOf, Nat.pow_zero, Nat.div_one,
      BitVec.ofNat_toNat, BitVec.setWidth_eq]
  · rw [if_neg hi, if_neg (by omega)]

theorem storeBytes_eq (data : Fin 256 → Byte) (index : Nat) (value : BitVec 16) :
    storeByte (storeByte data index (value.setWidth 8)) (index + 1) ((value >>> 8).setWidth 8) =
      storeUnit 2 data index value.toNat := by
  funext i
  rw [storeByte, storeByte, storeUnit]
  by_cases hhigh : i.val = index + 1
  · rw [if_pos hhigh, if_pos (by omega), hhigh, Nat.add_sub_cancel_left, byteOf]
    apply BitVec.eq_of_toNat_eq
    simp only [BitVec.toNat_setWidth, BitVec.toNat_ofNat, BitVec.toNat_ushiftRight,
      Nat.shiftRight_eq_div_pow]
    rfl
  rw [if_neg hhigh]
  by_cases hlow : i.val = index
  · rw [if_pos hlow, if_pos (by omega), hlow, Nat.sub_self, byteOf, Nat.pow_zero, Nat.div_one]
    exact (BitVec.ofNat_toNat 8 value).symm
  · rw [if_neg hlow, if_neg (by omega)]

theorem readCharacter_eq {w : Nat} (hw : w = 1 ∨ w = 2) (a : ULongPtr) (s : ULong × TextResponse) :
    readCharacter a (BitVec.ofNat 32 w) s = readUnit w a s := by
  obtain ⟨index, response⟩ := s
  obtain rfl | rfl := hw
  · simp only [readCharacter, readUnit, storeByte_eq]
    rfl
  · simp only [readCharacter, readUnit, storeBytes_eq]
    rfl

variable {C : Contract ReaderAns} {a : ULongPtr} {w : Nat} {l₀ l : ReaderLog}

structure Heard (C : Contract ReaderAns) (a : ULongPtr) (w : Nat) (l₀ : ReaderLog)
    (answers : List (Answer w)) (l : ReaderLog) : Prop where
  readings : readings l = readings l₀ ++ transcript a w answers
  relied : ∀ i r, answers[i]? = some r → ∃ l₁, C.rely l₁ (.read (8 * w) (unitAddress a w i)) r

theorem Heard.snoc {answers : List (Answer w)} {l₁ : ReaderLog} {r : Answer w}
    (h : Heard C a w l₀ answers l) (hreadings : TextPrefix.readings l₁ = TextPrefix.readings l)
    (hr : C.rely l₁ (.read (8 * w) (unitAddress a w answers.length)) r) :
    Heard C a w l₀ (answers ++ [r])
      (l₁ ++ [⟨.read (8 * w) (unitAddress a w answers.length), r⟩]) := by
  constructor
  · rw [readings_append, hreadings, h.readings, transcript_append, List.append_assoc]
    rfl
  · intro i r' hi
    obtain hlt | hge := Nat.lt_or_ge i answers.length
    · rw [List.getElem?_append_left hlt] at hi
      exact h.relied i r' hi
    · rw [List.getElem?_append_right hge] at hi
      rw [List.getElem?_singleton, Option.ite_none_right_eq_some] at hi
      obtain ⟨hzero, heq⟩ := hi
      obtain rfl := Option.some.inj heq
      obtain rfl : i = answers.length := by omega
      exact ⟨l₁, hr⟩

theorem unitBytes_snoc (hw : 0 < w) (stored : List (Answer w)) (r : Answer w) (i : Nat) :
    unitBytes w (stored ++ [r]) i = if w * stored.length ≤ i ∧ i < w * stored.length + w then
      byteOf r.value.toNat (i - w * stored.length) else unitBytes w stored i := by
  have hdiv := Nat.div_add_mod i w
  have hmod := Nat.mod_lt i hw
  rw [unitBytes, unitBytes]
  obtain hlt | heq | hgt := Nat.lt_trichotomy (i / w) stored.length
  · have hle : w * (i / w + 1) ≤ w * stored.length := Nat.mul_le_mul_left w hlt
    rw [Nat.mul_succ] at hle
    rw [List.getElem?_append_left hlt, if_neg (by omega)]
  · have hi : i - w * stored.length = i % w := by
      rw [← heq]
      omega
    rw [List.getElem?_append_right (Nat.le_of_eq heq.symm), heq, Nat.sub_self, hi,
      if_pos (by rw [← heq]; omega)]
    rfl
  · have hle : w * (stored.length + 1) ≤ w * (i / w) := Nat.mul_le_mul_left w hgt
    rw [Nat.mul_succ] at hle
    rw [List.getElem?_eq_none (by rw [List.length_append]; exact hgt),
      List.getElem?_eq_none (Nat.le_of_lt hgt), if_neg (by omega)]

theorem holding_snoc (hw : 0 < w) (before : TextResponse) {stored : List (Answer w)} (r : Answer w)
    (hfits : w * stored.length ≤ 256) :
    holding a w before (stored ++ [r]) = { holding a w before stored with
      data := storeUnit w (holding a w before stored).data
        (BitVec.ofNat 32 (w * stored.length)).toNat r.value.toNat
      bytesRead := (holding a w before stored).bytesRead + BitVec.ofNat 32 w } := by
  have hindex : (BitVec.ofNat 32 (w * stored.length)).toNat = w * stored.length := by
    rw [BitVec.toNat_ofNat, Nat.mod_eq_of_lt (by omega)]
  have hdata : (holding a w before (stored ++ [r])).data =
      storeUnit w (holding a w before stored).data (w * stored.length) r.value.toNat := by
    funext i
    exact unitBytes_snoc hw stored r i
  have hbytes : (holding a w before (stored ++ [r])).bytesRead =
      (holding a w before stored).bytesRead + BitVec.ofNat 32 w := by
    change BitVec.ofNat 32 (w * (stored ++ [r]).length) = _
    rw [List.length_append, List.length_singleton, Nat.mul_succ, BitVec.ofNat_add]
    rfl
  rw [hindex, ← hdata, ← hbytes]
  rfl

theorem Stored.snoc {stored : List (Answer w)} (hstored : Stored a w stored) {r : Answer w}
    (hroom : w * (stored.length + 1) ≤ 256) (hrange : a.toNat + w * stored.length ≤ 0xFFFFFFFF)
    (hs : r.succeeded) (hne : r.value ≠ 0) : Stored a w (stored ++ [r]) := by
  constructor
  · rwa [List.length_append]
  · intro i hi
    rw [List.length_append, List.length_singleton] at hi
    have hle : w * i ≤ w * stored.length := Nat.mul_le_mul_left w (Nat.le_of_lt_succ hi)
    omega
  · intro r' hr'
    obtain h | h := List.mem_append.mp hr'
    · exact hstored.readable r' h
    · rwa [List.mem_singleton.mp h]
  · intro r' hr'
    obtain h | h := List.mem_append.mp hr'
    · exact hstored.nonzero r' h
    · rwa [List.mem_singleton.mp h]

theorem wp_readUnit (hguar : ∀ l o, C.guar l o) (hw : w = 1 ∨ w = 2)
    (ha : a.toNat ≤ 0xFFFFFFFF) {before : TextResponse} (hbefore : before.terminated = 0)
    {stored : List (Answer w)} (hstored : Stored a w stored) (hheard : Heard C a w l₀ stored l) :
    wp C (readUnit w a (BitVec.ofNat 32 (w * stored.length), holding a w before stored)) l
      fun s l' => Sum.elim
        (fun s => ∃ r, Stored a w (stored ++ [r]) ∧ Heard C a w l₀ (stored ++ [r]) l' ∧
          s = (BitVec.ofNat 32 (w * (stored ++ [r]).length), holding a w before (stored ++ [r])))
        (fun response => ∃ answers, Heard C a w l₀ answers l' ∧
          Preview a w before answers response) s := by
  have hfits := hstored.fits
  have hpos : 0 < w := by omega
  have hdata : ∀ status, ({ holding a w before stored with status := status } : TextResponse) =
      { holding a w before stored with status := status, terminated := 0 } := by
    intro status
    rw [← hbefore]
    rfl
  have hnext : BitVec.ofNat 32 (w * stored.length) + BitVec.ofNat 32 w =
      BitVec.ofNat 32 (w * (stored.length + 1)) := by
    rw [Nat.mul_succ, BitVec.ofNat_add]
  have hroom_iff : BitVec.ofNat 32 (w * stored.length) + BitVec.ofNat 32 w > 256 ↔
      256 < w * (stored.length + 1) := by
    rw [hnext, gt_iff_lt, BitVec.lt_def, BitVec.toNat_ofNat, Nat.mod_eq_of_lt (by
      rw [Nat.mul_succ]
      omega)]
    rfl
  have hrange_iff : a > (0xFFFFFFFF - BitVec.ofNat 32 (w * stored.length)).setWidth 64 ↔
      a.toNat + w * stored.length > 0xFFFFFFFF := by
    bv_omega
  rw [readUnit, wp_ite]
  refine ⟨fun hroom => ?_, fun hroom => ?_⟩
  · rw [hroom_iff, Nat.mul_succ] at hroom
    refine ⟨stored, hheard, stored, _, _, hstored, .full ?_, hdata _⟩
    obtain rfl | rfl := hw <;> omega
  rw [hroom_iff, Nat.not_lt] at hroom
  refine wp_ask_bind.mpr ⟨hguar _ _, fun _ _ => ?_⟩
  rw [wp_ite, hrange_iff]
  refine ⟨fun hrange => ⟨stored, ?_, stored, _, _, hstored, .overflow hroom hrange, hdata _⟩,
    fun hrange => ?_⟩
  · exact ⟨by rw [readings_append, hheard.readings]; exact List.append_nil _, hheard.relied⟩
  rw [gt_iff_lt, Nat.not_lt] at hrange
  refine ⟨hguar _ _, fun _ _ => ?_⟩
  have haddress : a + (BitVec.ofNat 32 (w * stored.length)).setWidth 64 =
      unitAddress a w stored.length := by
    rw [unitAddress]
    bv_omega
  rw [haddress]
  refine wp_ask_bind.mpr ⟨hguar _ _, fun r hr => ?_⟩
  have hheard' := hheard.snoc (by rw [readings_append, readings_append]; simp [readings]) hr
  rw [wp_ite]
  refine ⟨fun hs => ?_, fun hs => ?_⟩
  · exact ⟨_, hheard', stored, _, _, hstored, .unreadable hroom hrange (by simpa using hs), hdata _⟩
  have hs' : r.succeeded = true := by simpa using hs
  rw [wp_ite]
  refine ⟨fun hzero => ?_, fun hzero => ?_⟩
  · exact ⟨_, hheard', stored, _, _, hstored, .terminator hroom hrange hs' hzero, rfl⟩
  · refine ⟨r, hstored.snoc hroom hrange hs' hzero, hheard', ?_⟩
    rw [holding_snoc hpos before r hfits, hnext, List.length_append]
    rfl

structure Zeroed (response : TextResponse) : Prop where
  bytesRead : response.bytesRead = 0
  terminated : response.terminated = 0
  data : response.data = fun _ => 0

theorem holding_nil {before : TextResponse} (hzeroed : Zeroed before) :
    holding a w before [] = { before with textAddress := a } := by
  have hdata : (fun i : Fin 256 => unitBytes w [] i) = before.data := by
    rw [hzeroed.data]
    rfl
  have hbytes : BitVec.ofNat 32 (w * ([] : List (Answer w)).length) = before.bytesRead := by
    rw [hzeroed.bytesRead]
    rfl
  rw [holding, hdata, hbytes]

/-- The loop ends by itself: every pass stores a unit, and the response has room for 256. -/
theorem wp_readTextAtAddress (hguar : ∀ l o, C.guar l o) (hw : w = 1 ∨ w = 2) (hzero : a ≠ 0)
    (ha : a ≤ 0xFFFFFFFF) {before : TextResponse} (hzeroed : Zeroed before) (l : ReaderLog) :
    wp C (readTextAtAddress a (BitVec.ofNat 32 w) before) l fun response l' =>
      ∃ answers, Heard C a w l answers l' ∧ Preview a w before answers response := by
  have hwidth : ¬(BitVec.ofNat 32 w ≠ 1 ∧ BitVec.ofNat 32 w ≠ 2) := by
    obtain rfl | rfl := hw
    · exact fun h => h.1 rfl
    · exact fun h => h.2 rfl
  have hlow : ¬(a = 0 ∨ a > 0xFFFFFFFF) := not_or.mpr ⟨hzero, BitVec.not_lt.mpr ha⟩
  rw [readTextAtAddress, if_neg hwidth, if_neg hlow, funext (readCharacter_eq hw a)]
  change wp C (Program.loop _ _ _ >>= fun stopped => pure (stopped.getD _)) _ _
  rw [wp_bind]
  have hstart : Heard C a w l [] l := ⟨(List.append_nil _).symm, nofun⟩
  have hstart' : Stored a w [] := ⟨Nat.zero_le _, nofun, nofun, nofun⟩
  apply wp_loop fun n s l' => ∃ stored, Stored a w stored ∧ Heard C a w l stored l' ∧
    s = (BitVec.ofNat 32 (w * stored.length), holding a w before stored) ∧
    257 ≤ n + stored.length
  · rintro n s l' ⟨stored, hstored, hheard, rfl, hn⟩
    refine wp_mono (wp_readUnit hguar hw ha hzeroed.terminated hstored hheard) fun r l'' hr => ?_
    cases r with
    | inl s =>
      obtain ⟨unit, hstored, hheard, hs⟩ := hr
      refine ⟨_, hstored, hheard, hs, ?_⟩
      rw [List.length_append, List.length_singleton]
      omega
    | inr response => exact hr
  · rintro s l' ⟨stored, hstored, -, -, hn⟩
    have hfits := hstored.fits
    obtain rfl | rfl := hw <;> omega
  · refine ⟨[], hstart', hstart, ?_, Nat.le_refl 257⟩
    rw [holding_nil hzeroed]
    rfl

end Loop

section Chains

variable {C : Contract ReaderAns} {l : ReaderLog}

/-- The address at the end of pointers is a string address, as each sum of one is checked. -/
theorem wp_walkPointers_range (hguar : ∀ l o, C.guar l o) (offsets : List ULong)
    {address : ULongPtr} (haddress : offsets = [] → address ≠ 0 ∧ address ≤ 0xFFFFFFFF) :
    wp C (walkPointers offsets address) l fun r _ => ∀ a, r = .ok a → a ≠ 0 ∧ a ≤ 0xFFFFFFFF := by
  induction offsets generalizing address l with
  | nil =>
    intro a ha
    obtain rfl := Except.ok.inj ha
    exact haddress rfl
  | cons offset offsets ih =>
    rw [walkPointers]
    refine wp_ask_bind.mpr ⟨hguar _ _, fun pointer _ => ?_⟩
    rw [wp_ite]
    refine ⟨fun _ => nofun, fun _ => ?_⟩
    rw [wp_ite]
    refine ⟨fun _ => nofun, fun hzero => ?_⟩
    refine wp_ask_bind.mpr ⟨hguar _ _, fun _ _ => ?_⟩
    rw [wp_ite]
    refine ⟨fun _ => nofun, fun hroom => ⟨hguar _ _, fun _ _ => ih fun _ => ?_⟩⟩
    constructor <;> bv_omega

/-- Only the units of the text are read, up to the first that stops it, and the response tells
what they were. -/
def IsPreview (a : ULongPtr) (w : Nat) (before : TextResponse) (l : ReaderLog)
    (run : TextResponse × ReaderLog) : Prop :=
  ∃ answers, readings run.2 = readings l ++ transcript a w answers ∧
    Preview a w before answers run.1 ∧
    ∀ units : Nat → Answer w, (∀ i r, answers[i]? = some r → units i = r) →
      (run.1.terminated = 1 ↔ Terminated a w units)

theorem readTextAtAddress_preview (env : Env ReaderAns) {a : ULongPtr} {w : Nat}
    (hw : w = 1 ∨ w = 2) (hzero : a ≠ 0) (ha : a ≤ 0xFFFFFFFF) {before : TextResponse}
    (hzeroed : Zeroed before) (l : ReaderLog) :
    IsPreview a w before l ((readTextAtAddress a (BitVec.ofNat 32 w) before).run env l) := by
  obtain ⟨answers, hheard, hpreview⟩ := run_of_wp (C := .ofEnv env) (fun _ _ => rfl)
    (wp_readTextAtAddress (fun _ _ => trivial) hw hzero ha hzeroed l)
  exact ⟨answers, hheard.readings, hpreview, fun units hunits => terminated_iff hpreview hunits⟩

/-- A text of either width is the bounded prefix of what lies at its address, be that given or
found at the end of pointers. -/
theorem text_preview (env : Env ReaderAns) {w : Nat} (hw : w = 1 ∨ w = 2) {before : TextResponse}
    (hzeroed : Zeroed before) (l : ReaderLog) :
    (∀ a : ULongPtr, a ≠ 0 → a ≤ 0xFFFFFFFF →
      IsPreview a w before l ((readTextAtAddress a (BitVec.ofNat 32 w) before).run env l)) ∧
    (∀ slot, let pointer : MemoryReadResult 32 := env l (.read 32 slot)
      pointer.succeeded → pointer.value ≠ 0 →
        IsPreview (pointer.value.setWidth 64) w before (l ++ [⟨.read 32 slot, pointer⟩])
          ((readPointedText slot (BitVec.ofNat 32 w) before).run env l)) ∧
    (∀ root a, let walked := (walkPointers [0x34, 0, 0x14, 0x544, 0] root).run env l
      walked.1 = .ok a → IsPreview a w before walked.2
        ((readOtherCharacterText root (BitVec.ofNat 32 w) before).run env l)) := by
  have hwidth : ¬(BitVec.ofNat 32 w ≠ 1 ∧ BitVec.ofNat 32 w ≠ 2) := by
    obtain rfl | rfl := hw
    · exact fun h => h.1 rfl
    · exact fun h => h.2 rfl
  refine ⟨fun a hzero ha => readTextAtAddress_preview env hw hzero ha hzeroed l, ?_, ?_⟩
  · intro slot pointer hs hvalue
    have hrun : (readPointedText slot (BitVec.ofNat 32 w) before).run env l =
        (readTextAtAddress (pointer.value.setWidth 64) (BitVec.ofNat 32 w) before).run env
          (l ++ [⟨.read 32 slot, pointer⟩]) := by
      rw [readPointedText, if_neg hwidth]
      change Program.run env (if _ then _ else _) _ = _
      rw [if_neg (by simpa using hs)]
    rw [hrun]
    refine readTextAtAddress_preview env hw ?_ ?_ hzeroed _ <;> bv_omega
  · intro root a walked ha
    have hends : wp (.ofEnv env) (walkPointers [0x34, 0, 0x14, 0x544, 0] root) l fun r _ =>
        ∀ a, r = .ok a → a ≠ 0 ∧ a ≤ 0xFFFFFFFF :=
      wp_walkPointers_range (fun _ _ => trivial) _ nofun
    have hrange := run_of_wp (fun _ _ => rfl) hends a ha
    have hrun : (readOtherCharacterText root (BitVec.ofNat 32 w) before).run env l =
        (readTextAtAddress a (BitVec.ofNat 32 w) before).run env walked.2 := by
      have hwalked : ((walkPointers [0x34, 0, 0x14, 0x544, 0] root).run env l).1 = .ok a := ha
      rw [readOtherCharacterText, if_neg hwidth, Program.run_bind, hwalked]
    rw [hrun]
    exact readTextAtAddress_preview env hw hrange.1 hrange.2 hzeroed _

/-- Every pointer leads to `0x1000`, where the text `A` lies. -/
def letterEnv : Env ReaderAns := fun _ o =>
  match o with
  | .note _ => ()
  | .resolveImageOffset offset => ⟨statusSuccess, offset⟩
  | .read bits address =>
    ⟨statusSuccess, byteSize bits,
      if address = 0x1000 ∧ bits = 8 then 0x41 else if address = 0x1001 then 0 else 0x1000⟩
  | .writeUInt32 _ _ => statusSuccess

theorem text_preview_sample :
    let response := newTextResponse statusSuccess
    IsPreview 0x1000 1 response [] ((readTextAtAddress 0x1000 1 response).run letterEnv []) ∧
      IsPreview 0x1000 1 response [⟨.read 32 8, (letterEnv [] (.read 32 8) : MemoryReadResult 32)⟩]
        ((readPointedText 8 1 response).run letterEnv []) ∧
      IsPreview 0x1000 1 response ((walkPointers [0x34, 0, 0x14, 0x544, 0] 8).run letterEnv []).2
        ((readOtherCharacterText 8 1 response).run letterEnv []) := by
  intro response
  obtain ⟨htext, hpointed, hother⟩ := text_preview letterEnv (.inl rfl)
    (⟨rfl, rfl, rfl⟩ : Zeroed response) []
  exact ⟨htext 0x1000 (by decide) (by decide), hpointed 8 (by decide) (by decide), hother 8 0x1000 rfl⟩

end Chains

end DarkEden.TextPrefix
