import DarkEden.Quiescent
import DarkEden.Walkers

namespace DarkEden.PairReads

open Interaction ByteMemory Memory CoordinateReader Protocol ReaderRules
open PointerChase (sumWithin)

variable {sys : Platform} (T : Target sys) (reader : KernelProcessMemoryReader)

/-- What a reader sees of the target. -/
def view (bits : Nat) (a : ULongPtr) : Option (BitVec bits) :=
  if T.ready reader then T.peek T.byte bits a else none

def follow (pointerBits : Nat) : List ULong → ULongPtr → Option ULongPtr
  | [], a => some a
  | offset :: offsets, a => do
    let pointer ← view T reader pointerBits a
    let a ← (sumWithin pointerBits (pointer.setWidth 64) (offset.setWidth 64)).toOption
    follow pointerBits offsets a

def third (pointerBits : Nat) (base : ULongPtr) : Option (BitVec pointerBits) := do
  let a ← (sumWithin pointerBits base 0).toOption
  let a ← follow T reader pointerBits [0xC, 0x44] a
  view T reader pointerBits a

def valueAt (pointerBits bits : Nat) (base : ULongPtr) (finalOffset : ULong) :
    Option (BitVec bits) := do
  let pointer ← third T reader pointerBits base
  let a ← (sumWithin pointerBits (pointer.setWidth 64) (finalOffset.setWidth 64)).toOption
  view T reader bits a

section Runs

variable {T reader}

theorem follow_snoc (pointerBits : Nat) (offsets : List ULong) (offset : ULong) (a : ULongPtr) :
    follow T reader pointerBits (offsets ++ [offset]) a =
      (follow T reader pointerBits offsets a >>= view T reader pointerBits) >>= fun pointer =>
        (sumWithin pointerBits (pointer.setWidth 64) (offset.setWidth 64)).toOption := by
  induction offsets generalizing a with
  | nil =>
    simp only [List.nil_append, follow, Option.bind_eq_bind, Option.bind_some, Option.bind_fun_some]
  | cons first offsets ih =>
    simp only [List.cons_append, follow, ih, Option.bind_eq_bind, Option.bind_assoc]

theorem wp_addOffset {pointerBits : Nat} (hbits : pointerBits ≤ 64) (pointer offset : ULongPtr)
    (l : ReaderLog) :
    wp (T.quiet reader) (addOffset pointerBits pointer offset) l fun r _ =>
      r = sumWithin pointerBits pointer offset := by
  have hsilent : Uses (fun o => ∃ n, o = ReaderOp.note n) (addOffset pointerBits pointer offset) := by
    unfold addOffset
    extract_lets targetMax hostMax limit
    refine uses_ite (fun _ => uses_pure _) fun _ => uses_ite (fun _ => uses_pure _) fun _ => ?_
    refine uses_bind (uses_bind (uses_ask ⟨_, rfl⟩) fun _ => uses_pure _) fun room => ?_
    refine uses_ite (fun _ => uses_pure _) fun _ => ?_
    exact uses_bind (uses_bind (uses_ask ⟨_, rfl⟩) fun _ => uses_pure _) fun _ => uses_pure _
  have hruns := PointerChase.addOffset_runs (f := fun _ _ => ⟨0, 0, 0⟩) hbits pointer offset
  refine wp_mono (wp_of_silent ?_ ?_ hsilent _ l []) fun r l' hr => hr.trans (hruns []).1
  · rintro l _ ⟨n, rfl⟩
    trivial
  · rintro _ ⟨n, rfl⟩
    exact inferInstanceAs (Subsingleton Unit)

def Ends (o : Option ULongPtr) (r : Except NtStatus ULongPtr) : Prop :=
  r.toOption = o ∧ ∀ status, r = .error status → ntSuccess status = false

theorem sumWithin_ends (pointerBits : Nat) (pointer offset : ULongPtr) :
    Ends (sumWithin pointerBits pointer offset).toOption (sumWithin pointerBits pointer offset) := by
  refine ⟨rfl, fun status h => ?_⟩
  rw [sumWithin] at h
  by_cases hzero : pointer = 0
  · rw [if_pos hzero] at h
    cases h
    rfl
  · rw [if_neg hzero] at h
    by_cases hexceeds : 2 ^ pointerBits ≤ pointer.toNat + offset.toNat
    · rw [if_pos hexceeds] at h
      cases h
      rfl
    · rw [if_neg hexceeds] at h
      cases h

theorem wp_followOffsets {pointerBits : Nat} (hbits : pointerBits ≤ 64) (offsets : List ULong)
    (a : ULongPtr) (l : ReaderLog) :
    wp (T.quiet reader) (followOffsets pointerBits offsets a) l fun r _ =>
      Ends (follow T reader pointerBits offsets a) r := by
  induction offsets generalizing a l with
  | nil => exact ⟨rfl, nofun⟩
  | cons offset offsets ih =>
    rw [followOffsets, follow]
    refine wp_ask_bind.mpr ⟨trivial, fun pointer hpointer => ?_⟩
    have hvalue : pointer.value? = view T reader pointerBits a := hpointer.1
    rw [← hvalue, wp_ite]
    refine ⟨fun hs => ?_, fun hs => ?_⟩
    · rw [MemoryReadResult.value?, if_neg (by simpa using hs)]
      refine ⟨rfl, fun status h => ?_⟩
      cases h
      exact PointerChase.failure_error pointer
    rw [MemoryReadResult.value?, if_pos (by simpa using hs)]
    refine wp_ask_bind.mpr ⟨trivial, fun _ _ => ?_⟩
    rw [wp_bind]
    refine wp_mono (wp_addOffset hbits _ _ _) fun r l' hr => ?_
    rw [Option.bind_eq_bind, Option.bind_some, ← hr]
    cases r with
    | error status => exact ⟨rfl, fun s h => (sumWithin_ends _ _ _).2 s (hr ▸ h)⟩
    | ok a' => exact ih a' l'

theorem wp_readAtOffset {pointerBits : Nat} (hbits : pointerBits ≤ 64) (bits : Nat)
    (base : ULongPtr) (finalOffset : ULong) (l : ReaderLog) :
    wp (T.quiet reader) (readAtOffset pointerBits bits base finalOffset) l fun r _ =>
      r.value? = valueAt T reader pointerBits bits base finalOffset := by
  have hvalue : valueAt T reader pointerBits bits base finalOffset =
      (sumWithin pointerBits base 0).toOption >>= fun a =>
        follow T reader pointerBits ([0xC, 0x44] ++ [finalOffset]) a >>= view T reader bits := by
    simp only [valueAt, third, follow_snoc, Option.bind_eq_bind, Option.bind_assoc]
  rw [hvalue, readAtOffset, wp_bind]
  refine wp_mono (wp_addOffset hbits _ _ _) fun r l₁ hr => ?_
  rw [← hr]
  have hfailed : ∀ {status : NtStatus}, ntSuccess status = false →
      (⟨status, 0, 0⟩ : MemoryReadResult bits).value? = none := by
    intro status hs
    rw [MemoryReadResult.value?, MemoryReadResult.succeeded, hs]
    rfl
  cases r with
  | error status => exact hfailed ((sumWithin_ends _ _ _).2 status hr.symm)
  | ok a =>
    change wp _ (followOffsets _ _ _ >>= _) _ _
    rw [wp_bind]
    refine wp_mono (wp_followOffsets hbits _ _ _) fun r l₂ h => ?_
    obtain ⟨hend, hstatus⟩ := h
    have hsum : (Except.ok a : Except NtStatus ULongPtr).toOption = some a := rfl
    rw [hsum, Option.bind_eq_bind, Option.bind_some]
    change _ = follow T reader pointerBits ([0xC, 0x44] ++ [finalOffset]) a at hend
    rw [← hend]
    cases r with
    | error status => exact hfailed (hstatus status rfl)
    | ok address => exact ⟨trivial, fun x hx => hx.1⟩

def Says (coordinates : Option (ULong × ULong)) (response : Response) : Prop :=
  match coordinates with
  | some (x, y) => ntSuccess response.status ∧ response.xBits = x ∧ response.yBits = y
  | none => ntSuccess response.status = false

def split (pair : BitVec 64) : ULong × ULong := (pair.setWidth 32, (pair >>> 32).setWidth 32)

/-- The coordinates that the legacy request of an axis asks for. -/
def legacyCoordinates (T : Target sys) (reader : KernelProcessMemoryReader) (pointerBits : Nat)
    (base : ULongPtr) (axis : ULong) : Option (ULong × ULong) :=
  if axis = Axis.both then (valueAt T reader pointerBits 64 base 0x214).map split
  else if axis = Axis.x then (valueAt T reader pointerBits 32 base 0x214).map fun x => (x, 0)
  else (valueAt T reader pointerBits 32 base 0x218).map fun y => (0, y)

theorem says_failed {bits : Nat} {r : MemoryReadResult bits} {response : Response}
    (hs : ¬r.succeeded) (hstatus : response.status = r.finalStatus) {f : BitVec bits → ULong × ULong}
    : Says (r.value?.map f) response := by
  rw [MemoryReadResult.value?, if_neg hs, Option.map_none]
  change ntSuccess response.status = false
  rw [hstatus, MemoryReadResult.finalStatus, if_neg hs]
  exact PointerChase.failure_error r

theorem says_succeeded {bits : Nat} {r : MemoryReadResult bits} {response : Response}
    (hs : r.succeeded) (hstatus : response.status = r.finalStatus) {f : BitVec bits → ULong × ULong}
    (hx : response.xBits = (f r.value).1) (hy : response.yBits = (f r.value).2) :
    Says (r.value?.map f) response := by
  rw [MemoryReadResult.value?, if_pos hs, Option.map_some]
  refine ⟨?_, hx, hy⟩
  rw [hstatus, MemoryReadResult.finalStatus, if_pos hs]
  rfl

theorem wp_readCoordinateRequest {pointerBits : Nat} (hbits : pointerBits ≤ 64) (request : Request)
    (l : ReaderLog) :
    wp (T.quiet reader) (readCoordinateRequest pointerBits request) l fun response _ =>
      Says (legacyCoordinates T reader pointerBits request.baseAddress request.axis) response := by
  rw [readCoordinateRequest, legacyCoordinates, wp_ite]
  refine ⟨fun hboth => ?_, fun hboth => ?_⟩
  · rw [if_pos hboth, wp_bind]
    refine wp_mono (wp_readAtOffset hbits 64 _ _ _) fun r l' hr => ?_
    rw [← hr, wp_ite]
    exact ⟨fun hs => says_succeeded hs rfl rfl rfl, fun hs => says_failed hs rfl⟩
  · rw [if_neg hboth]
    by_cases hx : request.axis = Axis.x
    · simp only [if_pos hx]
      rw [wp_bind]
      refine wp_mono (wp_readAtOffset hbits 32 _ _ _) fun r l' hr => ?_
      rw [← hr, wp_ite]
      exact ⟨fun hs => says_succeeded hs rfl rfl rfl, fun hs => says_failed hs rfl⟩
    · simp only [if_neg hx]
      rw [wp_bind]
      refine wp_mono (wp_readAtOffset hbits 32 _ _ _) fun r l' hr => ?_
      rw [← hr, wp_ite]
      exact ⟨fun hs => says_succeeded hs rfl rfl rfl, fun hs => says_failed hs rfl⟩

def widthOf (request : Request) : Nat := if request.pointerBytes = 4 then 32 else 64

theorem wp_dispatch_legacy {request : Request} (hvalid : validRequest request)
    (hmode : request.reserved = 0) (hbytes : request.pointerBytes = 4 ∨ request.pointerBytes = 8)
    (l : ReaderLog) :
    wp (T.quiet reader) (dispatchCoordinateRequest request) l fun response _ =>
      Says (legacyCoordinates T reader (widthOf request) request.baseAddress request.axis)
        response := by
  have hne : request.pointerBytes ≠ 0 := by
    obtain h | h := hbytes <;> rw [h] <;> decide
  rw [dispatchCoordinateRequest, if_neg (by simpa using hvalid), if_neg (by rw [hmode]; decide),
    if_neg (by rw [hmode]; simpa using hne)]
  obtain h | h := hbytes
  · rw [widthOf, if_pos h, if_pos h]
    exact wp_readCoordinateRequest (by decide) request l
  · rw [widthOf, if_neg (by rw [h]; decide), if_neg (by rw [h]; decide)]
    exact wp_readCoordinateRequest (by decide) request l

end Runs

section Pairs

theorem copyRange_pair (a : ULongPtr) :
    CopyRange sys a (byteSize 64) ↔ CopyRange sys a (byteSize 32) ∧
      CopyRange sys (a + 4) (byteSize 32) := by
  have h64 : (byteSize 64).toNat = 8 := rfl
  have h32 : (byteSize 32).toNat = 4 := rfl
  have hhighest := sys.mmHighestUserAddress.isLt
  rw [CopyRange, CopyRange, CopyRange, h64, h32]
  bv_omega

variable {T} in
/-- Eight bytes can be copied exactly if both halves can, and they are the two halves. -/
theorem peek_pair (m : Bytes 64) (a : ULongPtr) :
    (T.peek m 64 a).map split =
      (T.peek m 32 a).bind fun x => (T.peek m 32 (a + 4)).map fun y => (x, y) := by
  have h64 : (byteSize 64).toNat = 4 + 4 := rfl
  have h32 : (byteSize 32).toNat = 4 := rfl
  have hcovers : covers T.readable a (byteSize 64).toNat ↔ covers T.readable a (byteSize 32).toNat ∧
      covers T.readable (a + 4) (byteSize 32).toNat := by
    rw [h64, h32]
    exact covers_add
  rw [Target.peek, Target.peek, Target.peek]
  by_cases hlow : CopyRange sys a (byteSize 32) ∧ covers T.readable a (byteSize 32).toNat
  · rw [if_pos hlow]
    by_cases hhigh : CopyRange sys (a + 4) (byteSize 32) ∧
        covers T.readable (a + 4) (byteSize 32).toNat
    · rw [if_pos hhigh, if_pos ⟨(copyRange_pair a).mpr ⟨hlow.1, hhigh.1⟩,
        hcovers.mpr ⟨hlow.2, hhigh.2⟩⟩]
      rw [Option.map_some, Option.bind_some, Option.map_some, split, h64, h32]
      have hload : load m a (4 + 4) = load m a 4 ++ load m (a + 4) 4 := load_add m a 4 4
      have hlt := littleEndian_lt (load m a 4)
      rw [length_load] at hlt
      have hlt' := littleEndian_lt (load m (a + 4) 4)
      rw [length_load] at hlt'
      rw [hload, valueOfBytes, littleEndian_append, length_load, valueOfBytes, valueOfBytes]
      congr 1
      apply Prod.ext
      · apply BitVec.eq_of_toNat_eq
        simp only [BitVec.toNat_setWidth, BitVec.toNat_ofNat]
        omega
      · apply BitVec.eq_of_toNat_eq
        simp only [BitVec.toNat_setWidth, BitVec.toNat_ofNat, BitVec.toNat_ushiftRight,
          Nat.shiftRight_eq_div_pow]
        omega
    · rw [if_neg hhigh, if_neg fun hc => hhigh ⟨((copyRange_pair a).mp hc.1).2, (hcovers.mp hc.2).2⟩]
      rfl
  · rw [if_neg hlow, if_neg fun hc => hlow ⟨((copyRange_pair a).mp hc.1).1, (hcovers.mp hc.2).1⟩]
    rfl

variable {T reader}

theorem view_pair (a : ULongPtr) : (view T reader 64 a).map split =
    (view T reader 32 a).bind fun x => (view T reader 32 (a + 4)).map fun y => (x, y) := by
  rw [view, view, view]
  by_cases hready : T.ready reader
  · rw [if_pos hready, if_pos hready, if_pos hready]
    exact peek_pair T.byte a
  · rw [if_neg hready, if_neg hready]
    rfl

theorem view_high {a : ULongPtr} (h : 2 ^ 64 ≤ a.toNat + 4) : view T reader 64 a = none := by
  have h64 : (byteSize 64).toNat = 8 := rfl
  have hhighest := sys.mmHighestUserAddress.isLt
  have hpeek : T.peek T.byte 64 a = none := by
    rw [Target.peek, if_neg]
    rintro ⟨hrange, -⟩
    rw [CopyRange, h64] at hrange
    omega
  rw [view, hpeek, ite_self]

theorem sumWithin_pair {pointerBits : Nat} (hbits : pointerBits ≤ 64) (p : BitVec pointerBits)
    (hfits : ¬(p.toNat + 0x214 < 2 ^ pointerBits ∧ 2 ^ pointerBits ≤ p.toNat + 0x218) ∨
      view T reader 64 (p.setWidth 64 + 0x214) = none) :
    ((sumWithin pointerBits (p.setWidth 64) 0x214).toOption.bind (view T reader 64)).map split =
      ((sumWithin pointerBits (p.setWidth 64) 0x214).toOption.bind (view T reader 32)).bind fun x =>
        ((sumWithin pointerBits (p.setWidth 64) 0x218).toOption.bind (view T reader 32)).map
          fun y => (x, y) := by
  have hle : 2 ^ pointerBits ≤ 2 ^ 64 := Nat.pow_le_pow_right (by decide) hbits
  have hwide : (p.setWidth 64).toNat = p.toNat := by
    rw [BitVec.toNat_setWidth, Nat.mod_eq_of_lt (Nat.lt_of_lt_of_le p.isLt hle)]
  have h214 : (0x214 : ULongPtr).toNat = 0x214 := rfl
  have h218 : (0x218 : ULongPtr).toNat = 0x218 := rfl
  rw [sumWithin, sumWithin, hwide, h214, h218]
  by_cases hzero : p.setWidth 64 = 0
  · rw [if_pos hzero]
    rfl
  rw [if_neg hzero, if_neg hzero]
  by_cases hx : 2 ^ pointerBits ≤ p.toNat + 0x214
  · rw [if_pos hx]
    rfl
  rw [if_neg hx]
  by_cases hy : 2 ^ pointerBits ≤ p.toNat + 0x218
  · rw [if_pos hy]
    have hnone : view T reader 64 (p.setWidth 64 + 0x214) = none := by
      obtain h | h := hfits
      · exact absurd ⟨Nat.lt_of_not_le hx, hy⟩ h
      · exact h
    change (view T reader 64 (p.setWidth 64 + 0x214)).map split = _
    rw [hnone]
    exact (Option.bind_fun_none _).symm
  · rw [if_neg hy]
    have hnext : p.setWidth 64 + 0x218 = p.setWidth 64 + 0x214 + 4 := by
      rw [BitVec.add_assoc]
      rfl
    rw [hnext]
    exact view_pair _

/-- The field of the third pointer starts below 4 GiB and ends above, and it can be copied. -/
def Straddles (T : Target sys) (reader : KernelProcessMemoryReader) (base : ULongPtr) : Prop :=
  ∃ p, third T reader 32 base = some p ∧ (p.toNat + 0x214 < 2 ^ 32 ∧ 2 ^ 32 ≤ p.toNat + 0x218) ∧
    (view T reader 64 (p.setWidth 64 + 0x214)).isSome

/-- The combined coordinates are those of the two axes. -/
def Combined (T : Target sys) (reader : KernelProcessMemoryReader) (pointerBits : Nat)
    (base : ULongPtr) : Prop :=
  (valueAt T reader pointerBits 64 base 0x214).map split =
    (valueAt T reader pointerBits 32 base 0x214).bind fun x =>
      (valueAt T reader pointerBits 32 base 0x218).map fun y => (x, y)

theorem combined_of_third {pointerBits : Nat} (hbits : pointerBits ≤ 64) {base : ULongPtr}
    (h : ∀ p, third T reader pointerBits base = some p →
      ¬(p.toNat + 0x214 < 2 ^ pointerBits ∧ 2 ^ pointerBits ≤ p.toNat + 0x218) ∨
        view T reader 64 (p.setWidth 64 + 0x214) = none) :
    Combined T reader pointerBits base := by
  rw [Combined, valueAt, valueAt, valueAt]
  cases hthird : third T reader pointerBits base with
  | none => rfl
  | some p => exact sumWithin_pair hbits p (h p hthird)

theorem combined_iff {request : Request}
    (hbytes : request.pointerBytes = 4 ∨ request.pointerBytes = 8) (base : ULongPtr) :
    Combined T reader (widthOf request) base ↔
      ¬(request.pointerBytes = 4 ∧ Straddles T reader base) := by
  obtain h | h := hbytes
  · rw [widthOf, if_pos h]
    refine ⟨fun hcombined ⟨_, p, hthird, ⟨hx, hy⟩, hpair⟩ => ?_, fun hnot => ?_⟩
    · have hwide : (p.setWidth 64).toNat = p.toNat := by
        rw [BitVec.toNat_setWidth, Nat.mod_eq_of_lt (by omega)]
      have hne : p.setWidth 64 ≠ 0 := by
        intro hzero
        rw [hzero] at hwide
        have hnull : p.toNat = 0 := hwide.symm
        omega
      have hx' : sumWithin 32 (p.setWidth 64) 0x214 = .ok (p.setWidth 64 + 0x214) := by
        rw [sumWithin, if_neg hne, if_neg (by rw [hwide]; exact Nat.not_le_of_lt hx)]
      have hy' : sumWithin 32 (p.setWidth 64) 0x218 = .error statusIntegerOverflow := by
        rw [sumWithin, if_neg hne, if_pos (by rw [hwide]; exact hy)]
      obtain ⟨pair, hpair⟩ := Option.isSome_iff_exists.mp hpair
      have hboth : valueAt T reader 32 64 base 0x214 = some pair := by
        rw [valueAt, hthird]
        change (sumWithin 32 (p.setWidth 64) 0x214).toOption.bind _ = _
        rw [hx']
        exact hpair
      have hnone : valueAt T reader 32 32 base 0x218 = none := by
        rw [valueAt, hthird]
        change (sumWithin 32 (p.setWidth 64) 0x218).toOption.bind _ = _
        rw [hy']
        rfl
      rw [Combined, hboth, hnone] at hcombined
      exact absurd (hcombined.trans (Option.bind_fun_none _)) (Option.some_ne_none _)
    · refine combined_of_third (by decide) fun p hthird => ?_
      by_cases hpair : view T reader 64 (p.setWidth 64 + 0x214) = none
      · exact .inr hpair
      · exact .inl fun hstraddle => hnot ⟨h, p, hthird, hstraddle, Option.isSome_iff_ne_none.mpr hpair⟩
  · rw [widthOf, if_neg (by rw [h]; decide)]
    refine ⟨fun _ hc => absurd (h.symm.trans hc.1) (by decide), fun _ => ?_⟩
    refine combined_of_third (Nat.le_refl 64) fun p _ => ?_
    by_cases hhigh : 2 ^ 64 ≤ p.toNat + 0x218
    · by_cases hlow : p.toNat + 0x214 < 2 ^ 64
      · refine .inr (view_high ?_)
        rw [BitVec.toNat_add, BitVec.setWidth_eq]
        have h214 : (0x214 : ULongPtr).toNat = 0x214 := rfl
        rw [h214, Nat.mod_eq_of_lt hlow]
        omega
      · exact .inl fun hc => hlow hc.1
    · exact .inl fun hc => hhigh hc.2

end Pairs

section Requests

def Answered (T : Target sys) (reader : KernelProcessMemoryReader) (request : Request)
    (response : Response) : Prop :=
  ∃ (env : WinEnv) (l : WinLog), (∀ l o, T.Fits l o (env l o)) ∧ T.after l = T.byte ∧
    (((dispatchCoordinateRequest request).translate (reader.perform sys)).run env l).1 = response

def along (request : Request) (axis : ULong) : Request := { request with axis := axis }

variable {T reader}

theorem validRequest_along {request : Request} (hvalid : validRequest request)
    (hmode : request.reserved = 0) (hbytes : request.pointerBytes = 4 ∨ request.pointerBytes = 8)
    {axis : ULong} (haxis : axis = Axis.x ∨ axis = Axis.y ∨ axis = Axis.both) :
    validRequest (along request axis) := by
  obtain ⟨hversion, hsize, -, hpid, hpid', hbase, -, -, htype⟩ := of_decide_eq_true hvalid
  exact decide_eq_true ⟨hversion, hsize, .inl hmode, hpid, hpid', hbase, haxis, .inr hbytes, htype⟩

theorem says_of_answered {request : Request} (hvalid : validRequest request)
    (hmode : request.reserved = 0) (hbytes : request.pointerBytes = 4 ∨ request.pointerBytes = 8)
    {response : Response} (h : Answered T reader request response) :
    Says (legacyCoordinates T reader (widthOf request) request.baseAddress request.axis)
      response := by
  obtain ⟨env, l, hfits, hl, rfl⟩ := h
  exact (run_of_wp (C := T.system) hfits
    (Target.wp_performed_quiet (wp_dispatch_legacy hvalid hmode hbytes []) hl)).1

/-- The combined response agrees with the two single ones. -/
def Agree (both x y : Response) : Prop :=
  (ntSuccess both.status ↔ ntSuccess x.status ∧ ntSuccess y.status) ∧
    (ntSuccess both.status → both.xBits = x.xBits ∧ both.yBits = y.yBits)

theorem agree_iff {pair : Option (ULong × ULong)} {first second : Option ULong}
    {both x y : Response} (hboth : Says pair both) (hx : Says (first.map fun v => (v, 0)) x)
    (hy : Says (second.map fun v => (0, v)) y) :
    Agree both x y ↔ pair = first.bind fun x => second.map fun y => (x, y) := by
  rw [Agree]
  cases pair with
  | none =>
    have hb : ntSuccess both.status = false := hboth
    cases first with
    | none =>
      have hx' : ntSuccess x.status = false := hx
      simp [hb, hx']
    | some vx =>
      obtain ⟨hx', -⟩ := hx
      cases second with
      | none =>
        have hy' : ntSuccess y.status = false := hy
        simp [hb, hx', hy']
      | some vy => simp [hb, hx', hy.1]
  | some v =>
    obtain ⟨hb, hbx, hby⟩ := hboth
    cases first with
    | none =>
      have hx' : ntSuccess x.status = false := hx
      simp [hb, hx']
    | some vx =>
      obtain ⟨hx', hxx, -⟩ := hx
      cases second with
      | none =>
        have hy' : ntSuccess y.status = false := hy
        simp [hb, hy']
      | some vy =>
        obtain ⟨hy', -, hyy⟩ := hy
        simp [hb, hx', hy', hbx, hby, hxx, hyy, Prod.ext_iff]

/-- A combined legacy read agrees with the single reads exactly unless the field behind the third
32-bit pointer straddles 4 GiB. -/
theorem both_agrees_iff (T : Target sys) (reader : KernelProcessMemoryReader) {request : Request}
    (hvalid : validRequest request) (hmode : request.reserved = 0)
    (hbytes : request.pointerBytes = 4 ∨ request.pointerBytes = 8) {both x y : Response}
    (hboth : Answered T reader (along request Axis.both) both)
    (hx : Answered T reader (along request Axis.x) x)
    (hy : Answered T reader (along request Axis.y) y) :
    Agree both x y ↔ ¬(request.pointerBytes = 4 ∧ Straddles T reader request.baseAddress) := by
  have hanswers : ∀ {axis response}, axis = Axis.x ∨ axis = Axis.y ∨ axis = Axis.both →
      Answered T reader (along request axis) response →
      Says (legacyCoordinates T reader (widthOf request) request.baseAddress axis) response :=
    fun haxis h => says_of_answered (validRequest_along hvalid hmode hbytes haxis) hmode hbytes h
  exact (agree_iff (hanswers (.inr (.inr rfl)) hboth) (hanswers (.inl rfl) hx)
    (hanswers (.inr (.inl rfl)) hy)).trans (combined_iff hbytes request.baseAddress)

/-- A process with coordinates 5, 6 behind the given third pointer. -/
def chainGame (pointer : ULong) : Target samplePlatform := .ofCells samplePlatform silentApi [
  (0x1000, 0x2000), (0x200C, 0x3000), (0x3044, pointer),
  (pointer.setWidth 64 + 0x214, 5), (pointer.setWidth 64 + 0x218, 6)]

def chainRequest : Request := ⟨version, sizeofRequest, 7, 0x1000, Axis.both, 4, ValueType.int32, 0⟩

def chainResponse (pointer : ULong) (axis : ULong) : Response :=
  (((dispatchCoordinateRequest (along chainRequest axis)).translate
    (KernelProcessMemoryReader.perform samplePlatform ⟨9⟩)).run
      ((chainGame pointer).env 9 sampleImage) []).1

theorem chainGame_answered (pointer : ULong) (axis : ULong) :
    Answered (chainGame pointer) ⟨9⟩ (along chainRequest axis) (chainResponse pointer axis) :=
  ⟨_, [], (chainGame pointer).env_fits 9 sampleImage, rfl, rfl⟩

theorem both_agrees_iff_sample :
    Agree (chainResponse 0x4000 Axis.both) (chainResponse 0x4000 Axis.x)
      (chainResponse 0x4000 Axis.y) ↔
      ¬(chainRequest.pointerBytes = 4 ∧
        Straddles (chainGame 0x4000) ⟨9⟩ chainRequest.baseAddress) :=
  both_agrees_iff (chainGame 0x4000) ⟨9⟩ (by decide) rfl (.inl rfl) (chainGame_answered _ _)
    (chainGame_answered _ _) (chainGame_answered _ _)

/-- The last four bytes below 4 GiB and the first four above: the pair is read, its half is not. -/
theorem both_disagrees :
    ∃ (T : Target samplePlatform) (reader : KernelProcessMemoryReader) (request : Request)
      (both x y : Response), validRequest request ∧ request.reserved = 0 ∧ request.pointerBytes = 4 ∧
        Answered T reader (along request Axis.both) both ∧
        Answered T reader (along request Axis.x) x ∧ Answered T reader (along request Axis.y) y ∧
        both.status = statusSuccess ∧ y.status = statusIntegerOverflow ∧ ¬Agree both x y := by
  refine ⟨chainGame 0xFFFFFDE8, ⟨9⟩, chainRequest, _, _, _, by decide, rfl, rfl,
    chainGame_answered _ _, chainGame_answered _ _, chainGame_answered _ _, ?_, ?_, ?_⟩
  · decide +kernel
  · decide +kernel
  · intro h
    exact absurd (h.1.mp (by decide +kernel)).2 (by decide +kernel)

end Requests

end DarkEden.PairReads
