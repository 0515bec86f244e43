import DarkEden.Target

namespace DarkEden.ReadResult

open Interaction ByteMemory Windows KernelProcessMemoryReader ReaderRules

def copies (l : WinLog) : List CopyOutcome :=
  l.filterMap fun e => match e.1, e.2 with
    | .mmCopyMemory _ _, x => some x
    | _, _ => none

theorem copies_append (l : WinLog) (e : Sigma WinAns) :
    copies (l ++ [e]) = copies l ++ copies [e] := List.filterMap_append

/-- `MmCopyMemory` returned a success for all bytes. -/
def Complete (n : Nat) (x : CopyOutcome) : Prop :=
  (∃ status, x.completion = .returned status ∧ ntSuccess status) ∧ x.copied = BitVec.ofNat 64 n

/-- What a read says about the copy it made, if it made one. -/
structure Faithful (n : Nat) (copy : Option CopyOutcome) (r : MemoryReadResult (8 * n)) : Prop where
  status : ntSuccess r.status ↔ r.succeeded
  complete : r.succeeded ↔ ∃ x ∈ copy, Complete n x
  value : r.succeeded → ∀ x ∈ copy, ∀ i < n, byteOf r.value.toNat i = x.scratch.getD i 0
  zero : ¬r.succeeded → r.value = 0
  bytesRead : r.bytesRead = (copy.map CopyOutcome.copied).getD 0

theorem byteSize_bytes (n : Nat) : byteSize (8 * n) = BitVec.ofNat 64 n := by
  rw [byteSize, Nat.mul_div_cancel_left n (by decide)]

theorem faithful_refused {n : Nat} {status : NtStatus} (hs : ntSuccess status = false) :
    Faithful n none (readResult (8 * n) ⟨status, 0, none⟩) := by
  have hfailed : (readResult (8 * n) ⟨status, 0, none⟩).succeeded = false := readResult_failed hs
  constructor
  · rw [hfailed, readResult, hs]
  · rw [hfailed]
    constructor
    · intro h
      cases h
    · rintro ⟨x, hx, -⟩
      cases hx
  · intro _ x hx
    cases hx
  · exact fun _ => rfl
  · rfl

theorem output_failed {size : SizeT} {x : CopyOutcome}
    (h : ntSuccess (copiedOf size x).status = false) : (copiedOf size x).output = none := by
  rw [copiedOf] at h ⊢
  by_cases hs : (!ntSuccess x.completion.status) = true
  · rw [if_pos hs]
  · rw [if_neg hs] at h ⊢
    by_cases hcopied : x.copied ≠ size
    · rw [if_pos hcopied]
    · rw [if_neg hcopied] at h
      exact nomatch h

/-- An exception never counts as a success. -/
theorem complete_iff {n : Nat} {x : CopyOutcome}
    (hraised : ∀ code, x.completion = .raised code → ntSuccess code = false) :
    Complete n x ↔ ntSuccess x.completion.status ∧ x.copied = byteSize (8 * n) := by
  rw [Complete, byteSize_bytes]
  refine and_congr_left' ⟨?_, fun hs => ?_⟩
  · rintro ⟨status, hstatus, hs⟩
    rwa [hstatus]
  · cases hx : x.completion with
    | returned status => exact ⟨status, rfl, by rwa [hx] at hs⟩
    | raised code =>
      rw [hx] at hs
      exact absurd hs (by simp [Completion.status, hraised code hx])

theorem bytesRead_copiedOf (size : SizeT) (x : CopyOutcome) :
    (copiedOf size x).bytesRead = x.copied := by
  rw [copiedOf]
  split
  · rfl
  · split <;> rfl

theorem byteOf_valueOfBytes {n : Nat} (bytes : List (BitVec 8)) {i : Nat} (hi : i < n) :
    byteOf (valueOfBytes (8 * n) (bytes.take n)).toNat i = bytes.getD i 0 := by
  have hlt : littleEndian (bytes.take n) < 2 ^ (8 * n) := by
    rw [Nat.pow_mul]
    refine Nat.lt_of_lt_of_le (littleEndian_lt _) (Nat.pow_le_pow_right (by decide) ?_)
    exact List.length_take_le n bytes
  rw [valueOfBytes, BitVec.toNat_ofNat, Nat.mod_eq_of_lt hlt, byteOf_littleEndian,
    List.getD_eq_getElem?_getD, List.getElem?_take_of_lt hi, List.getD_eq_getElem?_getD]

theorem faithful_copied {n : Nat} {x : CopyOutcome} (hn : n < 2 ^ 64)
    (hraised : ∀ code, x.completion = .raised code → ntSuccess code = false) :
    Faithful n (some x) (readResult (8 * n) (copiedOf (byteSize (8 * n)) x)) := by
  have hcomplete : Complete n x ↔ _ := complete_iff hraised
  have hmem : (∃ y ∈ some x, Complete n y) ↔ Complete n x := by simp
  have hbytes := bytesRead_copiedOf (byteSize (8 * n)) x
  obtain ⟨hall, hr⟩ | ⟨hnot, hr⟩ := copiedOf_cases (byteSize (8 * n)) x
  · have hs : (readResult (8 * n) (copiedOf (byteSize (8 * n)) x)).succeeded = true := by
      rw [hr, MemoryReadResult.succeeded]
      exact (Bool.and_eq_true _ _).mpr ⟨rfl, beq_self_eq_true _⟩
    constructor
    · rw [hs, hr]
      exact ⟨fun _ => rfl, fun _ => rfl⟩
    · rw [hs, hmem, hcomplete]
      exact ⟨fun _ => hall, fun _ => rfl⟩
    · intro _ y hy i hi
      obtain rfl := Option.some.inj hy
      have hsize : (byteSize (8 * n)).toNat = n := by
        rw [byteSize_bytes, BitVec.toNat_ofNat, Nat.mod_eq_of_lt hn]
      rw [hr, readResult, Option.getD_some, hsize]
      exact byteOf_valueOfBytes x.scratch hi
    · exact fun hfailed => absurd hs hfailed
    · exact hbytes
  · have hs : (readResult (8 * n) (copiedOf (byteSize (8 * n)) x)).succeeded = false :=
      readResult_failed hr
    constructor
    · rw [hs]
      simp [readResult, hr]
    · rw [hs, hmem, hcomplete]
      constructor
      · intro h
        cases h
      · exact fun h => absurd h hnot
    · rw [hs]
      intro h
      cases h
    · intro _
      rw [readResult, output_failed hr]
      rfl
    · exact hbytes

section Run

variable {sys : Platform} {reader : KernelProcessMemoryReader}

def answeredBy (env : WinEnv) : Contract WinAns := ⟨fun l o x => x = env l o, fun _ _ => True⟩

def Refused (sys : Platform) (reader : KernelProcessMemoryReader) (irql : Kirql)
    (address : ULongPtr) (size : SizeT) : Prop :=
  (irql ≠ passiveLevel ∨ reader.process = nullptr) ∨ ¬CopyRange sys address size

/-- `CopyValue` refuses, or it copies once and reports the outcome of that. -/
theorem wp_copyValue_once (env : WinEnv) (l : WinLog) (address : ULongPtr) (size : SizeT) :
    wp (answeredBy env) (copyValue sys reader address size) l fun r l' =>
      (Refused sys reader (env l .keGetCurrentIrql) address size ∧ copies l' = copies l ∧
        ∃ status, ntSuccess status = false ∧ r = ⟨status, 0, none⟩) ∨
      ¬Refused sys reader (env l .keGetCurrentIrql) address size ∧
        ∃ l₁ x, x = env l₁ (.mmCopyMemory address size) ∧ copies l' = copies l ++ [x] ∧
          r = copiedOf size x := by
  rw [copyValue]
  refine wp_ask_bind.mpr ⟨trivial, fun irql hirql => ?_⟩
  rw [← show irql = env l .keGetCurrentIrql from hirql, wp_ite]
  have h₁ : copies (l ++ [⟨.keGetCurrentIrql, irql⟩]) = copies l :=
    (copies_append _ _).trans (List.append_nil _)
  refine ⟨fun hbad => .inl ⟨.inl hbad, h₁, _, rfl, rfl⟩, fun hready => ?_⟩
  rw [wp_ite]
  refine ⟨fun hbad => .inl ⟨.inr fun hr => (checks_of_copyRange hr).1 hbad, h₁, _, rfl, rfl⟩,
    fun hgood => ?_⟩
  rw [wp_bind, wp_subAddress]
  refine ⟨trivial, fun _ => ?_⟩
  have h₂ := (copies_append (l ++ [⟨.keGetCurrentIrql, irql⟩])
    ⟨.note (.diff sys.mmHighestUserAddress address), ()⟩).trans ((List.append_nil _).trans h₁)
  rw [wp_ite]
  refine ⟨fun hbad => .inl ⟨.inr fun hr => (checks_of_copyRange hr).2 hbad, h₂, _, rfl, rfl⟩,
    fun hroom => ?_⟩
  have haccepted : ¬Refused sys reader irql address size :=
    not_or.mpr ⟨hready, not_not.mpr (copyRange_of_checks hgood hroom)⟩
  refine wp_ask_bind.mpr ⟨trivial, fun att _ => ?_⟩
  refine wp_ask_bind.mpr ⟨trivial, fun x hx => ?_⟩
  refine wp_ask_bind.mpr ⟨trivial, fun det _ => ?_⟩
  have hcopies : ∀ l', copies l' = copies l →
      copies (l' ++ [⟨.keStackAttachProcess reader.process, att⟩] ++ [⟨.mmCopyMemory address size, x⟩] ++
        [⟨.keUnstackDetachProcess, det⟩]) = copies l ++ [x] := by
    intro l' hl'
    rw [copies_append, copies_append, copies_append, hl']
    simp [copies]
  have hstep : copiedOf size x = if !ntSuccess x.completion.status then _ else _ := rfl
  rw [wp_ite]
  refine ⟨fun hs => .inr ⟨haccepted, _, x, hx, hcopies _ h₂, ?_⟩, fun hs => ?_⟩
  · exact (if_pos hs).symm
  rw [if_neg hs] at hstep
  rw [wp_ite]
  refine ⟨fun hc => .inr ⟨haccepted, _, x, hx, hcopies _ h₂, ?_⟩,
    fun hc => .inr ⟨haccepted, _, x, hx, hcopies _ h₂, ?_⟩⟩
  · exact (hstep.trans (if_pos hc)).symm
  · rw [hstep, if_neg hc, not_not.mp hc]

/-- A read of `n` bytes makes at most one copy, none exactly if it is refused, and what it returns
is faithful to the outcome of that copy. -/
theorem read_faithful (sys : Platform) (reader : KernelProcessMemoryReader) (env : WinEnv)
    (hraised : ∀ l a size code, (env l (.mmCopyMemory a size)).completion = .raised code →
      ntSuccess code = false) {n : Nat} (hn : n ≤ 256) (address : ULongPtr) (l : WinLog) :
    let run := (reader.read sys (8 * n) address).run env l
    ∃ copy : Option CopyOutcome, copies run.2 = copies l ++ copy.toList ∧
      (copy = none ↔ Refused sys reader (env l .keGetCurrentIrql) address (byteSize (8 * n))) ∧
      Faithful n copy run.1 := by
  intro run
  have hread : wp (answeredBy env) (reader.read sys (8 * n) address) l fun r l' =>
      ∃ copy : Option CopyOutcome, copies l' = copies l ++ copy.toList ∧
        (copy = none ↔ Refused sys reader (env l .keGetCurrentIrql) address (byteSize (8 * n))) ∧
        Faithful n copy r := by
    rw [KernelProcessMemoryReader.read, wp_bind]
    refine wp_mono (wp_copyValue_once env l address _) fun r l' hr => ?_
    obtain ⟨hrefused, hcopies, status, hs, rfl⟩ | ⟨haccepted, l₁, x, hx, hcopies, rfl⟩ := hr
    · exact ⟨none, by rw [hcopies]; exact (List.append_nil _).symm, ⟨fun _ => hrefused, fun _ => rfl⟩,
        faithful_refused hs⟩
    · have hsome : some x ≠ none := Option.some_ne_none x
      refine ⟨some x, hcopies, ⟨fun h => absurd h hsome, fun h => absurd h haccepted⟩, ?_⟩
      exact faithful_copied (by omega) fun code hcode => hraised l₁ _ _ code (hx ▸ hcode)
  exact run_of_wp (fun _ _ => rfl) hread

/-- The copy raises an exception after its first two bytes. -/
def faultingEnv : WinEnv := fun l o =>
  match o with
  | .mmCopyMemory _ _ => ⟨.raised statusAccessViolation, 2, [0x12, 0x34]⟩
  | o => sampleGame.env 9 sampleImage l o

theorem read_faithful_sample :
    let run := ((⟨9⟩ : KernelProcessMemoryReader).read samplePlatform (8 * 4) 0x1000).run faultingEnv []
    ∃ copy : Option CopyOutcome, copies run.2 = copies [] ++ copy.toList ∧
      (copy = none ↔ Refused samplePlatform ⟨9⟩ (faultingEnv [] .keGetCurrentIrql) 0x1000
        (byteSize (8 * 4))) ∧
      Faithful 4 copy run.1 :=
  read_faithful samplePlatform ⟨9⟩ faultingEnv (fun _ _ _ code h => by cases h; rfl) (by decide)
    0x1000 []

end Run

end DarkEden.ReadResult
