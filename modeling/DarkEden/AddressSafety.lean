import DarkEden.Target
import DarkEden.Walkers

namespace DarkEden.AddressSafety

open Interaction ReaderRules Walkers KernelProcessMemoryReader

variable {sys : Platform}

/-- Copies and writes stay in the user address space, and address arithmetic does not wrap. -/
def Safe (sys : Platform) (_ : WinLog) : WinOp → Prop
  | .mmCopyMemory address size => 1 ≤ address.toNat ∧ 1 ≤ size.toNat ∧ size.toNat ≤ 256 ∧
      address.toNat + size.toNat - 1 ≤ sys.mmHighestUserAddress.toNat
  | .interlockedExchange address _ => address.toNat ≠ 0 ∧ address.toNat % 4 = 0 ∧
      address.toNat + 3 ≤ sys.mmHighestUserAddress.toNat
  | .note n => NoWrap n
  | _ => True

def bounds (sys : Platform) : Contract WinAns := ⟨fun _ _ _ => True, Safe sys⟩

theorem bounds_keeps : Keeps (bounds sys) fun _ => True where
  guar l o _ ho := by cases o <;> trivial
  keep _ _ _ _ _ _ := trivial

theorem bounds_freeNote {n : Note} (h : NoWrap n) : FreeNote (bounds sys) (fun _ => True) n :=
  fun _ _ => ⟨h, trivial⟩

theorem safe_of_writeCheck (hlow : 4 ≤ sys.mmHighestUserAddress.toNat) {address : ULongPtr}
    (h : WriteCheck sys address) (value : ULong) (l : WinLog) :
    Safe sys l (.interlockedExchange address value) := by
  obtain ⟨hzero, hcheck⟩ := h
  rw [not_or, not_not] at hcheck
  have haligned : address.toNat % 4 = 0 := by
    have h := congrArg BitVec.toNat hcheck.2
    rwa [BitVec.toNat_and, show (3 : BitVec 64).toNat = 2 ^ 2 - 1 from rfl,
      Nat.and_two_pow_sub_one_eq_mod] at h
  refine ⟨?_, haligned, ?_⟩ <;> bv_omega

theorem perform_safe (hlow : 4 ≤ sys.mmHighestUserAddress.toNat)
    {reader : KernelProcessMemoryReader} (o : ReaderOp) (l : WinLog) (ho : Bounded o) :
    wp (bounds sys) (perform sys reader o) l fun _ _ => True := by
  cases o with
  | note n => exact ⟨ho, fun _ _ => trivial⟩
  | resolveImageOffset offset =>
    refine wp_mono (wp_resolveImageOffset bounds_keeps rfl (fun hle => bounds_freeNote hle)
      (fun hrange => bounds_freeNote ?_) trivial) fun _ _ _ => trivial
    have hhighest := sys.mmHighestUserAddress.isLt
    exact Nat.lt_of_le_of_lt hrange.2 hhighest
  | read bits address =>
    rw [perform, KernelProcessMemoryReader.read, wp_bind]
    refine wp_mono (wp_copyValue bounds_keeps (fun hle => bounds_freeNote hle) ?_ trivial)
      fun _ _ _ => trivial
    exact fun _ _ _ hrange => ⟨hrange, fun _ _ => trivial⟩
  | writeUInt32 address value =>
    have hdiff : NoWrap (.diff sys.mmHighestUserAddress 4) := BitVec.le_def.mpr hlow
    have hsum : NoWrap (.sum (sys.mmHighestUserAddress - 4) 1) := by
      have hhighest := sys.mmHighestUserAddress.isLt
      simp only [NoWrap]
      bv_omega
    refine wp_mono (wp_writeUInt32 (K := fun _ _ => True) bounds_keeps (fun _ => bounds_keeps)
      (bounds_freeNote hdiff) (bounds_freeNote hsum) (fun _ _ _ _ => ⟨trivial, fun _ _ => trivial⟩)
      ?_ trivial) fun _ _ _ => trivial
    exact fun l _ _ hcheck => ⟨safe_of_writeCheck hlow hcheck value l, fun _ _ => trivial⟩

theorem withReader_safe (hlow : 4 ≤ sys.mmHighestUserAddress.toNat) {α : Type} {processId : Handle}
    {allowWrite : Bool} {failed : NtStatus → α} {body : Memory α} (hbody : Uses Bounded body)
    (l : WinLog) :
    wp (bounds sys) (withReader sys processId allowWrite failed body) l fun _ _ => True :=
  wp_withReader bounds_keeps (fun _ => bounds_keeps) (fun _ _ _ _ => trivial)
    (fun _ _ _ _ => wp_translate_invariant hbody (fun o l ho _ => perform_safe hlow o l ho) trivial)
    trivial

theorem deviceControl_safe (sys : Platform) (hlow : 4 ≤ sys.mmHighestUserAddress.toNat)
    (env : WinEnv) (irp : Irp) :
    Throughout (Safe sys) ((deviceControl sys irp).run env []).2 := by
  refine throughout_of_wp (C := bounds sys) (Q := fun _ _ => True) (fun _ _ => trivial) ?_
  refine wp_deviceControl bounds_keeps (fun _ _ _ _ => trivial) ?_ ?_ ?_ trivial
  · intro buffer l _ _ _ hvalid
    rw [executeDarkEdenTextRequest, if_neg (by simpa using hvalid)]
    exact withReader_safe hlow (uses_mono bounded_of_tame (readResolvedText_tame _)) l
  · intro buffer l _ _ _ hvalid
    rw [executeSelectTargetRequest, if_neg (by simpa using hvalid)]
    exact withReader_safe hlow (select_bounded _) l
  · intro buffer l _ _ _ hvalid
    rw [executeDarkEdenRequest, if_neg (by simpa using hvalid)]
    exact withReader_safe hlow (uses_mono bounded_of_tame (readResolved_tame _)) l

theorem deviceControl_safe_sample :
    4 ≤ samplePlatform.mmHighestUserAddress.toNat ∧
      Throughout (Safe samplePlatform) ((deviceControl samplePlatform sampleIrp).run
        (sampleGame.env 9 sampleImage) []).2 :=
  ⟨by decide, deviceControl_safe samplePlatform (by decide) _ sampleIrp⟩

end DarkEden.AddressSafety
