import DarkEden.ReaderRules

namespace DarkEden.ReaderBalance

open Interaction Windows KernelProcessMemoryReader

/-- What the reader has to give back. -/
inductive Resource
  | handle (h : Handle)
  | nameBuffer
  | attachment
  | reference (process : PEProcess)

/-- A call that fails hands out nothing, and there are no references to a null object. -/
def gain : (o : WinOp) → WinAns o → Option Resource
  | .psLookupProcessByProcessId _, x | .obReferenceObjectByHandle _ _, x =>
    if ntSuccess x.status ∧ x.object ≠ nullptr then some (.reference x.object) else none
  | .zwOpenProcess _ _ _, x => if ntSuccess x.status then some (.handle x.object) else none
  | .seLocateProcessImageName _, x => if ntSuccess x.status then some .nameBuffer else none
  | .keStackAttachProcess _, _ => some .attachment
  | _, _ => none

def loss : WinOp → Option Resource
  | .zwClose h => some (.handle h)
  | .exFreePool => some .nameBuffer
  | .obDereferenceObject process => if process ≠ nullptr then some (.reference process) else none
  | .keUnstackDetachProcess => some .attachment
  | _ => none

variable (S : Resource → Bool)

/-- How often one of the resources was handed out. -/
def acquired (l : WinLog) : Nat := l.countP fun e => (gain e.1 e.2).any S

def released (l : WinLog) : Nat := l.countP fun e => (loss e.1).any S

def held (reader : KernelProcessMemoryReader) : Nat :=
  if reader.process ≠ nullptr ∧ S (.reference reader.process) then 1 else 0

/-- So many of the resources are still to be given back. -/
def Owes (n : Nat) (l : WinLog) : Prop := acquired S l = released S l + n

inductive Call
  | initializeById (processId : Handle)
  | initializeForRequest (processId : Handle) (allowWrite : Bool)
  | resolveImageOffset (offset : ULongPtr)
  | read (bits : Nat) (address : ULongPtr)
  | writeUInt32 (address : ULongPtr) (value : ULong)

def perform (sys : Platform) (reader : KernelProcessMemoryReader) :
    Call → Windows (NtStatus × KernelProcessMemoryReader)
  | .initializeById processId => reader.initializeById processId
  | .initializeForRequest processId allowWrite => reader.initializeForRequest sys processId allowWrite
  | .resolveImageOffset offset => do
    let resolved ← reader.resolveImageOffset sys offset
    return (resolved.status, reader)
  | .read bits address => do
    let result ← reader.read sys bits address
    return (result.status, reader)
  | .writeUInt32 address value => do
    let status ← reader.writeUInt32 sys address value
    return (status, reader)

def performAll (sys : Platform) : KernelProcessMemoryReader → List Call →
    Windows KernelProcessMemoryReader
  | reader, [] => return reader
  | reader, call :: calls => do
    let (_, reader) ← perform sys reader call
    performAll sys reader calls

section Rules

variable {S} {sys : Platform} {reader : KernelProcessMemoryReader} {l : WinLog} {n : Nat}

/-- Any answers, and attaching only to the process of an initialized reader. -/
def attaching (reader : KernelProcessMemoryReader) : Contract WinAns where
  rely _ _ _ := True
  guar
    | _, .keStackAttachProcess process => process = reader.process ∧ process ≠ nullptr
    | _, _ => True

theorem Owes.gain {o : WinOp} (h : Owes S n l) (ho : loss o = none) (x : WinAns o) :
    Owes S (n + ((gain o x).any S).toNat) (l ++ [⟨o, x⟩]) := by
  rw [Owes, acquired, released] at h ⊢
  rw [List.countP_append, List.countP_append, h, List.countP_singleton, List.countP_singleton, ho]
  cases (ReaderBalance.gain o x).any S with
  | false => rfl
  | true => simp only [if_true, Bool.toNat_true, Option.any_none, Bool.false_eq_true, if_false]; omega

theorem Owes.lose {o : WinOp} (h : Owes S (n + ((loss o).any S).toNat) l) {x : WinAns o}
    (ho : ReaderBalance.gain o x = none) : Owes S n (l ++ [⟨o, x⟩]) := by
  rw [Owes, acquired, released] at h ⊢
  rw [List.countP_append, List.countP_append, h, List.countP_singleton, List.countP_singleton, ho]
  cases (loss o).any S with
  | false => rfl
  | true => simp only [if_true, Bool.toNat_true, Option.any_none, Bool.false_eq_true, if_false]; omega

section Steps

variable {α : Type} {o : WinOp} {f : WinAns o → Windows α} {Q : α → WinLog → Prop}

theorem Owes.bind_gain (h : Owes S n l) (ho : (attaching reader).guar l o) (hloss : loss o = none)
    (hf : ∀ x, Owes S (n + ((ReaderBalance.gain o x).any S).toNat) (l ++ [⟨o, x⟩]) →
      wp (attaching reader) (f x) (l ++ [⟨o, x⟩]) Q) :
    wp (attaching reader) (Program.ask o >>= f) l Q :=
  wp_ask_bind.mpr ⟨ho, fun x _ => hf x (h.gain hloss x)⟩

theorem Owes.bind_pass (h : Owes S n l) (ho : (attaching reader).guar l o) (hloss : loss o = none)
    (hgain : ∀ x, ReaderBalance.gain o x = none)
    (hf : ∀ x, Owes S n (l ++ [⟨o, x⟩]) → wp (attaching reader) (f x) (l ++ [⟨o, x⟩]) Q) :
    wp (attaching reader) (Program.ask o >>= f) l Q := by
  apply h.bind_gain ho hloss
  intro x hx
  rw [hgain x] at hx
  exact hf x hx

theorem Owes.bind_lose (h : Owes S (n + ((loss o).any S).toNat) l)
    (ho : (attaching reader).guar l o) (hgain : ∀ x, ReaderBalance.gain o x = none)
    (hf : ∀ x, Owes S n (l ++ [⟨o, x⟩]) → wp (attaching reader) (f x) (l ++ [⟨o, x⟩]) Q) :
    wp (attaching reader) (Program.ask o >>= f) l Q :=
  wp_ask_bind.mpr ⟨ho, fun x _ => hf x (h.lose (hgain x))⟩

end Steps

theorem wp_resolveImageOffset (h : Owes S n l) (offset : ULongPtr) :
    wp (attaching reader) (resolveImageOffset sys reader offset) l fun _ l' => Owes S n l' := by
  rw [resolveImageOffset]
  refine h.bind_pass trivial rfl (fun _ => rfl) fun irql h₁ => ?_
  rw [wp_ite]
  refine ⟨fun _ => h₁, fun _ => ?_⟩
  rw [wp_ite]
  refine ⟨fun _ => h₁, fun _ => ?_⟩
  refine h₁.bind_pass trivial rfl (fun _ => rfl) fun _ h₂ => ?_
  change wp _ (ite _ _ _) _ _
  rw [wp_ite]
  refine ⟨fun _ => h₂, fun _ => ?_⟩
  exact h₂.bind_pass trivial rfl (fun _ => rfl) fun _ h₃ => h₃

theorem wp_copyValue (h : Owes S n l) (address : ULongPtr) (size : SizeT) :
    wp (attaching reader) (copyValue sys reader address size) l fun _ l' => Owes S n l' := by
  rw [copyValue]
  refine h.bind_pass trivial rfl (fun _ => rfl) fun irql h₁ => ?_
  rw [wp_ite]
  refine ⟨fun _ => h₁, fun hready => ?_⟩
  rw [not_or] at hready
  rw [wp_ite]
  refine ⟨fun _ => h₁, fun _ => ?_⟩
  refine h₁.bind_pass trivial rfl (fun _ => rfl) fun _ h₂ => ?_
  change wp _ (ite _ _ _) _ _
  rw [wp_ite]
  refine ⟨fun _ => h₂, fun _ => ?_⟩
  refine h₂.bind_gain ⟨rfl, hready.2⟩ rfl fun _ h₃ => ?_
  refine h₃.bind_pass trivial rfl (fun _ => rfl) fun outcome h₄ => ?_
  refine Owes.bind_lose h₄ trivial (fun _ => rfl) fun _ h₅ => ?_
  rw [wp_ite]
  refine ⟨fun _ => h₅, fun _ => ?_⟩
  rw [wp_ite]
  exact ⟨fun _ => h₅, fun _ => h₅⟩

theorem wp_writeUInt32 (h : Owes S n l) (address : ULongPtr) (value : ULong) :
    wp (attaching reader) (writeUInt32 sys reader address value) l fun _ l' => Owes S n l' := by
  rw [writeUInt32]
  refine h.bind_pass trivial rfl (fun _ => rfl) fun irql h₁ => ?_
  rw [wp_ite]
  refine ⟨fun _ => h₁, fun hready => ?_⟩
  rw [not_or] at hready
  rw [wp_ite]
  refine ⟨fun _ => h₁, fun _ => ?_⟩
  refine h₁.bind_pass trivial rfl (fun _ => rfl) fun _ h₂ => ?_
  refine h₂.bind_pass trivial rfl (fun _ => rfl) fun _ h₃ => ?_
  change wp _ (ite _ _ _) _ _
  rw [wp_ite]
  refine ⟨fun _ => h₃, fun _ => ?_⟩
  refine h₃.bind_gain ⟨rfl, hready.2⟩ rfl fun _ h₄ => ?_
  refine h₄.bind_pass trivial rfl (fun _ => rfl) fun probed h₅ => ?_
  cases probed with
  | some code => exact Owes.bind_lose h₅ trivial (fun _ => rfl) fun _ h₆ => h₆
  | none =>
    refine h₅.bind_pass trivial rfl (fun _ => rfl) fun raised h₆ => ?_
    exact Owes.bind_lose h₆ trivial (fun _ => rfl) fun _ h₇ => h₇

def Bound (S : Resource → Bool) (reader : KernelProcessMemoryReader)
    (r : NtStatus × KernelProcessMemoryReader) (l : WinLog) : Prop :=
  Owes S (held S r.2) l ∧ (reader.process ≠ nullptr → r.2 = reader) ∧
    (ntSuccess r.1 = false → r.2 = reader)

theorem held_empty {reader : KernelProcessMemoryReader} (h : reader.process = nullptr) :
    held S reader = 0 := if_neg fun hc => hc.1 h

/-- A reader of the object that a call has handed out owns its reference. -/
theorem held_handed {object : PEProcess} :
    held S ⟨object⟩ = ((if object ≠ nullptr then some (Resource.reference object) else none).any
      S).toNat := by
  rw [held]
  by_cases hnull : object = nullptr
  · simp [hnull]
  · cases hS : S (.reference object) <;> simp [hnull, hS]

theorem wp_initializeById (h : Owes S (held S reader) l) (processId : Handle) :
    wp (attaching reader) (initializeById reader processId) l (Bound S reader) := by
  rw [initializeById]
  refine h.bind_pass trivial rfl (fun _ => rfl) fun irql h₁ => ?_
  have hrefused : ∀ status, Bound S reader (status, reader) (l ++ [⟨.keGetCurrentIrql, irql⟩]) :=
    fun _ => ⟨h₁, fun _ => rfl, fun _ => rfl⟩
  rw [wp_ite]
  refine ⟨fun _ => hrefused _, fun _ => ?_⟩
  rw [wp_ite]
  refine ⟨fun _ => hrefused _, fun hnull => ?_⟩
  rw [not_not] at hnull
  rw [wp_ite]
  refine ⟨fun _ => hrefused _, fun _ => ?_⟩
  refine h₁.bind_gain trivial rfl fun found h₂ => ?_
  rw [held_empty hnull, Nat.zero_add] at h₂
  rw [wp_pure]
  by_cases hfound : ntSuccess found.status
  · rw [if_pos hfound]
    refine ⟨?_, fun hne => absurd hnull hne, fun hs => absurd hfound (by simp [hs])⟩
    rw [held_handed]
    simpa [gain, hfound] using h₂
  · rw [if_neg hfound]
    refine ⟨?_, fun _ => rfl, fun _ => rfl⟩
    rw [held_empty hnull]
    simpa [gain, hfound] using h₂

def handed (r : Handed) : Option Resource :=
  if ntSuccess r.status ∧ r.object ≠ nullptr then some (.reference r.object) else none

theorem handed_failed {r : Handed} (h : ¬ntSuccess r.status) : handed r = none :=
  if_neg fun hc => h hc.1

theorem handed_succeeded {r : Handed} (h : ntSuccess r.status) :
    handed r = if r.object ≠ nullptr then some (.reference r.object) else none := by
  simp only [handed, h, true_and]

theorem wp_referenceProcess (h : Owes S n l) (handle : Handle) (access : AccessMask)
    (status : NtStatus) :
    wp (attaching reader) (referenceProcess handle access status) l fun r l' =>
      Owes S (n + ((handed r).any S).toNat) l' := by
  rw [referenceProcess, wp_ite]
  refine ⟨fun _ => ⟨trivial, fun r _ => h.gain rfl r⟩, fun hs => ?_⟩
  have hfailed : handed ⟨status, nullptr⟩ = none := handed_failed hs
  rw [wp_pure, hfailed]
  exact h

theorem wp_checkImageName {image : NameOutcome}
    (h : Owes S (n + ((if ntSuccess image.status then some Resource.nameBuffer else none).any
      S).toNat) l) :
    wp (attaching reader) (checkImageName sys image) l fun _ l' => Owes S n l' := by
  rw [checkImageName, wp_ite]
  refine ⟨fun hs => ?_, fun hs => ?_⟩
  · rw [if_pos hs] at h
    exact Owes.bind_lose h trivial (fun _ => rfl) fun _ h₁ => h₁
  · rw [if_neg hs] at h
    exact h

theorem wp_initializeForRequest (h : Owes S (held S reader) l) (processId : Handle)
    (allowWrite : Bool) :
    wp (attaching reader) (initializeForRequest sys reader processId allowWrite) l
      (Bound S reader) := by
  rw [initializeForRequest]
  refine h.bind_pass trivial rfl (fun _ => rfl) fun irql h₁ => ?_
  rw [wp_ite]
  refine ⟨fun _ => ⟨h₁, fun _ => rfl, fun _ => rfl⟩, fun hbound => ?_⟩
  rw [not_or, not_not, not_not] at hbound
  have hnull := hbound.2
  -- From here on the reader owns nothing, so every way out must have given all back.
  have hout : ∀ {status : NtStatus} {l' : WinLog}, Owes S 0 l' → Bound S reader (status, reader) l' :=
    fun h' => ⟨by rwa [held_empty hnull], fun _ => rfl, fun _ => rfl⟩
  rw [held_empty hnull] at h₁
  rw [wp_ite]
  refine ⟨fun _ => hout h₁, fun _ => ?_⟩
  refine h₁.bind_gain trivial rfl fun opened h₂ => ?_
  rw [wp_ite]
  rw [ReaderBalance.gain] at h₂
  refine ⟨fun hs => hout ?_, fun hs => ?_⟩
  · rwa [if_neg (by simpa using hs)] at h₂
  rw [if_pos (by simpa using hs)] at h₂
  refine h₂.bind_pass trivial rfl (fun _ => rfl) fun info h₃ => ?_
  rw [wp_bind]
  refine wp_mono (wp_referenceProcess h₃ _ _ _) fun referenced l₄ h₄ => ?_
  rw [Nat.add_right_comm] at h₄
  refine Owes.bind_lose h₄ trivial (fun _ => rfl) fun _ h₅ => ?_
  rw [Nat.zero_add] at h₅
  rw [wp_ite]
  refine ⟨fun hs => hout ?_, fun hs => ?_⟩
  · rwa [handed_failed (by simpa using hs)] at h₅
  have hreferenced : ntSuccess referenced.status := by simpa using hs
  rw [handed_succeeded hreferenced] at h₅
  refine h₅.bind_gain trivial rfl fun image h₆ => ?_
  rw [wp_bind]
  refine wp_mono (wp_checkImageName h₆) fun status l₇ h₇ => ?_
  rw [wp_ite]
  refine ⟨fun _ => ?_, fun _ => ?_⟩
  · rw [← Nat.zero_add (Bool.toNat _)] at h₇
    exact Owes.bind_lose h₇ trivial (fun _ => rfl) fun _ h₈ => hout h₈
  · refine ⟨?_, fun hne => absurd hnull hne, fun hs => nomatch hs⟩
    rwa [held_handed]

theorem wp_perform (h : Owes S (held S reader) l) (call : Call) :
    wp (attaching reader) (perform sys reader call) l (Bound S reader) := by
  have hconst : ∀ {α : Type} {p : Windows α} (status : α → NtStatus),
      wp (attaching reader) p l (fun _ l' => Owes S (held S reader) l') →
      wp (attaching reader) (p >>= fun a => pure (status a, reader)) l (Bound S reader) := by
    intro α p status hp
    rw [wp_bind]
    exact wp_mono hp fun _ _ h' => ⟨h', fun _ => rfl, fun _ => rfl⟩
  cases call with
  | initializeById processId => exact wp_initializeById h processId
  | initializeForRequest processId allowWrite =>
    exact wp_initializeForRequest h processId allowWrite
  | resolveImageOffset offset => exact hconst _ (wp_resolveImageOffset h offset)
  | read bits address =>
    refine hconst MemoryReadResult.status ?_
    rw [KernelProcessMemoryReader.read, wp_bind]
    exact wp_copyValue h address _
  | writeUInt32 address value => exact hconst _ (wp_writeUInt32 h address value)

theorem owes_nil : Owes S (held S .empty) [] := by
  have hheld : held S .empty = 0 := held_empty rfl
  rw [hheld]
  rfl

theorem wp_performAll {reader : KernelProcessMemoryReader} {l : WinLog}
    (h : Owes S (held S reader) l) (calls : List Call) :
    wp ⟨fun _ _ _ => True, fun _ _ => True⟩ (performAll sys reader calls) l fun r l' =>
      Owes S (held S r) l' := by
  induction calls generalizing reader l with
  | nil => exact h
  | cons call calls ih =>
    rw [performAll, wp_bind]
    exact wp_mono (wp_contract (fun _ _ _ _ => trivial) (fun _ _ _ => trivial) (wp_perform h call))
      fun r l' hr => ih hr.1

theorem wp_destroy (h : Owes S (held S reader) l) :
    wp (attaching reader) reader.destroy l fun _ l' => Owes S 0 l' := by
  rw [destroy, wp_ite]
  refine ⟨fun hne => ?_, fun hnull => ?_⟩
  · have hheld : held S reader = 0 + ((loss (.obDereferenceObject reader.process)).any S).toNat := by
      rw [loss, if_pos hne, held]
      cases hS : S (.reference reader.process) <;> simp [hne, hS]
    rw [hheld] at h
    exact ⟨trivial, fun _ _ => h.lose rfl⟩
  · rwa [held_empty (not_not.mp hnull)] at h

end Rules

/-- Whatever is called on a reader, and whatever the kernel answers: of each set `S` of resources
all that was handed out has been given back after the calls, but for the reference to the process
that the reader is bound to. The destructor gives that back too. -/
theorem calls_balanced (sys : Platform) (env : WinEnv) (calls : List Call) :
    let run := (performAll sys .empty calls).run env []
    let reader := run.1
    (∀ S, acquired S run.2 = released S run.2 + held S reader) ∧
      (∀ call, let next := (perform sys reader call).run env run.2
        (reader.process ≠ nullptr → next.1.2 = reader) ∧
        (ntSuccess next.1.1 = false → next.1.2 = reader) ∧
        ∀ l₁ process x l₂, next.2 = l₁ ++ ⟨.keStackAttachProcess process, x⟩ :: l₂ →
          run.2.length ≤ l₁.length → process = reader.process ∧ process ≠ nullptr) ∧
      ∀ S, acquired S (reader.destroy.run env run.2).2 =
        released S (reader.destroy.run env run.2).2 := by
  intro run reader
  have hbalance : ∀ S, Owes S (held S reader) run.2 := fun S =>
    run_of_wp (fun _ _ => trivial) (wp_performAll owes_nil calls)
  refine ⟨hbalance, fun call => ?_, fun S => ?_⟩
  · have hperform : wp (attaching reader) (perform sys reader call) run.2
        (Bound (fun _ => false) reader) := wp_perform (hbalance fun _ => false) call
    have henv : ∀ l o, (attaching reader).rely l o (env l o) := fun _ _ => trivial
    obtain ⟨-, hbound, hfailed⟩ := run_of_wp henv hperform
    refine ⟨hbound, hfailed, fun l₁ process x l₂ hsplit hl => ?_⟩
    exact guar_of_wp (fun _ _ => trivial) hperform hsplit hl
  · exact run_of_wp (fun _ _ => trivial) (wp_destroy (hbalance S))

end DarkEden.ReaderBalance
