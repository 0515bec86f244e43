import DarkEden.Interaction.Interleaving
import DarkEden.ReaderBalance
import DarkEden.Selection
import DarkEden.Walkers
import Mathlib.Algebra.Order.BigOperators.Group.Finset

namespace DarkEden.Concurrency

open Interaction ByteMemory ReaderRules Selection Walkers Protocol
open KernelProcessMemoryReader (perform)

variable {sys : Platform}

def Asks (irp : Irp) (request : SelectTargetRequest) : Prop :=
  irp.ioControlCode = selectTarget ∧
    (∃ buffer, irp.systemBuffer = some buffer ∧ request = .decode buffer) ∧
    validSelectTargetRequest request

section Writes

variable {irp : Irp}

/-- A request only writes if it is a selection, at most once, and only a justified slot. -/
def WriteGuarded (sys : Platform) (irp : Irp) (l : WinLog) : WinOp → Prop
  | .interlockedExchange a v => ∃ request, Asks irp request ∧
      WriteAllowed sys request.targetId l (.interlockedExchange a v)
  | _ => True

def guarded (sys : Platform) (irp : Irp) : Contract WinAns :=
  ⟨fun _ _ _ => True, WriteGuarded sys irp⟩

theorem writeGuarded_of_not_writes {o : WinOp} (ho : o.writes = false) (l : WinLog) :
    WriteGuarded sys irp l o := by
  cases o <;> trivial

theorem guarded_keeps : Keeps (guarded sys irp) fun _ => True where
  guar l _ _ ho := writeGuarded_of_not_writes (writes_of_plain ho) l
  keep _ _ _ _ _ _ := trivial

theorem perform_guarded (reader : KernelProcessMemoryReader) (o : ReaderOp) (l : WinLog)
    (ho : Tame o) : wp (guarded sys irp) (perform sys reader o) l fun _ _ => True := by
  have hnote : ∀ n, FreeNote (guarded sys irp) (fun _ => True) n := fun _ _ _ => ⟨trivial, trivial⟩
  cases o with
  | note n => exact ⟨trivial, fun _ _ => trivial⟩
  | resolveImageOffset offset =>
    exact wp_mono (wp_resolveImageOffset guarded_keeps rfl (fun _ => hnote _) (fun _ => hnote _)
      trivial) fun _ _ _ => trivial
  | read bits address =>
    rw [perform, KernelProcessMemoryReader.read, wp_bind]
    exact wp_mono (wp_copyValue guarded_keeps (fun _ => hnote _)
      (fun _ _ _ _ => ⟨trivial, fun _ _ => trivial⟩) trivial) fun _ _ _ => trivial
  | writeUInt32 => exact ho.elim

theorem withReader_guarded {β : Type} {processId : Handle} {failed : NtStatus → β} {body : Memory β}
    (hbody : Uses Tame body) (l : WinLog) :
    wp (guarded sys irp) (withReader sys processId false failed body) l fun _ _ => True :=
  wp_withReader guarded_keeps (fun _ => guarded_keeps) (fun _ _ _ _ => trivial)
    (fun reader _ _ _ => wp_translate_invariant hbody (fun o l ho _ => perform_guarded reader o l ho)
      trivial) trivial

theorem select_guarded {request : SelectTargetRequest} (hasks : Asks irp request) {l : WinLog}
    (hl : Untouched l) :
    wp (guarded sys irp) (executeSelectTargetRequest sys request) l fun _ _ => True := by
  have hrestrained : wp (restraint sys request.targetId) (executeSelectTargetRequest sys request) l
      fun _ _ => True := by
    rw [executeSelectTargetRequest, if_neg (by simpa using hasks.2.2)]
    exact wp_withReader untouched_keeps (fun _ => restraint_keeps fun _ _ _ _ _ => trivial)
      (fun _ _ _ _ => trivial) (fun _ _ hl _ => wp_select_translate hl) hl
  refine wp_contract (fun _ _ _ _ => trivial) (fun l o ho => ?_) hrestrained
  cases o with
  | interlockedExchange a v => exact ⟨request, hasks, ho⟩
  | _ => trivial

theorem deviceControl_guarded (sys : Platform) (irp : Irp) :
    wp (guarded sys irp) (deviceControl sys irp) [] fun _ _ => True := by
  refine wp_deviceControl (J := Untouched) ?_ (fun _ _ _ _ => trivial) ?_ ?_ ?_ (by simp [Untouched])
  · exact ⟨fun l _ _ ho => writeGuarded_of_not_writes (writes_of_plain ho) l,
      fun l o x hl ho _ => hl.append (writes_of_plain ho) x⟩
  · intro buffer l _ _ _ hvalid
    rw [executeDarkEdenTextRequest, if_neg (by simpa using hvalid)]
    exact withReader_guarded (readResolvedText_tame _) l
  · intro buffer l hgate hl _ hvalid
    exact select_guarded ⟨hgate.command, ⟨buffer, hgate.buffer, rfl⟩, hvalid⟩ hl
  · intro buffer l _ _ _ hvalid
    rw [executeDarkEdenRequest, if_neg (by simpa using hvalid)]
    exact withReader_guarded (readResolved_tame _) l

end Writes

section Balance

open ReaderBalance (Resource Owes acquired released held attaching)

variable {S : Resource → Bool} {n : Nat} {l : WinLog}

def anything : Contract WinAns := ⟨fun _ _ _ => True, fun _ _ => True⟩

theorem perform_owes (reader : KernelProcessMemoryReader) (o : ReaderOp) (h : Owes S n l) :
    wp (attaching reader) (perform sys reader o) l fun _ l' => Owes S n l' := by
  cases o with
  | note => exact ⟨trivial, fun x _ => h.gain rfl x⟩
  | resolveImageOffset offset => exact ReaderBalance.wp_resolveImageOffset h offset
  | read bits address =>
    rw [perform, KernelProcessMemoryReader.read, wp_bind]
    exact ReaderBalance.wp_copyValue h address _
  | writeUInt32 address value => exact ReaderBalance.wp_writeUInt32 h address value

theorem withReader_owes {β : Type} {processId : Handle} {allowWrite : Bool} {failed : NtStatus → β}
    {body : Memory β} (h : Owes S 0 l) :
    wp anything (withReader sys processId allowWrite failed body) l fun _ l' => Owes S 0 l' := by
  have hany : ∀ {γ : Type} {q : Windows γ} {reader : KernelProcessMemoryReader} {l : WinLog}
      {Q : γ → WinLog → Prop}, wp (attaching reader) q l Q → wp anything q l Q :=
    fun hq => wp_contract (fun _ _ _ _ => trivial) (fun _ _ _ => trivial) hq
  have hempty : held S .empty = 0 := ReaderBalance.held_empty rfl
  rw [withReader, wp_bind]
  refine wp_mono (hany (ReaderBalance.wp_initializeForRequest (by rwa [hempty]) processId allowWrite))
    fun r l₁ hr => ?_
  have huse : wp anything (useReader sys failed body r.1 r.2) l₁ fun _ l' =>
      Owes S (held S r.2) l' := by
    rw [useReader]
    split
    · exact hany (wp_translate_invariant (uses_of_forall (fun _ => trivial) body)
        (fun o l _ hl => perform_owes r.2 o hl) hr.1)
    · exact hr.1
  change wp anything (useReader sys failed body r.1 r.2 >>= _) l₁ _
  rw [wp_bind]
  refine wp_mono huse fun response l₂ h₂ => ?_
  rw [wp_bind]
  exact wp_mono (hany (ReaderBalance.wp_destroy h₂)) fun _ _ h₃ => h₃

theorem deviceControl_owes (sys : Platform) (irp : Irp) (h : Owes S 0 l) :
    wp anything (deviceControl sys irp) l fun _ l' => Owes S 0 l' := by
  refine wp_deviceControl_of_irql (J := Owes S 0) ?_ (fun _ _ hl _ => hl) ?_ ?_ ?_ h
  · exact fun l hl => ⟨trivial, fun irql _ => hl.gain rfl irql⟩
  · intro buffer l _ hl _ hvalid
    rw [executeDarkEdenTextRequest, if_neg (by simpa using hvalid)]
    exact withReader_owes hl
  · intro buffer l _ hl _ hvalid
    rw [executeSelectTargetRequest, if_neg (by simpa using hvalid)]
    exact withReader_owes hl
  · intro buffer l _ hl _ hvalid
    rw [executeDarkEdenRequest, if_neg (by simpa using hvalid)]
    exact withReader_owes hl

end Balance

section Requests

variable {ι : Type} [DecidableEq ι]

/-- IRPs that the driver works on at the same time, each in a thread of its own. -/
abbrev Serving (sys : Platform) (irps : ι → Irp) :
    History ι WinAns → (ι → Windows Completed) → Prop :=
  Interleaves fun i => deviceControl sys (irps i)

variable {irps : ι → Irp} {history : History ι WinAns} {rest : ι → Windows Completed}

def isWrite (e : Sigma WinAns) : Bool := e.1.writes

theorem writes_le_one (h : Serving sys irps history rest) (i : ι) :
    (own i history).countP isWrite ≤ 1 := by
  apply countP_le_one
  intro l₁ e l₂ hsplit he
  have hguarded := (h.wp (fun i => deviceControl_guarded sys (irps i)) (fun _ _ _ _ _ => trivial) i).2
    l₁ e l₂ hsplit
  obtain ⟨o, x⟩ := e
  cases o with
  | interlockedExchange a v =>
    obtain ⟨request, -, huntouched, -⟩ := hguarded
    exact huntouched
  | _ => cases he

theorem writes_of_not_asking (h : Serving sys irps history rest) {i : ι}
    (hi : (irps i).ioControlCode ≠ selectTarget) : (own i history).countP isWrite = 0 := by
  rw [List.countP_eq_zero]
  intro e he hwrite
  obtain ⟨l₁, l₂, hsplit⟩ := List.append_of_mem he
  have hguarded := (h.wp (fun i => deviceControl_guarded sys (irps i)) (fun _ _ _ _ _ => trivial) i).2
    l₁ e l₂ hsplit
  obtain ⟨o, x⟩ := e
  cases o with
  | interlockedExchange a v =>
    obtain ⟨request, hasks, -⟩ := hguarded
    exact hi hasks.1
  | _ => cases hwrite

/-- However the work on several requests and the game are interleaved, the driver writes only what
one of the selections asks for, into a slot that this selection has justified by its own reads, and
there are no more writes than selections. -/
theorem serving_writes [Fintype ι] (h : Serving sys irps history rest) :
    (∀ h₁ i a v x h₂, history = h₁ ++ (i, ⟨.interlockedExchange a v, x⟩) :: h₂ →
      ∃ request, Asks (irps i) request ∧
        WriteAllowed sys request.targetId (own i h₁) (.interlockedExchange a v)) ∧
      history.countP (fun e => isWrite e.2) ≤
        (Finset.univ.filter fun i => (irps i).ioControlCode = selectTarget).card := by
  constructor
  · intro h₁ i a v x h₂ hsplit
    exact h.guar (fun i => deviceControl_guarded sys (irps i)) (fun _ _ _ _ _ => trivial) hsplit
  · rw [countP_eq_sum, Finset.card_filter]
    apply Finset.sum_le_sum
    intro i _
    by_cases hi : (irps i).ioControlCode = selectTarget
    · rw [if_pos hi]
      exact writes_le_one h i
    · rw [if_neg hi, writes_of_not_asking h hi]

def twoSelections : Bool → Irp := fun _ => sampleIrp

def sampleAnswers (history : History Bool WinAns) : (o : WinOp) → WinAns o :=
  sampleGame.env 9 sampleImage (history.map Prod.snd)

def turns : List Bool := (List.replicate 90 [false, true]).flatten

def sampleServing : History Bool WinAns × (Bool → Windows Completed) :=
  interleave sampleAnswers turns ([], fun i => deviceControl samplePlatform (twoSelections i))

theorem sampleServing_serves :
    Serving samplePlatform twoSelections sampleServing.1 sampleServing.2 ∧
      Answered sampleAnswers sampleServing.1 :=
  interleaves_interleave sampleAnswers turns .start fun h₁ i e h₂ hsplit => by simp at hsplit

theorem serving_writes_sample :
    sampleServing.1.countP (fun e => isWrite e.2) = 2 ∧
      sampleServing.1.countP (fun e => isWrite e.2) ≤
        (Finset.univ.filter fun i => (twoSelections i).ioControlCode = selectTarget).card :=
  ⟨by decide +kernel, (serving_writes sampleServing_serves.1).2⟩

open ReaderBalance in
/-- A request that has ended has given back everything, whatever else is going on, and when all
have ended nothing is left that was handed out to any of them. -/
theorem serving_balanced [Fintype ι] (h : Serving sys irps history rest) (S : Resource → Bool) :
    (∀ i completed, rest i = .done completed →
      acquired S (own i history) = released S (own i history)) ∧
      ((∀ i, ∃ completed, rest i = .done completed) →
        acquired S (history.map Prod.snd) = released S (history.map Prod.snd)) := by
  have hended : ∀ i completed, rest i = .done completed →
      acquired S (own i history) = released S (own i history) := by
    intro i completed hdone
    have howes := h.result (C := fun _ => anything) (Q := fun _ _ l => Owes S 0 l)
      (fun i => deviceControl_owes sys (irps i) rfl) (fun _ _ _ _ _ => trivial) hdone
    rwa [Owes, Nat.add_zero] at howes
  refine ⟨hended, fun hall => ?_⟩
  have hsum : ∀ f : Sigma WinAns → Bool,
      (history.map Prod.snd).countP f = ∑ i, (own i history).countP f :=
    fun f => List.countP_map.trans (countP_eq_sum f history)
  rw [acquired, released, hsum, hsum]
  apply Finset.sum_congr rfl
  intro i _
  obtain ⟨completed, hdone⟩ := hall i
  exact hended i completed hdone

open ReaderBalance in
theorem serving_balanced_sample :
    acquired (fun _ => true) (own true sampleServing.1) =
        released (fun _ => true) (own true sampleServing.1) ∧
      0 < acquired (fun _ => true) (own true sampleServing.1) := by
  have hdone : ((sampleServing.2 true).result?).isSome := by decide +kernel
  obtain ⟨completed, hcompleted⟩ := Option.isSome_iff_exists.mp hdone
  exact ⟨(serving_balanced sampleServing_serves.1 _).1 true completed
    (Program.result?_eq_some hcompleted), by decide +kernel⟩

end Requests

end DarkEden.Concurrency
