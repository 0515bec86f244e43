import DarkEden.Served

namespace DarkEden.EngineRules

open Interaction Protocol Client Engine ReaderRules
open Target (TableDriven accepted)

variable {sys : Platform} {T : Target sys} {process : PEProcess} {l : Log UserAns}

section Api

/-- The answers of the target to programs that do not talk to the driver. -/
def answers (T : Target sys) : Env UserAns := fun _ o =>
  match o with
  | .api o => T.api o
  | .deviceIoControl _ _ _ _ => .failed 0

theorem wp_api {α : Type} {p : User α} (hp : Uses (fun o => ∃ a, o = UserOp.api a) p)
    (l l₀ : Log UserAns) :
    wp (T.served process) p l fun a _ => a = (p.run (answers T) l₀).1 := by
  induction p generalizing l l₀ with
  | done a => rfl
  | call o next ih =>
    obtain ⟨⟨o, rfl⟩, hnext⟩ := hp
    refine ⟨trivial, fun x hx => ?_⟩
    change x = T.api o at hx
    subst hx
    exact ih _ (hnext _) _ _

theorem require_api {condition : Prop} [Decidable condition] {error : WString} :
    Uses (fun o => ∃ a, o = UserOp.api a) (require condition error).run := by
  by_cases h : condition
  · rw [require, if_pos h]
    exact uses_pure _
  · rw [require, if_neg h]
    exact uses_pure _

theorem isGame_api (region : MemoryBasicInformation) :
    Uses (fun o => ∃ a, o = UserOp.api a) (isGame region) :=
  uses_ite (fun _ => uses_bind (uses_ask ⟨_, rfl⟩) fun _ => uses_pure _) fun _ => uses_pure _

theorem findImageBase_api (processId : DWord) :
    Uses (fun o => ∃ a, o = UserOp.api a) (findImageBase processId).run := by
  have hscan : ∀ address, Uses (fun o => ∃ a, o = UserOp.api a) (scanRegion address) := by
    intro address
    apply uses_ite (fun _ => uses_pure _)
    intro _
    apply uses_bind (uses_ask ⟨_, rfl⟩)
    intro region
    cases region with
    | none => exact uses_pure _
    | some region =>
      apply uses_bind (isGame_api region)
      intro found
      refine uses_ite (fun _ => uses_pure _) fun _ => uses_ite (fun _ => uses_pure _) fun _ => ?_
      exact uses_pure _
  apply uses_run_bind (uses_run_lift (uses_ask ⟨_, rfl⟩))
  intro opened
  apply uses_run_bind require_api
  intro _
  apply uses_run_bind (uses_run_lift (uses_loop hscan _ _))
  intro found
  match found with
  | some (some imageBase) => exact uses_pure _
  | some none => exact uses_pure _
  | none => exact uses_pure _

def imageBase (T : Target sys) (processId : DWord) : Option ULongPtr :=
  ((findImageBase processId).run.run (answers T) []).1.toOption

theorem wp_findImageBase (processId : DWord) (l : Log UserAns) :
    wp (T.served process) (findImageBase processId).run l fun r _ =>
      r.toOption = imageBase T processId :=
  wp_mono (wp_api (findImageBase_api processId) l []) fun _ _ hr => congrArg Except.toOption hr

def Agrees (T : Target sys) (process : PEProcess) (processId : DWord) : Prop :=
  imageBase T processId = some (sys.psGetProcessSectionBaseAddress process)

theorem wp_findImageBase_agrees {α : Type} {processId : DWord} {f : ULongPtr → Fallible α}
    {P : Except WString α → Prop} (hagrees : Agrees T process processId)
    (h : ∀ l', wp (T.served process) (f (sys.psGetProcessSectionBaseAddress process)).run l'
      fun r _ => P r) :
    wp (T.served process) (findImageBase processId >>= f).run l fun r _ => P r := by
  refine wp_run_bind.mpr (wp_mono (wp_findImageBase processId l) fun r l' hr => ?_)
  rw [hagrees] at hr
  cases r with
  | error e => cases hr
  | ok base =>
    obtain rfl := Option.some.inj hr
    exact h l'

/-- `FindImageBase` ends because the addresses grow, not because the passes run out. -/
theorem wp_scanRegion_ends (l : Log UserAns) :
    wp (T.served process) (Program.loop scanRegion 0x100000000 0x10000) l fun r _ => r ≠ none := by
  refine wp_loop (fun n address _ => 2 ^ 32 < min address.toNat (2 ^ 32) + n)
    (fun n address l hI => ?_) (fun address l hI => ?_) _ _ _ (by decide)
  · rw [scanRegion, wp_ite]
    refine ⟨fun _ => Option.some_ne_none _, fun hlow => ?_⟩
    refine wp_ask_bind.mpr ⟨trivial, fun region _ => ?_⟩
    cases region with
    | none => exact Option.some_ne_none _
    | some region =>
      change wp _ (isGame region >>= _) _ _
      rw [wp_bind]
      refine wp_mono (wp_api (isGame_api region) _ []) fun found l' _ => ?_
      rw [wp_ite]
      refine ⟨fun _ => Option.some_ne_none _, fun _ => ?_⟩
      rw [wp_ite]
      refine ⟨fun _ => Option.some_ne_none _, fun hnext => ?_⟩
      change 2 ^ 32 < min (region.baseAddress + region.regionSize).toNat (2 ^ 32) + n
      rw [ge_iff_le, BitVec.not_le] at hlow
      rw [BitVec.not_le] at hnext
      have hlow' : address.toNat < 2 ^ 32 := hlow
      rw [BitVec.lt_def] at hnext
      omega
  · omega

end Api

section Read

theorem wp_deviceError (code : DWord) (l : Log UserAns) :
    wp (T.served process) (deviceError sys code) l fun _ _ => True :=
  wp_mono (wp_api (deviceError_api sys code) l []) fun _ _ _ => trivial

/-- What a client gets out of a request that the device is open for. -/
theorem wp_read {processId : DWord} (request : Request)
    (hvalid : validRequest { request with processId := processId.setWidth 64 })
    (htable : TableDriven request) (l : Log UserAns) :
    wp (T.served process) (read sys processId request) l fun outcome _ =>
      accepted request outcome =
        if T.api (.createFileW genericRead) = none then
          T.coordinate process { request with processId := processId.setWidth 64 }
        else none := by
  apply wp_read_of sys trivial
  · intro code hopened
    replace hopened : some code = T.api (.createFileW genericRead) := hopened
    rw [← hopened]
    exact wp_mono (wp_deviceError code _) fun _ _ _ => rfl
  · exact fun _ hinvalid => absurd hvalid hinvalid
  · intro hopened _
    replace hopened : none = T.api (.createFileW genericRead) := hopened
    have hcommand : readCoordinates ≠ selectTarget := by decide
    refine ⟨hcommand, fun reply hreply => ?_⟩
    let sent : Request := { request with processId := processId.setWidth 64 }
    have hvalue : accepted sent (readReply sys sent reply) = T.coordinate process sent :=
      hreply sent ⟨rfl, rfl, rfl, rfl, hvalid, htable⟩
    rw [if_pos hopened.symm]
    exact hvalue

theorem wp_require {C : Contract UserAns} {condition : Prop} [Decidable condition]
    {error : WString} {Q : Except WString Unit → Log UserAns → Prop} :
    wp C (require condition error).run l Q ↔
      (condition → Q (.ok ()) l) ∧ (¬condition → Q (.error error) l) := by
  by_cases h : condition
  · rw [require, if_pos h]
    exact ⟨fun hq => ⟨fun _ => hq, fun hn => absurd h hn⟩, fun hq => hq.1 h⟩
  · rw [require, if_neg h]
    exact ⟨fun hq => ⟨fun hc => absurd hc h, fun _ => hq⟩, fun hq => hq.2 h⟩

theorem wp_require_toOption {condition : Prop} [Decidable condition] {error : WString} :
    wp (T.served process) (require condition error).run l fun r _ =>
      r.toOption = (guard condition : Option Unit) := by
  refine wp_require.mpr ⟨fun h => ?_, fun h => ?_⟩
  · rw [guard, if_pos h]
    rfl
  · rw [guard, if_neg h]
    rfl

/-- The device opens for reading, and the driver gets at the process and its image. -/
def Reachable (T : Target sys) (process : PEProcess) : Prop :=
  T.api (.createFileW genericRead) = none ∧ T.ready ⟨process⟩ ∧
    sys.psGetProcessSectionBaseAddress process ≠ 0

instance (T : Target sys) (process : PEProcess) : Decidable (Reachable T process) :=
  inferInstanceAs (Decidable (_ ∧ _ ∧ _))

/-- What the engine reads relative to the image: nothing up to the image base and nothing
above 4 GiB. -/
def seen (T : Target sys) (process : PEProcess) (address : ULongPtr) : Option ULong :=
  if Reachable T process ∧ sys.psGetProcessSectionBaseAddress process < address ∧
      address ≤ 0xFFFFFFFF then T.dword address
  else none

theorem seen_eq_some {address : ULongPtr} {value : ULong} :
    seen T process address = some value ↔
      (Reachable T process ∧ sys.psGetProcessSectionBaseAddress process < address ∧
        address ≤ 0xFFFFFFFF) ∧ T.dword address = some value := by
  rw [seen, Option.ite_none_right_eq_some]

theorem le_of_dword {address : ULongPtr} {value : ULong} (h : T.dword address = some value) :
    address ≤ sys.mmHighestUserAddress := by
  rw [Target.dword, Target.peek] at h
  by_cases hc : CopyRange sys address (byteSize 32) ∧
      Interaction.ByteMemory.covers T.readable address (byteSize 32).toNat
  · have hlast := hc.1.2.2.2
    have hsize : (byteSize 32).toNat = 4 := rfl
    rw [BitVec.le_def]
    omega
  · rw [if_neg hc] at h
    cases h

theorem widened_processId {processId : DWord} (hpid : processId ≠ 0) :
    processId.setWidth 64 ≠ (0 : ULongLong) ∧ processId.setWidth 64 ≤ (0xFFFFFFFF : ULongLong) := by
  constructor <;> bv_omega

theorem validRequest_direct {processId : DWord} (hpid : processId ≠ 0) {offset : ULongPtr}
    (hoffset : offset ≠ 0) : validRequest (directRequest processId offset) := by
  obtain ⟨hwide, hsmall⟩ := widened_processId hpid
  exact decide_eq_true ⟨rfl, rfl, .inl rfl, hwide, hsmall, hoffset, .inl rfl, .inl ⟨rfl, rfl⟩,
    .inl rfl⟩

theorem coordinate_direct {processId : DWord} {address : ULongPtr}
    (hlow : sys.psGetProcessSectionBaseAddress process < address) :
    T.coordinate process (directRequest processId
        (address - sys.psGetProcessSectionBaseAddress process)) =
      if T.ready ⟨process⟩ ∧ sys.psGetProcessSectionBaseAddress process ≠ 0 then T.dword address
      else none := by
  have hsum : sys.psGetProcessSectionBaseAddress process +
      (address - sys.psGetProcessSectionBaseAddress process) = address := by bv_omega
  have hrange : ImageRange sys (sys.psGetProcessSectionBaseAddress process)
        (address - sys.psGetProcessSectionBaseAddress process) ↔
      sys.psGetProcessSectionBaseAddress process ≠ 0 ∧ address ≤ sys.mmHighestUserAddress := by
    rw [ImageRange]
    bv_omega
  apply Option.ext
  intro value
  rw [Target.coordinate_eq_some, Option.ite_none_right_eq_some]
  change (_ ∧ ImageRange sys _ (_ - _)) ∧ (∃ a, some (_ + (_ - _)) = some a ∧ _) ↔ _
  rw [hsum, hrange]
  constructor
  · rintro ⟨⟨hready, hbase, -⟩, a, ha, hvalue⟩
    obtain rfl := Option.some.inj ha
    exact ⟨⟨hready, hbase⟩, hvalue⟩
  · rintro ⟨⟨hready, hbase⟩, hvalue⟩
    exact ⟨⟨hready, hbase, le_of_dword hvalue⟩, address, rfl, hvalue⟩

/-- What `ReadDword` comes to on the target, whatever image base the engine goes by. -/
def sight (T : Target sys) (process : PEProcess) (processId : DWord)
    (imageBase address : ULongPtr) : Option ULong :=
  if T.api (.createFileW genericRead) = none ∧ processId ≠ 0 ∧ imageBase < address ∧
      address ≤ 0xFFFFFFFF then
    T.coordinate process (directRequest processId (address - imageBase))
  else none

theorem wp_read_refused (request : Request) (l : Log UserAns) :
    wp (T.served process) (read sys 0 request) l fun outcome _ => outcome.ok = false := by
  have hinvalid : ¬validRequest { request with processId := (0 : DWord).setWidth 64 } := by
    intro h
    obtain ⟨-, -, -, hpid, -⟩ := of_decide_eq_true h
    exact hpid rfl
  apply wp_read_of sys trivial
  · exact fun code _ => wp_mono (wp_deviceError code _) fun _ _ _ => rfl
  · exact fun _ _ _ _ => rfl
  · exact fun _ hvalid => absurd hvalid hinvalid

theorem wp_readDword_sight (processId : DWord) (imageBase address : ULongPtr) (l : Log UserAns) :
    wp (T.served process) (readDword sys processId imageBase address).run l fun r _ =>
      r.toOption = sight T process processId imageBase address := by
  rw [readDword, sight]
  refine wp_run_bind.mpr (wp_require.mpr ⟨fun hrange => ?_, fun hrange => ?_⟩)
  · rw [not_or, BitVec.not_le, gt_iff_lt, BitVec.not_lt] at hrange
    by_cases hpid : processId = 0
    · subst hpid
      rw [if_neg fun hc => hc.2.1 rfl]
      refine wp_run_bind.mpr ((wp_map _ _ _ _).mpr (wp_mono (wp_read_refused _ l)
        fun outcome l' hrefused => ?_))
      rw [accept, hrefused]
      rfl
    have hoffset : address - imageBase ≠ 0 := by bv_omega
    refine wp_run_bind.mpr ((wp_map _ _ _ _).mpr (wp_mono (wp_read _
      (validRequest_direct hpid hoffset) ⟨.inl ⟨rfl, rfl⟩, .inl rfl⟩ l) fun outcome l' houtcome => ?_))
    have hvalue : (if T.api (.createFileW genericRead) = none ∧ processId ≠ 0 ∧ imageBase < address ∧
        address ≤ 0xFFFFFFFF then
          T.coordinate process (directRequest processId (address - imageBase)) else none) =
        accepted (directRequest processId (address - imageBase)) outcome := by
      rw [houtcome]
      by_cases hopen : T.api (.createFileW genericRead) = none
      · rw [if_pos hopen, if_pos ⟨hopen, hpid, hrange⟩]
        rfl
      · rw [if_neg hopen, if_neg fun hc => hopen hc.1]
    rw [hvalue, accepted, accept]
    cases outcome.ok with
    | true => rfl
    | false => rfl
  · rw [if_neg fun hc =>
      hrange (not_or.mpr ⟨BitVec.not_le.mpr hc.2.2.1, BitVec.not_lt.mpr hc.2.2.2⟩)]
    rfl

/-- Engine and driver mean the same addresses. -/
theorem sight_agrees {processId : DWord} (hpid : processId ≠ 0) (address : ULongPtr) :
    sight T process processId (sys.psGetProcessSectionBaseAddress process) address =
      seen T process address := by
  rw [sight]
  by_cases hlow : sys.psGetProcessSectionBaseAddress process < address
  · rw [coordinate_direct hlow]
    apply Option.ext
    intro value
    rw [seen_eq_some, Option.ite_none_right_eq_some, Option.ite_none_right_eq_some]
    constructor
    · rintro ⟨⟨hopen, -, -, hhigh⟩, ⟨hready, hbase⟩, hvalue⟩
      exact ⟨⟨⟨hopen, hready, hbase⟩, hlow, hhigh⟩, hvalue⟩
    · rintro ⟨⟨⟨hopen, hready, hbase⟩, -, hhigh⟩, hvalue⟩
      exact ⟨⟨hopen, hpid, hlow, hhigh⟩, ⟨hready, hbase⟩, hvalue⟩
  · rw [if_neg fun hc => hlow hc.2.2.1, seen, if_neg fun hc => hlow hc.2.1]

theorem wp_readDword {processId : DWord} (hpid : processId ≠ 0) (address : ULongPtr)
    (l : Log UserAns) :
    wp (T.served process) (readDword sys processId (sys.psGetProcessSectionBaseAddress process)
      address).run l fun r _ => r.toOption = seen T process address := by
  rw [← sight_agrees hpid]
  exact wp_readDword_sight processId _ address l

theorem wp_readDword_refused (base address : ULongPtr) (l : Log UserAns) :
    wp (T.served process) (readDword sys 0 base address).run l fun r _ => r.toOption = none := by
  have hnone : sight T process 0 base address = none := if_neg fun hc => hc.2.1 rfl
  rw [← hnone]
  exact wp_readDword_sight 0 base address l

theorem wp_readField {processId : DWord} (hpid : processId ≠ 0) (pointer : ULong)
    (offset : ULongPtr) (l : Log UserAns) :
    wp (T.served process) (Engine.readField sys processId (sys.psGetProcessSectionBaseAddress process)
      pointer offset).run l fun r _ => r.toOption = seen T process (pointer.setWidth 64 + offset) :=
  wp_readDword hpid _ l

theorem field_of_seen {pointer value : ULong} {offset : ULongPtr}
    (h : seen T process (pointer.setWidth 64 + offset) = some value) :
    T.field pointer offset = some value :=
  (seen_eq_some.mp h).2

theorem wp_readText (processId : DWord) (request : TextRequest) (l : Log UserAns) :
    wp (T.served process) (Client.readText sys processId request) l fun _ _ => True := by
  rw [Client.readText, wp_ite]
  refine ⟨fun _ => trivial, fun _ => ?_⟩
  refine wp_ask_bind.mpr ⟨trivial, fun opened _ => ?_⟩
  cases opened with
  | some code =>
    change wp _ (deviceError sys code >>= _) _ _
    rw [wp_bind]
    exact wp_mono (wp_deviceError code _) fun _ _ _ => trivial
  | none =>
    have hcommand : Protocol.readText ≠ selectTarget := by decide
    exact ⟨hcommand, fun _ _ => trivial⟩

end Read

end DarkEden.EngineRules
