import DarkEden.NearbyBounds

namespace DarkEden.DirectRead

open Interaction ByteMemory Protocol Client Engine EngineRules Traversal NearbyBounds ReaderRules

section Requests

/-! What the engine sends to the driver. -/

/-- The one request that `ReadDword` can send. -/
def Asking (processId : DWord) (imageBase address : ULongPtr) : UserOp → Prop
  | .api _ => True
  | .deviceIoControl command input inputLength outputLength =>
    command = readCoordinates ∧ input = (directRequest processId (address - imageBase)).encode ∧
      inputLength = sizeofRequest ∧ outputLength = sizeofResponse ∧
      validRequest (directRequest processId (address - imageBase)) ∧ imageBase < address ∧
      address ≤ 0xFFFFFFFF

variable {sys : Platform} {processId : DWord} {imageBase address : ULongPtr}

theorem asking_of_api {o : UserOp} (h : ∃ a, o = UserOp.api a) :
    Asking processId imageBase address o := by
  obtain ⟨a, rfl⟩ := h
  trivial

theorem readDword_uses (sys : Platform) (processId : DWord) (imageBase address : ULongPtr) :
    Uses (Asking processId imageBase address) (readDword sys processId imageBase address).run := by
  rw [readDword]
  by_cases hrange : address ≤ imageBase ∨ address > 0xFFFFFFFF
  · rw [require, if_neg (not_not.mpr hrange)]
    exact uses_pure _
  rw [require, if_pos hrange]
  obtain ⟨hlow, hhigh⟩ := not_or.mp hrange
  have hread : Uses (Asking processId imageBase address)
      (read sys processId (directRequest processId (address - imageBase))) := by
    refine uses_bind (uses_ask trivial) fun opened => ?_
    cases opened with
    | some code =>
      exact uses_bind (uses_mono (fun _ => asking_of_api) (deviceError_api sys code))
        fun _ => uses_pure _
    | none =>
      refine uses_ite (fun _ => uses_pure _) fun hvalid => ?_
      change ¬(!validRequest (directRequest processId (address - imageBase))) = true at hvalid
      refine uses_bind (uses_ask ⟨rfl, rfl, rfl, rfl, ?_, ?_⟩) fun _ => uses_pure _
      · simpa using hvalid
      · exact ⟨BitVec.not_le.mp hlow, BitVec.not_lt.mp hhigh⟩
  have haccept : Uses (Asking processId imageBase address)
      (accept <$> read sys processId (directRequest processId (address - imageBase))) :=
    uses_bind hread fun _ => uses_pure _
  change Uses _ (ExceptT.run (ExceptT.mk (accept <$> read sys processId _) >>= fun _ => pure _))
  exact uses_run_bind haccept fun _ => uses_pure _

/-- Whatever the driver answers, `ReadDword` reads nothing up to the image base. -/
theorem range_of_answered {env : Env UserAns} {value : ULong}
    (h : Answered sys processId imageBase env address (some value)) :
    imageBase < address ∧ address ≤ 0xFFFFFFFF := by
  obtain ⟨l, hl⟩ := h
  by_cases hrange : address ≤ imageBase ∨ address > 0xFFFFFFFF
  · rw [readDword, require, if_neg (not_not.mpr hrange)] at hl
    cases hl
  · obtain ⟨hlow, hhigh⟩ := not_or.mp hrange
    exact ⟨BitVec.not_le.mp hlow, BitVec.not_lt.mp hhigh⟩

/-- A text request is for the own name or for the name of an accepted actor, whose pointer lies
at the offset without underflow. -/
def Naming (sys : Platform) (processId : DWord) (imageBase : Option ULongPtr) (env : Env UserAns) :
    UserOp → Prop
  | .api _ => True
  | .deviceIoControl command input _ _ => command = Protocol.readText →
    input = (textRequest processId defaultTextOffset).encode ∨
      ∃ base actor id packed offset, imageBase = some base ∧
        Accepted (Answered sys processId base env) actor id packed ∧
        input = (textRequest processId offset).encode ∧
        base.toNat + offset.toNat = actor.toNat + 0x544

def naming (sys : Platform) (processId : DWord) (imageBase : Option ULongPtr) (env : Env UserAns) :
    Contract UserAns :=
  ⟨fun l o x => x = env l o, fun _ o => Naming sys processId imageBase env o⟩

variable {env : Env UserAns} {base? : Option ULongPtr}

theorem readText_uses (processId : DWord) {allowed : UserOp → Prop} (request : TextRequest)
    (hapi : ∀ a, allowed (.api a))
    (hsend : allowed (.deviceIoControl Protocol.readText
      { request with processId := processId.setWidth 64 }.encode sizeofTextRequest
      sizeofTextResponse)) :
    Uses allowed (Client.readText sys processId request) := by
  refine uses_ite (fun _ => uses_pure _) fun _ => uses_bind (uses_ask (hapi _)) fun opened => ?_
  cases opened with
  | some code =>
    refine uses_bind (uses_mono (fun o ho => ?_) (deviceError_api sys code)) fun _ => uses_pure _
    obtain ⟨a, rfl⟩ := ho
    exact hapi a
  | none => exact uses_bind (uses_ask hsend) fun _ => uses_pure _

theorem wp_naming_dword (imageBase address : ULongPtr) (l : Log UserAns) :
    wp (naming sys processId base? env) (readDword sys processId imageBase address).run l fun r _ =>
      Answered sys processId imageBase env address r.toOption := by
  refine wp_of_uses_run (fun _ o ho => ?_) (readDword_uses sys processId imageBase address) ⟨l, rfl⟩
  cases o with
  | api => trivial
  | deviceIoControl command input inputLength outputLength =>
    intro hcommand
    have hne : readCoordinates ≠ Protocol.readText := by decide
    exact absurd (ho.1.symm.trans hcommand) hne

theorem naming_reads {imageBase : ULongPtr} (hbase : base? = some imageBase) :
    Reads (naming sys processId base? env) sys processId imageBase
      (Answered sys processId imageBase env) fun _ _ => True where
  dword address l := wp_naming_dword imageBase address l
  name actor id packed l haccepted := by
    obtain ⟨hlow, -⟩ := range_of_answered haccepted.readId
    have hoffset : imageBase.toNat + (actor.setWidth 64 + 0x544 - imageBase).toNat =
        actor.toNat + 0x544 := by
      bv_omega
    exact wp_of_uses_run (fun _ _ ho => ho) (uses_bind (readText_uses processId _ (fun _ => trivial)
      fun _ => .inr ⟨imageBase, actor, id, packed, _, hbase, haccepted, rfl, hoffset⟩)
      fun _ => uses_pure _) trivial

theorem wp_naming (l : Log UserAns)
    (hbase : base? = ((findImageBase processId).run.run env l).1.toOption) :
    wp (naming sys processId base? env) (readNearbyCharacters sys processId).run l fun _ _ => True := by
  refine wp_mono (wp_readNearbyCharacters (B := fun base => base = base?)
    (R := fun base => Answered sys processId base env) (O := fun _ => True) (W := fun _ _ _ _ => True)
    ?_ (fun base address l _ => wp_naming_dword base address l) (fun l => ?_)
    fun base manager header root l hstart => ?_) fun _ _ _ => trivial
  · refine wp_of_uses_run (fun _ o ho => ?_) (findImageBase_api processId) hbase.symm
    obtain ⟨a, rfl⟩ := ho
    trivial
  · exact wp_of_uses_run (fun _ _ ho => ho) (uses_bind (readText_uses processId _
      (fun _ => trivial) fun _ => .inl rfl) fun _ => uses_pure _) trivial
  · exact wp_mono ((naming_reads hstart.toBase.symm).walkTree (J := fun _ => True) trivial
      (fun _ _ _ _ => trivial) l) fun _ _ _ => trivial

end Requests

section Driver

open KernelProcessMemoryReader (perform)

/-- The driver copies the dword at the address and nothing else, and its sums do not wrap. -/
def Aimed (imageBase address : ULongPtr) : WinOp → Prop
  | .mmCopyMemory a size => a = address ∧ size = 4
  | .interlockedExchange _ _ => False
  | .note (.sum a b) => a = imageBase ∧ b = address - imageBase ∧
      imageBase.toNat + (address - imageBase).toNat = address.toNat
  | .note (.diff a b) => b ≤ a
  | _ => True

variable {sys : Platform} {T : Target sys} {process client : PEProcess} {processId : DWord}
variable {address : ULongPtr}

def aimed (T : Target sys) (process : PEProcess) (address : ULongPtr) : Contract WinAns :=
  ⟨(T.openedSystem false process).rely, fun _ o =>
    Aimed (sys.psGetProcessSectionBaseAddress process) address o⟩

theorem aimed_keeps : Keeps (aimed T process address) fun _ => True where
  guar l o _ ho := by cases o <;> trivial
  keep _ _ _ _ _ _ := trivial

def pointed (imageBase address : ULongPtr) : Contract ReaderAns where
  rely
    | _, .resolveImageOffset _, x => ntSuccess x.status → x.address = address
    | _, _, _ => True
  guar
    | _, .resolveImageOffset offset => offset = address - imageBase
    | _, .read bits a => bits = 32 ∧ a = address
    | _, _ => False

theorem wp_pointed {imageBase : ULongPtr} (l : ReaderLog) :
    wp (pointed imageBase address) (readResolved (directRequest processId (address - imageBase))) l
      fun _ _ => True := by
  refine wp_ask_bind.mpr ⟨rfl, fun resolved hresolved => ?_⟩
  rw [wp_ite]
  refine ⟨fun _ => trivial, fun hs => ?_⟩
  have haddress : resolved.address = address := hresolved (by simpa using hs)
  rw [haddress, dispatchCoordinateRequest, wp_ite]
  refine ⟨fun _ => trivial, fun _ => ?_⟩
  refine wp_ask_bind.mpr ⟨⟨rfl, rfl⟩, fun value _ => ?_⟩
  rw [wp_ite]
  exact ⟨fun _ => trivial, fun _ => trivial⟩

theorem perform_pointed (hlow : sys.psGetProcessSectionBaseAddress process < address)
    (l₁ : ReaderLog) (l₂ : WinLog) (o : ReaderOp)
    (ho : (pointed (sys.psGetProcessSectionBaseAddress process) address).guar l₁ o) :
    wp (aimed T process address) (perform sys ⟨process⟩ o) l₂ fun x _ =>
      (pointed (sys.psGetProcessSectionBaseAddress process) address).rely l₁ o x ∧ True := by
  cases o with
  | resolveImageOffset offset =>
    obtain rfl : offset = address - sys.psGetProcessSectionBaseAddress process := ho
    have hsum : sys.psGetProcessSectionBaseAddress process +
        (address - sys.psGetProcessSectionBaseAddress process) = address := by
      bv_omega
    have hexact : (sys.psGetProcessSectionBaseAddress process).toNat +
        (address - sys.psGetProcessSectionBaseAddress process).toNat = address.toNat := by
      bv_omega
    refine wp_mono (wp_resolveImageOffset aimed_keeps rfl (fun hle _ _ => ⟨hle, trivial⟩)
      (fun _ _ _ => ⟨⟨rfl, rfl, hexact⟩, trivial⟩) trivial) fun r _ ⟨_, hr⟩ => ⟨fun hs => ?_, trivial⟩
    obtain ⟨rfl, -⟩ | ⟨-, ⟨rfl, -⟩ | ⟨rfl, -⟩⟩ := hr
    · cases hs
    · cases hs
    · exact hsum
  | read bits a =>
    obtain ⟨rfl, rfl⟩ := ho
    rw [perform, KernelProcessMemoryReader.read, wp_bind]
    exact wp_mono (wp_copyValue aimed_keeps (fun hle _ _ => ⟨hle, trivial⟩)
      (fun _ _ _ _ => ⟨⟨rfl, rfl⟩, fun _ _ => trivial⟩) trivial) fun _ _ _ => ⟨trivial, trivial⟩
  | note n => exact ho.elim
  | writeUInt32 a value => exact ho.elim

theorem wp_executeDarkEdenRequest_aimed (hirql : T.irql = passiveLevel)
    (hlow : sys.psGetProcessSectionBaseAddress process < address)
    (hvalid : validRequest (directRequest processId
      (address - sys.psGetProcessSectionBaseAddress process))) (l : WinLog) :
    wp (aimed T process address) (executeDarkEdenRequest sys (directRequest processId
      (address - sys.psGetProcessSectionBaseAddress process))) l fun _ _ => True := by
  rw [executeDarkEdenRequest, if_neg (by simpa using hvalid)]
  refine Target.wp_withReader_opens (J := fun _ => True) aimed_keeps (fun _ _ _ hx => hx.2)
    (fun _ _ hx => hx.1.trans hirql) (Target.validRequest_processId hvalid) (Q := fun _ _ => True)
    (fun _ => aimed_keeps) (fun l _ => ?_) trivial
  exact wp_mono (wp_translate (R := fun _ _ => True)
    (fun l₁ l₂ o _ ho => perform_pointed hlow l₁ l₂ o ho) trivial (wp_pointed []))
    fun _ _ _ => trivial

theorem perform_aimed (hirql : T.irql = passiveLevel) (l₂ : WinLog) (o : UserOp)
    (ho : Asking processId (sys.psGetProcessSectionBaseAddress process) address o) :
    wp (aimed T process address) (System.perform sys client o) l₂ fun _ _ => True := by
  cases o with
  | api o => exact ⟨trivial, fun _ _ => trivial⟩
  | deviceIoControl command input inputLength outputLength =>
    obtain ⟨rfl, rfl, rfl, rfl, hvalid, hlow, -⟩ := ho
    have hgate : Gate (System.irpOf client readCoordinates (directRequest processId (address -
        sys.psGetProcessSectionBaseAddress process)).encode sizeofRequest sizeofResponse)
        (directRequest processId (address - sys.psGetProcessSectionBaseAddress process)).encode
        readCoordinates sizeofRequest sizeofResponse :=
      ⟨rfl, rfl, rfl, BitVec.le_refl _, rfl, rfl⟩
    change wp _ (System.deviceIoControl _ _ _ _ _ _) _ _
    rw [System.deviceIoControl, wp_bind]
    refine wp_deviceControl_coordinates aimed_keeps (fun _ _ hx => hx.1.trans hirql) hgate
      (by rwa [Request.decode_encode]) (fun l _ => ?_) trivial
    rw [Request.decode_encode]
    exact wp_mono (wp_executeDarkEdenRequest_aimed hirql hlow hvalid l) fun _ _ _ => trivial

theorem seen_iff (hreachable : Reachable T process) {value : ULong} :
    seen T process address = some value ↔
      (sys.psGetProcessSectionBaseAddress process < address ∧ address ≤ 0xFFFFFFFF ∧
        address.toNat + 3 ≤ sys.mmHighestUserAddress.toNat ∧ covers T.readable address 4) ∧
      value = valueOfBytes 32 (load T.byte address 4) := by
  have hrange : sys.psGetProcessSectionBaseAddress process < address →
      (CopyRange sys address (byteSize 32) ↔
        address.toNat + 3 ≤ sys.mmHighestUserAddress.toNat) := by
    intro hlow
    have h32 : (byteSize 32).toNat = 4 := rfl
    rw [CopyRange, h32]
    bv_omega
  rw [seen_eq_some, Target.dword, Target.peek, Option.ite_none_right_eq_some, Option.some.injEq]
  constructor
  · rintro ⟨⟨-, hlow, hhigh⟩, ⟨hcopy, hcovers⟩, rfl⟩
    exact ⟨⟨hlow, hhigh, (hrange hlow).mp hcopy, hcovers⟩, rfl⟩
  · rintro ⟨⟨hlow, hhigh, hcopy, hcovers⟩, rfl⟩
    exact ⟨⟨hreachable, hlow, hhigh⟩, ⟨(hrange hlow).mpr hcopy, hcovers⟩, rfl⟩

/-- `ReadDword` reads the memory of the target: it succeeds exactly where the bytes can be read
behind the image base, below 4 GiB and below the user limit, and the driver copies from the very
address. Whatever is answered, a name is asked for at an offset that did not underflow. -/
theorem readDword_simulates (T : Target sys) (client : PEProcess) {env : WinEnv}
    (henv : ∀ l o, (T.openedSystem false process).rely l o (env l o)) (hpid : processId ≠ 0)
    (hreachable : Reachable T process) :
    (∀ address, let imageBase := sys.psGetProcessSectionBaseAddress process
      let run := (System.runUser sys client (readDword sys processId imageBase address).run).run env []
      (∀ value, run.1 = .ok value ↔
        (imageBase < address ∧ address ≤ 0xFFFFFFFF ∧
          address.toNat + 3 ≤ sys.mmHighestUserAddress.toNat ∧ covers T.readable address 4) ∧
        value = valueOfBytes 32 (load T.byte address 4)) ∧
      Throughout (fun _ o => Aimed imageBase address o) run.2) ∧
    ∀ userEnv : Env UserAns, Throughout
      (fun _ o => Naming sys processId ((findImageBase processId).run.run userEnv []).1.toOption
        userEnv o)
      ((readNearbyCharacters sys processId).run.run userEnv []).2 := by
  constructor
  · intro address imageBase run
    constructor
    · intro value
      have hvalue : run.1.toOption = seen T process address :=
        Target.run_of_served henv (wp_readDword hpid address [])
      rw [← seen_iff hreachable, ← hvalue]
      change run.1 = .ok value ↔ run.1.toOption = some value
      cases run.1 with
      | ok v =>
        exact ⟨fun h => congrArg Except.toOption h, fun h => congrArg Except.ok (Option.some.inj h)⟩
      | error e => exact ⟨nofun, nofun⟩
    · have haimed : wp (aimed T process address) (System.runUser sys client
          (readDword sys processId imageBase address).run) [] fun _ _ => True :=
        wp_translate_invariant (readDword_uses sys processId imageBase address)
          (fun o l ho _ => perform_aimed (of_decide_eq_true hreachable.2.1).1 l o ho) trivial
      have hrely : ∀ l o, (aimed T process address).rely l o (env l o) := henv
      exact throughout_of_wp hrely haimed
  · intro userEnv
    exact throughout_of_wp (fun _ _ => rfl) (wp_naming [] rfl)

theorem readDword_simulates_sample :
    (((System.runUser samplePlatform 9 (readDword samplePlatform 7 0x400000 0x01300010).run).run
        (sampleGame.env 9 sampleImage) []).1 = .ok 5 ↔
      ((0x400000 : ULongPtr) < 0x01300010 ∧ (0x01300010 : ULongPtr) ≤ 0xFFFFFFFF ∧
        (0x01300010 : ULongPtr).toNat + 3 ≤ samplePlatform.mmHighestUserAddress.toNat ∧
        covers sampleGame.readable 0x01300010 4) ∧
      (5 : ULong) = valueOfBytes 32 (load sampleGame.byte 0x01300010 4)) ∧
    Throughout (fun _ o => Aimed 0x400000 0x01300010 o)
      ((System.runUser samplePlatform 9 (readDword samplePlatform 7 0x400000 0x01300010).run).run
        (sampleGame.env 9 sampleImage) []).2 := by
  have hpid : (7 : DWord) ≠ 0 := by decide
  have h := (readDword_simulates sampleGame 9
    (fun l o => ⟨sampleGame.env_fits 9 sampleImage l o,
      (sampleGame.env_opens sampleImage_expected l o).restrict false⟩)
    hpid (by decide +kernel)).1 0x01300010
  exact ⟨h.1 5, h.2⟩

end Driver

end DarkEden.DirectRead
