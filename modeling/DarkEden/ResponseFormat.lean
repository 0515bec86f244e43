import DarkEden.PointerChase
import DarkEden.ReaderRules
import DarkEden.SearchStep
import DarkEden.System
import DarkEden.Target

namespace DarkEden.ResponseFormat

open Interaction Memory CoordinateReader SelectTarget Protocol Client PointerChase
open ReaderRules (readResult readResult_failed copiedOf_cases)

section Reader

/-- A read reports no more bytes than were asked for, and no error exactly if it succeeded. -/
def Plausible {bits : Nat} (r : MemoryReadResult bits) : Prop :=
  r.bytesRead ≤ byteSize bits ∧ r.succeeded = ntSuccess r.status

def honest : Contract ReaderAns where
  rely
    | _, .read _ _, r => Plausible r
    | _, _, _ => True
  guar _ _ := True

def Failing {α : Type} (r : Except NtStatus α) : Prop := ∀ status, r = .error status →
  ntSuccess status = false

theorem failing_ok {α : Type} (a : α) : Failing (.ok a : Except NtStatus α) := nofun

theorem failing_error {α : Type} {status : NtStatus} (h : ntSuccess status = false) :
    Failing (.error status : Except NtStatus α) := by
  intro status' h'
  cases h'
  exact h

theorem wp_addOffset (pointerBits : Nat) (pointer offset : ULongPtr) (l : ReaderLog) :
    wp honest (addOffset pointerBits pointer offset) l fun r _ => Failing r := by
  unfold addOffset
  extract_lets targetMax hostMax limit
  rw [wp_ite]
  refine ⟨fun _ => failing_error rfl, fun _ => ?_⟩
  rw [wp_ite]
  refine ⟨fun _ => failing_error rfl, fun _ => ?_⟩
  rw [wp_bind]
  refine ⟨trivial, fun _ _ => ?_⟩
  change wp honest (ite _ _ _) _ _
  rw [wp_ite]
  exact ⟨fun _ => failing_error rfl, fun _ => ⟨trivial, fun _ _ => failing_ok _⟩⟩

theorem wp_followOffsets (pointerBits : Nat) (offsets : List ULong) (address : ULongPtr)
    (l : ReaderLog) :
    wp honest (followOffsets pointerBits offsets address) l fun r _ => Failing r := by
  induction offsets generalizing address l with
  | nil => exact failing_ok _
  | cons offset offsets ih =>
    rw [followOffsets]
    refine wp_ask_bind.mpr ⟨trivial, fun pointer _ => ?_⟩
    rw [wp_ite]
    refine ⟨fun _ => failing_error (failure_error pointer), fun _ => ?_⟩
    refine wp_ask_bind.mpr ⟨trivial, fun _ _ => ?_⟩
    rw [wp_bind]
    refine wp_mono (wp_addOffset _ _ _ _) fun r l' hr => ?_
    cases r with
    | error status => exact failing_error (hr status rfl)
    | ok address => exact ih address l'

theorem wp_readAtOffset (pointerBits bits : Nat) (base : ULongPtr) (finalOffset : ULong)
    (l : ReaderLog) :
    wp honest (readAtOffset pointerBits bits base finalOffset) l fun r _ => Plausible r := by
  have herror : ∀ {status}, ntSuccess status = false →
      Plausible (⟨status, 0, 0⟩ : MemoryReadResult bits) := by
    intro status h
    exact ⟨BitVec.le_def.mpr (Nat.zero_le _), by rw [(finalStatus_error _ h).1, h]⟩
  unfold readAtOffset
  rw [wp_bind]
  refine wp_mono (wp_addOffset _ _ _ _) fun r l₁ hr => ?_
  cases r with
  | error status => exact herror (hr status rfl)
  | ok address =>
    change wp honest (followOffsets _ _ _ >>= _) l₁ _
    rw [wp_bind]
    refine wp_mono (wp_followOffsets _ _ _ _) fun r l₂ hr => ?_
    cases r with
    | error status => exact herror (hr status rfl)
    | ok address => exact ⟨trivial, fun r hr => hr⟩

theorem wp_walkPointers (offsets : List ULong) (address : ULongPtr) (l : ReaderLog) :
    wp honest (walkPointers offsets address) l fun r _ => Failing r := by
  induction offsets generalizing address l with
  | nil => exact failing_ok _
  | cons offset offsets ih =>
    rw [walkPointers]
    refine wp_ask_bind.mpr ⟨trivial, fun pointer _ => ?_⟩
    rw [wp_ite]
    refine ⟨fun _ => failing_error (failure_error pointer), fun _ => ?_⟩
    rw [wp_ite]
    refine ⟨fun _ => failing_error rfl, fun _ => wp_ask_bind.mpr ⟨trivial, fun _ _ => ?_⟩⟩
    rw [wp_ite]
    refine ⟨fun _ => failing_error rfl, fun _ => ⟨trivial, fun _ _ => ?_⟩⟩
    exact ih _ _

def expectedBytes (request : Request) : ULong :=
  if request.reserved = 5 then 4 else if request.axis = Axis.both then 8 else 4

theorem else_true_iff {c : Prop} [Decidable c] {b : Bool} :
    (if c then false else b) = true ↔ ¬c ∧ b = true := by
  by_cases h : c <;> simp [h]

theorem validResponse_iff {request : Request} {response : Response} {bytes : DWord} :
    validResponse request response bytes ↔
      (bytes = sizeofResponse ∧ response.version = version ∧ response.size = sizeofResponse ∧
        response.axis = request.axis ∧ response.valueType = request.valueType) ∧
      (response.bytesRead ≤ expectedBytes request ∧
        (ntSuccess response.status → response.bytesRead = expectedBytes request)) ∧
      (ntSuccess response.status = false → response.xBits = 0 ∧ response.yBits = 0) ∧
      (request.axis = Axis.x → response.yBits = 0) ∧
      (request.axis = Axis.y → response.xBits = 0) := by
  simp only [validResponse, else_true_iff, not_or, not_and, not_not, gt_iff_lt, BitVec.not_lt,
    Bool.not_eq_true', expectedBytes, ne_eq, and_true]

theorem validResponse_refuse {request : Request} {status : NtStatus}
    (h : ntSuccess status = false) :
    validResponse request (refuse request status) sizeofResponse := by
  rw [validResponse_iff]
  exact ⟨⟨rfl, rfl, rfl, rfl, rfl⟩, ⟨BitVec.le_def.mpr (Nat.zero_le _),
    fun hs => absurd hs (by simp [refuse, h])⟩, fun _ => ⟨rfl, rfl⟩, fun _ => rfl, fun _ => rfl⟩

theorem validResponse_report {bits : Nat} {request : Request} {r : MemoryReadResult bits}
    (hr : Plausible r) (hexpected : (byteSize bits).setWidth 32 = expectedBytes request)
    (hsmall : byteSize bits ≤ 8) (x y : BitVec bits → ULong) :
    validResponse request (report request r x y) sizeofResponse := by
  rw [validResponse_iff]
  have hcount : r.succeeded → r.bytesRead.setWidth 32 = expectedBytes request := by
    intro hs
    have hall := (Bool.and_eq_true _ _).mp hs
    rw [← hexpected, eq_of_beq hall.2]
  have hstatus : ntSuccess (report request r x y).status = r.succeeded := by
    cases hs : r.succeeded with
    | true => exact congrArg ntSuccess (if_pos hs)
    | false =>
      have hfinal : (report request r x y).status = r.failure := if_neg (by simp [hs])
      rw [hfinal, failure_error]
  refine ⟨⟨rfl, rfl, rfl, rfl, rfl⟩, ⟨?_, fun hs => hcount (hstatus ▸ hs)⟩, fun hfailed => ?_,
    fun hx => if_neg fun h => h.2 hx, fun hy => if_neg fun h => h.2 hy⟩
  · have hle := hr.1
    change r.bytesRead.setWidth 32 ≤ expectedBytes request
    rw [← hexpected]
    bv_omega
  · rw [hstatus] at hfailed
    exact ⟨if_neg (by simp [hfailed]), if_neg (by simp [hfailed])⟩

theorem wp_report {bits : Nat} {request : Request} {r : MemoryReadResult bits}
    {done left : Response} {l : ReaderLog} (hr : Plausible r)
    (hexpected : (byteSize bits).setWidth 32 = expectedBytes request) (hsmall : byteSize bits ≤ 8)
    (x y : BitVec bits → ULong) (hdone : r.succeeded → done = report request r x y)
    (hleft : ¬r.succeeded → left = report request r x y) :
    wp honest (if r.succeeded then pure done else pure left : Memory Response) l fun response _ =>
      validResponse request response sizeofResponse := by
  have hvalid := validResponse_report hr hexpected hsmall x y
  rw [wp_ite]
  refine ⟨fun hs => ?_, fun hs => ?_⟩
  · rwa [wp_pure, hdone hs]
  · rwa [wp_pure, hleft hs]

theorem wp_readCoordinateRequest {request : Request} (hreserved : request.reserved ≠ 5)
    (haxis : request.axis = Axis.x ∨ request.axis = Axis.y ∨ request.axis = Axis.both)
    (pointerBits : Nat) (l : ReaderLog) :
    wp honest (readCoordinateRequest pointerBits request) l fun response _ =>
      validResponse request response sizeofResponse := by
  unfold readCoordinateRequest
  rw [wp_ite]
  refine ⟨fun hboth => ?_, fun hboth => ?_⟩
  · have hexpected : (byteSize 64).setWidth 32 = expectedBytes request := by
      rw [expectedBytes, if_neg hreserved, if_pos hboth]
      rfl
    rw [wp_bind]
    refine wp_mono (wp_readAtOffset _ _ _ _ _) fun r l' hr => ?_
    refine wp_report hr hexpected (by decide) (fun v => v.setWidth 32)
      (fun v => (v >>> 32).setWidth 32) (fun hs => ?_) fun hs => (report_failed hs).symm
    rw [report_both hs hboth]
    rfl
  have hexpected : (byteSize 32).setWidth 32 = expectedBytes request := by
    rw [expectedBytes, if_neg hreserved, if_neg hboth]
    rfl
  rw [wp_ite]
  refine ⟨fun hx => ?_, fun hx => ?_⟩
  · rw [wp_bind]
    refine wp_mono (wp_readAtOffset _ _ _ _ _) fun r l' hr => ?_
    refine wp_report hr hexpected (by decide) (fun v => v) (fun v => v) (fun hs => ?_)
      fun hs => (report_failed hs).symm
    rw [if_pos hx, report_x hs hx]
    rfl
  · have hy : request.axis = Axis.y := (haxis.resolve_left hx).resolve_right hboth
    rw [wp_bind]
    refine wp_mono (wp_readAtOffset _ _ _ _ _) fun r l' hr => ?_
    refine wp_report hr hexpected (by decide) (fun v => v) (fun v => v) (fun hs => ?_)
      fun hs => (report_failed hs).symm
    rw [if_neg hx, report_y hs hy]
    rfl

theorem wp_walk {request : Request} {offsets : List ULong} {address : ULongPtr}
    {k : Except NtStatus ULongPtr → Memory Response} {l : ReaderLog}
    (herror : ∀ status, k (.error status) = pure (refuse request status))
    (hok : ∀ address l', wp honest (k (.ok address)) l' fun response _ =>
      validResponse request response sizeofResponse) :
    wp honest (walkPointers offsets address >>= k) l fun response _ =>
      validResponse request response sizeofResponse := by
  rw [wp_bind]
  refine wp_mono (wp_walkPointers _ _ _) fun r l' hr => ?_
  cases r with
  | error status =>
    rw [herror, wp_pure]
    exact validResponse_refuse (hr status rfl)
  | ok address => exact hok address l'

theorem wp_dispatchCoordinateRequest (request : Request) (l : ReaderLog) :
    wp honest (dispatchCoordinateRequest request) l fun response _ =>
      validResponse request response sizeofResponse := by
  unfold dispatchCoordinateRequest
  rw [wp_ite]
  refine ⟨fun _ => validResponse_refuse rfl, fun hvalid => ?_⟩
  have hvalid' : validRequest request = true := by simpa using hvalid
  obtain ⟨-, -, hmode, -, -, -, haxis, hbytes, -⟩ := of_decide_eq_true hvalid'
  rw [wp_ite]
  refine ⟨fun hpacked => wp_walk (fun _ => rfl) fun address l' => ?_, fun hpacked => ?_⟩
  · have hboth : request.axis = Axis.both := by
      rcases hmode with h | ⟨h, -⟩ | ⟨h, -⟩ | ⟨h, -⟩ | ⟨h, -⟩ | ⟨-, -, h, -⟩
      all_goals first | exact h | exact absurd (hpacked.symm.trans h) (by decide)
    refine wp_ask_bind.mpr ⟨trivial, fun r hr => ?_⟩
    refine wp_report hr (by rw [expectedBytes, if_pos hpacked]; rfl) (by decide)
      (fun v => v &&& 0xFFFF) (fun v => v >>> 16) (fun hs => ?_) fun hs => (report_failed hs).symm
    rw [report_both hs hboth]
    rfl
  rw [wp_ite]
  refine ⟨fun htable => wp_walk (fun _ => rfl) fun address l' => ?_, fun htable => ?_⟩
  · have hone : request.axis = Axis.x ∨ request.axis = Axis.y := by
      rcases hmode with h₀ | ⟨-, -, h⟩ | ⟨-, -, h⟩ | ⟨-, -, h⟩ | ⟨-, -, h⟩ | ⟨h, -⟩
      · rcases htable with h | h | h | h | h
        · rcases hbytes with ⟨-, hx⟩ | h' | h'
          · exact .inl hx
          all_goals exact absurd (h.symm.trans h') (by decide)
        all_goals exact absurd (h₀.symm.trans h) (by decide)
      · exact .inl h
      · exact .inr h
      · exact .inl h
      · exact .inr h
      · exact absurd h hpacked
    have hboth : request.axis ≠ Axis.both := by rcases hone with h | h <;> rw [h] <;> decide
    have hexpected : (byteSize 32).setWidth 32 = expectedBytes request := by
      rw [expectedBytes, if_neg hpacked, if_neg hboth]
      rfl
    refine wp_ask_bind.mpr ⟨trivial, fun r hr => ?_⟩
    refine wp_report hr hexpected (by decide) (fun v => v) (fun v => v) (fun hs => ?_)
      fun hs => (report_failed hs).symm
    rcases hone with hx | hy
    · rw [if_neg (by rw [hx]; decide), report_x hs hx]
      rfl
    · rw [if_pos hy, report_y hs hy]
      rfl
  · rw [wp_ite]
    exact ⟨fun _ => wp_readCoordinateRequest hpacked haxis _ _,
      fun _ => wp_readCoordinateRequest hpacked haxis _ _⟩

theorem wp_readResolved (request : Request) (l : ReaderLog) :
    wp honest (readResolved request) l fun response _ =>
      validResponse request response sizeofResponse := by
  refine wp_ask_bind.mpr ⟨trivial, fun resolved _ => ?_⟩
  rw [wp_ite]
  refine ⟨fun hs => validResponse_refuse (by simpa using hs), fun _ => ?_⟩
  exact wp_dispatchCoordinateRequest { request with baseAddress := resolved.address } _

/-- What `ReadText` checks, apart from the number of bytes returned. -/
structure TextFormat (characterBytes : ULong) (response : TextResponse) : Prop where
  version : response.version = Protocol.version
  size : response.size = sizeofTextResponse
  bytesRead : response.bytesRead.toNat ≤ 256
  whole : response.bytesRead.toNat % characterBytes.toNat = 0
  terminated : response.terminated ≤ 1

/-- At the start of a pass of the text loop with `n` passes left. -/
structure TextLoop (characterBytes : ULong) (n : Nat) (index : ULong) (response : TextResponse) :
    Prop extends TextFormat characterBytes response where
  atIndex : response.bytesRead = index
  passes : 257 ≤ index.toNat + n

variable {characterBytes : ULong}

theorem TextLoop.next (hwidth : characterBytes = 1 ∨ characterBytes = 2) {n : Nat} {index : ULong}
    {response : TextResponse} (h : TextLoop characterBytes (n + 1) index response)
    (hroom : ¬index + characterBytes > 256) (data : Fin 256 → Byte) :
    TextLoop characterBytes n (index + characterBytes)
      { response with data := data, bytesRead := response.bytesRead + characterBytes } := by
  have hindex : response.bytesRead.toNat = index.toNat := congrArg BitVec.toNat h.atIndex
  have hbytes := h.bytesRead
  have hwhole := h.whole
  have hleft := h.passes
  have hsum : (response.bytesRead + characterBytes).toNat =
      index.toNat + characterBytes.toNat := by
    rw [BitVec.toNat_add, hindex]
    rcases hwidth with rfl | rfl <;> simp <;> omega
  have hsum' : (index + characterBytes).toNat = index.toNat + characterBytes.toNat := by
    rw [← h.atIndex, hsum, h.atIndex]
  refine ⟨⟨h.version, h.size, ?_, ?_, h.terminated⟩, by rw [← h.atIndex], ?_⟩
  · rw [gt_iff_lt, BitVec.not_lt, BitVec.le_def, hsum'] at hroom
    change (response.bytesRead + characterBytes).toNat ≤ 256
    rwa [hsum]
  · change (response.bytesRead + characterBytes).toNat % characterBytes.toNat = 0
    rw [hsum, Nat.add_mod_right, ← hindex, hwhole]
  · rw [hsum']
    rcases hwidth with rfl | rfl <;> simp <;> omega

theorem wp_readCharacter (hwidth : characterBytes = 1 ∨ characterBytes = 2) (address : ULongPtr)
    {n : Nat} {s : ULong × TextResponse} (h : TextLoop characterBytes (n + 1) s.1 s.2)
    (l : ReaderLog) :
    wp honest (readCharacter address characterBytes s) l fun r _ =>
      Sum.elim (fun s' => TextLoop characterBytes n s'.1 s'.2) (TextFormat characterBytes) r := by
  have hformat : ∀ status, TextFormat characterBytes { s.2 with status := status } :=
    fun _ => ⟨h.version, h.size, h.bytesRead, h.whole, h.terminated⟩
  have hterminated : ∀ status,
      TextFormat characterBytes { s.2 with terminated := 1, status := status } :=
    fun _ => ⟨h.version, h.size, h.bytesRead, h.whole, BitVec.le_refl 1⟩
  have hnext : ∀ (bits : Nat) (a : ULongPtr) (l' : ReaderLog)
      (f g k : MemoryReadResult bits → (ULong × TextResponse) ⊕ TextResponse),
      (∀ r, Sum.elim (fun s' => TextLoop characterBytes n s'.1 s'.2)
        (TextFormat characterBytes) (f r)) →
      (∀ r, Sum.elim (fun s' => TextLoop characterBytes n s'.1 s'.2)
        (TextFormat characterBytes) (g r)) →
      (∀ r, Sum.elim (fun s' => TextLoop characterBytes n s'.1 s'.2)
        (TextFormat characterBytes) (k r)) →
      wp honest (do
        let value ← Memory.read bits a
        if !value.succeeded then return f value
        if value.value = 0 then return g value
        return k value) l' fun r _ =>
          Sum.elim (fun s' => TextLoop characterBytes n s'.1 s'.2)
            (TextFormat characterBytes) r := by
    intro bits a l' f g k hf hg hk
    refine wp_ask_bind.mpr ⟨trivial, fun r _ => ?_⟩
    rw [wp_ite]
    refine ⟨fun _ => hf r, fun _ => ?_⟩
    rw [wp_ite]
    exact ⟨fun _ => hg r, fun _ => hk r⟩
  unfold readCharacter
  rw [wp_ite]
  refine ⟨fun _ => hformat _, fun hroom => wp_ask_bind.mpr ⟨trivial, fun _ _ => ?_⟩⟩
  rw [wp_ite]
  refine ⟨fun _ => hformat _, fun _ => ?_⟩
  rw [wp_bind]
  refine ⟨trivial, fun _ _ => ?_⟩
  change wp honest (ite _ _ _) _ _
  rw [wp_ite]
  exact ⟨fun _ => hnext _ _ _ _ _ _ (fun _ => hformat _) (fun _ => hterminated _)
      fun _ => h.next hwidth hroom _,
    fun _ => hnext _ _ _ _ _ _ (fun _ => hformat _) (fun _ => hterminated _)
      fun _ => h.next hwidth hroom _⟩

theorem textFormat_new (status : NtStatus) :
    TextFormat characterBytes (newTextResponse status) :=
  ⟨rfl, rfl, Nat.zero_le _, Nat.zero_mod _, BitVec.le_def.mpr (Nat.zero_le _)⟩

theorem textFormat_status {response : TextResponse} (h : TextFormat characterBytes response)
    (status : NtStatus) : TextFormat characterBytes { response with status := status } :=
  ⟨h.version, h.size, h.bytesRead, h.whole, h.terminated⟩

/-- The text loop always reaches one of its exits. -/
theorem wp_readTextAtAddress (address : ULongPtr) {response : TextResponse}
    (hempty : response.bytesRead = 0) (h : TextFormat characterBytes response) (l : ReaderLog) :
    wp honest (readTextAtAddress address characterBytes response) l fun r _ =>
      TextFormat characterBytes r := by
  unfold readTextAtAddress
  rw [wp_ite]
  refine ⟨fun _ => textFormat_status h _, fun hwidth => ?_⟩
  have hwidth' : characterBytes = 1 ∨ characterBytes = 2 := by
    by_contra hnot
    rw [not_or] at hnot
    exact hwidth hnot
  rw [wp_ite]
  refine ⟨fun _ => textFormat_status h _, fun _ => ?_⟩
  rw [wp_bind]
  refine wp_loop (fun n s _ => TextLoop characterBytes n s.1 s.2)
    (fun n s l' hI => wp_readCharacter hwidth' address hI l') (fun s l' hI => ?_) 257 _ l ?_
  · have hle := hI.bytesRead
    rw [hI.atIndex] at hle
    have hpasses := hI.passes
    omega
  · exact ⟨⟨h.version, h.size, h.bytesRead, h.whole, h.terminated⟩, hempty, Nat.le_refl _⟩

theorem wp_readResolvedText (request : TextRequest) (l : ReaderLog) :
    wp honest (readResolvedText request) l fun r _ => TextFormat request.characterBytes r := by
  refine wp_ask_bind.mpr ⟨trivial, fun slot _ => ?_⟩
  rw [wp_ite]
  refine ⟨fun _ => textFormat_new _, fun _ => ?_⟩
  rw [wp_ite]
  refine ⟨fun _ => ?_, fun _ => ?_⟩
  · unfold readOtherCharacterText
    rw [wp_ite]
    refine ⟨fun _ => textFormat_new _, fun _ => ?_⟩
    rw [wp_bind]
    refine wp_mono (wp_walkPointers _ _ _) fun r l' _ => ?_
    cases r with
    | error status => exact textFormat_new _
    | ok address => exact wp_readTextAtAddress _ rfl (textFormat_new _) l'
  · unfold readPointedText
    rw [wp_ite]
    refine ⟨fun _ => textFormat_new _, fun _ => wp_ask_bind.mpr ⟨trivial, fun pointer _ => ?_⟩⟩
    rw [wp_ite]
    exact ⟨fun _ => textFormat_new _,
      fun _ => wp_readTextAtAddress _ rfl (textFormat_new _) _⟩

structure SelectFormat (targetId : ULong) (response : SelectTargetResponse) : Prop where
  version : response.version = Protocol.version
  size : response.size = sizeofSelectTargetResponse
  selected : ntSuccess response.status → response.selectedId = targetId

theorem selectFormat_new {targetId : ULong} {status : NtStatus} (h : ntSuccess status = false) :
    SelectFormat targetId (SelectTarget.newResponse status) :=
  ⟨rfl, rfl, fun hs => absurd hs (by simp [SelectTarget.newResponse, h])⟩

def decisive : Contract ReaderAns where
  rely
    | _, .read _ _, r => r.succeeded = ntSuccess r.status
    | _, _, _ => True
  guar _ _ := True

theorem honest_decisive (l : ReaderLog) (o : ReaderOp) (x : ReaderAns o) (h : honest.rely l o x) :
    decisive.rely l o x := by
  cases o with
  | read bits address => exact h.2
  | _ => trivial

theorem status_failed {bits : Nat} {r : MemoryReadResult bits}
    (h : r.succeeded = ntSuccess r.status) (hs : !r.succeeded) : ntSuccess r.status = false := by
  rw [← h]
  simpa using hs

theorem wp_readField (pointer : ULong) (offset : ULongPtr) (l : ReaderLog) :
    wp decisive (readField pointer offset) l fun r _ => r.succeeded = ntSuccess r.status :=
  ⟨trivial, fun _ _ => ⟨trivial, fun _ _ => ⟨trivial, fun _ hr => hr⟩⟩⟩

theorem wp_searchStep (targetId header node : ULong) (l : ReaderLog) :
    wp decisive (searchStep targetId header node) l fun r _ =>
      Sum.elim (fun _ => True) Failing r := by
  refine wp_mono (SearchStep.wp_searchStep (R := fun _ _ _ r _ => r.succeeded = ntSuccess r.status)
    (fun l pointer offset => wp_readField pointer offset l) l) fun r _ h => ?_
  cases h with
  | leaf => exact failing_ok _
  | unread _ hkey hs => exact failing_error (status_failed hkey hs)
  | found _ _ _ _ h =>
    cases h with
    | unread hactor hs => exact failing_error (status_failed hactor hs)
    | null => exact failing_ok _
    | compared => exact failing_ok _
  | down _ _ _ _ h =>
    cases h with
    | unread hchild hs => exact failing_error (status_failed hchild hs)
    | leaf => exact failing_ok _
    | inner _ _ _ h =>
      cases h with
      | unread hparent hs => exact failing_error (status_failed hparent hs)
      | strange => exact failing_ok _
      | back => trivial

theorem wp_locate (targetId : ULong) (l : ReaderLog) :
    wp decisive (locate targetId) l fun r _ => Failing r := by
  unfold locate
  refine wp_ask_bind.mpr ⟨trivial, fun controllerField _ => ?_⟩
  rw [wp_ite]
  refine ⟨fun hs => failing_error (by simpa using hs), fun _ => ?_⟩
  refine wp_ask_bind.mpr ⟨trivial, fun treeField _ => ?_⟩
  rw [wp_ite]
  refine ⟨fun hs => failing_error (by simpa using hs), fun _ => ?_⟩
  refine wp_ask_bind.mpr ⟨trivial, fun vtableAddress _ => ?_⟩
  rw [wp_ite]
  refine ⟨fun hs => failing_error (by simpa using hs), fun _ => ?_⟩
  refine wp_ask_bind.mpr ⟨trivial, fun controller hcontroller => ?_⟩
  refine wp_ask_bind.mpr ⟨trivial, fun manager hmanager => ?_⟩
  rw [wp_ite]
  refine ⟨fun hs => failing_error (status_failed hcontroller hs), fun _ => ?_⟩
  rw [wp_ite]
  refine ⟨fun hs => failing_error (status_failed hmanager hs), fun _ => ?_⟩
  rw [wp_ite]
  refine ⟨fun _ => failing_error rfl, fun _ => ?_⟩
  refine wp_ask_bind.mpr ⟨trivial, fun vtable hvtable => ?_⟩
  rw [wp_ite]
  refine ⟨fun hs => failing_error (status_failed hvtable hs), fun _ => ?_⟩
  rw [wp_ite]
  refine ⟨fun _ => failing_error rfl, fun _ => ?_⟩
  rw [wp_bind]
  refine wp_mono (wp_readField _ _ _) fun header _ hheader => ?_
  rw [wp_ite]
  refine ⟨fun hs => failing_error (status_failed hheader hs), fun _ => ?_⟩
  rw [wp_ite]
  refine ⟨fun _ => failing_error rfl, fun _ => ?_⟩
  rw [wp_bind]
  refine wp_mono (wp_readField _ _ _) fun root l' hroot => ?_
  rw [wp_ite]
  refine ⟨fun hs => failing_error (status_failed hroot hs), fun _ => ?_⟩
  rw [wp_bind]
  refine wp_loop (fun _ _ _ => True) (fun _ node l' _ => ?_) (fun _ _ _ => failing_error rfl) 64
    root.value l' trivial
  refine wp_mono (wp_searchStep _ _ _ _) fun r _ hr => ?_
  match r with
  | .inl child => trivial
  | .inr (.error status) => exact failing_error (hr status rfl)
  | .inr (.ok false) => exact failing_error rfl
  | .inr (.ok true) => exact failing_ok _

theorem wp_select (targetId : ULong) (l : ReaderLog) :
    wp decisive (select targetId) l fun r _ => SelectFormat targetId r := by
  unfold select
  rw [wp_bind]
  refine wp_mono (wp_locate targetId l) fun r _ hr => ?_
  cases r with
  | error status => exact selectFormat_new (hr status rfl)
  | ok controller =>
    change wp decisive (commit _ _ _) _ _
    unfold commit
    rw [wp_bind]
    refine ⟨trivial, fun _ _ => ⟨trivial, fun _ _ => ?_⟩⟩
    refine wp_ask_bind.mpr ⟨trivial, fun written _ => ?_⟩
    rw [wp_ite]
    refine ⟨fun hs => selectFormat_new (by simpa using hs), fun _ => ?_⟩
    refine wp_ask_bind.mpr ⟨trivial, fun selected hselected => ?_⟩
    rw [wp_ite]
    refine ⟨fun hs => selectFormat_new (status_failed hselected hs), fun _ => ⟨rfl, rfl, fun hs => ?_⟩⟩
    by_contra hne
    rw [if_neg hne] at hs
    cases hs

end Reader

section System

variable {sys : Platform}

/-- `MmCopyMemory` never reports more bytes than it was asked for. -/
def honestCopies : Contract WinAns where
  rely
    | _, .mmCopyMemory _ size, x => x.copied ≤ size
    | _, _, _ => True
  guar _ _ := True

theorem honestCopies_keeps : ReaderRules.Keeps honestCopies fun _ => True where
  guar _ _ _ _ := trivial
  keep _ _ _ _ _ _ := trivial

theorem plausible_readResult {bits : Nat} {x : CopyOutcome} (hx : x.copied ≤ byteSize bits) :
    Plausible (readResult bits (ReaderRules.copiedOf (byteSize bits) x)) := by
  rcases copiedOf_cases (byteSize bits) x with ⟨-, hr⟩ | ⟨-, hr⟩
  · rw [hr]
    refine ⟨BitVec.le_refl _, ?_⟩
    simp [readResult, MemoryReadResult.succeeded, show ntSuccess statusSuccess = true from rfl]
  · refine ⟨?_, by rw [readResult_failed hr]; exact hr.symm⟩
    unfold ReaderRules.copiedOf
    split
    · exact hx
    · split
      · exact hx
      · exact hx

theorem perform_honest {reader : KernelProcessMemoryReader} (l₁ : ReaderLog) (l₂ : WinLog)
    (o : ReaderOp) :
    wp honestCopies (reader.perform sys o) l₂ fun x _ => honest.rely l₁ o x := by
  cases o with
  | note n => exact ⟨trivial, fun _ _ => trivial⟩
  | resolveImageOffset offset =>
    exact wp_of_forall (fun _ _ => trivial) (fun _ _ => trivial) _ l₂
  | read bits address =>
    have herror : ∀ {status}, ntSuccess status = false →
        Plausible (readResult bits ⟨status, 0, none⟩) := by
      intro status h
      exact ⟨BitVec.le_def.mpr (Nat.zero_le _), by rw [readResult_failed h]; exact h.symm⟩
    rw [KernelProcessMemoryReader.perform, KernelProcessMemoryReader.read, wp_bind]
    refine wp_mono (ReaderRules.wp_copyValue honestCopies_keeps
      (fun _ => fun _ _ => ⟨trivial, trivial⟩) (fun _ _ _ _ => ⟨trivial, fun _ _ => trivial⟩)
      trivial) fun r l' hcopied => ?_
    obtain ⟨-, hr⟩ := hcopied
    change Plausible (readResult bits r)
    rcases hr with ⟨rfl, -⟩ | ⟨-, ⟨rfl, -⟩ | ⟨x, l₃, rfl, -, -, hx, -⟩⟩
    · exact herror rfl
    · exact herror rfl
    · exact plausible_readResult hx
  | writeUInt32 address value =>
    exact wp_of_forall (fun _ _ => trivial) (fun _ _ => trivial) _ l₂

theorem wp_withReader_honest {α : Type} {processId : Handle} {allowWrite : Bool}
    {failed : NtStatus → α} {body : Memory α} {P : α → Prop}
    (hfailed : ∀ status, ntSuccess status = false → P (failed status))
    (hbody : ∀ l, wp honest body l fun a _ => P a) (l : WinLog) :
    wp honestCopies (withReader sys processId allowWrite failed body) l fun a _ => P a := by
  refine ReaderRules.wp_withReader honestCopies_keeps (fun _ => ⟨fun _ _ _ _ => trivial,
    fun _ _ _ h _ _ => h⟩) (fun status _ _ hs => hfailed status hs) (fun reader l' _ _ => ?_) trivial
  refine wp_mono (wp_translate (R := fun _ _ => True) (fun l₁ l₂ o _ _ =>
    wp_mono (perform_honest l₁ l₂ o) fun _ _ hx => ⟨hx, trivial⟩) (l := []) trivial (hbody []))
    fun _ _ ⟨_, _, h⟩ => h

/-- What the driver hands back with a success of the IRP, for each command: a response that
fits the output buffer and passes the check of the client. -/
inductive Delivered (irp : Irp) : Completed → Prop
  | coordinates {buffer : Nat} {response : Response} (command : irp.ioControlCode = readCoordinates)
      (input : irp.systemBuffer = some buffer) (room : sizeofResponse ≤ irp.outputBufferLength)
      (format : validResponse (.decode buffer) response sizeofResponse) :
      Delivered irp ⟨statusSuccess, sizeofResponse.setWidth 64, some response.encode⟩
  | text {buffer : Nat} {response : TextResponse} (command : irp.ioControlCode = Protocol.readText)
      (input : irp.systemBuffer = some buffer) (room : sizeofTextResponse ≤ irp.outputBufferLength)
      (format : validTextResponse (.decode buffer) response sizeofTextResponse) :
      Delivered irp ⟨statusSuccess, sizeofTextResponse.setWidth 64, some response.encode⟩
  | select {buffer : Nat} {response : SelectTargetResponse}
      (command : irp.ioControlCode = selectTarget) (input : irp.systemBuffer = some buffer)
      (room : sizeofSelectTargetResponse ≤ irp.outputBufferLength)
      (format : SelectFormat (SelectTargetRequest.decode buffer).targetId response) :
      Delivered irp ⟨statusSuccess, sizeofSelectTargetResponse.setWidth 64, some response.encode⟩

theorem validTextResponse_of_format {request : TextRequest} {response : TextResponse}
    (h : TextFormat request.characterBytes response) :
    validTextResponse request response sizeofTextResponse := by
  apply decide_eq_true
  refine ⟨rfl, h.version, h.size, BitVec.le_def.mpr h.bytesRead, ?_, h.terminated⟩
  apply BitVec.eq_of_toNat_eq
  rw [BitVec.toNat_umod]
  exact h.whole

theorem validSelectTargetResponse_of_format {targetId : ULong} {response : SelectTargetResponse}
    (h : SelectFormat targetId response) :
    validSelectTargetResponse response sizeofSelectTargetResponse :=
  decide_eq_true ⟨rfl, h.version, h.size⟩

theorem wp_deviceControl_delivered (irp : Irp) (l : WinLog) :
    wp honestCopies (deviceControl sys irp) l fun completed _ =>
      ntSuccess completed.status → Delivered irp completed := by
  refine ReaderRules.wp_deviceControl honestCopies_keeps
    (fun status _ _ hs hs' => absurd hs' (by simp [complete, hs])) ?_ ?_ ?_ trivial
  · intro buffer l hgate _ _ hvalid
    rw [executeDarkEdenTextRequest, if_neg (by simpa using hvalid)]
    refine wp_mono (wp_withReader_honest (P := TextFormat (TextRequest.decode buffer).characterBytes)
      (fun status _ => textFormat_new status) (wp_readResolvedText _) l) fun r _ hr _ => ?_
    exact .text hgate.command hgate.buffer hgate.output (validTextResponse_of_format hr)
  · intro buffer l hgate _ _ hvalid
    rw [executeSelectTargetRequest, if_neg (by simpa using hvalid)]
    refine wp_mono (wp_withReader_honest
      (P := SelectFormat (SelectTargetRequest.decode buffer).targetId)
      (fun status hs => selectFormat_new hs)
      (fun l => wp_contract honest_decisive (fun _ _ h => h) (wp_select _ l)) l) fun r _ hr _ => ?_
    exact .select hgate.command hgate.buffer hgate.output hr
  · intro buffer l hgate _ _ hvalid
    rw [executeDarkEdenRequest, if_neg (by simpa using hvalid)]
    refine wp_mono (wp_withReader_honest
      (P := fun r => validResponse (.decode buffer) r sizeofResponse)
      (fun status hs => validResponse_refuse hs) (wp_readResolved _) l) fun r _ hr _ => ?_
    exact .coordinates hgate.command hgate.buffer hgate.output hr

variable {env : WinEnv} (hcopies : ∀ l address size, (env l (.mmCopyMemory address size)).copied ≤ size)

include hcopies

theorem env_honestCopies (l : WinLog) (o : WinOp) : honestCopies.rely l o (env l o) := by
  cases o with
  | mmCopyMemory address size => exact hcopies l address size
  | _ => trivial

theorem deviceControl_delivered (irp : Irp) (l : WinLog)
    (h : ntSuccess ((deviceControl sys irp).run env l).1.status) :
    Delivered irp ((deviceControl sys irp).run env l).1 :=
  run_of_wp (env_honestCopies hcopies) (wp_deviceControl_delivered irp l) h

theorem deviceIoControl_delivered {client : PEProcess} {command : ULong} {input : Nat}
    {inputLength outputLength : ULong} {l : WinLog} {output : Nat} {returned : DWord}
    (h : ((System.deviceIoControl sys client command input inputLength outputLength).run env l).1 =
      .completed output returned) :
    ∃ completed, Delivered (System.irpOf client command input inputLength outputLength) completed ∧
      System.ioctlResult sys completed = .completed output returned := by
  let irp := System.irpOf client command input inputLength outputLength
  rw [System.deviceIoControl, Program.run_bind, Program.run_pure] at h
  by_cases hs : ntSuccess ((deviceControl sys irp).run env l).1.status
  · exact ⟨_, deviceControl_delivered hcopies irp l hs, h⟩
  · rw [System.ioctlResult_failed (by simpa using hs)] at h
    cases h

theorem read_accepted {client : PEProcess} {request : Request} {l : WinLog} {output : Nat}
    {returned : DWord}
    (h : ((System.deviceIoControl sys client readCoordinates request.encode sizeofRequest
      sizeofResponse).run env l).1 = .completed output returned) :
    returned = sizeofResponse ∧ validResponse request (.decode output) returned ∧
      (readReply sys request (.completed output returned)).ok =
        ntSuccess (Response.decode output).status := by
  obtain ⟨completed, hdelivered, hresult⟩ := deviceIoControl_delivered hcopies h
  cases hdelivered with
  | @coordinates _ response _ hinput _ hformat =>
    obtain rfl := Option.some.inj hinput
    rw [System.ioctlResult_success response.encode_lt] at hresult
    obtain ⟨rfl, rfl⟩ := IoctlResult.completed.inj hresult
    rw [Request.decode_encode] at hformat
    rw [Response.decode_encode]
    refine ⟨rfl, hformat, ?_⟩
    rw [readReply, Response.decode_encode]
    rw [if_neg (by simpa using hformat)]
    cases hs : ntSuccess response.status <;> rfl
  | text hcommand => cases hcommand
  | select hcommand => cases hcommand

theorem readText_accepted {client : PEProcess} {request : TextRequest} {l : WinLog} {output : Nat}
    {returned : DWord}
    (h : ((System.deviceIoControl sys client Protocol.readText request.encode sizeofTextRequest
      sizeofTextResponse).run env l).1 = .completed output returned) :
    returned = sizeofTextResponse ∧ validTextResponse request (.decode output) returned ∧
      (readTextReply sys request (.completed output returned)).ok =
        ntSuccess (TextResponse.decode output).status := by
  obtain ⟨completed, hdelivered, hresult⟩ := deviceIoControl_delivered hcopies h
  cases hdelivered with
  | coordinates hcommand => cases hcommand
  | @text _ response _ hinput _ hformat =>
    obtain rfl := Option.some.inj hinput
    rw [System.ioctlResult_success response.encode_lt] at hresult
    obtain ⟨rfl, rfl⟩ := IoctlResult.completed.inj hresult
    rw [TextRequest.decode_encode] at hformat
    rw [TextResponse.decode_encode]
    refine ⟨rfl, hformat, ?_⟩
    rw [readTextReply, TextResponse.decode_encode]
    rw [if_neg (by simpa using hformat)]
    cases hs : ntSuccess response.status <;> rfl
  | select hcommand => cases hcommand

omit hcopies in
/-- The client reports a failure that the driver reports, also in a format it does not know. -/
theorem selectReply_failed {targetId : ULong} {output : Nat} {returned : DWord}
    (h : ntSuccess (SelectTargetResponse.decode output).status = false) :
    (selectReply sys targetId (.completed output returned)).ok = false := by
  rw [selectReply]
  by_cases hvalid : validSelectTargetResponse (.decode output) returned
  · rw [if_neg (by simpa using hvalid), if_pos (.inl (by simpa using h))]
    rfl
  · rw [if_pos (by simpa using hvalid)]
    rfl

omit hcopies in
theorem selectReply_selected {targetId : ULong} {response : SelectTargetResponse}
    (hformat : SelectFormat targetId response) (hs : ntSuccess response.status) :
    (selectReply sys targetId (.completed response.encode sizeofSelectTargetResponse)).ok = true := by
  rw [selectReply, SelectTargetResponse.decode_encode]
  have hvalid := validSelectTargetResponse_of_format hformat
  rw [if_neg (by simpa using hvalid), if_neg (by simp [hs, hformat.selected hs])]
  rfl

theorem select_accepted {client : PEProcess} {request : SelectTargetRequest} {l : WinLog}
    {output : Nat} {returned : DWord}
    (h : ((System.deviceIoControl sys client selectTarget request.encode sizeofSelectTargetRequest
      sizeofSelectTargetResponse).run env l).1 = .completed output returned) :
    returned = sizeofSelectTargetResponse ∧ validSelectTargetResponse (.decode output) returned ∧
      (selectReply sys request.targetId (.completed output returned)).ok =
        ntSuccess (SelectTargetResponse.decode output).status := by
  obtain ⟨completed, hdelivered, hresult⟩ := deviceIoControl_delivered hcopies h
  cases hdelivered with
  | coordinates hcommand => cases hcommand
  | text hcommand => cases hcommand
  | @select _ response _ hinput _ hformat =>
    obtain rfl := Option.some.inj hinput
    rw [System.ioctlResult_success response.encode_lt] at hresult
    obtain ⟨rfl, rfl⟩ := IoctlResult.completed.inj hresult
    rw [SelectTargetRequest.decode_encode] at hformat
    rw [SelectTargetResponse.decode_encode]
    refine ⟨rfl, validSelectTargetResponse_of_format hformat, ?_⟩
    cases hs : ntSuccess response.status with
    | true => exact selectReply_selected hformat hs
    | false => exact selectReply_failed (by rwa [SelectTargetResponse.decode_encode])

/-- Driver and client agree on the format of every response. -/
theorem driver_client_agree (client : PEProcess) (l : WinLog) :
    (∀ irp, ntSuccess ((deviceControl sys irp).run env l).1.status →
      Delivered irp ((deviceControl sys irp).run env l).1) ∧
    (∀ (request : Request) output returned,
      ((System.deviceIoControl sys client readCoordinates request.encode sizeofRequest
        sizeofResponse).run env l).1 = .completed output returned →
      returned = sizeofResponse ∧ validResponse request (.decode output) returned ∧
        (readReply sys request (.completed output returned)).ok =
          ntSuccess (Response.decode output).status) ∧
    (∀ (request : TextRequest) output returned,
      ((System.deviceIoControl sys client Protocol.readText request.encode sizeofTextRequest
        sizeofTextResponse).run env l).1 = .completed output returned →
      returned = sizeofTextResponse ∧ validTextResponse request (.decode output) returned ∧
        (readTextReply sys request (.completed output returned)).ok =
          ntSuccess (TextResponse.decode output).status) ∧
    (∀ (request : SelectTargetRequest) output returned,
      ((System.deviceIoControl sys client selectTarget request.encode sizeofSelectTargetRequest
        sizeofSelectTargetResponse).run env l).1 = .completed output returned →
      returned = sizeofSelectTargetResponse ∧
        validSelectTargetResponse (.decode output) returned ∧
        (selectReply sys request.targetId (.completed output returned)).ok =
          ntSuccess (SelectTargetResponse.decode output).status) :=
  ⟨fun irp => deviceControl_delivered hcopies irp l, fun _ _ _ => read_accepted hcopies,
    fun _ _ _ => readText_accepted hcopies, fun _ _ _ => select_accepted hcopies⟩

end System

def sampleRequest : Request := ⟨3, sizeofRequest, 7, 0x1000, Axis.x, 0, ValueType.int32, 0⟩

/-- A coordinate is read from a target that holds 77 there, and accepted. -/
theorem driver_client_agree_sample :
    let env := (Target.ofCells samplePlatform silentApi [(0x401000, 77)]).env 9 sampleImage
    let output := (Response.mk 3 sizeofResponse statusSuccess 4 Axis.x ValueType.int32 77 0).encode
    ((System.deviceIoControl samplePlatform 9 readCoordinates sampleRequest.encode sizeofRequest
      sizeofResponse).run env []).1 = .completed output sizeofResponse ∧
    validResponse sampleRequest (.decode output) sizeofResponse ∧
    (readReply samplePlatform sampleRequest (.completed output sizeofResponse)).ok = true := by
  intro env output
  have hreply : ((System.deviceIoControl samplePlatform 9 readCoordinates sampleRequest.encode
      sizeofRequest sizeofResponse).run env []).1 = .completed output sizeofResponse := by
    decide +kernel
  obtain ⟨-, hformat, hok⟩ :=
    (driver_client_agree (Target.env_copied_le _ _ _) 9 []).2.1 _ _ _ hreply
  refine ⟨hreply, hformat, hok.trans ?_⟩
  rw [Response.decode_encode]
  rfl

end DarkEden.ResponseFormat
