import DarkEden.SearchStep

namespace DarkEden.PointerOverflow

open Interaction Memory CoordinateReader SelectTarget Protocol

abbrev FieldRef := ULongPtr × ULongPtr

def Overflows (f : FieldRef) : Prop := 0xFFFFFFFF < f.1.toNat + f.2.toNat

instance (f : FieldRef) : Decidable (Overflows f) := inferInstanceAs (Decidable (_ < _))

def Note.formed : Note → Option FieldRef
  | .field pointer offset => some (pointer, offset)
  | _ => none

section Reader

def formedBy : ReaderOp → Option FieldRef
  | .note n => Note.formed n
  | _ => none

def formed (l : ReaderLog) : List FieldRef := l.filterMap fun e => formedBy e.1

def Fits (l : ReaderLog) : Prop := ∀ f ∈ formed l, ¬Overflows f

@[simp]
theorem formed_append (l : ReaderLog) (e : Sigma ReaderAns) :
    formed (l ++ [e]) = formed l ++ (formedBy e.1).toList := by
  rw [formed, List.filterMap_append]
  cases h : formedBy e.1 <;> simp [formed, h]

theorem fits_snoc {l : ReaderLog} (h : Fits l) {o : ReaderOp}
    (ho : ∀ f, formedBy o = some f → ¬Overflows f) (x : ReaderAns o) : Fits (l ++ [⟨o, x⟩]) := by
  intro f hf
  rw [formed_append, List.mem_append, Option.mem_toList] at hf
  exact hf.elim (h f) (ho f)

theorem fits_append {l : ReaderLog} (h : Fits l) {o : ReaderOp} (ho : formedBy o = none)
    (x : ReaderAns o) : Fits (l ++ [⟨o, x⟩]) :=
  fits_snoc h (fun f hf => by rw [ho] at hf; cases hf) x

/-- Where the request may touch the target: not at a field address that does not fit. -/
def SparedBy (l : ReaderLog) : ReaderOp → Prop
  | .read _ a | .writeUInt32 a _ => ∀ f ∈ formed l, Overflows f → f.1 + f.2 ≠ a
  | _ => True

def sparing : Contract ReaderAns := ⟨fun _ _ _ => True, SparedBy⟩

/-- Every field address that did not fit is answered with an overflow. -/
def Sound (status : NtStatus) (l : ReaderLog) : Prop :=
  Fits l ∨ status = statusIntegerOverflow

theorem sparing_read {α : Type} {bits : Nat} {a : ULongPtr}
    {f : MemoryReadResult bits → Memory α} {l : ReaderLog} {Q : α → ReaderLog → Prop} (hl : Fits l)
    (hf : ∀ r l', Fits l' → wp sparing (f r) l' Q) : wp sparing (read bits a >>= f) l Q :=
  wp_ask_bind.mpr ⟨fun f hf hover => absurd hover (hl f hf),
    fun r _ => hf r _ (fits_append hl rfl r)⟩

theorem sparing_resolve {α : Type} {offset : ULongPtr} {f : Resolved → Memory α} {l : ReaderLog}
    {Q : α → ReaderLog → Prop} (hl : Fits l) (hf : ∀ r l', Fits l' → wp sparing (f r) l' Q) :
    wp sparing (resolveImageOffset offset >>= f) l Q :=
  wp_ask_bind.mpr ⟨trivial, fun r _ => hf r _ (fits_append hl rfl r)⟩

/-- A field address that fits may be used; one that does not fit must end the request. -/
theorem sparing_field {α : Type} {pointer offset : ULongPtr} {p : Memory α} {l : ReaderLog}
    {Q : α → ReaderLog → Prop} (hl : Fits l)
    (hfits : ¬Overflows (pointer, offset) → ∀ l', Fits l' → wp sparing p l' Q)
    (hover : Overflows (pointer, offset) → ∀ l', wp sparing p l' Q) :
    wp sparing (note (.field pointer offset) >>= fun _ => p) l Q := by
  refine wp_ask_bind.mpr ⟨trivial, fun x _ => ?_⟩
  by_cases h : Overflows (pointer, offset)
  · exact hover h _
  · refine hfits h _ (fits_snoc hl (fun f hf => ?_) x)
    obtain rfl := Option.some.inj hf
    exact h

theorem sparing_sub {α : Type} {a b : ULongPtr} {f : ULongPtr → Memory α} {l : ReaderLog}
    {Q : α → ReaderLog → Prop} (hf : ∀ l', (Fits l → Fits l') → wp sparing (f (a - b)) l' Q) :
    wp sparing (subAddress a b >>= f) l Q := by
  rw [wp_bind]
  exact ⟨trivial, fun x _ => hf _ fun hl => fits_append hl rfl x⟩

theorem sparing_add {α : Type} {a b : ULongPtr} {f : ULongPtr → Memory α} {l : ReaderLog}
    {Q : α → ReaderLog → Prop} (hf : ∀ l', (Fits l → Fits l') → wp sparing (f (a + b)) l' Q) :
    wp sparing (addAddress a b >>= f) l Q := by
  rw [wp_bind]
  exact ⟨trivial, fun x _ => hf _ fun hl => fits_append hl rfl x⟩

def Walked {α : Type} (r : Except NtStatus α) (l : ReaderLog) : Prop :=
  match r with
  | .ok _ => Fits l
  | .error status => Sound status l

theorem addOffset_32 (pointer offset : ULongPtr) : addOffset 32 pointer offset = (do
    if pointer = 0 then return .error statusInvalidAddress
    if pointer > 0xFFFFFFFF then return .error statusIntegerOverflow
    let room ← subAddress 0xFFFFFFFF pointer
    if offset > room then return .error statusIntegerOverflow
    let address ← addAddress pointer offset
    return .ok address) := rfl

theorem wp_addOffset_fits {pointer offset : ULongPtr} {l : ReaderLog} (hl : Fits l) :
    wp sparing (addOffset 32 pointer offset) l Walked := by
  rw [addOffset_32, wp_ite]
  refine ⟨fun _ => .inl hl, fun _ => ?_⟩
  rw [wp_ite]
  refine ⟨fun _ => .inl hl, fun _ => ?_⟩
  apply sparing_sub
  intro l₁ hl₁
  rw [wp_ite]
  refine ⟨fun _ => .inl (hl₁ hl), fun _ => ?_⟩
  apply sparing_add
  exact fun l₂ hl₂ => hl₂ (hl₁ hl)

theorem wp_addOffset_overflows {pointer offset : ULong} {l : ReaderLog}
    (h : Overflows (pointer.setWidth 64, offset.setWidth 64)) :
    wp sparing (addOffset 32 (pointer.setWidth 64) (offset.setWidth 64)) l fun r _ =>
      r = .error statusIntegerOverflow := by
  simp only [Overflows, BitVec.toNat_setWidth] at h
  rw [addOffset_32, wp_ite]
  refine ⟨fun hzero => ?_, fun _ => ?_⟩
  · bv_omega
  rw [wp_ite]
  refine ⟨fun _ => rfl, fun _ => ?_⟩
  apply sparing_sub
  intro l₁ _
  rw [wp_ite]
  refine ⟨fun _ => rfl, fun hroom => ?_⟩
  bv_omega

theorem wp_followOffsets_walked (offsets : List ULong) (address : ULongPtr) {l : ReaderLog}
    (hl : Fits l) : wp sparing (followOffsets 32 offsets address) l Walked := by
  induction offsets generalizing address l with
  | nil => exact hl
  | cons offset offsets ih =>
    rw [followOffsets]
    apply sparing_read hl
    intro pointer l₁ hl₁
    rw [wp_ite]
    refine ⟨fun _ => .inl hl₁, fun _ => ?_⟩
    apply sparing_field hl₁
    · intro _ l₂ hl₂
      rw [wp_bind]
      refine wp_mono (wp_addOffset_fits hl₂) fun r l₃ hr => ?_
      cases r with
      | error status => exact hr
      | ok address => exact ih address hr
    · intro hover l₂
      rw [wp_bind]
      refine wp_mono (wp_addOffset_overflows hover) fun r l₃ hr => ?_
      subst hr
      exact .inr rfl

theorem wp_readAtOffset_sound (bits : Nat) (base : ULongPtr) (finalOffset : ULong)
    {l : ReaderLog} (hl : Fits l) :
    wp sparing (readAtOffset 32 bits base finalOffset) l fun r l' =>
      Fits l' ∨ r = ⟨statusIntegerOverflow, 0, 0⟩ := by
  rw [readAtOffset, wp_bind]
  refine wp_mono (wp_addOffset_fits hl) fun r l₁ hr => ?_
  cases r with
  | error status => exact hr.imp_right fun hs => by rw [hs]
  | ok address =>
    rw [wp_bind]
    refine wp_mono (wp_followOffsets_walked _ address hr) fun r l₂ hr => ?_
    cases r with
    | error status => exact hr.imp_right fun hs => by rw [hs]
    | ok address =>
      exact ⟨fun f hf hover => absurd hover (hr f hf), fun r _ => .inl (fits_append hr rfl r)⟩

theorem wp_readCoordinateRequest_sound (request : Request) {l : ReaderLog} (hl : Fits l) :
    wp sparing (readCoordinateRequest 32 request) l fun response => Sound response.status := by
  have hreport : ∀ {bits : Nat} {r : MemoryReadResult bits} {l : ReaderLog} {done left : Response},
      Fits l ∨ r = ⟨statusIntegerOverflow, 0, 0⟩ → left.status = r.finalStatus →
      wp sparing (if r.succeeded then pure done else pure left : Memory Response) l
        fun response => Sound response.status := by
    intro bits r l done left hr hleft
    rw [wp_ite]
    obtain hl | rfl := hr
    · exact ⟨fun _ => .inl hl, fun _ => .inl hl⟩
    · exact ⟨nofun, fun _ => .inr hleft⟩
  rw [readCoordinateRequest, wp_ite]
  refine ⟨fun _ => ?_, fun _ => ?_⟩
  · rw [wp_bind]
    exact wp_mono (wp_readAtOffset_sound _ _ _ hl) fun r l' hr => hreport hr rfl
  · rw [wp_ite, wp_bind, wp_bind]
    exact ⟨fun _ => wp_mono (wp_readAtOffset_sound _ _ _ hl) fun r l' hr => hreport hr rfl,
      fun _ => wp_mono (wp_readAtOffset_sound _ _ _ hl) fun r l' hr => hreport hr rfl⟩

theorem wp_walkPointers_walked (offsets : List ULong) (address : ULongPtr) {l : ReaderLog}
    (hl : Fits l) : wp sparing (walkPointers offsets address) l Walked := by
  induction offsets generalizing address l with
  | nil => exact hl
  | cons offset offsets ih =>
    rw [walkPointers]
    apply sparing_read hl
    intro pointer l₁ hl₁
    rw [wp_ite]
    refine ⟨fun _ => .inl hl₁, fun _ => ?_⟩
    rw [wp_ite]
    refine ⟨fun _ => .inl hl₁, fun _ => ?_⟩
    apply sparing_field hl₁
    · intro _ l₂ hl₂
      rw [wp_ite]
      refine ⟨fun _ => .inl hl₂, fun _ => ?_⟩
      apply sparing_add
      exact fun l₃ hl₃ => ih _ (hl₃ hl₂)
    · intro hover l₂
      rw [wp_ite]
      refine ⟨fun _ => .inr rfl, fun hroom => ?_⟩
      simp only [Overflows, BitVec.toNat_setWidth] at hover
      bv_omega

theorem wp_walk_sound {α : Type} {offsets : List ULong} {address : ULongPtr} {l : ReaderLog}
    {k : Except NtStatus ULongPtr → Memory α} {statusOf : α → NtStatus} (hl : Fits l)
    (herror : ∀ status l', Sound status l' →
      wp sparing (k (.error status)) l' fun a => Sound (statusOf a))
    (hok : ∀ address l', Fits l' → wp sparing (k (.ok address)) l' fun a => Sound (statusOf a)) :
    wp sparing (walkPointers offsets address >>= k) l fun a => Sound (statusOf a) := by
  rw [wp_bind]
  refine wp_mono (wp_walkPointers_walked offsets address hl) fun r l' hr => ?_
  cases r with
  | error status => exact herror status l' hr
  | ok address => exact hok address l' hr

theorem wp_dispatchCoordinateRequest_sound {request : Request} (hbytes : request.pointerBytes ≠ 8)
    {l : ReaderLog} (hl : Fits l) :
    wp sparing (dispatchCoordinateRequest request) l fun response => Sound response.status := by
  rw [dispatchCoordinateRequest, wp_ite]
  refine ⟨fun _ => .inl hl, fun hvalid => ?_⟩
  rw [wp_ite]
  refine ⟨fun _ => wp_walk_sound hl (fun _ _ h => h) fun address l' hl' => ?_, fun _ => ?_⟩
  · apply sparing_read hl'
    intro r l₁ hl₁
    rw [wp_ite]
    exact ⟨fun _ => .inl hl₁, fun _ => .inl hl₁⟩
  rw [wp_ite]
  refine ⟨fun _ => wp_walk_sound hl (fun _ _ h => h) fun address l' hl' => ?_, fun hwide => ?_⟩
  · apply sparing_read hl'
    intro r l₁ hl₁
    rw [wp_ite]
    exact ⟨fun _ => .inl hl₁, fun _ => .inl hl₁⟩
  rw [wp_ite]
  refine ⟨fun _ => wp_readCoordinateRequest_sound request hl, fun hfour => ?_⟩
  have hvalid' : validRequest request = true := by simpa using hvalid
  obtain ⟨-, -, -, -, -, -, -, hwidth, -⟩ := of_decide_eq_true hvalid'
  obtain ⟨hnone, -⟩ | h | h := hwidth
  · exact absurd (.inl hnone) hwide
  · exact absurd h hfour
  · exact absurd h hbytes

theorem wp_readCharacter_sound (address : ULongPtr) (characterBytes : ULong)
    (s : ULong × TextResponse) {l : ReaderLog} (hl : Fits l) :
    wp sparing (readCharacter address characterBytes s) l fun r l' =>
      Sum.elim (fun _ => Fits l') (fun response => Sound response.status l') r := by
  rw [readCharacter, wp_ite]
  refine ⟨fun _ => .inl hl, fun _ => ?_⟩
  apply sparing_field hl
  · intro _ l₁ hl₁
    rw [wp_ite]
    refine ⟨fun _ => .inl hl₁, fun _ => ?_⟩
    apply sparing_add
    intro l₂ hl₂
    rw [wp_ite]
    refine ⟨fun _ => ?_, fun _ => ?_⟩
    all_goals
      apply sparing_read (hl₂ hl₁)
      intro r l₃ hl₃
      rw [wp_ite]
      refine ⟨fun _ => .inl hl₃, fun _ => ?_⟩
      rw [wp_ite]
      exact ⟨fun _ => .inl hl₃, fun _ => hl₃⟩
  · intro hover l₁
    rw [wp_ite]
    refine ⟨fun _ => .inr rfl, fun hroom => ?_⟩
    simp only [Overflows, BitVec.toNat_setWidth] at hover
    bv_omega

theorem wp_readTextAtAddress_sound (address : ULongPtr) (characterBytes : ULong)
    (response : TextResponse) {l : ReaderLog} (hl : Fits l) :
    wp sparing (readTextAtAddress address characterBytes response) l fun r => Sound r.status := by
  rw [readTextAtAddress, wp_ite]
  refine ⟨fun _ => .inl hl, fun _ => ?_⟩
  rw [wp_ite]
  refine ⟨fun _ => .inl hl, fun _ => ?_⟩
  rw [wp_bind]
  exact wp_loop (fun _ _ l => Fits l) (fun _ s _ hl => wp_readCharacter_sound _ _ s hl)
    (fun _ _ hl => .inl hl) 257 _ l hl

theorem wp_readResolvedText_sound (request : TextRequest) {l : ReaderLog} (hl : Fits l) :
    wp sparing (readResolvedText request) l fun r => Sound r.status := by
  apply sparing_resolve hl
  intro slot l₁ hl₁
  rw [wp_ite]
  refine ⟨fun _ => .inl hl₁, fun _ => ?_⟩
  rw [wp_ite]
  refine ⟨fun _ => ?_, fun _ => ?_⟩
  · rw [readOtherCharacterText, wp_ite]
    refine ⟨fun _ => .inl hl₁, fun _ => ?_⟩
    exact wp_walk_sound hl₁ (fun _ _ h => h)
      fun address l₂ hl₂ => wp_readTextAtAddress_sound address _ _ hl₂
  · rw [readPointedText, wp_ite]
    refine ⟨fun _ => .inl hl₁, fun _ => ?_⟩
    apply sparing_read hl₁
    intro pointer l₂ hl₂
    rw [wp_ite]
    exact ⟨fun _ => .inl hl₂, fun _ => wp_readTextAtAddress_sound _ _ _ hl₂⟩

theorem wp_readResolved_sound {request : Request} (hbytes : request.pointerBytes ≠ 8)
    {l : ReaderLog} (hl : Fits l) :
    wp sparing (readResolved request) l fun r => Sound r.status := by
  apply sparing_resolve hl
  intro resolved l₁ hl₁
  rw [wp_ite]
  have hbytes' : { request with baseAddress := resolved.address }.pointerBytes ≠ 8 := hbytes
  exact ⟨fun _ => .inl hl₁, fun _ => wp_dispatchCoordinateRequest_sound hbytes' hl₁⟩

/-! `SelectTarget` adds its offsets without a check: wherever that overflows, either the
target is touched there or another status than the overflow is answered. -/

def Refusal (status : NtStatus) : Prop :=
  status = statusInvalidDeviceState ∨ status = statusInvalidParameter

theorem Refusal.failed {status : NtStatus} (h : Refusal status) : ntSuccess status = false := by
  obtain rfl | rfl := h <;> rfl

theorem Refusal.not_overflow {status : NtStatus} (h : Refusal status) :
    status ≠ statusIntegerOverflow := by
  obtain rfl | rfl := h <;> decide

/-- The target was touched at an address, unless the method reports that it was not. -/
def touchedBy (e : Sigma ReaderAns) (a : ULongPtr) : Prop :=
  match e with
  | ⟨.read _ b, r⟩ => b = a ∧ ¬Refusal r.status
  | ⟨.writeUInt32 b _, status⟩ => b = a ∧ ¬Refusal status
  | _ => False

def Touched (l : ReaderLog) : Prop :=
  ∃ l₁ e, l₁ ++ [e] <+: l ∧ ∃ f ∈ formed l₁, Overflows f ∧ touchedBy e (f.1 + f.2)

def Exposed (l : ReaderLog) : Prop := Fits l ∨ Touched l

theorem Touched.mono {l l' : ReaderLog} (h : Touched l) (hl : l <+: l') : Touched l' := by
  obtain ⟨l₁, e, hpre, hf⟩ := h
  exact ⟨l₁, e, hpre.trans hl, hf⟩

theorem Exposed.append {l : ReaderLog} (h : Exposed l) {o : ReaderOp} (ho : formedBy o = none)
    (x : ReaderAns o) : Exposed (l ++ [⟨o, x⟩]) :=
  h.imp (fun hl => fits_append hl ho x) fun hl => hl.mono (List.prefix_append _ _)

def anyReader : Contract ReaderAns := ⟨fun _ _ _ => True, fun _ _ => True⟩

/-- Using the address of a field exposes the request, unless the method refuses to. -/
theorem exposed_use {pointer offset : ULongPtr} {l : ReaderLog} (h : Exposed l) {o : ReaderOp}
    (ho : formedBy o = none) {x : ReaderAns o} (hx : touchedBy ⟨o, x⟩ (pointer + offset)) :
    Exposed (l ++ [⟨.note (.field pointer offset), ()⟩] ++ [⟨.note (.sum pointer offset), ()⟩] ++
      [⟨o, x⟩]) := by
  obtain hl | hl := h
  · by_cases hover : Overflows (pointer, offset)
    · refine .inr ⟨_, ⟨o, x⟩, List.prefix_rfl, (pointer, offset), ?_, hover, hx⟩
      rw [formed_append, formed_append]
      simp [formedBy, Note.formed]
    · have hfield : Fits (l ++ [⟨.note (.field pointer offset), ()⟩]) := by
        refine fits_snoc hl (fun f hf => ?_) _
        obtain rfl := Option.some.inj hf
        exact hover
      have hsum := fits_append hfield (o := .note (.sum pointer offset)) rfl ()
      exact .inl (fits_append hsum ho x)
  · refine .inr (hl.mono ?_)
    simp only [List.append_assoc]
    exact List.prefix_append _ _

theorem exposed_readField (l : ReaderLog) (pointer : ULong) (offset : ULongPtr) :
    wp anyReader (readField pointer offset) l fun r l' =>
      Exposed l → Exposed l' ∨ Refusal r.status := by
  refine ⟨trivial, fun _ _ => ⟨trivial, fun _ _ => ⟨trivial, fun r _ h => ?_⟩⟩⟩
  by_cases hr : Refusal r.status
  · exact .inr hr
  · exact .inl (exposed_use h rfl ⟨rfl, hr⟩)

theorem exposed_field {α : Type} {pointer : ULong} {offset : ULongPtr}
    {f : MemoryReadResult 32 → Memory α} {l : ReaderLog} {Q : α → ReaderLog → Prop} (h : Exposed l)
    (hf : ∀ r l', Exposed l' ∨ Refusal r.status → wp anyReader (f r) l' Q) :
    wp anyReader (readField pointer offset >>= f) l Q := by
  rw [wp_bind]
  exact wp_mono (exposed_readField l pointer offset) fun r l' hr => hf r l' (hr h)

theorem Refusal.not_succeeded {bits : Nat} {r : MemoryReadResult bits} (h : Refusal r.status) :
    (!r.succeeded) = true := by
  rw [MemoryReadResult.succeeded, h.failed]
  rfl

theorem exposed_of_succeeded {bits : Nat} {r : MemoryReadResult bits} {l : ReaderLog}
    (h : Exposed l ∨ Refusal r.status) (hs : ¬(!r.succeeded) = true) : Exposed l :=
  h.resolve_right fun hr => hs hr.not_succeeded

def Ended {α : Type} (e : Except NtStatus α) (l : ReaderLog) : Prop :=
  Exposed l ∨ ∃ status, e = .error status ∧ status ≠ statusIntegerOverflow

theorem ended_failed {α : Type} {bits : Nat} {r : MemoryReadResult bits} {l : ReaderLog}
    (h : Exposed l ∨ Refusal r.status) : Ended (.error r.status : Except NtStatus α) l :=
  h.imp_right fun hr => ⟨_, rfl, hr.not_overflow⟩

theorem wp_searchStep_exposed (targetId header node : ULong) {l : ReaderLog} (hl : Exposed l) :
    wp anyReader (searchStep targetId header node) l fun r l' =>
      Sum.elim (fun _ => Exposed l') (fun e => Ended e l' ∨ e = .ok false) r := by
  refine wp_mono (SearchStep.wp_searchStep
    (R := fun l _ _ r l' => Exposed l → Exposed l' ∨ Refusal r.status) exposed_readField l)
    fun r l' h => ?_
  cases h with
  | leaf => exact .inr rfl
  | unread _ hkey => exact .inl (ended_failed (hkey hl))
  | found _ hkey hs _ h =>
    have hl₁ := exposed_of_succeeded (hkey hl) hs
    cases h with
    | unread hactor => exact .inl (ended_failed (hactor hl₁))
    | null => exact .inr rfl
    | @compared _ id xy _ _ _ hactor hs₂ _ hid hxy =>
      have hid := hid (exposed_of_succeeded (hactor hl₁) hs₂)
      by_cases hrefused : Refusal id.status
      · -- The other read decides nothing any more.
        have hs : id.succeeded = false := by simpa using hrefused.not_succeeded
        exact .inr (by simp [SelectTarget.actorMatches, hs])
      · have hxy := hxy (hid.resolve_right hrefused)
        by_cases hs : xy.succeeded
        · exact .inl (.inl (exposed_of_succeeded hxy (by simp [hs])))
        · exact .inr (by simp [SelectTarget.actorMatches, hs])
  | down _ hkey hs _ h =>
    have hl₁ := exposed_of_succeeded (hkey hl) hs
    cases h with
    | unread hchild => exact .inl (ended_failed (hchild hl₁))
    | leaf => exact .inr rfl
    | inner hchild hs₂ _ h =>
      have hl₂ := exposed_of_succeeded (hchild hl₁) hs₂
      cases h with
      | unread hparent => exact .inl (ended_failed (hparent hl₂))
      | strange => exact .inr rfl
      | back hparent hs₃ => exact exposed_of_succeeded (hparent hl₂) hs₃

theorem exposed_read {α : Type} {a : ULongPtr} {f : MemoryReadResult 32 → Memory α}
    {l : ReaderLog} {Q : α → ReaderLog → Prop} (h : Exposed l)
    (hf : ∀ r l', Exposed l' → wp anyReader (f r) l' Q) : wp anyReader (read 32 a >>= f) l Q :=
  wp_ask_bind.mpr ⟨trivial, fun r _ => hf r _ (h.append rfl r)⟩

theorem exposed_resolve {α : Type} {offset : ULongPtr} {f : Resolved → Memory α}
    {l : ReaderLog} {Q : α → ReaderLog → Prop} (h : Exposed l)
    (hf : ∀ r l', Exposed l' → wp anyReader (f r) l' Q) :
    wp anyReader (resolveImageOffset offset >>= f) l Q :=
  wp_ask_bind.mpr ⟨trivial, fun r _ => hf r _ (h.append rfl r)⟩

theorem wp_locate_exposed (targetId : ULong) {l : ReaderLog} (hl : Exposed l) :
    wp anyReader (locate targetId) l Ended := by
  rw [locate]
  apply exposed_resolve hl
  intro controllerField l₁ hl₁
  rw [wp_ite]
  refine ⟨fun _ => .inl hl₁, fun _ => ?_⟩
  apply exposed_resolve hl₁
  intro treeField l₂ hl₂
  rw [wp_ite]
  refine ⟨fun _ => .inl hl₂, fun _ => ?_⟩
  apply exposed_resolve hl₂
  intro vtableAddress l₃ hl₃
  rw [wp_ite]
  refine ⟨fun _ => .inl hl₃, fun _ => ?_⟩
  apply exposed_read hl₃
  intro controller l₄ hl₄
  apply exposed_read hl₄
  intro manager l₅ hl₅
  rw [wp_ite]
  refine ⟨fun _ => .inl hl₅, fun _ => ?_⟩
  rw [wp_ite]
  refine ⟨fun _ => .inl hl₅, fun _ => ?_⟩
  rw [wp_ite]
  refine ⟨fun _ => .inl hl₅, fun _ => ?_⟩
  apply exposed_read hl₅
  intro vtable l₆ hl₆
  rw [wp_ite]
  refine ⟨fun _ => .inl hl₆, fun _ => ?_⟩
  rw [wp_ite]
  refine ⟨fun _ => .inl hl₆, fun _ => ?_⟩
  apply exposed_field hl₆
  intro header l₇ hheader
  rw [wp_ite]
  refine ⟨fun _ => ended_failed hheader, fun hs => ?_⟩
  have hl₇ := exposed_of_succeeded hheader hs
  rw [wp_ite]
  refine ⟨fun _ => .inl hl₇, fun _ => ?_⟩
  apply exposed_field hl₇
  intro root l₈ hroot
  rw [wp_ite]
  refine ⟨fun _ => ended_failed hroot, fun hs => ?_⟩
  rw [wp_bind]
  refine wp_loop (fun _ _ l => Exposed l) (fun _ node l' hl' => ?_)
    (fun _ _ hl' => .inl hl') 64 root.value l₈ (exposed_of_succeeded hroot hs)
  refine wp_mono (wp_searchStep_exposed _ _ _ hl') fun r l'' hr => ?_
  match r with
  | .inl child => exact hr
  | .inr (.error status) =>
    obtain h | h := hr
    · exact h.imp_right fun ⟨s, hs, hne⟩ => ⟨s, by cases hs; rfl, hne⟩
    · cases h
  | .inr (.ok false) => exact .inr ⟨_, rfl, by decide⟩
  | .inr (.ok true) => exact .inl ((hr.resolve_right nofun).resolve_right fun ⟨_, h, _⟩ => by cases h)

theorem wp_select_exposed (targetId : ULong) {l : ReaderLog} (hl : Exposed l) :
    wp anyReader (select targetId) l fun response l' =>
      Exposed l' ∨ response.status ≠ statusIntegerOverflow := by
  rw [select, wp_bind]
  refine wp_mono (wp_locate_exposed targetId hl) fun r l₁ hr => ?_
  cases r with
  | error status =>
    exact hr.imp_right fun ⟨s, h, hs⟩ => by cases h; exact hs
  | ok controller =>
    have hl₁ : Exposed l₁ := hr.resolve_right fun ⟨_, h, _⟩ => by cases h
    refine ⟨trivial, fun _ _ => ⟨trivial, fun _ _ => ?_⟩⟩
    refine wp_ask_bind.mpr ⟨trivial, fun written _ => ?_⟩
    by_cases hrefused : Refusal written
    · rw [if_pos (by simp [hrefused.failed])]
      exact .inr hrefused.not_overflow
    · have hl₂ := exposed_use hl₁ (o := .writeUInt32 _ targetId) rfl (x := written) ⟨rfl, hrefused⟩
      rw [wp_ite]
      refine ⟨fun _ => .inl hl₂, fun _ => ?_⟩
      apply exposed_read hl₂
      intro selected l₃ hl₃
      rw [wp_ite]
      exact ⟨fun _ => .inl hl₃, fun _ => .inl hl₃⟩

end Reader

end DarkEden.PointerOverflow
