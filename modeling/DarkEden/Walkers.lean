import DarkEden.Requests

namespace DarkEden.Walkers

open Interaction Memory CoordinateReader SelectTarget

/-- The sum or difference of addresses is computed without wrap-around. -/
def NoWrap : Note → Prop
  | .sum a b => a.toNat + b.toNat < 2 ^ 64
  | .diff a b => b ≤ a
  | .field _ _ => True

def Bounded : ReaderOp → Prop
  | .note n => NoWrap n
  | _ => True

def Tame : ReaderOp → Prop
  | .note n => NoWrap n
  | .writeUInt32 _ _ => False
  | _ => True

theorem bounded_of_tame (o : ReaderOp) (h : Tame o) : Bounded o := by
  cases o with
  | note n => exact h
  | writeUInt32 => exact h.elim
  | _ => trivial

/-- No wrapping address arithmetic, no write, and the slot of the selection is left out. -/
def Searching : ReaderOp → Prop
  | .note (.field _ offset) => offset ≠ 0x28
  | .note n => NoWrap n
  | .writeUInt32 _ _ => False
  | _ => True

theorem bounded_of_searching (o : ReaderOp) (h : Searching o) : Bounded o := by
  cases o with
  | note n =>
    cases n with
    | field => trivial
    | _ => exact h
  | writeUInt32 => exact h.elim
  | _ => trivial

variable {α : Type} {allowed : ReaderOp → Prop}

theorem uses_addAddress {a b : ULongPtr} {f : ULongPtr → Memory α} (h : allowed (.note (.sum a b)))
    (hf : Uses allowed (f (a + b))) : Uses allowed (addAddress a b >>= f) :=
  ⟨h, fun _ => hf⟩

theorem uses_subAddress {a b : ULongPtr} {f : ULongPtr → Memory α}
    (h : allowed (.note (.diff a b))) (hf : Uses allowed (f (a - b))) :
    Uses allowed (subAddress a b >>= f) :=
  ⟨h, fun _ => hf⟩

theorem noWrap_field (pointer offset : ULong) :
    NoWrap (.sum (pointer.setWidth 64) (offset.setWidth 64)) := by
  have hpointer := pointer.isLt
  have hoffset := offset.isLt
  simp only [NoWrap, BitVec.toNat_setWidth]
  omega

section Coordinates

theorem addOffset_tame (pointerBits : Nat) (pointer offset : ULongPtr) :
    Uses Tame (addOffset pointerBits pointer offset) := by
  unfold addOffset
  extract_lets targetMax hostMax limit
  apply uses_ite (fun _ => uses_pure _)
  intro _
  apply uses_ite (fun _ => uses_pure _)
  intro hpointer
  apply uses_subAddress (BitVec.not_lt.mp hpointer)
  apply uses_ite (fun _ => uses_pure _)
  intro hroom
  refine uses_addAddress ?_ (uses_pure _)
  have hlimit := limit.isLt
  simp only [Tame, NoWrap]
  bv_omega

theorem followOffsets_tame (pointerBits : Nat) (offsets : List ULong) (address : ULongPtr) :
    Uses Tame (followOffsets pointerBits offsets address) := by
  induction offsets generalizing address with
  | nil => exact uses_pure _
  | cons offset offsets ih =>
    apply uses_bind (uses_ask trivial)
    intro pointer
    refine uses_ite (fun _ => uses_pure _) fun _ => uses_bind (uses_ask trivial) fun _ => ?_
    apply uses_bind (addOffset_tame _ _ _)
    intro r
    cases r with
    | error status => exact uses_pure _
    | ok address => exact ih address

theorem readAtOffset_tame (pointerBits bits : Nat) (base : ULongPtr) (finalOffset : ULong) :
    Uses Tame (readAtOffset pointerBits bits base finalOffset) := by
  apply uses_bind (addOffset_tame _ _ _)
  intro r
  cases r with
  | error status => exact uses_pure _
  | ok address =>
    apply uses_bind (followOffsets_tame _ _ _)
    intro r
    cases r with
    | error status => exact uses_pure _
    | ok address => exact uses_ask trivial

theorem readCoordinateRequest_tame (pointerBits : Nat) (request : Request) :
    Uses Tame (readCoordinateRequest pointerBits request) := by
  have hresult : ∀ {α : Type} {c : Prop} [Decidable c] (a b : α),
      Uses Tame (if c then pure a else pure b : Memory α) :=
    fun _ _ => uses_ite (fun _ => uses_pure _) fun _ => uses_pure _
  apply uses_ite
  · exact fun _ => uses_bind (readAtOffset_tame _ _ _ _) fun _ => hresult _ _
  · refine fun _ => uses_ite (fun _ => ?_) fun _ => ?_
    · exact uses_bind (readAtOffset_tame _ _ _ _) fun _ => hresult _ _
    · exact uses_bind (readAtOffset_tame _ _ _ _) fun _ => hresult _ _

theorem walkPointers_tame (offsets : List ULong) (address : ULongPtr) :
    Uses Tame (walkPointers offsets address) := by
  induction offsets generalizing address with
  | nil => exact uses_pure _
  | cons offset offsets ih =>
    apply uses_bind (uses_ask trivial)
    intro pointer
    refine uses_ite (fun _ => uses_pure _) fun _ => uses_ite (fun _ => uses_pure _) fun _ => ?_
    refine uses_bind (uses_ask trivial) fun _ => uses_ite (fun _ => uses_pure _) fun _ => ?_
    exact uses_addAddress (noWrap_field _ _) (ih _)

theorem dispatchCoordinateRequest_tame (request : Request) :
    Uses Tame (dispatchCoordinateRequest request) := by
  have hlast : ∀ (address : ULongPtr) (f : MemoryReadResult 32 → Response)
      (g : MemoryReadResult 32 → Response),
      Uses Tame (do let r ← read 32 address; if r.succeeded then return f r else return g r) :=
    fun _ _ _ => uses_bind (uses_ask trivial) fun _ =>
      uses_ite (fun _ => uses_pure _) fun _ => uses_pure _
  unfold dispatchCoordinateRequest
  apply uses_ite (fun _ => uses_pure _)
  intro _
  apply uses_ite
  · intro _
    apply uses_bind (walkPointers_tame _ _)
    intro r
    cases r with
    | error status => exact uses_pure _
    | ok address => exact hlast _ _ _
  intro _
  apply uses_ite
  · intro _
    apply uses_bind (walkPointers_tame _ _)
    intro r
    cases r with
    | error status => exact uses_pure _
    | ok address => exact hlast _ _ _
  intro _
  apply uses_ite
  · exact fun _ => readCoordinateRequest_tame _ _
  · exact fun _ => readCoordinateRequest_tame _ _

theorem readResolved_tame (request : Request) : Uses Tame (readResolved request) := by
  apply uses_bind (uses_ask trivial)
  intro resolved
  exact uses_ite (fun _ => uses_pure _) fun _ => dispatchCoordinateRequest_tame _

end Coordinates

section Text

theorem readCharacter_tame (address : ULongPtr) (characterBytes : ULong)
    (s : ULong × TextResponse) : Uses Tame (readCharacter address characterBytes s) := by
  have hnext : ∀ (bits : Nat) (a : ULongPtr)
      (f g h : MemoryReadResult bits → (ULong × TextResponse) ⊕ TextResponse),
      Uses Tame (do
        let value ← read bits a
        if !value.succeeded then return f value
        if value.value = 0 then return g value
        return h value) :=
    fun _ _ _ _ _ => uses_bind (uses_ask trivial) fun _ => uses_ite (fun _ => uses_pure _)
      fun _ => uses_ite (fun _ => uses_pure _) fun _ => uses_pure _
  apply uses_ite (fun _ => uses_pure _)
  intro _
  apply uses_bind (uses_ask trivial)
  intro _
  apply uses_ite (fun _ => uses_pure _)
  intro hroom
  refine uses_addAddress ?_ (uses_ite (fun _ => hnext _ _ _ _ _) fun _ => hnext _ _ _ _ _)
  have hindex := s.1.isLt
  have hrest := (0xFFFFFFFF - s.1).isLt
  simp only [Tame, NoWrap, BitVec.toNat_setWidth]
  rw [gt_iff_lt, BitVec.not_lt, BitVec.le_def, BitVec.toNat_setWidth] at hroom
  omega

theorem readTextAtAddress_tame (address : ULongPtr) (characterBytes : ULong)
    (response : TextResponse) : Uses Tame (readTextAtAddress address characterBytes response) := by
  apply uses_ite (fun _ => uses_pure _)
  intro _
  apply uses_ite (fun _ => uses_pure _)
  intro _
  exact uses_bind (uses_loop (readCharacter_tame _ _) _ _) fun _ => uses_pure _

theorem readPointedText_tame (slot : ULongPtr) (characterBytes : ULong)
    (response : TextResponse) : Uses Tame (readPointedText slot characterBytes response) := by
  apply uses_ite (fun _ => uses_pure _)
  intro _
  apply uses_bind (uses_ask trivial)
  intro pointer
  exact uses_ite (fun _ => uses_pure _) fun _ => readTextAtAddress_tame _ _ _

theorem readOtherCharacterText_tame (root : ULongPtr) (characterBytes : ULong)
    (response : TextResponse) :
    Uses Tame (readOtherCharacterText root characterBytes response) := by
  apply uses_ite (fun _ => uses_pure _)
  intro _
  apply uses_bind (walkPointers_tame _ _)
  intro r
  cases r with
  | error status => exact uses_pure _
  | ok address => exact readTextAtAddress_tame _ _ _

theorem readResolvedText_tame (request : TextRequest) : Uses Tame (readResolvedText request) := by
  apply uses_bind (uses_ask trivial)
  intro slot
  refine uses_ite (fun _ => uses_pure _) fun _ => uses_ite (fun _ => ?_) fun _ => ?_
  · exact readOtherCharacterText_tame _ _ _
  · exact readPointedText_tame _ _ _

end Text

section Selection

theorem uses_fieldAddress {pointer : ULong} {offset : ULongPtr} {f : ULongPtr → Memory α}
    (hfield : allowed (.note (.field (pointer.setWidth 64) offset)))
    (hsum : NoWrap (.sum (pointer.setWidth 64) offset) →
      allowed (.note (.sum (pointer.setWidth 64) offset)))
    (hoffset : offset.toNat < 2 ^ 32) (hf : ∀ a, Uses allowed (f a)) :
    Uses allowed (fieldAddress pointer offset >>= f) := by
  refine ⟨hfield, fun _ => ⟨hsum ?_, fun _ => hf _⟩⟩
  have hpointer := pointer.isLt
  simp only [NoWrap, BitVec.toNat_setWidth]
  omega

theorem readField_searching {pointer : ULong} {offset : ULongPtr} (hslot : offset ≠ 0x28)
    (hoffset : offset.toNat < 2 ^ 32) : Uses Searching (readField pointer offset) :=
  uses_fieldAddress hslot id hoffset fun _ => uses_ask trivial

theorem searchStep_searching (targetId header node : ULong) :
    Uses Searching (searchStep targetId header node) := by
  apply uses_ite (fun _ => uses_pure _)
  intro _
  apply uses_bind (readField_searching (by decide) (by decide))
  intro key
  apply uses_ite (fun _ => uses_pure _)
  intro _
  apply uses_ite
  · intro _
    apply uses_bind (readField_searching (by decide) (by decide))
    intro actor
    refine uses_ite (fun _ => uses_pure _) fun _ => uses_ite (fun _ => uses_pure _) fun _ => ?_
    apply uses_bind (readField_searching (by decide) (by decide))
    intro id
    exact uses_bind (readField_searching (by decide) (by decide)) fun _ => uses_pure _
  · intro _
    apply uses_bind (readField_searching (by split <;> decide) (by split <;> decide))
    intro child
    refine uses_ite (fun _ => uses_pure _) fun _ => uses_ite (fun _ => uses_pure _) fun _ => ?_
    apply uses_bind (readField_searching (by decide) (by decide))
    intro parent
    exact uses_ite (fun _ => uses_pure _) fun _ => uses_ite (fun _ => uses_pure _)
      fun _ => uses_pure _

theorem locate_searching (targetId : ULong) : Uses Searching (locate targetId) := by
  apply uses_bind (uses_ask trivial)
  intro controllerField
  apply uses_ite (fun _ => uses_pure _)
  intro _
  apply uses_bind (uses_ask trivial)
  intro treeField
  apply uses_ite (fun _ => uses_pure _)
  intro _
  apply uses_bind (uses_ask trivial)
  intro vtableAddress
  apply uses_ite (fun _ => uses_pure _)
  intro _
  refine uses_bind (uses_ask trivial) fun controller => uses_bind (uses_ask trivial) fun manager => ?_
  refine uses_ite (fun _ => uses_pure _) fun _ => uses_ite (fun _ => uses_pure _) fun _ => ?_
  apply uses_ite (fun _ => uses_pure _)
  intro _
  apply uses_bind (uses_ask trivial)
  intro vtable
  refine uses_ite (fun _ => uses_pure _) fun _ => uses_ite (fun _ => uses_pure _) fun _ => ?_
  apply uses_bind (readField_searching (by decide) (by decide))
  intro header
  refine uses_ite (fun _ => uses_pure _) fun _ => uses_ite (fun _ => uses_pure _) fun _ => ?_
  apply uses_bind (readField_searching (by decide) (by decide))
  intro root
  apply uses_ite (fun _ => uses_pure _)
  intro _
  apply uses_bind (uses_loop (searchStep_searching _ _) _ _)
  rintro (_ | _ | _ | _) <;> exact uses_pure _

theorem select_bounded (targetId : ULong) : Uses Bounded (select targetId) := by
  apply uses_bind (uses_mono bounded_of_searching (locate_searching targetId))
  intro r
  cases r with
  | error status => exact uses_pure _
  | ok controller =>
    refine uses_fieldAddress trivial id (by decide) fun slot =>
      uses_bind (uses_ask trivial) fun written => ?_
    apply uses_ite (fun _ => uses_pure _)
    intro _
    apply uses_bind (uses_ask trivial)
    intro selected
    exact uses_ite (fun _ => uses_pure _) fun _ => uses_pure _

end Selection

end DarkEden.Walkers
