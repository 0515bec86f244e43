import DarkEden.Requests

namespace DarkEden.SearchStep

open Interaction Memory SelectTarget

/-- What becomes of the read of a field: the log before it, the pointer and the offset, what was
read, and the log after it. -/
abbrev FieldRead := ReaderLog → ULong → ULongPtr → MemoryReadResult 32 → ReaderLog → Prop

variable {R : FieldRead} {targetId header node : ULong}

inductive Confirms (R : FieldRead) (targetId node : ULong) (l : ReaderLog) :
    Except NtStatus Bool → ReaderLog → Prop
  | unread {actor : MemoryReadResult 32} {l' : ReaderLog} (hactor : R l node 0x14 actor l')
      (hs : (!actor.succeeded) = true) : Confirms R targetId node l (.error actor.status) l'
  | null {actor : MemoryReadResult 32} {l' : ReaderLog} (hactor : R l node 0x14 actor l')
      (hs : ¬(!actor.succeeded) = true) (hzero : actor.value = 0) :
      Confirms R targetId node l (.ok false) l'
  | compared {actor id xy : MemoryReadResult 32} {l₁ l₂ l' : ReaderLog}
      (hactor : R l node 0x14 actor l₁) (hs : ¬(!actor.succeeded) = true) (hne : actor.value ≠ 0)
      (hid : R l₁ actor.value 8 id l₂) (hxy : R l₂ actor.value 0x0C xy l') :
      Confirms R targetId node l (.ok (actorMatches targetId id xy)) l'

inductive Returns (R : FieldRead) (node child : ULong) (l : ReaderLog) :
    ULong ⊕ Except NtStatus Bool → ReaderLog → Prop
  | unread {parent : MemoryReadResult 32} {l' : ReaderLog} (hparent : R l child 4 parent l')
      (hs : (!parent.succeeded) = true) : Returns R node child l (.inr (.error parent.status)) l'
  | strange {parent : MemoryReadResult 32} {l' : ReaderLog} (hparent : R l child 4 parent l')
      (hs : ¬(!parent.succeeded) = true) (hne : parent.value ≠ node) :
      Returns R node child l (.inr (.ok false)) l'
  | back {parent : MemoryReadResult 32} {l' : ReaderLog} (hparent : R l child 4 parent l')
      (hs : ¬(!parent.succeeded) = true) (hback : parent.value = node) :
      Returns R node child l (.inl child) l'

inductive Descends (R : FieldRead) (header node : ULong) (link : ULongPtr) (l : ReaderLog) :
    ULong ⊕ Except NtStatus Bool → ReaderLog → Prop
  | unread {child : MemoryReadResult 32} {l' : ReaderLog} (hchild : R l node link child l')
      (hs : (!child.succeeded) = true) : Descends R header node link l (.inr (.error child.status)) l'
  | leaf {child : MemoryReadResult 32} {l' : ReaderLog} (hchild : R l node link child l')
      (hs : ¬(!child.succeeded) = true) (hleaf : child.value = 0 ∨ child.value = header) :
      Descends R header node link l (.inr (.ok false)) l'
  | inner {child : MemoryReadResult 32} {l₁ l' : ReaderLog} {r : ULong ⊕ Except NtStatus Bool}
      (hchild : R l node link child l₁) (hs : ¬(!child.succeeded) = true)
      (hleaf : ¬(child.value = 0 ∨ child.value = header)) (h : Returns R node child.value l₁ r l') :
      Descends R header node link l r l'

/-- What one pass of the search comes to. -/
inductive Passes (R : FieldRead) (targetId header node : ULong) (l : ReaderLog) :
    ULong ⊕ Except NtStatus Bool → ReaderLog → Prop
  | leaf (hleaf : node = 0 ∨ node = header) : Passes R targetId header node l (.inr (.ok false)) l
  | unread {key : MemoryReadResult 32} {l' : ReaderLog} (hleaf : ¬(node = 0 ∨ node = header))
      (hkey : R l node 0x10 key l') (hs : (!key.succeeded) = true) :
      Passes R targetId header node l (.inr (.error key.status)) l'
  | found {key : MemoryReadResult 32} {l₁ l' : ReaderLog} {r : Except NtStatus Bool}
      (hleaf : ¬(node = 0 ∨ node = header)) (hkey : R l node 0x10 key l₁)
      (hs : ¬(!key.succeeded) = true) (hfound : key.value = targetId)
      (h : Confirms R targetId node l₁ r l') : Passes R targetId header node l (.inr r) l'
  | down {key : MemoryReadResult 32} {l₁ l' : ReaderLog} {r : ULong ⊕ Except NtStatus Bool}
      (hleaf : ¬(node = 0 ∨ node = header)) (hkey : R l node 0x10 key l₁)
      (hs : ¬(!key.succeeded) = true) (hfound : ¬key.value = targetId)
      (h : Descends R header node (if targetId < key.value then 0 else 8) l₁ r l') :
      Passes R targetId header node l r l'

variable {C : Contract ReaderAns}

theorem wp_searchStep (hread : ∀ l pointer offset,
      wp C (readField pointer offset) l (R l pointer offset)) (l : ReaderLog) :
    wp C (searchStep targetId header node) l (Passes R targetId header node l) := by
  rw [searchStep, wp_ite]
  refine ⟨.leaf, fun hleaf => ?_⟩
  rw [wp_bind]
  refine wp_mono (hread l node 0x10) fun key l₁ hkey => ?_
  rw [wp_ite]
  refine ⟨.unread hleaf hkey, fun hs => ?_⟩
  rw [wp_ite]
  refine ⟨fun hfound => ?_, fun hfound => ?_⟩
  · rw [wp_bind]
    refine wp_mono (hread l₁ node 0x14) fun actor l₂ hactor => ?_
    rw [wp_ite]
    refine ⟨fun hs₂ => .found hleaf hkey hs hfound (.unread hactor hs₂), fun hs₂ => ?_⟩
    rw [wp_ite]
    refine ⟨fun hzero => .found hleaf hkey hs hfound (.null hactor hs₂ hzero), fun hne => ?_⟩
    rw [wp_bind]
    refine wp_mono (hread l₂ actor.value 8) fun id l₃ hid => ?_
    rw [wp_bind]
    refine wp_mono (hread l₃ actor.value 0x0C) fun xy l₄ hxy => ?_
    exact .found hleaf hkey hs hfound (.compared hactor hs₂ hne hid hxy)
  · rw [wp_bind]
    refine wp_mono (hread l₁ node (if targetId < key.value then 0 else 8)) fun child l₂ hchild => ?_
    rw [wp_ite]
    refine ⟨fun hs₂ => .down hleaf hkey hs hfound (.unread hchild hs₂), fun hs₂ => ?_⟩
    rw [wp_ite]
    refine ⟨fun hinner => .down hleaf hkey hs hfound (.leaf hchild hs₂ hinner), fun hinner => ?_⟩
    rw [wp_bind]
    refine wp_mono (hread l₂ child.value 4) fun parent l₃ hparent => ?_
    have hdown : ∀ {r l'}, Returns R node child.value l₂ r l' →
        Passes R targetId header node l r l' :=
      fun h => .down hleaf hkey hs hfound (.inner hchild hs₂ hinner h)
    rw [wp_ite]
    refine ⟨fun hs₃ => hdown (.unread hparent hs₃), fun hs₃ => ?_⟩
    rw [wp_ite]
    exact ⟨fun hne => hdown (.strange hparent hs₃ hne),
      fun heq => hdown (.back hparent hs₃ (not_not.mp heq))⟩

end DarkEden.SearchStep
