import DarkEden.SearchStep
import DarkEden.Target

namespace DarkEden.Selection

open Interaction Memory SelectTarget Protocol ReaderRules KernelProcessMemoryReader

abbrev Facts := ULongPtr → ULong → Prop

/-- Nodes reached from the root through child links whose parent field was read back. -/
inductive Linked (fetched : Facts) (root : ULong) : ULong → Prop
  | root : Linked fetched root root
  | child {node child : ULong} {link : ULongPtr} (hnode : Linked fetched root node)
      (hlink : link = 0 ∨ link = 8) (hchild : fetched (node.setWidth 64 + link) child)
      (hparent : fetched (child.setWidth 64 + 4) node) : Linked fetched root child

/-- A node of the tree that names the target, with an actor that confirms it. -/
def Found (fetched : Facts) (root targetId : ULong) : Prop :=
  ∃ node actor xy : ULong, Linked fetched root node ∧
    fetched (node.setWidth 64 + 0x10) targetId ∧
    fetched (node.setWidth 64 + 0x14) actor ∧ actor ≠ 0 ∧
    fetched (actor.setWidth 64 + 8) targetId ∧ fetched (actor.setWidth 64 + 0x0C) xy ∧
    xy &&& 0xFFFF < 5000 ∧ xy >>> 16 < 5000

/-- Everything that was read before the slot of `controller` may be written. -/
structure Justified (fetched : Facts) (imageBase : ULongPtr) (targetId controller : ULong) :
    Prop where
  held : fetched (imageBase + targetControllerOffset) controller
  nonzero : controller ≠ 0
  typed : ∃ vtable : ULong, fetched (controller.setWidth 64) vtable ∧
    vtable.setWidth 64 = imageBase + targetControllerVtableOffset
  listed : ∃ manager header root : ULong, fetched (imageBase + otherCharacterNameOffset) manager ∧
    fetched (manager.setWidth 64 + 0x34) header ∧ fetched (header.setWidth 64 + 4) root ∧
    Found fetched root targetId

section Mono

variable {fetched fetched' : Facts} (hmono : ∀ a v, fetched a v → fetched' a v)

include hmono

theorem Linked.mono {root node : ULong} (h : Linked fetched root node) :
    Linked fetched' root node := by
  induction h with
  | root => exact .root
  | child _ hlink hchild hparent ih =>
    exact .child ih hlink (hmono _ _ hchild) (hmono _ _ hparent)

theorem Found.mono {root targetId : ULong} (h : Found fetched root targetId) :
    Found fetched' root targetId := by
  obtain ⟨node, actor, xy, h₁, h₂, h₃, h₄, h₅, h₆, h₇⟩ := h
  exact ⟨node, actor, xy, h₁.mono hmono, hmono _ _ h₂, hmono _ _ h₃, h₄, hmono _ _ h₅,
    hmono _ _ h₆, h₇⟩

theorem Justified.mono {imageBase : ULongPtr} {targetId controller : ULong}
    (h : Justified fetched imageBase targetId controller) :
    Justified fetched' imageBase targetId controller := by
  obtain ⟨vtable, hvtable, hmatches⟩ := h.typed
  obtain ⟨manager, header, root, h₁, h₂, h₃, h₄⟩ := h.listed
  exact ⟨hmono _ _ h.held, h.nonzero, ⟨vtable, hmono _ _ hvtable, hmatches⟩,
    ⟨manager, header, root, hmono _ _ h₁, hmono _ _ h₂, hmono _ _ h₃, h₄.mono hmono⟩⟩

end Mono

section Reader

def Fetched (l : ReaderLog) : Facts := fun a v =>
  ∃ r : MemoryReadResult 32, ⟨.read 32 a, r⟩ ∈ l ∧ r.succeeded ∧ r.value = v

def writesSlot : ReaderOp → Prop
  | .writeUInt32 _ _ => True
  | _ => False

def Clean (l : ReaderLog) : Prop := ∀ e ∈ l, ¬writesSlot e.1

variable {imageBase : ULongPtr} {targetId : ULong}

/-- Resolved addresses lie behind the image base; a write needs its justification. -/
def duties (imageBase : ULongPtr) (targetId : ULong) : Contract ReaderAns where
  rely
    | _, .resolveImageOffset offset, r => ntSuccess r.status → r.address = imageBase + offset
    | _, _, _ => True
  guar
    | l, .writeUInt32 a v => Clean l ∧ v = targetId ∧ ∃ controller,
        a = controller.setWidth 64 + 0x28 ∧ Justified (Fetched l) imageBase targetId controller
    | _, _ => True

theorem Fetched.mono {l l' : ReaderLog} (h : l <+: l') (a : ULongPtr) (v : ULong)
    (hf : Fetched l a v) : Fetched l' a v := by
  obtain ⟨r, hr, hs⟩ := hf
  exact ⟨r, h.mem hr, hs⟩

theorem Clean.append {l : ReaderLog} (h : Clean l) {o : ReaderOp} (ho : ¬writesSlot o)
    (x : ReaderAns o) : Clean (l ++ [⟨o, x⟩]) := by
  intro e he
  rcases List.mem_append.mp he with he | he
  · exact h e he
  · rw [List.mem_singleton.mp he]
    exact ho

theorem wp_read {a : ULongPtr} {l : ReaderLog} {Q : MemoryReadResult 32 → ReaderLog → Prop}
    (hl : Clean l) (h : ∀ r l', Clean l' → l <+: l' → (r.succeeded → Fetched l' a r.value) →
      Q r l') : wp (duties imageBase targetId) (read 32 a) l Q := by
  refine ⟨trivial, fun r _ => h r _ (hl.append id r) (List.prefix_append _ _) fun hr => ?_⟩
  exact ⟨r, by simp, hr, rfl⟩

theorem wp_fieldAddress {pointer : ULong} {offset : ULongPtr} {l : ReaderLog}
    {Q : ULongPtr → ReaderLog → Prop} (hl : Clean l)
    (h : ∀ l', Clean l' → l <+: l' → Q (pointer.setWidth 64 + offset) l') :
    wp (duties imageBase targetId) (fieldAddress pointer offset) l Q := by
  refine ⟨trivial, fun _ _ => ⟨trivial, fun _ _ => h _ ((hl.append id _).append id _) ?_⟩⟩
  exact (List.prefix_append _ _).trans (List.prefix_append _ _)

/-- What the read of a field adds to a log without writes. -/
def Gains (l : ReaderLog) (pointer : ULong) (offset : ULongPtr) (r : MemoryReadResult 32)
    (l' : ReaderLog) : Prop :=
  Clean l → Clean l' ∧ l <+: l' ∧ (r.succeeded → Fetched l' (pointer.setWidth 64 + offset) r.value)

theorem wp_gains (l : ReaderLog) (pointer : ULong) (offset : ULongPtr) :
    wp (duties imageBase targetId) (readField pointer offset) l (Gains l pointer offset) := by
  refine ⟨trivial, fun _ _ => ⟨trivial, fun _ _ => ⟨trivial, fun r _ hl => ⟨?_, ?_, fun hr => ?_⟩⟩⟩⟩
  · exact ((hl.append id _).append id _).append id r
  · exact (List.prefix_append _ _).trans ((List.prefix_append _ _).trans (List.prefix_append _ _))
  · exact ⟨r, by simp, hr, rfl⟩

theorem wp_readField {pointer : ULong} {offset : ULongPtr} {l : ReaderLog}
    {Q : MemoryReadResult 32 → ReaderLog → Prop} (hl : Clean l)
    (h : ∀ r l', Clean l' → l <+: l' →
      (r.succeeded → Fetched l' (pointer.setWidth 64 + offset) r.value) → Q r l') :
    wp (duties imageBase targetId) (readField pointer offset) l Q := by
  refine wp_mono (wp_gains l pointer offset) fun r l' hr => ?_
  obtain ⟨hl', hpre, hfetched⟩ := hr hl
  exact h r l' hl' hpre hfetched

/-- What the search has established when a step ends. -/
def Progress (root targetId : ULong) (l : ReaderLog) : ULong ⊕ Except NtStatus Bool → Prop
  | .inl node => Linked (Fetched l) root node
  | .inr (.ok true) => Found (Fetched l) root targetId
  | _ => True

theorem confirms_found {root node : ULong} {l₀ l l' : ReaderLog} {r : Except NtStatus Bool}
    (hl : Clean l) (hpre : l₀ <+: l) (hnode : Linked (Fetched l) root node)
    (hkey : Fetched l (node.setWidth 64 + 0x10) targetId)
    (h : SearchStep.Confirms Gains targetId node l r l') :
    Clean l' ∧ l₀ <+: l' ∧ Progress root targetId l' (.inr r) := by
  cases h with
  | unread hactor =>
    obtain ⟨hl₁, hpre₁, -⟩ := hactor hl
    exact ⟨hl₁, hpre.trans hpre₁, trivial⟩
  | null hactor =>
    obtain ⟨hl₁, hpre₁, -⟩ := hactor hl
    exact ⟨hl₁, hpre.trans hpre₁, trivial⟩
  | @compared actor id xy _ _ _ hactor hs hne hid hxy =>
    obtain ⟨hl₁, hpre₁, hactor⟩ := hactor hl
    obtain ⟨hl₂, hpre₂, hid⟩ := hid hl₁
    obtain ⟨hl₃, hpre₃, hxy⟩ := hxy hl₂
    have hwhole := hpre₁.trans (hpre₂.trans hpre₃)
    refine ⟨hl₃, hpre.trans hwhole, ?_⟩
    cases hfound : actorMatches targetId id xy with
    | false => trivial
    | true =>
      simp only [actorMatches, Bool.and_eq_true, decide_eq_true_eq, beq_iff_eq] at hfound
      obtain ⟨⟨⟨⟨hs₂, hs₃⟩, hval⟩, hx⟩, hy⟩ := hfound
      have hid' := Fetched.mono hpre₃ _ _ (hid hs₂)
      rw [hval] at hid'
      exact ⟨node, actor.value, xy.value, hnode.mono (Fetched.mono hwhole),
        Fetched.mono hwhole _ _ hkey,
        Fetched.mono (hpre₂.trans hpre₃) _ _ (hactor (by simpa using hs)), hne, hid', hxy hs₃, hx, hy⟩

theorem descends_linked {header root node : ULong} {link : ULongPtr} {l₀ l l' : ReaderLog}
    {r : ULong ⊕ Except NtStatus Bool} (hl : Clean l) (hpre : l₀ <+: l)
    (hnode : Linked (Fetched l) root node) (hlink : link = 0 ∨ link = 8)
    (h : SearchStep.Descends Gains header node link l r l') :
    Clean l' ∧ l₀ <+: l' ∧ Progress root targetId l' r := by
  cases h with
  | unread hchild =>
    obtain ⟨hl₁, hpre₁, -⟩ := hchild hl
    exact ⟨hl₁, hpre.trans hpre₁, trivial⟩
  | leaf hchild =>
    obtain ⟨hl₁, hpre₁, -⟩ := hchild hl
    exact ⟨hl₁, hpre.trans hpre₁, trivial⟩
  | inner hchild hs _ h =>
    obtain ⟨hl₁, hpre₁, hchild⟩ := hchild hl
    cases h with
    | unread hparent =>
      obtain ⟨hl₂, hpre₂, -⟩ := hparent hl₁
      exact ⟨hl₂, hpre.trans (hpre₁.trans hpre₂), trivial⟩
    | strange hparent =>
      obtain ⟨hl₂, hpre₂, -⟩ := hparent hl₁
      exact ⟨hl₂, hpre.trans (hpre₁.trans hpre₂), trivial⟩
    | back hparent hs₂ hback =>
      obtain ⟨hl₂, hpre₂, hparent⟩ := hparent hl₁
      have hparent := hparent (by simpa using hs₂)
      rw [hback] at hparent
      exact ⟨hl₂, hpre.trans (hpre₁.trans hpre₂),
        .child (hnode.mono (Fetched.mono (hpre₁.trans hpre₂))) hlink
          (Fetched.mono hpre₂ _ _ (hchild (by simpa using hs))) hparent⟩

theorem wp_searchStep {header root node : ULong} {l : ReaderLog} (hl : Clean l)
    (hnode : Linked (Fetched l) root node) :
    wp (duties imageBase targetId) (searchStep targetId header node) l fun r l' =>
      Clean l' ∧ l <+: l' ∧ Progress root targetId l' r := by
  refine wp_mono (SearchStep.wp_searchStep (R := Gains) wp_gains l) fun r l' h => ?_
  cases h with
  | leaf => exact ⟨hl, List.prefix_rfl, trivial⟩
  | unread _ hkey =>
    obtain ⟨hl₁, hpre₁, -⟩ := hkey hl
    exact ⟨hl₁, hpre₁, trivial⟩
  | found _ hkey hs hfound h =>
    obtain ⟨hl₁, hpre₁, hkey⟩ := hkey hl
    exact confirms_found hl₁ hpre₁ (hnode.mono (Fetched.mono hpre₁))
      (hfound ▸ hkey (by simpa using hs)) h
  | @down key _ _ _ _ hkey _ _ h =>
    obtain ⟨hl₁, hpre₁, -⟩ := hkey hl
    have hlink : (if targetId < key.value then (0 : ULongPtr) else 8) = 0 ∨
        (if targetId < key.value then (0 : ULongPtr) else 8) = 8 := by
      by_cases hlt : targetId < key.value
      · exact .inl (if_pos hlt)
      · exact .inr (if_neg hlt)
    exact descends_linked hl₁ hpre₁ (hnode.mono (Fetched.mono hpre₁)) hlink h

theorem wp_resolve {offset : ULongPtr} {l : ReaderLog} {Q : Resolved → ReaderLog → Prop}
    (hl : Clean l) (h : ∀ r l', Clean l' → l <+: l' →
      (ntSuccess r.status → r.address = imageBase + offset) → Q r l') :
    wp (duties imageBase targetId) (resolveImageOffset offset) l Q :=
  ⟨trivial, fun r hr => h r _ (hl.append id r) (List.prefix_append _ _) hr⟩

theorem wp_locate {l : ReaderLog} (hl : Clean l) :
    wp (duties imageBase targetId) (locate targetId) l fun r l' =>
      Clean l' ∧ ∀ controller ∈ r.toOption, Justified (Fetched l') imageBase targetId controller := by
  have hstop : ∀ {status : NtStatus} {l' : ReaderLog}, Clean l' → Clean l' ∧
      ∀ controller ∈ (Except.error status : Except NtStatus ULong).toOption,
        Justified (Fetched l') imageBase targetId controller :=
    fun hl' => ⟨hl', fun _ hc => by cases hc⟩
  unfold locate
  rw [wp_bind]
  apply wp_resolve hl
  intro controllerField l₁ hl₁ hpre₁ hcontrollerField
  rw [wp_ite]
  refine ⟨fun _ => hstop hl₁, fun hs₁ => ?_⟩
  rw [wp_bind]
  apply wp_resolve hl₁
  intro treeField l₂ hl₂ hpre₂ htreeField
  rw [wp_ite]
  refine ⟨fun _ => hstop hl₂, fun hs₂ => ?_⟩
  rw [wp_bind]
  apply wp_resolve hl₂
  intro vtableAddress l₃ hl₃ hpre₃ hvtableAddress
  rw [wp_ite]
  refine ⟨fun _ => hstop hl₃, fun hs₃ => ?_⟩
  rw [hcontrollerField (by simpa using hs₁), htreeField (by simpa using hs₂),
    hvtableAddress (by simpa using hs₃), wp_bind]
  apply wp_read hl₃
  intro controller l₄ hl₄ hpre₄ hcontroller
  rw [wp_bind]
  apply wp_read hl₄
  intro manager l₅ hl₅ hpre₅ hmanager
  rw [wp_ite]
  refine ⟨fun _ => hstop hl₅, fun hs₄ => ?_⟩
  rw [wp_ite]
  refine ⟨fun _ => hstop hl₅, fun hs₅ => ?_⟩
  rw [wp_ite]
  refine ⟨fun _ => hstop hl₅, fun hzero => ?_⟩
  rw [wp_bind]
  apply wp_read hl₅
  intro vtable l₆ hl₆ hpre₆ hvtable
  rw [wp_ite]
  refine ⟨fun _ => hstop hl₆, fun hs₆ => ?_⟩
  rw [wp_ite]
  refine ⟨fun _ => hstop hl₆, fun hmatches => ?_⟩
  rw [wp_bind]
  apply wp_readField hl₆
  intro header l₇ hl₇ hpre₇ hheader
  rw [wp_ite]
  refine ⟨fun _ => hstop hl₇, fun hs₇ => ?_⟩
  rw [wp_ite]
  refine ⟨fun _ => hstop hl₇, fun _ => ?_⟩
  rw [wp_bind]
  apply wp_readField hl₇
  intro root l₈ hl₈ hpre₈ hroot
  rw [wp_ite]
  refine ⟨fun _ => hstop hl₈, fun hs₈ => ?_⟩
  rw [wp_bind]
  refine wp_loop (fun _ node l' => Clean l' ∧ l₈ <+: l' ∧ Linked (Fetched l') root.value node)
    (fun _ node l' hI => ?_) (fun _ l' hI => hstop hI.1) 64 root.value l₈
    ⟨hl₈, List.prefix_rfl, .root⟩
  refine wp_mono (wp_searchStep hI.1 hI.2.2) fun r l₉ ⟨hl₉, hpre₉, hr⟩ => ?_
  match r with
  | .inl child => exact ⟨hl₉, hI.2.1.trans hpre₉, hr⟩
  | .inr (.error status) => exact hstop hl₉
  | .inr (.ok false) => exact hstop hl₉
  | .inr (.ok true) =>
    refine ⟨hl₉, fun found hfound => ?_⟩
    obtain rfl : controller.value = found := Option.some.inj hfound
    have hpre := hI.2.1.trans hpre₉
    rw [not_or] at hzero
    refine ⟨?_, hzero.1, ⟨vtable.value, ?_, not_not.mp hmatches⟩,
      ⟨manager.value, header.value, root.value, ?_, ?_, ?_, hr⟩⟩
    · exact Fetched.mono (hpre₅.trans (hpre₆.trans (hpre₇.trans (hpre₈.trans hpre)))) _ _
        (hcontroller (by simpa using hs₄))
    · exact Fetched.mono (hpre₇.trans (hpre₈.trans hpre)) _ _ (hvtable (by simpa using hs₆))
    · exact Fetched.mono (hpre₆.trans (hpre₇.trans (hpre₈.trans hpre))) _ _
        (hmanager (by simpa using hs₅))
    · exact Fetched.mono (hpre₈.trans hpre) _ _ (hheader (by simpa using hs₇))
    · exact Fetched.mono hpre _ _ (hroot (by simpa using hs₈))

theorem wp_commit {controller : ULong} {response : SelectTargetResponse} {l : ReaderLog}
    (hl : Clean l) (h : Justified (Fetched l) imageBase targetId controller) :
    wp (duties imageBase targetId) (commit targetId controller response) l fun _ _ => True := by
  unfold commit
  rw [wp_bind]
  apply wp_fieldAddress hl
  intro l₁ hl₁ hpre₁
  have hguar : (duties imageBase targetId).guar l₁ (.writeUInt32 (controller.setWidth 64 + 0x28)
      targetId) := ⟨hl₁, rfl, controller, rfl, h.mono (Fetched.mono hpre₁)⟩
  refine wp_ask_bind.mpr ⟨hguar, fun written _ => ?_⟩
  rw [wp_ite]
  refine ⟨fun _ => trivial, fun _ => wp_ask_bind.mpr ⟨trivial, fun selected _ => ?_⟩⟩
  rw [wp_ite]
  exact ⟨fun _ => trivial, fun _ => trivial⟩

end Reader

section System

variable {sys : Platform} {targetId : ULong}

/-- The dwords that complete copies of the driver have delivered. -/
def Delivered (l : WinLog) : Facts := fun a v =>
  ∃ x : CopyOutcome, ⟨.mmCopyMemory a 4, x⟩ ∈ l ∧ ntSuccess x.completion.status ∧ x.copied = 4 ∧
    valueOfBytes 32 (x.scratch.take 4) = v

def Untouched (l : WinLog) : Prop := ∀ e ∈ l, e.1.writes = false

/-- The only write allowed: the first one, into the slot of a justified controller. -/
def WriteAllowed (sys : Platform) (targetId : ULong) (l : WinLog) : WinOp → Prop
  | .interlockedExchange a v => Untouched l ∧ v = targetId ∧ ∃ process controller,
      attached l = some process ∧ a = controller.setWidth 64 + 0x28 ∧
      Justified (Delivered l) (sys.psGetProcessSectionBaseAddress process) targetId controller
  | _ => True

def restraint (sys : Platform) (targetId : ULong) : Contract WinAns :=
  ⟨fun _ _ _ => True, WriteAllowed sys targetId⟩

/-- What the reader reports was read has been copied, and it writes only when told to. -/
structure Reflects (l₁ : ReaderLog) (l₂ : WinLog) : Prop where
  copied : ∀ a v, Fetched l₁ a v → Delivered l₂ a v
  untouched : Clean l₁ → Untouched l₂

theorem Delivered.mono {l l' : WinLog} (h : l <+: l') (a : ULongPtr) (v : ULong)
    (hc : Delivered l a v) : Delivered l' a v := by
  obtain ⟨x, hx, hs⟩ := hc
  exact ⟨x, h.mem hx, hs⟩

theorem Untouched.append {l : WinLog} (h : Untouched l) {o : WinOp} (ho : o.writes = false)
    (x : WinAns o) : Untouched (l ++ [⟨o, x⟩]) := by
  intro e he
  rcases List.mem_append.mp he with he | he
  · exact h e he
  · rw [List.mem_singleton.mp he]
    exact ho

theorem Reflects.append {l₁ : ReaderLog} {l₂ : WinLog} (h : Reflects l₁ l₂) {o : WinOp}
    (ho : o.writes = false) (x : WinAns o) : Reflects l₁ (l₂ ++ [⟨o, x⟩]) where
  copied a v hf := Delivered.mono (List.prefix_append _ _) a v (h.copied a v hf)
  untouched hl := (h.untouched hl).append ho x

theorem writes_of_plain {o : WinOp} (h : plain o) : o.writes = false := by
  cases o <;> first | rfl | cases h

theorem restraint_keeps {J : WinLog → Prop}
    (hJ : ∀ l (o : WinOp) x, J l → o.writes = false → J (l ++ [⟨o, x⟩])) :
    Keeps (restraint sys targetId) J where
  guar _ o _ ho := by cases o <;> trivial
  keep l o x h ho _ := hJ l o x h (writes_of_plain ho)

theorem restraint_freeNote {J : WinLog → Prop}
    (hJ : ∀ l (o : WinOp) x, J l → o.writes = false → J (l ++ [⟨o, x⟩])) (n : Note) :
    FreeNote (restraint sys targetId) J n :=
  fun l h => ⟨trivial, hJ l (.note n) () h rfl⟩

theorem fetched_of_append {l : ReaderLog} {o : ReaderOp} (hread : ∀ a, o ≠ .read 32 a)
    {x : ReaderAns o} {a : ULongPtr} {v : ULong} (h : Fetched (l ++ [⟨o, x⟩]) a v) :
    Fetched l a v := by
  obtain ⟨r, hr, hs⟩ := h
  rcases List.mem_append.mp hr with hr | hr
  · exact ⟨r, hr, hs⟩
  · exact absurd (congrArg Sigma.fst (List.mem_singleton.mp hr)).symm (hread a)

theorem Reflects.snoc {l₁ : ReaderLog} {l₂ : WinLog} (h : Reflects l₁ l₂) {o : ReaderOp}
    (x : ReaderAns o) (hread : ∀ a, o ≠ .read 32 a) : Reflects (l₁ ++ [⟨o, x⟩]) l₂ where
  copied a v hf := h.copied a v (fetched_of_append hread hf)
  untouched hl := h.untouched fun e he => hl e (List.mem_append_left _ he)

theorem delivered_of_read {a : ULongPtr} {x : CopyOutcome} {l : WinLog}
    (hx : ⟨.mmCopyMemory a 4, x⟩ ∈ l) (hs : (readResult 32 (copiedOf 4 x)).succeeded) :
    Delivered l a (readResult 32 (copiedOf 4 x)).value := by
  rcases copiedOf_cases 4 x with ⟨⟨hstatus, hcopied⟩, hr⟩ | ⟨-, hr⟩
  · exact ⟨x, hx, hstatus, hcopied, by rw [hr]; rfl⟩
  · rw [readResult_failed hr] at hs
    cases hs

section Methods

variable {reader : KernelProcessMemoryReader} {l₁ : ReaderLog} {l₂ : WinLog}

theorem reflects_keeps : Keeps (restraint sys targetId) (Reflects l₁) :=
  restraint_keeps fun _ _ x hl ho => hl.append ho x

theorem reflects_freeNote (n : Note) : FreeNote (restraint sys targetId) (Reflects l₁) n :=
  restraint_freeNote (fun _ _ x hl ho => hl.append ho x) n

theorem wp_read_reflects (bits : Nat) (a : ULongPtr) (h : Reflects l₁ l₂) :
    wp (restraint sys targetId) (read sys reader bits a) l₂ fun r l₂' =>
      Reflects (l₁ ++ [⟨.read bits a, r⟩]) l₂' := by
  rw [KernelProcessMemoryReader.read, wp_bind]
  refine wp_mono (wp_copyValue reflects_keeps (fun _ => reflects_freeNote _)
    (fun l hl _ _ => ⟨trivial, fun x _ => hl.append rfl x⟩) h) fun r l' hcopied => ?_
  obtain ⟨hl', hr⟩ := hcopied
  refine ⟨fun b v => ?_, fun hc => hl'.untouched fun e he => hc e (List.mem_append_left _ he)⟩
  rintro ⟨r', hr', hs, rfl⟩
  rcases List.mem_append.mp hr' with hr' | hr'
  · exact hl'.copied b _ ⟨r', hr', hs, rfl⟩
  · cases List.mem_singleton.mp hr'
    change (readResult 32 r).succeeded at hs
    rcases hr with ⟨rfl, -⟩ | ⟨-, ⟨rfl, -⟩ | ⟨x, l₃, rfl, -, -, -, hx⟩⟩
    · cases hs
    · cases hs
    · exact delivered_of_read (hx.mem (List.mem_append_right _ (List.mem_singleton_self _))) hs

theorem wp_writeUInt32_reflects {controller : ULong} (hclean : Clean l₁)
    (hjustified : Justified (Fetched l₁) (sys.psGetProcessSectionBaseAddress reader.process) targetId
      controller) (h : Reflects l₁ l₂) :
    wp (restraint sys targetId) (writeUInt32 sys reader (controller.setWidth 64 + 0x28) targetId) l₂
      fun r l₂' =>
        Reflects (l₁ ++ [⟨.writeUInt32 (controller.setWidth 64 + 0x28) targetId, r⟩]) l₂' := by
  have hexchange : ∀ l, Reflects l₁ l → attached l = some reader.process →
      WriteAllowed sys targetId l (.interlockedExchange (controller.setWidth 64 + 0x28) targetId) :=
    fun l hl hattached => ⟨hl.untouched hclean, rfl, reader.process, controller, hattached, rfl,
      hjustified.mono hl.copied⟩
  have hdelivered : ∀ l (o : WinOp) x, (∀ a w, Fetched l₁ a w → Delivered l a w) →
      ∀ a w, Fetched l₁ a w → Delivered (l ++ [⟨o, x⟩]) a w :=
    fun l o x hl a w hf => Delivered.mono (List.prefix_append _ _) a w (hl a w hf)
  have hslot : ∀ a, ReaderOp.writeUInt32 (controller.setWidth 64 + 0x28) targetId ≠ .read 32 a :=
    fun _ h => by cases h
  refine wp_mono (wp_writeUInt32 (K := fun _ l => ∀ a w, Fetched l₁ a w → Delivered l a w)
    reflects_keeps (fun _ => restraint_keeps fun l o x hl _ => hdelivered l o x hl)
    (reflects_freeNote _) (reflects_freeNote _)
    (fun l hl _ _ => ⟨trivial, fun x _ => hl.append rfl x⟩) (fun l hl hattached _ =>
      ⟨hexchange l hl hattached, fun x _ => hdelivered l _ x hl.copied⟩) h) fun r l' hr => ?_
  rcases hr with ⟨hl', -⟩ | ⟨-, x, l₃, hl', -⟩
  · exact hl'.snoc r hslot
  · refine ⟨fun a w hf => hl' a w (fetched_of_append hslot hf), fun hc => ?_⟩
    exact (hc _ (List.mem_append_right _ (List.mem_singleton.mpr rfl)) trivial).elim

end Methods

theorem perform_reflects {reader : KernelProcessMemoryReader} (l₁ : ReaderLog) (l₂ : WinLog)
    (o : ReaderOp) (h : Reflects l₁ l₂)
    (hguar : (duties (sys.psGetProcessSectionBaseAddress reader.process) targetId).guar l₁ o) :
    wp (restraint sys targetId) (perform sys reader o) l₂ fun x l₂' =>
      (duties (sys.psGetProcessSectionBaseAddress reader.process) targetId).rely l₁ o x ∧
        Reflects (l₁ ++ [⟨o, x⟩]) l₂' := by
  cases o with
  | note n =>
    refine ⟨trivial, fun x _ => ⟨trivial, ?_⟩⟩
    exact (h.append rfl x).snoc (o := .note n) x fun _ h => by cases h
  | resolveImageOffset offset =>
    refine wp_mono (wp_resolveImageOffset reflects_keeps rfl (fun _ => reflects_freeNote _)
      (fun _ => reflects_freeNote _) h) fun r l' hresolved => ?_
    obtain ⟨hl', hr⟩ := hresolved
    refine ⟨fun hs => ?_, hl'.snoc (o := .resolveImageOffset offset) r fun _ h => by cases h⟩
    rcases hr with ⟨rfl, -⟩ | ⟨-, ⟨rfl, -⟩ | ⟨rfl, -⟩⟩
    · cases hs
    · cases hs
    · rfl
  | read bits a => exact wp_mono (wp_read_reflects bits a h) fun r l' hr => ⟨trivial, hr⟩
  | writeUInt32 a v =>
    obtain ⟨hclean, rfl, controller, rfl, hjustified⟩ := hguar
    exact wp_mono (wp_writeUInt32_reflects hclean hjustified h) fun r l' hr => ⟨trivial, hr⟩

/-- `ExecuteSelectTargetRequest` up to its call of `WriteUInt32`: the reader it works with and
the controller it found, or the status it ends with. -/
def beforeWrite (sys : Platform) (request : SelectTargetRequest) :
    Windows (KernelProcessMemoryReader × Except NtStatus ULong) := do
  if !validSelectTargetRequest request then return (.empty, .error statusInvalidParameter)
  let (status, reader) ←
    KernelProcessMemoryReader.empty.initializeForRequest sys request.processId true
  let found ← useReader sys .error (locate request.targetId) status reader
  return (reader, found)

def afterFound (sys : Platform) (targetId : ULong) (reader : KernelProcessMemoryReader) :
    Except NtStatus ULong → Windows SelectTargetResponse
  | .error status => return SelectTarget.newResponse status
  | .ok controller =>
    (commit targetId controller (SelectTarget.newResponse statusSuccess)).translate
      (perform sys reader)

theorem useReader_select (status : NtStatus) (reader : KernelProcessMemoryReader) :
    useReader sys SelectTarget.newResponse (select targetId) status reader =
      useReader sys .error (locate targetId) status reader >>= afterFound sys targetId reader := by
  unfold useReader
  by_cases hs : ntSuccess status
  · rw [if_pos hs, if_pos hs, select, Program.translate_bind]
    congr 1
    funext found
    cases found <;> rfl
  · rw [if_neg hs, if_neg hs]
    rfl

theorem executeSelectTargetRequest_eq (request : SelectTargetRequest) :
    executeSelectTargetRequest sys request = do
      let (reader, found) ← beforeWrite sys request
      let response ← afterFound sys request.targetId reader found
      reader.destroy
      return response := by
  unfold executeSelectTargetRequest beforeWrite
  by_cases hvalid : validSelectTargetRequest request
  · rw [if_neg (by simpa using hvalid), if_neg (by simpa using hvalid)]
    simp only [withReader, useReader_select, bind_assoc, pure_bind]
  · rw [if_pos (by simpa using hvalid), if_pos (by simpa using hvalid)]
    rfl

theorem untouched_keeps : Keeps (restraint sys targetId) Untouched :=
  restraint_keeps fun _ _ x hl ho => hl.append ho x

theorem reflects_nil {l : WinLog} (h : Untouched l) : Reflects [] l where
  copied _ _ hf := by
    obtain ⟨r, hr, -⟩ := hf
    cases hr
  untouched _ := h

theorem wp_select_translate {reader : KernelProcessMemoryReader} {l : WinLog} (h : Untouched l) :
    wp (restraint sys targetId) ((select targetId).translate (perform sys reader)) l
      fun _ _ => True := by
  refine wp_mono (wp_translate (Q := fun _ _ => True) perform_reflects (reflects_nil h) ?_)
    fun _ _ _ => trivial
  rw [select, wp_bind]
  refine wp_mono (wp_locate nofun) fun r l' ⟨hl', hr⟩ => ?_
  cases r with
  | error status => trivial
  | ok controller => exact wp_commit hl' (hr controller rfl)

theorem wp_beforeWrite (request : SelectTargetRequest) :
    wp (restraint sys request.targetId) (beforeWrite sys request) [] fun _ l => Untouched l := by
  have hstart : Untouched [] := fun e he => by cases he
  have hclean : Clean [] := fun e he => by cases he
  rw [beforeWrite, wp_ite]
  refine ⟨fun _ => hstart, fun _ => ?_⟩
  rw [wp_bind]
  refine wp_mono (wp_initializeForRequest untouched_keeps hstart) fun r l hr => ?_
  obtain ⟨hl, -⟩ := hr
  rw [wp_bind, useReader, wp_ite]
  refine ⟨fun _ => ?_, fun _ => hl⟩
  refine wp_mono (wp_translate perform_reflects (reflects_nil hl) (wp_locate hclean))
    fun found l' hfound => ?_
  obtain ⟨l₁, hreflects, hclean, -⟩ := hfound
  exact hreflects.untouched hclean

/-- After a stop before its write, nothing is left to the request but to release the process. -/
theorem run_stopped {env : WinEnv} {request : SelectTargetRequest}
    {reader : KernelProcessMemoryReader} {status : NtStatus} {l : WinLog}
    (hrun : (beforeWrite sys request).run env [] = ((reader, .error status), l)) :
    (executeSelectTargetRequest sys request).run env [] =
      (SelectTarget.newResponse status, (reader.destroy.run env l).2) := by
  rw [executeSelectTargetRequest_eq, Program.run_bind, hrun]
  simp only [afterFound, pure_bind, Program.run_bind, Program.run_pure]

theorem stopped_of_beforeWrite {env : WinEnv} {request : SelectTargetRequest}
    {reader : KernelProcessMemoryReader} {status : NtStatus} {l : WinLog}
    (hrun : (beforeWrite sys request).run env [] = ((reader, .error status), l)) :
    ((executeSelectTargetRequest sys request).run env []).1 = SelectTarget.newResponse status ∧
      Untouched ((executeSelectTargetRequest sys request).run env []).2 := by
  have huntouched : Untouched l := by
    have h : Untouched ((beforeWrite sys request).run env []).2 :=
      run_of_wp (fun _ _ => trivial) (wp_beforeWrite request)
    rwa [hrun] at h
  have hdestroy : Untouched (reader.destroy.run env l).2 := by
    unfold destroy
    split
    · exact huntouched.append rfl _
    · exact huntouched
  rw [run_stopped hrun]
  exact ⟨rfl, hdestroy⟩

/-- Whatever the target answers, the driver writes at most once, and only after the run has
read everything that justifies the write; a run that stops before it has written nothing. -/
theorem executeSelectTargetRequest_writes (sys : Platform) (env : WinEnv)
    (request : SelectTargetRequest) :
    Throughout (WriteAllowed sys request.targetId)
        ((executeSelectTargetRequest sys request).run env []).2 ∧
      ∀ reader status l, (beforeWrite sys request).run env [] = ((reader, .error status), l) →
        ((executeSelectTargetRequest sys request).run env []).1 = SelectTarget.newResponse status ∧
          Untouched ((executeSelectTargetRequest sys request).run env []).2 := by
  constructor
  · refine throughout_of_wp (C := restraint sys request.targetId) (Q := fun _ _ => True)
      (fun _ _ => trivial) ?_
    unfold executeSelectTargetRequest
    rw [wp_ite]
    refine ⟨fun _ => trivial, fun _ => ?_⟩
    exact wp_withReader untouched_keeps (fun _ => restraint_keeps fun _ _ _ _ _ => trivial)
      (fun _ _ _ _ => trivial) (fun _ _ hl _ => wp_select_translate hl) nofun
  · intro reader status l hrun
    exact stopped_of_beforeWrite hrun

end System

end DarkEden.Selection
