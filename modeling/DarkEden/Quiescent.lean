import DarkEden.ResponseFormat

namespace DarkEden.Target

open Interaction ByteMemory Memory SelectTarget Protocol ReaderRules

variable {sys : Platform} (T : Target sys) (reader : KernelProcessMemoryReader)

/-- A reader of a memory that stays as it is: nothing may be written. -/
def quiet : Contract ReaderAns where
  rely _ o x := T.Answers reader [] o x
  guar
    | _, .writeUInt32 _ _ => False
    | _, _ => True

/-- The dword at a field of the object that a pointer refers to. -/
def field (pointer : ULong) (offset : ULongPtr) : Option ULong :=
  T.dword (pointer.setWidth 64 + offset)

def actorMatches (targetId actor : ULong) : Bool :=
  match T.field actor 8, T.field actor 0x0C with
  | some id, some xy => id == targetId && (xy &&& 0xFFFF) < 5000 && (xy >>> 16) < 5000
  | _, _ => false

/-- Whether the keyed descent finds the target within `n` nodes from `node` on. -/
def search (targetId header : ULong) : Nat → ULong → Bool
  | 0, _ => false
  | n + 1, node =>
    if node = 0 ∨ node = header then false
    else match T.field node 0x10 with
      | none => false
      | some key =>
        if key = targetId then
          match T.field node 0x14 with
          | none => false
          | some actor => actor ≠ 0 && T.actorMatches targetId actor
        else match T.field node (if targetId < key then 0 else 8) with
          | none => false
          | some child =>
            if child = 0 ∨ child = header then false
            else T.field child 4 == some node && search targetId header n child

/-- The controller of a selection that reaches its write, with the image at `base`. -/
def controllerOf (base : ULongPtr) (targetId : ULong) : Option ULong := do
  guard (ImageRange sys base targetControllerOffset)
  guard (ImageRange sys base otherCharacterNameOffset)
  guard (ImageRange sys base targetControllerVtableOffset)
  let controller ← T.dword (base + targetControllerOffset)
  let manager ← T.dword (base + otherCharacterNameOffset)
  guard ¬(controller = 0 ∨ manager = 0)
  let vtable ← T.dword (controller.setWidth 64)
  guard ¬(vtable.setWidth 64 ≠ base + targetControllerVtableOffset)
  let header ← T.field manager 0x34
  guard ¬header = 0
  let root ← T.field header 4
  guard (T.search targetId header 64 root)
  return controller

variable {T reader}

theorem wp_of_quiet {α : Type} {p : Memory α} {l : ReaderLog} {Q : α → ReaderLog → Prop}
    (h : wp (T.quiet reader) p l Q) (hl : T.written l = T.byte) :
    wp (T.readerOf reader) p l fun a l' => Q a l' ∧ T.written l' = T.byte := by
  induction p generalizing l with
  | done a => exact ⟨h, hl⟩
  | call o next ih =>
    refine ⟨trivial, fun x hx => ?_⟩
    cases o with
    | writeUInt32 address value => exact h.1.elim
    | read bits address =>
      refine ih x (h.2 x ?_) (by rw [written_append, hl])
      change T.Answers reader l (.read bits address) x at hx
      rwa [Answers, hl] at hx
    | resolveImageOffset offset => exact ih x (h.2 x hx) (by rw [written_append, hl])
    | note n => exact ih x (h.2 x hx) (by rw [written_append, hl])

theorem wp_performed_quiet {α : Type} {body : Memory α} {P : α → Prop}
    (h : wp (T.quiet reader) body [] fun a _ => P a) {l : WinLog} (hl : T.after l = T.byte) :
    wp T.system (body.translate (reader.perform sys)) l fun a l' => P a ∧ T.after l' = T.byte :=
  wp_mono (wp_performed (wp_of_quiet h rfl) hl) fun _ _ ⟨_, hafter, ha, hwritten⟩ =>
    ⟨ha, hafter.trans hwritten⟩

theorem answers_decisive (l : ReaderLog) (o : ReaderOp) (x : ReaderAns o)
    (h : T.Answers reader l o x) : ResponseFormat.decisive.rely l o x := by
  cases o with
  | read bits address =>
    change x.succeeded = ntSuccess x.status
    cases hs : x.succeeded with
    | true => exact ((Bool.and_eq_true _ _).mp hs).1.symm
    | false => exact (h.2 (by rw [MemoryReadResult.value?, hs]; rfl)).symm
  | _ => trivial

theorem wp_fetch {α : Type} {a : ULongPtr} {f : MemoryReadResult 32 → Memory α} {l : ReaderLog}
    {Q : α → ReaderLog → Prop} (hready : T.ready reader)
    (h : ∀ r l', r.value? = T.dword a → wp (T.quiet reader) (f r) l' Q) :
    wp (T.quiet reader) (read 32 a >>= f) l Q := by
  refine wp_ask_bind.mpr ⟨trivial, fun r hr => h r _ ?_⟩
  rw [hr.1, if_pos hready]
  rfl

theorem wp_readField (hready : T.ready reader) (l : ReaderLog) (pointer : ULong) (offset : ULongPtr) :
    wp (T.quiet reader) (readField pointer offset) l fun r _ => r.value? = T.field pointer offset := by
  refine ⟨trivial, fun _ _ => ⟨trivial, fun _ _ => ⟨trivial, fun r hr => hr.1.trans ?_⟩⟩⟩
  rw [if_pos hready]
  rfl

theorem wp_fetchField {α : Type} {pointer : ULong} {offset : ULongPtr}
    {f : MemoryReadResult 32 → Memory α} {l : ReaderLog} {Q : α → ReaderLog → Prop}
    (hready : T.ready reader)
    (h : ∀ r l', r.value? = T.field pointer offset → wp (T.quiet reader) (f r) l' Q) :
    wp (T.quiet reader) (readField pointer offset >>= f) l Q := by
  rw [wp_bind]
  exact wp_mono (wp_readField hready l pointer offset) h

theorem wp_searchStep (hready : T.ready reader) (targetId header node : ULong) (l : ReaderLog) :
    wp (T.quiet reader) (searchStep targetId header node) l
      (SearchStep.Passes (fun _ pointer offset r _ => r.value? = T.field pointer offset)
        targetId header node l) :=
  SearchStep.wp_searchStep (wp_readField hready) l

theorem eq_some_value {r : MemoryReadResult 32} {v : Option ULong} (hr : r.value? = v)
    (hs : ¬(!r.succeeded) = true) : v = some r.value := by
  rw [← hr, MemoryReadResult.value?, if_pos (by simpa using hs)]

theorem eq_none {r : MemoryReadResult 32} {v : Option ULong} (hr : r.value? = v)
    (hs : (!r.succeeded) = true) : v = none := by
  rw [← hr, MemoryReadResult.value?, if_neg (by simpa using hs)]

theorem actorMatches_eq {targetId actor : ULong} {id xy : MemoryReadResult 32}
    (hid : id.value? = T.field actor 8) (hxy : xy.value? = T.field actor 0x0C) :
    SelectTarget.actorMatches targetId id xy = T.actorMatches targetId actor := by
  rw [SelectTarget.actorMatches, actorMatches, ← hid, ← hxy, MemoryReadResult.value?,
    MemoryReadResult.value?]
  cases id.succeeded <;> cases xy.succeeded <;> rfl

theorem wp_searchStep_search (hready : T.ready reader) {targetId header node : ULong} (n : Nat)
    (l : ReaderLog) :
    wp (T.quiet reader) (searchStep targetId header node) l fun r _ =>
      Sum.elim (T.search targetId header n) (fun e => e.toOption.getD false) r =
        T.search targetId header (n + 1) node := by
  refine wp_mono (wp_searchStep hready targetId header node l) fun r l' h => ?_
  rw [search]
  cases h with
  | leaf hleaf => exact (if_pos hleaf).symm
  | unread hleaf hkey hs =>
    rw [if_neg hleaf, eq_none hkey hs]
    rfl
  | found hleaf hkey hs hfound h =>
    rw [if_neg hleaf, eq_some_value hkey hs]
    change _ = ite _ _ _
    rw [if_pos hfound]
    cases h with
    | unread hactor hs =>
      rw [eq_none hactor hs]
      rfl
    | null hactor hs hzero =>
      rw [eq_some_value hactor hs]
      simp [hzero, Except.toOption]
    | compared hactor hs hne hid hxy =>
      rw [eq_some_value hactor hs, actorMatches_eq hid hxy]
      exact ((congrArg (· && _) (decide_eq_true hne)).trans (Bool.true_and _)).symm
  | down hleaf hkey hs hfound h =>
    rw [if_neg hleaf, eq_some_value hkey hs]
    change _ = ite _ _ _
    rw [if_neg hfound]
    cases h with
    | unread hchild hs =>
      rw [eq_none hchild hs]
      rfl
    | leaf hchild hs hinner =>
      rw [eq_some_value hchild hs]
      exact (if_pos hinner).symm
    | inner hchild hs hinner h =>
      rw [eq_some_value hchild hs]
      change _ = ite _ _ _
      rw [if_neg hinner]
      cases h with
      | unread hparent hs =>
        rw [eq_none hparent hs]
        rfl
      | strange hparent hs hne =>
        rw [eq_some_value hparent hs]
        simp [hne, Except.toOption]
      | back hparent hs hback =>
        rw [eq_some_value hparent hs]
        simp [hback]

theorem wp_search (hready : T.ready reader) (targetId header : ULong) (n : Nat) (root : ULong)
    (l : ReaderLog) :
    wp (T.quiet reader) (Program.loop (searchStep targetId header) n root) l fun r _ =>
      (r.bind Except.toOption).getD false = T.search targetId header n root := by
  refine wp_loop (fun k node _ => T.search targetId header k node = T.search targetId header n root)
    (fun k node l' hI => ?_) (fun node l' hI => hI) n root l rfl
  refine wp_mono (wp_searchStep_search hready k l') fun r l'' hr => ?_
  cases r with
  | inl child => exact hr.trans hI
  | inr e => exact hr.trans hI

theorem guard_bind {α : Type} {p : Prop} [Decidable p] (h : p) (f : Unit → Option α) :
    (guard p >>= f) = f () := by
  rw [guard, if_pos h]
  rfl

theorem guard_bind_none {α : Type} {p : Prop} [Decidable p] (h : ¬p) (f : Unit → Option α) :
    (guard p >>= f) = none := by
  rw [guard, if_neg h]
  rfl

section Stages

/-! One stage of `locate` together with the line of `controllerOf` that it amounts to. -/

variable {β : Type} {l : ReaderLog}

theorem wp_resolveStage (hready : T.ready reader) {offset : ULongPtr}
    {k : Resolved → Memory (Except NtStatus β)} {g : Unit → Option β}
    (hk : ∀ r l', r.address = sys.psGetProcessSectionBaseAddress reader.process + offset →
      wp (T.quiet reader) (k r) l' fun e _ => e.toOption = g ()) :
    wp (T.quiet reader) (do
      let r ← resolveImageOffset offset
      if !ntSuccess r.status then return .error r.status
      k r) l fun e _ => e.toOption =
        (guard (ImageRange sys (sys.psGetProcessSectionBaseAddress reader.process) offset) >>= g) := by
  refine wp_ask_bind.mpr ⟨trivial, fun r hr => ?_⟩
  change if _ then _ else _ at hr
  rw [wp_ite]
  by_cases hrange : ImageRange sys (sys.psGetProcessSectionBaseAddress reader.process) offset
  · rw [if_pos ⟨hready, hrange⟩] at hr
    subst hr
    rw [guard_bind hrange]
    exact ⟨fun hs => absurd (show ntSuccess statusSuccess = true from rfl) (by simpa using hs),
      fun _ => hk _ _ rfl⟩
  · rw [if_neg fun hc => hrange hc.2] at hr
    rw [guard_bind_none hrange]
    exact ⟨fun _ => rfl, fun hs => absurd hr (by simpa using hs)⟩

theorem wp_checkStage {r : MemoryReadResult 32} {v : Option ULong} (hr : r.value? = v)
    {p : Memory (Except NtStatus β)} {g : ULong → Option β}
    (hp : v = some r.value → wp (T.quiet reader) p l fun e _ => e.toOption = g r.value) :
    wp (T.quiet reader) (do
      if !r.succeeded then return .error r.status
      p) l fun e _ => e.toOption = (v >>= g) := by
  rw [wp_ite]
  refine ⟨fun hs => ?_, fun hs => ?_⟩
  · rw [eq_none hr hs]
    rfl
  · have hv := eq_some_value hr hs
    rw [hv]
    exact hp hv

theorem wp_guardStage {c : Prop} [Decidable c] {status : NtStatus}
    {p : Memory (Except NtStatus β)} {g : Unit → Option β}
    (hp : ¬c → wp (T.quiet reader) p l fun e _ => e.toOption = g ()) :
    wp (T.quiet reader) (do
      if c then return .error status
      p) l fun e _ => e.toOption = (guard (¬c) >>= g) := by
  rw [wp_ite]
  refine ⟨fun hc => ?_, fun hc => ?_⟩
  · rw [guard_bind_none (not_not.mpr hc)]
    rfl
  · rw [guard_bind hc]
    exact hp hc

end Stages

/-- What the code does up to its write is decided by the memory alone. -/
theorem wp_locate_ready (hready : T.ready reader) (targetId : ULong) (l : ReaderLog) :
    wp (T.quiet reader) (locate targetId) l fun r _ => r.toOption =
      T.controllerOf (sys.psGetProcessSectionBaseAddress reader.process) targetId := by
  refine wp_resolveStage hready fun controllerField l₁ ha₁ => ?_
  refine wp_resolveStage hready fun treeField l₂ ha₂ => ?_
  refine wp_resolveStage hready fun vtableAddress l₃ ha₃ => ?_
  rw [ha₁, ha₂, ha₃]
  refine wp_fetch hready fun controller l₄ hcontroller => ?_
  refine wp_fetch hready fun manager l₅ hmanager => ?_
  refine wp_checkStage hcontroller fun hc => ?_
  refine wp_checkStage hmanager fun _ => ?_
  refine wp_guardStage fun hne => ?_
  refine wp_fetch hready fun vtable l₆ hvtable => ?_
  refine wp_checkStage hvtable fun _ => ?_
  refine wp_guardStage fun _ => ?_
  refine wp_fetchField hready fun header l₇ hheader => ?_
  refine wp_checkStage hheader fun _ => ?_
  refine wp_guardStage fun _ => ?_
  refine wp_fetchField hready fun root l₈ hroot => ?_
  refine wp_checkStage hroot fun _ => ?_
  rw [wp_bind]
  refine wp_mono (wp_search hready targetId header.value 64 root.value l₈) fun r l₉ hr => ?_
  rw [← hr]
  match r with
  | none => rfl
  | some (.error status) => rfl
  | some (.ok false) => rfl
  | some (.ok true) => rfl

theorem wp_locate_notReady (hready : ¬T.ready reader) (targetId : ULong) (l : ReaderLog) :
    wp (T.quiet reader) (locate targetId) l fun r l' => r.toOption = none ∧
      ∃ x, l' = l ++ [⟨.resolveImageOffset targetControllerOffset, x⟩] := by
  rw [locate]
  refine wp_ask_bind.mpr ⟨trivial, fun r hr => ?_⟩
  change if _ then _ else _ at hr
  rw [if_neg fun hc => hready hc.1] at hr
  rw [wp_ite]
  exact ⟨fun _ => ⟨rfl, r, rfl⟩, fun hs => absurd hr (by simpa using hs)⟩

section Write

variable (T)

def slotOf (base : ULongPtr) (targetId : ULong) : Option ULongPtr := do
  let controller ← T.controllerOf base targetId
  let slot := controller.setWidth 64 + 0x28
  guard (WriteCheck sys slot ∧ covers T.writable slot 4)
  return slot

/-- The response and the memory that a selection leaves behind. -/
def Settled (targetId : ULong) (slot : Option ULongPtr) (response : SelectTargetResponse)
    (m : Bytes 64) : Prop :=
  match slot with
  | some slot => response = ⟨version, sizeofSelectTargetResponse, statusSuccess, targetId⟩ ∧
      m = store T.byte slot 4 targetId.toNat
  | none => ntSuccess response.status = false ∧ m = T.byte

variable {T}

theorem controllerOf_eq_some {base : ULongPtr} {targetId controller : ULong} :
    T.controllerOf base targetId = some controller ↔
      ImageRange sys base targetControllerOffset ∧ ImageRange sys base otherCharacterNameOffset ∧
      ImageRange sys base targetControllerVtableOffset ∧
      T.dword (base + targetControllerOffset) = some controller ∧ controller ≠ 0 ∧
      ∃ manager vtable header root, T.dword (base + otherCharacterNameOffset) = some manager ∧
        manager ≠ 0 ∧ T.dword (controller.setWidth 64) = some vtable ∧
        vtable.setWidth 64 = base + targetControllerVtableOffset ∧
        T.field manager 0x34 = some header ∧ header ≠ 0 ∧ T.field header 4 = some root ∧
        T.search targetId header 64 root := by
  simp only [controllerOf, Option.bind_eq_bind, Option.bind_eq_some_iff, Option.guard_eq_some',
    exists_const, not_or, not_not]
  constructor
  · rintro ⟨h₁, h₂, h₃, a, ha, manager, hmanager, ⟨hne, hne'⟩, vtable, hvtable, heq, header, hheader,
      hheader', root, hroot, hsearch, hpure⟩
    obtain rfl := Option.some.inj hpure
    exact ⟨h₁, h₂, h₃, ha, hne, manager, vtable, header, root, hmanager, hne', hvtable, heq, hheader,
      hheader', hroot, hsearch⟩
  · rintro ⟨h₁, h₂, h₃, ha, hne, manager, vtable, header, root, hmanager, hne', hvtable, heq, hheader,
      hheader', hroot, hsearch⟩
    exact ⟨h₁, h₂, h₃, controller, ha, manager, hmanager, ⟨hne, hne'⟩, vtable, hvtable, heq, header,
      hheader, hheader', root, hroot, hsearch, rfl⟩

theorem slotOf_eq_some {base : ULongPtr} {targetId : ULong} {slot : ULongPtr} :
    T.slotOf base targetId = some slot ↔ ∃ controller,
      T.controllerOf base targetId = some controller ∧ slot = controller.setWidth 64 + 0x28 ∧
      WriteCheck sys slot ∧ covers T.writable slot 4 := by
  simp only [slotOf, Option.bind_eq_bind, Option.bind_eq_some_iff, Option.guard_eq_some',
    exists_const]
  constructor
  · rintro ⟨controller, hcontroller, hwritable, hpure⟩
    obtain rfl := Option.some.inj hpure
    exact ⟨controller, hcontroller, rfl, hwritable⟩
  · rintro ⟨controller, hcontroller, rfl, hwritable⟩
    exact ⟨controller, hcontroller, hwritable, rfl⟩

theorem copyRange_of_writable {slot : ULongPtr} (hcheck : WriteCheck sys slot)
    (hcovers : covers T.writable slot 4) : CopyRange sys slot (byteSize 32) := by
  have hlast := T.user_of_readable _ (T.readable_of_writable _ (covers_iff.mp hcovers 3 (by decide)))
  have haligned : slot &&& 3 = 0 := not_not.mp fun hne => hcheck.2 (.inr hne)
  have hmod : slot.toNat % 4 = 0 := by
    have := congrArg BitVec.toNat haligned
    rwa [BitVec.toNat_and, show (3 : ULongPtr).toNat = 2 ^ 2 - 1 from rfl,
      Nat.and_two_pow_sub_one_eq_mod] at this
  have hslot : slot.toNat ≠ 0 := fun hzero => hcheck.1 (BitVec.eq_of_toNat_eq hzero)
  have hlt := slot.isLt
  rw [BitVec.le_def, BitVec.toNat_add, BitVec.toNat_ofNat] at hlast
  refine ⟨by omega, by decide, by decide, ?_⟩
  change slot.toNat + 4 - 1 ≤ _
  omega

theorem peek_store {slot : ULongPtr} (hcheck : WriteCheck sys slot)
    (hcovers : covers T.writable slot 4) (m : Bytes 64) (v : ULong) :
    T.peek (store m slot 4 v.toNat) 32 slot = some v := by
  have hreadable : covers T.readable slot 4 := covers_mono T.readable_of_writable hcovers
  rw [peek, if_pos ⟨copyRange_of_writable hcheck hcovers, hreadable⟩]
  change some (BitVec.ofNat 32 (littleEndian (load _ slot 4))) = _
  have hlt : v.toNat < 256 ^ 4 := v.isLt
  rw [littleEndian_load_store _ _ _ _ (by decide), Nat.mod_eq_of_lt hlt, BitVec.ofNat_toNat,
    BitVec.setWidth_eq]

theorem wp_commit (hready : T.ready reader) {targetId controller : ULong} {l : ReaderLog}
    (hl : T.written l = T.byte) :
    let slot : ULongPtr := controller.setWidth 64 + 0x28
    wp (T.readerOf reader) (commit targetId controller (SelectTarget.newResponse statusSuccess)) l
      fun response l' => T.Settled targetId
        (guard (WriteCheck sys slot ∧ covers T.writable slot 4) >>= fun _ => some slot) response
        (T.written l') := by
  intro slot
  rw [commit, wp_bind]
  refine ⟨trivial, fun _ _ => ⟨trivial, fun _ _ => ?_⟩⟩
  refine wp_ask_bind.mpr ⟨trivial, fun written hwritten => ?_⟩
  change ntSuccess written ↔ T.ready reader ∧ WriteCheck sys slot ∧ covers T.writable slot 4
    at hwritten
  rw [wp_ite]
  refine ⟨fun hs => ?_, fun hs => ?_⟩
  · have hfailed : ntSuccess written = false := by simpa using hs
    rw [guard_bind_none fun hc => absurd (hwritten.mpr ⟨hready, hc⟩) (by simp [hfailed])]
    refine ⟨hfailed, ?_⟩
    simp only [written_append, hl]
    exact if_neg (by simp [hfailed])
  · have hsuccess : ntSuccess written = true := by simpa using hs
    have hc := (hwritten.mp hsuccess).2
    rw [guard_bind hc]
    refine wp_ask_bind.mpr ⟨trivial, fun selected hselected => ?_⟩
    -- Both ghost steps leave the memory alone, the write changes it, the read-back sees it.
    have hmemory : ∀ x, T.written (l ++ x ++ [⟨.writeUInt32 slot targetId, written⟩]) =
          store (T.written (l ++ x)) slot 4 targetId.toNat := fun x => by
      rw [written_append]
      exact if_pos hsuccess
    have hvalue : selected.value? = some targetId := by
      rw [hselected.1, if_pos hready, List.append_assoc l, hmemory, ← List.append_assoc,
        written_append, written_append, hl]
      exact peek_store hc.1 hc.2 T.byte targetId
    have hs : selected.succeeded = true := by
      by_contra hnot
      rw [MemoryReadResult.value?, if_neg hnot] at hvalue
      cases hvalue
    rw [MemoryReadResult.value?, if_pos hs, Option.some.injEq] at hvalue
    rw [if_neg (by simp [hs]), wp_pure]
    refine ⟨by rw [if_pos hvalue, hvalue]; rfl, ?_⟩
    rw [written_append, List.append_assoc l, hmemory, ← List.append_assoc, written_append,
      written_append, hl]

theorem wp_select_settled (reader : KernelProcessMemoryReader) {l : ReaderLog}
    (hl : T.written l = T.byte) (targetId : ULong) :
    wp (T.readerOf reader) (select targetId) l fun response l' => T.Settled targetId
      (if T.ready reader then
        T.slotOf (sys.psGetProcessSectionBaseAddress reader.process) targetId else none)
      response (T.written l') := by
  have hfailing : wp (T.readerOf reader) (locate targetId) l fun r _ => ResponseFormat.Failing r :=
    wp_contract answers_decisive (fun _ _ h => h) (ResponseFormat.wp_locate targetId l)
  have hlocate : wp (T.readerOf reader) (locate targetId) l fun r l' =>
      r.toOption = (if T.ready reader then
        T.controllerOf (sys.psGetProcessSectionBaseAddress reader.process) targetId else none) ∧
      T.written l' = T.byte := by
    by_cases hready : T.ready reader
    · rw [if_pos hready]
      exact wp_of_quiet (wp_locate_ready hready targetId l) hl
    · rw [if_neg hready]
      exact wp_mono (wp_of_quiet (wp_locate_notReady hready targetId l) hl)
        fun r l' h => ⟨h.1.1, h.2⟩
  rw [select, wp_bind]
  refine wp_mono (wp_and hfailing hlocate) fun r l' ⟨hr, hcontroller, hl'⟩ => ?_
  cases r with
  | error status =>
    have hnone : (if T.ready reader then
        T.slotOf (sys.psGetProcessSectionBaseAddress reader.process) targetId else none) = none := by
      by_cases hready : T.ready reader
      · rw [if_pos hready] at hcontroller ⊢
        rw [slotOf, ← hcontroller]
        rfl
      · rw [if_neg hready]
    rw [hnone]
    exact ⟨hr status rfl, hl'⟩
  | ok controller =>
    have hready : T.ready reader := by
      by_contra hnot
      rw [if_neg hnot] at hcontroller
      cases hcontroller
    rw [if_pos hready] at hcontroller ⊢
    rw [slotOf, ← hcontroller]
    exact wp_commit hready hl'

end Write

end DarkEden.Target
