import DarkEden.PointerOverflow
import DarkEden.Quiescent

namespace DarkEden.PointerOverflow

open Interaction Memory SelectTarget Protocol
open ReaderRules (ImageRange)

section Followed

variable {sys : Platform} (T : Target sys)

def fieldRef (pointer : ULong) (offset : ULongPtr) : FieldRef := (pointer.setWidth 64, offset)

def searchFields (targetId header : ULong) : Nat → ULong → List FieldRef
  | 0, _ => []
  | n + 1, node =>
    if node = 0 ∨ node = header then []
    else fieldRef node 0x10 :: match T.field node 0x10 with
      | none => []
      | some key =>
        if key = targetId then
          fieldRef node 0x14 :: match T.field node 0x14 with
          | none => []
          | some actor => if actor = 0 then [] else [fieldRef actor 8, fieldRef actor 0x0C]
        else
          let side : ULongPtr := if targetId < key then 0 else 8
          fieldRef node side :: match T.field node side with
          | none => []
          | some child =>
            if child = 0 ∨ child = header then []
            else fieldRef child 4 ::
              if T.field child 4 = some node then searchFields targetId header n child else []

/-- The fields that a selection looks at before its write, if `manager` is used at all. -/
def managerFields (targetId : ULong) (manager : ULong) : List FieldRef :=
  fieldRef manager 0x34 :: match T.field manager 0x34 with
  | none => []
  | some header =>
    if header = 0 then []
    else fieldRef header 4 :: match T.field header 4 with
      | none => []
      | some root => searchFields T targetId header 64 root

def managerOf (base : ULongPtr) : Option ULong := do
  guard (ImageRange sys base targetControllerOffset)
  guard (ImageRange sys base otherCharacterNameOffset)
  guard (ImageRange sys base targetControllerVtableOffset)
  let controller ← T.dword (base + targetControllerOffset)
  let manager ← T.dword (base + otherCharacterNameOffset)
  guard ¬(controller = 0 ∨ manager = 0)
  let vtable ← T.dword (controller.setWidth 64)
  guard ¬(vtable.setWidth 64 ≠ base + targetControllerVtableOffset)
  return manager

/-- All fields of a selection: those of the search, and the slot if it is reached. -/
def followed (base : ULongPtr) (targetId : ULong) : List FieldRef :=
  (managerOf T base).toList.flatMap (managerFields T targetId) ++
    (T.controllerOf base targetId).toList.map (fieldRef · 0x28)

variable {T} {reader : KernelProcessMemoryReader}

/-! Below, `all` are the fields of the whole request and `rest` those still to come. -/

variable {rest all : List FieldRef}

theorem trace_fetch {α : Type} {a : ULongPtr} {f : MemoryReadResult 32 → Memory α} {l : ReaderLog}
    {Q : α → ReaderLog → Prop} (hready : T.ready reader) (h : formed l ++ rest = all)
    (hf : ∀ r l', r.value? = T.dword a → formed l' ++ rest = all → wp (T.quiet reader) (f r) l' Q) :
    wp (T.quiet reader) (read 32 a >>= f) l Q := by
  refine wp_ask_bind.mpr ⟨trivial, fun r hr => hf r _ ?_ ?_⟩
  · rw [hr.1, if_pos hready]
    rfl
  · rw [formed_append, ← h]
    simp [formedBy]

theorem wp_readField_trace (hready : T.ready reader) (l : ReaderLog) (pointer : ULong)
    (offset : ULongPtr) :
    wp (T.quiet reader) (readField pointer offset) l fun r l' =>
      r.value? = T.field pointer offset ∧ formed l' = formed l ++ [fieldRef pointer offset] := by
  refine ⟨trivial, fun _ _ => ⟨trivial, fun _ _ => ⟨trivial, fun r hr => ⟨hr.1.trans ?_, ?_⟩⟩⟩⟩
  · rw [if_pos hready]
    rfl
  · rw [formed_append, formed_append, formed_append]
    simp [formedBy, Note.formed, fieldRef]

theorem trace_field {α : Type} {pointer : ULong} {offset : ULongPtr}
    {f : MemoryReadResult 32 → Memory α} {l : ReaderLog} {Q : α → ReaderLog → Prop}
    (hready : T.ready reader) (h : formed l ++ fieldRef pointer offset :: rest = all)
    (hf : ∀ r l', r.value? = T.field pointer offset → formed l' ++ rest = all →
      wp (T.quiet reader) (f r) l' Q) :
    wp (T.quiet reader) (readField pointer offset >>= f) l Q := by
  rw [wp_bind]
  refine wp_mono (wp_readField_trace hready l pointer offset) fun r l' ⟨hr, hl'⟩ => hf r l' hr ?_
  rw [hl', List.append_assoc]
  exact h

theorem wp_searchStep_trace (hready : T.ready reader) {targetId header node : ULong} (n : Nat)
    {l : ReaderLog} (h : formed l ++ searchFields T targetId header (n + 1) node = all) :
    wp (T.quiet reader) (searchStep targetId header node) l fun r l' =>
      formed l' ++ Sum.elim (searchFields T targetId header n) (fun _ => []) r = all := by
  refine wp_mono (SearchStep.wp_searchStep (R := fun l pointer offset r l' =>
    r.value? = T.field pointer offset ∧ formed l' = formed l ++ [fieldRef pointer offset])
      (wp_readField_trace hready) l) fun r l' hr => ?_
  rw [← h, searchFields]
  cases hr with
  | leaf hleaf =>
    rw [if_pos hleaf]
    rfl
  | unread hleaf hkey hs =>
    rw [if_neg hleaf, Target.eq_none hkey.1 hs, hkey.2]
    exact List.append_nil _
  | found hleaf hkey hs hfound hr =>
    rw [if_neg hleaf, Target.eq_some_value hkey.1 hs, List.append_cons, ← hkey.2]
    simp only [if_pos hfound]
    cases hr with
    | unread hactor hs =>
      rw [Target.eq_none hactor.1 hs, hactor.2]
      exact List.append_nil _
    | null hactor hs hzero =>
      rw [Target.eq_some_value hactor.1 hs, hactor.2]
      simp [hzero]
    | compared hactor hs hne hid hxy =>
      rw [Target.eq_some_value hactor.1 hs, hxy.2, hid.2, hactor.2]
      simpa using hne
  | down hleaf hkey hs hfound hr =>
    rw [if_neg hleaf, Target.eq_some_value hkey.1 hs, List.append_cons, ← hkey.2]
    simp only [if_neg hfound]
    cases hr with
    | unread hchild hs =>
      rw [Target.eq_none hchild.1 hs, hchild.2]
      exact List.append_nil _
    | leaf hchild hs hinner =>
      rw [Target.eq_some_value hchild.1 hs, hchild.2]
      simp only [if_pos hinner]
      exact List.append_nil _
    | inner hchild hs hinner hr =>
      rw [Target.eq_some_value hchild.1 hs, List.append_cons, ← hchild.2]
      simp only [if_neg hinner]
      cases hr with
      | unread hparent hs =>
        rw [Target.eq_none hparent.1 hs, hparent.2]
        exact List.append_nil _
      | strange hparent hs hne =>
        rw [Target.eq_some_value hparent.1 hs, hparent.2, if_neg fun hp => hne (Option.some.inj hp)]
        exact List.append_nil _
      | back hparent hs hback =>
        rw [Target.eq_some_value hparent.1 hs, hparent.2, if_pos (congrArg some hback),
          List.append_assoc]
        rfl

section Stages

variable {β : Type} {l : ReaderLog} {F : ULong → List FieldRef}

theorem trace_resolveStage (hready : T.ready reader) {offset : ULongPtr}
    {k : Resolved → Memory (Except NtStatus β)} {g : Unit → Option ULong}
    (h : formed l ++ (guard (ImageRange sys (sys.psGetProcessSectionBaseAddress reader.process) offset)
      >>= g).toList.flatMap F = all)
    (hk : ∀ r l', r.address = sys.psGetProcessSectionBaseAddress reader.process + offset →
      formed l' ++ (g ()).toList.flatMap F = all →
      wp (T.quiet reader) (k r) l' fun _ l' => formed l' = all) :
    wp (T.quiet reader) (do
      let r ← resolveImageOffset offset
      if !ntSuccess r.status then return .error r.status
      k r) l fun _ l' => formed l' = all := by
  refine wp_ask_bind.mpr ⟨trivial, fun r hr => ?_⟩
  change if _ then _ else _ at hr
  have hformed : formed (l ++ [⟨.resolveImageOffset offset, r⟩]) = formed l := by
    rw [formed_append]
    exact List.append_nil _
  rw [wp_ite]
  by_cases hrange : ImageRange sys (sys.psGetProcessSectionBaseAddress reader.process) offset
  · rw [if_pos ⟨hready, hrange⟩] at hr
    subst hr
    rw [Target.guard_bind hrange] at h
    exact ⟨fun hs => absurd (show ntSuccess statusSuccess = true from rfl) (by simpa using hs),
      fun _ => hk _ _ rfl (by rwa [hformed])⟩
  · rw [if_neg fun hc => hrange hc.2] at hr
    rw [Target.guard_bind_none hrange] at h
    refine ⟨fun _ => ?_, fun hs => absurd hr (by simpa using hs)⟩
    rw [wp_pure, hformed]
    simpa using h

theorem trace_checkStage {r : MemoryReadResult 32} {v : Option ULong} (hr : r.value? = v)
    {p : Memory (Except NtStatus β)} {g : ULong → Option ULong}
    (h : formed l ++ (v >>= g).toList.flatMap F = all)
    (hp : formed l ++ (g r.value).toList.flatMap F = all →
      wp (T.quiet reader) p l fun _ l' => formed l' = all) :
    wp (T.quiet reader) (do
      if !r.succeeded then return .error r.status
      p) l fun _ l' => formed l' = all := by
  rw [wp_ite]
  refine ⟨fun hs => ?_, fun hs => ?_⟩
  · rw [Target.eq_none hr hs] at h
    simpa using h
  · rw [Target.eq_some_value hr hs] at h
    exact hp h

theorem trace_guardStage {c : Prop} [Decidable c] {status : NtStatus}
    {p : Memory (Except NtStatus β)} {g : Unit → Option ULong}
    (h : formed l ++ (guard (¬c) >>= g).toList.flatMap F = all)
    (hp : formed l ++ (g ()).toList.flatMap F = all →
      wp (T.quiet reader) p l fun _ l' => formed l' = all) :
    wp (T.quiet reader) (do
      if c then return .error status
      p) l fun _ l' => formed l' = all := by
  rw [wp_ite]
  refine ⟨fun hc => ?_, fun hc => ?_⟩
  · rw [Target.guard_bind_none (not_not.mpr hc)] at h
    simpa using h
  · rw [Target.guard_bind hc] at h
    exact hp h

end Stages

theorem wp_locate_trace (hready : T.ready reader) (targetId : ULong) {l : ReaderLog}
    (h : formed l ++ (managerOf T (sys.psGetProcessSectionBaseAddress reader.process)).toList.flatMap
      (managerFields T targetId) = all) :
    wp (T.quiet reader) (locate targetId) l fun _ l' => formed l' = all := by
  rw [managerOf] at h
  refine trace_resolveStage hready h fun controllerField l₁ ha₁ h => ?_
  refine trace_resolveStage hready h fun treeField l₂ ha₂ h => ?_
  refine trace_resolveStage hready h fun vtableAddress l₃ ha₃ h => ?_
  rw [ha₁, ha₂, ha₃]
  refine trace_fetch hready h fun controller l₄ hcontroller h => ?_
  refine trace_fetch hready h fun manager l₅ hmanager h => ?_
  refine trace_checkStage hcontroller h fun h => ?_
  refine trace_checkStage hmanager h fun h => ?_
  refine trace_guardStage h fun h => ?_
  refine trace_fetch hready h fun vtable l₆ hvtable h => ?_
  refine trace_checkStage hvtable h fun h => ?_
  refine trace_guardStage h fun h => ?_
  have h : formed l₆ ++ managerFields T targetId manager.value = all := by simpa using h
  rw [managerFields] at h
  refine trace_field hready h fun header l₇ hheader h => ?_
  rw [wp_ite]
  refine ⟨fun hs => ?_, fun hs => ?_⟩
  · rw [Target.eq_none hheader hs] at h
    exact (List.append_nil _).symm.trans h
  simp only [Target.eq_some_value hheader hs] at h
  rw [wp_ite]
  refine ⟨fun hzero => by simpa [hzero] using h, fun hzero => ?_⟩
  rw [if_neg hzero] at h
  refine trace_field hready h fun root l₈ hroot h => ?_
  rw [wp_ite]
  refine ⟨fun hs => ?_, fun hs => ?_⟩
  · rw [Target.eq_none hroot hs] at h
    exact (List.append_nil _).symm.trans h
  simp only [Target.eq_some_value hroot hs] at h
  rw [wp_bind]
  refine wp_loop (fun n node l => formed l ++ searchFields T targetId header.value n node = all)
    (fun n node l' h => ?_) (fun node l' h => by simpa [searchFields] using h) 64 root.value l₈ h
  refine wp_mono (wp_searchStep_trace hready n h) fun r l'' hr => ?_
  match r with
  | .inl child => exact hr
  | .inr (.error status) => exact (List.append_nil _).symm.trans hr
  | .inr (.ok false) => exact (List.append_nil _).symm.trans hr
  | .inr (.ok true) => exact (List.append_nil _).symm.trans hr

end Followed

section Commit

variable {sys : Platform} {T : Target sys} {reader : KernelProcessMemoryReader}

theorem wp_commit_trace (targetId controller : ULong) (response : SelectTargetResponse)
    (l : ReaderLog) :
    wp (T.readerOf reader) (commit targetId controller response) l fun _ l' =>
      formed l' = formed l ++ [fieldRef controller 0x28] := by
  have hfield : ∀ {o : ReaderOp} (x : ReaderAns o), formedBy o = none →
      formed (l ++ [⟨.note (.field (controller.setWidth 64) 0x28), ()⟩] ++
        [⟨.note (.sum (controller.setWidth 64) 0x28), ()⟩] ++ [⟨o, x⟩]) =
        formed l ++ [fieldRef controller 0x28] := by
    intro o x ho
    rw [formed_append, formed_append, formed_append, ho]
    simp [formedBy, Note.formed, fieldRef]
  rw [commit, wp_bind]
  refine ⟨trivial, fun _ _ => ⟨trivial, fun _ _ => ?_⟩⟩
  refine wp_ask_bind.mpr ⟨trivial, fun written _ => ?_⟩
  rw [wp_ite]
  refine ⟨fun _ => hfield written rfl, fun _ => ?_⟩
  refine wp_ask_bind.mpr ⟨trivial, fun selected _ => ?_⟩
  have hlog := hfield written (o := .writeUInt32 (controller.setWidth 64 + 0x28) targetId) rfl
  have hread : ∀ (x : ReaderAns (.read 32 (controller.setWidth 64 + 0x28))),
      formed ((l ++ [⟨.note (.field (controller.setWidth 64) 0x28), ()⟩] ++
        [⟨.note (.sum (controller.setWidth 64) 0x28), ()⟩] ++
        [⟨.writeUInt32 (controller.setWidth 64 + 0x28) targetId, written⟩]) ++
        [⟨.read 32 (controller.setWidth 64 + 0x28), x⟩]) = formed l ++ [fieldRef controller 0x28] := by
    intro x
    rw [formed_append, hlog]
    exact List.append_nil _
  rw [wp_ite]
  exact ⟨fun _ => hread selected, fun _ => hread selected⟩

/-- The field addresses that a selection forms are those that the memory tells it to. -/
theorem wp_select_trace (reader : KernelProcessMemoryReader) (targetId : ULong) {l : ReaderLog}
    (hl : T.written l = T.byte) :
    wp (T.readerOf reader) (select targetId) l fun _ l' => formed l' = formed l ++
      if T.ready reader then
        followed T (sys.psGetProcessSectionBaseAddress reader.process) targetId else [] := by
  have hlocate : wp (T.readerOf reader) (locate targetId) l fun r l' =>
      r.toOption = (if T.ready reader then
        T.controllerOf (sys.psGetProcessSectionBaseAddress reader.process) targetId else none) ∧
      formed l' = formed l ++ (if T.ready reader then
        managerOf T (sys.psGetProcessSectionBaseAddress reader.process) else none).toList.flatMap
          (managerFields T targetId) := by
    by_cases hready : T.ready reader
    · simp only [if_pos hready]
      exact wp_mono (Target.wp_of_quiet (wp_and (Target.wp_locate_ready hready targetId l)
        (wp_locate_trace hready targetId rfl)) hl) fun r l' h => h.1
    · simp only [if_neg hready]
      refine wp_mono (Target.wp_of_quiet (Target.wp_locate_notReady hready targetId l) hl)
        fun r l' h => ?_
      obtain ⟨⟨hr, x, hl'⟩, -⟩ := h
      refine ⟨hr, ?_⟩
      rw [hl', formed_append]
      rfl
  rw [select, wp_bind]
  refine wp_mono hlocate fun r l₁ h => ?_
  obtain ⟨hr, hl₁⟩ := h
  cases r with
  | error status =>
    rw [wp_pure, hl₁]
    by_cases hready : T.ready reader
    · simp only [if_pos hready] at hr ⊢
      rw [followed, ← hr]
      simp [Except.toOption]
    · simp [if_neg hready]
  | ok controller =>
    by_cases hready : T.ready reader
    · simp only [hready, if_true] at hr hl₁ ⊢
      refine wp_mono (wp_commit_trace targetId controller _ l₁) fun _ l' hl' => ?_
      rw [hl', hl₁, followed, ← hr]
      simp [Except.toOption]
    · rw [if_neg hready] at hr
      cases hr

end Commit

end DarkEden.PointerOverflow
