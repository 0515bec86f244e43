import DarkEden.EngineRules
import Mathlib.Data.List.Forall2

namespace DarkEden.Traversal

open Interaction Protocol Client Engine EngineRules

section Pass

/-! One pass of the loop over the nodes, whatever its reads may come back with. -/

variable (R : ULongPtr → Option ULong → Prop) (N : ULong → WString → Prop)

/-- What a read of a field of the object at the pointer may come back with. -/
def Field (pointer : ULong) (offset : ULongPtr) (value : Option ULong) : Prop :=
  R (pointer.setWidth 64 + offset) value

/-- The actor passes the checks with this id and these packed coordinates. -/
structure Accepted (actor id packed : ULong) : Prop where
  actor_ne : actor ≠ 0
  readId : Field R actor 8 (some id)
  readPacked : Field R actor 0x0C (some packed)
  id_ne : id ≠ 0
  x_lt : packed &&& 0xFFFF < 5000
  y_lt : packed >>> 16 < 5000

inductive Found (key actor : ULong) (seenActors : List ULong) : Option Character → Prop
  | skipped (h : actor = 0 ∨ actor ∈ seenActors) : Found key actor seenActors none
  | unreadable {offset : ULongPtr} (hoffset : offset = 8 ∨ offset = 0x0C)
      (h : Field R actor offset none) : Found key actor seenActors none
  | refused {id packed : ULong} (hid : Field R actor 8 (some id))
      (hpacked : Field R actor 0x0C (some packed))
      (h : id = 0 ∨ id ≠ key ∨ packed &&& 0xFFFF ≥ 5000 ∨ packed >>> 16 ≥ 5000) :
      Found key actor seenActors none
  | accepted {packed : ULong} {race life name : WString} (hfresh : actor ∉ seenActors)
      (h : Accepted R actor key packed) (hname : N actor name) (hrace : race ∈ raceNames)
      (hlife : life ∈ lifeNames) :
      Found key actor seenActors
        (some ⟨name, race, life, key, packed &&& 0xFFFF, packed >>> 16⟩)

/-- The nodes that a pass takes from the stack without looking at them. -/
abbrev Passed (header node : ULong) (seenNodes : List ULong) : Prop :=
  node = 0 ∨ node = header ∨ node ∈ seenNodes

/-- A child goes onto the stack if its parent field is read as the node. -/
inductive Pushed (header node child : ULong) (seenNodes : List ULong) : List ULong → Prop
  | passed (h : Passed header child seenNodes) : Pushed header node child seenNodes []
  | foreign {parent : Option ULong} (hfresh : ¬Passed header child seenNodes)
      (hparent : Field R child 4 parent) (h : parent ≠ some node) :
      Pushed header node child seenNodes []
  | own (hfresh : ¬Passed header child seenNodes) (hparent : Field R child 4 (some node)) :
      Pushed header node child seenNodes [child]

/-- All that one pass can do. -/
inductive Pass (header : ULong) (walk : Walk) : Except WString (Walk ⊕ List Character) → Prop
  | stop (hempty : walk.pending = []) : Pass header walk (.ok (.inr walk.characters))
  | skip {node : ULong} {rest : List ULong} (htop : walk.pending = node :: rest)
      (hpassed : Passed header node walk.seenNodes) :
      Pass header walk (.ok (.inl { walk with pending := rest }))
  | full {node : ULong} {rest : List ULong} {error : WString} (htop : walk.pending = node :: rest)
      (hfresh : ¬Passed header node walk.seenNodes) (hfull : 2048 ≤ walk.seenNodes.length) :
      Pass header walk (.error error)
  | unreadable {node : ULong} {rest : List ULong} {error : WString} {offset : ULongPtr}
      (htop : walk.pending = node :: rest) (hfresh : ¬Passed header node walk.seenNodes)
      (hroom : walk.seenNodes.length < 2048)
      (hoffset : offset = 0 ∨ offset = 8 ∨ offset = 0x10 ∨ offset = 0x14)
      (h : Field R node offset none) : Pass header walk (.error error)
  | visit {node left right key actor : ULong} {rest pushedLeft pushedRight : List ULong}
      {found : Option Character} (htop : walk.pending = node :: rest)
      (hfresh : ¬Passed header node walk.seenNodes) (hroom : walk.seenNodes.length < 2048)
      (hleft : Field R node 0 (some left)) (hright : Field R node 8 (some right))
      (hkey : Field R node 0x10 (some key)) (hactor : Field R node 0x14 (some actor))
      (hpushedRight : Pushed R header node right (node :: walk.seenNodes) pushedRight)
      (hpushedLeft : Pushed R header node left (node :: walk.seenNodes) pushedLeft)
      (hfound : Found R N key actor walk.seenActors found) :
      Pass header walk (.ok (.inl ⟨pushedLeft ++ (pushedRight ++ rest), node :: walk.seenNodes,
        (found.map fun _ => actor).toList ++ walk.seenActors, walk.characters ++ found.toList⟩))

end Pass

section Rules

variable {C : Contract UserAns} {sys : Platform} {processId : DWord} {imageBase : ULongPtr}
variable {R : ULongPtr → Option ULong → Prop} {N : ULong → WString → Prop}

/-- The reads of dwords come back with what `R` allows, and the actors that are accepted get the
names that `N` allows. -/
structure Reads (C : Contract UserAns) (sys : Platform) (processId : DWord) (imageBase : ULongPtr)
    (R : ULongPtr → Option ULong → Prop) (N : ULong → WString → Prop) : Prop where
  dword : ∀ address l, wp C (readDword sys processId imageBase address).run l fun r _ =>
    R address r.toOption
  name : ∀ actor id packed l, Accepted R actor id packed →
    wp C (readName sys processId imageBase actor) l fun name _ => N actor name

variable (h : Reads C sys processId imageBase R N) {l : Log UserAns} {header : ULong}

-- What a read comes to is said by its rules; its range check is not to be computed.
attribute [local irreducible] readDword

include h

theorem Reads.attempt (pointer : ULong) (offset : ULongPtr) (l : Log UserAns) :
    wp C (attempt (Engine.readField sys processId imageBase pointer offset)) l fun r _ =>
      Field R pointer offset r :=
  (wp_map _ _ _ _).mpr (h.dword _ l)

theorem Reads.readRace (actor : ULong) (l : Log UserAns) :
    wp C (readRace sys processId imageBase actor) l fun race _ => race ∈ raceNames := by
  have hunknown : wide "미확인" ∈ raceNames := by decide
  rw [Engine.readRace, wp_bind]
  refine wp_mono (h.attempt actor 0x558 l) fun raceFlag l' _ => ?_
  cases raceFlag with
  | none => exact hunknown
  | some raceFlag =>
    change wp _ (Engine.attempt _ >>= _) _ _
    rw [wp_bind]
    refine wp_mono (h.attempt actor 0x610 l') fun raceKind _ _ => ?_
    cases raceKind with
    | none => exact hunknown
    | some raceKind => exact raceName_mem raceFlag raceKind

theorem Reads.readLife (actor : ULong) (l : Log UserAns) :
    wp C (readLife sys processId imageBase actor) l fun life _ => life ∈ lifeNames := by
  have hunknown : wide "미확인" ∈ lifeNames := by decide
  rw [Engine.readLife, wp_bind]
  refine wp_mono (h.attempt actor 0x548 l) fun lifeFlag _ _ => ?_
  cases lifeFlag with
  | none => exact hunknown
  | some lifeFlag => exact lifeName_mem lifeFlag

theorem Reads.readCharacter (key actor : ULong) (seenActors : List ULong) (l : Log UserAns) :
    wp C (Engine.readCharacter sys processId imageBase key actor seenActors) l fun found _ =>
      Found R N key actor seenActors found := by
  rw [Engine.readCharacter, wp_ite]
  refine ⟨fun hskip => .skipped hskip, fun hfresh => ?_⟩
  rw [wp_bind]
  refine wp_mono (h.attempt actor 8 l) fun id l₁ hid => ?_
  cases id with
  | none => exact .unreadable (.inl rfl) hid
  | some id =>
    change wp _ (Engine.attempt _ >>= _) _ _
    rw [wp_bind]
    refine wp_mono (h.attempt actor 0x0C l₁) fun packed l₂ hpacked => ?_
    cases packed with
    | none => exact .unreadable (.inr rfl) hpacked
    | some packed =>
      change wp _ (ite _ _ _) _ _
      rw [wp_ite]
      refine ⟨fun hbad => .refused hid hpacked hbad, fun hgood => ?_⟩
      simp only [not_or, not_not, ge_iff_le, BitVec.not_le] at hgood hfresh
      obtain ⟨hid0, rfl, hx, hy⟩ := hgood
      have haccepted : Accepted R actor id packed := ⟨hfresh.1, hid, hpacked, hid0, hx, hy⟩
      rw [wp_bind]
      refine wp_mono (h.readRace actor l₂) fun race l₃ hrace => ?_
      rw [wp_bind]
      refine wp_mono (h.readLife actor l₃) fun life l₄ hlife => ?_
      rw [wp_bind]
      refine wp_mono (h.name actor id packed l₄ haccepted) fun name l₅ hname => ?_
      exact .accepted hfresh.2 haccepted hname hrace hlife

theorem Reads.pushChild (node child : ULong) (walk : Walk) (l : Log UserAns) :
    wp C (Engine.pushChild sys processId imageBase header node child walk) l fun walk' _ =>
      ∃ pushed, Pushed R header node child walk.seenNodes pushed ∧
        walk' = { walk with pending := pushed ++ walk.pending } := by
  rw [Engine.pushChild, wp_ite]
  refine ⟨fun hpassed => ⟨[], .passed hpassed, rfl⟩, fun hfresh => ?_⟩
  rw [wp_bind]
  refine wp_mono (h.attempt child 4 l) fun parent l' hparent => ?_
  by_cases hown : parent = some node
  · rw [if_pos hown]
    exact ⟨[child], .own hfresh (hown ▸ hparent), rfl⟩
  · rw [if_neg hown]
    exact ⟨[], .foreign hfresh hparent hown, rfl⟩

theorem Reads.readField_bind {α : Type} {pointer : ULong} {offset : ULongPtr}
    {f : ULong → Fallible α} {Q : Except WString α → Log UserAns → Prop}
    (herror : Field R pointer offset none → ∀ e l', Q (.error e) l')
    (hvalue : ∀ value l', Field R pointer offset (some value) → wp C (f value).run l' Q) :
    wp C (Engine.readField sys processId imageBase pointer offset >>= f).run l Q := by
  refine wp_run_bind.mpr (wp_mono (h.dword _ l) fun r l' hr => ?_)
  cases r with
  | error e => exact herror hr e l'
  | ok value => exact hvalue value l' hr

theorem Reads.visit (walk : Walk) (l : Log UserAns) :
    wp C (visit sys processId imageBase header walk).run l fun r _ => Pass R N header walk r := by
  rw [Engine.visit]
  cases htop : walk.pending with
  | nil => exact .stop htop
  | cons node rest =>
    change wp _ (ExceptT.run (ite _ _ _)) _ _
    by_cases hpassed : Passed header node walk.seenNodes
    · rw [if_pos hpassed]
      exact .skip htop hpassed
    rw [if_neg hpassed]
    refine wp_run_bind.mpr (wp_require.mpr ⟨fun hroom => ?_, fun hfull => ?_⟩)
    rotate_left
    · exact .full htop hpassed (Nat.le_of_lt_succ (Nat.lt_of_not_le hfull))
    apply h.readField_bind (fun hnone _ _ => .unreadable htop hpassed hroom (.inl rfl) hnone)
    intro left l₁ hleft
    apply h.readField_bind (fun hnone _ _ => .unreadable htop hpassed hroom (.inr (.inl rfl)) hnone)
    intro right l₂ hright
    apply h.readField_bind
      (fun hnone _ _ => .unreadable htop hpassed hroom (.inr (.inr (.inl rfl))) hnone)
    intro key l₃ hkey
    apply h.readField_bind
      (fun hnone _ _ => .unreadable htop hpassed hroom (.inr (.inr (.inr rfl))) hnone)
    intro actor l₄ hactor
    refine wp_run_bind.mpr (wp_run_lift.mpr (wp_mono (h.pushChild node right _ l₄)
      fun walk₁ l₅ ⟨pushedRight, hpushedRight, hwalk₁⟩ => ?_))
    refine wp_run_bind.mpr (wp_run_lift.mpr (wp_mono (h.pushChild node left walk₁ l₅)
      fun walk₂ l₆ ⟨pushedLeft, hpushedLeft, hwalk₂⟩ => ?_))
    subst hwalk₁ hwalk₂
    refine wp_run_bind.mpr (wp_run_lift.mpr (wp_mono (h.readCharacter key actor _ l₆)
      fun found l₇ hfound => ?_))
    have hpass := Pass.visit htop hpassed hroom hleft hright hkey hactor hpushedRight hpushedLeft
      hfound
    cases found with
    | none =>
      rw [Option.map_none, Option.toList_none, Option.toList_none, List.nil_append,
        List.append_nil] at hpass
      exact hpass
    | some character => exact hpass

end Rules

section Loop

variable {R : ULongPtr → Option ULong → Prop} {N : ULong → WString → Prop} {header : ULong}

/-- The passes that may still be needed to empty the stack. -/
def Walk.passes (walk : Walk) : Nat := walk.pending.length + 2 * (2048 - walk.seenNodes.length)

theorem Pushed.length_le {node child : ULong} {seenNodes pushed : List ULong}
    (h : Pushed R header node child seenNodes pushed) : pushed.length ≤ 1 := by
  cases h with
  | own => exact Nat.le_refl 1
  | _ => exact Nat.zero_le 1

theorem Pushed.eq_of_mem {node child : ULong} {seenNodes pushed : List ULong}
    (h : Pushed R header node child seenNodes pushed) {c : ULong} (hc : c ∈ pushed) : c = child := by
  cases h with
  | own => exact List.mem_singleton.mp hc
  | _ => cases hc

theorem Pass.passes_lt {walk walk' : Walk} (h : Pass R N header walk (.ok (.inl walk'))) :
    Walk.passes walk' < Walk.passes walk := by
  cases h with
  | skip htop => simp [Walk.passes, htop]
  | visit htop _ hroom _ _ _ _ hpushedRight hpushedLeft =>
    have hright := hpushedRight.length_le
    have hleft := hpushedLeft.length_le
    simp only [Walk.passes, htop, List.length_append, List.length_cons]
    omega

/-- The loop ends by itself, and what every pass preserves holds where the last one begins, and
where that one ends if there is no error. -/
theorem Reads.walkTree_logged {C : Contract UserAns} {sys : Platform} {processId : DWord}
    {imageBase : ULongPtr} (h : Reads C sys processId imageBase R N) {root : ULong}
    {J : Walk → Log UserAns → Prop} {l : Log UserAns} (hstart : J ⟨[root], [], [], []⟩ l)
    (hvisit : ∀ walk l, J walk l → wp C (Engine.visit sys processId imageBase header walk).run l
      fun r l' => ∀ s, r = .ok s → J (s.elim id fun _ => walk) l') :
    wp C (walkTree sys processId imageBase header root).run l fun r l' =>
      ∃ walk, (∃ l₁, J walk l₁) ∧ (∀ found, r = .ok found → J walk l') ∧
        Pass R N header walk (r.map .inr) := by
  have hpasses : Walk.passes ⟨[root], [], [], []⟩ = 4097 := rfl
  change wp _ (Program.loop _ _ _ >>= _) _ _
  rw [wp_bind]
  refine wp_loop (fun n walk l => J walk l ∧ Walk.passes walk < n) (fun n walk l ⟨hJ, hn⟩ => ?_)
    (fun walk l ⟨_, hn⟩ => absurd hn (Nat.not_lt_zero _)) _ _ _ ⟨hstart, by omega⟩
  refine (wp_map _ _ _ _).mpr (wp_mono (wp_and (h.visit walk l) (hvisit walk l hJ))
    fun r l' ⟨hpass, hkeep⟩ => ?_)
  match r with
  | .error e => exact ⟨walk, ⟨l, hJ⟩, nofun, hpass⟩
  | .ok (.inl walk') =>
    have hlt := hpass.passes_lt
    exact ⟨hkeep _ rfl, by omega⟩
  | .ok (.inr found) => exact ⟨walk, ⟨l, hJ⟩, fun _ _ => hkeep _ rfl, hpass⟩

theorem Reads.walkTree {C : Contract UserAns} {sys : Platform} {processId : DWord}
    {imageBase : ULongPtr} (h : Reads C sys processId imageBase R N) {root : ULong} {J : Walk → Prop}
    (hstart : J ⟨[root], [], [], []⟩)
    (hstep : ∀ walk walk', J walk → Pass R N header walk (.ok (.inl walk')) → J walk')
    (l : Log UserAns) :
    wp C (walkTree sys processId imageBase header root).run l fun r _ =>
      ∃ walk, J walk ∧ Pass R N header walk (r.map .inr) := by
  refine wp_mono (h.walkTree_logged (J := fun walk _ => J walk) hstart fun walk l hJ =>
    wp_mono (h.visit walk l) fun r l' hpass s hs => ?_) fun r _ ⟨walk, ⟨_, hJ⟩, _, hpass⟩ =>
      ⟨walk, hJ, hpass⟩
  subst hs
  cases s with
  | inl walk' => exact hstep _ _ hJ hpass
  | inr found => exact hJ

/-- The entry describes the actor, as it was read. -/
def Describes (R : ULongPtr → Option ULong → Prop) (N : ULong → WString → Prop) (actor : ULong)
    (c : Character) : Prop :=
  N actor c.name ∧ ∃ packed, Accepted R actor c.id packed ∧ c.x = packed &&& 0xFFFF ∧
    c.y = packed >>> 16

structure Collected (R : ULongPtr → Option ULong → Prop) (N : ULong → WString → Prop)
    (walk : Walk) : Prop where
  nodup : walk.seenActors.Nodup
  described : List.Forall₂ (Describes R N) walk.seenActors.reverse walk.characters

theorem collected_nil (pending : List ULong) : Collected R N ⟨pending, [], [], []⟩ :=
  ⟨List.nodup_nil, .nil⟩

theorem Collected.pass {walk walk' : Walk} (h : Collected R N walk)
    (hpass : Pass R N header walk (.ok (.inl walk'))) : Collected R N walk' := by
  cases hpass with
  | skip => exact ⟨h.nodup, h.described⟩
  | visit _ _ _ _ _ _ _ _ _ hfound =>
    cases hfound with
    | accepted hfresh haccepted hname =>
      refine ⟨List.nodup_cons.mpr ⟨hfresh, h.nodup⟩, ?_⟩
      change List.Forall₂ _ (List.reverse (_ :: walk.seenActors)) (walk.characters ++ [_])
      rw [List.reverse_cons]
      exact List.rel_append h.described (.cons ⟨hname, _, haccepted, rfl, rfl⟩ .nil)
    | _ =>
      refine ⟨h.nodup, ?_⟩
      change List.Forall₂ _ walk.seenActors.reverse (walk.characters ++ [])
      rw [List.append_nil]
      exact h.described

end Loop

section Names

def label (ownName : WString) (characters : List Character) (c : Character) : WString :=
  if c.name ≠ [] then c.name
  else if (characters.countP fun c => c.name = []) = 1 ∧ ownName ≠ [] then ownName
  else wide "ID_" ++ hex c.id.toNat 8

theorem nameCharacters_eq (ownName : WString) (characters : List Character) :
    nameCharacters ownName characters =
      characters.map fun c => { c with name := label ownName characters c } := by
  have hsame : ∀ c : Character, c.name ≠ [] →
      { c with name := label ownName characters c } = c := by
    intro c hc
    rw [label, if_pos hc]
  rw [nameCharacters]
  by_cases hfill : (characters.countP fun c => c.name = []) = 1 ∧ ownName ≠ []
  · simp only [if_pos hfill, List.map_map]
    apply List.map_congr_left
    intro c _
    by_cases hc : c.name = []
    · rw [Function.comp_apply, if_pos hc, label, if_neg (not_not.mpr hc), if_pos hfill]
      exact if_neg hfill.2
    · rw [Function.comp_apply, if_neg hc, if_neg hc, hsame c hc]
  · simp only [if_neg hfill]
    apply List.map_congr_left
    intro c _
    by_cases hc : c.name = []
    · rw [if_pos hc, label, if_neg (not_not.mpr hc), if_neg hfill]
    · rw [if_neg hc, hsame c hc]

end Names

section Survey

def publish (ownName : WString) (found : List Character) : Except WString Listing :=
  if found = [] then
    .error (wide "주변 캐릭터를 찾지 못했습니다. 게임 화면에 접속한 뒤 다시 시도하세요.")
  else (jsonList (nameCharacters ownName found)).map fun json =>
    ⟨nameCharacters ownName found, json⟩

variable {C : Contract UserAns} {sys : Platform} {processId : DWord}
variable (B : Option ULongPtr → Prop) (R : ULongPtr → ULongPtr → Option ULong → Prop)
variable (W : ULongPtr → ULong → ULong → WString → Except WString (List Character) → Prop)

structure Start (imageBase : ULongPtr) (manager header root : ULong) : Prop where
  toBase : B (some imageBase)
  toManager : R imageBase (imageBase + otherCharacterNameOffset) (some manager)
  manager_ne : manager ≠ 0
  toHeader : Field (R imageBase) manager 0x34 (some header)
  header_ne : header ≠ 0
  toRoot : Field (R imageBase) header 4 (some root)
  root_ne : root ≠ 0

/-- All ways in which `ReadNearbyCharacters` can end. -/
inductive Finishes : Except WString Listing → Prop
  | noImage {error : WString} (h : B none) : Finishes (.error error)
  | noManager {error : WString} {imageBase : ULongPtr} {manager : Option ULong}
      (hbase : B (some imageBase))
      (hmanager : R imageBase (imageBase + otherCharacterNameOffset) manager)
      (h : manager.getD 0 = 0) : Finishes (.error error)
  | noHeader {error : WString} {imageBase : ULongPtr} {manager : ULong} {header : Option ULong}
      (hbase : B (some imageBase))
      (hmanager : R imageBase (imageBase + otherCharacterNameOffset) (some manager))
      (hheader : Field (R imageBase) manager 0x34 header) (h : header.getD 0 = 0) :
      Finishes (.error error)
  | noRoot {error : WString} {imageBase : ULongPtr} {manager header : ULong} {root : Option ULong}
      (hbase : B (some imageBase))
      (hmanager : R imageBase (imageBase + otherCharacterNameOffset) (some manager))
      (hheader : Field (R imageBase) manager 0x34 (some header))
      (hroot : Field (R imageBase) header 4 root) (h : root.getD 0 = 0) : Finishes (.error error)
  | walked {imageBase : ULongPtr} {manager header root : ULong} {ownName : WString}
      {found : Except WString (List Character)} (hstart : Start B R imageBase manager header root)
      (hfound : W imageBase header root ownName found) : Finishes (found >>= publish ownName)

theorem publish_eq_ok {ownName : WString} {found : List Character} {listing : Listing}
    (h : publish ownName found = .ok listing) :
    listing.characters = nameCharacters ownName found := by
  rw [publish] at h
  by_cases hempty : found = []
  · rw [if_pos hempty] at h
    cases h
  · rw [if_neg hempty] at h
    cases hjson : jsonList (nameCharacters ownName found) with
    | error e =>
      rw [hjson] at h
      cases h
    | ok json =>
      rw [hjson] at h
      obtain rfl := Except.ok.inj h
      rfl

variable {B R W}

attribute [local irreducible] readDword

/-- `ReadNearbyCharacters` from what is known of its parts; `J` holds until the names are read. -/
theorem wp_readNearbyCharacters_logged {J : Log UserAns → Prop}
    {V : ULongPtr → ULong → ULong → WString → Except WString (List Character) → Log UserAns → Prop}
    {l : Log UserAns}
    (hbase : wp C (findImageBase processId).run l fun r l' => B r.toOption ∧ J l')
    (hdword : ∀ imageBase address l, B (some imageBase) → J l →
      wp C (readDword sys processId imageBase address).run l fun r l' =>
        R imageBase address r.toOption ∧ J l')
    (hwalk : ∀ imageBase manager header root l, Start B R imageBase manager header root → J l →
      wp C (readOwnName sys processId) l fun ownName l' =>
        wp C (walkTree sys processId imageBase header root).run l' fun r l'' =>
          V imageBase header root ownName r l'') :
    wp C (readNearbyCharacters sys processId).run l fun r l' =>
      Finishes B R (fun imageBase header root ownName found => V imageBase header root ownName found l')
        r := by
  rw [readNearbyCharacters]
  refine wp_run_bind.mpr (wp_mono hbase fun r l₁ ⟨hr, h₁⟩ => ?_)
  cases r with
  | error e => exact .noImage hr
  | ok imageBase =>
  refine wp_run_bind.mpr (wp_mono (hdword _ _ _ hr h₁) fun manager l₂ ⟨hmanager, h₂⟩ => ?_)
  cases manager with
  | error e => exact .noManager hr hmanager rfl
  | ok manager =>
  refine wp_run_bind.mpr (wp_require.mpr ⟨fun hmanager_ne => ?_, fun hzero =>
    .noManager hr hmanager (not_not.mp hzero)⟩)
  refine wp_run_bind.mpr (wp_mono (hdword _ _ _ hr h₂) fun header l₃ ⟨hheader, h₃⟩ => ?_)
  cases header with
  | error e => exact .noHeader hr hmanager hheader rfl
  | ok header =>
  refine wp_run_bind.mpr (wp_require.mpr ⟨fun hheader_ne => ?_, fun hzero =>
    .noHeader hr hmanager hheader (not_not.mp hzero)⟩)
  refine wp_run_bind.mpr (wp_mono (hdword _ _ _ hr h₃) fun root l₄ ⟨hroot, h₄⟩ => ?_)
  cases root with
  | error e => exact .noRoot hr hmanager hheader hroot rfl
  | ok root =>
  refine wp_run_bind.mpr (wp_require.mpr ⟨fun hroot_ne => ?_, fun hzero =>
    .noRoot hr hmanager hheader hroot (not_not.mp hzero)⟩)
  have hstart : Start B R imageBase manager header root :=
    ⟨hr, hmanager, hmanager_ne, hheader, hheader_ne, hroot, hroot_ne⟩
  refine wp_run_bind.mpr (wp_run_lift.mpr (wp_mono (hwalk _ _ _ _ l₄ hstart h₄)
    fun ownName l₅ hownName => ?_))
  refine wp_run_bind.mpr (wp_mono hownName fun found l₆ hfound => ?_)
  have hend := Finishes.walked (W := fun imageBase header root ownName found =>
    V imageBase header root ownName found l₆) hstart hfound
  cases found with
  | error e => exact hend
  | ok found =>
    change Finishes B R _ (publish ownName found) at hend
    rw [publish] at hend
    refine wp_run_bind.mpr (wp_require.mpr ⟨fun hne => ?_, fun hempty => ?_⟩)
    · rw [if_neg hne] at hend
      change wp _ (ExceptT.run (ExceptT.mk (pure (jsonList _)) >>= _)) _ _
      rw [wp_run_bind]
      cases hjson : jsonList (nameCharacters ownName found) with
      | error e =>
        rw [hjson] at hend
        exact hend
      | ok json =>
        rw [hjson] at hend
        exact hend
    · rw [if_pos (not_not.mp hempty)] at hend
      exact hend

theorem wp_readNearbyCharacters {O : WString → Prop}
    {W : ULongPtr → ULong → ULong → Except WString (List Character) → Prop} {l : Log UserAns}
    (hbase : wp C (findImageBase processId).run l fun r _ => B r.toOption)
    (hdword : ∀ imageBase address l, B (some imageBase) →
      wp C (readDword sys processId imageBase address).run l fun r _ =>
        R imageBase address r.toOption)
    (hown : ∀ l, wp C (readOwnName sys processId) l fun ownName _ => O ownName)
    (hwalk : ∀ imageBase manager header root l, Start B R imageBase manager header root →
      wp C (walkTree sys processId imageBase header root).run l fun r _ =>
        W imageBase header root r) :
    wp C (readNearbyCharacters sys processId).run l fun r _ =>
      Finishes B R (fun imageBase header root ownName found =>
        O ownName ∧ W imageBase header root found) r :=
  wp_readNearbyCharacters_logged (J := fun _ => True)
    (V := fun imageBase header root ownName found _ => O ownName ∧ W imageBase header root found)
    (wp_mono hbase fun _ _ hr => ⟨hr, trivial⟩)
    (fun imageBase address l hr _ => wp_mono (hdword imageBase address l hr) fun _ _ h => ⟨h, trivial⟩)
    fun imageBase manager header root l hstart _ => wp_mono (hown l) fun _ l' hown =>
      wp_mono (hwalk imageBase manager header root l' hstart) fun _ _ hfound => ⟨hown, hfound⟩

end Survey

end DarkEden.Traversal
