import DarkEden.DirectRead
import DarkEden.Refusals

namespace DarkEden.NameRequests

open Interaction Protocol Client Engine EngineRules Traversal
open Target (AtMost acceptedText)

variable {sys : Platform}

section Names

/-! What the engine takes the texts for that it gets, if it gets any. -/

def decodeBytes (sys : Platform) (strict : Bool) (bytes : List Byte) : WString :=
  let utf8 := converted sys cpUtf8 mbErrInvalidChars bytes
  if bytes = [] then []
  else if utf8 ≠ [] then utf8
  else converted sys 949 (if strict then mbErrInvalidChars else 0) bytes

def ownNameFrom (sys : Platform) : Option (List Byte × Bool) → WString
  | some (bytes, _) => decodeBytes sys false bytes
  | none => []

def nameFrom (sys : Platform) : Option (List Byte × Bool) → WString
  | some (bytes, true) => decodeBytes sys true bytes
  | _ => []

theorem decodeText_eq (response : TextResponse) (strict : Bool) :
    decodeText sys response 1 strict = decodeBytes sys strict
      ((List.range response.bytesRead.toNat).map (byteAt response.data)) := by
  have hwide : (1 : ULong) ≠ 2 := by decide
  have hempty : (List.range response.bytesRead.toNat).map (byteAt response.data) = [] ↔
      response.bytesRead.toNat = 0 := by
    rw [List.map_eq_nil_iff, List.range_eq_nil]
  rw [decodeText, if_neg hwide, decodeBytes]
  simp only [hempty]

theorem ownNameFrom_eq (sys : Platform) (own : Outcome TextResponse) :
    (if own.ok then decodeText sys own.response 1 false else []) =
      ownNameFrom sys (acceptedText own) := by
  rw [acceptedText]
  by_cases hok : own.ok
  · rw [if_pos hok, if_pos hok, decodeText_eq]
    rfl
  · rw [if_neg hok, if_neg hok]
    rfl

theorem nameFrom_eq (sys : Platform) (name : Outcome TextResponse) :
    (if name.ok ∧ name.response.terminated ≠ 0 ∧ name.response.bytesRead > 0 then
      decodeText sys name.response 1 true else []) = nameFrom sys (acceptedText name) := by
  rw [acceptedText]
  by_cases hok : name.ok
  swap
  · rw [if_neg fun hc => hok hc.1, if_neg hok]
    rfl
  rw [if_pos hok]
  by_cases hset : name.response.terminated ≠ 0
  swap
  · rw [if_neg fun hc => hset hc.2.1, decide_eq_false hset]
    rfl
  rw [decide_eq_true hset]
  change _ = decodeBytes sys true _
  rw [← decodeText_eq]
  by_cases hread : name.response.bytesRead > 0
  · exact if_pos ⟨hok, hset, hread⟩
  · have hwide : (1 : ULong) ≠ 2 := by decide
    have hnone : name.response.bytesRead.toNat = 0 := by
      rw [gt_iff_lt, BitVec.lt_def, Nat.not_lt] at hread
      exact Nat.le_zero.mp hread
    rw [if_neg fun hc => hread hc.2.2, decodeText, if_neg hwide]
    exact (if_pos hnone).symm

end Names

section Texts

/-! The texts that a run asks for. -/

/-- The offset from the image base that a call asks about, and the text that the client takes from
the answer. -/
def textCall (sys : Platform) : (o : UserOp) → UserAns o →
    Option (ULongPtr × Option (List Byte × Bool))
  | .api _, _ => none
  | .deviceIoControl command input _ _, reply =>
    let request := TextRequest.decode input
    if command = Protocol.readText then
      some (request.baseAddress, acceptedText (readTextReply sys request reply))
    else none

def texts (sys : Platform) (calls : Log UserAns) : List (ULongPtr × Option (List Byte × Bool)) :=
  calls.filterMap fun e => textCall sys e.1 e.2

theorem texts_append (l : Log UserAns) (o : UserOp) (x : UserAns o) :
    texts sys (l ++ [⟨o, x⟩]) = texts sys l ++ (textCall sys o x).toList := by
  rw [texts, List.filterMap_append]
  cases h : textCall sys o x <;> simp [texts, h]

theorem textCall_readText (request : TextRequest) (inputLength outputLength : ULong)
    (reply : IoctlResult) :
    textCall sys (.deviceIoControl Protocol.readText request.encode inputLength outputLength) reply =
      some (request.baseAddress, acceptedText (readTextReply sys request reply)) := by
  simp only [textCall, if_true, TextRequest.decode_encode]

def Textless (sys : Platform) (o : UserOp) : Prop := ∀ x, textCall sys o x = none

theorem textless_of_api {o : UserOp} (h : ∃ a, o = UserOp.api a) : Textless sys o := by
  obtain ⟨a, rfl⟩ := h
  exact fun _ => rfl

theorem wp_textless {C : Contract UserAns} {α : Type} {p : User α} (hp : Uses (Textless sys) p)
    {l : Log UserAns} {Q : α → Log UserAns → Prop} (h : wp C p l Q) :
    wp C p l fun a l' => Q a l' ∧ texts sys l' = texts sys l := by
  induction p generalizing l with
  | done a => exact ⟨h, rfl⟩
  | call o next ih =>
    refine ⟨h.1, fun x hx => wp_mono (ih x (hp.2 x) (h.2 x hx)) fun a l' ⟨ha, hl'⟩ => ⟨ha, ?_⟩⟩
    rw [hl', texts_append, hp.1 x]
    exact List.append_nil _

variable (sys) (processId : DWord) (base : ULongPtr)

theorem readDword_textless (address : ULongPtr) :
    Uses (Textless sys) (readDword sys processId base address).run := by
  refine uses_mono (fun o ho => ?_) (DirectRead.readDword_uses sys processId base address)
  cases o with
  | api a => exact fun _ => rfl
  | deviceIoControl command input inputLength outputLength =>
    have hcommand : readCoordinates ≠ Protocol.readText := by decide
    exact fun _ => if_neg fun hc => hcommand (ho.1.symm.trans hc)

-- What a read comes to is said by its rules; its range check is not to be computed.
attribute [local irreducible] readDword

theorem attempt_textless (pointer : ULong) (offset : ULongPtr) :
    Uses (Textless sys) (attempt (Engine.readField sys processId base pointer offset)) :=
  uses_bind (readDword_textless sys processId base _) fun _ => uses_pure _

theorem readRace_textless (actor : ULong) :
    Uses (Textless sys) (readRace sys processId base actor) := by
  refine uses_bind (attempt_textless sys processId base actor 0x558) fun raceFlag => ?_
  cases raceFlag with
  | none => exact uses_pure _
  | some raceFlag =>
    refine uses_bind (attempt_textless sys processId base actor 0x610) fun raceKind => ?_
    cases raceKind <;> exact uses_pure _

theorem readLife_textless (actor : ULong) :
    Uses (Textless sys) (readLife sys processId base actor) := by
  refine uses_bind (attempt_textless sys processId base actor 0x548) fun lifeFlag => ?_
  cases lifeFlag <;> exact uses_pure _

theorem pushChild_textless (header node child : ULong) (walk : Walk) :
    Uses (Textless sys) (pushChild sys processId base header node child walk) :=
  uses_ite (fun _ => uses_pure _) fun _ =>
    uses_bind (attempt_textless sys processId base child 4) fun _ => uses_pure _

end Texts

section Traversal

variable {C : Contract UserAns} {processId : DWord} {base : ULongPtr}
variable {R : ULongPtr → Option ULong → Prop}
variable {B : ULongPtr → Option (List Byte × Bool) → Prop}

def nameOffset (base : ULongPtr) (actor : ULong) : ULongPtr := actor.setWidth 64 + 0x544 - base

/-- The actor whose name is asked for, and the text that comes. -/
structure Naming where
  actor : ULong
  text : Option (List Byte × Bool)
  deriving DecidableEq

def Naming.call (base : ULongPtr) (n : Naming) : ULongPtr × Option (List Byte × Bool) :=
  (nameOffset base n.actor, n.text)

/-- What the reads of dwords and of texts may come back with. Nothing is read up to the image base. -/
structure Hears (C : Contract UserAns) (sys : Platform) (processId : DWord) (base : ULongPtr)
    (R : ULongPtr → Option ULong → Prop) (B : ULongPtr → Option (List Byte × Bool) → Prop) :
    Prop where
  dword : ∀ address l, wp C (readDword sys processId base address).run l fun r _ =>
    R address r.toOption
  above : ∀ address value, R address (some value) → base < address
  text : ∀ offset l, offset ≠ 0 →
    wp C (Client.readText sys processId (textRequest processId offset)) l fun outcome l' =>
      texts sys l' = texts sys l ++ [(offset, acceptedText outcome)] ∧ B offset (acceptedText outcome)

/-- Between two logs the names of these actors were asked for, which these characters have. -/
structure Named (sys : Platform) (base : ULongPtr)
    (B : ULongPtr → Option (List Byte × Bool) → Prop) (l l' : Log UserAns) (actors : List ULong)
    (characters : List Character) (namings : List Naming) : Prop where
  asked : texts sys l' = texts sys l ++ namings.map (Naming.call base)
  told : ∀ n ∈ namings, B (nameOffset base n.actor) n.text
  actors : namings.map Naming.actor = actors
  names : characters.map Character.name = namings.map fun n => nameFrom sys n.text

theorem named_nil {l l' : Log UserAns} (h : texts sys l' = texts sys l) :
    Named sys base B l l' [] [] [] :=
  ⟨h.trans (List.append_nil _).symm, nofun, rfl, rfl⟩

theorem Named.append {l l' l'' : Log UserAns} {actors actors' : List ULong}
    {characters characters' : List Character} {namings namings' : List Naming}
    (h : Named sys base B l l' actors characters namings)
    (h' : Named sys base B l' l'' actors' characters' namings') :
    Named sys base B l l'' (actors ++ actors') (characters ++ characters') (namings ++ namings') where
  asked := by rw [h'.asked, h.asked, List.map_append, List.append_assoc]
  told := List.forall_mem_append.mpr ⟨h.told, h'.told⟩
  actors := by rw [List.map_append, h.actors, h'.actors]
  names := by rw [List.map_append, List.map_append, h.names, h'.names]

variable (h : Hears C sys processId base R B) {l : Log UserAns}

attribute [local irreducible] readDword

include h

theorem Hears.readOwnName (l : Log UserAns) :
    wp C (readOwnName sys processId) l fun name l' => ∃ own,
      texts sys l' = texts sys l ++ [(defaultTextOffset, own)] ∧ B defaultTextOffset own ∧
        name = ownNameFrom sys own := by
  have hoffset : defaultTextOffset ≠ 0 := by decide
  rw [Engine.readOwnName, wp_bind]
  exact wp_mono (h.text _ l hoffset) fun own _ ⟨hasked, htold⟩ =>
    ⟨_, hasked, htold, ownNameFrom_eq sys own⟩

theorem Hears.readName {actor : ULong} (hlow : base < actor.setWidth 64 + 0x544) (l : Log UserAns) :
    wp C (readName sys processId base actor) l fun name l' => ∃ text,
      texts sys l' = texts sys l ++ [(nameOffset base actor, text)] ∧ B (nameOffset base actor) text ∧
        name = nameFrom sys text := by
  have hoffset : nameOffset base actor ≠ 0 := by
    rw [nameOffset]
    bv_omega
  rw [Engine.readName, wp_bind]
  exact wp_mono (h.text _ l hoffset) fun name _ ⟨hasked, htold⟩ =>
    ⟨_, hasked, htold, nameFrom_eq sys name⟩

theorem Hears.name_above {actor id packed : ULong} (haccepted : Accepted R actor id packed) :
    base < actor.setWidth 64 + 0x544 := by
  have hid := h.above _ _ haccepted.readId
  bv_omega

theorem Hears.reads : Reads C sys processId base R fun _ _ => True where
  dword := h.dword
  name _ _ _ l haccepted := wp_mono (h.readName (h.name_above haccepted) l) fun _ _ _ => trivial

theorem Hears.attempt (pointer : ULong) (offset : ULongPtr) (l : Log UserAns) :
    wp C (attempt (Engine.readField sys processId base pointer offset)) l fun r l' =>
      Field R pointer offset r ∧ texts sys l' = texts sys l :=
  wp_textless (attempt_textless sys processId base pointer offset) (h.reads.attempt pointer offset l)

theorem Hears.readCharacter (key actor : ULong) (seenActors : List ULong) (l : Log UserAns) :
    wp C (Engine.readCharacter sys processId base key actor seenActors) l fun found l' =>
      ∃ namings, Named sys base B l l' (found.map fun _ => actor).toList found.toList namings := by
  rw [Engine.readCharacter, wp_ite]
  refine ⟨fun _ => ⟨[], named_nil rfl⟩, fun hfresh => ?_⟩
  rw [wp_bind]
  refine wp_mono (h.attempt actor 8 l) fun id l₁ hattempt => ?_
  obtain ⟨hid, h₁⟩ := hattempt
  cases id with
  | none => exact ⟨[], named_nil h₁⟩
  | some id =>
    change wp _ (Engine.attempt _ >>= _) _ _
    rw [wp_bind]
    refine wp_mono (h.attempt actor 0x0C l₁) fun packed l₂ hattempt => ?_
    obtain ⟨-, h₂⟩ := hattempt
    cases packed with
    | none => exact ⟨[], named_nil (h₂.trans h₁)⟩
    | some packed =>
      have hlow : base < actor.setWidth 64 + 0x544 := by
        have habove := h.above _ _ hid
        bv_omega
      change wp _ (ite _ _ _) _ _
      rw [wp_ite]
      refine ⟨fun _ => ⟨[], named_nil (h₂.trans h₁)⟩, fun _ => ?_⟩
      rw [wp_bind]
      refine wp_mono (wp_textless (readRace_textless sys processId base actor)
        (h.reads.readRace actor l₂)) fun race l₃ hrace => ?_
      rw [wp_bind]
      refine wp_mono (wp_textless (readLife_textless sys processId base actor)
        (h.reads.readLife actor l₃)) fun life l₄ hlife => ?_
      rw [wp_bind]
      refine wp_mono (h.readName hlow l₄) fun name l₅ hreply => ?_
      obtain ⟨text, hasked, htold, hname⟩ := hreply
      have hnames : [name] = [nameFrom sys text] := congrArg (fun n => [n]) hname
      refine ⟨[⟨actor, text⟩], ?_, List.forall_mem_singleton.mpr htold, rfl, hnames⟩
      rw [hasked, hlife.2, hrace.2, h₂, h₁]
      rfl

def Accounted (sys : Platform) (base : ULongPtr) (B : ULongPtr → Option (List Byte × Bool) → Prop)
    (l₀ : Log UserAns) (walk : Walk) (l : Log UserAns) : Prop :=
  ∃ namings, Named sys base B l₀ l walk.seenActors.reverse walk.characters namings

omit h in
theorem Accounted.textless {l₀ l l' : Log UserAns} {walk walk' : Walk}
    (hwalk : Accounted sys base B l₀ walk l) (hactors : walk'.seenActors = walk.seenActors)
    (hcharacters : walk'.characters = walk.characters) (hl : texts sys l' = texts sys l) :
    Accounted sys base B l₀ walk' l' := by
  obtain ⟨namings, hnamed⟩ := hwalk
  have happend := hnamed.append (named_nil hl)
  rw [List.append_nil, List.append_nil, List.append_nil] at happend
  exact ⟨namings, hactors ▸ hcharacters ▸ happend⟩

theorem Hears.readField_bind {α : Type} {pointer : ULong} {offset : ULongPtr}
    {f : ULong → Fallible α} {Q : Except WString α → Log UserAns → Prop}
    (herror : ∀ e l', Q (.error e) l')
    (hvalue : ∀ value l', texts sys l' = texts sys l → wp C (f value).run l' Q) :
    wp C (Engine.readField sys processId base pointer offset >>= f).run l Q := by
  refine wp_run_bind.mpr (wp_mono (wp_textless (readDword_textless sys processId base _)
    (h.dword _ l)) fun r l' ⟨_, hl'⟩ => ?_)
  cases r with
  | error e => exact herror e l'
  | ok value => exact hvalue value l' hl'

theorem Hears.visit {l₀ : Log UserAns} {header : ULong} {walk : Walk} {l : Log UserAns}
    (hwalk : Accounted sys base B l₀ walk l) :
    wp C (Engine.visit sys processId base header walk).run l fun r l' => ∀ s, r = .ok s →
      Accounted sys base B l₀ (s.elim id fun _ => walk) l' := by
  have fails : ∀ (error : WString) (l' : Log UserAns) (s : Walk ⊕ List Character),
      (.error error : Except WString _) = .ok s →
        Accounted sys base B l₀ (s.elim id fun _ => walk) l' := by
    rintro error l' s ⟨⟩
  rw [Engine.visit]
  cases htop : walk.pending with
  | nil =>
    rintro s ⟨⟩
    exact hwalk
  | cons node rest =>
    change wp _ (ExceptT.run (ite _ _ _)) _ _
    by_cases hpassed : Passed header node walk.seenNodes
    · rw [if_pos hpassed]
      rintro s ⟨⟩
      exact hwalk.textless rfl rfl rfl
    rw [if_neg hpassed]
    refine wp_run_bind.mpr (wp_require.mpr ⟨fun hroom => ?_, fun hfull => fails _ _⟩)
    apply h.readField_bind fails
    intro left l₁ h₁
    apply h.readField_bind fails
    intro right l₂ h₂
    apply h.readField_bind fails
    intro key l₃ h₃
    apply h.readField_bind fails
    intro actor l₄ h₄
    refine wp_run_bind.mpr (wp_run_lift.mpr (wp_mono (wp_textless
      (pushChild_textless sys processId base header node right _) (h.reads.pushChild node right _ l₄))
      fun walk₁ l₅ hpushed => ?_))
    obtain ⟨⟨pushed₁, -, hwalk₁⟩, h₅⟩ := hpushed
    refine wp_run_bind.mpr (wp_run_lift.mpr (wp_mono (wp_textless
      (pushChild_textless sys processId base header node left _) (h.reads.pushChild node left walk₁ l₅))
      fun walk₂ l₆ hpushed => ?_))
    obtain ⟨⟨pushed₂, -, hwalk₂⟩, h₆⟩ := hpushed
    have hpushed : Accounted sys base B l₀ walk₂ l₆ := by
      subst hwalk₁ hwalk₂
      exact hwalk.textless rfl rfl (by rw [h₆, h₅, h₄, h₃, h₂, h₁])
    refine wp_run_bind.mpr (wp_run_lift.mpr (wp_mono (h.readCharacter key actor _ l₆)
      fun found l₇ hread => ?_))
    obtain ⟨new, hnew⟩ := hread
    obtain ⟨namings, hnamed⟩ := hpushed
    have happend := hnamed.append hnew
    cases found with
    | none =>
      rintro s ⟨⟩
      rw [Option.map_none, Option.toList_none, Option.toList_none, List.append_nil,
        List.append_nil] at happend
      exact ⟨_, happend⟩
    | some character =>
      rintro s ⟨⟩
      refine ⟨namings ++ new, ?_⟩
      rw [Sum.elim_inl, id, List.reverse_cons]
      exact happend

theorem Hears.walkTree {K : Walk → Prop} {header root : ULong} (hstart : K ⟨[root], [], [], []⟩)
    (hstep : ∀ walk walk', K walk →
      Pass R (fun _ _ => True) header walk (.ok (.inl walk')) → K walk') (l : Log UserAns) :
    wp C (walkTree sys processId base header root).run l fun r l' => ∀ found, r = .ok found →
      ∃ walk, K walk ∧ walk.pending = [] ∧ walk.characters = found ∧
        Accounted sys base B l walk l' := by
  refine wp_mono (h.reads.walkTree_logged
    (J := fun walk l' => K walk ∧ Accounted sys base B l walk l')
    ⟨hstart, [], named_nil rfl⟩ fun walk l' ⟨hK, hwalk⟩ => ?_) fun r l' hr found hfound => ?_
  · refine wp_mono (wp_and (h.reads.visit walk l') (h.visit hwalk)) fun r l'' ⟨hpass, hvisit⟩ s hs => ?_
    refine ⟨?_, hvisit s hs⟩
    subst hs
    cases s with
    | inl walk' => exact hstep _ _ hK hpass
    | inr found => exact hK
  · obtain ⟨walk, -, hJ, hpass⟩ := hr
    obtain ⟨hK, hwalk⟩ := hJ found hfound
    subst hfound
    cases hpass with
    | stop hempty => exact ⟨walk, hK, hempty, rfl, hwalk⟩

omit h in
theorem Named.entries {N : ULong → WString → Prop} {l l' : Log UserAns} {actors : List ULong}
    {characters : List Character} {namings : List Naming}
    (h : Named sys base B l l' actors characters namings)
    (hdescribed : List.Forall₂ (Describes R N) actors characters) :
    List.Forall₂ (fun n c => c.name = nameFrom sys n.text ∧ ∃ packed, Accepted R n.actor c.id packed)
      namings characters := by
  have hnames := h.names
  rw [← h.actors] at hdescribed
  clear h
  induction namings generalizing characters with
  | nil =>
    cases hdescribed
    exact .nil
  | cons n namings ih =>
    cases hdescribed with
    | cons hc hrest =>
      obtain ⟨hname, hnames⟩ := List.cons.inj hnames
      obtain ⟨-, packed, haccepted, -⟩ := hc
      exact .cons ⟨hname, packed, haccepted⟩ (ih hrest hnames)

end Traversal

section Listing

variable {C : Contract UserAns} {processId : DWord} {S : Option ULongPtr → Prop}
variable {R : ULongPtr → ULongPtr → Option ULong → Prop}
variable {B : ULongPtr → Option (List Byte × Bool) → Prop}

/-- What a run has asked for that comes back with a list, and what it has made of it. -/
structure Heard (sys : Platform) (base : ULongPtr) (R : ULongPtr → Option ULong → Prop)
    (B : ULongPtr → Option (List Byte × Bool) → Prop) (calls : Log UserAns)
    (own : Option (List Byte × Bool)) (namings : List Naming) (listing : Listing) : Prop where
  asked : texts sys calls = (defaultTextOffset, own) :: namings.map (Naming.call base)
  own_told : B defaultTextOffset own
  told : ∀ n ∈ namings, B (nameOffset base n.actor) n.text
  nodup : (namings.map Naming.actor).Nodup
  entries : ∃ found, listing.characters = nameCharacters (ownNameFrom sys own) found ∧
    List.Forall₂ (fun n c => c.name = nameFrom sys n.text ∧ ∃ packed, Accepted R n.actor c.id packed)
      namings found

/-- `ReadNearbyCharacters` asks for the own name, then for the name of each character it lists. -/
theorem wp_heard {K : ULongPtr → ULong → ULong → Walk → Prop}
    (hbase : wp C (findImageBase processId).run [] fun r _ => S r.toOption)
    (hdword : ∀ base address l, S (some base) →
      wp C (readDword sys processId base address).run l fun r _ => R base address r.toOption)
    (hears : ∀ base manager header root, Start S R base manager header root →
      Hears C sys processId base (R base) B)
    (hstart : ∀ base header root, K base header root ⟨[root], [], [], []⟩)
    (hstep : ∀ base header root walk walk', K base header root walk →
      Pass (R base) (fun _ _ => True) header walk (.ok (.inl walk')) → K base header root walk') :
    wp C (readNearbyCharacters sys processId).run [] fun r l => ∀ listing, r = .ok listing →
      ∃ base manager header root own namings walk, Start S R base manager header root ∧
        Heard sys base (R base) B l own namings listing ∧ K base header root walk ∧
        walk.pending = [] ∧ namings.map Naming.actor = walk.seenActors.reverse := by
  refine wp_mono (wp_readNearbyCharacters_logged (J := fun l => texts sys l = [])
    (V := fun base header root ownName found l => ∀ characters, found = .ok characters →
      ∃ own walk l₁, ownName = ownNameFrom sys own ∧ B defaultTextOffset own ∧
        texts sys l₁ = [(defaultTextOffset, own)] ∧
        (K base header root walk ∧ Collected (R base) (fun _ _ => True) walk) ∧
        walk.pending = [] ∧ walk.characters = characters ∧ Accounted sys base B l₁ walk l)
    (wp_mono (wp_textless (uses_mono (fun _ => textless_of_api) (findImageBase_api processId)) hbase)
      fun _ _ h => h)
    (fun base address l hs hl => wp_mono (wp_textless (readDword_textless sys processId base address)
      (hdword base address l hs)) fun _ _ ⟨hr, hl'⟩ => ⟨hr, hl'.trans hl⟩)
    fun base manager header root l hstarts hl => ?_) fun r l hr listing hlisting => ?_
  · have h := hears base manager header root hstarts
    refine wp_mono (h.readOwnName l) fun ownName l₁ ⟨own, hasked, htold, hown⟩ => ?_
    refine wp_mono (h.walkTree
      (K := fun walk => K base header root walk ∧ Collected (R base) (fun _ _ => True) walk)
      ⟨hstart base header root, collected_nil _⟩
      (fun walk walk' hK hpass => ⟨hstep _ _ _ _ _ hK.1 hpass, hK.2.pass hpass⟩) l₁)
      fun r l' hr characters hcharacters => ?_
    obtain ⟨walk, hK, hempty, hfound, hwalk⟩ := hr characters hcharacters
    rw [hl] at hasked
    exact ⟨own, walk, l₁, hown, htold, hasked, hK, hempty, hfound, hwalk⟩
  · subst hlisting
    generalize hok : (Except.ok listing : Except WString Listing) = r at hr
    cases hr with
    | @walked base manager header root ownName found hstarts hfound =>
      cases found with
      | error error => cases hok
      | ok found =>
        obtain ⟨own, walk, l₁, rfl, htold, hasked, ⟨hK, hcollected⟩, hempty, rfl, namings, hnamed⟩ :=
          hfound found rfl
        refine ⟨base, manager, header, root, own, namings, walk, hstarts, ⟨?_, htold, hnamed.told, ?_,
          _, publish_eq_ok hok.symm, hnamed.entries hcollected.described⟩, hK, hempty, hnamed.actors⟩
        · rw [hnamed.asked, hasked]
          rfl
        · rw [hnamed.actors]
          exact List.nodup_reverse.mpr hcollected.nodup
    | _ => cases hok

end Listing

end DarkEden.NameRequests
