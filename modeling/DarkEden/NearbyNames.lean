import DarkEden.NameRequests
import DarkEden.NearbyGraph

namespace DarkEden.NearbyNames

open Interaction Preorder Protocol Client Engine EngineRules Traversal NearbyGraph NameRequests
open Target (AtMost atMost_of_eq acceptedText)

variable {sys : Platform} {T : Target sys} {process client : PEProcess} {processId : DWord}
variable {base : ULongPtr} {manager header root : ULong}

section Memory

/-! What the texts of a memory that does not change are taken for. -/

variable (T process)

def ownNameOf : WString := ownNameFrom sys (T.textAt process defaultTextOffset)

def namePointer (base : ULongPtr) (actor : ULong) : Option ULong :=
  T.pointerAt process (nameOffset base actor)

/-- The decoding of the string at the name pointer, empty where there is none. -/
def nameOf (base : ULongPtr) (actor : ULong) : WString :=
  nameFrom sys (T.textAt process (nameOffset base actor))

theorem namePointer_agrees {actor : ULong} (hready : T.ready ⟨process⟩)
    (hlow : sys.psGetProcessSectionBaseAddress process < actor.setWidth 64 + 0x544)
    (hbase : sys.psGetProcessSectionBaseAddress process ≠ 0) :
    namePointer T process (sys.psGetProcessSectionBaseAddress process) actor =
      T.field actor 0x544 := by
  have hsum : sys.psGetProcessSectionBaseAddress process +
      (actor.setWidth 64 + 0x544 - sys.psGetProcessSectionBaseAddress process) =
        actor.setWidth 64 + 0x544 := by bv_omega
  rw [namePointer, nameOffset, Target.pointerAt, hsum, Target.field]
  apply Option.ext
  intro pointer
  rw [Option.ite_none_right_eq_some]
  refine ⟨fun h => h.2, fun h => ⟨⟨hready, hbase, ?_⟩, h⟩⟩
  have hle := le_of_dword h
  bv_omega

variable {T process}

theorem nameFrom_eq_nameOf {n : Naming} (h : AtMost (T.textAt process (nameOffset base n.actor)) n.text)
    (hname : nameFrom sys n.text ≠ []) : nameFrom sys n.text = nameOf T process base n.actor := by
  cases htext : n.text with
  | none =>
    rw [htext] at hname
    exact absurd rfl hname
  | some text => rw [nameOf, h text htext]

end Memory

section Requests

theorem wp_readText_of {C : Contract UserAns} {B : ULongPtr → Option (List Byte × Bool) → Prop}
    (hguar : ∀ l, C.guar l (.api (.createFileW genericRead)) ∧ ∀ request, C.guar l
      (.deviceIoControl Protocol.readText request sizeofTextRequest sizeofTextResponse))
    (hopen : ∀ l x, C.rely l (.api (.createFileW genericRead)) x → x = none)
    (hreply : ∀ l command input inputLength outputLength request x,
      Target.AsksText command input inputLength outputLength request →
      C.rely l (.deviceIoControl command input inputLength outputLength) x →
      B request.baseAddress (acceptedText (readTextReply sys request x)))
    (hpid : processId ≠ 0) {offset : ULongPtr} (hoffset : offset ≠ 0) (l : Log UserAns) :
    wp C (Client.readText sys processId (textRequest processId offset)) l fun outcome l' =>
      texts sys l' = texts sys l ++ [(offset, acceptedText outcome)] ∧
        B offset (acceptedText outcome) := by
  have hvalid : validTextRequest (textRequest processId offset) := by
    obtain ⟨hwide, hsmall⟩ := widened_processId hpid
    have hnarrow : (1 : ULong) ≤ 1 ∧ (1 : ULong) ≤ 2 ∧ (0 : ULong) ≤ 1 := by decide
    exact decide_eq_true ⟨rfl, rfl, hwide, hsmall, hoffset, hnarrow⟩
  have hsame : { textRequest processId offset with processId := processId.setWidth 64 } =
      textRequest processId offset := rfl
  rw [Client.readText, hsame, if_neg (by simpa using hvalid)]
  refine wp_ask_bind.mpr ⟨(hguar _).1, fun opened hopened => ?_⟩
  obtain rfl := hopen _ _ hopened
  refine wp_ask_bind.mpr ⟨(hguar _).2 _, fun reply hrelied => ?_⟩
  refine ⟨?_, hreply _ _ _ _ _ _ _ ⟨rfl, rfl, rfl, rfl, hvalid, rfl, rfl⟩ hrelied⟩
  rw [texts_append, texts_append, textCall_readText]
  exact congrArg (· ++ _) (List.append_nil _)

theorem low_of_sight {address : ULongPtr} {value : ULong}
    (h : sight T process processId base address = some value) : base < address := by
  rw [sight, Option.ite_none_right_eq_some] at h
  exact h.1.2.2.1

theorem readText_guar : Protocol.readText ≠ selectTarget := by decide

theorem hears_refusing (hpid : processId ≠ 0) (hopen : T.api (.createFileW genericRead) = none) :
    Hears (T.refusing process) sys processId base
      (fun address => AtMost (sight T process processId base address))
      fun offset => AtMost (T.textAt process offset) where
  dword := Target.wp_readDword_refusing processId base
  above _ value h := low_of_sight (h value rfl)
  text _ l hoffset := wp_readText_of (C := T.refusing process)
    (B := fun offset => AtMost (T.textAt process offset)) (fun _ => ⟨trivial, fun _ => readText_guar⟩)
    (fun _ _ hx => Eq.trans hx hopen) (fun _ _ _ _ _ _ _ hasks hx => hx.2 _ hasks) hpid hoffset l

theorem hears_told (hpid : processId ≠ 0) (hopen : T.api (.createFileW genericRead) = none) :
    Hears (T.told process) sys processId base (reads (sight T process processId base))
      fun offset text => text = T.textAt process offset where
  dword address l := Target.wp_told (wp_readDword_sight processId base address l)
  above _ _ h := low_of_sight (Eq.symm h)
  text _ l hoffset := wp_readText_of (C := T.told process)
    (B := fun offset text => text = T.textAt process offset)
    (fun _ => ⟨trivial, fun _ => readText_guar⟩) (fun _ _ hx => Eq.trans hx.1 hopen)
    (fun _ _ _ _ _ _ _ hasks hx => hx.2 _ hasks) hpid hoffset l

end Requests

section Listing

/-- The names that a run asks for, whatever comes of it: its own, then that of the actor of each
entry. -/
structure Asked (T : Target sys) (process : PEProcess) (base : ULongPtr) (calls : Log UserAns)
    (own : Option (List Byte × Bool)) (namings : List Naming) : Prop where
  calls : texts sys calls = (defaultTextOffset, own) :: namings.map (Naming.call base)
  own : AtMost (T.textAt process defaultTextOffset) own
  names : ∀ n ∈ namings, AtMost (T.textAt process (nameOffset base n.actor)) n.text
  nodup : (namings.map Naming.actor).Nodup

/-- The fallback labels the entry with the name of the player. -/
def FallsBack (sys : Platform) (own : Option (List Byte × Bool)) (namings : List Naming) (n : Naming) :
    Prop :=
  nameFrom sys n.text = [] ∧ (namings.countP fun n => nameFrom sys n.text = []) = 1 ∧
    ownNameFrom sys own ≠ []

instance (own : Option (List Byte × Bool)) (namings : List Naming) (n : Naming) :
    Decidable (FallsBack sys own namings n) :=
  inferInstanceAs (Decidable (_ ∧ _ ∧ _))

def labelOf (sys : Platform) (own : Option (List Byte × Bool)) (namings : List Naming) (n : Naming)
    (id : ULong) : WString :=
  if nameFrom sys n.text ≠ [] then nameFrom sys n.text
  else if FallsBack sys own namings n then ownNameFrom sys own
  else wide "ID_" ++ hex id.toNat 8

def Published (T : Target sys) (process : PEProcess) (processId : DWord) (base : ULongPtr)
    (own : Option (List Byte × Bool)) (namings : List Naming) (listing : Listing) : Prop :=
  List.Forall₂ (fun n c => c.name = labelOf sys own namings n c.id ∧
    ∃ packed, Accepted (reads (sight T process processId base)) n.actor c.id packed)
    namings listing.characters

/-- An entry whose name pointer is not zero has the name found there or is called by its id, and
the fallback names at most one entry, whose name pointer is zero. -/
structure OwnNameKept (T : Target sys) (process : PEProcess) (base : ULongPtr)
    (own : Option (List Byte × Bool)) (namings : List Naming) (characters : List Character) :
    Prop where
  labelled : List.Forall₂ (fun n c => ∀ pointer,
    namePointer T process base n.actor = some pointer → pointer ≠ 0 →
      ¬FallsBack sys own namings n ∧
        (c.name = nameOf T process base n.actor ∨ c.name = wide "ID_" ++ hex c.id.toNat 8))
    namings characters
  once : ∀ n ∈ namings, ∀ m ∈ namings, FallsBack sys own namings n → FallsBack sys own namings m →
    n = m
  zero : ∀ n ∈ namings, FallsBack sys own namings n → namePointer T process base n.actor = some 0

/-- The own name came, exactly one of the characters got no name, and the name pointer of that one
is not zero. -/
def Misnames (T : Target sys) (process : PEProcess) (base : ULongPtr)
    (own : Option (List Byte × Bool)) (namings : List Naming) : Prop :=
  ownNameFrom sys own ≠ [] ∧ ∃ n, namePointer T process base n.actor ≠ some 0 ∧
    namings.filter (fun n => nameFrom sys n.text = []) = [n]

variable {R : ULongPtr → Option ULong → Prop} {B : ULongPtr → Option (List Byte × Bool) → Prop}
variable {own : Option (List Byte × Bool)} {namings : List Naming} {listing : Listing}

theorem published_of_heard {calls : Log UserAns}
    (h : Heard sys base R B calls own namings listing)
    (hR : ∀ address value, R address (some value) →
      sight T process processId base address = some value) :
    Published T process processId base own namings listing := by
  obtain ⟨found, hpublished, hentries⟩ := h.entries
  have hnames : found.map Character.name = namings.map fun n => nameFrom sys n.text := by
    clear hpublished h
    induction hentries with
    | nil => rfl
    | cons hc _ ih => rw [List.map_cons, List.map_cons, hc.1, ih]
  have hcount : (found.countP fun c => c.name = []) =
      namings.countP fun n => nameFrom sys n.text = [] := by
    have h := congrArg (List.countP fun name => name = []) hnames
    rwa [List.countP_map, List.countP_map] at h
  have hlabel : ∀ {n : Naming} {c : Character}, c.name = nameFrom sys n.text →
      label (ownNameFrom sys own) found c = labelOf sys own namings n c.id := by
    intro n c hc
    rw [label, labelOf, hc, hcount]
    by_cases hempty : nameFrom sys n.text = []
    · have hfalls : FallsBack sys own namings n ↔
          (namings.countP fun n => nameFrom sys n.text = []) = 1 ∧ ownNameFrom sys own ≠ [] :=
        ⟨fun h => h.2, fun h => ⟨hempty, h⟩⟩
      rw [if_neg (not_not.mpr hempty), if_neg (not_not.mpr hempty)]
      simp only [hfalls]
    · rw [if_pos hempty, if_pos hempty]
  rw [Published, hpublished, nameCharacters_eq, List.forall₂_map_right_iff]
  refine hentries.imp fun n c hentry => ?_
  obtain ⟨hname, packed, haccepted⟩ := hentry
  refine ⟨hlabel hname, packed, ?_⟩
  exact ⟨haccepted.actor_ne, (hR _ _ haccepted.readId).symm, (hR _ _ haccepted.readPacked).symm,
    haccepted.id_ne, haccepted.x_lt, haccepted.y_lt⟩

theorem asked_of_heard {calls : Log UserAns}
    (h : Heard sys base R B calls own namings listing)
    (hB : ∀ offset text, B offset text → AtMost (T.textAt process offset) text) :
    Asked T process base calls own namings :=
  ⟨h.asked, hB _ _ h.own_told, fun n hn => hB _ _ (h.told n hn), h.nodup⟩

/-- If the fallback names someone, that is the only nameless character. -/
theorem fallsBack_iff {n : Naming} (hn : n ∈ namings) :
    FallsBack sys own namings n ↔ ownNameFrom sys own ≠ [] ∧
      namings.filter (fun n => nameFrom sys n.text = []) = [n] := by
  rw [FallsBack, List.countP_eq_length_filter, List.length_eq_one_iff]
  have hmem : nameFrom sys n.text = [] → n ∈ namings.filter (fun n => nameFrom sys n.text = []) :=
    fun h => List.mem_filter.mpr ⟨hn, decide_eq_true h⟩
  constructor
  · intro ⟨hempty, ⟨other, hother⟩, hown⟩
    have h := hmem hempty
    rw [hother, List.mem_singleton] at h
    rw [h]
    exact ⟨hown, hother⟩
  · intro ⟨hown, halone⟩
    have h : n ∈ namings.filter (fun n => nameFrom sys n.text = []) := by
      rw [halone]
      exact List.mem_singleton_self n
    exact ⟨of_decide_eq_true (List.mem_filter.mp h).2, ⟨n, halone⟩, hown⟩

/-- The fallback keeps to the rule exactly if it has no wrong character to name. -/
theorem ownNameKept_iff {calls : Log UserAns} (hasked : Asked T process base calls own namings)
    (hpublished : Published T process processId base own namings listing) :
    OwnNameKept T process base own namings listing.characters ↔
      ¬Misnames T process base own namings := by
  constructor
  · intro hkept ⟨hown, n, hpointer, halone⟩
    have hn : n ∈ namings := by
      apply List.mem_of_mem_filter (p := fun n => nameFrom sys n.text = [])
      rw [halone]
      exact List.mem_singleton_self n
    exact hpointer (hkept.zero n hn ((fallsBack_iff hn).mpr ⟨hown, halone⟩))
  · intro hnot
    have hzero : ∀ n ∈ namings, FallsBack sys own namings n →
        namePointer T process base n.actor = some 0 := by
      intro n hn hfalls
      by_contra hpointer
      obtain ⟨hown, halone⟩ := (fallsBack_iff hn).mp hfalls
      exact hnot ⟨hown, n, hpointer, halone⟩
    constructor
    · have hentries := (List.forall₂_and_left namings listing.characters).mpr
        ⟨fun n hn => And.intro (hzero n hn) (hasked.names n hn), hpublished⟩
      refine hentries.imp fun n c ⟨⟨hzero, htold⟩, hname, _⟩ pointer hpointer hne => ?_
      have hfalls : ¬FallsBack sys own namings n := by
        intro hfalls
        rw [hzero hfalls] at hpointer
        exact hne (Option.some.inj hpointer).symm
      rw [labelOf] at hname
      refine ⟨hfalls, ?_⟩
      by_cases hempty : nameFrom sys n.text = []
      · rw [if_neg (not_not.mpr hempty), if_neg hfalls] at hname
        exact .inr hname
      · rw [if_pos hempty, nameFrom_eq_nameOf htold hempty] at hname
        exact .inl hname
    · intro n hn m hm hfallsN hfallsM
      have hsame := ((fallsBack_iff hn).mp hfallsN).2.symm.trans ((fallsBack_iff hm).mp hfallsM).2
      exact (List.cons.inj hsame).1
    · exact hzero

end Listing

section Claim

/-- The actors of the list: those of the nodes that can be reached, each once. -/
structure Lists (T : Target sys) (process : PEProcess) (processId : DWord) (base : ULongPtr)
    (header root : ULong) (actors : List ULong) : Prop where
  nodup : actors.Nodup
  mem_iff : ∀ actor, actor ∈ actors ↔ ∃ node, Reachable (sight T process processId base) header root
    node ∧ Stores (sight T process processId base) node actor

theorem Explored.mem_actors {see : ULongPtr → Option ULong} {walk : Walk} (hroot : root ≠ 0)
    (h : Explored see header root walk) (hempty : walk.pending = []) (actor : ULong) :
    actor ∈ walk.seenActors.reverse ↔
      ∃ node, Reachable see header root node ∧ Stores see node actor := by
  have hvisits := h.order [] (by rw [hempty]; exact .nil)
  rw [List.append_nil] at hvisits
  rw [h.actors, List.mem_eraseDups, List.mem_filterMap]
  refine exists_congr fun node => and_congr ⟨fun hnode => ?_, fun hnode => ?_⟩ stored_eq_some
  · exact h.seen node (List.mem_reverse.mp hnode)
  · obtain ⟨r, hr, hpath⟩ := (reachable_iff hroot).mp hnode
    exact hvisits.complete hr hpath

/-- What becomes of it where no request is refused: the own name is there, exactly one of the
characters in the tree has no name, and the name pointer of that one is not zero. -/
def MemoryMisnames (T : Target sys) (process : PEProcess) (processId : DWord) (base : ULongPtr)
    (header root : ULong) : Prop :=
  ownNameOf T process ≠ [] ∧ ∃ actor, namePointer T process base actor ≠ some 0 ∧
    {a | (∃ node, Reachable (sight T process processId base) header root node ∧
      Stores (sight T process processId base) node a) ∧ nameOf T process base a = []} = {actor}

theorem nameless_iff {actors : List ULong}
    (hlists : Lists T process processId base header root actors) {actor : ULong} :
    {a | (∃ node, Reachable (sight T process processId base) header root node ∧
      Stores (sight T process processId base) node a) ∧ nameOf T process base a = []} = {actor} ↔
    actors.filter (fun a => nameOf T process base a = []) = [actor] := by
  have hmem : ∀ a, a ∈ actors.filter (fun a => nameOf T process base a = []) ↔
      (∃ node, Reachable (sight T process processId base) header root node ∧
        Stores (sight T process processId base) node a) ∧ nameOf T process base a = [] := by
    intro a
    rw [List.mem_filter, hlists.mem_iff, decide_eq_true_eq]
  rw [Set.ext_iff]
  constructor
  · intro h
    apply List.perm_singleton.mp
    apply (List.perm_ext_iff_of_nodup (hlists.nodup.filter _) (List.nodup_singleton actor)).mpr
    intro a
    rw [hmem, List.mem_singleton]
    exact h a
  · intro h a
    change _ ∧ _ ↔ a = actor
    rw [← hmem, h, List.mem_singleton]

variable {own : Option (List Byte × Bool)} {namings : List Naming}

theorem misnames_iff_memory (hown : own = T.textAt process defaultTextOffset)
    (hnames : ∀ n ∈ namings, n.text = T.textAt process (nameOffset base n.actor))
    (hlists : Lists T process processId base header root (namings.map Naming.actor)) :
    Misnames T process base own namings ↔ MemoryMisnames T process processId base header root := by
  have hfilter : (namings.filter fun n => nameFrom sys n.text = []).map Naming.actor =
      (namings.map Naming.actor).filter fun a => nameOf T process base a = [] := by
    rw [List.filter_map]
    congr 1
    apply List.filter_congr
    intro n hn
    rw [Function.comp_apply, nameOf, hnames n hn]
  rw [Misnames, MemoryMisnames, ownNameOf, hown]
  refine and_congr_right' ⟨fun ⟨n, hpointer, halone⟩ => ⟨n.actor, hpointer, ?_⟩,
    fun ⟨actor, hpointer, halone⟩ => ?_⟩
  · rw [nameless_iff hlists, ← hfilter, halone]
    rfl
  · rw [nameless_iff hlists, ← hfilter] at halone
    obtain ⟨n, hsingle, rfl⟩ := List.map_eq_singleton_iff.mp halone
    exact ⟨n, hpointer, hsingle⟩

theorem open_of_starts (h : Starts T process processId base manager header root) :
    T.api (.createFileW genericRead) = none ∧ processId ≠ 0 := by
  have hmanager := h.toManager
  change some manager = sight T process processId base _ at hmanager
  have hsome := hmanager.symm
  rw [sight, Option.ite_none_right_eq_some] at hsome
  exact ⟨hsome.1.1, hsome.1.2.1⟩

theorem reachable_of_starts
    (hstarts : Starts T process processId (sys.psGetProcessSectionBaseAddress process) manager
      header root) : EngineRules.Reachable T process := by
  have hmanager := hstarts.toManager
  change some manager = sight _ _ _ _ _ at hmanager
  rw [sight_agrees (open_of_starts hstarts).2] at hmanager
  exact (seen_eq_some.mp hmanager.symm).1.1

/-- Where engine and driver mean the same addresses, the name pointer is the one of the actor. -/
theorem Published.namePointer_eq (h : Published T process processId base own namings listing)
    (hstarts : Starts T process processId base manager header root)
    (hbase : base = sys.psGetProcessSectionBaseAddress process) :
    ∀ n ∈ namings, namePointer T process base n.actor = T.field n.actor 0x544 := by
  subst hbase
  obtain ⟨-, hready, hne⟩ := reachable_of_starts hstarts
  have hlow : ∀ {actor id packed : ULong},
      Accepted (reads (sight T process processId (sys.psGetProcessSectionBaseAddress process))) actor
        id packed → sys.psGetProcessSectionBaseAddress process < actor.setWidth 64 + 0x544 := by
    intro actor id packed haccepted
    have hid := haccepted.readId
    change some id = sight T process processId _ _ at hid
    rw [sight_agrees (open_of_starts hstarts).2] at hid
    obtain ⟨⟨-, hlow, -⟩, -⟩ := seen_eq_some.mp hid.symm
    bv_omega
  have hentries := h.imp fun _ _ hentry => hentry.2
  clear h
  generalize listing.characters = characters at hentries
  induction hentries with
  | nil => nofun
  | cons hentry _ ih =>
    obtain ⟨packed, haccepted⟩ := hentry
    exact List.forall_mem_cons.mpr ⟨namePointer_agrees T process hready (hlow haccepted) hne, ih⟩

theorem starts_of_atMost (h : Start (fun base => base = EngineRules.imageBase T processId)
      (fun base address => AtMost (sight T process processId base address)) base manager header root) :
    Starts T process processId base manager header root :=
  ⟨h.toBase, (h.toManager _ rfl).symm, h.manager_ne, (h.toHeader _ rfl).symm, h.header_ne,
    (h.toRoot _ rfl).symm, h.root_ne⟩

/-- What holds of a run that lists the characters, whatever becomes of its requests. -/
theorem run_refusing (T : Target sys) (client : PEProcess) {env : WinEnv}
    (henv : ∀ l o, (T.refusingSystem process).rely l o (env l o)) {listing : Listing}
    (hlisting : ((System.runUser sys client (readNearbyCharacters sys processId).run).run env []).1 =
      .ok listing) :
    ∃ base manager header root own namings, Starts T process processId base manager header root ∧
      Asked T process base
        (System.calls sys client (readNearbyCharacters sys processId).run env) own namings ∧
      Published T process processId base own namings listing := by
  obtain ⟨base, manager, header, root, own, namings, walk, hstart, hheard, -⟩ :=
    Target.run_of_refusing henv (wp_heard (K := fun _ _ _ _ => True)
      (S := fun base => base = EngineRules.imageBase T processId)
      (R := fun base address => AtMost (sight T process processId base address))
      (Target.wp_refusing_api (findImageBase_api processId) (wp_findImageBase processId []))
      (fun base address l _ => Target.wp_readDword_refusing processId base address l)
      (fun base manager header root hstart => hears_refusing
        (open_of_starts (starts_of_atMost hstart)).2 (open_of_starts (starts_of_atMost hstart)).1)
      (fun _ _ _ => trivial) fun _ _ _ _ _ _ _ => trivial) listing hlisting
  exact ⟨base, manager, header, root, own, namings, starts_of_atMost hstart,
    asked_of_heard hheard fun _ _ h => h, published_of_heard hheard fun _ _ h => h _ rfl⟩

theorem run_told (T : Target sys) (client : PEProcess) {env : WinEnv}
    (henv : ∀ l o, (T.openedSystem false process).rely l o (env l o)) {listing : Listing}
    (hlisting : ((System.runUser sys client (readNearbyCharacters sys processId).run).run env []).1 =
      .ok listing) :
    ∃ base manager header root own namings, Starts T process processId base manager header root ∧
      Asked T process base
        (System.calls sys client (readNearbyCharacters sys processId).run env) own namings ∧
      Published T process processId base own namings listing ∧
      (Misnames T process base own namings ↔ MemoryMisnames T process processId base header root) := by
  obtain ⟨base, manager, header, root, own, namings, walk, hstart, hheard, hexplored, hempty,
    hactors⟩ :=
    Target.run_of_told henv (wp_heard
      (K := fun base header root => Explored (sight T process processId base) header root)
      (S := fun base => base = EngineRules.imageBase T processId)
      (R := fun base => reads (sight T process processId base))
      (Target.wp_told (wp_findImageBase processId []))
      (fun base address l _ => Target.wp_told (wp_readDword_sight processId base address l))
      (fun base manager header root hstart => hears_told (open_of_starts hstart).2
        (open_of_starts hstart).1)
      (fun _ _ _ => explored_start) fun _ _ _ _ _ hexplored hpass => hexplored.pass hpass)
      listing hlisting
  refine ⟨base, manager, header, root, own, namings, hstart,
    asked_of_heard hheard fun _ _ h => atMost_of_eq h, published_of_heard hheard fun _ _ h => h.symm,
    misnames_iff_memory hheard.own_told hheard.told ⟨hheard.nodup, ?_⟩⟩
  rw [hactors]
  exact Explored.mem_actors hstart.root_ne hexplored hempty

/-- Where a listing succeeds, the name of the player is kept from the others exactly if the texts
that came do not make the fallback name the wrong character. -/
theorem ownName_kept_iff (T : Target sys) (client : PEProcess) {env : WinEnv}
    (henv : ∀ l o, (T.refusingSystem process).rely l o (env l o)) {listing : Listing}
    (hlisting : ((System.runUser sys client (readNearbyCharacters sys processId).run).run env []).1 =
      .ok listing) :
    ∃ base manager header root own namings, Starts T process processId base manager header root ∧
      Asked T process base
        (System.calls sys client (readNearbyCharacters sys processId).run env) own namings ∧
      Published T process processId base own namings listing ∧
      (base = sys.psGetProcessSectionBaseAddress process →
        ∀ n ∈ namings, namePointer T process base n.actor = T.field n.actor 0x544) ∧
      (OwnNameKept T process base own namings listing.characters ↔
        ¬Misnames T process base own namings) ∧
      ((∀ l o, (T.openedSystem false process).rely l o (env l o)) →
        (Misnames T process base own namings ↔
          MemoryMisnames T process processId base header root)) := by
  by_cases hopened : ∀ l o, (T.openedSystem false process).rely l o (env l o)
  · obtain ⟨base, manager, header, root, own, namings, hstarts, hasked, hpublished, hmemory⟩ :=
      run_told T client hopened hlisting
    exact ⟨base, manager, header, root, own, namings, hstarts, hasked, hpublished,
      hpublished.namePointer_eq hstarts, ownNameKept_iff hasked hpublished, fun _ => hmemory⟩
  · obtain ⟨base, manager, header, root, own, namings, hstarts, hasked, hpublished⟩ :=
      run_refusing T client henv hlisting
    exact ⟨base, manager, header, root, own, namings, hstarts, hasked, hpublished,
      hpublished.namePointer_eq hstarts, ownNameKept_iff hasked hpublished,
      fun h => absurd h hopened⟩

/-- A game with one character, whose name pointer leads to an empty string. The player is `A`. -/
def namesake : Target samplePlatform := .ofCells samplePlatform gameApi [
  (0x00EB31D0, 0x01100000), (0x01100034, 0x01200000), (0x01200004, 0x01300000), -- manager, header
  (0x01300000, 0), (0x01300008, 0), (0x01300010, 5), (0x01300014, 0x01400000), -- the root
  (0x01400008, 5), (0x0140000C, 0x00200010), -- its actor
  (0x01400544, 0x01500000), (0x01500000, 0), -- the name of the actor
  (0x004A8B14, 0x01510000), (0x01510000, 0x41)] -- the name of the player

theorem namesake_env (l : WinLog) (o : WinOp) :
    (namesake.openedSystem false 9).rely l o (namesake.env 9 sampleImage l o) :=
  ⟨namesake.env_fits 9 sampleImage l o, (namesake.env_opens sampleImage_expected l o).restrict false⟩

theorem namesake_starts (h : Starts namesake 9 7 base manager header root) :
    base = 0x400000 ∧ header = 0x01200000 ∧ root = 0x01300000 := by
  have hbase : some base = some 0x400000 := h.toBase.trans (by decide +kernel)
  obtain rfl := Option.some.inj hbase
  have hmanager : some manager = some 0x01100000 :=
    (show some manager = sight namesake 9 7 _ _ from h.toManager).trans (by decide +kernel)
  obtain rfl := Option.some.inj hmanager
  have hheader : some header = some 0x01200000 :=
    (show some header = sight namesake 9 7 _ _ from h.toHeader).trans (by decide +kernel)
  obtain rfl := Option.some.inj hheader
  have hroot : some root = some 0x01300000 :=
    (show some root = sight namesake 9 7 _ _ from h.toRoot).trans (by decide +kernel)
  exact ⟨rfl, rfl, Option.some.inj hroot⟩

theorem nameOffset_injective {actor actor' : ULong}
    (h : nameOffset base actor = nameOffset base actor') : actor = actor' := by
  rw [nameOffset, nameOffset] at h
  bv_omega

theorem namesake_texts : texts samplePlatform (System.calls samplePlatform 9
    (readNearbyCharacters samplePlatform 7).run (namesake.env 9 sampleImage)) =
      [(defaultTextOffset, some ([0x41], true)),
        (nameOffset 0x400000 0x01400000, some ([], true))] := by
  decide +kernel

theorem namesake_misnames {own : Option (List Byte × Bool)} {namings : List Naming}
    (h : Asked namesake 9 0x400000 (System.calls samplePlatform 9
      (readNearbyCharacters samplePlatform 7).run (namesake.env 9 sampleImage)) own namings) :
    Misnames namesake 9 0x400000 own namings := by
  obtain ⟨hown, hnames⟩ := List.cons.inj (namesake_texts.symm.trans h.calls)
  obtain ⟨n, rfl, hn⟩ := List.map_eq_singleton_iff.mp hnames.symm
  obtain rfl := (Prod.mk.inj hown).2
  obtain ⟨hactor, htext⟩ := Prod.mk.inj hn
  obtain ⟨actor, text⟩ := n
  obtain rfl : actor = 0x01400000 := nameOffset_injective hactor
  obtain rfl : text = some ([], true) := htext
  exact ⟨by decide +kernel, ⟨0x01400000, some ([], true)⟩, by decide +kernel, by decide +kernel⟩

theorem namesake_listing : ∃ listing, ((System.runUser samplePlatform 9
    (readNearbyCharacters samplePlatform 7).run).run (namesake.env 9 sampleImage) []).1 =
      .ok listing ∧ listing.characters.map Character.name = [wide "A"] := by
  have hname : ((System.runUser samplePlatform 9 (readNearbyCharacters samplePlatform 7).run).run
      (namesake.env 9 sampleImage) []).1.toOption.map (fun listing =>
        listing.characters.map Character.name) = some [wide "A"] := by decide +kernel
  obtain ⟨listing, hlisting, hname⟩ := Option.map_eq_some_iff.mp hname
  refine ⟨listing, ?_, hname⟩
  cases h : ((System.runUser samplePlatform 9 (readNearbyCharacters samplePlatform 7).run).run
      (namesake.env 9 sampleImage) []).1 with
  | ok found =>
    rw [h] at hlisting
    exact congrArg Except.ok (Option.some.inj hlisting)
  | error e =>
    rw [h] at hlisting
    cases hlisting

/-- The character with the empty name is published under the name of the player. -/
theorem ownName_not_kept : ∃ (T : Target samplePlatform) (env : WinEnv) (listing : Listing),
    (∀ l o, (T.openedSystem false 9).rely l o (env l o)) ∧
    ((System.runUser samplePlatform 9 (readNearbyCharacters samplePlatform 7).run).run env []).1 =
      .ok listing ∧ listing.characters.map Character.name = [wide "A"] ∧
    ∀ base manager header root own namings, Starts T 9 7 base manager header root →
      Asked T 9 base (System.calls samplePlatform 9 (readNearbyCharacters samplePlatform 7).run env)
        own namings →
      Published T 9 7 base own namings listing →
      ¬OwnNameKept T 9 base own namings listing.characters := by
  obtain ⟨listing, hlisting, hname⟩ := namesake_listing
  refine ⟨namesake, namesake.env 9 sampleImage, listing, namesake_env, hlisting, hname, ?_⟩
  intro base manager header root own namings hstarts hasked hpublished hkept
  obtain ⟨rfl, rfl, rfl⟩ := namesake_starts hstarts
  exact (ownNameKept_iff hasked hpublished).mp hkept (namesake_misnames hasked)

theorem ownName_kept_sample : ∃ listing, ((System.runUser samplePlatform 9
    (readNearbyCharacters samplePlatform 7).run).run (namesake.env 9 sampleImage) []).1 =
      .ok listing ∧
    ∃ base manager header root own namings, Starts namesake 9 7 base manager header root ∧
      Asked namesake 9 base (System.calls samplePlatform 9
        (readNearbyCharacters samplePlatform 7).run (namesake.env 9 sampleImage)) own namings ∧
      Published namesake 9 7 base own namings listing ∧
      (base = samplePlatform.psGetProcessSectionBaseAddress 9 →
        ∀ n ∈ namings, namePointer namesake 9 base n.actor = namesake.field n.actor 0x544) ∧
      (OwnNameKept namesake 9 base own namings listing.characters ↔
        ¬Misnames namesake 9 base own namings) ∧
      ((∀ l o, (namesake.openedSystem false 9).rely l o (namesake.env 9 sampleImage l o)) →
        (Misnames namesake 9 base own namings ↔
          MemoryMisnames namesake 9 7 base header root)) := by
  obtain ⟨listing, hlisting, -⟩ := namesake_listing
  exact ⟨listing, hlisting, ownName_kept_iff namesake 9
    (fun l o => Target.refusing_of_opened (namesake_env l o)) hlisting⟩

end Claim

end DarkEden.NearbyNames
