import DarkEden.EngineRules
import DarkEden.Interaction.Iteration
import DarkEden.Interaction.Tiling

namespace DarkEden.ImageLayout

open Interaction Tiling Engine EngineRules

section Scan

variable {env : Env UserAns} {a next : ULongPtr} {l : Log UserAns}

abbrev queryOp (a : ULongPtr) : UserOp := .api (.virtualQueryEx a)

abbrev nameOp (a : ULongPtr) : UserOp := .api (.getMappedFileNameW a)

abbrev openOp (processId : DWord) : UserOp :=
  .api (.openProcess processQueryLimitedInformation processId)

theorem run_scanRegion {region : MemoryBasicInformation} (hlow : a.toNat < 2 ^ 32)
    (hquery : env l (queryOp a) = some region) :
    ((scanRegion a).run env l).1 =
      if ((isGame region).run env (l ++ [⟨queryOp a, some region⟩])).1 then
        .inr (some region.allocationBase)
      else if region.baseAddress + region.regionSize ≤ a then .inr none
      else .inl (region.baseAddress + region.regionSize) := by
  have hlow' : ¬a ≥ 0x100000000 := BitVec.not_le.mpr hlow
  rw [scanRegion, if_neg hlow']
  change ((_ >>= _ : User (ULongPtr ⊕ Option ULongPtr)).run env l).1 = _
  rw [virtualQueryEx, Program.run_bind, Program.run_ask]
  change env l (.api (.virtualQueryEx a)) = some region at hquery
  rw [hquery]
  change ((isGame region >>= _ : User (ULongPtr ⊕ Option ULongPtr)).run env _).1 = _
  rw [Program.run_bind]
  by_cases hgame : ((isGame region).run env (l ++ [⟨queryOp a, some region⟩])).1
  · rw [if_pos hgame, if_pos hgame]
    rfl
  · rw [if_neg hgame, if_neg hgame]
    by_cases hnext : region.baseAddress + region.regionSize ≤ a
    · rw [if_pos hnext, if_pos hnext]
      rfl
    · rw [if_neg hnext, if_neg hnext]
      rfl

/-- A pass that goes on has looked at an address below 4 GiB, and goes on above it. -/
theorem scanRegion_grows (h : ((scanRegion a).run env l).1 = .inl next) :
    a.toNat < 2 ^ 32 ∧ a.toNat < next.toNat := by
  by_cases hlow : a.toNat < 2 ^ 32
  · refine ⟨hlow, ?_⟩
    cases hquery : env l (queryOp a) with
    | none =>
      have hlow' : ¬a ≥ 0x100000000 := BitVec.not_le.mpr hlow
      rw [scanRegion, if_neg hlow'] at h
      change ((_ >>= _ : User (ULongPtr ⊕ Option ULongPtr)).run env l).1 = _ at h
      rw [virtualQueryEx, Program.run_bind, Program.run_ask] at h
      change env l (.api (.virtualQueryEx a)) = none at hquery
      rw [hquery] at h
      cases h
    | some region =>
      rw [run_scanRegion hlow hquery] at h
      split at h
      · cases h
      · split at h
        · cases h
        case isFalse hnext =>
          obtain rfl := Sum.inl.inj h
          exact BitVec.not_le.mp hnext
  · have hhigh : a ≥ 0x100000000 := Nat.le_of_not_lt hlow
    rw [scanRegion, if_pos hhigh] at h
    cases h

def remaining (a : ULongPtr) : Nat := 2 ^ 32 - a.toNat

theorem remaining_lt (h : ((scanRegion a).run env l).1 = .inl next) :
    remaining next < remaining a := by
  obtain ⟨hlow, hgrows⟩ := scanRegion_grows h
  rw [remaining, remaining]
  omega

theorem exists_scan (env : Env UserAns) (l : Log UserAns) :
    ∃ trace result l', Iterates env scanRegion 0x10000 l trace result l' :=
  exists_iterates remaining (fun _ _ _ h => remaining_lt h) _ l

variable {l' : Log UserAns} {trace : List ULongPtr} {result : Option ULongPtr}

theorem run_loop_scanRegion (h : Iterates env scanRegion 0x10000 l trace result l') :
    (Program.loop scanRegion 0x100000000 0x10000).run env l = (some result, l') := by
  apply h.run_loop
  have hlength := h.length_le remaining fun _ _ _ h => remaining_lt h
  have hstart : remaining 0x10000 + 1 ≤ 0x100000000 := by decide
  exact hlength.trans hstart

/-- `FindImageBase` returns what the loop without a bound ends with. -/
theorem findImageBase_ok_iff {processId : DWord} {base : ULongPtr}
    (h : Iterates env scanRegion 0x10000
      (l ++ [⟨openOp processId, env l (openOp processId)⟩]) trace result l') :
    ((findImageBase processId).run.run env l).1 = .ok base ↔
      env l (openOp processId) = true ∧ result = some base := by
  have hcore : wp (.ofEnv env) (findImageBase processId).run l fun r _ =>
      r = .ok base ↔ env l (openOp processId) = true ∧ result = some base := by
    rw [findImageBase]
    refine wp_run_bind.mpr (wp_run_lift.mpr ⟨trivial, fun opened hopened => ?_⟩)
    replace hopened : opened = env l (openOp processId) := hopened
    subst hopened
    refine wp_run_bind.mpr (wp_require.mpr ⟨fun hopen => ?_, fun hopen => ?_⟩)
    · refine wp_run_bind.mpr (wp_run_lift.mpr (wp_ofEnv.mpr ?_))
      rw [monadLift_self, run_loop_scanRegion h, and_iff_right hopen]
      cases result with
      | none => exact iff_of_false (by simp) (by simp)
      | some found =>
        rw [Option.some.injEq]
        exact iff_of_eq (Except.ok.injEq found base)
    · exact iff_of_false (by simp) fun hc => hopen hc.1
  exact wp_ofEnv.mp hcore

end Scan

section Layout

def low (r : MemoryBasicInformation) : Nat := r.baseAddress.toNat

def size (r : MemoryBasicInformation) : Nat := r.regionSize.toNat

/-- A region of whole pages. What is free has no allocation. -/
structure WellFormed (r : MemoryBasicInformation) : Prop where
  pages : 0x1000 ∣ size r
  nonempty : 0 < size r
  bounded : low r + size r < 2 ^ 64
  allocated : r.committed → r.allocationBase ≤ r.baseAddress

/-- An address space, cut into regions from 0 on, with the files that images are mapped from. The
image of the process itself is that of the game, and is mapped at `imageBase`. -/
structure Layout (imageBase : ULongPtr) where
  regions : List MemoryBasicInformation
  fileName : ULongPtr → Option WString
  top : Nat
  tiles : Tiles low size 0 regions top
  wellFormed : ∀ r ∈ regions, WellFormed r
  own : MemoryBasicInformation
  own_mem : own ∈ regions
  own_base : own.baseAddress = imageBase
  own_first : own.allocationBase = imageBase
  own_committed : own.committed = true
  own_image : own.image = true
  own_name : (fileName imageBase).any namesGame = true
  above : 0x10000 ≤ imageBase.toNat
  below : imageBase.toNat < 2 ^ 32

/-- `VirtualQueryEx` reports the rest of the region, from the page of the address on. -/
def reported (a : ULongPtr) (r : MemoryBasicInformation) : MemoryBasicInformation :=
  let page := a - a % 0x1000
  { r with baseAddress := page, regionSize := r.baseAddress + r.regionSize - page }

variable {imageBase : ULongPtr} (L : Layout imageBase)

def Layout.query (a : ULongPtr) : Option MemoryBasicInformation :=
  (L.regions.find? (holds low size a.toNat)).map (reported a)

structure Layout.Describes (env : Env UserAns) : Prop where
  query : ∀ l a, env l (queryOp a) = L.query a
  name : ∀ l a, env l (nameOp a) = L.fileName a

/-- The first region of an image that the scan takes for that of the game. -/
def Layout.Game (r : MemoryBasicInformation) : Prop :=
  0x10000 ≤ low r ∧ r.committed ∧ r.image ∧ r.baseAddress = r.allocationBase ∧
    (L.fileName r.baseAddress).any namesGame

/-- No other image of a file with the name of the game is mapped below the own one. -/
def Layout.Alone : Prop := ∀ r ∈ L.regions, L.Game r → imageBase ≤ r.baseAddress

variable {L}

theorem game_own : L.Game L.own := by
  have hbase := L.own_base
  refine ⟨?_, L.own_committed, L.own_image, hbase.trans L.own_first.symm, ?_⟩
  · rw [low, hbase]
    exact L.above
  · rw [hbase]
    exact L.own_name

theorem pages_low {r : MemoryBasicInformation} (hr : r ∈ L.regions) : 0x1000 ∣ low r :=
  L.tiles.dvd_lo (Nat.dvd_zero _) (fun r hr => (L.wellFormed r hr).pages) r hr

theorem reported_page {a : ULongPtr} (ha : 0x1000 ∣ a.toNat) (r : MemoryBasicInformation) :
    (reported a r).baseAddress = a := by
  have hrest : a % 0x1000 = 0#64 := by
    apply BitVec.eq_of_toNat_eq
    rw [BitVec.toNat_umod]
    exact Nat.mod_eq_zero_of_dvd ha
  rw [reported]
  change a - a % 0x1000 = a
  rw [hrest, BitVec.sub_zero]

theorem reported_end {a : ULongPtr} (r : MemoryBasicInformation) :
    (reported a r).baseAddress + (reported a r).regionSize = r.baseAddress + r.regionSize := by
  change a - a % 0x1000 + (r.baseAddress + r.regionSize - (a - a % 0x1000)) = _
  rw [BitVec.add_comm, BitVec.sub_add_cancel]

theorem query_eq {before after : List MemoryBasicInformation} {r : MemoryBasicInformation}
    (hsplit : L.regions = before ++ r :: after) {a : ULongPtr} (ha : holds low size a.toNat r) :
    L.query a = some (reported a r) := by
  have htiles := L.tiles
  rw [hsplit] at htiles
  rw [Layout.query, hsplit, htiles.find?_eq ha, Option.map_some]

end Layout

section Passes

variable {imageBase : ULongPtr} {L : Layout imageBase} {env : Env UserAns} {l : Log UserAns}
variable {before after mid : List MemoryBasicInformation} {r : MemoryBasicInformation}
variable {a : ULongPtr}

theorem run_isGame (henv : L.Describes env) (region : MemoryBasicInformation) :
    ((isGame region).run env l).1 = true ↔
      region.committed ∧ region.image ∧ region.baseAddress = region.allocationBase ∧
        (L.fileName region.baseAddress).any namesGame := by
  rw [isGame]
  by_cases hfirst : region.committed ∧ region.image ∧ region.baseAddress = region.allocationBase
  · rw [if_pos hfirst, getMappedFileNameW, Program.run_bind, Program.run_ask, henv.name]
    obtain ⟨hcommitted, himage, hbase⟩ := hfirst
    exact ⟨fun h => ⟨hcommitted, himage, hbase, h⟩, fun h => h.2.2.2⟩
  · rw [if_neg hfirst]
    exact iff_of_false (by simp) fun h => hfirst ⟨h.1, h.2.1, h.2.2.1⟩

theorem run_scanRegion_game (henv : L.Describes env) (hsplit : L.regions = before ++ r :: after)
    (hgame : L.Game r) (hlow : low r < 2 ^ 32) :
    ((scanRegion r.baseAddress).run env l).1 = .inr (some r.baseAddress) := by
  have hr : r ∈ L.regions := by rw [hsplit]; simp
  have hnonempty := (L.wellFormed r hr).nonempty
  have hquery := query_eq hsplit (holds_iff.mpr ⟨Nat.le_refl _, by rw [low] at *; omega⟩ :
    holds low size r.baseAddress.toNat r)
  have hbase : (reported r.baseAddress r).baseAddress = r.baseAddress :=
    reported_page (pages_low hr) r
  obtain ⟨-, hcommitted, himage, hfirst, hname⟩ := hgame
  have hfound := (run_isGame (l := l ++ [⟨queryOp r.baseAddress, some (reported r.baseAddress r)⟩])
    henv (reported r.baseAddress r)).mpr
      ⟨hcommitted, himage, hbase.trans hfirst, by rw [hbase]; exact hname⟩
  rw [run_scanRegion hlow ((henv.query l r.baseAddress).trans hquery), if_pos hfound, hfirst]
  rfl

theorem run_scanRegion_next (henv : L.Describes env) (hsplit : L.regions = before ++ r :: after)
    (hother : ¬L.Game r) (ha : holds low size a.toNat r) (hpage : 0x1000 ∣ a.toNat)
    (hstart : 0x10000 ≤ a.toNat) (hlow : a.toNat < 2 ^ 32) :
    ((scanRegion a).run env l).1 = .inl (r.baseAddress + r.regionSize) ∧
      (r.baseAddress + r.regionSize).toNat = low r + size r := by
  have hr : r ∈ L.regions := by rw [hsplit]; simp
  obtain ⟨-, -, hbounded, hallocated⟩ := L.wellFormed r hr
  have hend : (r.baseAddress + r.regionSize).toNat = low r + size r := by
    rw [BitVec.toNat_add]
    exact Nat.mod_eq_of_lt hbounded
  obtain ⟨hle, hlt⟩ := holds_iff.mp ha
  have hbase : (reported a r).baseAddress = a := reported_page hpage r
  have hnot : ¬((isGame (reported a r)).run env
      (l ++ [⟨queryOp a, some (reported a r)⟩])).1 = true := by
    rw [run_isGame henv, hbase]
    rintro ⟨hcommitted, himage, hfirst, hname⟩
    -- An image begins with its allocation, so that it begins at the address itself.
    have hallocation : r.allocationBase ≤ r.baseAddress := hallocated hcommitted
    have hsame : a = r.baseAddress := by
      apply BitVec.eq_of_toNat_eq
      have hfirst' : a.toNat = r.allocationBase.toNat := congrArg BitVec.toNat hfirst
      have hallocation' : r.allocationBase.toNat ≤ low r := hallocation
      rw [low] at *
      omega
    subst hsame
    exact hother ⟨hstart, hcommitted, himage, hfirst, hname⟩
  have hnext : ¬r.baseAddress + r.regionSize ≤ a := by
    rw [BitVec.not_le, BitVec.lt_def, hend]
    exact hlt
  rw [run_scanRegion hlow ((henv.query l a).trans (query_eq hsplit ha)), if_neg hnot, reported_end,
    if_neg hnext]
  exact ⟨rfl, hend⟩

/-- Every pass over a region in front of `r` goes on, and the one over `r` ends the loop. -/
theorem iterates_game (henv : L.Describes env) (hsplit : L.regions = before ++ (mid ++ r :: after))
    (hmid : ∀ m ∈ mid, ¬L.Game m) (hgame : L.Game r) (hlow : low r < 2 ^ 32)
    (hfirst : ∀ m ∈ (mid ++ [r]).head?, holds low size a.toNat m) (hpage : 0x1000 ∣ a.toNat)
    (hstart : 0x10000 ≤ a.toNat) (hle : a.toNat ≤ low r) :
    ∃ trace l', Iterates env scanRegion a l trace (some r.baseAddress) l' := by
  induction mid generalizing before a l with
  | nil =>
    have hin := (holds_iff.mp (hfirst r rfl)).1
    obtain rfl : a = r.baseAddress := BitVec.eq_of_toNat_eq (Nat.le_antisymm hle hin)
    exact ⟨_, _, .stop (Prod.ext (run_scanRegion_game henv hsplit hgame hlow) rfl)⟩
  | cons m mid ih =>
    rw [List.forall_mem_cons] at hmid
    have hm := hfirst m rfl
    have hsplit' : L.regions = (before ++ [m]) ++ (mid ++ r :: after) := by
      rw [hsplit, List.append_assoc, List.cons_append, List.singleton_append]
    obtain ⟨hrun, hend⟩ := run_scanRegion_next (l := l) henv hsplit hmid.1 hm hpage hstart
      (by omega)
    have htiles := L.tiles
    rw [hsplit] at htiles
    have hmem : m ∈ L.regions := by rw [hsplit]; simp
    have hbehind := htiles.after r (by simp)
    have hwithin := (holds_iff.mp hm).2
    have hfirst' : ∀ q ∈ (mid ++ [r]).head?,
        holds low size (m.baseAddress + m.regionSize).toNat q := by
      intro q hq
      have hhead : (mid ++ [r]).head? = (mid ++ r :: after).head? := by
        cases mid with
        | nil => rfl
        | cons _ _ => rfl
      rw [hhead] at hq
      have hlo := htiles.next_lo q hq
      have hqmem : q ∈ L.regions := by
        rw [hsplit]
        exact List.mem_append_right _ (List.mem_cons_of_mem _ (List.mem_of_mem_head? hq))
      have hnonempty := (L.wellFormed q hqmem).nonempty
      rw [hend]
      exact holds_iff.mpr ⟨hlo.le, by omega⟩
    have hpage' : 0x1000 ∣ (m.baseAddress + m.regionSize).toNat :=
      hend ▸ Nat.dvd_add (pages_low hmem) (L.wellFormed m hmem).pages
    obtain ⟨trace, l', hrest⟩ := ih hsplit' hmid.2 hfirst' hpage' (by omega) (by omega)
    exact ⟨_, l', .next (Prod.ext hrun rfl) hrest⟩

end Passes

section ImageBase

variable {imageBase : ULongPtr} {L : Layout imageBase} {env : Env UserAns} {l : Log UserAns}
variable {before after : List MemoryBasicInformation} {r : MemoryBasicInformation}

instance (r : MemoryBasicInformation) : Decidable (L.Game r) := inferInstanceAs (Decidable (_ ∧ _))

theorem exists_first_game : ∃ before r after, L.regions = before ++ r :: after ∧ L.Game r ∧
    ∀ m ∈ before, ¬L.Game m := by
  have hsome : (L.regions.find? fun r => L.Game r).isSome :=
    List.find?_isSome.mpr ⟨L.own, L.own_mem, decide_eq_true game_own⟩
  obtain ⟨r, hr⟩ := Option.isSome_iff_exists.mp hsome
  obtain ⟨hgame, before, after, hsplit, hbefore⟩ := List.find?_eq_some_iff_append.mp hr
  exact ⟨before, r, after, hsplit, of_decide_eq_true hgame, by simpa using hbefore⟩

theorem first_le (hsplit : L.regions = before ++ r :: after) (hbefore : ∀ m ∈ before, ¬L.Game m)
    {other : MemoryBasicInformation} (hother : other ∈ L.regions) (hgame : L.Game other) :
    low r ≤ low other := by
  have htiles := L.tiles
  rw [hsplit] at htiles hother
  obtain hmem | hmem := List.mem_append.mp hother
  · exact absurd hgame (hbefore other hmem)
  · obtain rfl | hmem := List.mem_cons.mp hmem
    · exact Nat.le_refl _
    · exact (Nat.le_add_right _ _).trans (htiles.after other hmem)

theorem first_low (hsplit : L.regions = before ++ r :: after)
    (hbefore : ∀ m ∈ before, ¬L.Game m) : low r ≤ imageBase.toNat := by
  have hle := first_le hsplit hbefore L.own_mem game_own
  rwa [low, low, L.own_base] at hle

theorem alone_iff_first (hsplit : L.regions = before ++ r :: after) (hgame : L.Game r)
    (hbefore : ∀ m ∈ before, ¬L.Game m) : L.Alone ↔ r.baseAddress = imageBase := by
  constructor
  · intro halone
    have hr : r ∈ L.regions := by rw [hsplit]; simp
    exact BitVec.le_antisymm (first_low hsplit hbefore) (halone r hr hgame)
  · rintro hbase other hother hother_game
    rw [← hbase]
    exact first_le hsplit hbefore hother hother_game

theorem scan_first (henv : L.Describes env) (hsplit : L.regions = before ++ r :: after)
    (hgame : L.Game r) (hbefore : ∀ m ∈ before, ¬L.Game m) :
    ∃ trace l', Iterates env scanRegion 0x10000 l trace (some r.baseAddress) l' := by
  have hr : r ∈ L.regions := by rw [hsplit]; simp
  have hlow : low r < 2 ^ 32 := (first_low hsplit hbefore).trans_lt L.below
  have htiles := L.tiles
  rw [hsplit] at htiles
  obtain ⟨start, mid, rfl, hfirst⟩ :=
    htiles.exists_holds (L.wellFormed r hr).nonempty (Nat.zero_le 0x10000) hgame.1
  rw [List.append_assoc] at hsplit
  exact iterates_game henv hsplit (fun m hm => hbefore m (List.mem_append_right _ hm)) hgame hlow
    hfirst (by decide) (by decide) hgame.1

theorem findImageBase_first (henv : L.Describes env) (hsplit : L.regions = before ++ r :: after)
    (hgame : L.Game r) (hbefore : ∀ m ∈ before, ¬L.Game m) {processId : DWord} {base : ULongPtr} :
    ((findImageBase processId).run.run env l).1 = .ok base ↔
      env l (openOp processId) = true ∧ r.baseAddress = base := by
  obtain ⟨trace, l', hscan⟩ := scan_first (l := l ++ [⟨openOp processId, env l (openOp processId)⟩])
    henv hsplit hgame hbefore
  rw [findImageBase_ok_iff hscan, Option.some.injEq]

theorem findImageBase_iff (henv : L.Describes env) (processId : DWord) :
    ((findImageBase processId).run.run env l).1 = .ok imageBase ↔
      env l (openOp processId) = true ∧ L.Alone := by
  obtain ⟨before, r, after, hsplit, hgame, hbefore⟩ := exists_first_game (L := L)
  rw [findImageBase_first henv hsplit hgame hbefore, alone_iff_first hsplit hgame hbefore]

/-- The two image bases of a target are the same exactly if the image is found where its layout
has no other one of the game below it. -/
theorem agrees_iff_alone {sys : Platform} {T : Target sys} {process : PEProcess}
    {L : Layout (sys.psGetProcessSectionBaseAddress process)}
    (hquery : ∀ a, T.api (.virtualQueryEx a) = L.query a)
    (hname : ∀ a, T.api (.getMappedFileNameW a) = L.fileName a) (processId : DWord) :
    Agrees T process processId ↔
      T.api (.openProcess processQueryLimitedInformation processId) = true ∧ L.Alone := by
  have henv : L.Describes (answers T) := ⟨fun _ => hquery, fun _ => hname⟩
  have hrun := findImageBase_iff (l := []) henv processId
  rw [Agrees, EngineRules.imageBase]
  refine Iff.trans ?_ hrun
  cases ((findImageBase processId).run.run (answers T) []).1 with
  | error message => exact iff_of_false (by simp [Except.toOption]) (by simp)
  | ok base => simp [Except.toOption]

/-- The scan always ends, and it finds the image base that the driver uses exactly if no other
image of a file with the name of the game is mapped below it. -/
theorem findImageBase_iff_alone (sys : Platform) (process : PEProcess)
    (L : Layout (sys.psGetProcessSectionBaseAddress process)) {env : Env UserAns}
    (henv : L.Describes env) (processId : DWord) (l : Log UserAns) :
    (∃ trace result l', Iterates env scanRegion 0x10000
      (l ++ [⟨openOp processId, env l (openOp processId)⟩]) trace result l') ∧
    (((findImageBase processId).run.run env l).1 =
        .ok (sys.psGetProcessSectionBaseAddress process) ↔
      env l (openOp processId) = true ∧ L.Alone) :=
  ⟨exists_scan env _, findImageBase_iff henv processId⟩

def Layout.answered (L : Layout imageBase) : Env UserAns
  | _, .api (.openProcess _ _) => true
  | _, .api (.virtualQueryEx a) => L.query a
  | _, .api (.getMappedFileNameW a) => L.fileName a
  | _, .api o => silentApi o
  | _, .deviceIoControl _ _ _ _ => .failed 0

def freeRegion (base : ULongPtr) (size : SizeT) : MemoryBasicInformation :=
  ⟨base, 0, size, false, false⟩

def imageRegion (base : ULongPtr) (size : SizeT) : MemoryBasicInformation :=
  ⟨base, base, size, true, true⟩

def twoImages (other : WString) : Layout 0x400000 where
  regions := [freeRegion 0 0x200000, imageRegion 0x200000 0x1000, freeRegion 0x201000 0x1FF000,
    imageRegion 0x400000 0x1000]
  fileName a := if a = 0x200000 then some other
    else if a = 0x400000 then some (wide "\\Device\\HarddiskVolume3\\Game\\DarkEden.exe") else none
  top := 0x401000
  tiles := ⟨rfl, rfl, rfl, rfl, rfl⟩
  wellFormed := by
    rw [List.forall_mem_cons, List.forall_mem_cons, List.forall_mem_cons, List.forall_mem_singleton]
    exact ⟨⟨by decide, by decide, by decide, by decide⟩,
      ⟨by decide, by decide, by decide, by decide⟩, ⟨by decide, by decide, by decide, by decide⟩,
      ⟨by decide, by decide, by decide, by decide⟩⟩
  own := imageRegion 0x400000 0x1000
  own_mem := by simp
  own_base := rfl
  own_first := rfl
  own_committed := rfl
  own_image := rfl
  own_name := by
    rw [if_neg (by decide), if_pos rfl]
    decide
  above := by decide
  below := by decide

theorem describes_answered (L : Layout imageBase) : L.Describes L.answered :=
  ⟨fun _ _ => rfl, fun _ _ => rfl⟩

theorem game_other {other : WString} (hname : namesGame other) :
    (twoImages other).Game (imageRegion 0x200000 0x1000) :=
  ⟨by decide, rfl, rfl, rfl, hname⟩

theorem findImageBase_iff_alone_twoImages :
    ((findImageBase 7).run.run
      (twoImages (wide "\\Device\\HarddiskVolume3\\Windows\\ntdll.dll")).answered []).1 =
        .ok 0x400000 := by
  let L : Layout (samplePlatform.psGetProcessSectionBaseAddress 9) :=
    twoImages (wide "\\Device\\HarddiskVolume3\\Windows\\ntdll.dll")
  have halone : L.Alone := by
    change ∀ r ∈ [freeRegion 0 0x200000, imageRegion 0x200000 0x1000, freeRegion 0x201000 0x1FF000,
      imageRegion 0x400000 0x1000], L.Game r → (0x400000 : ULongPtr) ≤ r.baseAddress
    rw [List.forall_mem_cons, List.forall_mem_cons, List.forall_mem_cons, List.forall_mem_singleton]
    refine ⟨fun hgame => absurd hgame.1 (by decide), fun hgame => absurd hgame.2.2.2.2 ?_,
      fun hgame => absurd hgame.2.1 (by decide), fun _ => BitVec.le_refl _⟩
    change ¬namesGame (wide "\\Device\\HarddiskVolume3\\Windows\\ntdll.dll")
    decide
  exact ((findImageBase_iff_alone samplePlatform 9 L (describes_answered L) 7 []).2).mpr
    ⟨rfl, halone⟩

/-- A backup of the game that is mapped below it is taken for the game. -/
theorem findImageBase_shadowed :
    ((findImageBase 7).run.run
      (twoImages (wide "\\Device\\HarddiskVolume3\\Backup\\darkeden.exe")).answered []).1 =
        .ok 0x200000 ∧
    samplePlatform.psGetProcessSectionBaseAddress 9 = 0x400000 := by
  let L := twoImages (wide "\\Device\\HarddiskVolume3\\Backup\\darkeden.exe")
  have hsplit : L.regions = [freeRegion 0 0x200000] ++ imageRegion 0x200000 0x1000 ::
      [freeRegion 0x201000 0x1FF000, imageRegion 0x400000 0x1000] := rfl
  have hbefore : ∀ m ∈ [freeRegion 0 0x200000], ¬L.Game m := by
    rw [List.forall_mem_singleton]
    exact fun hgame => absurd hgame.1 (by decide)
  exact ⟨(findImageBase_first (describes_answered L) hsplit (game_other (by decide)) hbefore).mpr
    ⟨rfl, rfl⟩, rfl⟩

end ImageBase

end DarkEden.ImageLayout
