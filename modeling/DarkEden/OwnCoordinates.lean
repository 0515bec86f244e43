import DarkEden.EngineRules

namespace DarkEden.OwnCoordinates

open Interaction Protocol Client Engine EngineRules ReaderRules
open Target (TableDriven accepted)

variable {sys : Platform} {T : Target sys} {process client : PEProcess} {processId : DWord}

section Engine

-- What a read comes to is `wp_readDword`; its range check is not to be computed.
attribute [local irreducible] readDword

variable {l : Log UserAns} {output errorOutput : Buffer}

def ownX (T : Target sys) (process : PEProcess) : Option ULong := do
  let first ← seen T process (sys.psGetProcessSectionBaseAddress process + defaultYOffset)
  guard (first ≠ 0)
  let second ← seen T process (first.setWidth 64 + 0x0C)
  guard (second ≠ 0)
  let third ← seen T process (second.setWidth 64 + 0x44)
  guard (third ≠ 0)
  seen T process (third.setWidth 64 + 0x20C)

theorem wp_readOwnX (hpid : processId ≠ 0) (hagrees : Agrees T process processId) :
    wp (T.served process) (readOwnXFromYPath sys processId).run l fun r _ =>
      r.toOption = ownX T process := by
  rw [readOwnXFromYPath, ownX]
  refine wp_findImageBase_agrees hagrees fun l => ?_
  refine wp_run_bind_toOption (wp_readDword hpid _ _) fun first l _ => ?_
  refine wp_run_bind_toOption wp_require_toOption fun _ l _ => ?_
  refine wp_run_bind_toOption (wp_readField hpid _ _ _) fun second l _ => ?_
  refine wp_run_bind_toOption wp_require_toOption fun _ l _ => ?_
  refine wp_run_bind_toOption (wp_readField hpid _ _ _) fun third l _ => ?_
  refine wp_run_bind_toOption wp_require_toOption fun _ l _ => ?_
  exact wp_readField hpid _ _ _

def Yields (returned : Returned) (value : WString) : Prop :=
  returned.code = 0 ∧ returned.output = value

theorem yields_deliver {value text : WString} :
    Yields (deliver value output errorOutput) text ↔ copyOutput value output = some text := by
  rw [Yields, deliver]
  cases copyOutput value output with
  | none => exact ⟨fun h => absurd h.1 (Nat.succ_ne_zero 2), nofun⟩
  | some copied => exact ⟨fun h => congrArg some h.2, fun h => ⟨rfl, Option.some.inj h⟩⟩

theorem not_yields_failed {code : Nat} {error text : WString} (h : code ≠ 0) :
    ¬Yields (failed code error errorOutput) text := fun hy => h hy.1

theorem wp_deReadValue_x (hagrees : Agrees T process processId) (text : WString) :
    wp (T.served process) (deReadValue sys processId DarkEdenValueType.x output errorOutput) l
      fun returned _ => Yields returned text ↔
        (processId ≠ 0 ∧ output.usable ∧ errorOutput.usable) ∧ ∃ value, ownX T process = some value ∧
          copyOutput (formatInt32 value) output = some text := by
  rw [deReadValue, wp_ite]
  refine ⟨fun hbad => ?_, fun hgood => ?_⟩
  · refine ⟨fun hy => absurd hy.1 Nat.one_ne_zero, fun ⟨⟨hpid, hout, herr⟩, _⟩ => ?_⟩
    obtain h | h | h := hbad
    · exact absurd h hpid
    · rw [hout] at h
      cases h
    · rw [herr] at h
      cases h
  simp only [not_or, Bool.not_eq_true', Bool.not_eq_false] at hgood
  rw [if_neg fun hc => hc.1 rfl, wp_bind]
  change wp _ (formatInt32 <$> readOwnXFromYPath sys processId).run _ _
  rw [ExceptT.run_map, wp_map]
  refine wp_mono (wp_readOwnX hgood.1 hagrees) fun r l' hr => ?_
  rw [← hr]
  cases r with
  | error e =>
    refine ⟨fun hy => absurd hy (not_yields_failed (by decide)), ?_⟩
    rintro ⟨-, value, h, -⟩
    cases h
  | ok value =>
    refine yields_deliver.trans ⟨fun h => ⟨hgood, value, rfl, h⟩, ?_⟩
    rintro ⟨-, value', h, hcopy⟩
    rwa [Option.some.inj h]

theorem validRequest_y (hpid : processId ≠ 0) : validRequest (yRequest processId) := by
  obtain ⟨hwide, hsmall⟩ := widened_processId hpid
  have hoffset : defaultYOffset ≠ 0 := by decide
  exact decide_eq_true ⟨rfl, rfl, .inr (.inr (.inr (.inr (.inl ⟨rfl, rfl, rfl⟩)))), hwide, hsmall,
    hoffset, .inr (.inl rfl), .inr (.inl rfl), .inl rfl⟩

/-- Y is only returned where the driver finds it. -/
theorem wp_deReadValue_y :
    wp (T.served process) (deReadValue sys processId DarkEdenValueType.y output errorOutput) l
      fun returned _ => returned.code = 0 → processId ≠ 0 ∧ T.api (.createFileW genericRead) = none ∧
        ∃ value, T.coordinate process (yRequest processId) = some value := by
  rw [deReadValue, wp_ite]
  refine ⟨fun _ hcode => absurd hcode Nat.one_ne_zero, fun hgood => ?_⟩
  have hpid : processId ≠ 0 := fun h => hgood (.inl h)
  rw [if_neg fun hc => hc.2.1 rfl, wp_bind]
  change wp _ ((fun response : Response => formatInt32 response.yBits) <$>
    (ExceptT.mk (accept <$> read sys processId (yRequest processId)) : Fallible Response)).run _ _
  rw [ExceptT.run_map, wp_map]
  refine (wp_map _ _ _ _).mpr (wp_mono (wp_read (yRequest processId) (validRequest_y hpid)
    ⟨.inr (.inr (.inr (.inr rfl))), .inr rfl⟩ l) fun outcome l' houtcome => ?_)
  replace houtcome : accepted (yRequest processId) outcome =
    if T.api (.createFileW genericRead) = none then T.coordinate process (yRequest processId)
    else none := houtcome
  rw [accepted] at houtcome
  cases hok : outcome.ok with
  | false =>
    have herror : accept outcome = .error (outcome.error.getD []) := by rw [accept, hok]; rfl
    rw [herror]
    exact fun hcode => absurd hcode (Nat.succ_ne_zero 1)
  | true =>
    have hdone : accept outcome = .ok outcome.response := by rw [accept, hok]; rfl
    rw [hok, if_pos rfl] at houtcome
    obtain ⟨hopen, hvalue⟩ := Option.ite_none_right_eq_some.mp houtcome.symm
    rw [hdone]
    exact fun _ => ⟨hpid, hopen, _, hvalue⟩

end Engine

section Chain

/-- The three objects on the way to Y, and the dword in front of it. -/
structure Path (T : Target sys) (imageBase : ULongPtr) (first second third x : ULong) : Prop where
  toFirst : T.dword (imageBase + defaultYOffset) = some first
  toSecond : T.field first 0x0C = some second
  toThird : T.field second 0x44 = some third
  toX : T.field third 0x20C = some x

/-- The pointer to the first object lies below 4 GiB, and every field that is read after it
above the image base. -/
def AboveImage (imageBase : ULongPtr) (first second third : ULong) : Prop :=
  imageBase + defaultYOffset ≤ 0xFFFFFFFF ∧ imageBase < first.setWidth 64 + 0x0C ∧
    imageBase < second.setWidth 64 + 0x44 ∧ imageBase < third.setWidth 64 + 0x20C

theorem walk_cons_eq_some {offset : ULong} {offsets : List ULong} {address final : ULongPtr} :
    T.walk (offset :: offsets) address = some final ↔ ∃ pointer, T.dword address = some pointer ∧
      (pointer ≠ 0 ∧ pointer ≤ 0xFFFFFFFF - offset) ∧
      T.walk offsets (pointer.setWidth 64 + offset.setWidth 64) = some final := by
  simp only [Target.walk, Option.bind_eq_bind, Option.bind_eq_some_iff, Option.guard_eq_some',
    exists_const, gt_iff_lt, BitVec.not_lt]

theorem path_of_coordinate {first second third x y : ULong}
    (hpath : Path T (sys.psGetProcessSectionBaseAddress process) first second third x)
    (hy : T.coordinate process (yRequest processId) = some y) :
    (T.ready ⟨process⟩ ∧ ImageRange sys (sys.psGetProcessSectionBaseAddress process) defaultYOffset) ∧
      (first ≠ 0 ∧ first ≤ 0xFFFFFFFF - 0x0C) ∧ (second ≠ 0 ∧ second ≤ 0xFFFFFFFF - 0x44) ∧
      (third ≠ 0 ∧ third ≤ 0xFFFFFFFF - 0x210) := by
  obtain ⟨hready, final, hwalk, -⟩ := Target.coordinate_eq_some.mp hy
  have hoffsets : PointerChase.offsets (yRequest processId) = [0x0C, 0x44, 0x210] := rfl
  rw [hoffsets] at hwalk
  obtain ⟨p₁, h₁, hp₁, hwalk⟩ := walk_cons_eq_some.mp hwalk
  obtain rfl : first = p₁ := Option.some.inj (hpath.toFirst.symm.trans h₁)
  obtain ⟨p₂, h₂, hp₂, hwalk⟩ := walk_cons_eq_some.mp hwalk
  obtain rfl : second = p₂ := Option.some.inj (hpath.toSecond.symm.trans h₂)
  obtain ⟨p₃, h₃, hp₃, hwalk⟩ := walk_cons_eq_some.mp hwalk
  obtain rfl : third = p₃ := Option.some.inj (hpath.toThird.symm.trans h₃)
  exact ⟨hready, hp₁, hp₂, hp₃⟩

theorem seen_field {pointer value : ULong} {offset : ULongPtr} {room : ULong}
    (hoffset : offset = room.setWidth 64) :
    seen T process (pointer.setWidth 64 + offset) = some value ↔
      Reachable T process ∧
        sys.psGetProcessSectionBaseAddress process < pointer.setWidth 64 + offset ∧
        pointer ≤ 0xFFFFFFFF - room ∧ T.field pointer offset = some value := by
  have hroom : pointer.setWidth 64 + offset ≤ 0xFFFFFFFF ↔ pointer ≤ 0xFFFFFFFF - room := by
    bv_omega
  rw [seen_eq_some, hroom]
  constructor
  · rintro ⟨⟨hreachable, hlow, hhigh⟩, hvalue⟩
    exact ⟨hreachable, hlow, hhigh, hvalue⟩
  · rintro ⟨hreachable, hlow, hhigh, hvalue⟩
    exact ⟨⟨hreachable, hlow, hhigh⟩, hvalue⟩

/-- The engine finds X at the end of a path that has no null pointer, leaves room for the offsets
and lies above the image. -/
theorem ownX_iff_path {value : ULong} :
    ownX T process = some value ↔ Reachable T process ∧
      sys.psGetProcessSectionBaseAddress process <
        sys.psGetProcessSectionBaseAddress process + defaultYOffset ∧
      ∃ first second third,
        Path T (sys.psGetProcessSectionBaseAddress process) first second third value ∧
        AboveImage (sys.psGetProcessSectionBaseAddress process) first second third ∧
        (first ≠ 0 ∧ first ≤ 0xFFFFFFFF - 0x0C) ∧ (second ≠ 0 ∧ second ≤ 0xFFFFFFFF - 0x44) ∧
        (third ≠ 0 ∧ third ≤ 0xFFFFFFFF - 0x20C) := by
  have hC : (0x0C : ULongPtr) = (0x0C : ULong).setWidth 64 := rfl
  have h44 : (0x44 : ULongPtr) = (0x44 : ULong).setWidth 64 := rfl
  have h20C : (0x20C : ULongPtr) = (0x20C : ULong).setWidth 64 := rfl
  simp only [ownX, Option.bind_eq_bind, Option.bind_eq_some_iff, Option.guard_eq_some', exists_const]
  constructor
  · rintro ⟨first, h₁, hne₁, second, h₂, hne₂, third, h₃, hne₃, h₄⟩
    obtain ⟨⟨hreachable, hlow₁, hhigh⟩, hfirst⟩ := seen_eq_some.mp h₁
    obtain ⟨-, hlow₂, hle₁, hsecond⟩ := (seen_field hC).mp h₂
    obtain ⟨-, hlow₃, hle₂, hthird⟩ := (seen_field h44).mp h₃
    obtain ⟨-, hlow₄, hle₃, hx⟩ := (seen_field h20C).mp h₄
    exact ⟨hreachable, hlow₁, first, second, third, ⟨hfirst, hsecond, hthird, hx⟩,
      ⟨hhigh, hlow₂, hlow₃, hlow₄⟩, ⟨hne₁, hle₁⟩, ⟨hne₂, hle₂⟩, hne₃, hle₃⟩
  · rintro ⟨hreachable, hlow₁, first, second, third, hpath, ⟨hhigh, hlow₂, hlow₃, hlow₄⟩,
      ⟨hne₁, hle₁⟩, ⟨hne₂, hle₂⟩, hne₃, hle₃⟩
    exact ⟨first, seen_eq_some.mpr ⟨⟨hreachable, hlow₁, hhigh⟩, hpath.toFirst⟩, hne₁,
      second, (seen_field hC).mpr ⟨hreachable, hlow₂, hle₁, hpath.toSecond⟩, hne₂,
      third, (seen_field h44).mpr ⟨hreachable, hlow₃, hle₂, hpath.toThird⟩, hne₃,
      (seen_field h20C).mpr ⟨hreachable, hlow₄, hle₃, hpath.toX⟩⟩

theorem lt_of_imageRange (h : ImageRange sys (sys.psGetProcessSectionBaseAddress process)
    defaultYOffset) : sys.psGetProcessSectionBaseAddress process <
      sys.psGetProcessSectionBaseAddress process + defaultYOffset := by
  have hroom := h.2
  have hhighest := sys.mmHighestUserAddress.isLt
  have hoffset : 0 < defaultYOffset.toNat := by decide
  rw [BitVec.lt_def, BitVec.toNat_add_of_lt (by omega)]
  omega

/-- The engine finds X on the same way exactly if nothing on it lies below the image. -/
theorem ownX_eq_some_iff {first second third x y : ULong}
    (hpath : Path T (sys.psGetProcessSectionBaseAddress process) first second third x)
    (hopen : T.api (.createFileW genericRead) = none)
    (hy : T.coordinate process (yRequest processId) = some y) (value : ULong) :
    ownX T process = some value ↔
      AboveImage (sys.psGetProcessSectionBaseAddress process) first second third ∧ value = x := by
  obtain ⟨⟨hready, hrange⟩, hfirst, hsecond, hne₃, hle₃⟩ := path_of_coordinate hpath hy
  rw [ownX_iff_path]
  constructor
  · rintro ⟨-, -, p₁, p₂, p₃, hfound, habove, -⟩
    obtain rfl := Option.some.inj (hpath.toFirst.symm.trans hfound.toFirst)
    obtain rfl := Option.some.inj (hpath.toSecond.symm.trans hfound.toSecond)
    obtain rfl := Option.some.inj (hpath.toThird.symm.trans hfound.toThird)
    exact ⟨habove, Option.some.inj (hfound.toX.symm.trans hpath.toX)⟩
  · rintro ⟨habove, rfl⟩
    exact ⟨⟨hopen, hready, hrange.1⟩, lt_of_imageRange hrange, first, second, third, hpath, habove,
      hfirst, hsecond, hne₃, by bv_omega⟩

end Chain

theorem copyOutput_eq_some {value text : WString} {output : Buffer} :
    copyOutput value output = some text ↔
      (output.usable ∧ value.length < output.capacity.toNat) ∧ value = text := by
  rw [copyOutput, Option.ite_none_left_eq_some, Option.some.injEq, not_or, ge_iff_le, Nat.not_le,
    Bool.not_eq_true', Bool.not_eq_false]

/-- Where Y was read, X is read from the same object exactly if no object on the way lies below
the image, and then it is the dword in front of Y. -/
theorem deReadValue_x_iff (T : Target sys) {env : WinEnv} (hfits : ∀ l o, T.Fits l o (env l o))
    (hopens : ∀ l o, Target.Opens sys false process o (env l o))
    (hagrees : Agrees T process processId) {outputY errorOutputY : Buffer}
    (hy : ((System.runUser sys client (deReadValue sys processId DarkEdenValueType.y outputY
      errorOutputY)).run env []).1.code = 0) {first second third x : ULong}
    (hpath : Path T (sys.psGetProcessSectionBaseAddress process) first second third x)
    (output errorOutput : Buffer) :
    let run := (System.runUser sys client (deReadValue sys processId DarkEdenValueType.x output
      errorOutput)).run env []
    run.1.code = 0 ∧ run.1.output = formatInt32 x ↔
      (output.usable ∧ errorOutput.usable ∧ (formatInt32 x).length < output.capacity.toNat) ∧
        AboveImage (sys.psGetProcessSectionBaseAddress process) first second third := by
  intro run
  have henv : ∀ l o, (T.openedSystem false process).rely l o (env l o) :=
    fun l o => ⟨hfits l o, hopens l o⟩
  obtain ⟨hpid, hopen, y, hcoordinate⟩ :=
    (run_of_wp henv (Target.wp_runUser wp_deReadValue_y (l := []) rfl)).1 hy
  have hx : Yields run.1 (formatInt32 x) ↔ _ :=
    (run_of_wp henv (Target.wp_runUser (wp_deReadValue_x hagrees (formatInt32 x)) (l := []) rfl)).1
  refine hx.trans ⟨?_, ?_⟩
  · rintro ⟨⟨-, hout, herr⟩, value, hvalue, hcopy⟩
    obtain ⟨habove, rfl⟩ := (ownX_eq_some_iff hpath hopen hcoordinate value).mp hvalue
    exact ⟨⟨hout, herr, (copyOutput_eq_some.mp hcopy).1.2⟩, habove⟩
  · rintro ⟨⟨hout, herr, hlength⟩, habove⟩
    exact ⟨⟨hpid, hout, herr⟩, x, (ownX_eq_some_iff hpath hopen hcoordinate x).mpr ⟨habove, rfl⟩,
      copyOutput_eq_some.mpr ⟨⟨hout, hlength⟩, rfl⟩⟩

/-- A game with the player at 100, 200, whose first object lies at the given address. -/
def playerGame (first : ULong) : Target samplePlatform := .ofCells samplePlatform gameApi [
  (0x00DDF9A8, first), (first.setWidth 64 + 0x0C, 0x01600000), (0x01600044, 0x01700000),
  (0x0170020C, 100), (0x01700210, 200)]

theorem playerGame_path (first : ULong) (h : first = 0x01500000 ∨ first = 0x00200000) :
    Path (playerGame first) (samplePlatform.psGetProcessSectionBaseAddress 9) first 0x01600000
      0x01700000 100 := by
  obtain rfl | rfl := h
  · exact ⟨by decide +kernel, by decide +kernel, by decide +kernel, by decide +kernel⟩
  · exact ⟨by decide +kernel, by decide +kernel, by decide +kernel, by decide +kernel⟩

theorem playerGame_agrees (first : ULong) : Agrees (playerGame first) 9 7 := by
  have hanswers : answers (playerGame first) = answers (playerGame 0x01500000) := rfl
  rw [Agrees, imageBase, hanswers]
  decide +kernel

theorem playerGame_y (first : ULong) (h : first = 0x01500000 ∨ first = 0x00200000) :
    ((System.runUser samplePlatform 9 (deReadValue samplePlatform 7 DarkEdenValueType.y ⟨true, 32⟩
      ⟨true, 256⟩)).run ((playerGame first).env 9 sampleImage) []).1.code = 0 := by
  obtain rfl | rfl := h <;> decide +kernel

/-- X is read where all objects lie above the image. -/
theorem deReadValue_x_iff_sample :
    let run := (System.runUser samplePlatform 9 (deReadValue samplePlatform 7 DarkEdenValueType.x
      ⟨true, 32⟩ ⟨true, 256⟩)).run ((playerGame 0x01500000).env 9 sampleImage) []
    run.1.code = 0 ∧ run.1.output = formatInt32 100 :=
  (deReadValue_x_iff (playerGame 0x01500000) ((playerGame 0x01500000).env_fits 9 sampleImage)
    (fun l o => ((playerGame 0x01500000).env_opens sampleImage_expected l o).restrict false)
    (playerGame_agrees _) (playerGame_y _ (.inl rfl))
    (playerGame_path _ (.inl rfl)) ⟨true, 32⟩ ⟨true, 256⟩).mpr
    ⟨⟨rfl, rfl, by decide +kernel⟩, by decide +kernel, by decide +kernel, by decide +kernel,
      by decide +kernel⟩

/-- Where the first object lies below the image, Y is read and X is not. -/
theorem deReadValue_x_misses :
    ∃ (T : Target samplePlatform) (env : WinEnv), (∀ l o, T.Fits l o (env l o)) ∧
      (∀ l o, Target.Opens samplePlatform false 9 o (env l o)) ∧ Agrees T 9 7 ∧
      ((System.runUser samplePlatform 9 (deReadValue samplePlatform 7 DarkEdenValueType.y ⟨true, 32⟩
        ⟨true, 256⟩)).run env []).1.code = 0 ∧
      Path T (samplePlatform.psGetProcessSectionBaseAddress 9) 0x00200000 0x01600000 0x01700000 100 ∧
      ((System.runUser samplePlatform 9 (deReadValue samplePlatform 7 DarkEdenValueType.x ⟨true, 32⟩
        ⟨true, 256⟩)).run env []).1.code = 2 := by
  exact ⟨playerGame 0x00200000, _, (playerGame 0x00200000).env_fits 9 sampleImage,
    fun l o => ((playerGame 0x00200000).env_opens sampleImage_expected l o).restrict false,
    playerGame_agrees _, playerGame_y _ (.inr rfl), playerGame_path _ (.inr rfl), by decide +kernel⟩

end DarkEden.OwnCoordinates
