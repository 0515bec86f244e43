import DarkEden.OwnCoordinates
import DarkEden.PythonClient

namespace DarkEden.PythonValue

open Interaction Protocol Client Engine EngineRules ListingText PythonClient OwnCoordinates
open Json (Text codes decimal digitsValue isDigit)

section Source

inductive ValueType
  | x
  | y
  | characterName
  deriving DecidableEq

def ValueType.id : ValueType → DWord
  | .x => DarkEdenValueType.x
  | .y => DarkEdenValueType.y
  | .characterName => DarkEdenValueType.characterName

inductive Value
  | int (n : Int)
  | str (s : Text)
  deriving DecidableEq

def underscore : Nat := 0x5F

def isSpace (c : Nat) : Bool := 0x09 ≤ c && c ≤ 0x0D || c == 0x20

def strip (text : Text) : Text := ((text.dropWhile isSpace).reverse.dropWhile isSpace).reverse

/-- Digits, between which single underscores may stand. -/
def parseDigits (text : Text) : Option Nat :=
  let groups := text.splitOn underscore
  if ∀ group ∈ groups, group ≠ [] ∧ ∀ c ∈ group, isDigit c then some (digitsValue groups.flatten)
  else none

/-- `int(text)` of a text in ASCII. -/
def parseInt (text : Text) : Option Int :=
  let text := strip text
  if text.head? = some 0x2D then (parseDigits text.tail).map fun n : Nat => -(n : Int)
  else (parseDigits (if text.head? = some 0x2B then text.tail else text)).map Int.ofNat

/-- `list_processes`; the engine writes the process ids that fit into the array. -/
def listProcesses (processes : List DWord) : List DWord := processes.take 128

def chosen (processes : List DWord) : Option Int → Except PythonError Int
  | some pid => .ok pid
  | none =>
    match listProcesses processes with
    | [] => .error (.darkEdenError (codes "darkeden.exe가 실행 중이지 않습니다."))
    | [process] => .ok process.toNat
    | _ => .error (.darkEdenError (codes "프로세스가 여러 개입니다. pid를 지정하세요."))

def valueOutput : Buffer := createUnicodeBuffer 512

def received (kind : ValueType) (returned : Returned) : Except PythonError Value :=
  if returned.code ≠ 0 then
    let error := bufferValue returned.error
    .error (.darkEdenError (if error ≠ [] then error
      else codes "값을 읽지 못했습니다 (오류 " ++ decimal returned.code ++ codes ")."))
  else
    let text := bufferValue returned.output
    if kind = .x ∨ kind = .y then
      match parseInt text with
      | some n => .ok (.int n)
      | none => .error (.valueError (codes "invalid literal for int() with base 10: '" ++ text ++
          codes "'"))
    else .ok (.str text)

/-- `read_value`, where `processes` are the processes that the engine finds. -/
def readValue (sys : Platform) (processes : List DWord) (kind : ValueType) (pid : Option Int) :
    User (Except PythonError Value) :=
  match chosen processes pid with
  | .error error => pure (.error error)
  | .ok pid =>
    if ¬(0 < pid ∧ pid ≤ 0xFFFFFFFF) then
      pure (.error (.valueError (codes "pid는 양의 32비트 정수여야 합니다.")))
    else received kind <$> deReadValue sys (BitVec.ofInt 32 pid) kind.id valueOutput errorOutput

def ValueType.name : ValueType → Text
  | .x => codes "X"
  | .y => codes "Y"
  | .characterName => codes "CHARACTER_NAME"

def Value.text : Value → Text
  | .int n => codes (toString n)
  | .str s => s

def messageOf : PythonError → Text
  | .valueError message => message
  | .darkEdenError message => message

/-- What `read_all` sets: the values and the status line. -/
structure Readings where
  values : ValueType → Text
  status : Text

def report (kind : ValueType) : Except PythonError Value → Text × Option Text
  | .ok value => (value.text, none)
  | .error exc => (codes "오류", some (kind.name ++ codes ": " ++ messageOf exc))

def readKind (sys : Platform) (pid : Int) (kind : ValueType) : User (Text × Option Text) :=
  report kind <$> readValue sys [] kind (some pid)

def statusOf (errors : List Text) : Text :=
  if errors ≠ [] then (errors.intersperse (codes " / ")).flatten else codes "모든 값을 읽었습니다."

/-- `read_all` of the window with a process id chosen. -/
def readAll (sys : Platform) (pid : Int) : User Readings := do
  let x ← readKind sys pid .x
  let y ← readKind sys pid .y
  let characterName ← readKind sys pid .characterName
  return {
    values := fun
      | .x => x.1
      | .y => y.1
      | .characterName => characterName.1
    status := statusOf ([x.2, y.2, characterName.2].filterMap id) }

end Source

section Numbers

/-! `int()` reads back what `FormatValue` and `to_wstring` spell. -/

theorem decimal_ne_nil (n : Nat) : decimal n ≠ [] := by
  obtain ⟨-, h⟩ | ⟨c, tail, h, -⟩ := Json.decimal_cases n <;> simp [h]

theorem isDigit_of_mem {n c : Nat} (h : c ∈ decimal n) : 0x30 ≤ c ∧ c ≤ 0x39 := by
  simpa [isDigit] using Json.isDigit_of_mem_decimal h

theorem parseDigits_decimal (n : Nat) : parseDigits (decimal n) = some n := by
  have hsplit : (decimal n).splitOn underscore = [decimal n] := by
    apply List.splitOnP_eq_singleton
    intro c hc
    have hdigit := isDigit_of_mem hc
    exact beq_false_of_ne (by simp only [underscore]; omega)
  have hgroups : ∀ group ∈ [decimal n], group ≠ [] ∧ ∀ c ∈ group, isDigit c := by
    intro group hgroup
    obtain rfl := List.mem_singleton.mp hgroup
    exact ⟨decimal_ne_nil n, fun c hc => Json.isDigit_of_mem_decimal hc⟩
  simp only [parseDigits, hsplit]
  rw [if_pos hgroups, List.flatten_singleton, Json.digitsValue_decimal]

theorem strip_of_notMem {text : Text} (h : ∀ c ∈ text, isSpace c = false) : strip text = text := by
  have hdrop : ∀ {text : Text}, (∀ c ∈ text, isSpace c = false) → text.dropWhile isSpace = text := by
    intro text h
    cases text with
    | nil => rfl
    | cons c rest => exact List.dropWhile_cons_of_neg (by simp [h c (.head _)])
  rw [strip, hdrop h, hdrop (fun c hc => h c (List.mem_reverse.mp hc)), List.reverse_reverse]

def spelled (n : Int) : Text := codes (toString n)

theorem spelled_ofNat (n : Nat) : spelled (.ofNat n) = decimal n := rfl

theorem spelled_negSucc (n : Nat) : spelled (.negSucc n) = 0x2D :: decimal (n + 1) := by
  have hrepr : (Int.negSucc n).repr = "-" ++ (n + 1).repr := rfl
  rw [spelled, decimal, Int.toString_eq_repr, Nat.toString_eq_repr, hrepr, codes, codes,
    String.toList_append, List.map_append]
  rfl

theorem mem_spelled {n : Int} {c : Nat} (h : c ∈ spelled n) : 0x30 ≤ c ∧ c ≤ 0x39 ∨ c = 0x2D := by
  cases n with
  | ofNat n => exact .inl (isDigit_of_mem h)
  | negSucc n =>
    rw [spelled_negSucc] at h
    obtain rfl | h := List.mem_cons.mp h
    · exact .inr rfl
    · exact .inl (isDigit_of_mem h)

theorem parseInt_spelled (n : Int) : parseInt (spelled n) = some n := by
  have hstrip : strip (spelled n) = spelled n := by
    apply strip_of_notMem
    intro c hc
    have hascii := mem_spelled hc
    simp only [isSpace, Bool.or_eq_false_iff, Bool.and_eq_false_iff, decide_eq_false_iff_not,
      beq_eq_false_iff_ne]
    omega
  simp only [parseInt, hstrip]
  cases n with
  | ofNat n =>
    have hhead : ∀ c, (decimal n).head? = some c → 0x30 ≤ c ∧ c ≤ 0x39 :=
      fun c hc => isDigit_of_mem (List.mem_of_head? hc)
    have hminus : (decimal n).head? ≠ some 0x2D := fun h => absurd (hhead _ h) (by decide)
    have hplus : (decimal n).head? ≠ some 0x2B := fun h => absurd (hhead _ h) (by decide)
    rw [spelled_ofNat, if_neg hminus, if_neg hplus, parseDigits_decimal]
    rfl
  | negSucc n =>
    rw [spelled_negSucc, List.head?_cons, if_pos rfl, List.tail_cons, parseDigits_decimal]
    rfl

theorem bufferValue_formatInt32 (bits : ULong) :
    bufferValue (formatInt32 bits) = spelled bits.toInt := by
  have hchar : ∀ c ∈ (toString bits.toInt).toList, 0x2D ≤ c.toNat ∧ c.toNat ≤ 0x39 := by
    intro c hc
    have hascii := mem_spelled (n := bits.toInt) (List.mem_map_of_mem hc)
    omega
  have hbasic : Basic (toString bits.toInt) := by
    apply List.all_eq_true.mpr
    intro c hc
    have hascii := hchar c hc
    exact decide_eq_true (by omega)
  have hunits : ∀ u ∈ formatInt32 bits, (u != 0) = true := by
    intro u hu
    obtain ⟨c, hc, rfl⟩ := List.mem_map.mp hu
    have hascii := hchar c hc
    have hcode := toNat_of_basic (toNat_lt_of_basic hbasic hc)
    rw [bne_iff_ne]
    intro hzero
    rw [hzero] at hcode
    have : (0 : WChar).toNat = 0 := rfl
    omega
  rw [bufferValue, List.takeWhile_eq_self_iff.mpr hunits]
  exact decode_wide hbasic

theorem length_formatInt32 (bits : ULong) : (formatInt32 bits).length ≤ 11 := by
  have hdecimal : ∀ n < 10 ^ 10, (decimal n).length ≤ 10 := by
    intro n hn
    have hlength := length_toWString (k := 10) (by decide) hn
    rw [toWString, wide, List.length_map] at hlength
    rwa [decimal, codes, List.length_map]
  have hspelled : (formatInt32 bits).length = (spelled bits.toInt).length := by
    rw [formatInt32, wide, spelled, codes, List.length_map, List.length_map]
  have hlow := BitVec.le_toInt bits
  have hhigh := BitVec.toInt_lt (x := bits)
  rw [hspelled]
  generalize bits.toInt = n at *
  cases n with
  | ofNat n =>
    rw [Int.ofNat_eq_natCast] at hhigh
    exact Nat.le_succ_of_le (hdecimal n (by omega))
  | negSucc n =>
    rw [spelled_negSucc, List.length_cons]
    have hlength := hdecimal (n + 1) (by omega)
    omega

end Numbers

section Game

open Target (accepted)
open ReaderRules (ImageRange)

variable {sys : Platform} {T : Target sys} {process client : PEProcess} {processId : DWord}
variable {l : Log UserAns} {kind : ValueType}

def pathOffsets : ValueType → List ULong
  | .x => [0x0C, 0x44, 0x20C]
  | .y => [0x0C, 0x44, 0x210]
  | .characterName => []

/-- The number that lies in the memory of the game at the end of the way to a coordinate. -/
def number (T : Target sys) (process : PEProcess) (kind : ValueType) : Option ULong :=
  let imageBase := sys.psGetProcessSectionBaseAddress process
  if T.ready ⟨process⟩ ∧ ImageRange sys imageBase defaultYOffset then
    T.walk (pathOffsets kind) (imageBase + defaultYOffset) >>= T.dword
  else none

/-- All that is read on the way to X lies above the image, and the pointer it begins with below
4 GiB. -/
def PathAbove (T : Target sys) (process : PEProcess) : Prop :=
  ∃ first second third x,
    Path T (sys.psGetProcessSectionBaseAddress process) first second third x ∧
      AboveImage (sys.psGetProcessSectionBaseAddress process) first second third

/-- The device opens and memory has the number; X must be above the image on top of that. -/
structure Readable (T : Target sys) (process : PEProcess) (kind : ValueType) (value : ULong) :
    Prop where
  device : T.api (.createFileW genericRead) = none
  number : number T process kind = some value
  above : kind = .x → PathAbove T process

/-- What the engine gets for the two coordinates. -/
def answer (T : Target sys) (process : PEProcess) (processId : DWord) : ValueType → Option ULong
  | .x => ownX T process
  | .y => if T.api (.createFileW genericRead) = none then
      T.coordinate process (yRequest processId) else none
  | .characterName => none

theorem number_x_iff {value : ULong} :
    number T process .x = some value ↔ (T.ready ⟨process⟩ ∧
      ImageRange sys (sys.psGetProcessSectionBaseAddress process) defaultYOffset) ∧
      ∃ first second third,
        Path T (sys.psGetProcessSectionBaseAddress process) first second third value ∧
        (first ≠ 0 ∧ first ≤ 0xFFFFFFFF - 0x0C) ∧ (second ≠ 0 ∧ second ≤ 0xFFFFFFFF - 0x44) ∧
        (third ≠ 0 ∧ third ≤ 0xFFFFFFFF - 0x20C) := by
  simp only [number, pathOffsets, Option.ite_none_right_eq_some, Option.bind_eq_bind,
    Option.bind_eq_some_iff, walk_cons_eq_some]
  constructor
  · rintro ⟨hready, address, ⟨first, h₁, hp₁, second, h₂, hp₂, third, h₃, hp₃, h₄⟩, hx⟩
    obtain rfl := Option.some.inj h₄
    exact ⟨hready, first, second, third, ⟨h₁, h₂, h₃, hx⟩, hp₁, hp₂, hp₃⟩
  · rintro ⟨hready, first, second, third, hpath, hp₁, hp₂, hp₃⟩
    exact ⟨hready, _, ⟨first, hpath.toFirst, hp₁, second, hpath.toSecond, hp₂, third, hpath.toThird,
      hp₃, rfl⟩, hpath.toX⟩

theorem answer_iff (hkind : kind ≠ .characterName) {value : ULong} :
    answer T process processId kind = some value ↔ Readable T process kind value := by
  cases kind with
  | characterName => exact absurd rfl hkind
  | x =>
    rw [answer, ownX_iff_path]
    constructor
    · rintro ⟨⟨hopen, hready, hbase⟩, hlow, first, second, third, hpath, habove, hp₁, hp₂, hp₃⟩
      have hrange : ImageRange sys (sys.psGetProcessSectionBaseAddress process) defaultYOffset := by
        have hle := le_of_dword hpath.toFirst
        rw [BitVec.lt_def] at hlow
        rw [BitVec.le_def] at hle
        refine ⟨hbase, ?_⟩
        bv_omega
      exact ⟨hopen, number_x_iff.mpr ⟨⟨hready, hrange⟩, first, second, third, hpath, hp₁, hp₂, hp₃⟩,
        fun _ => ⟨first, second, third, value, hpath, habove⟩⟩
    · rintro ⟨hopen, hnumber, habove⟩
      obtain ⟨⟨hready, hrange⟩, first, second, third, hpath, hp₁, hp₂, hp₃⟩ := number_x_iff.mp hnumber
      obtain ⟨p₁, p₂, p₃, x, hfound, habove⟩ := habove rfl
      obtain rfl := Option.some.inj (hpath.toFirst.symm.trans hfound.toFirst)
      obtain rfl := Option.some.inj (hpath.toSecond.symm.trans hfound.toSecond)
      obtain rfl := Option.some.inj (hpath.toThird.symm.trans hfound.toThird)
      exact ⟨⟨hopen, hready, hrange.1⟩, lt_of_imageRange hrange, first, second, third, hpath, habove,
        hp₁, hp₂, hp₃⟩
  | y =>
    have hnumber : T.coordinate process (yRequest processId) = number T process .y := rfl
    rw [answer, Option.ite_none_right_eq_some, hnumber]
    exact ⟨fun h => ⟨h.1, h.2, nofun⟩, fun h => ⟨h.device, h.number⟩⟩

theorem answer_eq_none (hkind : kind ≠ .characterName) :
    answer T process processId kind = none ↔ ¬∃ value, Readable T process kind value := by
  have hanswer : ∀ value,
      Readable T process kind value ↔ answer T process processId kind = some value :=
    fun _ => (answer_iff hkind).symm
  simp only [hanswer, Option.eq_none_iff_forall_ne_some, not_exists]

theorem wp_readNumber (hpid : processId ≠ 0) (hagrees : Agrees T process processId)
    (hkind : kind ≠ .characterName) :
    wp (T.served process) (Engine.readValue sys processId kind.id).run l fun r _ =>
      r.toOption = (answer T process processId kind).map formatInt32 := by
  have htoOption : ∀ {α β : Type} (f : α → β) (r : Except WString α),
      (Except.map f r).toOption = r.toOption.map f := by
    intro α β f r
    cases r <;> rfl
  cases kind with
  | characterName => exact absurd rfl hkind
  | x =>
    have hx : ValueType.x.id = DarkEdenValueType.x := rfl
    rw [Engine.readValue, if_pos hx, ExceptT.run_map, wp_map]
    exact wp_mono (wp_readOwnX hpid hagrees) fun r _ hr => by rw [htoOption, hr, answer]
  | y =>
    have hne : ValueType.y.id ≠ DarkEdenValueType.x := by decide
    have hy : ValueType.y.id = DarkEdenValueType.y := rfl
    rw [Engine.readValue, if_neg hne, if_pos hy, ExceptT.run_map, wp_map]
    refine (wp_map _ _ _ _).mpr (wp_mono (wp_read (yRequest processId) (validRequest_y hpid)
      ⟨.inr (.inr (.inr (.inr rfl))), .inr rfl⟩ l) fun outcome _ houtcome => ?_)
    replace houtcome : accepted (yRequest processId) outcome = answer T process processId .y := houtcome
    rw [htoOption, ← houtcome, accepted, accept]
    cases outcome.ok <;> rfl

theorem received_deliver (hkind : kind ≠ .characterName) (value : ULong) :
    received kind (deliver (formatInt32 value) valueOutput errorOutput) = .ok (.int value.toInt) := by
  have hroom : ¬((!valueOutput.usable) = true ∨
      (formatInt32 value).length ≥ valueOutput.capacity.toNat) := by
    rintro (h | h)
    · cases h
    · have hcapacity : valueOutput.capacity.toNat = 512 := rfl
      have hlength := length_formatInt32 value
      omega
  have hcopied : copyOutput (formatInt32 value) valueOutput = some (formatInt32 value) := if_neg hroom
  have hnumber : kind = .x ∨ kind = .y := by
    cases kind with
    | characterName => exact absurd rfl hkind
    | _ => simp
  have hdelivered : deliver (formatInt32 value) valueOutput errorOutput =
      ⟨0, formatInt32 value, []⟩ := by
    rw [deliver, hcopied]
  rw [received, hdelivered, if_neg (not_not.mpr rfl)]
  simp only [if_pos hnumber, bufferValue_formatInt32, parseInt_spelled]

theorem received_failed {code : Nat} (hcode : code ≠ 0) (error : WString) :
    ∃ message, received kind (failed code error errorOutput) = .error (.darkEdenError message) := by
  rw [received, if_pos (show (failed code error errorOutput).code ≠ 0 from hcode)]
  exact ⟨_, rfl⟩

def Tells (value : Option ULong) (r : Except PythonError Value) : Prop :=
  match value with
  | some value => r = .ok (.int value.toInt)
  | none => ∃ message, r = .error (.darkEdenError message)

theorem buffers_usable (hpid : processId ≠ 0) :
    ¬(processId = 0 ∨ (!valueOutput.usable) = true ∨ (!errorOutput.usable) = true) := by
  rintro (h | h | h)
  · exact hpid h
  · cases h
  · cases h

theorem wp_received (hpid : processId ≠ 0) (hagrees : Agrees T process processId)
    (hkind : kind ≠ .characterName) :
    wp (T.served process) (received kind <$> deReadValue sys processId kind.id valueOutput errorOutput)
      l fun r _ => Tells (answer T process processId kind) r := by
  have hknown : ¬(kind.id ≠ DarkEdenValueType.x ∧ kind.id ≠ DarkEdenValueType.y ∧
      kind.id ≠ DarkEdenValueType.characterName) := by
    cases kind <;> simp [ValueType.id]
  rw [wp_map, deReadValue, if_neg (buffers_usable hpid), if_neg hknown, wp_bind]
  refine wp_mono (wp_readNumber hpid hagrees hkind) fun r _ hr => ?_
  cases r with
  | error error =>
    have hnone : answer T process processId kind = none := Option.map_eq_none_iff.mp hr.symm
    rw [hnone]
    exact received_failed (Nat.succ_ne_zero 1) error
  | ok text =>
    obtain ⟨value, hvalue, rfl⟩ := Option.map_eq_some_iff.mp hr.symm
    rw [hvalue]
    exact received_deliver hkind value

theorem readValue_eq (sys : Platform) (kind : ValueType) {processes : List DWord} {pid : Option Int}
    (hpid : processId ≠ 0) (hchosen : chosen processes pid = .ok processId.toNat) :
    readValue sys processes kind pid =
      received kind <$> deReadValue sys processId kind.id valueOutput errorOutput := by
  have hlt := processId.isLt
  have hrange : ¬¬((0 : Int) < processId.toNat ∧ (processId.toNat : Int) ≤ 0xFFFFFFFF) := by
    have hne : processId.toNat ≠ 0 := fun h => hpid (BitVec.eq_of_toNat_eq h)
    omega
  have hpidOf : BitVec.ofInt 32 (processId.toNat : Int) = processId := by
    rw [BitVec.ofInt_natCast, BitVec.ofNat_toNat, BitVec.setWidth_eq]
  rw [readValue, hchosen]
  simp only [if_neg hrange, hpidOf]

/-- The call comes back with the signed number in the memory of the game, or with a `DarkEdenError`
where none can be read. -/
structure Answers (T : Target sys) (process : PEProcess) (kind : ValueType)
    (r : Except PythonError Value) : Prop where
  value : ∀ value, Readable T process kind value → r = .ok (.int value.toInt)
  error : (¬∃ value, Readable T process kind value) → ∃ message, r = .error (.darkEdenError message)

theorem Tells.answers {r : Except PythonError Value} (hkind : kind ≠ .characterName)
    (h : Tells (answer T process processId kind) r) : Answers T process kind r where
  value value hvalue := by rwa [(answer_iff hkind).mpr hvalue] at h
  error hnone := by rwa [(answer_eq_none hkind).mpr hnone] at h

/-- `read_value(X)` and `read_value(Y)` tell what lies in the memory of the game, through driver,
client, engine and buffer. -/
theorem readValue_exact (T : Target sys) (client : PEProcess) {env : WinEnv}
    (henv : ∀ l o, (T.openedSystem false process).rely l o (env l o)) {processes : List DWord}
    {pid : Option Int} (hpid : processId ≠ 0) (hchosen : chosen processes pid = .ok processId.toNat)
    (hagrees : Agrees T process processId) (hkind : kind ≠ .characterName) :
    Answers T process kind
      ((System.runUser sys client (readValue sys processes kind pid)).run env []).1 := by
  rw [readValue_eq sys kind hpid hchosen]
  exact (Target.run_of_served henv (wp_received hpid hagrees hkind)).answers hkind

/-- The only process is the one that is meant. -/
theorem readValue_sample : answer (playerGame 0x01500000) 9 7 .x = some 100 ∧
    Answers (playerGame 0x01500000) 9 .x ((System.runUser samplePlatform 9
      (readValue samplePlatform [7] .x none)).run ((playerGame 0x01500000).env 9 sampleImage) []).1 :=
  ⟨by decide +kernel, readValue_exact (playerGame 0x01500000) 9
    (fun l o => ⟨(playerGame 0x01500000).env_fits 9 sampleImage l o,
      ((playerGame 0x01500000).env_opens sampleImage_expected l o).restrict false⟩)
    (by decide) rfl (playerGame_agrees _) (by decide)⟩

def Named (errors : Option Text) : Prop := ∀ error ∈ errors, ∃ kind : ValueType, kind.name <+: error

theorem wp_readCharacterName (l : Log UserAns) :
    wp (T.served process) (readCharacterName sys processId).run l fun _ _ => True := by
  rw [readCharacterName]
  refine wp_run_bind.mpr ((wp_map _ _ _ _).mpr (wp_mono (wp_readText _ _ _) fun response _ _ => ?_))
  cases accept response with
  | error error => trivial
  | ok response =>
    simp only
    split
    · refine wp_run_bind.mpr (wp_run_lift.mpr (wp_mono (wp_readText _ _ _) fun _ _ _ => ?_))
      trivial
    · trivial

theorem named_report (kind : ValueType) (r : Except PythonError Value) : Named (report kind r).2 := by
  cases r with
  | ok value => exact nofun
  | error exc =>
    rintro error ⟨⟩
    exact ⟨kind, _, (List.append_assoc _ _ _).symm⟩

theorem wp_readKind_characterName (hpid : processId ≠ 0) (l : Log UserAns) :
    wp (T.served process) (readKind sys processId.toNat .characterName) l fun r _ => Named r.2 := by
  have hreturned : wp (T.served process) (deReadValue sys processId ValueType.characterName.id
      valueOutput errorOutput) l fun _ _ => True := by
    have hread : Engine.readValue sys processId ValueType.characterName.id =
        readCharacterName sys processId := by
      rw [Engine.readValue, if_neg (by decide), if_neg (by decide)]
    rw [deReadValue, if_neg (buffers_usable hpid), if_neg (by decide), hread, wp_bind]
    refine wp_mono (wp_readCharacterName l) fun r _ _ => ?_
    cases r <;> trivial
  rw [readKind, readValue_eq sys _ hpid rfl, wp_map, wp_map]
  exact wp_mono hreturned fun _ _ _ => named_report _ _

def shown : Option ULong → Text
  | some value => spelled value.toInt
  | none => codes "오류"

theorem wp_readKind (hpid : processId ≠ 0) (hagrees : Agrees T process processId)
    (hkind : kind ≠ .characterName) (l : Log UserAns) :
    wp (T.served process) (readKind sys processId.toNat kind) l fun r _ =>
      r.1 = shown (answer T process processId kind) ∧
        (r.2 = none ↔ (answer T process processId kind).isSome) ∧ Named r.2 := by
  rw [readKind, readValue_eq sys kind hpid rfl, wp_map]
  refine wp_mono (wp_received hpid hagrees hkind) fun r _ hr => ?_
  cases hnumber : answer T process processId kind with
  | some value =>
    rw [hnumber] at hr
    obtain rfl : r = .ok (.int value.toInt) := hr
    exact ⟨rfl, iff_of_true rfl rfl, named_report kind _⟩
  | none =>
    rw [hnumber] at hr
    obtain ⟨message, rfl⟩ : ∃ message, r = .error (.darkEdenError message) := hr
    exact ⟨rfl, iff_of_false nofun nofun, named_report kind _⟩

/-- The status line says that all values were read exactly if there were no errors. -/
theorem statusOf_eq {errors : List Text}
    (h : ∀ error ∈ errors, ∃ kind : ValueType, kind.name <+: error) :
    statusOf errors = codes "모든 값을 읽었습니다." ↔ errors = [] := by
  cases errors with
  | nil => exact iff_of_true rfl rfl
  | cons error rest =>
    refine iff_of_false (fun hstatus => ?_) nofun
    rw [statusOf, if_pos (List.cons_ne_nil _ _)] at hstatus
    obtain ⟨kind, tail, rfl⟩ := h error (.head _)
    have hjoined : ∃ tail', (((kind.name ++ tail) :: rest).intersperse (codes " / ")).flatten =
        kind.name ++ tail' := by
      cases rest with
      | nil => exact ⟨tail, List.append_nil _⟩
      | cons second rest => exact ⟨_, List.append_assoc _ _ _⟩
    obtain ⟨tail', hjoined⟩ := hjoined
    rw [hjoined] at hstatus
    have hname : kind.name ≠ [] := by cases kind <;> decide
    have hhead := congrArg List.head? hstatus
    rw [List.head?_append_of_ne_nil _ hname] at hhead
    cases kind <;> exact absurd hhead (by decide)

/-- The window shows the number in the memory of the game, or the word for an error where none can
be read. -/
structure Displays (T : Target sys) (process : PEProcess) (kind : ValueType) (text : Text) : Prop where
  value : ∀ value, Readable T process kind value → text = spelled value.toInt
  error : (¬∃ value, Readable T process kind value) → text = codes "오류"

/-- The window shows both coordinates, and does not call a reading complete that is not. -/
structure Shows (T : Target sys) (process : PEProcess) (r : Readings) : Prop where
  x : Displays T process .x (r.values .x)
  y : Displays T process .y (r.values .y)
  complete : r.status = codes "모든 값을 읽었습니다." →
    (∃ value, Readable T process .x value) ∧ ∃ value, Readable T process .y value

theorem displays_shown (processId : DWord) (hkind : kind ≠ .characterName) :
    Displays T process kind (shown (answer T process processId kind)) where
  value value hvalue := by rw [(answer_iff hkind).mpr hvalue, shown]
  error hnone := by rw [(answer_eq_none hkind).mpr hnone, shown]

theorem readable_of_isSome (hkind : kind ≠ .characterName)
    (h : (answer T process processId kind).isSome) : ∃ value, Readable T process kind value :=
  (Option.isSome_iff_exists.mp h).imp fun _ hvalue => (answer_iff hkind).mp hvalue

theorem wp_readAll (hpid : processId ≠ 0) (hagrees : Agrees T process processId)
    (l : Log UserAns) :
    wp (T.served process) (readAll sys processId.toNat) l fun r _ => Shows T process r := by
  rw [readAll, wp_bind]
  refine wp_mono (wp_readKind hpid hagrees (by decide) _) fun x l₁ ⟨hx, hxerror, hxnamed⟩ => ?_
  rw [wp_bind]
  refine wp_mono (wp_readKind hpid hagrees (by decide) _) fun y l₂ ⟨hy, hyerror, hynamed⟩ => ?_
  rw [wp_bind]
  refine wp_mono (wp_readKind_characterName hpid _) fun name l₃ hnamed => ?_
  refine ⟨hx ▸ displays_shown _ (by decide), hy ▸ displays_shown _ (by decide), fun hstatus => ?_⟩
  have hnone : [x.2, y.2, name.2].filterMap id = [] := by
    refine (statusOf_eq fun error herror => ?_).mp hstatus
    obtain ⟨e, he, hsome⟩ := List.mem_filterMap.mp herror
    have hnamed' : ∀ e ∈ [x.2, y.2, name.2], Named e := by
      simp only [List.mem_cons, List.not_mem_nil, or_false, forall_eq_or_imp, forall_eq]
      exact ⟨hxnamed, hynamed, hnamed⟩
    exact hnamed' e he error hsome
  have hall := List.filterMap_eq_nil_iff.mp hnone
  exact ⟨readable_of_isSome (by decide) (hxerror.mp (hall _ (.head _))),
    readable_of_isSome (by decide) (hyerror.mp (hall _ (.tail _ (.head _))))⟩

/-- What the button for reading shows is in the memory of the game. -/
theorem readAll_exact (T : Target sys) (client : PEProcess) {env : WinEnv}
    (henv : ∀ l o, (T.openedSystem false process).rely l o (env l o)) (hpid : processId ≠ 0)
    (hagrees : Agrees T process processId) :
    Shows T process
      ((System.runUser sys client (readAll sys processId.toNat)).run env []).1 :=
  Target.run_of_served henv (wp_readAll hpid hagrees [])

/-- Both coordinates are shown. -/
theorem readAll_sample :
    let r := ((System.runUser samplePlatform 9 (readAll samplePlatform (7 : DWord).toNat)).run
      ((playerGame 0x01500000).env 9 sampleImage) []).1
    Shows (playerGame 0x01500000) 9 r ∧ r.values .x = codes "100" ∧ r.values .y = codes "200" :=
  ⟨readAll_exact (playerGame 0x01500000) 9
    (fun l o => ⟨(playerGame 0x01500000).env_fits 9 sampleImage l o,
      ((playerGame 0x01500000).env_opens sampleImage_expected l o).restrict false⟩)
    (by decide) (playerGame_agrees _), by decide +kernel⟩

end Game

end DarkEden.PythonValue
