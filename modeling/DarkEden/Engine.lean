import DarkEden.Client

namespace DarkEden.Engine

open Interaction Protocol Client

section Text

/-- A buffer of the caller: whether its pointer is not null, and its capacity in characters. -/
structure Buffer where
  present : Bool
  capacity : DWord

def Buffer.usable (buffer : Buffer) : Bool := buffer.present && buffer.capacity != 0

/-- What `CopyOutput` stores in front of the terminator, if there is room. -/
def copyOutput (source : WString) (destination : Buffer) : Option WString :=
  if !destination.usable ∨ source.length ≥ destination.capacity.toNat then none else some source

def cpUtf8 : ULong := 65001
def mbErrInvalidChars : ULong := 8

/-- The result of `MultiByteToWideChar`, empty where it fails. -/
def converted (sys : Platform) (codePage flags : ULong) (bytes : List Byte) : WString :=
  (sys.multiByteToWideChar codePage flags bytes).getD []

def byteAt (data : Fin 256 → Byte) (i : Nat) : Byte := if h : i < 256 then data ⟨i, h⟩ else 0

def decodeText (sys : Platform) (response : TextResponse) (characterBytes : ULong)
    (strict : Bool) : WString :=
  let length := response.bytesRead.toNat
  if characterBytes = 2 then
    (List.range ((length + 1) / 2)).map fun i =>
      (byteAt response.data (2 * i)).setWidth 16 |||
        (byteAt response.data (2 * i + 1)).setWidth 16 <<< 8
  else
    let bytes := (List.range length).map (byteAt response.data)
    let utf8 := converted sys cpUtf8 mbErrInvalidChars bytes
    if length = 0 then []
    else if utf8 ≠ [] then utf8
    else converted sys 949 (if strict then mbErrInvalidChars else 0) bytes

/-- `FormatValue` of an `Int32`, and `to_wstring` of the same bits as a signed number. -/
def formatInt32 (bits : ULong) : WString := wide (toString bits.toInt)

def jsonCharacter (ch : WChar) : WString :=
  if ch = 0x22 ∨ ch = 0x5C then [0x5C, ch]
  else if ch < 0x20 then
    wide "\\u00" ++ [upperHexDigit (ch.toNat / 16), upperHexDigit (ch.toNat % 16)]
  else [ch]

def jsonString (value : WString) : WString :=
  wide "\"" ++ value.flatMap jsonCharacter ++ wide "\""

end Text

abbrev Fallible := ExceptT WString User

def require (condition : Prop) [Decidable condition] (error : WString) : Fallible Unit :=
  if condition then pure () else throw error

section ImageBase

def processQueryLimitedInformation : DWord := 0x1000

def openProcess (desiredAccess processId : DWord) : User Bool :=
  .ask (UserOp.api (.openProcess desiredAccess processId))

def virtualQueryEx (address : ULongPtr) : User (Option MemoryBasicInformation) :=
  .ask (UserOp.api (.virtualQueryEx address))

def getMappedFileNameW (address : ULongPtr) : User (Option WString) :=
  .ask (UserOp.api (.getMappedFileNameW address))

/-- `_wcsicmp` folds the letters of the C locale. -/
def lowerCase (c : WChar) : WChar := if 0x41 ≤ c ∧ c ≤ 0x5A then c + 0x20 else c

/-- The path has a backslash, and what follows the last one is the name of the game. -/
def namesGame (path : WString) : Bool :=
  let reversed := path.reverse
  reversed.contains 0x5C &&
    ((reversed.takeWhile (· != 0x5C)).reverse.map lowerCase == wide "darkeden.exe")

/-- The first region of an image that is mapped from the file of the game. -/
def isGame (region : MemoryBasicInformation) : User Bool :=
  if region.committed ∧ region.image ∧ region.baseAddress = region.allocationBase then do
    let path ← getMappedFileNameW region.baseAddress
    return path.any namesGame
  else return false

/-- One pass of the loop of `FindImageBase`: the next address, or how the loop ends. -/
def scanRegion (address : ULongPtr) : User (ULongPtr ⊕ Option ULongPtr) := do
  if address ≥ 0x100000000 then return .inr none
  match ← virtualQueryEx address with
  | none => return .inr none
  | some region =>
    if ← isGame region then return .inr (some region.allocationBase)
    let next := region.baseAddress + region.regionSize
    if next ≤ address then return .inr none
    return .inl next

/-- The address grows in every pass, so that the bound on the passes is never reached. -/
def findImageBase (processId : DWord) : Fallible ULongPtr := do
  let opened ← openProcess processQueryLimitedInformation processId
  require opened (wide "게임 프로세스의 이미지 주소를 조회할 수 없습니다.")
  match (← Program.loop scanRegion 0x100000000 0x10000 : Option (Option ULongPtr)) with
  | some (some imageBase) => return imageBase
  | _ => throw (wide "darkeden.exe의 이미지 주소를 찾지 못했습니다.")

end ImageBase

section Reads

variable (sys : Platform) (processId : DWord)

def directRequest (offset : ULongPtr) : Request :=
  ⟨version, sizeofRequest, processId.setWidth 64, offset, Axis.x, 0, ValueType.int32, 0⟩

def accept {ρ : Type} (outcome : Outcome ρ) : Except WString ρ :=
  if outcome.ok then .ok outcome.response else .error (outcome.error.getD [])

def readDword (imageBase address : ULongPtr) : Fallible ULong := do
  require (¬(address ≤ imageBase ∨ address > 0xFFFFFFFF))
    (wide "상대방 포인터 주소가 유효하지 않습니다.")
  let request := directRequest processId (address - imageBase)
  let response ← ExceptT.mk (accept <$> read sys processId request)
  return response.xBits

def readField (imageBase : ULongPtr) (pointer : ULong) (offset : ULongPtr) : Fallible ULong :=
  readDword sys processId imageBase (pointer.setWidth 64 + offset)

/-- A read whose error nobody looks at. -/
def attempt {α : Type} (p : Fallible α) : User (Option α) := Except.toOption <$> p.run

def emptyPath : WString := wide "Y 좌표 경로가 비어 있습니다."

def readOwnXFromYPath : Fallible ULong := do
  let imageBase ← findImageBase processId
  let first ← readDword sys processId imageBase (imageBase + defaultYOffset)
  require (first ≠ 0) emptyPath
  let second ← readField sys processId imageBase first 0x0C
  require (second ≠ 0) emptyPath
  let third ← readField sys processId imageBase second 0x44
  require (third ≠ 0) emptyPath
  readField sys processId imageBase third 0x20C

end Reads

section Nearby

structure Character where
  name : WString
  race : WString
  life : WString
  id : ULong
  x : ULong
  y : ULong
  deriving DecidableEq

/-- The variables of the loop over the nodes; the stack starts with its top. -/
structure Walk where
  pending : List ULong
  seenNodes : List ULong
  seenActors : List ULong
  characters : List Character

variable (sys : Platform) (processId : DWord) (imageBase : ULongPtr)

def raceName (raceFlag raceKind : ULong) : WString :=
  if raceFlag = 0x42 ∧ raceKind = 0 then wide "Ousters"
  else if raceFlag = 0 ∧ raceKind = 2 then wide "Vampire"
  else if raceFlag = 0x63 ∧ raceKind = 0 then wide "Slayer"
  else wide "미확인"

def lifeName (lifeFlag : ULong) : WString :=
  if lifeFlag = 1 then wide "생존" else if lifeFlag = 0 then wide "사망" else wide "미확인"

def raceNames : List WString := [wide "Ousters", wide "Vampire", wide "Slayer", wide "미확인"]
def lifeNames : List WString := [wide "생존", wide "사망", wide "미확인"]

omit sys processId imageBase in
theorem raceName_mem (raceFlag raceKind : ULong) : raceName raceFlag raceKind ∈ raceNames := by
  rw [raceName]
  split
  · exact List.mem_cons_self
  split
  · exact List.mem_cons_of_mem _ List.mem_cons_self
  split <;> decide

omit sys processId imageBase in
theorem lifeName_mem (lifeFlag : ULong) : lifeName lifeFlag ∈ lifeNames := by
  rw [lifeName]
  split
  · exact List.mem_cons_self
  split <;> decide

def readRace (actor : ULong) : User WString := do
  match ← attempt (readField sys processId imageBase actor 0x558) with
  | none => return wide "미확인"
  | some raceFlag =>
    match ← attempt (readField sys processId imageBase actor 0x610) with
    | none => return wide "미확인"
    | some raceKind => return raceName raceFlag raceKind

def readLife (actor : ULong) : User WString := do
  match ← attempt (readField sys processId imageBase actor 0x548) with
  | none => return wide "미확인"
  | some lifeFlag => return lifeName lifeFlag

def textRequest (offset : ULongPtr) : TextRequest :=
  ⟨version, sizeofTextRequest, processId.setWidth 64, offset, 1, 0⟩

def readOwnName : User WString := do
  let own ← readText sys processId (textRequest processId defaultTextOffset)
  return if own.ok then decodeText sys own.response 1 false else []

def readName (actor : ULong) : User WString := do
  let offset := actor.setWidth 64 + 0x544 - imageBase
  let name ← readText sys processId (textRequest processId offset)
  return if name.ok ∧ name.response.terminated ≠ 0 ∧ name.response.bytesRead > 0 then
    decodeText sys name.response 1 true else []

def readCharacter (key actor : ULong) (seenActors : List ULong) : User (Option Character) := do
  if actor = 0 ∨ actor ∈ seenActors then return none
  match ← attempt (readField sys processId imageBase actor 8) with
  | none => return none
  | some id =>
    match ← attempt (readField sys processId imageBase actor 0x0C) with
    | none => return none
    | some packed =>
      let x := packed &&& 0xFFFF
      let y := packed >>> 16
      if id = 0 ∨ id ≠ key ∨ x ≥ 5000 ∨ y ≥ 5000 then return none
      let race ← readRace sys processId imageBase actor
      let life ← readLife sys processId imageBase actor
      let name ← readName sys processId imageBase actor
      return some ⟨name, race, life, id, x, y⟩

def pushChild (header node child : ULong) (walk : Walk) : User Walk := do
  if child = 0 ∨ child = header ∨ child ∈ walk.seenNodes then return walk
  let parent ← attempt (readField sys processId imageBase child 4)
  return if parent = some node then { walk with pending := child :: walk.pending } else walk

/-- One pass of the loop: the variables after it, or the characters when the stack is empty. -/
def visit (header : ULong) (walk : Walk) : Fallible (Walk ⊕ List Character) := do
  match walk.pending with
  | [] => return .inr walk.characters
  | node :: pending =>
    let walk := { walk with pending := pending }
    if node = 0 ∨ node = header ∨ node ∈ walk.seenNodes then return .inl walk
    let walk := { walk with seenNodes := node :: walk.seenNodes }
    require (walk.seenNodes.length ≤ 2048) (wide "주변 캐릭터 목록의 크기가 비정상적입니다.")
    let left ← readField sys processId imageBase node 0
    let right ← readField sys processId imageBase node 8
    let key ← readField sys processId imageBase node 0x10
    let actor ← readField sys processId imageBase node 0x14
    let walk ← pushChild sys processId imageBase header node right walk
    let walk ← pushChild sys processId imageBase header node left walk
    match ← readCharacter sys processId imageBase key actor walk.seenActors with
    | none => return .inl walk
    | some character => return .inl { walk with
        seenActors := actor :: walk.seenActors, characters := walk.characters ++ [character] }

/-- What a pass leaves to the loop: an error ends it like a result. -/
def settle {σ β : Type} : Except WString (σ ⊕ β) → σ ⊕ Except WString β
  | .ok (.inl s) => .inl s
  | .ok (.inr b) => .inr (.ok b)
  | .error error => .inr (.error error)

/-- At most 2048 nodes are visited and each pushes two more, so 4098 passes empty the stack. -/
def walkTree (header root : ULong) : Fallible (List Character) := ExceptT.mk do
  let stopped ← Program.loop (fun walk => settle <$> (visit sys processId imageBase header walk).run)
    4098 ⟨[root], [], [], []⟩
  return stopped.getD (.error [])

/-- The single nameless character is the player; the others are called by their ids. -/
def nameCharacters (ownName : WString) (characters : List Character) : List Character :=
  let missing := characters.countP fun c => c.name = []
  let characters := if missing = 1 ∧ ownName ≠ [] then
    characters.map fun c => if c.name = [] then { c with name := ownName } else c else characters
  characters.map fun c =>
    if c.name = [] then { c with name := wide "ID_" ++ hex c.id.toNat 8 } else c

def jsonObject (c : Character) : WString :=
  wide "\x7b\"name\":" ++ jsonString c.name ++ wide ",\"race\":" ++ jsonString c.race ++
    wide ",\"life\":" ++ jsonString c.life ++ wide ",\"id\":" ++ toWString c.id.toNat ++
    wide ",\"x\":" ++ toWString c.x.toNat ++ wide ",\"y\":" ++ toWString c.y.toNat ++
    wide "\x7d"

def appendObject (json : WString) (c : Character) : Except WString WString :=
  if json.length > 60000 then .error (wide "주변 캐릭터 목록이 출력 한도를 초과했습니다.")
  else .ok (json ++ (if json.length > 1 then wide "," else []) ++ jsonObject c)

def jsonList (characters : List Character) : Except WString WString := do
  let json ← characters.foldlM appendObject (wide "[")
  return json ++ wide "]"

structure Listing where
  characters : List Character
  json : WString

def notReady : WString := wide "주변 캐릭터 목록이 아직 준비되지 않았습니다."

omit imageBase in
def readNearbyCharacters : Fallible Listing := do
  let imageBase ← findImageBase processId
  let manager ← readDword sys processId imageBase (imageBase + otherCharacterNameOffset)
  require (manager ≠ 0) notReady
  let header ← readField sys processId imageBase manager 0x34
  require (header ≠ 0) notReady
  let root ← readField sys processId imageBase header 4
  require (root ≠ 0) notReady
  let ownName ← readOwnName sys processId
  let found ← walkTree sys processId imageBase header root
  require (found ≠ [])
    (wide "주변 캐릭터를 찾지 못했습니다. 게임 화면에 접속한 뒤 다시 시도하세요.")
  let characters := nameCharacters ownName found
  let json ← ExceptT.mk (pure (jsonList characters))
  return ⟨characters, json⟩

end Nearby

section Exports

variable (sys : Platform) (processId : DWord)

namespace DarkEdenValueType
def x : DWord := 1
def y : DWord := 2
def characterName : DWord := 3
end DarkEdenValueType

structure Returned where
  code : Nat
  output : WString
  error : WString
  deriving DecidableEq

def failed (code : Nat) (error : WString) (errorOutput : Buffer) : Returned :=
  ⟨code, [], (copyOutput error errorOutput).getD []⟩

def deliver (value : WString) (output errorOutput : Buffer) : Returned :=
  match copyOutput value output with
  | some text => ⟨0, text, []⟩
  | none => failed 3 (wide "결과 버퍼가 너무 작습니다.") errorOutput

def yRequest : Request :=
  ⟨version, sizeofRequest, processId.setWidth 64, defaultYOffset, Axis.y, 4, ValueType.int32, 4⟩

/-- A single narrow character can be the first byte of UTF-16LE text. -/
def readCharacterName : Fallible WString := do
  let request := textRequest processId defaultTextOffset
  let response ← ExceptT.mk (accept <$> readText sys processId request)
  let value := decodeText sys response 1 false
  if response.bytesRead = 1 ∧ response.terminated ≠ 0 then
    let utf16 ← readText sys processId { request with characterBytes := 2 }
    let decoded := decodeText sys utf16.response 2 false
    return if utf16.ok ∧ utf16.response.terminated ≠ 0 ∧ utf16.response.bytesRead ≥ 4 ∧ decoded ≠ []
      then decoded else value
  else return value

def readValue (valueType : DWord) : Fallible WString :=
  if valueType = DarkEdenValueType.x then formatInt32 <$> readOwnXFromYPath sys processId
  else if valueType = DarkEdenValueType.y then
    (fun response => formatInt32 response.yBits) <$>
      ExceptT.mk (accept <$> read sys processId (yRequest processId))
  else readCharacterName sys processId

def deReadValue (valueType : DWord) (output errorOutput : Buffer) : User Returned := do
  if processId = 0 ∨ !output.usable ∨ !errorOutput.usable then return ⟨1, [], []⟩
  if valueType ≠ DarkEdenValueType.x ∧ valueType ≠ DarkEdenValueType.y ∧
      valueType ≠ DarkEdenValueType.characterName then
    return failed 1 (wide "지원하지 않는 값 타입입니다.") errorOutput
  match ← (readValue sys processId valueType).run with
  | .error error => return failed 2 error errorOutput
  | .ok value => return deliver value output errorOutput

def deListNearbyCharacters (output errorOutput : Buffer) : User Returned := do
  if processId = 0 ∨ !output.usable ∨ !errorOutput.usable then return ⟨1, [], []⟩
  match ← (readNearbyCharacters sys processId).run with
  | .error error => return failed 2 error errorOutput
  | .ok listing => return deliver listing.json output errorOutput

def deSelectNearbyCharacter (characterId : ULong) (errorOutput : Buffer) : User Returned := do
  if processId = 0 ∨ characterId = 0 ∨ characterId = 0xFFFFFFFF ∨ !errorOutput.usable then
    return ⟨1, [], []⟩
  let selected ← selectNearbyTarget sys processId characterId
  if !selected.ok then return failed 2 (selected.error.getD []) errorOutput
  return ⟨0, [], []⟩

end Exports

end DarkEden.Engine
