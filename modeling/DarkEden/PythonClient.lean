import DarkEden.ListingText
import DarkEden.Target
import DarkEden.Traversal
import Mathlib.Data.List.TakeWhile
import Mathlib.Data.Nat.Digits.Lemmas

namespace DarkEden.PythonClient

open Interaction Protocol Client Engine ListingText Traversal
open Json (Text codes decimal)

section Function

inductive PythonError
  | valueError (message : Text)
  | darkEdenError (message : Text)

def createUnicodeBuffer (size : DWord) : Buffer := ⟨true, size⟩

def listOutput : Buffer := createUnicodeBuffer 65536
def errorOutput : Buffer := createUnicodeBuffer 1024

/-- The `value` of a buffer: its text up to the first terminator. -/
def bufferValue (text : WString) : Text := Utf16.decode (text.takeWhile (· != 0))

def received (returned : Returned) : Except PythonError (List Json.Value) :=
  if returned.code ≠ 0 then
    let error := bufferValue returned.error
    .error (.darkEdenError (if error ≠ [] then error
      else codes "주변 목록을 읽지 못했습니다 (오류 " ++ decimal returned.code ++ codes ")."))
  else match Json.loads (bufferValue returned.output) with
    | some (.arr characters) => .ok characters
    | _ => .error (.darkEdenError (codes "주변 목록 응답 형식이 올바르지 않습니다."))

def listNearbyCharacters (sys : Platform) (pid : Int) :
    User (Except PythonError (List Json.Value)) := do
  if ¬(0 < pid ∧ pid ≤ 0xFFFFFFFF) then
    return .error (.valueError (codes "pid는 양의 32비트 정수여야 합니다."))
  let returned ← deListNearbyCharacters sys (BitVec.ofInt 32 pid) listOutput errorOutput
  return received returned

end Function

section Delivery

structure Conveyed (characters : List Character) (json : WString) : Prop where
  fits : json.length + 1 ≤ listOutput.capacity.toNat
  nul_notMem : 0 ∉ json
  delivered : deliver json listOutput errorOutput = ⟨0, json, []⟩
  parsed : Json.loads (Utf16.decode json) = some (.arr (characters.map record))

theorem conveyed {characters : List Character} {json : WString}
    (hcharacters : ∀ c ∈ characters, Printable c) (h : jsonList characters = .ok json) :
    Conveyed characters json := by
  obtain ⟨hlength, hnul, hspells⟩ := jsonList_spells hcharacters h
  have hroom : ¬((!listOutput.usable) = true ∨ json.length ≥ listOutput.capacity.toNat) := by
    rintro (h | h)
    · cases h
    · exact Nat.not_le.mpr hlength h
  have hcopied : copyOutput json listOutput = some json := if_neg hroom
  refine ⟨hlength, hnul, ?_, hspells.loads⟩
  rw [deliver, hcopied]

theorem Conveyed.received {characters : List Character} {json : WString}
    (h : Conveyed characters json) :
    received (deliver json listOutput errorOutput) = .ok (characters.map record) := by
  have hvalue : bufferValue json = Utf16.decode json := by
    have hall : ∀ u ∈ json, (u != 0) = true := by
      intro u hu
      rw [bne_iff_ne]
      rintro rfl
      exact h.nul_notMem hu
    rw [bufferValue, List.takeWhile_eq_self_iff.mpr hall]
  rw [h.delivered, PythonClient.received, if_neg (not_not.mpr rfl)]
  change (match Json.loads (bufferValue json) with | some (.arr _) => _ | _ => _) = _
  rw [hvalue, h.parsed]

end Delivery

section Names

variable {C : Contract UserAns} {sys : Platform}

/-- No byte becomes more than one unit. -/
def UnitPerByte (sys : Platform) : Prop :=
  ∀ codePage flags bytes text, sys.multiByteToWideChar codePage flags bytes = some text →
    text.length ≤ bytes.length

theorem UnitPerByte.converted (h : UnitPerByte sys) (codePage flags : ULong) (bytes : List Byte) :
    (converted sys codePage flags bytes).length ≤ bytes.length := by
  rw [Engine.converted]
  cases htext : sys.multiByteToWideChar codePage flags bytes with
  | none => exact Nat.zero_le _
  | some text => exact h _ _ _ _ htext

theorem UnitPerByte.decodeText (h : UnitPerByte sys) {response : TextResponse}
    (hread : response.bytesRead ≤ 256) (strict : Bool) :
    (decodeText sys response 1 strict).length ≤ 256 := by
  have hbytes : ((List.range response.bytesRead.toNat).map (byteAt response.data)).length ≤ 256 := by
    rw [List.length_map, List.length_range]
    exact BitVec.le_def.mp hread
  simp only [Engine.decodeText]
  rw [if_neg (by decide)]
  split
  · exact Nat.zero_le _
  split
  · exact (h.converted _ _ _).trans hbytes
  · exact (h.converted _ _ _).trans hbytes

theorem readTextReply_le {request : TextRequest} {reply : IoctlResult}
    (h : (readTextReply sys request reply).ok) :
    (readTextReply sys request reply).response.bytesRead ≤ 256 := by
  cases reply with
  | failed code => cases h
  | completed output returned =>
    rw [readTextReply] at h ⊢
    by_cases hinvalid : (!validTextResponse request (.decode output) returned) = true
    · rw [if_pos hinvalid] at h
      cases h
    · have hread : (TextResponse.decode output).bytesRead ≤ 256 := by
        simp only [validTextResponse, Bool.not_eq_true', decide_eq_false_iff_not, not_not]
          at hinvalid
        exact hinvalid.2.2.2.1
      rw [if_neg hinvalid]
      split <;> exact hread

variable (hguar : ∀ l o, C.guar l o)

include hguar

theorem wp_readText_le (processId : DWord) (request : TextRequest) (l : Log UserAns) :
    wp C (Client.readText sys processId request) l fun text _ =>
      text.ok → text.response.bytesRead ≤ 256 := by
  rw [Client.readText, wp_ite]
  constructor
  · intro _ hok
    cases hok
  · intro _
    refine wp_ask_bind.mpr ⟨hguar _ _, fun code _ => ?_⟩
    cases code with
    | some code =>
      change wp C (deviceError sys code >>= _) _ _
      rw [wp_bind]
      apply wp_of_forall hguar
      intro error _ hok
      cases hok
    | none => exact wp_ask_bind.mpr ⟨hguar _ _, fun reply _ hok => readTextReply_le hok⟩

variable (hunits : UnitPerByte sys)

include hunits

theorem wp_readOwnName_le (processId : DWord) (l : Log UserAns) :
    wp C (readOwnName sys processId) l fun name _ => name.length ≤ 256 := by
  rw [readOwnName, wp_bind]
  refine wp_mono (wp_readText_le hguar processId _ l) fun text _ htext => ?_
  change List.length (ite _ _ _) ≤ 256
  by_cases hok : text.ok = true
  · rw [if_pos hok]
    exact hunits.decodeText (htext hok) false
  · rw [if_neg hok]
    exact Nat.zero_le 256

theorem wp_readName_le (processId : DWord) (imageBase : ULongPtr) (actor : ULong)
    (l : Log UserAns) :
    wp C (readName sys processId imageBase actor) l fun name _ => name.length ≤ 256 := by
  rw [readName, wp_bind]
  refine wp_mono (wp_readText_le hguar processId _ l) fun text _ htext => ?_
  change List.length (ite _ _ _) ≤ 256
  by_cases hok : text.ok ∧ text.response.terminated ≠ 0 ∧ text.response.bytesRead > 0
  · rw [if_pos hok]
    exact hunits.decodeText (htext hok.1) true
  · rw [if_neg hok]
    exact Nat.zero_le 256

end Names

section Listing

variable {header : ULong}

theorem printable_pass {walk walk' : Walk} (h : ∀ c ∈ walk.characters, Printable c)
    (hpass : Pass (fun _ _ => True) (fun _ name => name.length ≤ 256) header walk
      (.ok (.inl walk'))) : ∀ c ∈ walk'.characters, Printable c := by
  cases hpass with
  | skip => exact h
  | visit _ _ _ _ _ _ _ _ _ hfound =>
    intro c hc
    cases List.mem_append.mp hc with
    | inl hc => exact h c hc
    | inr hc =>
      cases hfound with
      | accepted _ haccepted hname hrace hlife =>
        obtain rfl := List.mem_singleton.mp hc
        exact ⟨hname, hrace, hlife, haccepted.x_lt, haccepted.y_lt⟩
      | _ => cases hc

theorem length_hex (id : ULong) : (hex id.toNat 8).length ≤ 10 := by
  have hdigits : (if id.toNat = 0 then [(0x30 : WChar)]
      else (Nat.digits 16 id.toNat).reverse.map upperHexDigit).length ≤ 8 := by
    by_cases hzero : id.toNat = 0
    · rw [if_pos hzero]
      decide
    · rw [if_neg hzero, List.length_map, List.length_reverse]
      exact (Nat.digits_length_le_iff (by decide) _).mpr id.isLt
  have hmark : (wide "0x").length = 2 := rfl
  simp only [hex, List.length_append, List.length_replicate, hmark]
  omega

theorem printable_label {ownName : WString} {found : List Character} {c : Character}
    (hown : ownName.length ≤ 256) (hc : Printable c) :
    Printable { c with name := label ownName found c } := by
  refine ⟨?_, hc.race_mem, hc.life_mem, hc.x_lt, hc.y_lt⟩
  have hid : (wide "ID_").length = 3 := rfl
  have hhex := length_hex c.id
  rw [label]
  split
  · exact hc.name_le
  split
  · exact hown
  · rw [List.length_append, hid]
    omega

theorem publish_printable {ownName : WString} {found : List Character} {listing : Listing}
    (hown : ownName.length ≤ 256) (hfound : ∀ c ∈ found, Printable c)
    (h : publish ownName found = .ok listing) :
    (∀ c ∈ listing.characters, Printable c) ∧ jsonList listing.characters = .ok listing.json := by
  have hcharacters := publish_eq_ok h
  constructor
  · rw [hcharacters, nameCharacters_eq]
    intro c hc
    obtain ⟨c, hmem, rfl⟩ := List.mem_map.mp hc
    exact printable_label hown (hfound c hmem)
  · rw [hcharacters]
    rw [publish] at h
    by_cases hempty : found = []
    · rw [if_pos hempty] at h
      cases h
    rw [if_neg hempty] at h
    cases hjson : jsonList (nameCharacters ownName found) with
    | error e =>
      rw [hjson] at h
      cases h
    | ok json =>
      rw [hjson] at h
      obtain rfl := Except.ok.inj h
      rfl

theorem wp_readNearbyCharacters_printable {C : Contract UserAns} {sys : Platform}
    (hguar : ∀ l o, C.guar l o) (hunits : UnitPerByte sys) (processId : DWord)
    (l : Log UserAns) :
    wp C (readNearbyCharacters sys processId).run l fun r _ => ∀ listing, r = .ok listing →
      (∀ c ∈ listing.characters, Printable c) ∧ jsonList listing.characters = .ok listing.json := by
  have hreads : ∀ imageBase, Reads C sys processId imageBase (fun _ _ => True)
      (fun _ name => name.length ≤ 256) := fun imageBase =>
    ⟨fun _ _ => wp_of_forall hguar (fun _ _ => trivial) _ _,
      fun actor _ _ l _ => wp_readName_le hguar hunits processId imageBase actor l⟩
  have hwalk : ∀ imageBase header root l,
      wp C (walkTree sys processId imageBase header root).run l fun r _ =>
        ∀ found, r = .ok found → ∀ c ∈ found, Printable c := by
    intro imageBase header root l
    refine wp_mono ((hreads imageBase).walkTree (J := fun walk => ∀ c ∈ walk.characters, Printable c)
      nofun (fun _ _ => printable_pass) l) fun r _ hr found hfound => ?_
    obtain ⟨walk, hprintable, hpass⟩ := hr
    rw [hfound] at hpass
    cases hpass
    exact hprintable
  refine wp_mono (wp_readNearbyCharacters (B := fun _ => True) (R := fun _ _ _ => True)
    (O := fun name => name.length ≤ 256)
    (W := fun _ _ _ r => ∀ found, r = .ok found → ∀ c ∈ found, Printable c)
    (wp_of_forall hguar (fun _ _ => trivial) _ _)
    (fun _ _ _ _ => wp_of_forall hguar (fun _ _ => trivial) _ _)
    (wp_readOwnName_le hguar hunits processId) fun imageBase _ header root l _ =>
      hwalk imageBase header root l) fun r _ hr listing hlisting => ?_
  rw [hlisting] at hr
  generalize hend : (Except.ok listing : Except WString Listing) = r at hr
  cases hr with
  | @walked _ _ _ _ ownName found _ hfound =>
    obtain ⟨hown, hfound⟩ := hfound
    cases found with
    | error e => cases hend
    | ok found => exact publish_printable hown (hfound found rfl) hend.symm
  | _ => cases hend

theorem ofInt_ne_zero {pid : Int} (h : 0 < pid ∧ pid ≤ 0xFFFFFFFF) : BitVec.ofInt 32 pid ≠ 0 := by
  intro hzero
  have hnat : (BitVec.ofInt 32 pid).toNat = 0 := congrArg BitVec.toNat hzero
  rw [BitVec.toNat_ofInt] at hnat
  omega

theorem run_deListNearbyCharacters (sys : Platform) {processId : DWord} (hpid : processId ≠ 0)
    (env : Env UserAns) (l : Log UserAns) :
    ((deListNearbyCharacters sys processId listOutput errorOutput).run env l).1 =
      match ((readNearbyCharacters sys processId).run.run env l).1 with
      | .error error => failed 2 error errorOutput
      | .ok listing => deliver listing.json listOutput errorOutput := by
  have husable : ¬(processId = 0 ∨ (!listOutput.usable) = true ∨ (!errorOutput.usable) = true) := by
    rintro (h | h | h)
    · exact hpid h
    · cases h
    · cases h
  rw [deListNearbyCharacters, if_neg husable]
  change (((readNearbyCharacters sys processId).run >>= _).run env l).1 = _
  rw [Program.run_bind]
  cases ((readNearbyCharacters sys processId).run.run env l).1 <;> rfl

/-- What the engine lists is what its caller gets: the text of every list that stays within the
limit fits the buffer and is read back as the list, and every run delivers such a text. -/
theorem listNearbyCharacters_receives {sys : Platform} (hunits : UnitPerByte sys) :
    Function.Injective record ∧
    (∀ characters json, (∀ c ∈ characters, Printable c) → jsonList characters = .ok json →
      Conveyed characters json) ∧
    ∀ (env : Env UserAns) (l : Log UserAns) (pid : Int), 0 < pid → pid ≤ 0xFFFFFFFF →
      ((deListNearbyCharacters sys (BitVec.ofInt 32 pid) listOutput errorOutput).run env l).1.code ≠ 3 ∧
      ∀ listing, ((readNearbyCharacters sys (BitVec.ofInt 32 pid)).run.run env l).1 = .ok listing →
        (∀ c ∈ listing.characters, Printable c) ∧ Conveyed listing.characters listing.json ∧
        ((listNearbyCharacters sys pid).run env l).1 = .ok (listing.characters.map record) := by
  refine ⟨record_injective, fun characters json => conveyed, fun env l pid hpos hle => ?_⟩
  have hrange : 0 < pid ∧ pid ≤ 0xFFFFFFFF := ⟨hpos, hle⟩
  have hlisting := wp_ofEnv.mp (wp_readNearbyCharacters_printable (C := .ofEnv env)
    (fun _ _ => trivial) hunits (BitVec.ofInt 32 pid) l)
  have hreturned := run_deListNearbyCharacters sys (ofInt_ne_zero hrange) env l
  constructor
  · rw [hreturned]
    cases hr : ((readNearbyCharacters sys (BitVec.ofInt 32 pid)).run.run env l).1 with
    | error error => exact (by decide : (2 : Nat) ≠ 3)
    | ok listing =>
      obtain ⟨hprintable, hjson⟩ := hlisting listing hr
      change (deliver listing.json listOutput errorOutput).code ≠ 3
      rw [(conveyed hprintable hjson).delivered]
      exact (by decide : (0 : Nat) ≠ 3)
  · intro listing hok
    obtain ⟨hprintable, hjson⟩ := hlisting listing hok
    have hconveyed := conveyed hprintable hjson
    refine ⟨hprintable, hconveyed, ?_⟩
    rw [listNearbyCharacters, if_neg (not_not.mpr hrange)]
    rw [Program.run_bind, hreturned, hok]
    exact hconveyed.received

/-- A character called by what has to be escaped, a surrogate pair and half of one. -/
def oddCharacter : Character :=
  ⟨[0x22, 0x5C, 0, 0xD83D, 0xDE00, 0xDC00], wide "Vampire", wide "생존", 5, 16, 32⟩

/-- A game with one character, whose name is a quote, a backslash and a control character. -/
def quotedGame : Target samplePlatform := .ofCells samplePlatform gameApi [
  (0x00EB31D0, 0x01100000), (0x01100034, 0x01200000), (0x01200004, 0x01300000), -- manager, header
  (0x01300000, 0), (0x01300008, 0), (0x01300010, 5), (0x01300014, 0x01400000), -- the root
  (0x01400008, 5), (0x0140000C, 0x00200010), -- its actor
  (0x01400544, 0x01500000), (0x01500000, 0x00015C22)] -- the name of the actor

def quotedEnv : Env UserAns := fun _ o =>
  ((System.perform samplePlatform 9 o).run (quotedGame.env 9 sampleImage) []).1

theorem samplePlatform_unitPerByte : UnitPerByte samplePlatform := by
  intro codePage flags bytes text h
  obtain rfl := Option.some.inj h
  exact Nat.le_of_eq (List.length_map _)

theorem listNearbyCharacters_receives_sample :
    (∃ json, jsonList [oddCharacter] = .ok json ∧ Conveyed [oddCharacter] json) ∧
    ∃ listing, ((readNearbyCharacters samplePlatform 7).run.run quotedEnv []).1 = .ok listing ∧
      listing.characters.map Character.name = [[0x22, 0x5C, 1]] ∧
      ((listNearbyCharacters samplePlatform 7).run quotedEnv []).1 =
        .ok (listing.characters.map record) := by
  obtain ⟨-, hlists, hruns⟩ := listNearbyCharacters_receives samplePlatform_unitPerByte
  have hodd : ∀ c ∈ [oddCharacter], Printable c := by
    intro c hc
    obtain rfl := List.mem_singleton.mp hc
    exact ⟨by decide, by decide, by decide, by decide, by decide⟩
  refine ⟨⟨_, rfl, hlists _ _ hodd rfl⟩, ?_⟩
  have hname : ((readNearbyCharacters samplePlatform 7).run.run quotedEnv []).1.toOption.map
      (fun listing => listing.characters.map Character.name) = some [[0x22, 0x5C, 1]] := by
    decide +kernel
  cases hr : ((readNearbyCharacters samplePlatform 7).run.run quotedEnv []).1 with
  | error e =>
    rw [hr] at hname
    cases hname
  | ok listing =>
    rw [hr] at hname
    exact ⟨listing, rfl, Option.some.inj hname,
      ((hruns quotedEnv [] 7 (by decide) (by decide)).2 listing hr).2.2⟩

end Listing

end DarkEden.PythonClient
