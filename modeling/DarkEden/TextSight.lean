import DarkEden.EngineRules
import DarkEden.TextPrefix

namespace DarkEden.Target

open Interaction ByteMemory Memory Protocol ReaderRules TextPrefix
open Engine (byteAt)

variable {sys : Platform} (T : Target sys)

/-- The bytes of the text at the address from index `i` on, at most `n`, and whether a zero ends
them. There is no text if a byte of it is unreadable or lies above 4 GiB. -/
def textFrom (address : ULongPtr) : Nat → Nat → Option (List Byte × Bool)
  | 0, _ => some ([], false)
  | n + 1, i =>
    if address.toNat + i > 0xFFFFFFFF then none
    else match T.peek T.byte 8 (address + BitVec.ofNat 64 i) with
      | none => none
      | some byte =>
        if byte = 0 then some ([], true)
        else (textFrom address n (i + 1)).map fun text => (byte :: text.1, text.2)

def text (address : ULongPtr) : Option (List Byte × Bool) :=
  if address = 0 ∨ address > 0xFFFFFFFF then none else T.textFrom address 256 0

def pointerAt (process : PEProcess) (offset : ULongPtr) : Option ULong :=
  let imageBase := sys.psGetProcessSectionBaseAddress process
  if T.ready ⟨process⟩ ∧ ImageRange sys imageBase offset then T.dword (imageBase + offset) else none

def textAt (process : PEProcess) (offset : ULongPtr) : Option (List Byte × Bool) :=
  T.pointerAt process offset >>= fun pointer => T.text (pointer.setWidth 64)

/-- The response holds the text, or a failure where there is none. -/
def Tells (text : Option (List Byte × Bool)) (response : TextResponse) : Prop :=
  match text with
  | some (bytes, terminated) =>
    (response.version = version ∧ response.size = sizeofTextResponse ∧
      response.status = statusSuccess ∧ response.terminated = if terminated then 1 else 0) ∧
    bytes.length ≤ 256 ∧ response.bytesRead = BitVec.ofNat 32 bytes.length ∧
    (List.range bytes.length).map (byteAt response.data) = bytes
  | none => ntSuccess response.status = false

section Reader

variable {T} {reader : KernelProcessMemoryReader} {address : ULongPtr}

theorem textFrom_stored (stored : List (Answer 1)) (n k : Nat)
    (hrange : ∀ i < stored.length, address.toNat + (k + i) ≤ 0xFFFFFFFF)
    (hstored : ∀ i r, stored[i]? = some r →
      T.peek T.byte 8 (address + BitVec.ofNat 64 (k + i)) = some r.value ∧ r.value ≠ 0) :
    T.textFrom address (stored.length + n) k =
      (T.textFrom address n (k + stored.length)).map fun text =>
        (stored.map MemoryReadResult.value ++ text.1, text.2) := by
  induction stored generalizing k with
  | nil =>
    rw [List.length_nil, Nat.zero_add, Nat.add_zero]
    cases T.textFrom address n k <;> rfl
  | cons r stored ih =>
    have hhead : address.toNat + k ≤ 0xFFFFFFFF := hrange 0 (Nat.succ_pos _)
    obtain ⟨hpeek, hvalue⟩ := hstored 0 r rfl
    have htail := ih (k + 1)
      (fun i hi => by
        have h := hrange (i + 1) (Nat.succ_lt_succ hi)
        omega)
      (fun i r' hr' => by
        have h := hstored (i + 1) r' hr'
        rwa [show k + 1 + i = k + (i + 1) by omega])
    rw [List.length_cons, Nat.succ_add, textFrom, if_neg (Nat.not_lt.mpr hhead)]
    rw [Nat.add_zero] at hpeek
    rw [hpeek]
    change ite _ _ _ = _
    have hlength : k + 1 + stored.length = k + (stored.length + 1) := by omega
    rw [if_neg hvalue, htail, Option.map_map, hlength]
    rfl

theorem bytes_holding (before : TextResponse) {stored : List (Answer 1)} (h : Stored address 1 stored) :
    (List.range stored.length).map (byteAt (holding address 1 before stored).data) =
      stored.map MemoryReadResult.value := by
  have hfits := h.fits
  apply List.ext_getElem
  · simp
  · intro i hi hi'
    rw [List.length_map, List.length_range] at hi
    have hbyte : byteAt (holding address 1 before stored).data i = unitBytes 1 stored i := by
      rw [byteAt, dif_pos (by omega)]
      rfl
    have hunit : unitBytes 1 stored i = byteOf stored[i].value.toNat (i % 1) := by
      rw [unitBytes, Nat.div_one, List.getElem?_eq_getElem hi]
    rw [List.getElem_map, List.getElem_map, List.getElem_range, hbyte, hunit, Nat.mod_one, byteOf,
      Nat.pow_zero, Nat.div_one, BitVec.ofNat_toNat]
    exact BitVec.setWidth_eq _

def still (T : Target sys) (reader : KernelProcessMemoryReader) : Contract ReaderAns :=
  ⟨fun _ o x => T.Answers reader [] o x, fun _ _ => True⟩

theorem peek_of_relied (hready : T.ready reader) {answers : List (Answer 1)} {l₀ l : ReaderLog}
    (h : Heard (T.still reader) address 1 l₀ answers l) {i : Nat} {r : Answer 1}
    (hr : answers[i]? = some r) :
    r.value? = T.peek T.byte 8 (address + BitVec.ofNat 64 i) := by
  obtain ⟨l₁, hrelied⟩ := h.relied i r hr
  have hvalue := hrelied.1
  rw [if_pos hready] at hvalue
  rw [hvalue, unitAddress, Nat.one_mul]
  rfl

theorem tells_holding {stored : List (Answer 1)} (hstored : Stored address 1 stored)
    {status : NtStatus} {terminated : ULong} {ended : Bool} (hstatus : status = statusSuccess)
    (hterminated : terminated = if ended then 1 else 0) :
    Tells (some (stored.map MemoryReadResult.value, ended))
      { holding address 1 (newTextResponse statusSuccess) stored with
        status := status, terminated := terminated } := by
  have hlength : stored.length ≤ 256 := by simpa using hstored.fits
  rw [Tells, List.length_map]
  refine ⟨⟨rfl, rfl, hstatus, hterminated⟩, hlength, ?_,
    bytes_holding (newTextResponse statusSuccess) hstored⟩
  change BitVec.ofNat 32 (1 * stored.length) = _
  rw [Nat.one_mul]

theorem text_stored (hready : T.ready reader) {l₀ l : ReaderLog} {answers stored rest : List (Answer 1)}
    (hlow : ¬(address = 0 ∨ address > 0xFFFFFFFF))
    (hheard : Heard (T.still reader) address 1 l₀ answers l) (hstored : Stored address 1 stored)
    (hanswers : answers = stored ++ rest) :
    T.text address = (T.textFrom address (256 - stored.length) stored.length).map fun text =>
      (stored.map MemoryReadResult.value ++ text.1, text.2) := by
  have hlength : stored.length ≤ 256 := by simpa using hstored.fits
  have hrange : ∀ i < stored.length, address.toNat + (0 + i) ≤ 0xFFFFFFFF := by
    intro i hi
    have h := hstored.inRange i hi
    omega
  have hfrom := textFrom_stored (T := T) stored (256 - stored.length) 0 hrange fun i r hr => by
    have hmem := List.mem_of_getElem? hr
    have hi : i < stored.length := (List.getElem?_eq_some_iff.mp hr).1
    have hanswer : answers[i]? = some r := by
      rw [hanswers, List.getElem?_append_left hi, hr]
    have hpeek := peek_of_relied hready hheard hanswer
    rw [Nat.zero_add, ← hpeek, MemoryReadResult.value?, if_pos (hstored.readable r hmem)]
    exact ⟨rfl, hstored.nonzero r hmem⟩
  rw [Nat.zero_add, Nat.add_sub_cancel' hlength] at hfrom
  rw [text, if_neg hlow, hfrom]

theorem tells_of_preview (hready : T.ready reader) {l₀ l : ReaderLog} {answers : List (Answer 1)}
    {response : TextResponse} (hlow : ¬(address = 0 ∨ address > 0xFFFFFFFF))
    (hheard : Heard (T.still reader) address 1 l₀ answers l)
    (h : Preview address 1 (newTextResponse statusSuccess) answers response) :
    Tells (T.text address) response := by
  obtain ⟨stored, status, terminated, hstored, hstops, rfl⟩ := h
  have hlength : stored.length ≤ 256 := by simpa using hstored.fits
  have htext : ∀ {rest : List (Answer 1)}, answers = stored ++ rest →
      T.text address = (T.textFrom address (256 - stored.length) stored.length).map fun text =>
        (stored.map MemoryReadResult.value ++ text.1, text.2) :=
    text_stored hready hlow hheard hstored
  have hlast : ∀ {r : Answer 1}, answers = stored ++ [r] →
      r.value? = T.peek T.byte 8 (address + BitVec.ofNat 64 stored.length) := by
    intro r hanswers
    apply peek_of_relied hready hheard
    rw [hanswers, List.getElem?_append_right (Nat.le_refl _), Nat.sub_self]
    rfl
  have hnext : 1 * (stored.length + 1) ≤ 256 → ∃ m, 256 - stored.length = m + 1 :=
    fun hroom => ⟨255 - stored.length, by omega⟩
  cases hstops with
  | @terminator r hroom hlow hs hzero =>
    obtain ⟨m, hm⟩ := hnext hroom
    have hend : T.textFrom address (m + 1) stored.length = some ([], true) := by
      rw [textFrom, if_neg (by omega), ← hlast rfl, MemoryReadResult.value?, if_pos hs]
      exact if_pos hzero
    rw [htext rfl, hm, hend, Option.map_some, List.append_nil]
    exact tells_holding hstored rfl rfl
  | @unreadable r hroom hlow hs =>
    obtain ⟨m, hm⟩ := hnext hroom
    have hend : T.textFrom address (m + 1) stored.length = none := by
      rw [textFrom, if_neg (by omega), ← hlast rfl, MemoryReadResult.value?, if_neg hs]
    rw [htext rfl, hm, hend]
    exact PointerChase.failure_error r
  | overflow hroom hhigh =>
    obtain ⟨m, hm⟩ := hnext hroom
    have hend : T.textFrom address (m + 1) answers.length = none := by
      rw [textFrom, if_pos (by omega)]
    rw [htext (List.append_nil _).symm, hm, hend]
    rfl
  | full hfull =>
    have hm : 256 - answers.length = 0 := by omega
    rw [htext (List.append_nil _).symm, hm, textFrom, Option.map_some, List.append_nil]
    exact tells_holding hstored rfl rfl

theorem wp_readTextAtAddress_tells (hready : T.ready reader) (address : ULongPtr) (l : ReaderLog) :
    wp (T.quiet reader) (readTextAtAddress address 1 (newTextResponse statusSuccess)) l
      fun response _ => Tells (T.text address) response := by
  by_cases hlow : address = 0 ∨ address > 0xFFFFFFFF
  · have hwidth : ¬((1 : ULong) ≠ 1 ∧ (1 : ULong) ≠ 2) := fun h => h.1 rfl
    rw [readTextAtAddress, if_neg hwidth, if_pos hlow, text, if_pos hlow]
    rfl
  · obtain ⟨hzero, hhigh⟩ := not_or.mp hlow
    have hstill : wp (T.still reader) (readTextAtAddress address 1 (newTextResponse statusSuccess)) l
        fun response _ => Tells (T.text address) response :=
      wp_mono (wp_readTextAtAddress (w := 1) (fun _ _ => trivial) (.inl rfl) hzero
        (BitVec.not_lt.mp hhigh) ⟨rfl, rfl, rfl⟩ l) fun response l' h => by
          obtain ⟨answers, hheard, hpreview⟩ := h
          exact tells_of_preview hready hlow hheard hpreview
    have hguar : ∀ l o, Walkers.Tame o → (T.quiet reader).guar l o := by
      intro l o ho
      cases o with
      | writeUInt32 => exact ho.elim
      | _ => trivial
    have hrely : ∀ l o x, Walkers.Tame o → (T.quiet reader).rely l o x → (T.still reader).rely l o x :=
      fun _ _ _ _ hx => hx
    exact wp_restrict hguar hrely (Walkers.readTextAtAddress_tame address 1 _) hstill

theorem wp_readPointedText_tells (hready : T.ready reader) (slot : ULongPtr) (l : ReaderLog) :
    wp (T.quiet reader) (readPointedText slot 1 (newTextResponse statusSuccess)) l
      fun response _ => Tells (T.dword slot >>= fun pointer => T.text (pointer.setWidth 64))
        response := by
  have hwidth : ¬((1 : ULong) ≠ 1 ∧ (1 : ULong) ≠ 2) := fun h => h.1 rfl
  rw [readPointedText, if_neg hwidth]
  apply wp_fetch hready
  intro pointer l' hpointer
  rw [wp_ite]
  refine ⟨fun hs => ?_, fun hs => ?_⟩
  · rw [eq_none hpointer hs]
    exact PointerChase.failure_error pointer
  · rw [eq_some_value hpointer hs]
    exact wp_readTextAtAddress_tells hready _ l'

theorem wp_readResolvedText_tells {process : PEProcess} {request : TextRequest}
    (hnarrow : request.characterBytes = 1) (hpointed : request.reserved = 0) (l : ReaderLog) :
    wp (T.quiet ⟨process⟩) (readResolvedText request) l fun response _ =>
      Tells (T.textAt process request.baseAddress) response := by
  refine wp_ask_bind.mpr ⟨trivial, fun resolved hresolved => ?_⟩
  change if _ then _ else _ at hresolved
  rw [textAt, pointerAt]
  by_cases hc : T.ready ⟨process⟩ ∧
      ImageRange sys (sys.psGetProcessSectionBaseAddress process) request.baseAddress
  · rw [if_pos hc] at hresolved
    subst hresolved
    have hsuccess : ntSuccess statusSuccess = true := rfl
    have hnot : ¬request.reserved = 1 := by
      rw [hpointed]
      decide
    rw [if_neg (by simp [hsuccess]), if_neg hnot, hnarrow]
    simp only [if_pos hc]
    exact wp_readPointedText_tells hc.1 _ _
  · rw [if_neg hc] at hresolved
    simp only [if_neg hc]
    rw [if_pos (by simpa using hresolved)]
    exact hresolved

end Reader

section Driver

open Client

variable {T} {process client : PEProcess} {request : TextRequest}

theorem wp_executeDarkEdenTextRequest_tells (hirql : T.irql = passiveLevel)
    (hvalid : validTextRequest request) (hnarrow : request.characterBytes = 1)
    (hpointed : request.reserved = 0) {l : WinLog} (hl : T.after l = T.byte) :
    wp (T.openedSystem false process) (executeDarkEdenTextRequest sys request) l fun response l' =>
      Tells (T.textAt process request.baseAddress) response ∧ T.after l' = T.byte := by
  have hkeeps : Keeps (T.openedSystem false process) fun l => T.after l = T.byte :=
    openedSystem_keeps (system_keeps T.byte) false
  rw [executeDarkEdenTextRequest, if_neg (by simpa using hvalid)]
  refine wp_withReader_opens (J := fun l => T.after l = T.byte) hkeeps (fun _ _ _ hx => hx.2)
    (fun _ _ hx => hx.1.trans hirql) (validTextRequest_processId hvalid)
    (fun r => ⟨fun _ _ _ _ => trivial, fun l o x hr ho hx => ⟨hr.1, hkeeps.keep l o x hr.2 ho hx⟩⟩)
    (fun l hl => ?_) hl
  exact wp_opened (wp_performed_quiet (wp_readResolvedText_tells hnarrow hpointed []) hl)

/-- The text that a client takes from the outcome of `ReadText`. -/
def acceptedText (outcome : Outcome TextResponse) : Option (List Byte × Bool) :=
  if outcome.ok then
    some ((List.range outcome.response.bytesRead.toNat).map (byteAt outcome.response.data),
      outcome.response.terminated ≠ 0)
  else none

theorem acceptedText_failed {output : Nat} {returned : DWord}
    (h : ntSuccess (TextResponse.decode output).status = false) :
    acceptedText (readTextReply sys request (.completed output returned)) = none := by
  rw [readTextReply]
  by_cases hvalid : !validTextResponse request (.decode output) returned
  · rw [if_pos hvalid]
    rfl
  · rw [if_neg hvalid, if_pos (by simp [h])]
    rfl

theorem acceptedText_tells (hnarrow : request.characterBytes = 1)
    {text : Option (List Byte × Bool)} {response : TextResponse} (h : Tells text response) :
    acceptedText (readTextReply sys request (.completed response.encode sizeofTextResponse)) =
      text := by
  match text with
  | none => exact acceptedText_failed (by rw [TextResponse.decode_encode]; exact h)
  | some (bytes, terminated) =>
    obtain ⟨⟨hversion, hsize, hstatus, hterminated⟩, hlength, hread, hbytes⟩ := h
    have hcount : response.bytesRead.toNat = bytes.length := by
      rw [hread, BitVec.toNat_ofNat, Nat.mod_eq_of_lt (by omega)]
    have hvalid : validTextResponse request response sizeofTextResponse := by
      refine decide_eq_true ⟨rfl, hversion, hsize, ?_, ?_, ?_⟩
      · rw [BitVec.le_def, hcount]
        exact hlength
      · rw [hnarrow]
        exact BitVec.eq_of_toNat_eq (by rw [BitVec.toNat_umod]; exact Nat.mod_one _)
      · rw [hterminated]
        cases terminated <;> decide
    have hsuccess : ntSuccess response.status = true := by
      rw [hstatus]
      rfl
    have hflag : decide (response.terminated ≠ 0) = terminated := by
      rw [hterminated]
      cases terminated <;> rfl
    rw [readTextReply, TextResponse.decode_encode, if_neg (by simpa using hvalid),
      if_neg (by simp [hsuccess])]
    change some (_, decide (response.terminated ≠ 0)) = _
    rw [Outcome.done, hcount, hbytes, hflag]

theorem textAt_notReady (h : ¬T.ready ⟨process⟩) (offset : ULongPtr) :
    T.textAt process offset = none := by
  rw [textAt, pointerAt, if_neg fun hc => h hc.1]
  rfl

theorem wp_deviceIoControl_text_of {C : Contract WinAns} {J : WinLog → Prop} (hJ : Keeps C J)
    (hlevel : ∀ l x, C.rely l .keGetCurrentIrql x → x = T.irql) (hvalid : validTextRequest request)
    (hnarrow : request.characterBytes = 1) {V : Option (List Byte × Bool) → Prop}
    (hrefused : T.irql ≠ passiveLevel → V none)
    (hexecuted : T.irql = passiveLevel → ∀ l, J l →
      wp C (executeDarkEdenTextRequest sys request) l fun response l' =>
        (∃ text, V text ∧ Tells text response) ∧ J l')
    {l : WinLog} (hl : J l) :
    wp C (System.deviceIoControl sys client Protocol.readText request.encode sizeofTextRequest
      sizeofTextResponse) l fun reply l' =>
        V (acceptedText (readTextReply sys request reply)) ∧ J l' := by
  let irp := System.irpOf client Protocol.readText request.encode sizeofTextRequest
    sizeofTextResponse
  have hgate : Gate irp request.encode Protocol.readText sizeofTextRequest sizeofTextResponse :=
    ⟨rfl, rfl, rfl, BitVec.le_refl _, rfl, rfl⟩
  rw [System.deviceIoControl, wp_bind]
  by_cases hirql : T.irql = passiveLevel
  · refine wp_deviceControl_text hJ (fun l x hx => (hlevel l x hx).trans hirql) hgate
      (by rwa [TextRequest.decode_encode]) (fun l hl => ?_) hl
    rw [TextRequest.decode_encode]
    refine wp_mono (hexecuted hirql l hl) fun response l' hresponse => ?_
    obtain ⟨⟨text, htext, h⟩, hl'⟩ := hresponse
    rw [wp_pure, System.ioctlResult_success response.encode_lt, acceptedText_tells hnarrow h]
    exact ⟨htext, hl'⟩
  · refine wp_mono (wp_deviceControl_refused hJ (fun l x hx hpassive =>
      hirql ((hlevel l x hx).symm.trans hpassive)) irp hl) fun completed l' hcompleted => ?_
    obtain ⟨hl', hs⟩ := hcompleted
    rw [wp_pure, System.ioctlResult_failed hs]
    exact ⟨hrefused hirql, hl'⟩

/-- A client that asks for a text gets it exactly where the memory has it. -/
theorem wp_deviceIoControl_text (hvalid : validTextRequest request)
    (hnarrow : request.characterBytes = 1) (hpointed : request.reserved = 0) {l : WinLog}
    (hl : T.after l = T.byte) :
    wp (T.openedSystem false process) (System.deviceIoControl sys client Protocol.readText
      request.encode sizeofTextRequest sizeofTextResponse) l fun reply l' =>
        acceptedText (readTextReply sys request reply) = T.textAt process request.baseAddress ∧
          T.after l' = T.byte := by
  refine wp_deviceIoControl_text_of (V := fun text => text = T.textAt process request.baseAddress)
    (openedSystem_keeps (system_keeps T.byte) false) (fun _ _ hx => hx.1) hvalid hnarrow
    (fun hirql => ?_) (fun hirql l hl => ?_) hl
  · exact (textAt_notReady (fun hready => hirql (of_decide_eq_true hready).1) _).symm
  · exact wp_mono (wp_executeDarkEdenTextRequest_tells hirql hvalid hnarrow hpointed hl)
      fun response l' h => ⟨⟨_, rfl, h.1⟩, h.2⟩

end Driver

section User

open Client

variable {T} {process client : PEProcess}

/-- A well-formed request for narrow characters at a pointer, with the right buffers. -/
def AsksText (command : ULong) (input : Nat) (inputLength outputLength : ULong)
    (request : TextRequest) : Prop :=
  command = Protocol.readText ∧ input = request.encode ∧ inputLength = sizeofTextRequest ∧
    outputLength = sizeofTextResponse ∧ validTextRequest request ∧ request.characterBytes = 1 ∧
    request.reserved = 0

def TextServed (T : Target sys) (process : PEProcess) : (o : UserOp) → UserAns o → Prop
  | .api _, _ => True
  | .deviceIoControl command input inputLength outputLength, x =>
    ∀ request, AsksText command input inputLength outputLength request →
      acceptedText (readTextReply sys request x) = T.textAt process request.baseAddress

/-- What a user-mode program may rely on that reads coordinates and texts. -/
def told (T : Target sys) (process : PEProcess) : Contract UserAns where
  rely l o x := (T.served process).rely l o x ∧ TextServed T process o x
  guar := (T.served process).guar

theorem wp_told {α : Type} {p : User α} {l : Log UserAns} {Q : α → Log UserAns → Prop}
    (h : wp (T.served process) p l Q) : wp (T.told process) p l Q := by
  have hrely : ∀ l o x, (T.told process).rely l o x → (T.served process).rely l o x :=
    fun _ _ _ hx => hx.1
  exact wp_contract hrely (fun _ _ ho => ho) h

theorem perform_told (l₁ : Log UserAns) (l₂ : WinLog) (o : UserOp) (hl : T.after l₂ = T.byte)
    (ho : (T.told process).guar l₁ o) :
    wp (T.openedSystem false process) (System.perform sys client o) l₂ fun x l₂' =>
      (T.told process).rely l₁ o x ∧ T.after l₂' = T.byte := by
  cases o with
  | api o =>
    exact ⟨trivial, fun x hx => ⟨⟨hx.1, trivial⟩, by rwa [after_append_of_not_writes rfl]⟩⟩
  | deviceIoControl command input inputLength outputLength =>
    by_cases hasks : ∃ request, AsksText command input inputLength outputLength request
    · obtain ⟨request, rfl, rfl, rfl, rfl, hvalid, hnarrow, hpointed⟩ := hasks
      refine wp_mono (wp_deviceIoControl_text hvalid hnarrow hpointed hl)
        fun reply l' ⟨h, hl'⟩ => ⟨⟨fun request' hasks' => ?_, fun request' hasks' => ?_⟩, hl'⟩
      · have hcommand : Protocol.readText ≠ readCoordinates := by decide
        exact absurd hasks'.1 hcommand
      · have hrequest : request = request' := by
          rw [← TextRequest.decode_encode request, hasks'.2.1, TextRequest.decode_encode]
        rwa [← hrequest]
    · exact wp_mono (perform_served l₁ l₂ _ hl ho) fun reply l' ⟨h, hl'⟩ =>
        ⟨⟨h, fun request hasks' => absurd ⟨request, hasks'⟩ hasks⟩, hl'⟩

end User

end DarkEden.Target
