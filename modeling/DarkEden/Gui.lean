import Mathlib.Data.Nat.Digits.Defs

namespace DarkEden.Gui

abbrev Pid := Nat

/-- An element of the list that `list_nearby_characters` returns. -/
structure Character where
  name : String
  race : Option String
  life : Option String
  x : Nat
  y : Nat
  id : Nat
  deriving DecidableEq

section Text

def hexDigit (d : Nat) : Char := Char.ofNat (if d < 10 then 0x30 + d else 0x37 + d)

def hexValue (c : Char) : Nat := if c.toNat ≤ 0x39 then c.toNat - 0x30 else c.toNat - 0x37

def formatId (id : Nat) : List Char :=
  let digits := (Nat.digits 16 id).reverse.map hexDigit
  List.replicate (4 - digits.length) '0' ++ digits

/-- `int(text, 16)` of upper-case hexadecimal digits. -/
def parseId (text : List Char) : Nat := Nat.ofDigits 16 (text.reverse.map hexValue)

theorem hexValue_hexDigit : ∀ d < 16, hexValue (hexDigit d) = d := by decide

theorem parseId_formatId (id : Nat) : parseId (formatId id) = id := by
  have hdigits : (Nat.digits 16 id).map (hexValue ∘ hexDigit) = Nat.digits 16 id := by
    conv_rhs => rw [← List.map_id (Nat.digits 16 id)]
    apply List.map_congr_left
    intro d hd
    exact hexValue_hexDigit d (Nat.digits_lt_base (by decide) hd)
  have hzero : hexValue '0' = 0 := rfl
  rw [parseId, formatId, List.reverse_append, List.reverse_replicate, List.map_append,
    List.map_replicate, hzero, Nat.ofDigits_append_replicate_zero, ← List.map_reverse,
    List.reverse_reverse, List.map_map, hdigits, Nat.ofDigits_digits]

end Text

/-- A line of `nearby_tree`. The last two fields are not displayed: they say from whose list
the line comes, and from which element of it. -/
structure Row where
  name : String
  race : String
  life : String
  x : Nat
  y : Nat
  id : List Char
  source : Pid
  character : Character
  deriving DecidableEq

def rowOf (source : Pid) (character : Character) : Row where
  name := character.name
  race := character.race.getD "미확인"
  life := character.life.getD "미확인"
  x := character.x
  y := character.y
  id := formatId character.id
  source := source
  character := character

structure Call where
  pid : Pid
  targetId : Nat
  row : Row
  deriving DecidableEq

/-- The window, the workers it has started and the callbacks they have scheduled; the empty
text of `pid` is `none`. All calls made so far are kept. -/
structure App where
  pid : Option Pid
  processBox : List Pid
  status : String
  nearbyTree : List Row
  nearbyButton : Bool
  selectButton : Bool
  listing : List Pid
  listed : List (Pid × Except String (List Character))
  selecting : List (Pid × String)
  selected : List (Pid × String × Option String)
  calls : List Call

def App.new : App where
  pid := none
  processBox := []
  status := "대상 프로세스를 선택하세요."
  nearbyTree := []
  nearbyButton := true
  selectButton := true
  listing := []
  listed := []
  selecting := []
  selected := []
  calls := []

def refreshProcesses (silent : Bool) (processes : Except String (List Pid)) (a : App) : App :=
  match processes with
  | .error exc => if silent then a else { a with status := exc }
  | .ok labels =>
    let previous := a.pid
    let b := { a with processBox := labels }
    let c := if ∃ pid ∈ previous, pid ∈ labels then b
      else { b with pid := labels.head?, nearbyTree := [] }
    if !silent ∨ previous ≠ c.pid then
      { c with status :=
          if previous.isSome ∧ labels ≠ [] then "게임 프로세스를 새로 선택했습니다."
          else if labels ≠ [] then "프로세스를 선택하고 읽기를 누르세요."
          else "darkeden.exe가 실행 중이지 않습니다." }
    else c

/-- The user chooses a label of the combobox; nothing is bound to that event. -/
def chooseProcess (label : Pid) (a : App) : App :=
  if label ∈ a.processBox then { a with pid := some label } else a

def refreshNearby (a : App) : App :=
  if !a.nearbyButton then a
  else match a.pid with
  | none => { a with status := "대상 프로세스가 없습니다. 새로고침하세요." }
  | some pid => { a with
      nearbyButton := false
      status := "주변 캐릭터 목록을 읽는 중…"
      listing := a.listing ++ [pid] }

/-- A worker comes back from `list_nearby_characters` and schedules its callback. -/
def listingEnded (worker : Nat) (result : Except String (List Character)) (a : App) : App :=
  match a.listing[worker]? with
  | none => a
  | some pid => { a with
      listing := a.listing.eraseIdx worker
      listed := a.listed ++ [(pid, result)] }

def nearbyLoaded (callback : Nat) (a : App) : App :=
  match a.listed[callback]? with
  | none => a
  | some (pid, result) =>
    let b := { a with nearbyButton := true, listed := a.listed.eraseIdx callback }
    if b.pid ≠ some pid then b
    else match result with
    | .error error =>
      -- An empty text is passed over, and the loop over `None` raises.
      if error ≠ "" then { b with status := "주변 캐릭터 목록: " ++ error }
      else { b with nearbyTree := [] }
    | .ok characters => { b with
        nearbyTree := characters.map (rowOf pid)
        status := "주변 캐릭터 " ++ toString characters.length ++ "명을 읽었습니다." }

/-- `selection` are the lines that are highlighted. -/
def selectNearby (selection : List Nat) (a : App) : App :=
  if !a.selectButton then a
  else match a.pid with
  | none => { a with status := "게임 프로세스를 선택하세요." }
  | some pid => match selection.filterMap (a.nearbyTree[·]?) with
    | [row] => { a with
        selectButton := false
        status := row.name ++ " 선택 중…"
        selecting := a.selecting ++ [(pid, row.name)]
        calls := a.calls ++ [⟨pid, parseId row.id, row⟩] }
    | _ => { a with status := "주변 캐릭터 목록에서 한 명을 선택하세요." }

def selectingEnded (worker : Nat) (error : Option String) (a : App) : App :=
  match a.selecting[worker]? with
  | none => a
  | some (pid, name) => { a with
      selecting := a.selecting.eraseIdx worker
      selected := a.selected ++ [(pid, name, error)] }

def targetSelected (callback : Nat) (a : App) : App :=
  match a.selected[callback]? with
  | none => a
  | some (pid, name, error) =>
    let b := { a with selectButton := true, selected := a.selected.eraseIdx callback }
    if b.pid ≠ some pid then b
    else
      let text := error.getD ""
      { b with status :=
          if text ≠ "" then "캐릭터 선택: " ++ text else name ++ "을(를) 선택했습니다." }

inductive Event
  | refreshProcesses (silent : Bool) (processes : Except String (List Pid))
  | chooseProcess (label : Pid)
  | refreshNearby
  | listingEnded (worker : Nat) (result : Except String (List Character))
  | nearbyLoaded (callback : Nat)
  | selectNearby (selection : List Nat)
  | selectingEnded (worker : Nat) (error : Option String)
  | targetSelected (callback : Nat)

/-- `poll_processes` is a silent refresh that schedules the next one. -/
def step (a : App) : Event → App
  | .refreshProcesses silent processes => refreshProcesses silent processes a
  | .chooseProcess label => chooseProcess label a
  | .refreshNearby => refreshNearby a
  | .listingEnded worker result => listingEnded worker result a
  | .nearbyLoaded callback => nearbyLoaded callback a
  | .selectNearby selection => selectNearby selection a
  | .selectingEnded worker error => selectingEnded worker error a
  | .targetSelected callback => targetSelected callback a

/-- `__init__` ends with a first refresh. -/
def start (processes : Except String (List Pid)) : App := refreshProcesses false processes .new

def run (a : App) (events : List Event) : App := events.foldl step a

/-- The row was listed for the process that the call goes to, and has the id that it names. -/
def Call.Rightful (c : Call) : Prop :=
  c.row.source = c.pid ∧ c.targetId = c.row.character.id

instance (c : Call) : Decidable c.Rightful := inferInstanceAs (Decidable (_ ∧ _))

/-- The displayed rows belong to the current process, and every call so far was rightful. -/
structure Faithful (a : App) : Prop where
  rows : ∀ row ∈ a.nearbyTree, a.pid = some row.source ∧ row.id = formatId row.character.id
  calls : ∀ c ∈ a.calls, c.Rightful

/-- A choice in the combobox changes nothing, or happens while no rows are displayed. -/
def Undisturbing (a : App) (e : Event) : Prop :=
  ∀ label, e = .chooseProcess label → label ∈ a.processBox → a.pid = some label ∨ a.nearbyTree = []

def Undisturbed : App → List Event → Prop
  | _, [] => True
  | a, e :: events => Undisturbing a e ∧ Undisturbed (step a e) events

theorem faithful_new : Faithful .new := ⟨nofun, nofun⟩

theorem Faithful.same {a b : App} (h : Faithful a) (hpid : b.pid = a.pid)
    (htree : b.nearbyTree = a.nearbyTree) (hcalls : b.calls = a.calls) : Faithful b :=
  ⟨by rw [hpid, htree]; exact h.rows, by rw [hcalls]; exact h.calls⟩

theorem refreshProcesses_faithful {a : App} (h : Faithful a) (silent : Bool)
    (processes : Except String (List Pid)) : Faithful (refreshProcesses silent processes a) := by
  cases processes with
  | error exc =>
    rw [refreshProcesses]
    by_cases hs : silent
    · rwa [if_pos hs]
    · rw [if_neg hs]
      exact h.same rfl rfl rfl
  | ok labels =>
    have hchosen : Faithful (if ∃ pid ∈ a.pid, pid ∈ labels then { a with processBox := labels }
        else { a with processBox := labels, pid := labels.head?, nearbyTree := [] }) := by
      by_cases hkept : ∃ pid ∈ a.pid, pid ∈ labels
      · rw [if_pos hkept]
        exact h.same rfl rfl rfl
      · rw [if_neg hkept]
        exact ⟨nofun, h.calls⟩
    simp only [refreshProcesses]
    by_cases hstatus : !silent ∨ a.pid ≠ (if ∃ pid ∈ a.pid, pid ∈ labels then
        { a with processBox := labels }
        else { a with processBox := labels, pid := labels.head?, nearbyTree := [] }).pid
    · rw [if_pos hstatus]
      exact hchosen.same rfl rfl rfl
    · rwa [if_neg hstatus]

theorem chooseProcess_faithful {a : App} (h : Faithful a) (label : Pid)
    (hkeep : label ∈ a.processBox → a.pid = some label ∨ a.nearbyTree = []) :
    Faithful (chooseProcess label a) := by
  rw [chooseProcess]
  by_cases hlabel : label ∈ a.processBox
  · rw [if_pos hlabel]
    refine ⟨fun row hrow => ?_, h.calls⟩
    obtain hsame | hempty := hkeep hlabel
    · exact ⟨hsame.symm.trans (h.rows row hrow).1, (h.rows row hrow).2⟩
    · rw [hempty] at hrow
      cases hrow
  · rwa [if_neg hlabel]

theorem refreshNearby_faithful {a : App} (h : Faithful a) : Faithful (refreshNearby a) := by
  rw [refreshNearby]
  by_cases hbutton : !a.nearbyButton
  · rwa [if_pos hbutton]
  · rw [if_neg hbutton]
    cases hpid : a.pid <;> exact h.same hpid.symm rfl rfl

theorem listingEnded_faithful {a : App} (h : Faithful a) (worker : Nat)
    (result : Except String (List Character)) : Faithful (listingEnded worker result a) := by
  rw [listingEnded]
  cases a.listing[worker]? with
  | none => exact h
  | some pid => exact h.same rfl rfl rfl

theorem nearbyLoaded_faithful {a : App} (h : Faithful a) (callback : Nat) :
    Faithful (nearbyLoaded callback a) := by
  rw [nearbyLoaded]
  cases a.listed[callback]? with
  | none => exact h
  | some entry =>
    obtain ⟨pid, result⟩ := entry
    simp only
    by_cases hother : a.pid ≠ some pid
    · rw [if_pos hother]
      exact h.same rfl rfl rfl
    · rw [if_neg hother]
      cases result with
      | error error =>
        by_cases hmessage : error ≠ ""
        · simp only [if_pos hmessage]
          exact h.same rfl rfl rfl
        · simp only [if_neg hmessage]
          exact ⟨nofun, h.calls⟩
      | ok characters =>
        refine ⟨fun row hrow => ?_, h.calls⟩
        obtain ⟨character, -, rfl⟩ := List.mem_map.mp hrow
        exact ⟨not_not.mp hother, rfl⟩

theorem selectNearby_faithful {a : App} (h : Faithful a) (selection : List Nat) :
    Faithful (selectNearby selection a) := by
  rw [selectNearby]
  by_cases hbutton : !a.selectButton
  · rwa [if_pos hbutton]
  · rw [if_neg hbutton]
    cases hpid : a.pid with
    | none => exact h.same hpid.symm rfl rfl
    | some pid =>
      match hselection : selection.filterMap (a.nearbyTree[·]?) with
      | [] => exact h.same hpid.symm rfl rfl
      | row :: other :: rest => exact h.same hpid.symm rfl rfl
      | [row] =>
        have hrow : row ∈ a.nearbyTree := by
          have hmem : row ∈ selection.filterMap (a.nearbyTree[·]?) := by simp [hselection]
          obtain ⟨i, -, hi⟩ := List.mem_filterMap.mp hmem
          exact List.mem_of_getElem? hi
        obtain ⟨hsource, hid⟩ := h.rows row hrow
        refine ⟨fun r hr => ⟨hpid.symm.trans (h.rows r hr).1, (h.rows r hr).2⟩, fun c hc => ?_⟩
        obtain hc | hc := List.mem_append.mp hc
        · exact h.calls c hc
        · obtain rfl := List.mem_singleton.mp hc
          refine ⟨Option.some.inj (hsource.symm.trans hpid), ?_⟩
          change parseId row.id = _
          rw [hid, parseId_formatId]

theorem selectingEnded_faithful {a : App} (h : Faithful a) (worker : Nat) (error : Option String) :
    Faithful (selectingEnded worker error a) := by
  rw [selectingEnded]
  cases a.selecting[worker]? with
  | none => exact h
  | some entry => exact h.same rfl rfl rfl

theorem targetSelected_faithful {a : App} (h : Faithful a) (callback : Nat) :
    Faithful (targetSelected callback a) := by
  rw [targetSelected]
  cases a.selected[callback]? with
  | none => exact h
  | some entry =>
    obtain ⟨pid, name, error⟩ := entry
    simp only
    by_cases hother : a.pid ≠ some pid
    · rw [if_pos hother]
      exact h.same rfl rfl rfl
    · rw [if_neg hother]
      exact h.same rfl rfl rfl

theorem step_faithful {a : App} (h : Faithful a) (e : Event) (hkeep : Undisturbing a e) :
    Faithful (step a e) := by
  cases e with
  | refreshProcesses silent processes => exact refreshProcesses_faithful h silent processes
  | chooseProcess label => exact chooseProcess_faithful h label (hkeep label rfl)
  | refreshNearby => exact refreshNearby_faithful h
  | listingEnded worker result => exact listingEnded_faithful h worker result
  | nearbyLoaded callback => exact nearbyLoaded_faithful h callback
  | selectNearby selection => exact selectNearby_faithful h selection
  | selectingEnded worker error => exact selectingEnded_faithful h worker error
  | targetSelected callback => exact targetSelected_faithful h callback

theorem run_faithful {a : App} (h : Faithful a) {events : List Event} (hkeep : Undisturbed a events) :
    Faithful (run a events) := by
  induction events generalizing a with
  | nil => exact h
  | cons e events ih => exact ih (step_faithful h e hkeep.1) hkeep.2

theorem start_faithful (processes : Except String (List Pid)) : Faithful (start processes) :=
  refreshProcesses_faithful faithful_new false processes

/-- Right after a disturbing choice the first row can be sent to the wrong process. -/
theorem disturbing_choice {a : App} (h : Faithful a) (hbutton : a.selectButton) {label : Pid}
    (hdisturbs : ¬Undisturbing a (.chooseProcess label)) :
    ∃ c ∈ (run a [.chooseProcess label, .selectNearby [0]]).calls, ¬c.Rightful := by
  obtain ⟨hlabel, hother, hrows⟩ : label ∈ a.processBox ∧ a.pid ≠ some label ∧ a.nearbyTree ≠ [] := by
    by_contra hnot
    refine hdisturbs fun label' heq hlabel' => ?_
    obtain rfl := Event.chooseProcess.inj heq
    by_contra hc
    rw [not_or] at hc
    exact hnot ⟨hlabel', hc.1, hc.2⟩
  obtain ⟨row, rows, htree⟩ := List.exists_cons_of_ne_nil hrows
  refine ⟨⟨label, parseId row.id, row⟩, ?_, fun hrightful => hother ?_⟩
  · simp [run, step, chooseProcess, selectNearby, hlabel, hbutton, htree]
  · rw [(h.rows row (by simp [htree])).1, hrightful.1]

/-- While every choice in the combobox is undisturbing, selections go to the process that the
list came from; any other choice lets the next selection go wrong. -/
theorem selections_rightful (processes : Except String (List Pid)) (events : List Event)
    (hkeep : Undisturbed (start processes) events) :
    let a := run (start processes) events
    (∀ c ∈ a.calls, c.Rightful) ∧
      ∀ label, a.selectButton → ¬Undisturbing a (.chooseProcess label) →
        ∃ c ∈ (run a [.chooseProcess label, .selectNearby [0]]).calls, ¬c.Rightful := by
  have hfaithful := run_faithful (start_faithful processes) hkeep
  exact ⟨hfaithful.calls, fun label hbutton hdisturbs => disturbing_choice hfaithful hbutton hdisturbs⟩

def sampleCharacter : Character := ⟨"Bat", none, none, 100, 120, 0x1A2B⟩

def sampleEvents : List Event :=
  [.refreshNearby, .listingEnded 0 (.ok [sampleCharacter]), .nearbyLoaded 0]

theorem selections_rightful_sample :
    let a := run (start (.ok [11, 12])) (sampleEvents ++ [.chooseProcess 11, .selectNearby [0]])
    a.calls = [⟨11, 0x1A2B, rowOf 11 sampleCharacter⟩] ∧ ∀ c ∈ a.calls, c.Rightful := by
  refine ⟨by decide, (selections_rightful (.ok [11, 12]) _ ?_).1⟩
  refine ⟨nofun, nofun, nofun, fun label hchosen _ => .inl ?_, nofun, trivial⟩
  rw [← Event.chooseProcess.inj hchosen]
  rfl

/-- The user chooses the other process, and the displayed row is sent there. -/
theorem selections_not_rightful :
    (run (start (.ok [11, 12])) (sampleEvents ++ [.chooseProcess 12, .selectNearby [0]])).calls =
        [⟨12, 0x1A2B, rowOf 11 sampleCharacter⟩] ∧
      ¬∀ c ∈ (run (start (.ok [11, 12]))
        (sampleEvents ++ [.chooseProcess 12, .selectNearby [0]])).calls, c.Rightful := by
  decide

end DarkEden.Gui
