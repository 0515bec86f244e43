import DarkEden.Atomicity
import DarkEden.Gui
import DarkEden.PythonValue

namespace DarkEden.Gui

section Workers

/-- A worker or the callback that it has scheduled is there exactly while the button is switched
off, and there is only one. -/
def Lane (workers callbacks : Nat) (button : Bool) : Prop :=
  workers + callbacks = if button then 0 else 1

theorem Lane.start {workers callbacks : Nat} {button : Bool} (h : Lane workers callbacks button)
    (hbutton : ¬(!button)) : Lane (workers + 1) callbacks false := by
  rw [Lane, if_pos (by simpa using hbutton)] at h
  rw [Lane, Nat.add_right_comm, h]
  rfl

theorem Lane.back {workers callbacks : Nat} {button : Bool} (h : Lane workers callbacks button)
    (hworker : 0 < workers) : Lane (workers - 1) (callbacks + 1) button := by
  rw [Lane] at h ⊢
  omega

theorem Lane.finish {workers callbacks : Nat} {button : Bool} (h : Lane workers callbacks button)
    (hcallback : 0 < callbacks) : Lane workers (callbacks - 1) true := by
  cases button with
  | true =>
    rw [Lane, if_pos rfl] at h
    omega
  | false =>
    rw [Lane, if_neg Bool.false_ne_true] at h
    rw [Lane, if_pos rfl]
    omega

theorem Lane.idle {button : Bool} (h : Lane 0 0 button) : button = true := by
  cases button with
  | true => rfl
  | false => cases h

theorem Lane.alone {workers callbacks : Nat} {button : Bool}
    (h : Lane (workers + 1) callbacks button) : workers = 0 := by
  rw [Lane] at h
  split at h <;> omega

structure Serial (a : App) : Prop where
  listing : Lane a.listing.length a.listed.length a.nearbyButton
  selecting : Lane a.selecting.length a.selected.length a.selectButton

theorem refreshProcesses_serial {a : App} (h : Serial a) (silent : Bool)
    (processes : Except String (List Pid)) : Serial (refreshProcesses silent processes a) := by
  cases processes with
  | error exc =>
    rw [refreshProcesses]
    by_cases hs : silent
    · rwa [if_pos hs]
    · rw [if_neg hs]
      exact ⟨h.listing, h.selecting⟩
  | ok labels =>
    simp only [refreshProcesses]
    by_cases hkept : ∃ pid ∈ a.pid, pid ∈ labels
    · simp only [if_pos hkept]
      split <;> exact ⟨h.listing, h.selecting⟩
    · simp only [if_neg hkept]
      split <;> exact ⟨h.listing, h.selecting⟩

theorem chooseProcess_serial {a : App} (h : Serial a) (label : Pid) :
    Serial (chooseProcess label a) := by
  rw [chooseProcess]
  split
  · exact ⟨h.listing, h.selecting⟩
  · exact h

theorem refreshNearby_serial {a : App} (h : Serial a) : Serial (refreshNearby a) := by
  rw [refreshNearby]
  by_cases hbutton : !a.nearbyButton
  · rwa [if_pos hbutton]
  rw [if_neg hbutton]
  cases a.pid with
  | none => exact ⟨h.listing, h.selecting⟩
  | some pid =>
    refine ⟨?_, h.selecting⟩
    rw [List.length_append]
    exact h.listing.start hbutton

theorem listingEnded_serial {a : App} (h : Serial a) (worker : Nat)
    (result : Except String (List Character)) : Serial (listingEnded worker result a) := by
  rw [listingEnded]
  cases hworker : a.listing[worker]? with
  | none => exact h
  | some pid =>
    have hlt := (List.getElem?_eq_some_iff.mp hworker).1
    refine ⟨?_, h.selecting⟩
    rw [List.length_append, List.length_eraseIdx_of_lt hlt]
    exact h.listing.back (Nat.zero_lt_of_lt hlt)

theorem nearbyLoaded_serial {a : App} (h : Serial a) (callback : Nat) :
    Serial (nearbyLoaded callback a) := by
  rw [nearbyLoaded]
  cases hcallback : a.listed[callback]? with
  | none => exact h
  | some entry =>
    obtain ⟨pid, result⟩ := entry
    have hlt := (List.getElem?_eq_some_iff.mp hcallback).1
    have hfinished : Lane a.listing.length (a.listed.eraseIdx callback).length true := by
      rw [List.length_eraseIdx_of_lt hlt]
      exact h.listing.finish (Nat.zero_lt_of_lt hlt)
    simp only
    by_cases hother : a.pid ≠ some pid
    · rw [if_pos hother]
      exact ⟨hfinished, h.selecting⟩
    · rw [if_neg hother]
      cases result with
      | error error =>
        by_cases hmessage : error ≠ ""
        · simp only [if_pos hmessage]
          exact ⟨hfinished, h.selecting⟩
        · simp only [if_neg hmessage]
          exact ⟨hfinished, h.selecting⟩
      | ok characters => exact ⟨hfinished, h.selecting⟩

theorem selectNearby_serial {a : App} (h : Serial a) (selection : List Nat) :
    Serial (selectNearby selection a) := by
  rw [selectNearby]
  by_cases hbutton : !a.selectButton
  · rwa [if_pos hbutton]
  rw [if_neg hbutton]
  cases a.pid with
  | none => exact ⟨h.listing, h.selecting⟩
  | some pid =>
    cases selection.filterMap (a.nearbyTree[·]?) with
    | nil => exact ⟨h.listing, h.selecting⟩
    | cons row others =>
      cases others with
      | cons other rest => exact ⟨h.listing, h.selecting⟩
      | nil =>
        refine ⟨h.listing, ?_⟩
        rw [List.length_append]
        exact h.selecting.start hbutton

theorem selectingEnded_serial {a : App} (h : Serial a) (worker : Nat) (error : Option String) :
    Serial (selectingEnded worker error a) := by
  rw [selectingEnded]
  cases hworker : a.selecting[worker]? with
  | none => exact h
  | some entry =>
    have hlt := (List.getElem?_eq_some_iff.mp hworker).1
    refine ⟨h.listing, ?_⟩
    rw [List.length_append, List.length_eraseIdx_of_lt hlt]
    exact h.selecting.back (Nat.zero_lt_of_lt hlt)

theorem targetSelected_serial {a : App} (h : Serial a) (callback : Nat) :
    Serial (targetSelected callback a) := by
  rw [targetSelected]
  cases hcallback : a.selected[callback]? with
  | none => exact h
  | some entry =>
    obtain ⟨pid, name, error⟩ := entry
    have hlt := (List.getElem?_eq_some_iff.mp hcallback).1
    have hfinished : Lane a.selecting.length (a.selected.eraseIdx callback).length true := by
      rw [List.length_eraseIdx_of_lt hlt]
      exact h.selecting.finish (Nat.zero_lt_of_lt hlt)
    simp only
    by_cases hother : a.pid ≠ some pid
    · rw [if_pos hother]
      exact ⟨h.listing, hfinished⟩
    · rw [if_neg hother]
      exact ⟨h.listing, hfinished⟩

theorem step_serial {a : App} (h : Serial a) (e : Event) : Serial (step a e) := by
  cases e with
  | refreshProcesses silent processes => exact refreshProcesses_serial h silent processes
  | chooseProcess label => exact chooseProcess_serial h label
  | refreshNearby => exact refreshNearby_serial h
  | listingEnded worker result => exact listingEnded_serial h worker result
  | nearbyLoaded callback => exact nearbyLoaded_serial h callback
  | selectNearby selection => exact selectNearby_serial h selection
  | selectingEnded worker error => exact selectingEnded_serial h worker error
  | targetSelected callback => exact targetSelected_serial h callback

theorem run_serial {a : App} (h : Serial a) (events : List Event) : Serial (run a events) := by
  induction events generalizing a with
  | nil => exact h
  | cons e events ih => exact ih (step_serial h e)

theorem start_serial (processes : Except String (List Pid)) : Serial (start processes) := by
  have hnew : Serial .new := ⟨rfl, rfl⟩
  exact refreshProcesses_serial hnew false processes

theorem nearbyLoaded_button {a : App} (h : Serial a) (hback : a.listing = []) :
    (nearbyLoaded 0 a).nearbyButton := by
  have hlane := h.listing
  rw [hback] at hlane
  rw [nearbyLoaded]
  cases hlisted : a.listed with
  | nil =>
    rw [hlisted] at hlane
    exact hlane.idle
  | cons entry rest =>
    obtain ⟨pid, result⟩ := entry
    simp only [List.getElem?_cons_zero]
    by_cases hother : a.pid ≠ some pid
    · rw [if_pos hother]
    · rw [if_neg hother]
      cases result with
      | error error => by_cases hmessage : error ≠ "" <;> simp [hmessage]
      | ok characters => rfl

theorem targetSelected_button {a : App} (h : Serial a) (hback : a.selecting = []) :
    (targetSelected 0 a).selectButton := by
  have hlane := h.selecting
  rw [hback] at hlane
  rw [targetSelected]
  cases hselected : a.selected with
  | nil =>
    rw [hselected] at hlane
    exact hlane.idle
  | cons entry rest =>
    obtain ⟨pid, name, error⟩ := entry
    simp only [List.getElem?_cons_zero]
    split <;> rfl

theorem listing_listingEnded {a : App} (h : Serial a) (result : Except String (List Character)) :
    (listingEnded 0 result a).listing = [] := by
  have hlane := h.listing
  rw [listingEnded]
  cases hlisting : a.listing with
  | nil => exact hlisting
  | cons pid rest =>
    rw [hlisting, List.length_cons] at hlane
    rw [List.eq_nil_of_length_eq_zero hlane.alone]
    rfl

theorem selecting_selectingEnded {a : App} (h : Serial a) (error : Option String) :
    (selectingEnded 0 error a).selecting = [] := by
  have hlane := h.selecting
  rw [selectingEnded]
  cases hselecting : a.selecting with
  | nil => exact hselecting
  | cons entry rest =>
    rw [hselecting, List.length_cons] at hlane
    rw [List.eq_nil_of_length_eq_zero hlane.alone]
    rfl

theorem idle_of_call {a : App} (h : Serial a) {selection : List Nat}
    (hcall : (selectNearby selection a).calls ≠ a.calls) : a.selecting = [] ∧ a.selected = [] := by
  have hlane := h.selecting
  rw [selectNearby] at hcall
  by_cases hbutton : !a.selectButton
  · rw [if_pos hbutton] at hcall
    exact absurd rfl hcall
  · rw [Lane, if_pos (by simpa using hbutton)] at hlane
    exact ⟨List.eq_nil_of_length_eq_zero (by omega), List.eq_nil_of_length_eq_zero (by omega)⟩

/-- In every run there is at most one worker of each kind, or the callback that it has scheduled,
and its button is switched off for just as long; it comes on again when the worker comes back in
whatever way, and a selection is sent only after the one before is finished. -/
theorem workers_serial (processes : Except String (List Pid)) (events : List Event) :
    let a := run (start processes) events
    Serial a ∧ (∀ result, (run a [.listingEnded 0 result, .nearbyLoaded 0]).nearbyButton) ∧
      (∀ error, (run a [.selectingEnded 0 error, .targetSelected 0]).selectButton) ∧
      ∀ selection, (selectNearby selection a).calls ≠ a.calls → a.selecting = [] ∧ a.selected = [] := by
  have hserial := run_serial (start_serial processes) events
  refine ⟨hserial, fun result => ?_, fun error => ?_, fun selection => idle_of_call hserial⟩
  · exact nearbyLoaded_button (listingEnded_serial hserial 0 result)
      (listing_listingEnded hserial result)
  · exact targetSelected_button (selectingEnded_serial hserial 0 error)
      (selecting_selectingEnded hserial error)

end Workers

section Function

open Interaction Protocol Client Engine PythonClient
open Json (Text codes decimal)

def selectNearbyCharacter (sys : Platform) (pid characterId : Int) :
    User (Except PythonError Unit) := do
  if ¬(0 < pid ∧ pid ≤ 0xFFFFFFFF) then
    return .error (.valueError (codes "pid는 양의 32비트 정수여야 합니다."))
  if ¬(0 < characterId ∧ characterId < 0xFFFFFFFF) then
    return .error (.valueError (codes "캐릭터 ID가 올바르지 않습니다."))
  let returned ← deSelectNearbyCharacter sys (BitVec.ofInt 32 pid) (BitVec.ofInt 32 characterId)
    errorOutput
  if returned.code ≠ 0 then
    let error := bufferValue returned.error
    return .error (.darkEdenError (if error ≠ [] then error
      else codes "캐릭터를 선택하지 못했습니다 (오류 " ++ decimal returned.code ++ codes ")."))
  return .ok ()

end Function

section Selection

open Interaction Protocol Client Engine PythonClient ByteMemory
open Json (Text codes decimal)
open Atomicity (Concluded)
open PythonValue (messageOf)

variable {sys : Platform} {T : Target sys} {client : PEProcess} {processId : DWord} {l : WinLog}

/-- The engine returns success exactly where the selection was stored. -/
theorem wp_deSelectNearbyCharacter {characterId : ULong} (hl : T.after l = T.byte) :
    wp T.system (System.runUser sys client
      (deSelectNearbyCharacter sys processId characterId errorOutput)) l fun returned l' =>
        Concluded T (processId.setWidth 64) characterId (returned.code = 0) l' := by
  rw [deSelectNearbyCharacter]
  by_cases hbad : processId = 0 ∨ characterId = 0 ∨ characterId = 0xFFFFFFFF ∨ !errorOutput.usable
  · rw [if_pos hbad]
    exact .inr ⟨rfl, hl⟩
  · rw [if_neg hbad, System.runUser, Program.translate_bind, wp_bind]
    refine wp_mono (Atomicity.wp_selectNearbyTarget client processId characterId hl) ?_
    intro outcome l' houtcome
    cases hok : outcome.ok with
    | true =>
      rw [hok] at houtcome
      rw [if_neg (by simp)]
      exact houtcome
    | false =>
      rw [hok] at houtcome
      rw [if_pos (by simp)]
      exact houtcome

def Stored (T : Target sys) (pid characterId : Nat) (l : WinLog) : Prop :=
  ∃ process controller, ReaderRules.Opened sys (BitVec.ofNat 64 pid) true process l ∧
    T.dword (sys.psGetProcessSectionBaseAddress process + targetControllerOffset) =
      some controller ∧ controller ≠ 0 ∧
    T.after l = store T.byte (controller.setWidth 64 + 0x28) 4 characterId

/-- The character is selected in the game, or nothing has changed and there is a message. -/
structure Selected (T : Target sys) (pid characterId : Nat) (r : Except PythonError Unit)
    (l : WinLog) : Prop where
  returned : r.isOk → Stored T pid characterId l
  raised : ∀ error, r = .error error → messageOf error ≠ [] ∧ T.after l = T.byte

theorem Selected.error {pid characterId : Nat} {error : PythonError} (hmessage : messageOf error ≠ [])
    (hl : T.after l = T.byte) : Selected T pid characterId (.error error) l where
  returned h := absurd h Bool.false_ne_true
  raised error' h := by
    cases h
    exact ⟨hmessage, hl⟩

theorem wp_selectNearbyCharacter (pid characterId : Nat) (hl : T.after l = T.byte) :
    wp T.system (System.runUser sys client (selectNearbyCharacter sys pid characterId)) l
      (Selected T pid characterId) := by
  have hraised : ∀ {text : Text}, text ≠ [] → Selected T pid characterId
      (.error (.valueError text)) l := fun htext => .error htext hl
  rw [selectNearbyCharacter]
  by_cases hpid : ¬((0 : Int) < pid ∧ (pid : Int) ≤ 0xFFFFFFFF)
  · rw [if_pos hpid]
    exact hraised (by decide)
  rw [if_neg hpid]
  by_cases hid : ¬((0 : Int) < characterId ∧ (characterId : Int) < 0xFFFFFFFF)
  · rw [if_pos hid]
    exact hraised (by decide)
  rw [if_neg hid]
  have hprocess : (BitVec.ofInt 32 (pid : Int)).setWidth 64 = BitVec.ofNat 64 pid := by
    rw [BitVec.ofInt_natCast]
    bv_omega
  have htarget : (BitVec.ofInt 32 (characterId : Int)).toNat = characterId := by
    rw [BitVec.ofInt_natCast, BitVec.toNat_ofNat]
    omega
  rw [System.runUser, Program.translate_bind, wp_bind]
  refine wp_mono (wp_deSelectNearbyCharacter hl) fun returned l' hconcluded => ?_
  rw [hprocess] at hconcluded
  obtain ⟨hcode, process, slot, hslot, hstored⟩ | ⟨hcode, hkept⟩ := hconcluded
  · rw [if_neg (not_not.mpr (of_decide_eq_true hcode))]
    obtain ⟨controller, hcontroller, rfl, -⟩ := Target.slotOf_eq_some.mp hslot.located
    obtain ⟨-, -, -, hcontroller, hne, -⟩ := Target.controllerOf_eq_some.mp hcontroller
    rw [htarget] at hstored
    refine ⟨fun _ => ⟨process, controller, hslot.opened, hcontroller, hne, hstored⟩, fun error h => ?_⟩
    cases h
  · rw [if_pos (of_decide_eq_false hcode)]
    refine .error ?_ hkept
    by_cases herror : bufferValue returned.error ≠ []
    · simp only [messageOf, if_pos herror]
      exact herror
    · simp only [messageOf, if_neg herror]
      intro hempty
      have hlength := congrArg List.length hempty
      rw [List.length_append, List.length_append, Json.codes, List.length_map] at hlength
      simp at hlength

/-- What the user selects in a run in which no choice in the combobox disturbs is selected in the
game: in the process that the row was listed for, the id of the character that the row was made
from; or else nothing changes in the game, and the window shows a message. -/
theorem selection_reaches (processes : Except String (List Pid)) (events : List Event)
    (hkeep : Undisturbed (start processes) events) {c : Call}
    (hcall : c ∈ (run (start processes) events).calls) (T : Target sys) {env : WinEnv}
    (hfits : ∀ l o, T.Fits l o (env l o)) (client : PEProcess) :
    let run := (System.runUser sys client (selectNearbyCharacter sys c.pid c.targetId)).run env []
    Selected T c.row.source c.row.character.id run.1 run.2 := by
  obtain ⟨hsource, hid⟩ := (run_faithful (start_faithful processes) hkeep).calls c hcall
  rw [hsource, ← hid]
  exact run_of_wp (C := T.system) hfits (wp_selectNearbyCharacter c.pid c.targetId rfl)

def sampleTarget : Character := ⟨"Bat", none, none, 16, 32, 5⟩

def sampleSelection : List Event :=
  [.refreshNearby, .listingEnded 0 (.ok [sampleTarget]), .nearbyLoaded 0, .selectNearby [0]]

def sampleCall : Call := ⟨7, 5, rowOf 7 sampleTarget⟩

/-- The only row is selected. -/
theorem selection_reaches_sample :
    let run := (System.runUser samplePlatform 9 (selectNearbyCharacter samplePlatform sampleCall.pid
      sampleCall.targetId)).run (sampleGame.env 9 sampleImage) []
    Selected sampleGame sampleCall.row.source sampleCall.row.character.id run.1 run.2 ∧
      run.1.isOk := by
  have hkeep : Undisturbed (start (.ok [7])) sampleSelection := ⟨nofun, nofun, nofun, nofun, trivial⟩
  have hcall : sampleCall ∈ (run (start (.ok [7])) sampleSelection).calls := by decide
  exact ⟨selection_reaches (.ok [7]) sampleSelection hkeep hcall sampleGame
    (sampleGame.env_fits 9 sampleImage) 9, by decide +kernel⟩

end Selection

end DarkEden.Gui
