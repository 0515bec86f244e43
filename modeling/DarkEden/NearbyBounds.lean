import DarkEden.Interaction.Iteration
import DarkEden.Traversal
import Mathlib.Data.List.Nodup

namespace DarkEden.NearbyBounds

open Interaction Engine Traversal

variable (sys : Platform) (processId : DWord) (imageBase : ULongPtr) (env : Env UserAns)

/-- At some point `ReadDword` comes back with this. -/
def Answered (address : ULongPtr) (value : Option ULong) : Prop :=
  ∃ l, ((readDword sys processId imageBase address).run.run env l).1.toOption = value

theorem reads_ofEnv : Reads (.ofEnv env) sys processId imageBase
    (Answered sys processId imageBase env) fun _ _ => True where
  dword _ l := wp_ofEnv.mpr ⟨l, rfl⟩
  name _ _ _ _ _ := wp_ofEnv.mpr trivial

def pass (header : ULong) (walk : Walk) : User (Walk ⊕ Except WString (List Character)) :=
  settle <$> (visit sys processId imageBase header walk).run

/-- The passes that remove an entry from the stack. -/
def removals (trace : List Walk) : Nat := trace.countP fun walk => walk.pending ≠ []

local instance decidablePassed (header node : ULong) (seenNodes : List ULong) :
    Decidable (Passed header node seenNodes) :=
  decidable_of_iff (node = 0 ∨ node = header ∨ seenNodes.contains node = true)
    (by rw [List.contains_iff_mem])

/-- The node whose fields a pass reads. -/
def expanded (header : ULong) (walk : Walk) : Option ULong :=
  walk.pending.head?.filter fun node =>
    ¬Passed header node walk.seenNodes ∧ walk.seenNodes.length < 2048

variable {sys processId imageBase env} {header : ULong} {l l' : Log UserAns}

theorem pass_spec {walk : Walk} {r : Walk ⊕ Except WString (List Character)}
    (h : ((pass sys processId imageBase header walk).run env l).1 = r) :
    ∃ s, r = settle s ∧
      Pass (Answered sys processId imageBase env) (fun _ _ => True) header walk s := by
  have hvisit : Pass (Answered sys processId imageBase env) (fun _ _ => True) header walk
      ((visit sys processId imageBase header walk).run.run env l).1 :=
    wp_ofEnv.mp ((reads_ofEnv sys processId imageBase env).visit walk l)
  refine ⟨_, ?_, hvisit⟩
  rw [← h, pass, map_eq_pure_bind, Program.run_bind, Program.run_pure]

theorem pass_inl {walk walk' : Walk}
    (h : ((pass sys processId imageBase header walk).run env l).1 = .inl walk') :
    Pass (Answered sys processId imageBase env) (fun _ _ => True) header walk (.ok (.inl walk')) := by
  obtain ⟨s, hs, hpass⟩ := pass_spec h
  match s, hs with
  | .ok (.inl walk''), hs =>
    obtain rfl := Sum.inl.inj hs
    exact hpass

/-- Every removal uses up one of the passes that may still be needed. -/
theorem removals_le {walk : Walk} {trace : List Walk} {result : Except WString (List Character)}
    (h : Iterates env (pass sys processId imageBase header) walk l trace result l') :
    removals trace ≤ Walk.passes walk := by
  induction h with
  | @stop walk l l' result h =>
    rw [removals, List.countP_singleton]
    split
    · rename_i hpending
      have hne : walk.pending ≠ [] := of_decide_eq_true hpending
      exact Nat.le_add_right_of_le (List.length_pos_iff.mpr hne)
    · exact Nat.zero_le _
  | next h _ ih =>
    have hlt := (pass_inl (congrArg Prod.fst h)).passes_lt
    rw [removals, List.countP_cons]
    rw [removals] at ih
    split <;> omega

theorem expanded_of_top {walk : Walk} {node : ULong} {rest : List ULong}
    (htop : walk.pending = node :: rest) : expanded header walk =
      if ¬Passed header node walk.seenNodes ∧ walk.seenNodes.length < 2048 then some node
      else none := by
  rw [expanded, htop, List.head?_cons, Option.filter_some]
  simp only [decide_eq_true_eq]

theorem fresh_of_expanded {walk : Walk} {node : ULong} (h : expanded header walk = some node) :
    node ∉ walk.seenNodes ∧ walk.seenNodes.length < 2048 := by
  obtain ⟨hfresh, hroom⟩ := of_decide_eq_true (Option.filter_eq_some_iff.mp h).2
  exact ⟨fun hmem => hfresh (.inr (.inr hmem)), hroom⟩

/-- The nodes expanded from here on are new, and there is room for all of them. -/
theorem expanded_spec {walk : Walk} {trace : List Walk} {result : Except WString (List Character)}
    (h : Iterates env (pass sys processId imageBase header) walk l trace result l') :
    (trace.filterMap (expanded header)).Nodup ∧
      (∀ node ∈ trace.filterMap (expanded header), node ∉ walk.seenNodes) ∧
      (trace.filterMap (expanded header)).length ≤ 2048 - walk.seenNodes.length := by
  induction h with
  | @stop walk l l' result h =>
    cases hexpanded : expanded header walk with
    | none => simp [hexpanded]
    | some node =>
      obtain ⟨hfresh, hroom⟩ := fresh_of_expanded hexpanded
      rw [List.filterMap_cons, hexpanded, List.filterMap_nil]
      refine ⟨List.nodup_cons.mpr ⟨List.not_mem_nil, List.nodup_nil⟩, fun node' hmem => ?_, ?_⟩
      · rwa [List.mem_singleton.mp hmem]
      · rw [List.length_singleton]
        omega
  | @next walk walk' l l₁ l' trace result h _ ih =>
    obtain ⟨hnodup, hnew, hlength⟩ := ih
    cases pass_inl (congrArg Prod.fst h) with
    | skip htop hpassed =>
      rw [List.filterMap_cons, expanded_of_top htop, if_neg fun hc => hc.1 hpassed]
      exact ⟨hnodup, hnew, hlength⟩
    | @visit node _ _ _ _ rest _ _ _ htop hfresh hroom =>
      rw [List.filterMap_cons, expanded_of_top htop, if_pos ⟨hfresh, hroom⟩]
      refine ⟨List.nodup_cons.mpr ⟨fun hmem => hnew node hmem (.head _), hnodup⟩, ?_, ?_⟩
      · intro node' hmem hseen
        cases hmem with
        | head => exact hfresh (.inr (.inr hseen))
        | tail _ hmem => exact hnew node' hmem (.tail _ hseen)
      · simp only [List.length_cons] at hlength ⊢
        omega

theorem collected_of_iterates {walk : Walk} {trace : List Walk} {found : List Character}
    (h : Iterates env (pass sys processId imageBase header) walk l trace (.ok found) l')
    (hwalk : Collected (Answered sys processId imageBase env) (fun _ _ => True) walk) :
    ∃ actors : List ULong, actors.Nodup ∧
      List.Forall₂ (Describes (Answered sys processId imageBase env) fun _ _ => True) actors found := by
  obtain ⟨last, l₁, hlast, hrun⟩ := h.last hwalk fun _ _ _ hs hnext => hs.pass (pass_inl hnext)
  obtain ⟨s, hs, hpass⟩ := pass_spec (congrArg Prod.fst hrun)
  match s, hs with
  | .ok (.inr found'), hs =>
    obtain rfl := Except.ok.inj (Sum.inr.inj hs)
    cases hpass
    exact ⟨_, List.nodup_reverse.mpr hlast.nodup, hlast.described⟩

theorem exists_trace (sys : Platform) (processId : DWord) (imageBase : ULongPtr)
    (env : Env UserAns) (header root : ULong) (l : Log UserAns) : ∃ trace result l',
      Iterates env (pass sys processId imageBase header) ⟨[root], [], [], []⟩ l trace result l' ∧
        (walkTree sys processId imageBase header root).run.run env l = (result, l') := by
  obtain ⟨trace, result, l', hiterates⟩ := exists_iterates Walk.passes
    (fun walk l walk' h => (pass_inl h).passes_lt) (⟨[root], [], [], []⟩ : Walk) l
  refine ⟨trace, result, l', hiterates, ?_⟩
  -- The last pass may stop without a removal, so there is one pass more than removals.
  have hlength : ∀ {walk : Walk} {trace : List Walk} {result : Except WString (List Character)}
      {l l' : Log UserAns}, Iterates env (pass sys processId imageBase header) walk l trace result l' →
        trace.length ≤ Walk.passes walk + 1 := by
    intro walk trace result l l' h
    induction h with
    | stop => exact Nat.le_add_left 1 _
    | next h _ ih =>
      have hlt := (pass_inl (congrArg Prod.fst h)).passes_lt
      rw [List.length_cons]
      omega
  have hfuel : trace.length ≤ 4098 := hlength hiterates
  have hloop := hiterates.run_loop hfuel
  change (Program.loop (pass sys processId imageBase header) 4098 _ >>= fun stopped =>
    pure (stopped.getD (.error []))).run env l = _
  rw [Program.run_bind, hloop]
  rfl

/-- Whatever the target answers, the traversal ends within bounds, and what it collects are
distinct actors with ids. -/
theorem traversal_bounded (sys : Platform) (processId : DWord) (env : Env UserAns) :
    (∀ imageBase header root l, ∃ trace result l',
      Iterates env (pass sys processId imageBase header) ⟨[root], [], [], []⟩ l trace result l' ∧
      (walkTree sys processId imageBase header root).run.run env l = (result, l') ∧
      removals trace ≤ 4097 ∧ (trace.filterMap (expanded header)).Nodup ∧
      (trace.filterMap (expanded header)).length ≤ 2048 ∧
      ∀ found, result = .ok found → ∃ actors : List ULong, actors.Nodup ∧
        List.Forall₂ (Describes (Answered sys processId imageBase env) fun _ _ => True)
          actors found) ∧
    ∀ l listing, ((readNearbyCharacters sys processId).run.run env l).1 = .ok listing →
      ∃ imageBase, ∃ actors : List ULong, actors.Nodup ∧
        List.Forall₂ (fun actor c => actor ≠ 0 ∧ c.id ≠ 0 ∧
          Field (Answered sys processId imageBase env) actor 8 (some c.id))
          actors listing.characters := by
  have hwalk : ∀ imageBase header root l found,
      ((walkTree sys processId imageBase header root).run.run env l).1 = .ok found →
        ∃ actors : List ULong, actors.Nodup ∧
          List.Forall₂ (Describes (Answered sys processId imageBase env) fun _ _ => True)
            actors found := by
    intro imageBase header root l found hfound
    obtain ⟨trace, result, l', hiterates, hrun⟩ :=
      exists_trace sys processId imageBase env header root l
    rw [hrun] at hfound
    obtain rfl : result = .ok found := hfound
    exact collected_of_iterates hiterates (collected_nil _)
  constructor
  · intro imageBase header root l
    obtain ⟨trace, result, l', hiterates, hrun⟩ :=
      exists_trace sys processId imageBase env header root l
    obtain ⟨hnodup, -, hlength⟩ := expanded_spec hiterates
    refine ⟨trace, result, l', hiterates, hrun, removals_le hiterates, hnodup, hlength, ?_⟩
    intro found hfound
    exact hwalk imageBase header root l found (by rw [hrun, hfound])
  · intro l listing hlisting
    have hsurvey := wp_ofEnv.mp (wp_readNearbyCharacters (l := l) (B := fun _ => True)
      (R := fun _ _ _ => True) (O := fun _ => True)
      (W := fun imageBase header root r =>
        ∃ l, r = ((walkTree sys processId imageBase header root).run.run env l).1)
      (wp_ofEnv.mpr trivial) (fun _ _ _ _ => wp_ofEnv.mpr trivial)
      (fun _ => wp_ofEnv.mpr trivial) fun _ _ _ _ l _ => wp_ofEnv.mpr ⟨l, rfl⟩)
    rw [hlisting] at hsurvey
    generalize hr : (Except.ok listing : Except WString Listing) = r at hsurvey
    cases hsurvey with
    | @walked imageBase manager header root ownName found _ hfound =>
      obtain ⟨-, l₁, hfound⟩ := hfound
      match found, hr with
      | .ok found, hr =>
        obtain ⟨actors, hnodup, hdescribed⟩ := hwalk imageBase header root l₁ found hfound.symm
        refine ⟨imageBase, actors, hnodup, ?_⟩
        rw [publish_eq_ok hr.symm, nameCharacters_eq, List.forall₂_map_right_iff]
        refine hdescribed.imp fun actor c h => ?_
        obtain ⟨-, packed, haccepted, -⟩ := h
        exact ⟨haccepted.actor_ne, haccepted.id_ne, haccepted.readId⟩
    | _ => cases hr

end DarkEden.NearbyBounds
