import Mathlib.Logic.Relation
import Mathlib.Tactic.Tauto

namespace Interaction.Preorder

variable {α : Type}

/-- Depth first: the vertices in the order of their first visit from a list of roots, where the
vertices in `seen` are not visited again. -/
inductive Visits (succ : α → List α) : List α → List α → List α → Prop
  | nil {seen : List α} : Visits succ [] seen []
  | seen {n : α} {todo seen out : List α} (hn : n ∈ seen) (h : Visits succ todo seen out) :
      Visits succ (n :: todo) seen out
  | visit {n : α} {todo seen below rest : List α} (hn : n ∉ seen)
      (hbelow : Visits succ (succ n) (n :: seen) below)
      (hrest : Visits succ todo (below.reverse ++ n :: seen) rest) :
      Visits succ (n :: todo) seen (n :: (below ++ rest))

variable {succ : α → List α}

theorem Visits.append {xs ys seen out out' : List α} (hxs : Visits succ xs seen out)
    (hys : Visits succ ys (out.reverse ++ seen) out') : Visits succ (xs ++ ys) seen (out ++ out') := by
  induction hxs generalizing out' with
  | nil => exact hys
  | seen hn _ ih => exact .seen hn (ih hys)
  | @visit n todo seen below rest hn hbelow _ _ ih =>
    rw [List.cons_append, List.cons_append, List.append_assoc]
    apply Visits.visit hn hbelow
    apply ih
    simpa using hys

theorem Visits.split {xs ys seen out : List α} (h : Visits succ (xs ++ ys) seen out) :
    ∃ out₁ out₂, Visits succ xs seen out₁ ∧ Visits succ ys (out₁.reverse ++ seen) out₂ ∧
      out = out₁ ++ out₂ := by
  generalize htodo : xs ++ ys = todo at h
  induction h generalizing xs with
  | nil =>
    obtain ⟨rfl, rfl⟩ := List.append_eq_nil_iff.mp htodo
    exact ⟨[], [], .nil, .nil, rfl⟩
  | @seen n todo seen out hn h ih =>
    cases xs with
    | nil =>
      obtain rfl : ys = n :: todo := htodo
      exact ⟨[], out, .nil, .seen hn h, rfl⟩
    | cons x xs =>
      obtain ⟨rfl, htail⟩ := List.cons.inj htodo
      obtain ⟨out₁, out₂, h₁, h₂, rfl⟩ := ih htail
      exact ⟨out₁, out₂, .seen hn h₁, h₂, rfl⟩
  | @visit n todo seen below rest hn hbelow hrest _ ih =>
    cases xs with
    | nil =>
      obtain rfl : ys = n :: todo := htodo
      exact ⟨[], _, .nil, .visit hn hbelow hrest, rfl⟩
    | cons x xs =>
      obtain ⟨rfl, htail⟩ := List.cons.inj htodo
      obtain ⟨out₁, out₂, h₁, h₂, rfl⟩ := ih htail
      refine ⟨x :: (below ++ out₁), out₂, .visit hn hbelow h₁, ?_, by simp⟩
      simpa using h₂

/-- A stack does the same: a new vertex is replaced by its successors. -/
theorem Visits.step {n : α} {todo seen out : List α} (hn : n ∉ seen)
    (h : Visits succ (succ n ++ todo) (n :: seen) out) : Visits succ (n :: todo) seen (n :: out) := by
  obtain ⟨below, rest, hbelow, hrest, rfl⟩ := h.split
  exact .visit hn hbelow hrest

/-- It makes no difference whether a vertex seen before is on the stack. -/
theorem Visits.insert {n : α} {xs ys seen out : List α} (hn : n ∈ seen)
    (h : Visits succ (xs ++ ys) seen out) : Visits succ (xs ++ n :: ys) seen out := by
  obtain ⟨out₁, out₂, h₁, h₂, rfl⟩ := h.split
  exact h₁.append (.seen (List.mem_append_right _ hn) h₂)

theorem Visits.nodup {todo seen out : List α} (h : Visits succ todo seen out) :
    out.Nodup ∧ ∀ n ∈ out, n ∉ seen := by
  induction h with
  | nil => exact ⟨List.nodup_nil, nofun⟩
  | seen _ _ ih => exact ih
  | @visit n todo seen below rest hn _ _ ihBelow ihRest =>
    obtain ⟨hbelow, hbelow'⟩ := ihBelow
    obtain ⟨hrest, hrest'⟩ := ihRest
    have hrestSeen : ∀ c ∈ rest, c ∉ below ∧ c ≠ n ∧ c ∉ seen := by
      intro c hc
      simpa [not_or] using hrest' c hc
    constructor
    · refine List.nodup_cons.mpr ⟨fun hmem => ?_, List.nodup_append.mpr ⟨hbelow, hrest, ?_⟩⟩
      · obtain h | h := List.mem_append.mp hmem
        · exact hbelow' n h (.head _)
        · exact (hrestSeen n h).2.1 rfl
      · intro a ha b hb hab
        exact (hrestSeen b hb).1 (hab ▸ ha)
    · intro c hc hseen
      obtain rfl | hc := List.mem_cons.mp hc
      · exact hn hseen
      obtain h | h := List.mem_append.mp hc
      · exact hbelow' c h (.tail _ hseen)
      · exact (hrestSeen c h).2.2 hseen

theorem Visits.sound {todo seen out : List α} (h : Visits succ todo seen out) {n : α}
    (hn : n ∈ out) : ∃ r ∈ todo, Relation.ReflTransGen (fun a b => b ∈ succ a) r n := by
  induction h with
  | nil => cases hn
  | seen _ _ ih =>
    obtain ⟨r, hr, hpath⟩ := ih hn
    exact ⟨r, .tail _ hr, hpath⟩
  | @visit m todo seen below rest _ _ _ ihBelow ihRest =>
    obtain rfl | hn := List.mem_cons.mp hn
    · exact ⟨n, .head _, .refl⟩
    obtain h | h := List.mem_append.mp hn
    · obtain ⟨r, hr, hpath⟩ := ihBelow h
      exact ⟨m, .head _, .head hr hpath⟩
    · obtain ⟨r, hr, hpath⟩ := ihRest h
      exact ⟨r, .tail _ hr, hpath⟩

theorem Visits.closed {todo seen out : List α} (h : Visits succ todo seen out) :
    (∀ r ∈ todo, r ∈ out ∨ r ∈ seen) ∧ ∀ n ∈ out, ∀ c ∈ succ n, c ∈ out ∨ c ∈ seen := by
  induction h with
  | nil => exact ⟨nofun, nofun⟩
  | @seen n todo seen out hn _ ih =>
    refine ⟨fun r hr => ?_, ih.2⟩
    obtain rfl | hr := List.mem_cons.mp hr
    · exact .inr hn
    · exact ih.1 r hr
  | @visit n todo seen below rest _ _ _ ihBelow ihRest =>
    -- What the visit below `n` has seen or visited has been visited or seen here too.
    have hbelow : ∀ {c : α}, c ∈ below ∨ c ∈ n :: seen → c ∈ n :: (below ++ rest) ∨ c ∈ seen := by
      intro c hc
      simp only [List.mem_cons, List.mem_append] at hc ⊢
      tauto
    have hrest : ∀ {c : α}, c ∈ rest ∨ c ∈ below.reverse ++ n :: seen →
        c ∈ n :: (below ++ rest) ∨ c ∈ seen := by
      intro c hc
      simp only [List.mem_cons, List.mem_append, List.mem_reverse] at hc ⊢
      tauto
    constructor
    · intro r hr
      obtain rfl | hr := List.mem_cons.mp hr
      · exact .inl (.head _)
      · exact hrest (ihRest.1 r hr)
    · intro m hm c hc
      obtain rfl | hm := List.mem_cons.mp hm
      · exact hbelow (ihBelow.1 c hc)
      obtain h | h := List.mem_append.mp hm
      · exact hbelow (ihBelow.2 m h c hc)
      · exact hrest (ihRest.2 m h c hc)

theorem Visits.complete {todo out : List α} (h : Visits succ todo [] out) {r n : α} (hr : r ∈ todo)
    (hpath : Relation.ReflTransGen (fun a b => b ∈ succ a) r n) : n ∈ out := by
  have hnil : ∀ {c : α}, c ∈ out ∨ c ∈ ([] : List α) → c ∈ out := fun h => h.elim id nofun
  induction hpath with
  | refl => exact hnil (h.closed.1 r hr)
  | tail _ hstep ih => exact hnil (h.closed.2 _ ih _ hstep)

end Interaction.Preorder
