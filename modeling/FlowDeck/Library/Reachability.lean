import Mathlib.Order.Bounds.Basic
import Mathlib.Data.Finset.Card

/-! Reachability by a number of steps, and labels that bound it. -/

namespace BoundedReach

variable {α : Type*} {start : α → Prop} {step : α → α → Prop}

/-- A chain of a number of steps from a start leads to an element. -/
inductive ReachesIn (start : α → Prop) (step : α → α → Prop) : Nat → α → Prop
  | start {a : α} (h : start a) : ReachesIn start step 0 a
  | step {n : Nat} {a b : α} (h : ReachesIn start step n a) (hstep : step a b) :
      ReachesIn start step (n + 1) b

theorem ReachesIn.pred {n : Nat} {b : α} (h : ReachesIn start step (n + 1) b) :
    ∃ a, ReachesIn start step n a ∧ step a b := by
  cases h with
  | step h hstep => exact ⟨_, h, hstep⟩

structure Closed (start : α → Prop) (step : α → α → Prop) (label : α → Option Nat) (bound : Nat) :
    Prop where
  atStart : ∀ a, start a → label a = some 0
  atStep : ∀ a b d, label a = some d → d < bound → step a b → ∃ d' ≤ d + 1, label b = some d'

theorem Closed.label_le {label : α → Option Nat} {bound n : Nat} {a : α}
    (h : Closed start step label bound) (hreach : ReachesIn start step n a) (hn : n ≤ bound) :
    ∃ d ≤ n, label a = some d := by
  induction hreach with
  | start ha => exact ⟨0, le_refl 0, h.atStart _ ha⟩
  | @step n a b _ hstep ih =>
    obtain ⟨d, hd, ha⟩ := ih (by omega)
    obtain ⟨d', hd', hb⟩ := h.atStep a b d ha (by omega) hstep
    exact ⟨d', by omega, hb⟩

end BoundedReach

/-! The elements that a worklist collects are those that can be reached. -/

namespace Worklist

open Relation

variable {α : Type*} [DecidableEq α]

def insertOnce (seen : List α) (x : α) : List α := if x ∈ seen then seen else seen ++ [x]

theorem mem_insertOnce {seen : List α} {x y : α} : y ∈ insertOnce seen x ↔ y ∈ seen ∨ y = x := by
  unfold insertOnce
  split
  case isTrue h =>
    constructor
    · exact Or.inl
    · intro hy
      cases hy with
      | inl hy => exact hy
      | inr heq => exact heq ▸ h
  case isFalse => simp

omit [DecidableEq α] in
/-- A fold whose step adds at most the element that it takes. -/
theorem mem_of_mem_foldl {β : Type*} {f : List β → β → List β}
    (hf : ∀ seen x y, y ∈ f seen x → y ∈ seen ∨ y = x) {xs seen : List β} {y : β}
    (h : y ∈ xs.foldl f seen) : y ∈ seen ∨ y ∈ xs := by
  induction xs generalizing seen with
  | nil => exact Or.inl h
  | cons x xs ih =>
    rcases ih h with hmem | hmem
    · rcases hf seen x y hmem with hseen | heq
      · exact Or.inl hseen
      · exact Or.inr (List.mem_cons.mpr (Or.inl heq))
    · exact Or.inr (List.mem_cons_of_mem _ hmem)

theorem nodup_insertOnce {seen : List α} (h : seen.Nodup) (x : α) : (insertOnce seen x).Nodup := by
  unfold insertOnce
  split
  case isTrue => exact h
  case isFalse hx =>
    apply List.nodup_append'.mpr
    refine ⟨h, List.nodup_singleton x, ?_⟩
    intro y hy hyx
    exact hx (List.mem_singleton.mp hyx ▸ hy)

theorem mem_foldl_insertOnce {xs seen : List α} {y : α} :
    y ∈ xs.foldl insertOnce seen ↔ y ∈ seen ∨ y ∈ xs := by
  induction xs generalizing seen with
  | nil => simp
  | cons x xs ih => rw [List.foldl_cons, ih, mem_insertOnce, List.mem_cons, or_assoc]

theorem nodup_foldl_insertOnce {xs seen : List α} (h : seen.Nodup) :
    (xs.foldl insertOnce seen).Nodup := by
  induction xs generalizing seen with
  | nil => exact h
  | cons x xs ih => exact ih (nodup_insertOnce h x)

/-- What is seen and the queue, after an element is looked at. -/
def visit (s : List α × List α) (x : α) : List α × List α :=
  if x ∈ s.1 then s else (s.1 ++ [x], s.2 ++ [x])

theorem foldl_visit (xs seen queue : List α) : ∃ fresh,
    xs.foldl visit (seen, queue) = (seen ++ fresh, queue ++ fresh) ∧
      seen ++ fresh = xs.foldl insertOnce seen := by
  induction xs generalizing seen queue with
  | nil => exact ⟨[], by simp⟩
  | cons x xs ih =>
    by_cases hx : x ∈ seen
    · obtain ⟨fresh, hfold, hinsert⟩ := ih seen queue
      refine ⟨fresh, ?_, ?_⟩
      · simpa [visit, hx] using hfold
      · simpa [insertOnce, hx] using hinsert
    · obtain ⟨fresh, hfold, hinsert⟩ := ih (seen ++ [x]) (queue ++ [x])
      refine ⟨x :: fresh, ?_, ?_⟩
      · simpa [visit, hx] using hfold
      · simpa [insertOnce, hx] using hinsert

variable (next : α → List α)

/-- Work off the queue, for as many elements as the fuel allows. -/
def spread : Nat → List α → List α → List α
  | 0, _, seen => seen
  | _ + 1, [], seen => seen
  | fuel + 1, x :: queue, seen =>
    let s := (next x).foldl visit (seen, queue)
    spread fuel s.2 s.1

/-- What is queued is seen, and what is seen and not queued has been worked off. -/
structure Frontier (bound : Finset α) (queue seen : List α) : Prop where
  queued : ∀ x ∈ queue, x ∈ seen
  done : ∀ x ∈ seen, x ∈ queue ∨ ∀ y ∈ next x, y ∈ seen
  bounded : ∀ x ∈ seen, x ∈ bound
  distinct : seen.Nodup

variable {next} {bound : Finset α} {queue seen : List α}

theorem Frontier.length_le (h : Frontier next bound queue seen) : seen.length ≤ bound.card := by
  rw [← List.toFinset_card_of_nodup h.distinct]
  apply Finset.card_le_card
  intro x hx
  exact h.bounded x (List.mem_toFinset.mp hx)

theorem Frontier.visit {x : α} {fresh : List α} (h : Frontier next bound (x :: queue) seen)
    (hbound : ∀ y ∈ next x, y ∈ bound) (hfresh : seen ++ fresh = (next x).foldl insertOnce seen) :
    Frontier next bound (queue ++ fresh) (seen ++ fresh) := by
  have hmem : ∀ y, y ∈ seen ++ fresh ↔ y ∈ seen ∨ y ∈ next x := by
    intro y
    rw [hfresh, mem_foldl_insertOnce]
  refine ⟨?_, ?_, ?_, ?_⟩
  · intro y hy
    cases List.mem_append.mp hy with
    | inl hold => exact List.mem_append_left _ (h.queued y (List.mem_cons_of_mem _ hold))
    | inr hnew => exact List.mem_append_right _ hnew
  · intro y hy
    cases List.mem_append.mp hy with
    | inr hnew => exact Or.inl (List.mem_append_right _ hnew)
    | inl hold =>
      cases h.done y hold with
      | inr hdone => exact Or.inr fun z hz => List.mem_append_left _ (hdone z hz)
      | inl hqueued =>
        cases List.mem_cons.mp hqueued with
        | inl heq =>
          obtain rfl := heq
          exact Or.inr fun z hz => (hmem z).mpr (Or.inr hz)
        | inr hrest => exact Or.inl (List.mem_append_left _ hrest)
  · intro y hy
    cases (hmem y).mp hy with
    | inl hold => exact h.bounded y hold
    | inr hnew => exact hbound y hnew
  · rw [hfresh]
    exact nodup_foldl_insertOnce h.distinct

theorem spread_of_mem {fuel : Nat} {x : α} (h : x ∈ seen) : x ∈ spread next fuel queue seen := by
  induction fuel generalizing queue seen with
  | zero => exact h
  | succ fuel ih =>
    cases queue with
    | nil => exact h
    | cons first queue =>
      obtain ⟨fresh, hfold, -⟩ := foldl_visit (next first) seen queue
      simp only [spread, hfold]
      exact ih (List.mem_append_left _ h)

theorem spread_closed (hbound : ∀ x, ∀ y ∈ next x, y ∈ bound) {fuel : Nat}
    (h : Frontier next bound queue seen) (hfuel : queue.length + (bound.card - seen.length) ≤ fuel)
    {x y : α} (hx : x ∈ spread next fuel queue seen) (hy : y ∈ next x) :
    y ∈ spread next fuel queue seen := by
  induction fuel generalizing queue seen with
  | zero =>
    have hnil : queue = [] := List.length_eq_zero_iff.mp (by omega)
    cases h.done x hx with
    | inl hqueued =>
      rw [hnil] at hqueued
      exact absurd hqueued List.not_mem_nil
    | inr hdone => exact hdone y hy
  | succ fuel ih =>
    cases queue with
    | nil =>
      cases h.done x hx with
      | inl hqueued => exact absurd hqueued List.not_mem_nil
      | inr hdone => exact hdone y hy
    | cons first queue =>
      obtain ⟨fresh, hfold, hfresh⟩ := foldl_visit (next first) seen queue
      simp only [spread, hfold] at hx ⊢
      have hnext := h.visit (hbound first) hfresh
      have hlength := hnext.length_le
      apply ih hnext ?_ hx
      simp only [List.length_append, List.length_cons] at hfuel hlength ⊢
      omega

theorem reachable_of_mem_spread {fuel : Nat} {z : α} (hqueue : ∀ x ∈ queue, x ∈ seen)
    (h : z ∈ spread next fuel queue seen) :
    ∃ x ∈ seen, ReflTransGen (fun a b => b ∈ next a) x z := by
  induction fuel generalizing queue seen with
  | zero => exact ⟨z, h, .refl⟩
  | succ fuel ih =>
    cases queue with
    | nil => exact ⟨z, h, .refl⟩
    | cons first queue =>
      obtain ⟨fresh, hfold, hfresh⟩ := foldl_visit (next first) seen queue
      simp only [spread, hfold] at h
      have hqueue' : ∀ x ∈ queue ++ fresh, x ∈ seen ++ fresh := by
        intro x hx
        cases List.mem_append.mp hx with
        | inl hold => exact List.mem_append_left _ (hqueue x (List.mem_cons_of_mem _ hold))
        | inr hnew => exact List.mem_append_right _ hnew
      obtain ⟨x, hx, hpath⟩ := ih hqueue' h
      rw [hfresh, mem_foldl_insertOnce] at hx
      cases hx with
      | inl hold => exact ⟨x, hold, hpath⟩
      | inr hnew =>
        exact ⟨first, hqueue first List.mem_cons_self, ReflTransGen.head hnew hpath⟩

/-- A worklist that starts with all that is seen collects exactly what can be reached from it. -/
theorem mem_spread_iff (hbound : ∀ x, ∀ y ∈ next x, y ∈ bound) {fuel : Nat}
    (h : Frontier next bound queue seen) (hfuel : queue.length + (bound.card - seen.length) ≤ fuel)
    {z : α} :
    z ∈ spread next fuel queue seen ↔ ∃ x ∈ seen, ReflTransGen (fun a b => b ∈ next a) x z := by
  constructor
  · exact reachable_of_mem_spread h.queued
  · intro hreach
    obtain ⟨x, hx, hpath⟩ := hreach
    induction hpath with
    | refl => exact spread_of_mem hx
    | tail _ hstep ih => exact spread_closed hbound h hfuel ih hstep

end Worklist
