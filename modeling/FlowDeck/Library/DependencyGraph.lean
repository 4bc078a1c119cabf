import Mathlib.Order.WellFoundedSet

namespace Wavefront

variable {ι : Type*}

/-- What is cut off: the broken, and what waits behind something that is cut off. -/
inductive Cut (dep : ι → ι → Prop) (waiting broken : ι → Prop) : ι → Prop
  | broken {i : ι} (h : broken i) : Cut dep waiting broken i
  | behind {i d : ι} (hwaiting : waiting i) (hdep : dep i d) (hcut : Cut dep waiting broken d) :
      Cut dep waiting broken i

/-- What waits and is reached within so many waves, each of which reaches what stands on the
ground or on what came well out of the waves before. -/
def Reached (dep : ι → ι → Prop) (waiting ground good : ι → Prop) : Nat → ι → Prop
  | 0, _ => False
  | n + 1, i => waiting i ∧
      ∀ d, dep i d → ground d ∨ Reached dep waiting ground good n d ∧ good d

variable {dep : ι → ι → Prop} {waiting ground good broken broken' : ι → Prop} {i d : ι} {n m : Nat}

theorem Cut.mono (h : Cut dep waiting broken i) (hle : ∀ j, broken j → Cut dep waiting broken' j) :
    Cut dep waiting broken' i := by
  induction h with
  | broken h => exact hle _ h
  | behind hwaiting hdep _ ih => exact Cut.behind hwaiting hdep ih

/-- More that waits makes no difference where it has nothing before it that is cut off. -/
theorem cut_widen_iff {extra : ι → Prop}
    (h : ∀ i, extra i → ∀ d, dep i d → ¬Cut dep waiting broken d) :
    Cut dep (fun i => waiting i ∨ extra i) broken i ↔ Cut dep waiting broken i := by
  constructor
  · intro hcut
    induction hcut with
    | broken hbroken => exact Cut.broken hbroken
    | behind hwaiting hdep _ ih =>
      rcases hwaiting with hwaiting | hextra
      · exact Cut.behind hwaiting hdep ih
      · exact absurd ih (h _ hextra _ hdep)
  · intro hcut
    induction hcut with
    | broken hbroken => exact Cut.broken hbroken
    | behind hwaiting hdep _ ih => exact Cut.behind (Or.inl hwaiting) hdep ih

/-- Something is cut off only if something is broken. -/
theorem Cut.exists_broken (h : Cut dep waiting broken i) : ∃ j, broken j := by
  induction h with
  | broken h => exact ⟨_, h⟩
  | behind _ _ _ ih => exact ih

theorem not_cut (hbroken : ¬broken i) (hwaiting : ¬waiting i) : ¬Cut dep waiting broken i := by
  intro h
  cases h with
  | broken h => exact hbroken h
  | behind h _ _ => exact hwaiting h

theorem Reached.isWaiting (h : Reached dep waiting ground good n i) : waiting i := by
  cases n with
  | zero => exact h.elim
  | succ n => exact h.1

theorem Reached.succ (h : Reached dep waiting ground good n i) :
    Reached dep waiting ground good (n + 1) i := by
  induction n generalizing i with
  | zero => exact h.elim
  | succ n ih =>
    refine ⟨h.1, ?_⟩
    intro d hdep
    rcases h.2 d hdep with hground | ⟨hreached, hgood⟩
    · exact Or.inl hground
    · exact Or.inr ⟨ih hreached, hgood⟩

theorem Reached.mono (hle : n ≤ m) (h : Reached dep waiting ground good n i) :
    Reached dep waiting ground good m i := by
  induction hle with
  | refl => exact h
  | step _ ih => exact ih.succ

/-- Where anything is ever reached, the first wave reaches something. -/
theorem Reached.exists_first (h : Reached dep waiting ground good n i) :
    ∃ j, Reached dep waiting ground good 1 j := by
  induction n generalizing i with
  | zero => exact h.elim
  | succ n ih =>
    by_cases hall : ∀ d, dep i d → ground d
    · exact ⟨i, h.1, fun d hdep => Or.inl (hall d hdep)⟩
    · push Not at hall
      obtain ⟨d, hdep, hnot⟩ := hall
      rcases h.2 d hdep with hground | ⟨hreached, _⟩
      · exact absurd hground hnot
      · exact ih hreached

/-- A wave that reaches nothing new is the last to reach anything. -/
theorem Reached.of_still
    (hstill : ∀ j, Reached dep waiting ground good (n + 1) j → Reached dep waiting ground good n j)
    (h : Reached dep waiting ground good m i) : Reached dep waiting ground good n i := by
  induction m generalizing i with
  | zero => exact h.elim
  | succ m ih =>
    apply hstill
    refine ⟨h.1, ?_⟩
    intro d hdep
    rcases h.2 d hdep with hground | ⟨hreached, hgood⟩
    · exact Or.inl hground
    · exact Or.inr ⟨ih hreached, hgood⟩

/-- What is reached stands on nothing that is cut off. -/
theorem Reached.not_cut_dep (hground : ∀ j, ground j → ¬waiting j ∧ ¬broken j)
    (hgood : ∀ j, waiting j → good j → ¬broken j)
    (h : Reached dep waiting ground good n i) (hdep : dep i d) : ¬Cut dep waiting broken d := by
  induction n generalizing i d with
  | zero => exact h.elim
  | succ n ih =>
    rcases h.2 d hdep with hd | ⟨hreached, hd⟩
    · exact not_cut (hground d hd).2 (hground d hd).1
    · intro hcut
      cases hcut with
      | broken hbroken => exact hgood d hreached.isWaiting hd hbroken
      | behind _ hdep' hcut => exact ih hreached hdep' hcut

end Wavefront

/-! Waiting and halted vertices of a dependency graph, and one round of halting what waits directly
on a halted vertex. -/

namespace Halting

open Relation

variable {α : Type*}

@[ext] structure Marks (α : Type*) where
  waiting : Set α
  halted : Set α

variable (needs : α → α → Prop)

/-- Nothing that waits depends, however far, on something halted. -/
def Marks.Clear (m : Marks α) : Prop :=
  ∀ a ∈ m.waiting, ∀ b ∈ m.halted, ¬TransGen needs a b

/-- One round: what waits directly on a halted vertex is halted. -/
def Marks.propagate (m : Marks α) : Marks α where
  waiting := {a | a ∈ m.waiting ∧ ¬∃ b ∈ m.halted, needs a b}
  halted := {a | a ∈ m.halted ∨ a ∈ m.waiting ∧ ∃ b ∈ m.halted, needs a b}

/-- Give one vertex new marks. -/
def Marks.assign (m : Marks α) (v : α) (waits halts : Prop) : Marks α where
  waiting := {a | a ≠ v ∧ a ∈ m.waiting ∨ a = v ∧ waits}
  halted := {a | a ≠ v ∧ a ∈ m.halted ∨ a = v ∧ halts}

variable {needs}

/-- One round is enough exactly when whatever reaches a halted vertex has one next to it. -/
theorem clear_propagate_iff {m : Marks α} :
    (m.propagate needs).Clear needs ↔
      ∀ a ∈ m.waiting, ∀ b ∈ m.halted, TransGen needs a b → ∃ c ∈ m.halted, needs a c := by
  constructor
  · intro hclear a ha b hb hreach
    by_contra hnone
    exact hclear a ⟨ha, hnone⟩ b (.inl hb) hreach
  · intro hnext a ha b hb hreach
    obtain ⟨hwait, hnone⟩ := ha
    apply hnone
    rcases hb with hb | ⟨-, c, hc, hneed⟩
    · exact hnext a hwait b hb hreach
    · exact hnext a hwait c hc (hreach.tail hneed)

/-- After one vertex of a clear graph has changed its marks, one round is enough exactly when what
waits behind it depends on it directly, should it halt, and when it is itself next to a halted vertex
that it reaches, should it wait. -/
theorem clear_propagate_assign_iff {m : Marks α} (hclear : m.Clear needs) {v : α}
    {waits halts : Prop} (hone : ¬(waits ∧ halts)) :
    ((m.assign v waits halts).propagate needs).Clear needs ↔
      (halts → ∀ a ∈ m.waiting, a ≠ v → TransGen needs a v → needs a v) ∧
      (waits → ∀ b ∈ m.halted, b ≠ v → TransGen needs v b →
        ∃ c ∈ m.halted, c ≠ v ∧ needs v c) := by
  rw [clear_propagate_iff]
  constructor
  · intro hnext
    constructor
    · intro hhalts a ha hne hreach
      obtain ⟨c, hc, hneed⟩ := hnext a (.inl ⟨hne, ha⟩) v (.inr ⟨rfl, hhalts⟩) hreach
      rcases hc with ⟨-, hc⟩ | ⟨rfl, -⟩
      · exact absurd (TransGen.single hneed) (hclear a ha c hc)
      · exact hneed
    · intro hwaits b hb hne hreach
      obtain ⟨c, hc, hneed⟩ := hnext v (.inr ⟨rfl, hwaits⟩) b (.inl ⟨hne, hb⟩) hreach
      rcases hc with ⟨hcv, hc⟩ | ⟨-, hhalts⟩
      · exact ⟨c, hc, hcv, hneed⟩
      · exact absurd ⟨hwaits, hhalts⟩ hone
  · intro hcond a ha b hb hreach
    obtain ⟨hhalt, hwait⟩ := hcond
    rcases ha with ⟨hav, ha⟩ | ⟨rfl, hwaits⟩
    · rcases hb with ⟨-, hb⟩ | ⟨rfl, hhalts⟩
      · exact absurd hreach (hclear a ha b hb)
      · exact ⟨b, .inr ⟨rfl, hhalts⟩, hhalt hhalts a ha hav hreach⟩
    · rcases hb with ⟨hbv, hb⟩ | ⟨-, hhalts⟩
      · obtain ⟨c, hc, hcv, hneed⟩ := hwait hwaits b hb hbv hreach
        exact ⟨c, .inl ⟨hcv, hc⟩, hneed⟩
      · exact absurd ⟨hwaits, hhalts⟩ hone

theorem exists_least {s : Set α} (hfinite : s.Finite) (hne : s.Nonempty)
    (hacyclic : ∀ a, ¬TransGen needs a a) : ∃ a ∈ s, ∀ b ∈ s, ¬needs a b := by
  have : IsTrans α (TransGen (flip needs)) := ⟨fun _ _ _ => TransGen.trans⟩
  have : Std.Irrefl (TransGen (flip needs)) := ⟨fun a ha => hacyclic a (transGen_swap.mp ha)⟩
  have : IsStrictOrder α (TransGen (flip needs)) := {}
  have hwf : s.WellFoundedOn (TransGen (flip needs)) := hfinite.wellFoundedOn
  obtain ⟨v, hv⟩ := hne
  obtain ⟨a, -, hmin⟩ := hwf.has_min Set.univ ⟨⟨v, hv⟩, trivial⟩
  refine ⟨a, a.2, fun b hb hneed => ?_⟩
  exact hmin ⟨b, hb⟩ trivial (TransGen.single hneed)

theorem Marks.Clear.exists_ready {m : Marks α} {done : Set α} (hclear : m.Clear needs)
    (hfinite : m.waiting.Finite) (hne : m.waiting.Nonempty)
    (hacyclic : ∀ a, ¬TransGen needs a a)
    (hmarked : ∀ a ∈ m.waiting, ∀ b, needs a b → b ∈ m.waiting ∨ b ∈ m.halted ∨ b ∈ done) :
    ∃ a ∈ m.waiting, ∀ b, needs a b → b ∈ done := by
  obtain ⟨a, ha, hleast⟩ := exists_least hfinite hne hacyclic
  refine ⟨a, ha, fun b hneed => ?_⟩
  rcases hmarked a ha b hneed with hb | hb | hb
  · exact absurd hneed (hleast b hb)
  · exact absurd (TransGen.single hneed) (hclear a ha b hb)
  · exact hb

end Halting

namespace Topological

open Relation

variable {α : Type*} {needs : α → α → Prop}

/-- A list of different vertices, each after all that it needs: the latest comes first. -/
inductive Ordered (needs : α → α → Prop) : List α → Prop
  | nil : Ordered needs []
  | cons {a : α} {rest : List α} (hnew : a ∉ rest) (hneeds : ∀ b, needs a b → b ∈ rest)
      (hrest : Ordered needs rest) : Ordered needs (a :: rest)

theorem Ordered.mem_of_needs {order : List α} (h : Ordered needs order) {a b : α}
    (ha : a ∈ order) (hneed : needs a b) : b ∈ order := by
  induction h with
  | nil => exact absurd ha List.not_mem_nil
  | cons hnew hneeds hrest ih =>
    rcases List.mem_cons.mp ha with rfl | ha
    · exact List.mem_cons_of_mem _ (hneeds b hneed)
    · exact List.mem_cons_of_mem _ (ih ha)

theorem Ordered.mem_of_reaches {order : List α} (h : Ordered needs order) {a b : α}
    (ha : a ∈ order) (hreach : ReflTransGen needs a b) : b ∈ order := by
  induction hreach with
  | refl => exact ha
  | tail _ hneed ih => exact h.mem_of_needs ih hneed

theorem Ordered.acyclic {order : List α} (h : Ordered needs order) {a : α} (ha : a ∈ order) :
    ¬TransGen needs a a := by
  induction h with
  | nil => exact absurd ha List.not_mem_nil
  | cons hnew hneeds hrest ih =>
    rcases List.mem_cons.mp ha with rfl | ha
    · intro hcycle
      obtain ⟨b, hneed, hback⟩ := TransGen.head'_iff.mp hcycle
      exact hnew (hrest.mem_of_reaches (hneeds b hneed) hback)
    · exact ih ha

end Topological
