import Mathlib.Data.List.Induction

namespace Machine

open Option

variable {σ α : Type*}

/-- Perform a list of actions in order; an action that is not enabled ends the run. -/
def run (step : σ → α → Option σ) : σ → List α → Option σ
  | s, [] => some s
  | s, a :: as => (step s a).bind fun t => run step t as

variable {step : σ → α → Option σ}

@[simp] theorem run_nil (s : σ) : run step s [] = some s := rfl

@[simp] theorem run_cons (s : σ) (a : α) (as : List α) :
    run step s (a :: as) = (step s a).bind fun t => run step t as := rfl

theorem run_cons_eq_some {s t : σ} {a : α} {as : List α} :
    run step s (a :: as) = some t ↔ ∃ u, step s a = some u ∧ run step u as = some t := by
  simp [bind_eq_some_iff]

theorem run_append_eq_some {s t : σ} {as bs : List α} :
    run step s (as ++ bs) = some t ↔ ∃ u, run step s as = some u ∧ run step u bs = some t := by
  induction as generalizing s with
  | nil => simp
  | cons a as ih =>
    simp only [List.cons_append, run_cons_eq_some, ih]
    constructor
    · rintro ⟨u, hu, v, hv, ht⟩
      exact ⟨v, ⟨u, hu, hv⟩, ht⟩
    · rintro ⟨v, ⟨u, hu, hv⟩, ht⟩
      exact ⟨u, hu, v, hv, ht⟩

theorem run_invariant {I : σ → Prop} (hstep : ∀ s a t, I s → step s a = some t → I t)
    {s t : σ} {as : List α} (hs : I s) (hr : run step s as = some t) : I t := by
  induction as generalizing s with
  | nil => exact (some.inj hr) ▸ hs
  | cons a as ih =>
    obtain ⟨u, hu, ht⟩ := run_cons_eq_some.mp hr
    exact ih (hstep s a u hs hu) ht

/-- Every step taken along the run satisfies `P`, a condition on the state before it and the action. -/
def Along (step : σ → α → Option σ) (P : σ → α → Prop) : σ → List α → Prop
  | _, [] => True
  | s, a :: as => P s a ∧ ∀ t, step s a = some t → Along step P t as

variable {P Q : σ → α → Prop} {R : σ → σ → Prop}

theorem Along.cons {s t : σ} {a : α} {as : List α} (ha : P s a) (hstep : step s a = some t)
    (h : Along step P t as) : Along step P s (a :: as) := by
  refine ⟨ha, fun u hu => ?_⟩
  obtain rfl : t = u := some.inj (hstep.symm.trans hu)
  exact h

theorem Along.append {s u : σ} {as bs : List α}
    (h : Along step P s (as ++ bs)) (hr : run step s as = some u) : Along step P u bs := by
  induction as generalizing s with
  | nil => simpa using (some.inj hr) ▸ h
  | cons a as ih =>
    obtain ⟨t, ht, hu⟩ := run_cons_eq_some.mp hr
    exact ih (h.2 t ht) hu

theorem Along.take {s : σ} {as bs : List α} (h : Along step P s (as ++ bs)) :
    Along step P s as := by
  induction as generalizing s with
  | nil => trivial
  | cons a as ih => exact ⟨h.1, fun t ht => ih (h.2 t ht)⟩

theorem Along.append_of {s : σ} {as bs : List α} (h : Along step P s as)
    (hrest : ∀ u, run step s as = some u → Along step P u bs) : Along step P s (as ++ bs) := by
  induction as generalizing s with
  | nil => exact hrest s rfl
  | cons a as ih =>
    refine ⟨h.1, fun t ht => ih (h.2 t ht) ?_⟩
    intro u hu
    exact hrest u (run_cons_eq_some.mpr ⟨t, ht, hu⟩)

theorem Along.of_forall {R : σ → α → σ → Prop} (h : ∀ s a t, step s a = some t → R s a t) {s : σ}
    {as : List α} : Along step (fun s a => ∀ t, step s a = some t → R s a t) s as := by
  induction as generalizing s with
  | nil => trivial
  | cons a as ih => exact ⟨h s a, fun _ _ => ih⟩

theorem Along.of_mem {R : α → Prop} {s : σ} {as : List α} (hR : ∀ a ∈ as, R a) :
    Along step (fun _ a => R a) s as := by
  induction as generalizing s with
  | nil => trivial
  | cons a as ih =>
    refine ⟨hR a List.mem_cons_self, fun t _ => ih ?_⟩
    exact fun b hb => hR b (List.mem_cons_of_mem _ hb)

theorem Along.and_mem {R : α → Prop} {s : σ} {as : List α} (hR : ∀ a ∈ as, R a)
    (h : Along step P s as) : Along step (fun s a => R a ∧ P s a) s as := by
  induction as generalizing s with
  | nil => trivial
  | cons a as ih =>
    have ha : R a := hR a List.mem_cons_self
    refine ⟨⟨ha, h.1⟩, fun t ht => ih ?_ (h.2 t ht)⟩
    exact fun b hb => hR b (List.mem_cons_of_mem _ hb)

/-- The invariant rule for runs whose steps meet a guard. -/
theorem Along.invariant {I : σ → Prop}
    (hstep : ∀ s a t, I s → P s a → step s a = some t → I t)
    {s t : σ} {as : List α} (h : Along step P s as) (hs : I s)
    (hr : run step s as = some t) : I t := by
  induction as generalizing s with
  | nil => exact (some.inj hr) ▸ hs
  | cons a as ih =>
    obtain ⟨u, hu, ht⟩ := run_cons_eq_some.mp hr
    exact ih (h.2 u hu) (hstep s a u hs h.1 hu) ht

/-- A guard that implies another on the states of an invariant implies it along every run. -/
theorem Along.imp {I : σ → Prop} (hstep : ∀ s a t, I s → P s a → step s a = some t → I t)
    (hpq : ∀ s a, I s → P s a → Q s a) {s : σ} {as : List α} (hs : I s)
    (h : Along step P s as) : Along step Q s as := by
  induction as generalizing s with
  | nil => trivial
  | cons a as ih =>
    exact ⟨hpq s a hs h.1, fun t ht => ih (hstep s a t hs h.1 ht) (h.2 t ht)⟩

/-- Two guards that agree on the states of an invariant agree along every run from it. -/
theorem Along.congr {I : σ → Prop} (hstep : ∀ s a t, I s → step s a = some t → I t)
    (hpq : ∀ s a, I s → (P s a ↔ Q s a)) {s : σ} {as : List α} (hs : I s) :
    Along step P s as ↔ Along step Q s as :=
  ⟨Along.imp (fun s a t h _ => hstep s a t h) (fun s a h => (hpq s a h).mp) hs,
    Along.imp (fun s a t h _ => hstep s a t h) (fun s a h => (hpq s a h).mpr) hs⟩

/-- In runs whose steps meet a guard `G`: a property that every step keeps exactly when it meets
another guard, and never regains, is kept by a run exactly when every step of it meets that guard. -/
theorem Along.run_iff {G : σ → α → Prop} {I A : σ → Prop}
    (hstep : ∀ s a t, I s → G s a → step s a = some t → I t)
    (hA : ∀ s a t, I s → G s a → step s a = some t → (A t ↔ A s ∧ P s a)) {s t : σ} {as : List α}
    (h : Along step G s as) (hs : I s) (hr : run step s as = some t) :
    A t ↔ A s ∧ Along step P s as := by
  induction as generalizing s with
  | nil => simp [Along, some.inj hr]
  | cons a as ih =>
    obtain ⟨u, hu, ht⟩ := run_cons_eq_some.mp hr
    have hrest : (∀ v, step s a = some v → Along step P v as) ↔ Along step P u as := by
      simp [hu]
    rw [ih (h.2 u hu) (hstep s a u hs h.1 hu) ht, hA s a u hs h.1 hu, Along, hrest, and_assoc]

/-- A property that every step keeps exactly when it meets a guard, and never regains, is kept by a
run exactly when every step of it meets the guard. -/
theorem run_iff_along {I A : σ → Prop} (hstep : ∀ s a t, I s → step s a = some t → I t)
    (hA : ∀ s a t, I s → step s a = some t → (A t ↔ A s ∧ P s a)) {s t : σ} {as : List α}
    (hs : I s) (hr : run step s as = some t) : A t ↔ A s ∧ Along step P s as := by
  have hany : Along step (fun _ _ => True) s as := Along.of_mem fun _ _ => trivial
  exact hany.run_iff (fun s a t h _ => hstep s a t h) (fun s a t h _ => hA s a t h) hs hr

/-- A property that holds at the start holds in every state of a run exactly when each step leads to
one where it holds. -/
theorem always_iff_along {A : σ → Prop} {s : σ} {as : List α} (hs : A s) :
    (∀ pre post u, as = pre ++ post → run step s pre = some u → A u) ↔
      Along step (fun s a => ∀ t, step s a = some t → A t) s as := by
  constructor
  · intro h
    induction as generalizing s with
    | nil => trivial
    | cons a as ih =>
      have hfirst : ∀ t, step s a = some t → A t := by
        intro t ht
        exact h [a] as t rfl (by simp [ht])
      refine ⟨hfirst, fun t ht => ih (hfirst t ht) ?_⟩
      intro pre post u has hu
      apply h (a :: pre) post u
      · rw [has, List.cons_append]
      · exact run_cons_eq_some.mpr ⟨t, ht, hu⟩
  · intro h pre post u has hu
    rw [has] at h
    exact h.take.invariant (fun s a t _ ha ht => ha t ht) hs hu

/-- `R` relates every state of the run to every later one. -/
def Throughout (step : σ → α → Option σ) (R : σ → σ → Prop) (s : σ) (as : List α) : Prop :=
  ∀ pre mid post u v, as = pre ++ mid ++ post →
    run step s pre = some u → run step u mid = some v → R u v

theorem Along.relates (hrefl : ∀ s, R s s) (htrans : ∀ s t u, R s t → R t u → R s u)
    {s v : σ} {as : List α} (h : Along step (fun s a => ∀ t, step s a = some t → R s t) s as)
    (hr : run step s as = some v) : R s v := by
  induction as generalizing s with
  | nil => exact (some.inj hr) ▸ hrefl s
  | cons a as ih =>
    obtain ⟨t, ht, hv⟩ := run_cons_eq_some.mp hr
    exact htrans s t v (h.1 t ht) (ih (h.2 t ht) hv)

/-- A preorder holds throughout a run exactly when each single step keeps it. -/
theorem throughout_iff_along (hrefl : ∀ s, R s s)
    (htrans : ∀ s t u, R s t → R t u → R s u) (s : σ) (as : List α) :
    Throughout step R s as ↔ Along step (fun s a => ∀ t, step s a = some t → R s t) s as := by
  constructor
  · intro h
    induction as generalizing s with
    | nil => trivial
    | cons a as ih =>
      refine ⟨fun t ht => h [] [a] as s t rfl rfl (by simp [ht]), fun t ht => ih t ?_⟩
      intro pre mid post u v he hu hv
      refine h (a :: pre) mid post u v (by simp [he]) ?_ hv
      exact run_cons_eq_some.mpr ⟨t, ht, hu⟩
  · rintro h pre mid post u v rfl hu hv
    rw [List.append_assoc] at h
    exact (h.append hu).take.relates hrefl htrans hv

/-- A property that fails at the start and holds at the end has a last step that brings it about,
after which it holds to the end. -/
theorem exists_last_crossing {A : σ → Prop} {s t : σ} {as : List α}
    (hr : run step s as = some t) (hs : ¬A s) (ht : A t) :
    ∃ pre a post u v, as = pre ++ a :: post ∧ run step s pre = some u ∧
      step u a = some v ∧ run step v post = some t ∧ ¬A u ∧
      ∀ mid rest w, post = mid ++ rest → run step v mid = some w → A w := by
  induction as using List.reverseRecOn generalizing t with
  | nil => exact absurd ((some.inj hr) ▸ ht) hs
  | append_singleton bs b ih =>
    obtain ⟨r, hbs, hb⟩ := run_append_eq_some.mp hr
    have hstep : step r b = some t := by simpa [run_cons_eq_some] using hb
    by_cases hA : A r
    · obtain ⟨pre, a, post, u, v, he, hu, hv, hpost, hnu, hall⟩ := ih hbs hA
      refine ⟨pre, a, post ++ [b], u, v, by simp [he], hu, hv, ?_, hnu, ?_⟩
      · exact run_append_eq_some.mpr ⟨r, hpost, hb⟩
      · intro mid rest w hmid hw
        rcases List.eq_nil_or_concat rest with rfl | ⟨rest', c, rfl⟩
        · have hrun : run step v (post ++ [b]) = some t := run_append_eq_some.mpr ⟨r, hpost, hb⟩
          rw [List.append_nil] at hmid
          rw [hmid, hw] at hrun
          exact (some.inj hrun) ▸ ht
        · rw [List.concat_eq_append, ← List.append_assoc] at hmid
          exact hall mid rest' w (List.append_inj' hmid rfl).1 hw
    · refine ⟨bs, b, [], r, t, rfl, hbs, hstep, rfl, hA, ?_⟩
      intro mid rest w hmid hw
      obtain ⟨rfl, rfl⟩ := List.append_eq_nil_iff.mp hmid.symm
      exact (some.inj hw) ▸ ht

/-- What relates two states of `A` one step apart relates the ends of a run that stays in `A`. -/
theorem run_relates {A : σ → Prop} (hrefl : ∀ s, R s s)
    (htrans : ∀ s t u, R s t → R t u → R s u)
    (hstep : ∀ s a t, A s → A t → step s a = some t → R s t) {s t : σ} {as : List α}
    (hr : run step s as = some t)
    (hall : ∀ mid rest w, as = mid ++ rest → run step s mid = some w → A w) : R s t := by
  induction as generalizing s with
  | nil => exact (some.inj hr) ▸ hrefl s
  | cons a as ih =>
    obtain ⟨u, hu, ht⟩ := run_cons_eq_some.mp hr
    have hs : A s := hall [] (a :: as) s (by simp) (run_nil s)
    have hrest : ∀ mid rest w, as = mid ++ rest → run step u mid = some w → A w := by
      intro mid rest w hmid hw
      apply hall (a :: mid) rest w
      · rw [hmid, List.cons_append]
      · exact run_cons_eq_some.mpr ⟨u, hu, hw⟩
    have hA : A u := hrest [] as u (by simp) (run_nil u)
    exact htrans s u t (hstep s a u hs hA hu) (ih ht hrest)

/-- The sum of a weight over the steps of a run. -/
def tally (step : σ → α → Option σ) (w : σ → α → Nat) : σ → List α → Nat
  | _, [] => 0
  | s, a :: as => w s a + ((step s a).map fun t => tally step w t as).getD 0

theorem tally_cons {w : σ → α → Nat} {s t : σ} {a : α} {as : List α} (h : step s a = some t) :
    tally step w s (a :: as) = w s a + tally step w t as := by
  simp [tally, h]

/-- Two measures that each step keeps level, once its weights are added crosswise, stay level over a
run with the tallies of the weights. -/
theorem Along.balance {I : σ → Prop} {f g : σ → Nat} {v w : σ → α → Nat}
    (hI : ∀ s a t, I s → P s a → step s a = some t → I t)
    (hstep : ∀ s a t, I s → P s a → step s a = some t → f t + v s a + g s = g t + w s a + f s)
    {s t : σ} {as : List α} (h : Along step P s as) (hs : I s) (hr : run step s as = some t) :
    f t + tally step v s as + g s = g t + tally step w s as + f s := by
  induction as generalizing s with
  | nil =>
    have heq : s = t := some.inj hr
    simp only [tally, heq]
    omega
  | cons a as ih =>
    obtain ⟨u, hu, ht⟩ := run_cons_eq_some.mp hr
    have hrest := ih (h.2 u hu) (hI s a u hs h.1 hu) ht
    have hfirst := hstep s a u hs h.1 hu
    rw [tally_cons hu, tally_cons hu]
    omega

/-- A weight that no step has once it is spent is zero over the run that follows. -/
theorem Along.tally_eq_zero {I : σ → Prop} {w : σ → α → Nat}
    (hI : ∀ s a t, I s → P s a → step s a = some t → I t)
    (hzero : ∀ s a, I s → P s a → w s a = 0) {s : σ} {as : List α} (h : Along step P s as)
    (hs : I s) : tally step w s as = 0 := by
  induction as generalizing s with
  | nil => rfl
  | cons a as ih =>
    have hfirst := hzero s a hs h.1
    cases hstep : step s a with
    | none => simp [tally, hstep, hfirst]
    | some t =>
      rw [tally_cons hstep, hfirst, ih (h.2 t hstep) (hI s a t hs h.1 hstep)]

/-- What is counted at most once a step, and spends itself when it is, is counted once a run. -/
theorem Along.tally_le_one {I spent : σ → Prop} {w : σ → α → Nat}
    (hI : ∀ s a t, I s → P s a → step s a = some t → I t)
    (hspent : ∀ s a t, I s ∧ spent s → P s a → step s a = some t → I t ∧ spent t)
    (hzero : ∀ s a, I s ∧ spent s → P s a → w s a = 0) (hone : ∀ s a, w s a ≤ 1)
    (hspend : ∀ s a t, I s → P s a → step s a = some t → w s a ≠ 0 → spent t)
    {s : σ} {as : List α} (h : Along step P s as) (hs : I s) : tally step w s as ≤ 1 := by
  induction as generalizing s with
  | nil => exact Nat.zero_le 1
  | cons a as ih =>
    have hfirst := hone s a
    cases hstep : step s a with
    | none =>
      simp only [tally, hstep, map_none, getD_none]
      omega
    | some t =>
      have ht := hI s a t hs h.1 hstep
      rw [tally_cons hstep]
      by_cases hw : w s a = 0
      · have hrest := ih (h.2 t hstep) ht
        omega
      · have hrest := (h.2 t hstep).tally_eq_zero hspent hzero
          ⟨ht, hspend s a t hs h.1 hstep hw⟩
        omega

/-- Weights that agree along a run have one tally. -/
theorem Along.tally_congr {I : σ → Prop} {v w : σ → α → Nat}
    (hI : ∀ s a t, I s → P s a → step s a = some t → I t)
    (heq : ∀ s a, I s → P s a → v s a = w s a) {s : σ} {as : List α} (h : Along step P s as)
    (hs : I s) : tally step v s as = tally step w s as := by
  induction as generalizing s with
  | nil => rfl
  | cons a as ih =>
    have hfirst := heq s a hs h.1
    cases hstep : step s a with
    | none => simp [tally, hstep, hfirst]
    | some t =>
      rw [tally_cons hstep, tally_cons hstep, hfirst, ih (h.2 t hstep) (hI s a t hs h.1 hstep)]

end Machine
