import FlowDeck.Execution.AssignmentIdentity

namespace AssignmentMapping

open AssignmentBinding AssignmentIdentity

/-- The mapping a call has so far, or has returned. -/
def mapping : Caller → String → Option String
  | .running _ _ _ _ map => map
  | .finished map => map
  | .gone => fun _ => none

/-- The workstreams that a call has yet to map. -/
def pending : Caller → List ExecutionWorkstream
  | .running _ rest current _ _ => current :: rest
  | _ => []

/-- A call maps the workstreams of its plan, to what is bound or has a row. -/
structure Mapped (plan : ExecutionPlan) (s : BindingState) (x : Caller) : Prop where
  within : ∀ w ∈ pending x, w ∈ plan.workstreams
  named : ∀ w id, mapping x w = some id → ∃ v ∈ plan.workstreams, v.workstreamId = w
  entries : ∀ w id, mapping x w = some id →
    s.bound w = some id ∨ ∃ r ∈ s.assignments.rows, r.id = id ∧ r.workstreamId = w
  covered : x ≠ .gone → ∀ w ∈ plan.workstreams,
    w ∈ pending x ∨ ∃ id, mapping x w.workstreamId = some id

theorem mapping_proceed (correlationId : String) (map : String → Option String)
    (rest : List ExecutionWorkstream) : mapping (proceed correlationId map rest) = map := by
  cases rest <;> rfl

theorem pending_proceed (correlationId : String) (map : String → Option String)
    (rest : List ExecutionWorkstream) : pending (proceed correlationId map rest) = rest := by
  cases rest <;> rfl

section Mapping

variable {plan : ExecutionPlan} {s t : BindingState} {correlationId assignmentId : String}
  {rest : List ExecutionWorkstream} {current : ExecutionWorkstream} {phase phase' : Phase}
  {map : String → Option String} {x : Caller}

theorem Mapped.mono (h : Mapped plan s x)
    (hbound : ∀ w id, s.bound w = some id → t.bound w = some id)
    (hrows : ∀ r ∈ s.assignments.rows, r ∈ t.assignments.rows) : Mapped plan t x := by
  refine ⟨h.within, h.named, ?_, h.covered⟩
  intro w id hmap
  rcases h.entries w id hmap with hold | ⟨r, hr, hrow⟩
  · exact Or.inl (hbound w id hold)
  · exact Or.inr ⟨r, hrows r hr, hrow⟩

theorem mapped_gone : Mapped plan s .gone := by
  constructor
  · intro w hw
    exact absurd hw List.not_mem_nil
  · intro w id hmap
    cases hmap
  · intro w id hmap
    cases hmap
  · intro hne
    exact absurd rfl hne

theorem mapped_start : Mapped plan s (proceed correlationId (fun _ => none) plan.workstreams) := by
  constructor
  · intro w hw
    rw [pending_proceed] at hw
    exact hw
  · intro w id hmap
    rw [mapping_proceed] at hmap
    cases hmap
  · intro w id hmap
    rw [mapping_proceed] at hmap
    cases hmap
  · intro _ w hw
    rw [pending_proceed]
    exact Or.inl hw

theorem Mapped.moved (h : Mapped plan s (.running correlationId rest current phase map)) :
    Mapped plan s (.running correlationId rest current phase' map) :=
  ⟨h.within, h.named, h.entries, fun _ => h.covered Caller.noConfusion⟩

theorem Mapped.proceed (h : Mapped plan s (.running correlationId rest current phase map))
    (hentry : s.bound current.workstreamId = some assignmentId ∨
      ∃ r ∈ s.assignments.rows, r.id = assignmentId ∧ r.workstreamId = current.workstreamId) :
    Mapped plan s (proceed correlationId
      (Function.update map current.workstreamId (some assignmentId)) rest) := by
  have hcurrent : current ∈ plan.workstreams := h.within current List.mem_cons_self
  constructor
  · intro w hw
    rw [pending_proceed] at hw
    exact h.within w (List.mem_cons_of_mem _ hw)
  · intro w id hmap
    rw [mapping_proceed, Function.update_apply] at hmap
    split_ifs at hmap with hw
    · exact ⟨current, hcurrent, hw.symm⟩
    · exact h.named w id hmap
  · intro w id hmap
    rw [mapping_proceed, Function.update_apply] at hmap
    split_ifs at hmap with hw
    · rw [hw, ← Option.some.inj hmap]
      exact hentry
    · exact h.entries w id hmap
  · intro _ w hw
    rw [pending_proceed, mapping_proceed, Function.update_apply]
    split_ifs with hsame
    · exact Or.inr ⟨assignmentId, rfl⟩
    · rcases h.covered Caller.noConfusion w hw with hpending | hmapped
      · rcases List.mem_cons.mp hpending with heq | hrest
        · exact absurd (congrArg ExecutionWorkstream.workstreamId heq) hsame
        · exact Or.inl hrest
      · exact Or.inr hmapped

theorem Mapped.rebound (h : Mapped plan s (.running correlationId rest current phase map)) :
    Mapped plan s (rebound s correlationId rest current map) := by
  unfold AssignmentBinding.rebound
  split
  · rename_i assignmentId hbound
    exact h.proceed (Or.inl hbound)
  · exact mapped_gone

end Mapping

def AllMapped (plan : ExecutionPlan) (s : BindingState) : Prop :=
  ∀ c x, s.calls c = some x → Mapped plan s x

section AllMapped

variable {plan : ExecutionPlan} {s t : BindingState}

theorem allMapped_initial : AllMapped plan initial := by
  intro c x hcall
  cases hcall

/-- A step of one call leaves the others as they were. -/
theorem allMapped_set {c : Nat} {x : Caller} (h : AllMapped plan s) (hx : Mapped plan s x)
    (hcalls : t.calls = Function.update s.calls c (some x))
    (hgrows : (∀ w id, s.bound w = some id → t.bound w = some id) ∧
      ∀ r ∈ s.assignments.rows, r ∈ t.assignments.rows) : AllMapped plan t := by
  intro c' x' hcall
  rw [hcalls, Function.update_apply] at hcall
  split_ifs at hcall with hsame
  · rw [← Option.some.inj hcall]
    exact hx.mono hgrows.1 hgrows.2
  · exact (h c' x' hcall).mono hgrows.1 hgrows.2

theorem step_allMapped {a : Action} (hsane : Sane s) (h : AllMapped plan s)
    (hstep : step plan s a = some t) : AllMapped plan t := by
  have hgrows := step_grows hstep
  cases step_effect hstep with
  | called _ ht => exact allMapped_set h mapped_start (by rw [ht]; rfl) hgrows
  | found hcall hbound ht =>
    exact allMapped_set h ((h _ _ hcall).proceed (Or.inl hbound)) (by rw [ht]; rfl) hgrows
  | drew hcall _ _ ht => exact allMapped_set h (h _ _ hcall).moved (by rw [ht]; rfl) hgrows
  | reserved hcall ht => exact allMapped_set h (h _ _ hcall).moved (by rw [ht]; rfl) hgrows
  | inserted hcall _ ht => exact allMapped_set h (h _ _ hcall).moved (by rw [ht]; rfl) hgrows
  | refused hcall ht => exact allMapped_set h (h _ _ hcall).rebound (by rw [ht]; rfl) hgrows
  | published hcall ht =>
    have hrow := hsane.created _ _ _ (at_of_call hcall)
    exact allMapped_set h ((h _ _ hcall).proceed (Or.inr hrow)) (by rw [ht]; rfl) hgrows
  | unpublished hcall ht =>
    exact allMapped_set h (h _ _ hcall).rebound (by rw [ht]; rfl) hgrows
  | crashed _ ht => exact allMapped_set h mapped_gone (by rw [ht]; rfl) hgrows

end AllMapped

end AssignmentMapping
