import FlowDeck.Execution.PlanCompletion
import FlowDeck.Execution.Recovery

namespace Resumption

open ExecutionContracts PlanRepository ExecutionScheduler RunReady WorktreeExecutor
open Waves WaveRun PlanCompletion Recovery

section Recovered

variable (integrates : Bool) (facts : Facts) (plan : ExecutionPlan)

/-- What the first waves after recovery dispatch, as the plan before recovery tells it. -/
abbrev ResumeReached : Nat → String → Prop :=
  Wavefront.Reached (fun id d => d ∈ plan.depsOf id) (Planned plan) (Met plan)
    fun id => passes integrates facts plan id = true

abbrev ResumeCut : String → Prop :=
  Wavefront.Cut (fun id d => d ∈ plan.depsOf id) (Planned plan) fun id =>
    unavailable plan id = true ∨
      ResumeReached integrates facts plan 100 id ∧ passes integrates facts plan id = false

/-- Some workstream that recovery leaves ready is dispatched by the run after, or loses a
dependency to it. -/
def Disturbed : Prop :=
  ∃ id, Returning plan id ∧
    ((∀ d ∈ plan.depsOf id, Met plan d ∨
        ResumeReached integrates facts plan 99 d ∧ passes integrates facts plan d = true) ∨
      (∃ first, ResumeReached integrates facts plan 1 first) ∧
        ∃ d ∈ plan.depsOf id, ResumeCut integrates facts plan d)

variable {integrates facts plan}

theorem passes_recovered (id : String) :
    passes integrates facts (recovered plan) id = passes integrates facts plan id := rfl

theorem reachedBy_recovered :
    ReachedBy integrates facts (recovered plan) = ResumeReached integrates facts plan := by
  have hdeps : (fun id d => d ∈ (recovered plan).depsOf id) = fun id d => d ∈ plan.depsOf id := by
    funext id d
    rw [depsOf_recovered]
  have hplanned : Planned (recovered plan) = Planned plan := by
    funext id
    exact propext planned_recovered
  have hmet : (fun d => satisfied (recovered plan) d = true) = Met plan := by
    funext d
    exact propext satisfied_recovered
  unfold ReachedBy ResumeReached
  rw [hdeps, hplanned, hmet]
  rfl

theorem cutBy_recovered :
    CutBy integrates facts (recovered plan) 100 = ResumeCut integrates facts plan := by
  have hdeps : (fun id d => d ∈ (recovered plan).depsOf id) = fun id d => d ∈ plan.depsOf id := by
    funext id d
    rw [depsOf_recovered]
  have hplanned : Planned (recovered plan) = Planned plan := by
    funext id
    exact propext planned_recovered
  have hbroken : Broken (recovered plan) (ReachedBy integrates facts (recovered plan) 100)
      (Fails integrates facts (recovered plan)) = fun id => unavailable plan id = true ∨
        ResumeReached integrates facts plan 100 id ∧ passes integrates facts plan id = false := by
    funext id
    unfold Broken Fails
    rw [reachedBy_recovered, passes_recovered, unavailable_recovered]
  unfold CutBy CutOff ResumeCut
  rw [hdeps, hplanned, hbroken]

theorem raises_recovered_iff :
    Raises integrates facts (recovered plan) ↔ Disturbed integrates facts plan := by
  unfold Raises StartHit LossHit Disturbed
  simp only [ready_recovered, depsOf_recovered, satisfied_recovered, reachedBy_recovered,
    cutBy_recovered, passes_recovered]
  constructor
  · rintro (⟨id, hready, hdeps⟩ | ⟨hfirst, id, hready, hlost⟩)
    · exact ⟨id, hready, Or.inl hdeps⟩
    · exact ⟨id, hready, Or.inr ⟨hfirst, hlost⟩⟩
  · rintro ⟨id, hready, hdeps | ⟨hfirst, hlost⟩⟩
    · exact Or.inl ⟨id, hready, hdeps⟩
    · exact Or.inr ⟨hfirst, id, hready, hlost⟩

end Recovered

/-- A plan that a crash has left resumes in `runReady` exactly when every workstream that recovery
leaves ready still waits for a dependency, none of which the run loses; and in `executePlan`
exactly when none of them is disturbed. -/
theorem recovery_resumes_iff (notAfter : String → String → Bool) (integrates : Bool)
    (facts : Facts) (plan : ExecutionPlan) :
    (Resumes notAfter facts.execute plan ↔
      ∀ id, Returning plan id → (∃ d ∈ plan.depsOf id, ¬Met plan d) ∧
        ∀ d ∈ plan.depsOf id, ¬Doomed facts.execute plan d) ∧
    ((∃ total plan', (recoverAfterRestart >>= fun _ =>
        executePlan notAfter integrates facts) plan = .ok total plan') ↔
      ¬Disturbed integrates facts plan) := by
  refine ⟨resumes_iff notAfter facts.execute plan, ?_⟩
  rw [Fallible.bind_ok (recoverAfterRestart_eq plan), executePlan_goes_iff, raises_recovered_iff]

/-- What a crash leaves of a plan whose only workstream was executing. -/
def interrupted : ExecutionPlan :=
  Fallible.after ((beginRun CodeUnits.notAfter >>= fun ws => ws.forM startOne) lone)

/-- A workstream that was executing when the orchestrator crashed is never dispatched again. -/
theorem interrupted_stuck :
    interrupted.statusOf "w" = some .running ∧
      ¬Resumes CodeUnits.notAfter (fun _ => .succeeded) interrupted ∧
      (match (recoverAfterRestart >>= fun _ =>
          runReady CodeUnits.notAfter fun _ => .succeeded) interrupted with
        | .ok _ _ => none
        | .error e _ => some e) = some "INVALID_WORKSTREAM_TRANSITION:ready->ready" := by
  refine ⟨by decide +kernel, ?_, by decide +kernel⟩
  intro hresumes
  have hrunning : interrupted.statusOf "w" = some .running := by decide +kernel
  have hdeps : interrupted.depsOf "w" = [] := by decide +kernel
  obtain ⟨⟨d, hd, _⟩, _⟩ := (resumes_iff _ _ _).mp hresumes "w" (Or.inr hrunning)
  rw [hdeps] at hd
  exact List.not_mem_nil hd

end Resumption
