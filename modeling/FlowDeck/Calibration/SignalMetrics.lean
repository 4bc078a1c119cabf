import FlowDeck.Calibration.ShadowEvaluation

/-! What an evaluation observes and what its metrics count. -/

namespace SignalMetrics

open CalibrationHistory Checked ImpactedPackages PlanExecutor PolicyStore ReferenceSet RunArtifact
open List
  RuntimeIngest ShadowEvaluation

/-! ### What one check adds -/

section Step

variable (k : Calibrator) (c : Checkout) (run : VerificationRun) (policy : CalibrationPolicy)
  (w : ShadowWorld)

/-- The invocation that a check outside of the plan comes to in time. -/
def reached? (i : Nat) (check : PlannedCheck) : Option ConcreteInvocation :=
  if (candidateResult? run check.checkId).isSome || remainingMs policy w i = 0 then none
  else (resolve c i check).toOption

/-- A check that is observed without a new execution. -/
def Evaluation.observe (s : Evaluation) (observation : ShadowCheckObservation) : Evaluation :=
  { s with shadowChecks := s.shadowChecks ++ [observation] }

/-- The executions of an evaluation with one more process. -/
def Evaluation.cache (s : Evaluation) (inv : ConcreteInvocation) (cached : CachedShadowExecution)
    (executions : List ShadowExecutionObservation) : Evaluation :=
  { s with
    shadowExecutions := s.shadowExecutions ++ executions
    invocationCache := s.invocationCache ++ [(inv.cacheKey, cached)] }

/-- What the check at a place makes of an evaluation. -/
inductive Observes (i : Nat) (check : PlannedCheck) (s : Evaluation) : Evaluation → Prop
  | known {result : CheckExecutionResult} (hresult : candidateResult? run check.checkId = some result)
      (hknown : ∀ id, candidateExecutionId? result = some id → id ∈ s.candidateExecutionIds) :
      Observes i check s (Evaluation.observe s (candidateObservation k check result))
  | source {result : CheckExecutionResult} {id cwd : String}
      (hresult : candidateResult? run check.checkId = some result)
      (hid : candidateExecutionId? result = some id) (hnew : id ∉ s.candidateExecutionIds) :
      Observes i check s {
        Evaluation.observe s (candidateObservation k check result) with
        shadowExecutions := s.shadowExecutions ++ [candidateExecution k check result id cwd]
        candidateExecutionIds := s.candidateExecutionIds ++ [id] }
  | idle {status : CheckExecutionStatus} {reason : String}
      (hresult : candidateResult? run check.checkId = none)
      (hreached : reached? c run policy w i check = none) :
      Observes i check s (Evaluation.observe s (notObserved check status reason))
  | reused {inv : ConcreteInvocation} {cached : CachedShadowExecution}
      (hresult : candidateResult? run check.checkId = none)
      (hreached : reached? c run policy w i check = some inv)
      (hcached : s.invocationCache.lookup inv.cacheKey = some cached) :
      Observes i check s (observeShadow k check cached s)
  | launched {inv : ConcreteInvocation} {cached : CachedShadowExecution}
      {executions : List ShadowExecutionObservation}
      (hresult : candidateResult? run check.checkId = none)
      (hreached : reached? c run policy w i check = some inv)
      (hnew : s.invocationCache.lookup inv.cacheKey = none)
      (hexecutions : executions.map (fun e => (e.origin, e.durationMs)) =
        if isPhysicalProcessExecution (outcomeAt k policy w i inv).status then
          [(.shadowReference, (outcomeAt k policy w i inv).durationMs)]
        else []) :
      Observes i check s (observeShadow k check cached (Evaluation.cache s inv cached executions))

variable {k c run policy w} {i : Nat} {check : PlannedCheck} {s s' : Evaluation}

variable {result : CheckExecutionResult}

theorem observeCandidate_eq_ok (hresult : candidateResult? run check.checkId = some result)
    (h : observeCandidate k c check result s = .ok s') :
    Observes k c run policy w i check s s' := by
  unfold observeCandidate at h
  cases hid : candidateExecutionId? result with
  | none =>
    rw [hid] at h
    obtain rfl := pure_eq_ok.mp h
    apply Observes.known hresult
    intro id hsome
    rw [hid] at hsome
    cases hsome
  | some id =>
    simp only [hid] at h
    by_cases hmem : id ∈ s.candidateExecutionIds
    · rw [if_pos hmem] at h
      obtain rfl := pure_eq_ok.mp h
      apply Observes.known hresult
      intro other hsome
      rw [hid] at hsome
      rw [← Option.some.inj hsome]
      exact hmem
    · rw [if_neg hmem] at h
      obtain ⟨cwd, -, hdone⟩ := bind_eq_ok.mp h
      obtain rfl := pure_eq_ok.mp hdone
      exact Observes.source hresult hid hmem

theorem launch_eq_ok {inv : ConcreteInvocation} {cached : CachedShadowExecution}
    (hresult : candidateResult? run check.checkId = none)
    (hreached : reached? c run policy w i check = some inv)
    (h : launch k c policy w i check inv s = .ok (cached, s')) :
    Observes k c run policy w i check s (observeShadow k check cached s') := by
  unfold launch at h
  cases hlookup : s.invocationCache.lookup inv.cacheKey with
  | some existing =>
    rw [hlookup] at h
    obtain ⟨rfl, rfl⟩ := Prod.mk.inj (pure_eq_ok.mp h)
    exact Observes.reused hresult hreached hlookup
  | none =>
    simp only [hlookup] at h
    by_cases hphysical : isPhysicalProcessExecution (outcomeAt k policy w i inv).status = true
    · rw [if_pos hphysical] at h
      obtain ⟨cwd, -, hdone⟩ := bind_eq_ok.mp h
      obtain ⟨rfl, rfl⟩ := Prod.mk.inj (pure_eq_ok.mp hdone)
      apply Observes.launched hresult hreached hlookup
      rw [if_pos hphysical]
      rfl
    · rw [if_neg hphysical] at h
      obtain ⟨rfl, rfl⟩ := Prod.mk.inj (pure_eq_ok.mp h)
      have hnone : Observes k c run policy w i check s (observeShadow k check
          ⟨outcomeAt k policy w i inv, none⟩
          (Evaluation.cache s inv ⟨outcomeAt k policy w i inv, none⟩ [])) := by
        apply Observes.launched hresult hreached hlookup
        rw [if_neg hphysical]
        rfl
      rw [Evaluation.cache, append_nil] at hnone
      exact hnone

theorem evaluateCheck_eq_ok (h : evaluateCheck k c run policy w i check s = .ok s') :
    Observes k c run policy w i check s s' := by
  unfold evaluateCheck at h
  cases hresult : candidateResult? run check.checkId with
  | some result =>
    rw [hresult] at h
    exact observeCandidate_eq_ok hresult h
  | none =>
    simp only [hresult] at h
    by_cases htime : remainingMs policy w i = 0
    · rw [if_pos htime] at h
      obtain rfl := pure_eq_ok.mp h
      apply Observes.idle hresult
      simp [reached?, htime]
    · rw [if_neg htime] at h
      cases hresolve : resolve c i check with
      | error reason =>
        rw [hresolve] at h
        obtain rfl := pure_eq_ok.mp h
        apply Observes.idle hresult
        simp [reached?, hresolve, Except.toOption]
      | ok inv =>
        rw [hresolve] at h
        obtain ⟨⟨cached, next⟩, hlaunch, hdone⟩ := bind_eq_ok.mp h
        obtain rfl := pure_eq_ok.mp hdone
        apply launch_eq_ok hresult ?_ hlaunch
        simp [reached?, hresult, htime, hresolve, Except.toOption]

/-- The class of an observation says whether the plan selected the check, and whether it was missed. -/
structure Classed (observation : ShadowCheckObservation) : Prop where
  selected : observation.signalClass = .selectedPass ∨ observation.signalClass = .selectedSignal →
    observation.candidateSelected = true
  unselected : observation.signalClass = .unselectedPass ∨
    observation.signalClass = .observedShadowMiss →
      observation.candidateSelected = false ∧ observation.hasPhysicalExecution = true
  missed : observation.isObservedShadowMiss = true ↔ observation.signalClass = .observedShadowMiss

theorem candidateSignalClass_selected (status : CheckExecutionStatus) :
    candidateSignalClass status ≠ .unselectedPass ∧
      candidateSignalClass status ≠ .observedShadowMiss := by
  cases status <;> simp [candidateSignalClass]

theorem shadowSignalClass_unselected (status : CheckExecutionStatus) (physical : Bool) :
    shadowSignalClass status physical ≠ .selectedPass ∧
      shadowSignalClass status physical ≠ .selectedSignal ∧
      (shadowSignalClass status physical = .unselectedPass ∨
        shadowSignalClass status physical = .observedShadowMiss → physical = true) := by
  cases status <;> cases physical <;> simp [shadowSignalClass]

theorem classed_candidateObservation (check : PlannedCheck) (result : CheckExecutionResult) :
    Classed (candidateObservation k check result) := by
  obtain ⟨hpass, hmiss⟩ := candidateSignalClass_selected result.status
  refine ⟨fun _ => rfl, ?_, iff_of_false Bool.false_ne_true hmiss⟩
  intro h
  exact absurd h (not_or.mpr ⟨hpass, hmiss⟩)

theorem classed_notObserved (check : PlannedCheck) (status : CheckExecutionStatus) (reason : String) :
    Classed (notObserved check status reason) := by
  refine ⟨?_, ?_, ?_⟩ <;> simp [notObserved]

theorem classed_shadowObservation (check : PlannedCheck) (cached : CachedShadowExecution)
    (reused : Bool) : Classed (shadowObservation k check cached reused) := by
  obtain ⟨hpass, hsignal, hphysical⟩ := shadowSignalClass_unselected cached.outcome.status
    (isPhysicalProcessExecution cached.outcome.status)
  refine ⟨?_, fun h => ⟨rfl, hphysical h⟩, decide_eq_true_iff⟩
  intro h
  exact absurd h (not_or.mpr ⟨hpass, hsignal⟩)

theorem Observes.observation (h : Observes k c run policy w i check s s') :
    ∃ observation, s'.shadowChecks = s.shadowChecks ++ [observation] ∧
      observation.checkId = check.checkId ∧ Classed observation := by
  cases h with
  | known hresult hknown => exact ⟨_, rfl, rfl, classed_candidateObservation check _⟩
  | source hresult hid hnew => exact ⟨_, rfl, rfl, classed_candidateObservation check _⟩
  | idle hresult hreached => exact ⟨_, rfl, rfl, classed_notObserved check _ _⟩
  | reused hresult hreached hcached => exact ⟨_, rfl, rfl, classed_shadowObservation check _ _⟩
  | launched hresult hreached hnew hexecutions =>
    exact ⟨_, rfl, rfl, classed_shadowObservation check _ _⟩

theorem reached?_of_result (h : candidateResult? run check.checkId = some result) :
    reached? c run policy w i check = none := by
  simp [reached?, h]

theorem Observes.cached (h : Observes k c run policy w i check s s') (key : InvocationKey) :
    (s'.invocationCache.lookup key).isSome ↔ (s.invocationCache.lookup key).isSome ∨
      ∃ inv, reached? c run policy w i check = some inv ∧ inv.cacheKey = key := by
  cases h with
  | known hresult hknown => simp [Evaluation.observe, reached?_of_result hresult]
  | source hresult hid hnew => simp [Evaluation.observe, reached?_of_result hresult]
  | idle hresult hreached => simp [Evaluation.observe, hreached]
  | reused hresult hreached hcached =>
    simp only [observeShadow, hreached, Option.some.injEq]
    constructor
    · exact Or.inl
    · intro h
      cases h with
      | inl hsome => exact hsome
      | inr hinv =>
        obtain ⟨other, rfl, rfl⟩ := hinv
        rw [hcached]
        rfl
  | launched hresult hreached hnew hexecutions =>
    rename_i inv cached executions
    simp only [observeShadow, Evaluation.cache, hreached, Option.some.injEq, lookup_append,
      Option.isSome_or, Bool.or_eq_true]
    apply or_congr_right
    by_cases hkey : key = inv.cacheKey
    · simp [hkey]
    · simp [lookup_cons, beq_eq_false_iff_ne.mpr hkey, Ne.symm hkey]

def physicalDuration? (k : Calibrator) (policy : CalibrationPolicy) (w : ShadowWorld)
    (launch : Nat × ConcreteInvocation) : Option Nat :=
  let outcome := outcomeAt k policy w launch.1 launch.2
  if isPhysicalProcessExecution outcome.status then some outcome.durationMs else none

def durationsOf (origin : CalibrationExecutionOrigin) (s : Evaluation) : List Nat :=
  (s.shadowExecutions.filter fun execution => execution.origin = origin).map (·.durationMs)

theorem Observes.shadowDurations (h : Observes k c run policy w i check s s') :
    durationsOf .shadowReference s' = durationsOf .shadowReference s ++
      ((reached? c run policy w i check).bind fun inv =>
        if (s.invocationCache.lookup inv.cacheKey).isSome then none
        else physicalDuration? k policy w (i, inv)).toList := by
  cases h with
  | known hresult hknown => simp [durationsOf, Evaluation.observe, reached?_of_result hresult]
  | source hresult hid hnew =>
    simp [durationsOf, reached?_of_result hresult, candidateExecution]
  | idle hresult hreached => simp [durationsOf, Evaluation.observe, hreached]
  | reused hresult hreached hcached => simp [durationsOf, observeShadow, hreached, hcached]
  | launched hresult hreached hnew hexecutions =>
    rename_i inv cached executions
    have hadded : (executions.filter fun execution => execution.origin = .shadowReference).map
        (·.durationMs) = (physicalDuration? k policy w (i, inv)).toList := by
      split_ifs at hexecutions with hphysical
      · obtain ⟨row, hrows, hrow⟩ := map_eq_singleton_iff.mp hexecutions
        obtain ⟨horigin, hduration⟩ := Prod.mk.inj hrow
        simp [physicalDuration?, hphysical, hrows, horigin, hduration]
      · simp [physicalDuration?, hphysical, map_eq_nil_iff.mp hexecutions]
    simp [durationsOf, observeShadow, Evaluation.cache, hreached, hnew, hadded]

theorem Observes.candidateIds (h : Observes k c run policy w i check s s')
    (hdistinct : s.candidateExecutionIds.Nodup) :
    s'.candidateExecutionIds.Nodup ∧ ∀ id, id ∈ s'.candidateExecutionIds ↔
      id ∈ s.candidateExecutionIds ∨ ∃ result, candidateResult? run check.checkId = some result ∧
        candidateExecutionId? result = some id := by
  cases h with
  | known hresult hknown =>
    refine ⟨hdistinct, ?_⟩
    intro id
    simp only [Evaluation.observe, hresult, Option.some.injEq, exists_eq_left']
    exact ⟨Or.inl, fun h => h.elim (fun hmem => hmem) (hknown id)⟩
  | source hresult hid hnew =>
    refine ⟨nodup_append.mpr ⟨hdistinct, nodup_singleton _, ?_⟩, ?_⟩
    · intro a ha b hb heq
      rw [mem_singleton.mp hb] at heq
      rw [heq] at ha
      exact hnew ha
    · intro id
      simp only [hresult, hid, Option.some.injEq, exists_eq_left', mem_append,
        mem_singleton, eq_comm]
  | idle hresult hreached =>
    refine ⟨hdistinct, ?_⟩
    simp [Evaluation.observe, hresult]
  | reused hresult hreached hcached =>
    refine ⟨hdistinct, ?_⟩
    simp [observeShadow, hresult]
  | launched hresult hreached hnew hexecutions =>
    refine ⟨hdistinct, ?_⟩
    simp [observeShadow, Evaluation.cache, hresult]

/-- The executions taken from the run, with their durations. -/
def sourceRows (s : Evaluation) : List (String × Nat) :=
  (s.shadowExecutions.filter fun execution => execution.origin = .candidateSource).map
    fun execution => (execution.executionId, execution.durationMs)

structure Sourced (run : VerificationRun) (s : Evaluation) : Prop where
  ids : (sourceRows s).map (·.1) = s.candidateExecutionIds
  results : ∀ row ∈ sourceRows s, ∃ result ∈ run.checks,
    candidateExecutionId? result = some row.1 ∧ result.durationMs = row.2

theorem mem_of_candidateResult? {checkId : String} (h : candidateResult? run checkId = some result) :
    result ∈ run.checks ∧ result.checkId = checkId := by
  have hmem := mem_of_find?_eq_some h
  have hid := find?_some h
  exact ⟨mem_reverse.mp hmem, of_decide_eq_true hid⟩

theorem Observes.sourced (h : Observes k c run policy w i check s s') (hs : Sourced run s) :
    Sourced run s' := by
  cases h with
  | known hresult hknown => exact ⟨hs.ids, hs.results⟩
  | source hresult hid hnew =>
    rename_i result id cwd
    have hrows : sourceRows { Evaluation.observe s (candidateObservation k check result) with
        shadowExecutions := s.shadowExecutions ++ [candidateExecution k check result id cwd]
        candidateExecutionIds := s.candidateExecutionIds ++ [id] } =
          sourceRows s ++ [(id, result.durationMs)] := by
      simp [sourceRows, candidateExecution]
    refine ⟨?_, ?_⟩
    · rw [hrows, map_append, hs.ids]
      rfl
    · intro row hrow
      rw [hrows, mem_append, mem_singleton] at hrow
      cases hrow with
      | inl hold => exact hs.results row hold
      | inr heq =>
        rw [heq]
        exact ⟨result, (mem_of_candidateResult? hresult).1, hid, rfl⟩
  | idle hresult hreached => exact ⟨hs.ids, hs.results⟩
  | reused hresult hreached hcached => exact ⟨hs.ids, hs.results⟩
  | launched hresult hreached hnew hexecutions =>
    rename_i inv cached executions
    have hnone : executions.filter (fun execution => execution.origin = .candidateSource) = [] := by
      split_ifs at hexecutions with hphysical
      · obtain ⟨row, hrows, hrow⟩ := map_eq_singleton_iff.mp hexecutions
        simp [hrows, (Prod.mk.inj hrow).1]
      · simp [map_eq_nil_iff.mp hexecutions]
    have hrows : sourceRows (observeShadow k check cached
        (Evaluation.cache s inv cached executions)) = sourceRows s := by
      simp [sourceRows, observeShadow, Evaluation.cache, hnone]
    refine ⟨?_, ?_⟩
    · rw [hrows]
      exact hs.ids
    · rw [hrows]
      exact hs.results

end Step

/-! ### The run over the reference set -/

section Run

variable (k : Calibrator) (c : Checkout) (run : VerificationRun) (policy : CalibrationPolicy)
  (w : ShadowWorld) (reference : List PlannedCheck)

/-- The invocation that the check at a place comes to. -/
def invocationAt (j : Nat) : Option ConcreteInvocation :=
  reference[j]?.bind (reached? c run policy w j)

/-- Whether an invocation was come to before a place. -/
def isKnownBefore (j : Nat) (key : InvocationKey) : Bool :=
  (range j).any fun earlier =>
    (invocationAt c run policy w reference earlier).any fun inv => inv.cacheKey = key

/-- The process that is started for the check at a place: no check before it came to the same
invocation. -/
def launchedAt (j : Nat) : Option (Nat × ConcreteInvocation) :=
  (invocationAt c run policy w reference j).bind fun inv =>
    if isKnownBefore c run policy w reference j inv.cacheKey then none else some (j, inv)

/-- The processes that are started for the first checks. -/
def launchedBefore (n : Nat) : List (Nat × ConcreteInvocation) :=
  (range n).filterMap (launchedAt c run policy w reference)

/-- What the evaluation has come to after the first checks. -/
structure Progressed (n : Nat) (s : Evaluation) : Prop where
  observed : s.shadowChecks.map (·.checkId) = (reference.take n).map (·.checkId)
  classed : ∀ observation ∈ s.shadowChecks, Classed observation
  cached : ∀ key, (s.invocationCache.lookup key).isSome ↔
    isKnownBefore c run policy w reference n key = true
  launched : durationsOf .shadowReference s =
    (launchedBefore c run policy w reference n).filterMap (physicalDuration? k policy w)
  distinct : s.candidateExecutionIds.Nodup
  candidates : ∀ id, id ∈ s.candidateExecutionIds ↔ ∃ check ∈ reference.take n, ∃ result,
    candidateResult? run check.checkId = some result ∧ candidateExecutionId? result = some id
  sourced : Sourced run s

theorem progressed_zero : Progressed k c run policy w reference 0 {} := by
  refine ⟨rfl, ?_, ?_, rfl, nodup_nil, ?_, ⟨rfl, ?_⟩⟩
  · simp
  · simp [isKnownBefore]
  · simp
  · simp [sourceRows]

variable {k c run policy w reference} {n : Nat} {check : PlannedCheck} {s s' : Evaluation}

theorem filterMap_singleton {α β : Type} (f : α → Option β) (a : α) :
    [a].filterMap f = (f a).toList := by
  cases h : f a with
  | none => simp [h]
  | some b => simp [h]

theorem isKnownBefore_succ (hcheck : reference[n]? = some check) (key : InvocationKey) :
    isKnownBefore c run policy w reference (n + 1) key = true ↔
      isKnownBefore c run policy w reference n key = true ∨
        ∃ inv, reached? c run policy w n check = some inv ∧ inv.cacheKey = key := by
  simp [isKnownBefore, range_succ, invocationAt, hcheck, Option.any_eq_true]

theorem Progressed.step (h : Progressed k c run policy w reference n s)
    (hcheck : reference[n]? = some check) (hstep : Observes k c run policy w n check s s') :
    Progressed k c run policy w reference (n + 1) s' := by
  have htake : reference.take (n + 1) = reference.take n ++ [check] := by
    rw [take_add_one, hcheck]
    rfl
  obtain ⟨observation, hobservations, hid, hclass⟩ := hstep.observation
  obtain ⟨hdistinct, hcandidates⟩ := hstep.candidateIds h.distinct
  refine ⟨?_, ?_, ?_, ?_, hdistinct, ?_, hstep.sourced h.sourced⟩
  · rw [hobservations, htake, map_append, map_append, h.observed]
    simp [hid]
  · intro o ho
    rw [hobservations, mem_append, mem_singleton] at ho
    cases ho with
    | inl hold => exact h.classed o hold
    | inr heq =>
      rw [heq]
      exact hclass
  · intro key
    rw [hstep.cached, h.cached, isKnownBefore_succ hcheck]
  · have hlaunched : launchedBefore c run policy w reference (n + 1) =
        launchedBefore c run policy w reference n ++
          (launchedAt c run policy w reference n).toList := by
      rw [launchedBefore, range_succ, filterMap_append, filterMap_singleton]
      rfl
    rw [hstep.shadowDurations, h.launched, hlaunched, filterMap_append]
    congr 1
    simp only [launchedAt, invocationAt, hcheck, Option.bind_some]
    cases hreached : reached? c run policy w n check with
    | none => rfl
    | some inv =>
      have hcached := h.cached inv.cacheKey
      simp only [Option.bind_some]
      by_cases hknown : isKnownBefore c run policy w reference n inv.cacheKey = true
      · rw [if_pos (hcached.mpr hknown), if_pos hknown]
        rfl
      · rw [if_neg (mt hcached.mp hknown), if_neg hknown]
        exact (filterMap_singleton (physicalDuration? k policy w) (n, inv)).symm
  · intro id
    rw [hcandidates, h.candidates, htake]
    simp [or_and_right, exists_or]

theorem Progressed.all (h : Progressed k c run policy w reference n s) {checks : List PlannedCheck}
    (hchecks : reference.drop n = checks)
    (hrun : evaluateChecks k c run policy w n checks s = .ok s') :
    Progressed k c run policy w reference (n + checks.length) s' := by
  induction checks generalizing n s with
  | nil =>
    obtain rfl := Except.ok.inj hrun
    exact h
  | cons check checks ih =>
    obtain ⟨next, hnext, hrest⟩ := bind_eq_ok.mp hrun
    have hcheck : reference[n]? = some check := by
      rw [← head?_drop, hchecks]
      rfl
    have hdrop : reference.drop (n + 1) = checks := by
      rw [← tail_drop, hchecks]
      rfl
    have hall := ih (h.step hcheck (evaluateCheck_eq_ok hnext)) hdrop hrest
    rw [length_cons, Nat.add_comm checks.length, ← Nat.add_assoc]
    exact hall

end Run

end SignalMetrics
