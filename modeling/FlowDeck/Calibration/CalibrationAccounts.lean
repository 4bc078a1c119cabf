import FlowDeck.Calibration.SignalMetrics
import FlowDeck.Verification.RunValidity
import Mathlib.Algebra.BigOperators.Group.List.Basic

/-! What the metrics of an accepted evaluation account for. -/

namespace CalibrationAccounts

open Checked ImpactedPackages PlanExecutor PolicyStore ReferenceSet RunArtifact List
  RuntimeIngest ShadowEvaluation SignalMetrics

/-! ### Sums and counts -/

theorem foldl_add_mod (durations : List Nat) (start : Nat) :
    durations.foldl (fun a b => (a + b) % 2 ^ 64) (start % 2 ^ 64) =
      (start + durations.sum) % 2 ^ 64 := by
  induction durations generalizing start with
  | nil => simp
  | cons duration durations ih =>
    have hnext : (start % 2 ^ 64 + duration) % 2 ^ 64 = (start + duration) % 2 ^ 64 := by omega
    rw [foldl_cons, hnext, ih, sum_cons, Nat.add_assoc]

theorem sumMs_eq (durations : List Nat) : sumMs durations = durations.sum % 2 ^ 64 := by
  have h := foldl_add_mod durations 0
  rw [Nat.zero_add] at h
  exact h

/-- Every execution is of one of the two origins. -/
theorem sum_durationsOf (s : Evaluation) :
    (s.shadowExecutions.map (·.durationMs)).sum =
      (durationsOf .candidateSource s).sum + (durationsOf .shadowReference s).sum := by
  unfold durationsOf
  induction s.shadowExecutions with
  | nil => rfl
  | cons execution executions ih =>
    cases horigin : execution.origin with
    | candidateSource =>
      simp [horigin, ih]
      omega
    | shadowReference =>
      simp [horigin, ih]
      omega

/-- Every check is of one of the five classes. -/
theorem sum_countClass (checks : List ShadowCheckObservation) :
    countClass checks .selectedPass + countClass checks .selectedSignal +
      countClass checks .unselectedPass + countClass checks .observedShadowMiss +
      countClass checks .incomplete = checks.length := by
  unfold countClass
  induction checks with
  | nil => rfl
  | cons check checks ih =>
    rw [length_cons, ← ih]
    cases hclass : check.signalClass <;> simp [hclass] <;> omega

/-! ### The run that was accepted -/

def sourceExecutions (run : VerificationRun) : List String :=
  (executionIds run).filter (groupPhysical run)

def sourceDuration (run : VerificationRun) (executionId : String) : Nat :=
  ((groupOf run executionId).head?.map (·.durationMs)).getD 0

/-- What an accepted run is known to be. -/
structure AcceptedSource (run : VerificationRun) : Prop where
  distinct : (run.checks.map (·.checkId)).Nodup
  planned : ∀ result ∈ run.checks, isPlanned run result.checkId = true
  physical : ∀ result ∈ run.checks,
    groupPhysical run result.executionId = isPhysicalProcessExecution result.status
  duration : ∀ result ∈ run.checks, sourceDuration run result.executionId = result.durationMs

theorem validateResult_eq_ok {run : VerificationRun} {observed ids : List String}
    {result : CheckExecutionResult} :
    validateResult run observed result = .ok ids ↔ validateCheck run observed result = .ok ids := by
  simp only [validateResult, validateCheck, bind_eq_ok, refuseIf_eq_ok, pure_eq_ok, exists_const]
  constructor
  · intro h
    obtain ⟨hplanned, hnew, hid, heq⟩ := h
    exact ⟨hnew, hid, hplanned, heq⟩
  · intro h
    obtain ⟨hnew, hid, hplanned, heq⟩ := h
    exact ⟨hplanned, hnew, hid, heq⟩

theorem foldlM_validateResult_eq_ok {run : VerificationRun} {checks : List CheckExecutionResult}
    {observed ids : List String} (h : checks.foldlM (validateResult run) observed = .ok ids) :
    checks.foldlM (validateCheck run) observed = .ok ids := by
  induction checks generalizing observed with
  | nil => exact h
  | cons result checks ih =>
    rw [foldlM_cons, bind_eq_ok] at h ⊢
    obtain ⟨next, hnext, hrest⟩ := h
    exact ⟨next, validateResult_eq_ok.mp hnext, ih hrest⟩

theorem validateSourceGroup_eq_ok {executionId : String} {group : List CheckExecutionResult}
    (h : validateSourceGroup executionId group = .ok ()) {result : CheckExecutionResult}
    (hresult : result ∈ group) :
    (group.head?.any fun first => isPhysicalProcessExecution first.status) =
        isPhysicalProcessExecution result.status ∧
      (group.head?.map (·.durationMs)).getD 0 = result.durationMs := by
  cases group with
  | nil => exact absurd hresult not_mem_nil
  | cons first others =>
    obtain ⟨_, hmixes, hrest⟩ := bind_eq_ok.mp h
    obtain ⟨_, -, hshared⟩ := bind_eq_ok.mp hrest
    simp only [refuseIf_eq_ok, any_eq_true, bne_iff_ne, ne_eq, not_exists, not_and,
      not_not] at hmixes
    simp only [refuseIf_eq_ok, any_eq_true, Bool.not_eq_true', not_exists, not_and,
      Bool.not_eq_false] at hshared
    cases mem_cons.mp hresult with
    | inl heq =>
      rw [heq]
      exact ⟨rfl, rfl⟩
    | inr hother =>
      have hevidence := hshared result hother
      simp only [sharesEvidence, Bool.and_eq_true, decide_eq_true_eq] at hevidence
      exact ⟨(hmixes result hother).symm, hevidence.1.1.2.symm⟩

theorem acceptedSource_of_eq_ok {r : Runtime} {run : VerificationRun}
    (h : validateSourceRelationship r run = .ok ()) : AcceptedSource run := by
  obtain ⟨_, -, hrest⟩ := bind_eq_ok.mp h
  obtain ⟨observed, hobserved, hgroups⟩ := bind_eq_ok.mp hrest
  obtain ⟨⟨hdistinct, hchecks⟩, -⟩ :=
    (foldlM_validateCheck_eq_ok nodup_nil).mp (foldlM_validateResult_eq_ok hobserved)
  have hall : ∀ result ∈ run.checks,
      validateSourceGroup result.executionId (groupOf run result.executionId) = .ok () := by
    intro result hresult
    cases hmissing : (r.walk (plannedIds run)).find? fun id => !observed.contains id with
    | some missing =>
      rw [hmissing] at hgroups
      cases hgroups
    | none =>
      rw [hmissing] at hgroups
      apply forM_eq_ok.mp hgroups
      rw [(r.walk_perm _).mem_iff]
      exact mem_executionIds.mpr ⟨result, hresult, rfl⟩
  refine ⟨hdistinct, fun result hresult => (hchecks result hresult).2, ?_, ?_⟩
  · intro result hresult
    exact (validateSourceGroup_eq_ok (hall result hresult) (mem_groupOf.mpr ⟨hresult, rfl⟩)).1
  · intro result hresult
    exact (validateSourceGroup_eq_ok (hall result hresult) (mem_groupOf.mpr ⟨hresult, rfl⟩)).2

theorem AcceptedSource.candidateResult? {run : VerificationRun} (h : AcceptedSource run)
    {result : CheckExecutionResult} (hresult : result ∈ run.checks) :
    candidateResult? run result.checkId = some result := by
  have hsome : (ShadowEvaluation.candidateResult? run result.checkId).isSome := by
    simp only [ShadowEvaluation.candidateResult?, find?_isSome, mem_reverse, decide_eq_true_eq]
    exact ⟨result, hresult, rfl⟩
  obtain ⟨other, hother⟩ := Option.isSome_iff_exists.mp hsome
  obtain ⟨hmem, hid⟩ := mem_of_candidateResult? hother
  rw [hother, inj_on_of_nodup_map h.distinct hmem hresult hid]

/-! ### The accounts -/

/-- No two physical executions of a run have ids that differ in surrounding blanks only. -/
def TrimsApart (run : VerificationRun) : Prop :=
  ∀ a ∈ run.checks, ∀ b ∈ run.checks, isPhysicalProcessExecution a.status = true →
    isPhysicalProcessExecution b.status = true →
      trimmed a.executionId = trimmed b.executionId → a.executionId = b.executionId

theorem mem_sourceExecutions {run : VerificationRun} (h : AcceptedSource run)
    {executionId : String} :
    executionId ∈ sourceExecutions run ↔ ∃ result ∈ run.checks,
      isPhysicalProcessExecution result.status = true ∧ result.executionId = executionId := by
  rw [sourceExecutions, mem_filter, mem_executionIds]
  constructor
  · intro hmem
    obtain ⟨⟨result, hresult, rfl⟩, hphysical⟩ := hmem
    rw [h.physical result hresult] at hphysical
    exact ⟨result, hresult, hphysical, rfl⟩
  · intro hmem
    obtain ⟨result, hresult, hphysical, rfl⟩ := hmem
    refine ⟨⟨result, hresult, rfl⟩, ?_⟩
    rw [h.physical result hresult]
    exact hphysical

def candidateId (executionId : String) : String := "candidate_" ++ trimmed executionId

theorem candidateExecutionId?_eq_some {result : CheckExecutionResult} {id : String} :
    candidateExecutionId? result = some id ↔
      isPhysicalProcessExecution result.status = true ∧ candidateId result.executionId = id := by
  unfold candidateExecutionId? candidateId
  split_ifs with hphysical
  · simp [hphysical]
  · simp [hphysical]

theorem TrimsApart.candidateId_inj {run : VerificationRun} (h : TrimsApart run)
    (hsource : AcceptedSource run) :
    ∀ a ∈ sourceExecutions run, ∀ b ∈ sourceExecutions run,
      candidateId a = candidateId b → a = b := by
  intro a ha b hb heq
  obtain ⟨resultA, hresultA, hphysicalA, rfl⟩ := (mem_sourceExecutions hsource).mp ha
  obtain ⟨resultB, hresultB, hphysicalB, rfl⟩ := (mem_sourceExecutions hsource).mp hb
  apply h resultA hresultA resultB hresultB hphysicalA hphysicalB
  exact String.append_right_inj _ |>.mp heq

section Accounts

variable {k : Calibrator} {c : Checkout} {run : VerificationRun} {policy : CalibrationPolicy}
  {w : ShadowWorld} {reference : List PlannedCheck} {s : Evaluation}

def Superset (run : VerificationRun) (reference : List PlannedCheck) : Prop :=
  ∀ result ∈ run.checks, ∃ check ∈ reference, check.checkId = result.checkId

/-- The executions taken from a run are all of its physical ones, each once. -/
theorem perm_candidateExecutionIds (hsource : AcceptedSource run) (hapart : TrimsApart run)
    (hreference : Superset run reference)
    (h : Progressed k c run policy w reference reference.length s) :
    s.candidateExecutionIds.Perm ((sourceExecutions run).map candidateId) := by
  have hdistinct : ((sourceExecutions run).map candidateId).Nodup := by
    apply Nodup.map_on (hapart.candidateId_inj hsource)
    exact (nodup_dedup _).filter _
  rw [perm_ext_iff_of_nodup h.distinct hdistinct]
  intro id
  rw [h.candidates, take_length, mem_map]
  constructor
  · intro hid
    obtain ⟨check, hcheck, result, hresult, hsome⟩ := hid
    obtain ⟨hphysical, rfl⟩ := candidateExecutionId?_eq_some.mp hsome
    have hmem := (mem_of_candidateResult? hresult).1
    exact ⟨_, (mem_sourceExecutions hsource).mpr ⟨result, hmem, hphysical, rfl⟩, rfl⟩
  · intro hid
    obtain ⟨executionId, hexecution, rfl⟩ := hid
    obtain ⟨result, hresult, hphysical, rfl⟩ := (mem_sourceExecutions hsource).mp hexecution
    obtain ⟨check, hcheck, hsame⟩ := hreference result hresult
    refine ⟨check, hcheck, result, ?_, candidateExecutionId?_eq_some.mpr ⟨hphysical, rfl⟩⟩
    rw [hsame]
    exact hsource.candidateResult? hresult

def durationOfId (run : VerificationRun) (id : String) : Nat :=
  (((sourceExecutions run).find? fun executionId => candidateId executionId = id).map
    (sourceDuration run)).getD 0

theorem durationOfId_candidateId (hsource : AcceptedSource run) (hapart : TrimsApart run)
    {executionId : String} (h : executionId ∈ sourceExecutions run) :
    durationOfId run (candidateId executionId) = sourceDuration run executionId := by
  have hsome : ((sourceExecutions run).find? fun other =>
      candidateId other = candidateId executionId).isSome := by
    simp only [find?_isSome, decide_eq_true_eq]
    exact ⟨executionId, h, rfl⟩
  obtain ⟨other, hother⟩ := Option.isSome_iff_exists.mp hsome
  have hfound := find?_some hother
  simp only [decide_eq_true_eq] at hfound
  have hsame := hapart.candidateId_inj hsource other (mem_of_find?_eq_some hother)
    executionId h hfound
  rw [durationOfId, hother, hsame]
  rfl

def sourceDurations (run : VerificationRun) : List Nat :=
  (sourceExecutions run).map (sourceDuration run)

theorem sum_candidateDurations (hsource : AcceptedSource run) (hapart : TrimsApart run)
    (hreference : Superset run reference)
    (h : Progressed k c run policy w reference reference.length s) :
    (durationsOf .candidateSource s).sum = (sourceDurations run).sum := by
  have hrows : durationsOf .candidateSource s = s.candidateExecutionIds.map (durationOfId run) := by
    have hdurations : durationsOf .candidateSource s = (sourceRows s).map (·.2) := by
      simp [durationsOf, sourceRows]
    rw [hdurations, ← h.sourced.ids, map_map]
    apply map_congr_left
    intro row hrow
    obtain ⟨result, hresult, hid, hduration⟩ := h.sourced.results row hrow
    obtain ⟨hphysical, hcandidate⟩ := candidateExecutionId?_eq_some.mp hid
    have hmem := (mem_sourceExecutions hsource).mpr ⟨result, hresult, hphysical, rfl⟩
    rw [Function.comp_apply, ← hcandidate, durationOfId_candidateId hsource hapart hmem,
      hsource.duration result hresult, hduration]
  have hperm := (perm_candidateExecutionIds hsource hapart hreference h).map (durationOfId run)
  rw [hrows, hperm.sum_eq, map_map, sourceDurations]
  congr 1
  apply map_congr_left
  intro executionId hexecution
  exact durationOfId_candidateId hsource hapart hexecution

end Accounts

/-- What a calibration accounts for: one observation for each check of the reference set, the classes
of the observations, and the duration of each physical execution once. -/
structure Accounted (k : Calibrator) (c : Checkout) (w : ShadowWorld) (run : VerificationRun)
    (policy : CalibrationPolicy) (reference : List PlannedCheck) (calibration : CalibrationRun) :
    Prop where
  observed : calibration.checks.map (·.checkId) = reference.map (·.checkId)
  classed : ∀ observation ∈ calibration.checks, Classed observation
  partition : countClass calibration.checks .selectedPass +
    calibration.metrics.selectedFailureCount + countClass calibration.checks .unselectedPass +
    calibration.metrics.observedShadowMissCount + calibration.metrics.shadowIncompleteCount =
      calibration.metrics.shadowReferenceCount
  references : calibration.metrics.shadowReferenceCount = reference.length
  signals : calibration.metrics.selectedFailureCount =
    countClass calibration.checks .selectedSignal
  misses : calibration.metrics.observedShadowMissCount =
    countClass calibration.checks .observedShadowMiss
  incomplete : calibration.metrics.shadowIncompleteCount =
    countClass calibration.checks .incomplete
  sourceOnce : TrimsApart run →
    calibration.metrics.candidateExecutionDurationMs = (sourceDurations run).sum % 2 ^ 64
  allOnce : TrimsApart run → calibration.metrics.shadowReferenceDurationMs =
    ((sourceDurations run).sum +
      ((launchedBefore c run policy w reference reference.length).filterMap
        (physicalDuration? k policy w)).sum) % 2 ^ 64

theorem superset_of_eq_ok {run : VerificationRun} {reference : List PlannedCheck}
    (hsource : AcceptedSource run)
    (h : validateReferenceSuperset run.plan reference = .ok ()) : Superset run reference := by
  intro result hresult
  have hplanned := hsource.planned result hresult
  simp only [isPlanned, any_eq_true, decide_eq_true_eq] at hplanned
  obtain ⟨planned, hmem, hid⟩ := hplanned
  unfold validateReferenceSuperset at h
  cases hmissing : run.plan.selectedChecks.find? fun check =>
      !(reference.map (·.checkId)).contains check.checkId with
  | some missing =>
    rw [hmissing] at h
    cases h
  | none =>
    have hkept := find?_eq_none.mp hmissing planned hmem
    simp only [Bool.not_eq_true', contains_eq_mem, decide_eq_false_iff_not, not_not] at hkept
    obtain ⟨check, hcheck, hsame⟩ := mem_map.mp hkept
    exact ⟨check, hcheck, hsame.trans hid⟩

theorem accounted_of_eq_ok {k : Calibrator} {c : Checkout} {i : PlanInputs} {w : ShadowWorld}
    {run : VerificationRun} {policy : CalibrationPolicy} {artifactSha256 : String}
    {calibration : CalibrationRun}
    (h : runCalibrationWithSourceArtifact k c i w run policy artifactSha256 = .ok calibration) :
    Accounted k c w run policy (constructShadowReferenceSet i run.plan policy).1 calibration := by
  unfold runCalibrationWithSourceArtifact at h
  generalize constructShadowReferenceSet i run.plan policy = constructed at h ⊢
  obtain ⟨reference, truncated⟩ := constructed
  obtain ⟨_, -, h₁⟩ := bind_eq_ok.mp h
  obtain ⟨policyDigest, -, h₂⟩ := bind_eq_ok.mp h₁
  obtain ⟨⟨⟩, hrelationship, h₃⟩ := bind_eq_ok.mp h₂
  obtain ⟨⟨⟩, hsuperset, h₄⟩ := bind_eq_ok.mp h₃
  obtain ⟨s, hs, h₅⟩ := bind_eq_ok.mp h₄
  obtain ⟨recordDigest, -, h₆⟩ := bind_eq_ok.mp h₅
  obtain rfl := pure_eq_ok.mp h₆
  have hsource := acceptedSource_of_eq_ok hrelationship
  have hreference := superset_of_eq_ok hsource hsuperset
  have hall := (progressed_zero k c run policy w reference).all drop_zero hs
  rw [Nat.zero_add] at hall
  have hobserved := hall.observed
  rw [take_length] at hobserved
  have hlength := congrArg length hobserved
  rw [length_map, length_map] at hlength
  refine ⟨hobserved, hall.classed, ?_, hlength, rfl, rfl, rfl, ?_, ?_⟩
  · exact sum_countClass s.shadowChecks
  · intro hapart
    have hsum := sum_candidateDurations hsource hapart hreference hall
    rw [← hsum]
    exact sumMs_eq (durationsOf .candidateSource s)
  · intro hapart
    have hsum := sum_candidateDurations hsource hapart hreference hall
    rw [← hsum, ← hall.launched, ← sum_durationsOf]
    exact sumMs_eq _

end CalibrationAccounts
