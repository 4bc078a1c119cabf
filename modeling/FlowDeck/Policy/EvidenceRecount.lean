import FlowDeck.Library.KeyOrder
import FlowDeck.Policy.PolicyCalls

/-! The evidence a promotion counts again, beside the evidence its candidate was generated from. -/

namespace EvidenceRecount

open CalibrationHistory PolicyStore CandidateGeneration Promotion PolicyCalls DistinctCounts Option

variable {runs : CalibrationRuns} {row : EvidenceRow} {joined : JoinedEvidence} {d : Digests}

theorem joinRow_eq_some :
    joinRow runs row = some joined ↔
      ∃ run check, runs.get? row.calibrationId = some run ∧
        run.checks.get? row.checkId = some check ∧
        (isQualifiedRun run = true ∧ run.sourceArtifactSha256 = some row.sourceArtifactSha256 ∧
          run.recordDigest = some row.calibrationRecordDigest ∧
          run.candidatePlanDigest = row.candidatePlanDigest ∧ isQualifiedCheck check = true) ∧
        joined = ⟨row, check⟩ := by
  simp only [joinRow, bind_eq_bind, bind_eq_some_iff, guard_eq_some', pure_def, some.injEq]
  constructor
  · rintro ⟨run, hrun, check, hcheck, -, hqualified, heq⟩
    exact ⟨run, check, hrun, hcheck, hqualified, heq.symm⟩
  · rintro ⟨run, check, hrun, hcheck, hqualified, heq⟩
    exact ⟨run, hrun, check, hcheck, (), hqualified, heq.symm⟩

/-- The run the evidence names is still what the evidence says of it. -/
def Recorded (runs : CalibrationRuns) (row : EvidenceRow) : Prop :=
  ∃ joined, joinRow runs row = some joined

theorem recorded_of_miss {limit : Nat} {misses : List QualifiedMiss}
    (h : readQualifiedMisses runs limit = .ok misses) {miss : QualifiedMiss} (hmiss : miss ∈ misses)
    {candidate : PolicyCandidate} (hcheckId : candidate.checkId = miss.checkId) :
    Recorded runs (evidenceRow candidate miss) := by
  obtain ⟨run, hrun, check, hcheck, hread⟩ := (mem_readQualifiedMisses h).mp hmiss
  obtain ⟨hmem, hqualified⟩ := mem_qualifiedRuns hrun
  obtain ⟨hcheckMem, hqualifiedCheck⟩ := mem_qualifiedChecks.mp hcheck
  obtain ⟨-, -, rfl⟩ := readMiss_eq_ok.mp hread
  have hparts := hqualified
  simp only [isQualifiedRun, Bool.and_eq_true, decide_eq_true_eq] at hparts
  obtain ⟨⟨⟨⟨-, hartifact⟩, hrecord⟩, -⟩, -⟩ := hparts
  obtain ⟨artifact, hartifact⟩ := isSome_iff_exists.mp hartifact
  obtain ⟨record, hrecord⟩ := isSome_iff_exists.mp hrecord
  have hget : run.checks.get? candidate.checkId = some check := by
    rw [hcheckId]
    exact Table.get?_of_mem hcheckMem
  have hsource : run.sourceArtifactSha256 = some (run.sourceArtifactSha256.getD "") := by
    rw [hartifact, getD_some]
  have hdigest : run.recordDigest = some (run.recordDigest.getD "") := by
    rw [hrecord, getD_some]
  exact ⟨_, joinRow_eq_some.mpr ⟨run, check, Table.get?_of_mem hmem, hget,
    ⟨hqualified, hsource, hdigest, rfl, hqualifiedCheck⟩, rfl⟩⟩

theorem Recorded.insertOrIgnore (h : Recorded runs row) (run : CalibrationRun) :
    Recorded (runs.insertOrIgnore run) row := by
  obtain ⟨joined, hjoined⟩ := h
  obtain ⟨old, check, hold, hrest⟩ := joinRow_eq_some.mp hjoined
  refine ⟨joined, joinRow_eq_some.mpr ⟨old, check, ?_, hrest⟩⟩
  rw [Table.get?_insertOrIgnore, hold, some_or]

/-- Runs are never changed, so that evidence stays recorded. -/
def AllRecorded (db : PolicyDatabase) : Prop := ∀ row ∈ db.evidence.rows, Recorded db.runs row

theorem AllRecorded.generate {db db' : PolicyDatabase} {policy : PromotionPolicy} {nowMs : Nat}
    {candidates : List PolicyCandidate} (hrecorded : AllRecorded db)
    (h : generateCandidates d db policy nowMs = .ok (db', candidates)) : AllRecorded db' := by
  obtain ⟨policyDigest, misses, -, hmisses, hgroups⟩ := generateCandidates_eq_ok.mp h
  obtain ⟨hruns, -⟩ := generateCandidates_frame h
  intro row hrow
  rw [hruns]
  rcases mem_evidence hgroups hrow with hold | ⟨miss, hmiss, candidate, hcheckId, rfl⟩
  · exact hrecorded row hold
  · exact recorded_of_miss hmisses hmiss hcheckId

theorem AllRecorded.perform {db : PolicyDatabase} (hrecorded : AllRecorded db) (call : PolicyCall) :
    AllRecorded (perform d db call) := by
  rcases perform_cases d db call with hsame | ⟨run, -, heq⟩ |
    ⟨policy, nowMs, candidates, -, hgenerate⟩ |
    ⟨candidateId, policy, template, nowMs, candidate, promoted, -, -, -, -, hwrites⟩ |
    ⟨policyId, reason, nowMs, row, -, -, -, -, heq⟩
  · rw [hsame]
    exact hrecorded
  · rw [heq]
    intro row hrow
    exact (hrecorded row hrow).insertOrIgnore run
  · exact hrecorded.generate hgenerate
  · intro row hrow
    rw [hwrites.evidence] at hrow
    rw [hwrites.runs]
    exact hrecorded row hrow
  · rw [heq]
    exact hrecorded

theorem allRecorded_of_run {calls : List PolicyCall} {db : PolicyDatabase}
    (h : Machine.run (step d) .empty calls = some db) : AllRecorded db := by
  refine Machine.run_invariant (I := AllRecorded) ?_
    (fun row hrow => absurd hrow List.not_mem_nil) h
  intro before call after hrecorded hstep
  exact some.inj hstep ▸ hrecorded.perform call

theorem mem_joinEvidence {db : PolicyDatabase} {candidate : PolicyCandidate} :
    joined ∈ joinEvidence db candidate ↔
      ∃ row ∈ db.evidence.rows, row.candidateId = candidate.candidateId ∧
        row.checkId = candidate.checkId ∧ joinRow db.runs row = some joined := by
  simp only [joinEvidence, List.mem_filterMap, List.mem_filter, Bool.and_eq_true,
    decide_eq_true_eq, and_assoc]

/-- A miss and the join of a piece of evidence read the same columns. -/
structure Alike (miss : QualifiedMiss) (joined : JoinedEvidence) : Prop where
  calibrationId : joined.evidence.calibrationId = miss.calibrationId
  sourceArtifactSha256 : joined.evidence.sourceArtifactSha256 = miss.sourceArtifactSha256
  candidatePlanDigest : joined.evidence.candidatePlanDigest = miss.candidatePlanDigest
  durationMs : joined.check.durationMs = miss.durationMs

theorem alike_of_run {run : CalibrationRun} {check : CalibrationCheck} {miss : QualifiedMiss}
    (hrun : run ∈ runs.rows) (hcheck : check ∈ run.checks.rows)
    (hread : readMiss run check = .ok miss) (hjoined : joinRow runs row = some joined)
    (hcalibration : row.calibrationId = run.calibrationId) (hcheckId : row.checkId = check.checkId) :
    Alike miss joined := by
  obtain ⟨run', check', hrun', hcheck', ⟨-, hartifact, -, hplan, -⟩, rfl⟩ :=
    joinRow_eq_some.mp hjoined
  rw [hcalibration, Table.get?_of_mem hrun] at hrun'
  obtain rfl := some.inj hrun'
  rw [hcheckId, Table.get?_of_mem hcheck] at hcheck'
  obtain rfl := some.inj hcheck'
  obtain ⟨-, hduration, rfl⟩ := readMiss_eq_ok.mp hread
  constructor
  · exact hcalibration
  · simp [hartifact]
  · exact hplan.symm
  · exact (Int.toNat_of_nonneg hduration).symm

def InLookback (db : PolicyDatabase) (policy : PromotionPolicy) (candidate : PolicyCandidate)
    (row : EvidenceRow) : Prop :=
  ∃ run ∈ qualifiedRuns db.runs policy.lookbackLimit.toNat,
    run.calibrationId = row.calibrationId ∧
      ∃ check ∈ run.checks.rows, check.checkId = candidate.checkId ∧
        check.scope = candidate.trigger.scope

/-- The evidence counted again gives the counts the candidate was generated with. -/
structure Recounts (db : PolicyDatabase) (candidate : PolicyCandidate) : Prop where
  support : countDistinct (·.calibrationId) (joinEvidence db candidate) = candidate.supportCount
  artifacts : countDistinct (·.sourceArtifactSha256) (joinEvidence db candidate) =
    candidate.distinctSourceArtifactCount
  changes : countDistinct (·.candidatePlanDigest) (joinEvidence db candidate) =
    candidate.distinctChangeFingerprintCount
  runtime : maxDuration (joinEvidence db candidate) = candidate.estimatedAddedRuntimeMs

structure GeneratedFrom (db : PolicyDatabase) (policy : PromotionPolicy)
    (candidate : PolicyCandidate) (misses : List QualifiedMiss) : Prop where
  read : readQualifiedMisses db.runs policy.lookbackLimit.toNat = .ok misses
  support : candidate.supportCount = distinctCount (·.calibrationId)
    (observations misses (candidate.trigger.scope, candidate.checkId))
  artifacts : candidate.distinctSourceArtifactCount = distinctCount (·.sourceArtifactSha256)
    (observations misses (candidate.trigger.scope, candidate.checkId))
  changes : candidate.distinctChangeFingerprintCount = distinctCount (·.candidatePlanDigest)
    (observations misses (candidate.trigger.scope, candidate.checkId))
  runtime : candidate.estimatedAddedRuntimeMs =
    estimatedRuntime (observations misses (candidate.trigger.scope, candidate.checkId))
  state : candidate.state =
    if isEligible policy (observations misses (candidate.trigger.scope, candidate.checkId))
      then .eligible else .candidate
  stored : ∀ miss ∈ observations misses (candidate.trigger.scope, candidate.checkId),
    ∃ row ∈ db.evidence.rows, row.candidateId = candidate.candidateId ∧
      row.calibrationId = miss.calibrationId ∧ row.checkId = candidate.checkId

theorem generatedFrom_of_mem {db db' : PolicyDatabase} {policy : PromotionPolicy} {nowMs : Nat}
    {candidates : List PolicyCandidate} {candidate : PolicyCandidate}
    (h : generateCandidates d db policy nowMs = .ok (db', candidates))
    (hmem : candidate ∈ candidates) : ∃ misses, GeneratedFrom db' policy candidate misses := by
  obtain ⟨hruns, -⟩ := generateCandidates_frame h
  obtain ⟨policyDigest, misses, -, hmisses, hgroups⟩ := generateCandidates_eq_ok.mp h
  obtain ⟨group, hgroup, hcandidate⟩ := group_of_mem hgroups hmem
  obtain ⟨-, -, heq⟩ := candidateOf_eq_ok.mp hcandidate
  have hkey : (candidate.trigger.scope, candidate.checkId) = group := by
    rw [heq]
    rfl
  refine ⟨misses, hruns ▸ hmisses, ?_, ?_, ?_, ?_, ?_, ?_⟩
  · rw [hkey, heq]
    rfl
  · rw [hkey, heq]
    rfl
  · rw [hkey, heq]
    rfl
  · rw [hkey, heq]
    rfl
  · rw [hkey, heq]
    rfl
  · rw [hkey]
    intro miss hmiss
    obtain ⟨row, hrow, hrowKey⟩ := exists_evidence hgroups hgroup hcandidate hmiss
    obtain ⟨hid, hrest⟩ := Prod.mk.inj hrowKey
    obtain ⟨hcalibration, hcheck⟩ := Prod.mk.inj hrest
    exact ⟨row, hrow, hid, hcalibration, hcheck⟩

section Window

variable {db : PolicyDatabase} {policy : PromotionPolicy} {candidate : PolicyCandidate}
  {misses : List QualifiedMiss}

/-- Every miss of the candidate in the lookback is counted again. -/
theorem GeneratedFrom.exists_joined (h : GeneratedFrom db policy candidate misses)
    (hrecorded : AllRecorded db) {miss : QualifiedMiss}
    (hmiss : miss ∈ observations misses (candidate.trigger.scope, candidate.checkId)) :
    ∃ joined ∈ joinEvidence db candidate, Alike miss joined := by
  obtain ⟨row, hrow, hid, hcalibration, hcheckId⟩ := h.stored miss hmiss
  obtain ⟨joined, hjoined⟩ := hrecorded row hrow
  obtain ⟨hmem, hkey⟩ := mem_observations.mp hmiss
  obtain ⟨run, hrun, check, hcheck, hread⟩ := (mem_readQualifiedMisses h.read).mp hmem
  obtain ⟨hrunMem, -⟩ := mem_qualifiedRuns hrun
  obtain ⟨hcheckMem, -⟩ := mem_qualifiedChecks.mp hcheck
  obtain ⟨-, -, heq⟩ := readMiss_eq_ok.mp hread
  have hcheckEq : candidate.checkId = check.checkId := by
    rw [← (Prod.mk.inj hkey).2, heq]
  have hcalibrationEq : row.calibrationId = run.calibrationId := by
    rw [hcalibration, heq]
  exact ⟨joined, mem_joinEvidence.mpr ⟨row, hrow, hid, hcheckId, hjoined⟩,
    alike_of_run hrunMem hcheckMem hread hjoined hcalibrationEq (hcheckId.trans hcheckEq)⟩

theorem GeneratedFrom.exists_miss (h : GeneratedFrom db policy candidate misses)
    {row : EvidenceRow} {joined : JoinedEvidence} (hcheckId : row.checkId = candidate.checkId)
    (hjoined : joinRow db.runs row = some joined) (hwindow : InLookback db policy candidate row) :
    ∃ miss ∈ observations misses (candidate.trigger.scope, candidate.checkId),
      Alike miss joined := by
  obtain ⟨run, hrun, hcalibration, check, hcheck, hcheckEq, hscope⟩ := hwindow
  obtain ⟨hrunMem, -⟩ := mem_qualifiedRuns hrun
  have hqualified : isQualifiedCheck check = true := by
    obtain ⟨run', check', hrun', hcheck', ⟨-, -, -, -, hqualified⟩, -⟩ := joinRow_eq_some.mp hjoined
    rw [← hcalibration, Table.get?_of_mem hrunMem] at hrun'
    obtain rfl := some.inj hrun'
    rw [hcheckId, ← hcheckEq, Table.get?_of_mem hcheck] at hcheck'
    obtain rfl := some.inj hcheck'
    exact hqualified
  obtain ⟨miss, hmiss, hread⟩ := exists_readMiss h.read hrun
    (mem_qualifiedChecks.mpr ⟨hcheck, hqualified⟩)
  obtain ⟨-, -, heq⟩ := readMiss_eq_ok.mp hread
  have hkey : groupKey miss = (candidate.trigger.scope, candidate.checkId) := by
    rw [heq, ← hscope, ← hcheckEq]
    rfl
  exact ⟨miss, mem_observations.mpr ⟨hmiss, hkey⟩,
    alike_of_run hrunMem hcheck hread hjoined hcalibration.symm (hcheckId.trans hcheckEq.symm)⟩

/-- The greatest duration counted again is the greatest of the lookback. -/
theorem maxDuration_eq {observed : List QualifiedMiss} {joined : List JoinedEvidence}
    (hmisses : ∀ miss ∈ observed, ∃ j ∈ joined, Alike miss j)
    (hjoined : ∀ j ∈ joined, ∃ miss ∈ observed, Alike miss j) :
    maxDuration joined = estimatedRuntime observed := by
  simp only [maxDuration, estimatedRuntime]
  cases hmax : (observed.map (·.durationMs)).max? with
  | none =>
    have hempty : observed = [] := List.map_eq_nil_iff.mp (List.max?_eq_none_iff.mp hmax)
    have hnone : joined = [] := by
      apply List.eq_nil_iff_forall_not_mem.mpr
      intro j hj
      obtain ⟨miss, hmiss, -⟩ := hjoined j hj
      rw [hempty] at hmiss
      cases hmiss
    rw [hnone]
    rfl
  | some longest =>
    obtain ⟨hmem, hle⟩ := List.max?_eq_some_iff.mp hmax
    obtain ⟨miss, hmiss, rfl⟩ := List.mem_map.mp hmem
    have hsome : (joined.map fun row => row.check.durationMs).max? = some (miss.durationMs : Int) := by
      apply List.max?_eq_some_iff.mpr
      constructor
      · obtain ⟨j, hj, halike⟩ := hmisses miss hmiss
        exact List.mem_map.mpr ⟨j, hj, halike.durationMs⟩
      · intro duration hduration
        obtain ⟨j, hj, rfl⟩ := List.mem_map.mp hduration
        obtain ⟨other, hother, halike⟩ := hjoined j hj
        rw [halike.durationMs]
        exact Int.ofNat_le.mpr (hle other.durationMs (List.mem_map_of_mem hother))
    rw [hsome]
    rfl

/-- A column read alike holds the same values on both sides. -/
theorem countDistinct_eq {observed : List QualifiedMiss} {joined : List JoinedEvidence}
    {column : QualifiedMiss → String} {column' : EvidenceRow → String}
    (hcolumn : ∀ miss j, Alike miss j → column' j.evidence = column miss)
    (hmisses : ∀ miss ∈ observed, ∃ j ∈ joined, Alike miss j)
    (hjoined : ∀ j ∈ joined, ∃ miss ∈ observed, Alike miss j) :
    countDistinct column' joined = distinctCount column observed := by
  apply distinct_eq
  intro x
  constructor
  · intro hx
    obtain ⟨j, hj, rfl⟩ := List.mem_map.mp hx
    obtain ⟨miss, hmiss, halike⟩ := hjoined j hj
    exact List.mem_map.mpr ⟨miss, hmiss, (hcolumn miss j halike).symm⟩
  · intro hx
    obtain ⟨miss, hmiss, rfl⟩ := List.mem_map.mp hx
    obtain ⟨j, hj, halike⟩ := hmisses miss hmiss
    exact List.mem_map.mpr ⟨j, hj, hcolumn miss j halike⟩

/-- The two counts agree exactly when all the candidate's stored evidence is in the lookback. -/
theorem GeneratedFrom.recounts_iff (h : GeneratedFrom db policy candidate misses)
    (hrecorded : AllRecorded db) :
    Recounts db candidate ↔ ∀ row ∈ db.evidence.rows, row.candidateId = candidate.candidateId →
      row.checkId = candidate.checkId → InLookback db policy candidate row := by
  have hforward : ∀ miss ∈ observations misses (candidate.trigger.scope, candidate.checkId),
      ∃ j ∈ joinEvidence db candidate, Alike miss j := by
    intro miss hmiss
    exact h.exists_joined hrecorded hmiss
  constructor
  · intro hrecounts row hrow hid hcheckId
    have hsubset : ∀ x ∈ (observations misses (candidate.trigger.scope, candidate.checkId)).map
        (·.calibrationId), x ∈ (joinEvidence db candidate).map fun j => j.evidence.calibrationId := by
      intro x hx
      obtain ⟨miss, hmiss, rfl⟩ := List.mem_map.mp hx
      obtain ⟨j, hj, halike⟩ := hforward miss hmiss
      exact List.mem_map.mpr ⟨j, hj, halike.calibrationId⟩
    have hcount := Nat.le_of_eq (hrecounts.support.trans h.support)
    obtain ⟨joined, hjoined⟩ := hrecorded row hrow
    have hmem : joined ∈ joinEvidence db candidate :=
      mem_joinEvidence.mpr ⟨row, hrow, hid, hcheckId, hjoined⟩
    obtain ⟨_, check, -, -, -, rfl⟩ := joinRow_eq_some.mp hjoined
    have hcalibration := mem_of_distinct_le hsubset hcount row.calibrationId
      (List.mem_map.mpr ⟨_, hmem, rfl⟩)
    obtain ⟨miss, hmiss, hsame⟩ := List.mem_map.mp hcalibration
    obtain ⟨hmissMem, hkey⟩ := mem_observations.mp hmiss
    obtain ⟨run, hrun, check, hcheck, hread⟩ := (mem_readQualifiedMisses h.read).mp hmissMem
    obtain ⟨-, -, heq⟩ := readMiss_eq_ok.mp hread
    rw [heq] at hkey hsame
    obtain ⟨hscope, hcheckEq⟩ := Prod.mk.inj hkey
    exact ⟨run, hrun, hsame, check, (mem_qualifiedChecks.mp hcheck).1, hcheckEq, hscope⟩
  · intro hwindow
    have hback : ∀ j ∈ joinEvidence db candidate,
        ∃ miss ∈ observations misses (candidate.trigger.scope, candidate.checkId),
          Alike miss j := by
      intro j hj
      obtain ⟨row, hrow, hid, hcheckId, hjoined⟩ := mem_joinEvidence.mp hj
      exact h.exists_miss hcheckId hjoined (hwindow row hrow hid hcheckId)
    constructor
    · rw [h.support]
      exact countDistinct_eq (fun _ _ halike => halike.calibrationId) hforward hback
    · rw [h.artifacts]
      exact countDistinct_eq (fun _ _ halike => halike.sourceArtifactSha256) hforward hback
    · rw [h.changes]
      exact countDistinct_eq (fun _ _ halike => halike.candidatePlanDigest) hforward hback
    · rw [h.runtime]
      exact maxDuration_eq hforward hback

end Window

end EvidenceRecount
