import FlowDeck.Policy.EvidenceRecount

/-! Promoting a candidate the latest generation has stored as eligible. -/

namespace EligiblePromotion

open CalibrationHistory PolicyStore CandidateGeneration Promotion PolicyCalls EvidenceRecount
  DistinctCounts Checked

/-- What is asked of the evidence when it is counted again. -/
structure Revalidated (db : PolicyDatabase) (candidate : PolicyCandidate)
    (policy : PromotionPolicy) : Prop where
  recounts : Recounts db candidate
  supportFits : candidate.supportCount ≤ maxU32
  artifactsFit : candidate.distinctSourceArtifactCount ≤ maxU32
  changesFit : candidate.distinctChangeFingerprintCount ≤ maxU32
  misses : policy.minObservedMisses.toNat ≤ candidate.supportCount
  artifacts : policy.minDistinctSourceArtifacts.toNat ≤ candidate.distinctSourceArtifactCount
  changes : policy.minDistinctChangeFingerprints.toNat ≤ candidate.distinctChangeFingerprintCount
  runtime : candidate.estimatedAddedRuntimeMs ≤ policy.maxEstimatedAddedRuntimeMs.toNat

theorem revalidateCandidateEvidence_eq_ok {db : PolicyDatabase} {candidate : PolicyCandidate}
    {policy : PromotionPolicy} :
    revalidateCandidateEvidence db candidate policy = .ok () ↔ Revalidated db candidate policy := by
  simp only [revalidateCandidateEvidence, bind_eq_ok, readCount_eq_ok, refuseIf_eq_ok, not_or,
    ne_eq, not_not, not_lt]
  constructor
  · rintro ⟨support, ⟨hsupportFits, rfl⟩, artifacts, ⟨hartifactsFit, rfl⟩, changes,
      ⟨hchangesFit, rfl⟩, ⟨⟩, hduration, hsupport, hartifacts, hchanges, hruntime, hminMisses,
      hminArtifacts, hminChanges, hmaxRuntime⟩
    have hrecount : maxDuration (joinEvidence db candidate) = candidate.estimatedAddedRuntimeMs := by
      rw [← hruntime, Int.toNat_of_nonneg hduration]
    exact ⟨⟨hsupport, hartifacts, hchanges, hrecount⟩, hsupport ▸ hsupportFits,
      hartifacts ▸ hartifactsFit, hchanges ▸ hchangesFit, hsupport ▸ hminMisses,
      hartifacts ▸ hminArtifacts, hchanges ▸ hminChanges, hruntime ▸ hmaxRuntime⟩
  · intro h
    obtain ⟨⟨hsupport, hartifacts, hchanges, hruntime⟩, hsupportFits, hartifactsFit, hchangesFit,
      hminMisses, hminArtifacts, hminChanges, hmaxRuntime⟩ := h
    have hduration : 0 ≤ maxDuration (joinEvidence db candidate) := by
      rw [hruntime]
      exact Int.natCast_nonneg _
    have htoNat : (maxDuration (joinEvidence db candidate)).toNat =
        candidate.estimatedAddedRuntimeMs := by
      rw [hruntime]
      rfl
    exact ⟨_, ⟨hsupport.symm ▸ hsupportFits, rfl⟩, _, ⟨hartifacts.symm ▸ hartifactsFit, rfl⟩, _,
      ⟨hchanges.symm ▸ hchangesFit, rfl⟩, (), hduration, hsupport, hartifacts, hchanges, htoNat,
      hsupport.symm ▸ hminMisses, hartifacts.symm ▸ hminArtifacts, hchanges.symm ▸ hminChanges,
      htoNat.symm ▸ hmaxRuntime⟩

structure Matches (candidate : PolicyCandidate) (template : MaterializedPolicyTemplate) : Prop where
  checkId : template.check.checkId = candidate.checkId
  scope : template.check.scope = candidate.trigger.scope
  selection : template.check.selection = .policyWidening
  strength : template.check.strength = .structural
  wideningReason : template.check.wideningReason = some "learned_policy_add_check"

/-- The texts of a template's provenance say something. -/
structure Anchored (provenance : PolicyTemplateProvenance) : Prop where
  calibration : isBlank provenance.sourceCalibrationId = false
  artifact : isBlank provenance.sourceArtifactSha256 = false
  record : isBlank provenance.sourceRecordDigest = false

theorem validateMaterializedTemplate_eq_ok {candidate : PolicyCandidate}
    {template : MaterializedPolicyTemplate} :
    validateMaterializedTemplate candidate template = .ok () ↔
      Matches candidate template ∧ Anchored template.provenance := by
  simp only [validateMaterializedTemplate, bind_eq_ok, refuseIf_eq_ok, not_or, ne_eq, not_not,
    Bool.not_eq_true]
  constructor
  · rintro ⟨⟨⟩, ⟨hcheckId, hscope⟩, ⟨⟩, ⟨hselection, hstrength, hwidening⟩, hcalibration, hartifact,
      hrecord⟩
    exact ⟨⟨hcheckId, hscope, hselection, hstrength, hwidening⟩, hcalibration, hartifact, hrecord⟩
  · rintro ⟨⟨hcheckId, hscope, hselection, hstrength, hwidening⟩, hcalibration, hartifact, hrecord⟩
    exact ⟨(), ⟨hcheckId, hscope⟩, (), ⟨hselection, hstrength, hwidening⟩, hcalibration, hartifact,
      hrecord⟩

/-- An eligible candidate of the generation that has just ended, and all that is needed to promote
it: its template, with the qualified provenance, no policy of it, and room under the trigger's cap. -/
structure Offered (d : Digests) (before db : PolicyDatabase) (policy : PromotionPolicy)
    (nowMs : Nat) (candidates : List PolicyCandidate) (candidate : PolicyCandidate)
    (template : MaterializedPolicyTemplate) : Prop where
  generated : generateCandidates d before policy nowMs = .ok (db, candidates)
  mem : candidate ∈ candidates
  eligible : candidate.state = .eligible
  matched : Matches candidate template
  provenance : loadQualifiedTemplateProvenance db candidate = .ok template.provenance
  noPolicy : ∀ p ∈ db.policies.rows, p.candidateId ≠ candidate.candidateId
  cap : (activePolicies db.policies candidate.trigger).length <
    policy.maxAddedChecksPerTrigger.toNat

/-- The promotion succeeds, and the evidence it counted gave the candidate's counts. -/
def PromotedAsGenerated (d : Digests) (db : PolicyDatabase) (candidate : PolicyCandidate)
    (policy : PromotionPolicy) (template : MaterializedPolicyTemplate) (nowMs : Nat) : Prop :=
  (∃ result, promoteCandidate d db candidate.candidateId policy template nowMs = .ok result) ∧
    Recounts db candidate

/-- The state a promotion succeeds in: the candidate's stored evidence is all in the lookback, its
row is its own, a template stored under the same digest is the same, and the names are not taken. -/
structure Unobstructed (d : Digests) (db : PolicyDatabase) (candidate : PolicyCandidate)
    (policy : PromotionPolicy) (template : MaterializedPolicyTemplate) (nowMs : Nat) : Prop where
  lookback : ∀ row ∈ db.evidence.rows, row.candidateId = candidate.candidateId →
    row.checkId = candidate.checkId → InLookback db policy candidate row
  ownRow : ∃ createdAtMs updatedAtMs promotedPolicyId,
    db.candidates.get? candidate.candidateId =
      some { candidate with createdAtMs, updatedAtMs, promotedPolicyId }
  anchored : Anchored template.provenance
  sameTemplate : ∀ stored, db.templates.get? (computeTemplateDigest d template.check) = some stored →
    Promotion.sameTemplate stored (templateRow d candidate template nowMs) = true
  freePolicyId : db.policies.get? (policyIdOf d candidate candidate.promotionPolicyDigest
    (computeTemplateDigest d template.check)) = none
  freePolicyDigest : ∀ p ∈ db.policies.rows,
    p.promotedPolicyDigest ≠ policyDigestOf d candidate (computeTemplateDigest d template.check)
  freeEvent : db.events.get? (promotionEvent d (promotedPolicy d candidate
    candidate.promotionPolicyDigest (computeTemplateDigest d template.check) nowMs)
    nowMs).eventDigest = none

theorem distinctCount_le_maxU32 {db : PolicyDatabase} {policy : PromotionPolicy}
    {misses : List QualifiedMiss} (h : readQualifiedMisses db.runs policy.lookbackLimit.toNat = .ok misses)
    (group : String × String) {column : QualifiedMiss → String} {columnOf : CalibrationRun → String}
    (hcolumn : ∀ run check miss, readMiss run check = .ok miss → column miss = columnOf run) :
    distinctCount column (observations misses group) ≤ maxU32 := by
  have hsubset : ∀ x ∈ (observations misses group).map column,
      x ∈ (qualifiedRuns db.runs policy.lookbackLimit.toNat).map columnOf := by
    intro x hx
    obtain ⟨miss, hmiss, rfl⟩ := List.mem_map.mp hx
    obtain ⟨run, hrun, check, -, hread⟩ :=
      (mem_readQualifiedMisses h).mp (mem_observations.mp hmiss).1
    exact List.mem_map.mpr ⟨run, hrun, (hcolumn run check miss hread).symm⟩
  have hcount := distinct_le_length hsubset
  rw [List.length_map] at hcount
  have hlimit := length_qualifiedRuns_le db.runs policy.lookbackLimit.toNat
  have hbound : policy.lookbackLimit.toNat ≤ maxU32 :=
    Nat.le_of_lt_succ policy.lookbackLimit.toNat_lt
  exact (hcount.trans hlimit).trans hbound

/-- An eligible candidate's own counts meet the thresholds. -/
theorem GeneratedFrom.revalidated {db : PolicyDatabase} {policy : PromotionPolicy}
    {candidate : PolicyCandidate} {misses : List QualifiedMiss}
    (h : GeneratedFrom db policy candidate misses) (heligible : candidate.state = .eligible)
    (hrecounts : Recounts db candidate) : Revalidated db candidate policy := by
  have hmeets : isEligible policy
      (observations misses (candidate.trigger.scope, candidate.checkId)) = true := by
    have hstate := h.state
    rw [heligible] at hstate
    split_ifs at hstate with hmeets
    exact hmeets
  simp only [isEligible, Bool.and_eq_true, decide_eq_true_eq] at hmeets
  obtain ⟨⟨⟨hmisses, hartifacts⟩, hchanges⟩, hruntime⟩ := hmeets
  have hread : ∀ run check miss, readMiss run check = .ok miss →
      miss.calibrationId = run.calibrationId ∧
        miss.sourceArtifactSha256 = run.sourceArtifactSha256.getD "" ∧
        miss.candidatePlanDigest = run.candidatePlanDigest := by
    intro run check miss hok
    obtain ⟨-, -, rfl⟩ := readMiss_eq_ok.mp hok
    exact ⟨rfl, rfl, rfl⟩
  refine ⟨hrecounts, ?_, ?_, ?_, ?_, ?_, ?_, ?_⟩
  · rw [h.support]
    exact distinctCount_le_maxU32 h.read _ fun run check miss hok => (hread run check miss hok).1
  · rw [h.artifacts]
    exact distinctCount_le_maxU32 h.read _ fun run check miss hok => (hread run check miss hok).2.1
  · rw [h.changes]
    exact distinctCount_le_maxU32 h.read _ fun run check miss hok => (hread run check miss hok).2.2
  · rw [h.support]
    exact hmisses
  · rw [h.artifacts]
    exact hartifacts
  · rw [h.changes]
    exact hchanges
  · rw [h.runtime]
    exact hruntime

/-- What a generated candidate carries: its own digest, under the policy's. -/
structure Digested (d : Digests) (policy : PromotionPolicy) (candidate : PolicyCandidate) : Prop where
  policyDigest : computePromotionPolicyDigest d policy = .ok candidate.promotionPolicyDigest
  candidateDigest : computeCandidateDigest d candidate = .ok candidate.candidateDigest
  identified : Identified d candidate
  unpromoted : candidate.promotedPolicyId = none

theorem digested_of_mem {d : Digests} {before db : PolicyDatabase} {policy : PromotionPolicy}
    {nowMs : Nat} {candidates : List PolicyCandidate} {candidate : PolicyCandidate}
    (h : generateCandidates d before policy nowMs = .ok (db, candidates))
    (hmem : candidate ∈ candidates) : Digested d policy candidate := by
  obtain ⟨policyDigest, misses, hdigest, -, hgroups⟩ := generateCandidates_eq_ok.mp h
  obtain ⟨group, -, hcandidate⟩ := group_of_mem hgroups hmem
  have hidentified := identified_of_candidateOf hcandidate
  obtain ⟨-, hsafe, heq⟩ := candidateOf_eq_ok.mp hcandidate
  have hpolicy : candidate.promotionPolicyDigest = policyDigest := by
    rw [heq]
    rfl
  have hruntime : candidate.estimatedAddedRuntimeMs ≤ maxSafeInteger := by
    rw [heq]
    exact hsafe
  have hown : d.sha256 (d.canonicalCandidate (digestInput candidate)) =
      candidate.candidateDigest := by
    rw [heq]
    rfl
  refine ⟨hpolicy ▸ hdigest, computeCandidateDigest_eq_ok.mpr ⟨hruntime, hown⟩, hidentified, ?_⟩
  rw [heq]
  rfl

theorem eq_of_reads {row candidate : PolicyCandidate}
    (hid : row.candidateId = candidate.candidateId)
    (hdigest : row.candidateDigest = candidate.candidateDigest)
    (hinput : digestInput row = digestInput candidate) :
    row = { candidate with
      createdAtMs := row.createdAtMs
      updatedAtMs := row.updatedAtMs
      promotedPolicyId := row.promotedPolicyId } := by
  obtain ⟨id, version, trigger, check, digest, policyDigest, support, artifacts, changes, runtime,
    state, created, updated, promoted⟩ := row
  simp only [digestInput, CandidateDigestInput.mk.injEq] at hinput
  obtain ⟨rfl, rfl, rfl, rfl, rfl, rfl, rfl, rfl, rfl⟩ := hinput
  simp only at hid hdigest
  rw [hid, hdigest]

theorem triggers_eq {a b : LearnedPolicyTrigger} (hkind : a.kind = b.kind)
    (hscope : a.scope = b.scope) : a = b := by
  obtain ⟨kind, scope⟩ := a
  simp only at hkind hscope
  rw [hkind, hscope]

section Promotion

variable {d : Digests} {before db : PolicyDatabase} {policy : PromotionPolicy} {nowMs promotedAtMs : Nat}
  {candidates : List PolicyCandidate} {candidate : PolicyCandidate}
  {template : MaterializedPolicyTemplate}

theorem Unobstructed.promotedAsGenerated (h : Unobstructed d db candidate policy template promotedAtMs)
    (hoffered : Offered d before db policy nowMs candidates candidate template)
    (hrecorded : AllRecorded db) :
    PromotedAsGenerated d db candidate policy template promotedAtMs := by
  obtain ⟨misses, hfrom⟩ := generatedFrom_of_mem hoffered.generated hoffered.mem
  have hdigested := digested_of_mem hoffered.generated hoffered.mem
  have hrecounts := (hfrom.recounts_iff hrecorded).mpr h.lookback
  have hrevalidated := GeneratedFrom.revalidated hfrom hoffered.eligible hrecounts
  obtain ⟨createdAtMs, updatedAtMs, promotedPolicyId, hrow⟩ := h.ownRow
  have hcap : (activePolicies db.policies candidate.trigger).length ≤ maxU32 :=
    (Nat.le_of_lt hoffered.cap).trans (Nat.le_of_lt_succ policy.maxAddedChecksPerTrigger.toNat_lt)
  -- the row differs from the candidate only in what a promotion does not read
  have hcheck : checkPromotion d db { candidate with createdAtMs, updatedAtMs, promotedPolicyId }
      policy template = .ok () := by
    apply checkPromotion_eq_ok.mpr
    refine ⟨hoffered.eligible, hdigested.candidateDigest, ?_, ?_, hoffered.provenance, hcap,
      hoffered.cap⟩
    · have hok := revalidateCandidateEvidence_eq_ok.mpr hrevalidated
      exact hok
    · have hok := validateMaterializedTemplate_eq_ok.mpr ⟨hoffered.matched, h.anchored⟩
      exact hok
  obtain ⟨policies, hpolicies⟩ := Table.exists_insert? (r := promotedPolicy d candidate
    candidate.promotionPolicyDigest (computeTemplateDigest d template.check) promotedAtMs)
    h.freePolicyId
  obtain ⟨events, hevents⟩ := Table.exists_insert? h.freeEvent
  have hwrites : ∃ after promoted, Writes d db after
      { candidate with createdAtMs, updatedAtMs, promotedPolicyId }
      candidate.promotionPolicyDigest template promotedAtMs promoted := by
    refine ⟨{ db with
      templates := db.templates.insertOrIgnore (templateRow d candidate template promotedAtMs)
      policies
      candidates := markPromoted db.candidates candidate.candidateId
        (policyIdOf d candidate candidate.promotionPolicyDigest
          (computeTemplateDigest d template.check)) promotedAtMs
      events }, _, rfl, rfl, rfl, ?_, ?_, rfl, hevents⟩
    · exact persistTemplate_eq_ok.mpr ⟨h.sameTemplate, rfl, rfl⟩
    · exact insertPolicy_eq_ok.mpr ⟨hpolicies, hoffered.noPolicy, h.freePolicyDigest⟩
  obtain ⟨after, promoted, hwrites⟩ := hwrites
  have hopen : candidate.state ≠ .promoted := by
    rw [hoffered.eligible]
    decide
  refine ⟨⟨(after, promoted), promoteCandidate_eq_ok.mpr ?_⟩, hrecounts⟩
  exact ⟨_, hrow, hdigested.policyDigest, .inr ⟨hopen, hcheck, hwrites⟩⟩

theorem PromotedAsGenerated.unobstructed
    (h : PromotedAsGenerated d db candidate policy template promotedAtMs)
    (hoffered : Offered d before db policy nowMs candidates candidate template)
    (hsound : Sound d db) (hrecorded : AllRecorded db) :
    Unobstructed d db candidate policy template promotedAtMs := by
  obtain ⟨⟨⟨after, promoted⟩, hpromote⟩, hrecounts⟩ := h
  obtain ⟨misses, hfrom⟩ := generatedFrom_of_mem hoffered.generated hoffered.mem
  have hdigested := digested_of_mem hoffered.generated hoffered.mem
  obtain ⟨row, hrow, hdigest, ⟨-, hload, -⟩ | ⟨-, hcheck, hwrites⟩⟩ :=
    promoteCandidate_eq_ok.mp hpromote
  · have hid : promoted.candidateId = candidate.candidateId := by
      simpa using List.find?_some hload
    exact absurd hid (hoffered.noPolicy promoted (List.mem_of_find?_eq_some hload))
  · obtain ⟨heligible, hrowDigest, hrevalidate, hvalidate, -, -, -⟩ :=
      checkPromotion_eq_ok.mp hcheck
    obtain ⟨hmatched, hanchored⟩ := validateMaterializedTemplate_eq_ok.mp hvalidate
    have hid : row.candidateId = candidate.candidateId := Table.key_of_get? hrow
    have hcheckId : row.checkId = candidate.checkId :=
      hmatched.checkId.symm.trans hoffered.matched.checkId
    obtain ⟨-, hversion, hkind⟩ := hsound.identified _ row hrow
    have htrigger : row.trigger = candidate.trigger := by
      have hscope := hmatched.scope.symm.trans hoffered.matched.scope
      have hsameKind := hkind.trans hdigested.identified.2.2.symm
      exact triggers_eq hsameKind hscope
    have hpolicy : row.promotionPolicyDigest = candidate.promotionPolicyDigest :=
      Except.ok.inj (hdigest.symm.trans hdigested.policyDigest)
    have hjoin : joinEvidence db row = joinEvidence db candidate := by
      simp only [joinEvidence, hid, hcheckId]
    obtain ⟨hsupport, hartifacts, hchanges, hruntime⟩ :=
      (revalidateCandidateEvidence_eq_ok.mp hrevalidate).recounts
    rw [hjoin] at hsupport hartifacts hchanges hruntime
    have hinput : digestInput row = digestInput candidate := by
      have hversionEq := hversion.trans hdigested.identified.2.1.symm
      have hstate := heligible.trans hoffered.eligible.symm
      have hruntimeEq : row.estimatedAddedRuntimeMs = candidate.estimatedAddedRuntimeMs :=
        Int.ofNat.inj (hruntime.symm.trans hrecounts.runtime)
      simp only [digestInput, hversionEq, htrigger, hcheckId, hpolicy, hstate, hruntimeEq,
        hsupport.symm.trans hrecounts.support, hartifacts.symm.trans hrecounts.artifacts,
        hchanges.symm.trans hrecounts.changes]
    have hcandidateDigest : row.candidateDigest = candidate.candidateDigest := by
      obtain ⟨-, hrowDigest⟩ := computeCandidateDigest_eq_ok.mp hrowDigest
      obtain ⟨-, hownDigest⟩ := computeCandidateDigest_eq_ok.mp hdigested.candidateDigest
      rw [← hrowDigest, hinput, hownDigest]
    have hrowEq := eq_of_reads hid hcandidateDigest hinput
    rw [hrowEq] at hwrites hrow
    obtain ⟨hpromoted, -, -, htemplates, hpolicies, -, hevents⟩ := hwrites
    obtain ⟨hsame, -, -⟩ := persistTemplate_eq_ok.mp htemplates
    obtain ⟨hinsert, -, hfreeDigest⟩ := insertPolicy_eq_ok.mp hpolicies
    rw [hpromoted] at hinsert hfreeDigest hevents
    exact ⟨(hfrom.recounts_iff hrecorded).mp hrecounts, ⟨_, _, _, hrow⟩, hanchored, hsame,
      (Table.insert?_eq_some hinsert).1, hfreeDigest, (Table.insert?_eq_some hevents).1⟩

end Promotion

theorem sound_after {d : Digests} {calls : List PolicyCall} {before db : PolicyDatabase}
    {policy : PromotionPolicy} {nowMs : Nat} {candidates : List PolicyCandidate}
    (hrun : Machine.run (step d) .empty calls = some before)
    (h : generateCandidates d before policy nowMs = .ok (db, candidates)) :
    Sound d db ∧ AllRecorded db := by
  obtain ⟨-, hpolicies, -⟩ := generateCandidates_frame h
  exact ⟨(sound_of_run hrun).of_evolves hpolicies (evolves_generateCandidates h),
    (allRecorded_of_run hrun).generate h⟩

/-- After any calls, an eligible candidate just generated is promoted exactly where it is
unobstructed. -/
theorem promotedAsGenerated_iff {d : Digests} {calls : List PolicyCall} {before db : PolicyDatabase}
    {policy : PromotionPolicy} {nowMs : Nat} {candidates : List PolicyCandidate}
    {candidate : PolicyCandidate} {template : MaterializedPolicyTemplate} (promotedAtMs : Nat)
    (hrun : Machine.run (step d) .empty calls = some before)
    (hoffered : Offered d before db policy nowMs candidates candidate template) :
    PromotedAsGenerated d db candidate policy template promotedAtMs ↔
      Unobstructed d db candidate policy template promotedAtMs := by
  obtain ⟨hsound, hrecorded⟩ := sound_after hrun hoffered.generated
  constructor
  · intro h
    exact h.unobstructed hoffered hsound hrecorded
  · intro h
    exact h.promotedAsGenerated hoffered hrecorded

instance (candidate : PolicyCandidate) (template : MaterializedPolicyTemplate) :
    Decidable (Matches candidate template) :=
  decidable_of_iff (template.check.checkId = candidate.checkId ∧
      template.check.scope = candidate.trigger.scope ∧
      template.check.selection = .policyWidening ∧ template.check.strength = .structural ∧
      template.check.wideningReason = some "learned_policy_add_check")
    ⟨fun ⟨hcheckId, hscope, hselection, hstrength, hwidening⟩ =>
        ⟨hcheckId, hscope, hselection, hstrength, hwidening⟩,
      fun h => ⟨h.checkId, h.scope, h.selection, h.strength, h.wideningReason⟩⟩

instance (db : PolicyDatabase) (candidate : PolicyCandidate) : Decidable (Recounts db candidate) :=
  decidable_of_iff
    (countDistinct (·.calibrationId) (joinEvidence db candidate) = candidate.supportCount ∧
      countDistinct (·.sourceArtifactSha256) (joinEvidence db candidate) =
        candidate.distinctSourceArtifactCount ∧
      countDistinct (·.candidatePlanDigest) (joinEvidence db candidate) =
        candidate.distinctChangeFingerprintCount ∧
      maxDuration (joinEvidence db candidate) = candidate.estimatedAddedRuntimeMs)
    ⟨fun ⟨hsupport, hartifacts, hchanges, hruntime⟩ => ⟨hsupport, hartifacts, hchanges, hruntime⟩,
      fun h => ⟨h.support, h.artifacts, h.changes, h.runtime⟩⟩

/-- What `Offered` asks of a candidate of the generation, computed. -/
def isOffered (db : PolicyDatabase) (policy : PromotionPolicy) (candidate : PolicyCandidate)
    (template : MaterializedPolicyTemplate) : Bool :=
  decide (candidate.state = .eligible) && decide (Matches candidate template) &&
    decide ((loadQualifiedTemplateProvenance db candidate).toOption = some template.provenance) &&
    db.policies.rows.all (fun p => decide (p.candidateId ≠ candidate.candidateId)) &&
    decide ((activePolicies db.policies candidate.trigger).length <
      policy.maxAddedChecksPerTrigger.toNat)

theorem exists_offered {d : Digests} {before : PolicyDatabase} {policy : PromotionPolicy}
    {nowMs : Nat} {template : MaterializedPolicyTemplate}
    (p : PolicyDatabase → PolicyCandidate → Bool)
    (h : (generateCandidates d before policy nowMs).toOption.any (fun result =>
      result.2.any fun candidate =>
        isOffered result.1 policy candidate template && p result.1 candidate) = true) :
    ∃ db candidates candidate, Offered d before db policy nowMs candidates candidate template ∧
      p db candidate = true := by
  obtain ⟨⟨db, candidates⟩, hgenerate, hany⟩ := exists_of_toOption h
  obtain ⟨candidate, hmem, hfacts⟩ := List.any_eq_true.mp hany
  obtain ⟨hoffered, hp⟩ := Bool.and_eq_true_iff.mp hfacts
  simp only [isOffered, Bool.and_eq_true, decide_eq_true_eq, List.all_eq_true] at hoffered
  obtain ⟨⟨⟨⟨heligible, hmatched⟩, hprovenance⟩, hnoPolicy⟩, hcap⟩ := hoffered
  exact ⟨db, candidates, candidate, ⟨hgenerate, hmem, heligible, hmatched,
    toOption_eq_some hprovenance, hnoPolicy, hcap⟩, hp⟩

/-- Two runs, both in the lookback: nothing is in the way. -/
theorem promoted_within_lookback : ∃ before db candidates candidate,
    Machine.run (step plainDigests) .empty
      [.calibrate (missedRun "a" 1), .calibrate (missedRun "b" 2)] = some before ∧
    Offered plainDigests before db twoMisses 3 candidates candidate (unitTemplate "a") ∧
    Unobstructed plainDigests db candidate twoMisses (unitTemplate "a") 4 := by
  obtain ⟨before, hrun⟩ : ∃ before, Machine.run (step plainDigests) .empty
      [.calibrate (missedRun "a" 1), .calibrate (missedRun "b" 2)] = some before := ⟨_, rfl⟩
  have hcheck : (generateCandidates plainDigests before twoMisses 3).toOption.any (fun result =>
      result.2.any fun candidate => isOffered result.1 twoMisses candidate (unitTemplate "a") &&
        ((promoteCandidate plainDigests result.1 candidate.candidateId twoMisses (unitTemplate "a")
          4).toOption.any (fun _ => true) && decide (Recounts result.1 candidate))) = true := by
    obtain rfl := Option.some.inj hrun
    decide +kernel
  obtain ⟨db, candidates, candidate, hoffered, hpromoted⟩ := exists_offered (fun db candidate =>
    (promoteCandidate plainDigests db candidate.candidateId twoMisses (unitTemplate "a")
      4).toOption.any (fun _ => true) && decide (Recounts db candidate)) hcheck
  obtain ⟨hpromote, hrecounts⟩ := Bool.and_eq_true_iff.mp hpromoted
  obtain ⟨result, hresult, -⟩ := exists_of_toOption hpromote
  have hboth : PromotedAsGenerated plainDigests db candidate twoMisses (unitTemplate "a") 4 :=
    ⟨⟨result, hresult⟩, of_decide_eq_true hrecounts⟩
  exact ⟨before, db, candidates, candidate, hrun, hoffered,
    (promotedAsGenerated_iff 4 hrun hoffered).mp hboth⟩

/-- Three runs, a lookback of two and a generation after the second and the third: the first run is
counted again, and the promotion refused. -/
theorem evidence_left_lookback : ∃ before db candidates candidate,
    Machine.run (step plainDigests) .empty
      [.calibrate (missedRun "a" 1), .calibrate (missedRun "b" 2), .generate twoMisses 3,
        .calibrate (missedRun "c" 4)] = some before ∧
    Offered plainDigests before db twoMisses 5 candidates candidate (unitTemplate "a") ∧
    ∀ result, promoteCandidate plainDigests db candidate.candidateId twoMisses (unitTemplate "a") 6 ≠
      .ok result := by
  obtain ⟨before, hrun⟩ : ∃ before, Machine.run (step plainDigests) .empty
      [.calibrate (missedRun "a" 1), .calibrate (missedRun "b" 2), .generate twoMisses 3,
        .calibrate (missedRun "c" 4)] = some before := ⟨_, rfl⟩
  have hcheck : (generateCandidates plainDigests before twoMisses 5).toOption.any (fun result =>
      result.2.any fun candidate => isOffered result.1 twoMisses candidate (unitTemplate "a") &&
        !(promoteCandidate plainDigests result.1 candidate.candidateId twoMisses (unitTemplate "a")
          6).toOption.isSome) = true := by
    obtain rfl := Option.some.inj hrun
    decide +kernel
  obtain ⟨db, candidates, candidate, hoffered, hrefused⟩ := exists_offered (fun db candidate =>
    !(promoteCandidate plainDigests db candidate.candidateId twoMisses (unitTemplate "a")
      6).toOption.isSome) hcheck
  refine ⟨before, db, candidates, candidate, hrun, hoffered, ?_⟩
  intro result hresult
  rw [hresult] at hrefused
  cases hrefused

end EligiblePromotion
