import FlowDeck.Policy.CandidateGeneration

namespace Promotion

open CalibrationHistory PolicyStore Checked

structure PolicyTemplateProvenance where
  sourceCalibrationId : String
  sourceArtifactSha256 : String
  sourceRecordDigest : String
  deriving DecidableEq

structure MaterializedPolicyTemplate where
  check : PlannedCheck
  provenance : PolicyTemplateProvenance
  deriving DecidableEq

/-- A row of evidence beside the check of the run it was taken from. -/
structure JoinedEvidence where
  evidence : EvidenceRow
  check : CalibrationCheck
  deriving DecidableEq

/-- The join both evidence queries make; a run is still what the evidence says of it. -/
def joinRow (runs : CalibrationRuns) (row : EvidenceRow) : Option JoinedEvidence := do
  let run ← runs.get? row.calibrationId
  let check ← run.checks.get? row.checkId
  guard (isQualifiedRun run ∧ run.sourceArtifactSha256 = some row.sourceArtifactSha256 ∧
    run.recordDigest = some row.calibrationRecordDigest ∧
    run.candidatePlanDigest = row.candidatePlanDigest ∧ isQualifiedCheck check)
  return { evidence := row, check }

def joinEvidence (db : PolicyDatabase) (candidate : PolicyCandidate) : List JoinedEvidence :=
  (db.evidence.rows.filter fun row =>
    row.candidateId = candidate.candidateId && row.checkId = candidate.checkId).filterMap
    (joinRow db.runs)

/-- `ORDER BY` calibration, artifact, plan, record. -/
def provenanceOrder (a b : EvidenceRow) : Bool :=
  decide (a.calibrationId < b.calibrationId) ||
    decide (a.calibrationId = b.calibrationId) &&
      (decide (a.sourceArtifactSha256 < b.sourceArtifactSha256) ||
        decide (a.sourceArtifactSha256 = b.sourceArtifactSha256) &&
          (decide (a.candidatePlanDigest < b.candidatePlanDigest) ||
            decide (a.candidatePlanDigest = b.candidatePlanDigest) &&
              decide (a.calibrationRecordDigest ≤ b.calibrationRecordDigest)))

def loadQualifiedTemplateProvenance (db : PolicyDatabase) (candidate : PolicyCandidate) :
    Except String PolicyTemplateProvenance :=
  let joined := (joinEvidence db candidate).filter fun row =>
    row.check.scope = candidate.trigger.scope
  match (joined.map (·.evidence)).insertionSort fun a b => provenanceOrder a b = true with
  | [] => .error
      "candidate has no qualified source provenance for template: Query returned no rows"
  | row :: _ => .ok {
      sourceCalibrationId := row.calibrationId
      sourceArtifactSha256 := row.sourceArtifactSha256
      sourceRecordDigest := row.calibrationRecordDigest }

def countDistinct (column : EvidenceRow → String) (joined : List JoinedEvidence) : Nat :=
  (joined.map fun row => column row.evidence).dedup.length

/-- `COALESCE(MAX(c.duration_ms), 0)`. -/
def maxDuration (joined : List JoinedEvidence) : Int :=
  ((joined.map fun row => row.check.durationMs).max?).getD 0

def maxU32 : Nat := 4294967295

/-- A count read back into a `u32`. -/
def readCount (count : Nat) (error : String) : Except String Nat :=
  if maxU32 < count then .error error else .ok count

def revalidateCandidateEvidence (db : PolicyDatabase) (candidate : PolicyCandidate)
    (policy : PromotionPolicy) : Except String Unit := do
  let joined := joinEvidence db candidate
  let support ← readCount (countDistinct (·.calibrationId) joined)
    "invalid revalidated support count"
  let artifactCount ← readCount (countDistinct (·.sourceArtifactSha256) joined)
    "invalid revalidated artifact count"
  let planCount ← readCount (countDistinct (·.candidatePlanDigest) joined)
    "invalid revalidated plan count"
  let duration := maxDuration joined
  refuseIf (duration < 0) "invalid revalidated duration"
  refuseIf (support ≠ candidate.supportCount ∨
      artifactCount ≠ candidate.distinctSourceArtifactCount ∨
      planCount ≠ candidate.distinctChangeFingerprintCount ∨
      duration.toNat ≠ candidate.estimatedAddedRuntimeMs ∨
      support < policy.minObservedMisses.toNat ∨
      artifactCount < policy.minDistinctSourceArtifacts.toNat ∨
      planCount < policy.minDistinctChangeFingerprints.toNat ∨
      policy.maxEstimatedAddedRuntimeMs.toNat < duration.toNat)
    "candidate evidence no longer satisfies qualified promotion requirements"

def validateMaterializedTemplate (candidate : PolicyCandidate)
    (template : MaterializedPolicyTemplate) : Except String Unit := do
  refuseIf (template.check.checkId ≠ candidate.checkId ∨
      template.check.scope ≠ candidate.trigger.scope)
    "template check identity or scope does not match the qualified candidate"
  refuseIf (template.check.selection ≠ .policyWidening ∨ template.check.strength ≠ .structural ∨
      template.check.wideningReason ≠ some "learned_policy_add_check")
    "template is not an M11 additive policy-widening check"
  refuseIf (isBlank template.provenance.sourceCalibrationId ∨
      isBlank template.provenance.sourceArtifactSha256 ∨
      isBlank template.provenance.sourceRecordDigest)
    "template has incomplete qualified M10 provenance"

def templateRow (d : Digests) (candidate : PolicyCandidate)
    (template : MaterializedPolicyTemplate) (nowMs : Nat) : TemplateRow where
  templateDigest := computeTemplateDigest d template.check
  checkId := candidate.checkId
  plannedCheckJson := d.canonicalCheck template.check
  sourceCalibrationId := template.provenance.sourceCalibrationId
  sourceArtifactSha256 := template.provenance.sourceArtifactSha256
  sourceRecordDigest := template.provenance.sourceRecordDigest
  createdAtMs := nowMs

/-- The stored template says what the new one would, when it was stored apart. -/
def sameTemplate (a b : TemplateRow) : Bool :=
  a.checkId = b.checkId && a.plannedCheckJson = b.plannedCheckJson &&
    a.sourceCalibrationId = b.sourceCalibrationId &&
    a.sourceArtifactSha256 = b.sourceArtifactSha256 && a.sourceRecordDigest = b.sourceRecordDigest

/-- `ON CONFLICT DO NOTHING`, and the row under the digest is read again. -/
def persistTemplate (d : Digests) (templates : Table TemplateRow.templateDigest)
    (candidate : PolicyCandidate) (template : MaterializedPolicyTemplate) (nowMs : Nat) :
    Except String (Table TemplateRow.templateDigest × String) :=
  let row := templateRow d candidate template nowMs
  let persisted := templates.insertOrIgnore row
  match persisted.get? row.templateDigest with
  | none => .error "failed to reread persisted policy template: Query returned no rows"
  | some stored =>
    if sameTemplate stored row then .ok (persisted, row.templateDigest)
    else .error "existing policy template digest has conflicting or corrupt provenance"

def policyIdOf (d : Digests) (candidate : PolicyCandidate) (requiredDigest templateDigest : String) :
    String :=
  "policy_" ++ d.sha256 (candidate.candidateId ++ ":" ++ candidate.candidateDigest ++ ":" ++
    requiredDigest ++ ":" ++ templateDigest)

/-- The digest is identity-bearing: it covers the template a policy authorizes. -/
def policyDigestOf (d : Digests) (candidate : PolicyCandidate) (templateDigest : String) : String :=
  d.sha256 (toString policyContractVersion ++ ":" ++ candidate.candidateId ++ ":" ++
    PolicyAction.addCheck.text ++ ":" ++ candidate.trigger.kind ++ ":" ++ candidate.trigger.scope ++
    ":" ++ candidate.checkId ++ ":" ++ templateDigest)

def promotedPolicy (d : Digests) (candidate : PolicyCandidate)
    (requiredDigest templateDigest : String) (nowMs : Nat) : PromotedPolicy where
  policyId := policyIdOf d candidate requiredDigest templateDigest
  policyContractVersion := policyContractVersion
  candidateId := candidate.candidateId
  action := .addCheck
  trigger := candidate.trigger
  checkId := candidate.checkId
  templateDigest := templateDigest
  candidateDigest := candidate.candidateDigest
  promotionPolicyDigest := requiredDigest
  promotedPolicyDigest := policyDigestOf d candidate templateDigest
  state := .promoted
  promotedAtMs := nowMs
  revokedAtMs := none
  revokeReason := none

def insertPolicy (policies : Table PromotedPolicy.policyId) (policy : PromotedPolicy) :
    Except String (Table PromotedPolicy.policyId) :=
  match policies.insert? policy with
  | none => .error
      "failed to persist promoted policy: UNIQUE constraint failed: promoted_policies.policy_id"
  | some inserted =>
    if policies.rows.any fun row => row.candidateId = policy.candidateId then
      .error ("failed to persist promoted policy: UNIQUE constraint failed: " ++
        "promoted_policies.candidate_id")
    else if policies.rows.any fun row =>
        row.promotedPolicyDigest = policy.promotedPolicyDigest then
      .error ("failed to persist promoted policy: UNIQUE constraint failed: " ++
        "promoted_policies.promoted_policy_digest")
    else .ok inserted

def promote (policyId : String) (nowMs : Nat) (row : PolicyCandidate) : PolicyCandidate :=
  { row with state := .promoted, promotedPolicyId := some policyId, updatedAtMs := nowMs }

theorem promote_candidateId (policyId : String) (nowMs : Nat) (row : PolicyCandidate) :
    (promote policyId nowMs row).candidateId = row.candidateId := rfl

/-- `UPDATE policy_candidates … WHERE candidate_id = ?1`. -/
def markPromoted (candidates : Table PolicyCandidate.candidateId) (candidateId policyId : String)
    (nowMs : Nat) : Table PolicyCandidate.candidateId :=
  candidates.update (fun row => row.candidateId = candidateId) (promote policyId nowMs)
    (promote_candidateId policyId nowMs)

def promotionEvent (d : Digests) (policy : PromotedPolicy) (nowMs : Nat) : PolicyEvent where
  eventDigest := d.sha256 ("promotion:" ++ policy.policyId ++ ":" ++ policy.promotedPolicyDigest)
  policyId := policy.policyId
  eventKind := .promoted
  reason := none
  createdAtMs := nowMs

def insertEvent (events : Table PolicyEvent.eventDigest) (event : PolicyEvent) :
    Except String (Table PolicyEvent.eventDigest) :=
  match events.insert? event with
  | none => .error
      "failed to append promotion event: UNIQUE constraint failed: policy_events.event_id"
  | some inserted => .ok inserted

def activePolicies (policies : Table PromotedPolicy.policyId) (trigger : LearnedPolicyTrigger) :
    List PromotedPolicy :=
  policies.rows.filter fun row => row.state = .promoted && row.trigger = trigger

/-- What a promotion checks of a candidate it has found neither stale nor already promoted. -/
def checkPromotion (d : Digests) (db : PolicyDatabase) (candidate : PolicyCandidate)
    (policy : PromotionPolicy) (template : MaterializedPolicyTemplate) : Except String Unit := do
  refuseIf (candidate.state ≠ .eligible)
    "candidate does not satisfy current promotion thresholds"
  let candidateDigest ← computeCandidateDigest d candidate
  refuseIf (candidateDigest ≠ candidate.candidateDigest)
    "candidate digest is corrupt; refusing promotion"
  revalidateCandidateEvidence db candidate policy
  validateMaterializedTemplate candidate template
  let qualified ← loadQualifiedTemplateProvenance db candidate
  refuseIf (qualified ≠ template.provenance)
    "template provenance is not the deterministic currently qualified M10 source"
  let active ← readCount (activePolicies db.policies candidate.trigger).length
    "invalid active policy count"
  refuseIf (policy.maxAddedChecksPerTrigger.toNat ≤ active)
    "promotion would exceed the configured additive check cap for this trigger"

def writePromotion (d : Digests) (db : PolicyDatabase) (candidate : PolicyCandidate)
    (requiredDigest : String) (template : MaterializedPolicyTemplate) (nowMs : Nat) :
    Except String (PolicyDatabase × PromotedPolicy) := do
  let (templates, templateDigest) ← persistTemplate d db.templates candidate template nowMs
  let promoted := promotedPolicy d candidate requiredDigest templateDigest nowMs
  let policies ← insertPolicy db.policies promoted
  let events ← insertEvent db.events (promotionEvent d promoted nowMs)
  return ({ db with
    templates
    policies
    candidates := markPromoted db.candidates candidate.candidateId promoted.policyId nowMs
    events }, promoted)

def loadPolicyByCandidate (db : PolicyDatabase) (candidateId : String) : Option PromotedPolicy :=
  db.policies.rows.find? fun row => row.candidateId = candidateId

/-- `promote_candidate_with_materialized_template`. -/
def promoteCandidate (d : Digests) (db : PolicyDatabase) (candidateId : String)
    (policy : PromotionPolicy) (template : MaterializedPolicyTemplate) (nowMs : Nat) :
    Except String (PolicyDatabase × PromotedPolicy) := do
  let requiredDigest ← computePromotionPolicyDigest d policy
  match db.candidates.get? candidateId with
  | none => throw ("policy candidate '" ++ candidateId ++ "' was not found")
  | some candidate =>
    if candidate.promotionPolicyDigest ≠ requiredDigest then
      throw "candidate promotion configuration is stale; regenerate candidate before promotion"
    else if candidate.state = .promoted then
      match loadPolicyByCandidate db candidateId with
      | none => throw "promoted candidate has no active policy record"
      | some existing => return (db, existing)
    else
      checkPromotion d db candidate policy template
      writePromotion d db candidate requiredDigest template nowMs

/-- The reasons `revoke_policy` does not take. -/
def isDisallowedReason (reason : String) : Bool :=
  isBlank reason || containsText reason "/home/" || containsText reason "/Users/" ||
    containsText reason "Bearer " || containsText reason "sk-"

def revocationEvent (d : Digests) (policyId reason : String) (nowMs : Nat) : PolicyEvent where
  eventDigest := d.sha256 ("revocation:" ++ policyId ++ ":" ++ reason ++ ":" ++ toString nowMs)
  policyId := policyId
  eventKind := .revoked
  reason := some reason
  createdAtMs := nowMs

def revokeCandidate (nowMs : Nat) (row : PolicyCandidate) : PolicyCandidate :=
  { row with state := .revoked, updatedAtMs := nowMs }

theorem revokeCandidate_candidateId (nowMs : Nat) (row : PolicyCandidate) :
    (revokeCandidate nowMs row).candidateId = row.candidateId := rfl

def revoke (reason : String) (nowMs : Nat) (row : PromotedPolicy) : PromotedPolicy :=
  { row with state := .revoked, revokedAtMs := some nowMs, revokeReason := some reason }

theorem revoke_policyId (reason : String) (nowMs : Nat) (row : PromotedPolicy) :
    (revoke reason nowMs row).policyId = row.policyId := rfl

def markRevoked (candidates : Table PolicyCandidate.candidateId) (candidateId : String)
    (nowMs : Nat) : Table PolicyCandidate.candidateId :=
  candidates.update (fun row => row.candidateId = candidateId) (revokeCandidate nowMs)
    (revokeCandidate_candidateId nowMs)

/-- `WHERE policy_id = ?1 AND state = 'promoted'`. -/
def isRevocable (policyId : String) (row : PromotedPolicy) : Bool :=
  decide (row.policyId = policyId) && decide (row.state = .promoted)

def revokePolicy (d : Digests) (db : PolicyDatabase) (policyId reason : String) (nowMs : Nat) :
    Except String PolicyDatabase :=
  if isDisallowedReason reason then
    .error "revocation reason is empty or contains disallowed private material"
  else match db.policies.get? policyId with
  | none => .error ("policy '" ++ policyId ++ "' was not found")
  | some row =>
    if db.policies.changes (isRevocable policyId) = 0 then .ok db
    else .ok { db with
      policies := db.policies.update (isRevocable policyId) (revoke reason nowMs)
        (revoke_policyId reason nowMs)
      candidates := markRevoked db.candidates row.candidateId nowMs
      events := db.events.insertOrIgnore (revocationEvent d policyId reason nowMs) }

variable {candidateId : String} {d : Digests} {db db' : PolicyDatabase}
  {candidate : PolicyCandidate} {template : MaterializedPolicyTemplate} {nowMs : Nat}

theorem setCandidate_pos {f : PolicyCandidate → PolicyCandidate} {row : PolicyCandidate}
    (h : row.candidateId = candidateId) :
    Table.setWhere (fun other => decide (other.candidateId = candidateId)) f row = f row := by
  simp [Table.setWhere, h]

theorem setCandidate_neg {f : PolicyCandidate → PolicyCandidate} {row : PolicyCandidate}
    (h : row.candidateId ≠ candidateId) :
    Table.setWhere (fun other => decide (other.candidateId = candidateId)) f row = row := by
  simp [Table.setWhere, h]

theorem readCount_eq_ok {count n : Nat} {error : String} :
    readCount count error = .ok n ↔ count ≤ maxU32 ∧ count = n := by
  unfold readCount
  rw [guard_eq_ok, not_lt, Except.ok.injEq]

theorem checkPromotion_eq_ok {policy : PromotionPolicy} :
    checkPromotion d db candidate policy template = .ok () ↔
      candidate.state = .eligible ∧ computeCandidateDigest d candidate = .ok candidate.candidateDigest ∧
        revalidateCandidateEvidence db candidate policy = .ok () ∧
        validateMaterializedTemplate candidate template = .ok () ∧
        loadQualifiedTemplateProvenance db candidate = .ok template.provenance ∧
        (activePolicies db.policies candidate.trigger).length ≤ maxU32 ∧
        (activePolicies db.policies candidate.trigger).length <
          policy.maxAddedChecksPerTrigger.toNat := by
  simp only [checkPromotion, bind_eq_ok, refuseIf_eq_ok, readCount_eq_ok, ne_eq, not_not, not_le]
  constructor
  · rintro ⟨⟨⟩, hstate, digest, hdigest, ⟨⟩, hsame, ⟨⟩, hevidence, ⟨⟩, htemplate, found, hfound,
      ⟨⟩, hprovenance, active, ⟨hcount, rfl⟩, hcap⟩
    rw [hsame] at hdigest
    rw [hprovenance] at hfound
    exact ⟨hstate, hdigest, hevidence, htemplate, hfound, hcount, hcap⟩
  · rintro ⟨hstate, hdigest, hevidence, htemplate, hfound, hcount, hcap⟩
    exact ⟨(), hstate, _, hdigest, (), rfl, (), hevidence, (), htemplate, _, hfound, (), rfl, _,
      ⟨hcount, rfl⟩, hcap⟩

theorem insertPolicy_eq_ok {policies policies' : Table PromotedPolicy.policyId}
    {policy : PromotedPolicy} :
    insertPolicy policies policy = .ok policies' ↔
      policies.insert? policy = some policies' ∧
        (∀ row ∈ policies.rows, row.candidateId ≠ policy.candidateId) ∧
        ∀ row ∈ policies.rows, row.promotedPolicyDigest ≠ policy.promotedPolicyDigest := by
  unfold insertPolicy
  split
  case h_1 hinsert => simp [hinsert]
  case h_2 inserted hinsert =>
    simp only [guard_eq_ok, hinsert, Except.ok.injEq, Option.some.injEq, List.any_eq_true,
      decide_eq_true_eq, not_exists, not_and, ne_eq]
    constructor
    · rintro ⟨hcandidate, hdigest, heq⟩
      exact ⟨heq, hcandidate, hdigest⟩
    · rintro ⟨heq, hcandidate, hdigest⟩
      exact ⟨hcandidate, hdigest, heq⟩

theorem insertEvent_eq_ok {events events' : Table PolicyEvent.eventDigest} {event : PolicyEvent} :
    insertEvent events event = .ok events' ↔ events.insert? event = some events' := by
  unfold insertEvent
  split
  case h_1 hinsert => simp [hinsert]
  case h_2 inserted hinsert => simp [hinsert]

/-- What a promotion writes, table by table. -/
structure Writes (d : Digests) (db db' : PolicyDatabase) (candidate : PolicyCandidate)
    (requiredDigest : String) (template : MaterializedPolicyTemplate) (nowMs : Nat)
    (promoted : PromotedPolicy) : Prop where
  promoted_eq : promoted = promotedPolicy d candidate requiredDigest
    (computeTemplateDigest d template.check) nowMs
  runs : db'.runs = db.runs
  evidence : db'.evidence = db.evidence
  templates : persistTemplate d db.templates candidate template nowMs =
    .ok (db'.templates, computeTemplateDigest d template.check)
  policies : insertPolicy db.policies promoted = .ok db'.policies
  candidates : db'.candidates = markPromoted db.candidates candidate.candidateId promoted.policyId nowMs
  events : db.events.insert? (promotionEvent d promoted nowMs) = some db'.events

theorem persistTemplate_eq_ok {templates templates' : Table TemplateRow.templateDigest}
    {digest : String} :
    persistTemplate d templates candidate template nowMs = .ok (templates', digest) ↔
      (∀ stored, templates.get? (computeTemplateDigest d template.check) = some stored →
        sameTemplate stored (templateRow d candidate template nowMs) = true) ∧
      templates' = templates.insertOrIgnore (templateRow d candidate template nowMs) ∧
      digest = computeTemplateDigest d template.check := by
  have hget : (templates.insertOrIgnore (templateRow d candidate template nowMs)).get?
      (templateRow d candidate template nowMs).templateDigest =
      some ((templates.get? (computeTemplateDigest d template.check)).getD
        (templateRow d candidate template nowMs)) := by
    rw [Table.get?_insertOrIgnore, if_pos rfl]
    change (templates.get? (computeTemplateDigest d template.check)).or _ = _
    cases templates.get? (computeTemplateDigest d template.check) with
    | none => rfl
    | some stored => rfl
  have hself : sameTemplate (templateRow d candidate template nowMs)
      (templateRow d candidate template nowMs) = true := by
    simp [sameTemplate]
  simp only [persistTemplate, hget]
  cases hstored : templates.get? (computeTemplateDigest d template.check) with
  | none =>
    simp only [Option.getD_none, hself, if_true, Except.ok.injEq, Prod.mk.injEq]
    constructor
    · rintro ⟨rfl, rfl⟩
      exact ⟨fun stored h => (Option.some_ne_none stored h.symm).elim, rfl, rfl⟩
    · rintro ⟨-, rfl, rfl⟩
      exact ⟨rfl, rfl⟩
  | some stored =>
    simp only [Option.getD_some, Option.some.injEq, forall_eq']
    by_cases hsame : sameTemplate stored (templateRow d candidate template nowMs) = true
    · simp only [hsame, if_true, Except.ok.injEq, Prod.mk.injEq, true_and]
      constructor
      · rintro ⟨rfl, rfl⟩
        exact ⟨rfl, rfl⟩
      · rintro ⟨rfl, rfl⟩
        exact ⟨rfl, rfl⟩
    · simp [hsame]

theorem writePromotion_eq_ok {requiredDigest : String} {promoted : PromotedPolicy} :
    writePromotion d db candidate requiredDigest template nowMs = .ok (db', promoted) ↔
      Writes d db db' candidate requiredDigest template nowMs promoted := by
  simp only [writePromotion, bind_eq_ok, Prod.exists, pure_eq_ok, Prod.mk.injEq, insertEvent_eq_ok]
  constructor
  · rintro ⟨templates, digest, htemplates, policies, hpolicies, events, hevents, rfl, rfl⟩
    obtain ⟨-, -, rfl⟩ := persistTemplate_eq_ok.mp htemplates
    exact ⟨rfl, rfl, rfl, htemplates, hpolicies, rfl, hevents⟩
  · intro h
    obtain ⟨rfl, hruns, hevidence, htemplates, hpolicies, hcandidates, hevents⟩ := h
    refine ⟨_, _, htemplates, _, hpolicies, _, hevents, ?_, rfl⟩
    rw [← hruns, ← hevidence, ← hcandidates]

theorem promoteCandidate_eq_ok {policy : PromotionPolicy} {promoted : PromotedPolicy} :
    promoteCandidate d db candidateId policy template nowMs = .ok (db', promoted) ↔
      ∃ candidate, db.candidates.get? candidateId = some candidate ∧
        computePromotionPolicyDigest d policy = .ok candidate.promotionPolicyDigest ∧
        (candidate.state = .promoted ∧ loadPolicyByCandidate db candidateId = some promoted ∧
            db' = db ∨
          candidate.state ≠ .promoted ∧
            checkPromotion d db candidate policy template = .ok () ∧
            Writes d db db' candidate candidate.promotionPolicyDigest template nowMs promoted) := by
  simp only [promoteCandidate, bind_eq_ok]
  cases hrow : db.candidates.get? candidateId with
  | none => simp [throw, throwThe, MonadExceptOf.throw]
  | some candidate =>
    simp only [Option.some.injEq, exists_eq_left', throw, throwThe, MonadExceptOf.throw,
      guard_eq_ok, ne_eq, not_not]
    constructor
    · rintro ⟨digest, hdigest, rfl, h⟩
      refine ⟨hdigest, ?_⟩
      split_ifs at h with hpromoted
      · cases hload : loadPolicyByCandidate db candidateId with
        | none =>
          rw [hload] at h
          cases h
        | some existing =>
          rw [hload] at h
          obtain ⟨rfl, rfl⟩ := Prod.mk.inj (Except.ok.inj h)
          exact .inl ⟨hpromoted, rfl, rfl⟩
      · obtain ⟨⟨⟩, hcheck, hwrite⟩ := bind_eq_ok.mp h
        exact .inr ⟨hpromoted, hcheck, writePromotion_eq_ok.mp hwrite⟩
    · rintro ⟨hdigest, ⟨hpromoted, hload, rfl⟩ | ⟨hpromoted, hcheck, hwrite⟩⟩
      · refine ⟨_, hdigest, rfl, ?_⟩
        rw [if_pos hpromoted, hload]
        rfl
      · refine ⟨_, hdigest, rfl, ?_⟩
        rw [if_neg hpromoted]
        exact bind_eq_ok.mpr ⟨(), hcheck, writePromotion_eq_ok.mpr hwrite⟩

/-- What revoking a policy that is in force leaves. -/
def revoked (d : Digests) (db : PolicyDatabase) (row : PromotedPolicy) (reason : String)
    (nowMs : Nat) : PolicyDatabase :=
  { db with
    policies := db.policies.update (isRevocable row.policyId) (revoke reason nowMs)
      (revoke_policyId reason nowMs)
    candidates := markRevoked db.candidates row.candidateId nowMs
    events := db.events.insertOrIgnore (revocationEvent d row.policyId reason nowMs) }

theorem revokePolicy_eq_ok {policyId reason : String}
    (h : revokePolicy d db policyId reason nowMs = .ok db') :
    db' = db ∨ ∃ row, db.policies.get? policyId = some row ∧ row.state = .promoted ∧
      isDisallowedReason reason = false ∧ db' = revoked d db row reason nowMs := by
  simp only [revokePolicy, guard_eq_ok, Bool.not_eq_true] at h
  obtain ⟨hallowed, h⟩ := h
  cases hrow : db.policies.get? policyId with
  | none =>
    rw [hrow] at h
    cases h
  | some row =>
    rw [hrow] at h
    simp only at h
    obtain rfl := Table.key_of_get? hrow
    split_ifs at h with hchanges
    · exact .inl (Except.ok.inj h).symm
    · obtain ⟨found, hfound, hstate⟩ :=
        Table.changes_key_pos_iff.mp (Nat.pos_of_ne_zero hchanges)
      rw [hrow] at hfound
      obtain rfl := Option.some.inj hfound
      exact .inr ⟨row, rfl, of_decide_eq_true hstate, hallowed, (Except.ok.inj h).symm⟩

theorem revokePolicy_eq {reason : String} {row : PromotedPolicy} (nowMs : Nat)
    (hrow : db.policies.get? row.policyId = some row) (hstate : row.state = .promoted)
    (hallowed : isDisallowedReason reason = false) :
    revokePolicy d db row.policyId reason nowMs = .ok (revoked d db row reason nowMs) := by
  have hchanges : db.policies.changes (isRevocable row.policyId) ≠ 0 := by
    apply Nat.pos_iff_ne_zero.mp
    exact Table.changes_pos_iff.mpr
      ⟨row, Table.mem_of_get? hrow, by simp [isRevocable, hstate]⟩
  simp only [revokePolicy, hallowed, Bool.false_eq_true, if_false, hrow, hchanges]
  rfl

end Promotion
