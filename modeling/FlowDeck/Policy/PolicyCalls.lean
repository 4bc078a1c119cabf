import FlowDeck.Library.Machine
import FlowDeck.Policy.Promotion

namespace PolicyCalls

open CalibrationHistory PolicyStore CandidateGeneration Promotion

/-- The calls that write the policy tables, and the calibrations recorded between them. -/
inductive PolicyCall
  | calibrate (run : CalibrationRun)
  | generate (policy : PromotionPolicy) (nowMs : Nat)
  | promote (candidateId : String) (policy : PromotionPolicy)
      (template : MaterializedPolicyTemplate) (nowMs : Nat)
  | revoke (policyId reason : String) (nowMs : Nat)

/-- What a call leaves; one that fails is rolled back. -/
def perform (d : Digests) (db : PolicyDatabase) : PolicyCall → PolicyDatabase
  | .calibrate run => { db with runs := db.runs.insertOrIgnore run }
  | .generate policy nowMs =>
    match generateCandidates d db policy nowMs with
    | .ok (db', _) => db'
    | .error _ => db
  | .promote candidateId policy template nowMs =>
    match promoteCandidate d db candidateId policy template nowMs with
    | .ok (db', _) => db'
    | .error _ => db
  | .revoke policyId reason nowMs =>
    match revokePolicy d db policyId reason nowMs with
    | .ok db' => db'
    | .error _ => db

def step (d : Digests) (db : PolicyDatabase) (call : PolicyCall) : Option PolicyDatabase :=
  some (perform d db call)

/-- Everything a call can do. -/
theorem perform_cases (d : Digests) (db : PolicyDatabase) (call : PolicyCall) :
    perform d db call = db ∨
    (∃ run, call = .calibrate run ∧
      perform d db call = { db with runs := db.runs.insertOrIgnore run }) ∨
    (∃ policy nowMs candidates, call = .generate policy nowMs ∧
      generateCandidates d db policy nowMs = .ok (perform d db call, candidates)) ∨
    (∃ candidateId policy template nowMs candidate promoted,
      call = .promote candidateId policy template nowMs ∧
      db.candidates.get? candidateId = some candidate ∧ candidate.state ≠ .promoted ∧
      checkPromotion d db candidate policy template = .ok () ∧
      Writes d db (perform d db call) candidate candidate.promotionPolicyDigest template nowMs
        promoted) ∨
    (∃ policyId reason nowMs row, call = .revoke policyId reason nowMs ∧
      db.policies.get? policyId = some row ∧ row.state = .promoted ∧
      isDisallowedReason reason = false ∧ perform d db call = revoked d db row reason nowMs) := by
  cases call with
  | calibrate run => exact .inr (.inl ⟨run, rfl, rfl⟩)
  | generate policy nowMs =>
    simp only [perform]
    cases h : generateCandidates d db policy nowMs with
    | error e => exact .inl rfl
    | ok result => exact .inr (.inr (.inl ⟨policy, nowMs, result.2, rfl, h⟩))
  | promote candidateId policy template nowMs =>
    simp only [perform]
    cases h : promoteCandidate d db candidateId policy template nowMs with
    | error e => exact .inl rfl
    | ok result =>
      obtain ⟨candidate, hrow, -, ⟨-, -, hsame⟩ | ⟨hstate, hcheck, hwrites⟩⟩ :=
        promoteCandidate_eq_ok.mp h
      · exact .inl hsame
      · exact .inr (.inr (.inr (.inl ⟨candidateId, policy, template, nowMs, candidate, result.2, rfl,
          hrow, hstate, hcheck, hwrites⟩)))
  | revoke policyId reason nowMs =>
    simp only [perform]
    cases h : revokePolicy d db policyId reason nowMs with
    | error e => exact .inl rfl
    | ok result =>
      rcases revokePolicy_eq_ok h with hsame | ⟨row, hrow, hstate, hallowed, heq⟩
      · exact .inl hsame
      · exact .inr (.inr (.inr (.inr
          ⟨policyId, reason, nowMs, row, rfl, hrow, hstate, hallowed, heq⟩)))

variable {d : Digests} {db db' : PolicyDatabase} {policy : PromotionPolicy} {nowMs : Nat}
  {candidate : PolicyCandidate}

theorem generateCandidates_frame {candidates : List PolicyCandidate}
    (h : generateCandidates d db policy nowMs = .ok (db', candidates)) :
    db'.runs = db.runs ∧ db'.policies = db.policies ∧ db'.templates = db.templates ∧
      db'.events = db.events := by
  obtain ⟨policyDigest, misses, -, -, hgroups⟩ := generateCandidates_eq_ok.mp h
  refine generateGroups_keeps (I := fun other => other.runs = db.runs ∧
    other.policies = db.policies ∧ other.templates = db.templates ∧ other.events = db.events)
    ?_ hgroups ⟨rfl, rfl, rfl, rfl⟩
  intro group _ candidate before after _ hstore hbefore
  obtain ⟨-, heq⟩ := storeCandidate_eq_ok hstore
  rw [heq]
  exact hbefore

def Identified (d : Digests) (row : PolicyCandidate) : Prop :=
  row.candidateId = generateCandidateId d row.trigger row.checkId row.promotionPolicyDigest ∧
    row.candidateContractVersion = policyContractVersion ∧ row.trigger.kind = "scope"

/-- How calls change the candidates: none is lost, and every one stays identified. -/
structure Evolves (d : Digests) (t t' : Table PolicyCandidate.candidateId) : Prop where
  kept : ∀ id row, t.get? id = some row → ∃ row', t'.get? id = some row'
  identified : (∀ id row, t.get? id = some row → Identified d row) →
    ∀ id row, t'.get? id = some row → Identified d row

theorem Evolves.refl (d : Digests) (t : Table PolicyCandidate.candidateId) : Evolves d t t :=
  ⟨fun _ row h => ⟨row, h⟩, fun h => h⟩

theorem Evolves.trans {t t' t'' : Table PolicyCandidate.candidateId} (h : Evolves d t t')
    (h' : Evolves d t' t'') : Evolves d t t'' := by
  constructor
  · intro id row hrow
    obtain ⟨row', hrow'⟩ := h.kept id row hrow
    exact h'.kept id row' hrow'
  · intro hall
    exact h'.identified (h.identified hall)

theorem evolves_update (t : Table PolicyCandidate.candidateId) {p : PolicyCandidate → Bool}
    {f : PolicyCandidate → PolicyCandidate} {hf : ∀ row, (f row).candidateId = row.candidateId}
    (hidentified : ∀ row, Identified d row → Identified d (f row)) :
    Evolves d t (t.update p f hf) := by
  constructor
  · intro id row hrow
    exact ⟨_, by rw [Table.get?_update, hrow]; rfl⟩
  · intro hall id row hrow
    rw [Table.get?_update] at hrow
    obtain ⟨old, hold, rfl⟩ := Option.map_eq_some_iff.mp hrow
    have hbefore := hall id old hold
    simp only [Table.setWhere]
    split_ifs
    · exact hidentified old hbefore
    · exact hbefore

theorem evolves_upsertCandidate {t t' : Table PolicyCandidate.candidateId}
    (h : upsertCandidate t candidate = .ok t') (hcandidate : Identified d candidate) :
    Evolves d t t' := by
  constructor
  · intro id row hrow
    rw [get?_upsertCandidate h]
    split_ifs
    · exact ⟨_, rfl⟩
    · exact ⟨row, hrow⟩
  · intro hall id row hrow
    rw [get?_upsertCandidate h] at hrow
    split_ifs at hrow
    · cases hold : t.get? id with
      | none =>
        rw [hold] at hrow
        exact Option.some.inj hrow ▸ hcandidate
      | some old =>
        rw [hold] at hrow
        exact Option.some.inj hrow ▸ hall id old hold
    · exact hall id row hrow

theorem identified_of_candidateOf {policyDigest : String} {group : String × String}
    {misses : List QualifiedMiss}
    (h : candidateOf d policy policyDigest nowMs group misses = .ok candidate) :
    Identified d candidate := by
  obtain ⟨-, -, heq⟩ := candidateOf_eq_ok.mp h
  rw [heq]
  exact ⟨rfl, rfl, rfl⟩

theorem evolves_generateCandidates {candidates : List PolicyCandidate}
    (h : generateCandidates d db policy nowMs = .ok (db', candidates)) :
    Evolves d db.candidates db'.candidates := by
  obtain ⟨policyDigest, misses, -, -, hgroups⟩ := generateCandidates_eq_ok.mp h
  refine generateGroups_keeps (I := fun other => Evolves d db.candidates other.candidates) ?_
    hgroups (Evolves.refl d db.candidates)
  intro group _ candidate before after hcandidate hstore hbefore
  obtain ⟨hupsert, -⟩ := storeCandidate_eq_ok hstore
  exact hbefore.trans (evolves_upsertCandidate hupsert (identified_of_candidateOf hcandidate))

/-- What holds of the policies and candidates after any calls. -/
structure Sound (d : Digests) (db : PolicyDatabase) : Prop where
  sole : ∀ p ∈ db.policies.rows, ∀ q ∈ db.policies.rows, p.candidateId = q.candidateId → p = q
  states : ∀ p ∈ db.policies.rows, p.state = .promoted ∨ p.state = .revoked
  owners : ∀ p ∈ db.policies.rows, ∃ row, db.candidates.get? p.candidateId = some row
  identified : ∀ id row, db.candidates.get? id = some row → Identified d row

theorem sound_empty (d : Digests) : Sound d .empty where
  sole := fun _ hp => absurd hp List.not_mem_nil
  states := fun _ hp => absurd hp List.not_mem_nil
  owners := fun _ hp => absurd hp List.not_mem_nil
  identified := fun _ row h => (Option.some_ne_none row h.symm).elim

theorem Sound.of_evolves {d : Digests} {db db' : PolicyDatabase} (h : Sound d db)
    (hpolicies : db'.policies = db.policies) (hevolves : Evolves d db.candidates db'.candidates) :
    Sound d db' where
  sole := hpolicies ▸ h.sole
  states := hpolicies ▸ h.states
  owners := by
    intro p hp
    obtain ⟨row, hrow⟩ := h.owners p (hpolicies ▸ hp)
    exact hevolves.kept _ row hrow
  identified := hevolves.identified h.identified

theorem mem_policies_of_writes {requiredDigest : String} {template : MaterializedPolicyTemplate}
    {promoted p : PromotedPolicy}
    (h : Writes d db db' candidate requiredDigest template nowMs promoted) :
    p ∈ db'.policies.rows ↔ p ∈ db.policies.rows ∨ p = promoted := by
  obtain ⟨hinsert, -, -⟩ := insertPolicy_eq_ok.mp h.policies
  rw [(Table.insert?_eq_some hinsert).2, List.mem_append, List.mem_singleton]

theorem Sound.writes {candidateId requiredDigest : String} {template : MaterializedPolicyTemplate}
    {promoted : PromotedPolicy} (hsound : Sound d db)
    (hrow : db.candidates.get? candidateId = some candidate)
    (h : Writes d db db' candidate requiredDigest template nowMs promoted) : Sound d db' := by
  have hevolves : Evolves d db.candidates db'.candidates := by
    rw [h.candidates]
    exact evolves_update db.candidates fun row hidentified => hidentified
  obtain ⟨-, hfresh, -⟩ := insertPolicy_eq_ok.mp h.policies
  have hcandidateId : promoted.candidateId = candidateId := by
    have hkey : candidate.candidateId = candidateId := Table.key_of_get? hrow
    rw [h.promoted_eq]
    exact hkey
  constructor
  · intro p hp q hq hsame
    rcases (mem_policies_of_writes h).mp hp with hp | rfl
    · rcases (mem_policies_of_writes h).mp hq with hq | rfl
      · exact hsound.sole p hp q hq hsame
      · exact absurd hsame (hfresh p hp)
    · rcases (mem_policies_of_writes h).mp hq with hq | rfl
      · exact absurd hsame.symm (hfresh q hq)
      · rfl
  · intro p hp
    rcases (mem_policies_of_writes h).mp hp with hp | rfl
    · exact hsound.states p hp
    · rw [h.promoted_eq]
      exact .inl rfl
  · intro p hp
    rcases (mem_policies_of_writes h).mp hp with hp | rfl
    · obtain ⟨row, hrow⟩ := hsound.owners p hp
      exact hevolves.kept _ row hrow
    · rw [hcandidateId]
      exact hevolves.kept _ candidate hrow
  · exact hevolves.identified hsound.identified

theorem candidateId_setWhere_revoke (policyId reason : String) (nowMs : Nat)
    (row : PromotedPolicy) :
    (Table.setWhere (isRevocable policyId) (revoke reason nowMs) row).candidateId =
      row.candidateId := by
  unfold Table.setWhere
  split_ifs
  · rfl
  · rfl

/-- A policy after a revocation is one from before, itself revoked or left alone. -/
theorem mem_policies_revoked {row p : PromotedPolicy} {reason : String} :
    p ∈ (revoked d db row reason nowMs).policies.rows ↔
      ∃ q ∈ db.policies.rows,
        Table.setWhere (isRevocable row.policyId) (revoke reason nowMs) q = p :=
  List.mem_map

theorem Sound.revoked (hsound : Sound d db) (row : PromotedPolicy) (reason : String) (nowMs : Nat) :
    Sound d (revoked d db row reason nowMs) := by
  have hevolves : Evolves d db.candidates (markRevoked db.candidates row.candidateId nowMs) :=
    evolves_update db.candidates fun row hidentified => hidentified
  constructor
  · intro p hp q hq hsame
    obtain ⟨p', hp', rfl⟩ := mem_policies_revoked.mp hp
    obtain ⟨q', hq', rfl⟩ := mem_policies_revoked.mp hq
    rw [candidateId_setWhere_revoke, candidateId_setWhere_revoke] at hsame
    rw [hsound.sole p' hp' q' hq' hsame]
  · intro p hp
    obtain ⟨q, hq, rfl⟩ := mem_policies_revoked.mp hp
    unfold Table.setWhere
    split_ifs
    · exact .inr rfl
    · exact hsound.states q hq
  · intro p hp
    obtain ⟨q, hq, rfl⟩ := mem_policies_revoked.mp hp
    rw [candidateId_setWhere_revoke]
    obtain ⟨owner, howner⟩ := hsound.owners q hq
    exact hevolves.kept _ owner howner
  · exact hevolves.identified hsound.identified

theorem Sound.perform (hsound : Sound d db) (call : PolicyCall) : Sound d (perform d db call) := by
  rcases perform_cases d db call with hsame | ⟨run, -, heq⟩ |
    ⟨policy, nowMs, candidates, -, hgenerate⟩ |
    ⟨candidateId, policy, template, nowMs, candidate, promoted, -, hrow, -, -, hwrites⟩ |
    ⟨policyId, reason, nowMs, row, -, -, -, -, heq⟩
  · rw [hsame]
    exact hsound
  · rw [heq]
    exact ⟨hsound.sole, hsound.states, hsound.owners, hsound.identified⟩
  · obtain ⟨-, hpolicies, -, -⟩ := generateCandidates_frame hgenerate
    exact hsound.of_evolves hpolicies (evolves_generateCandidates hgenerate)
  · exact hsound.writes hrow hwrites
  · rw [heq]
    exact hsound.revoked row reason nowMs

theorem sound_of_run {calls : List PolicyCall} (h : Machine.run (step d) .empty calls = some db) :
    Sound d db := by
  refine Machine.run_invariant (I := Sound d) ?_ (sound_empty d) h
  intro before call after hsound hstep
  exact Option.some.inj hstep ▸ hsound.perform call

/-- Digests that are the texts they are taken of. -/
def plainDigests : Digests where
  sha256 := id
  canonicalPolicy := fun policy =>
    toString policy.minObservedMisses.toNat ++ "," ++ toString policy.lookbackLimit.toNat
  canonicalCandidate := fun input => input.checkId ++ "," ++ toString input.supportCount
  canonicalCheck := fun check => check.checkId ++ "," ++ check.scope

/-- A complete run in which the one check its plan had not selected failed. -/
def missedRun (calibrationId : String) (startedAtMs : Int) : CalibrationRun where
  calibrationId := calibrationId
  contractVersion := 2
  status := .complete
  referenceTruncated := false
  sourceArtifactSha256 := some ("artifact " ++ calibrationId)
  recordDigest := some ("record " ++ calibrationId)
  candidatePlanDigest := "plan " ++ calibrationId
  startedAtMs := startedAtMs
  shadowIncompleteCount := 0
  eligibleForMissRate := true
  checks := Table.empty.insertOrIgnore {
    checkId := "unit"
    scope := "core"
    candidateSelected := false
    referenceSelected := true
    hasPhysicalExecution := true
    executionStatus := .failed
    signalClass := .observedShadowMiss
    isObservedShadowMiss := true
    durationMs := 5 }

/-- Two misses among the latest two runs. -/
def twoMisses : PromotionPolicy where
  minObservedMisses := 2
  minDistinctSourceArtifacts := 2
  minDistinctChangeFingerprints := 2
  maxAddedChecksPerTrigger := 1
  maxEstimatedAddedRuntimeMs := 1000
  lookbackLimit := 2
  autoPromoteAdditive := false

def unitTemplate (calibrationId : String) : MaterializedPolicyTemplate where
  check := {
    checkId := "unit"
    displayName := "unit tests"
    kind := .unitTest
    scope := "core"
    reason := "learned additive policy check for scope core"
    selection := .policyWidening
    strength := .structural
    evidence := ""
    wideningReason := some "learned_policy_add_check"
    mandatory := true }
  provenance := {
    sourceCalibrationId := calibrationId
    sourceArtifactSha256 := "artifact " ++ calibrationId
    sourceRecordDigest := "record " ++ calibrationId }

/-- The candidate of the missed check under `twoMisses`. -/
def unitCandidate : String := generateCandidateId plainDigests (scopeOf "core") "unit" "2,2"

end PolicyCalls
