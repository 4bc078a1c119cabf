import FlowDeck.Policy.PolicyStore

namespace CandidateGeneration

open CalibrationHistory PolicyStore Checked Table List

/-- The order of a `BTreeMap` keyed by scope and check id. -/
def groupOrder (a b : String × String) : Bool :=
  decide (a.1 < b.1) || decide (a.1 = b.1) && decide (a.2 ≤ b.2)

def groupKey (miss : QualifiedMiss) : String × String := (miss.scope, miss.checkId)

def groups (misses : List QualifiedMiss) : List (String × String) :=
  (misses.map groupKey).dedup.insertionSort fun a b => groupOrder a b = true

def observations (misses : List QualifiedMiss) (group : String × String) : List QualifiedMiss :=
  misses.filter fun miss => groupKey miss = group

def distinctCount (column : QualifiedMiss → String) (misses : List QualifiedMiss) : Nat :=
  (misses.map column).dedup.length

def estimatedRuntime (misses : List QualifiedMiss) : Nat :=
  ((misses.map (·.durationMs)).max?).getD 0

def isEligible (policy : PromotionPolicy) (misses : List QualifiedMiss) : Bool :=
  policy.minObservedMisses.toNat ≤ distinctCount (·.calibrationId) misses &&
    policy.minDistinctSourceArtifacts.toNat ≤ distinctCount (·.sourceArtifactSha256) misses &&
    policy.minDistinctChangeFingerprints.toNat ≤ distinctCount (·.candidatePlanDigest) misses &&
    estimatedRuntime misses ≤ policy.maxEstimatedAddedRuntimeMs.toNat

/-- The counts are at most the lookback, which is a `u32`. -/
def draftCandidate (d : Digests) (policy : PromotionPolicy) (policyDigest : String) (nowMs : Nat)
    (trigger : LearnedPolicyTrigger) (checkId : String) (misses : List QualifiedMiss) :
    PolicyCandidate where
  candidateId := generateCandidateId d trigger checkId policyDigest
  candidateContractVersion := policyContractVersion
  trigger := trigger
  checkId := checkId
  candidateDigest := ""
  promotionPolicyDigest := policyDigest
  supportCount := distinctCount (·.calibrationId) misses
  distinctSourceArtifactCount := distinctCount (·.sourceArtifactSha256) misses
  distinctChangeFingerprintCount := distinctCount (·.candidatePlanDigest) misses
  estimatedAddedRuntimeMs := estimatedRuntime misses
  state := if isEligible policy misses then .eligible else .candidate
  createdAtMs := nowMs
  updatedAtMs := nowMs
  promotedPolicyId := none

def candidateOf (d : Digests) (policy : PromotionPolicy) (policyDigest : String) (nowMs : Nat)
    (group : String × String) (misses : List QualifiedMiss) : Except String PolicyCandidate := do
  let trigger ← scopeTrigger group.1
  let candidate := draftCandidate d policy policyDigest nowMs trigger group.2 misses
  let candidateDigest ← computeCandidateDigest d candidate
  return { candidate with candidateDigest }

/-- `DO UPDATE SET`: the columns a generated candidate replaces in the row under its id. -/
def regenerated (candidate row : PolicyCandidate) : PolicyCandidate :=
  { row with
    candidateDigest := candidate.candidateDigest
    supportCount := candidate.supportCount
    distinctSourceArtifactCount := candidate.distinctSourceArtifactCount
    distinctChangeFingerprintCount := candidate.distinctChangeFingerprintCount
    estimatedAddedRuntimeMs := candidate.estimatedAddedRuntimeMs
    state := candidate.state
    updatedAtMs := candidate.updatedAtMs }

theorem regenerated_candidateId (candidate row : PolicyCandidate) :
    (regenerated candidate row).candidateId = row.candidateId := rfl

/-- The columns of the table's other uniqueness constraint. -/
def sameIdentity (a b : PolicyCandidate) : Bool :=
  a.candidateContractVersion = b.candidateContractVersion && a.trigger = b.trigger &&
    a.checkId = b.checkId && a.promotionPolicyDigest = b.promotionPolicyDigest

def upsertCandidate (table : Table PolicyCandidate.candidateId) (candidate : PolicyCandidate) :
    Except String (Table PolicyCandidate.candidateId) :=
  match table.insert? candidate with
  | none =>
    .ok (table.update (fun row => row.candidateId = candidate.candidateId) (regenerated candidate)
      (regenerated_candidateId candidate))
  | some inserted =>
    if table.rows.any (sameIdentity candidate) then
      .error ("failed to persist policy candidate: UNIQUE constraint failed: " ++
        "policy_candidates.candidate_contract_version, policy_candidates.trigger_kind, " ++
        "policy_candidates.trigger_scope, policy_candidates.check_id, " ++
        "policy_candidates.promotion_policy_digest")
    else .ok inserted

def evidenceRow (candidate : PolicyCandidate) (miss : QualifiedMiss) : EvidenceRow where
  candidateId := candidate.candidateId
  calibrationId := miss.calibrationId
  sourceArtifactSha256 := miss.sourceArtifactSha256
  candidatePlanDigest := miss.candidatePlanDigest
  calibrationRecordDigest := miss.recordDigest
  checkId := candidate.checkId
  observedAtMs := miss.observedAtMs

def storeCandidate (db : PolicyDatabase) (candidate : PolicyCandidate)
    (misses : List QualifiedMiss) : Except String PolicyDatabase := do
  let candidates ← upsertCandidate db.candidates candidate
  return { db with
    candidates
    evidence := db.evidence.insertAllOrIgnore (misses.map (evidenceRow candidate)) }

def generateGroups (d : Digests) (policy : PromotionPolicy) (policyDigest : String) (nowMs : Nat)
    (misses : List QualifiedMiss) : PolicyDatabase → List (String × String) →
      Except String (PolicyDatabase × List PolicyCandidate)
  | db, [] => .ok (db, [])
  | db, group :: rest => do
    let candidate ← candidateOf d policy policyDigest nowMs group (observations misses group)
    let stored ← storeCandidate db candidate (observations misses group)
    let (final, candidates) ← generateGroups d policy policyDigest nowMs misses stored rest
    return (final, candidate :: candidates)

def generateCandidates (d : Digests) (db : PolicyDatabase) (policy : PromotionPolicy)
    (nowMs : Nat) : Except String (PolicyDatabase × List PolicyCandidate) := do
  let policyDigest ← computePromotionPolicyDigest d policy
  let misses ← readQualifiedMisses db.runs policy.lookbackLimit.toNat
  generateGroups d policy policyDigest nowMs misses db (groups misses)

/-- The trigger of a scope the store takes. -/
def scopeOf (scope : String) : LearnedPolicyTrigger := { kind := "scope", scope := scope }

theorem scopeTrigger_eq_ok {scope : String} {trigger : LearnedPolicyTrigger}
    (h : scopeTrigger scope = .ok trigger) : trigger = scopeOf scope := by
  unfold scopeTrigger at h
  split_ifs at h
  exact (Except.ok.inj h).symm

variable {group : String × String} {miss : QualifiedMiss} {candidate : PolicyCandidate}

theorem mem_groups {misses : List QualifiedMiss} :
    group ∈ groups misses ↔ ∃ miss ∈ misses, groupKey miss = group := by
  simp [groups, mem_insertionSort]

theorem mem_observations {misses : List QualifiedMiss} :
    miss ∈ observations misses group ↔ miss ∈ misses ∧ groupKey miss = group := by
  simp [observations]

theorem durationMs_le_estimatedRuntime {misses : List QualifiedMiss} (h : miss ∈ misses) :
    miss.durationMs ≤ estimatedRuntime misses := by
  unfold estimatedRuntime
  have hmem : miss.durationMs ∈ misses.map (·.durationMs) := mem_map_of_mem h
  cases hmax : (misses.map (·.durationMs)).max? with
  | none => rw [max?_eq_none_iff.mp hmax] at hmem; cases hmem
  | some bound => exact (max?_eq_some_iff.mp hmax).2 _ hmem

theorem estimatedRuntime_le {misses : List QualifiedMiss} {bound : Nat}
    (h : ∀ miss ∈ misses, miss.durationMs ≤ bound) : estimatedRuntime misses ≤ bound := by
  unfold estimatedRuntime
  cases hmax : (misses.map (·.durationMs)).max? with
  | none => exact Nat.zero_le bound
  | some longest =>
    obtain ⟨miss, hmiss, heq⟩ := mem_map.mp (max?_eq_some_iff.mp hmax).1
    exact heq ▸ h miss hmiss

theorem computeCandidateDigest_eq_ok {d : Digests} {digest : String} :
    computeCandidateDigest d candidate = .ok digest ↔
      candidate.estimatedAddedRuntimeMs ≤ maxSafeInteger ∧
        d.sha256 (d.canonicalCandidate (digestInput candidate)) = digest := by
  simp only [computeCandidateDigest, computeCanonicalSha256, find?_singleton]
  by_cases hsafe : maxSafeInteger < candidate.estimatedAddedRuntimeMs
  · simp [hsafe]
  · simp [hsafe, not_lt.mp hsafe]

theorem candidateOf_eq_ok {d : Digests} {policy : PromotionPolicy} {policyDigest : String}
    {nowMs : Nat} {misses : List QualifiedMiss} :
    candidateOf d policy policyDigest nowMs group misses = .ok candidate ↔
      scopeTrigger group.1 = .ok (scopeOf group.1) ∧ estimatedRuntime misses ≤ maxSafeInteger ∧
        candidate =
          let draft := draftCandidate d policy policyDigest nowMs (scopeOf group.1) group.2 misses
          { draft with candidateDigest := d.sha256 (d.canonicalCandidate (digestInput draft)) } := by
  simp only [candidateOf, bind_eq_ok, pure_eq_ok]
  constructor
  · rintro ⟨trigger, htrigger, digest, hdigest, heq⟩
    obtain rfl := scopeTrigger_eq_ok htrigger
    obtain ⟨hsafe, rfl⟩ := computeCandidateDigest_eq_ok.mp hdigest
    exact ⟨htrigger, hsafe, heq.symm⟩
  · rintro ⟨htrigger, hsafe, heq⟩
    exact ⟨_, htrigger, _, computeCandidateDigest_eq_ok.mpr ⟨hsafe, rfl⟩, heq.symm⟩

theorem exists_candidateOf (d : Digests) (policy : PromotionPolicy) (policyDigest : String)
    (nowMs : Nat) {group : String × String} {misses : List QualifiedMiss}
    (hscope : scopeTrigger group.1 = .ok (scopeOf group.1))
    (hsafe : estimatedRuntime misses ≤ maxSafeInteger) :
    ∃ candidate, candidateOf d policy policyDigest nowMs group misses = .ok candidate :=
  ⟨_, candidateOf_eq_ok.mpr ⟨hscope, hsafe, rfl⟩⟩

theorem candidateId_of_candidateOf {d : Digests} {policy : PromotionPolicy} {policyDigest : String}
    {nowMs : Nat} {misses : List QualifiedMiss}
    (h : candidateOf d policy policyDigest nowMs group misses = .ok candidate) :
    candidate.candidateId = generateCandidateId d (scopeOf group.1) group.2 policyDigest := by
  obtain ⟨-, -, heq⟩ := candidateOf_eq_ok.mp h
  rw [heq]
  rfl

/-- A generated candidate is open: eligible, or not yet. -/
def IsOpen (state : PolicyState) : Prop := state = .candidate ∨ state = .eligible

theorem isOpen_of_candidateOf {d : Digests} {policy : PromotionPolicy} {policyDigest : String}
    {nowMs : Nat} {misses : List QualifiedMiss}
    (h : candidateOf d policy policyDigest nowMs group misses = .ok candidate) :
    IsOpen candidate.state := by
  obtain ⟨-, -, heq⟩ := candidateOf_eq_ok.mp h
  have hstate : candidate.state = if isEligible policy misses then .eligible else .candidate := by
    rw [heq]
    rfl
  rw [hstate]
  split_ifs
  · exact .inr rfl
  · exact .inl rfl

theorem get?_upsertCandidate {table table' : Table PolicyCandidate.candidateId}
    (h : upsertCandidate table candidate = .ok table') (id : String) :
    table'.get? id = if candidate.candidateId = id
      then some ((table.get? id).elim candidate (regenerated candidate)) else table.get? id := by
  unfold upsertCandidate at h
  split at h
  case h_1 hinsert =>
    obtain ⟨row, hrow⟩ := insert?_eq_none hinsert
    rw [← Except.ok.inj h, get?_update]
    by_cases hid : candidate.candidateId = id
    · subst hid
      have hkey : row.candidateId = candidate.candidateId := key_of_get? hrow
      simp [hrow, setWhere, hkey]
    · rw [if_neg hid]
      cases hget : table.get? id with
      | none => rfl
      | some other =>
        have hkey : other.candidateId ≠ candidate.candidateId :=
          fun he => hid (he.symm.trans (key_of_get? hget))
        simp [setWhere, hkey]
  case h_2 inserted hinsert =>
    obtain ⟨-, hinserted⟩ := guard_eq_ok.mp h
    obtain ⟨hnone, -⟩ := insert?_eq_some hinsert
    rw [← Except.ok.inj hinserted, get?_insert? hinsert]
    by_cases hid : candidate.candidateId = id
    · subst hid
      simp [hnone]
    · simp [hid]

theorem exists_upsertCandidate {table : Table PolicyCandidate.candidateId}
    (h : ∀ row ∈ table.rows, sameIdentity candidate row = true →
      row.candidateId = candidate.candidateId) :
    ∃ table', upsertCandidate table candidate = .ok table' := by
  unfold upsertCandidate
  split
  case h_1 => exact ⟨_, rfl⟩
  case h_2 inserted hinsert =>
    obtain ⟨hnone, -⟩ := insert?_eq_some hinsert
    have hno : ¬table.rows.any (sameIdentity candidate) = true := by
      intro hany
      obtain ⟨row, hrow, hsame⟩ := any_eq_true.mp hany
      exact get?_eq_none_iff.mp hnone row hrow (h row hrow hsame)
    exact ⟨inserted, if_neg hno⟩

theorem storeCandidate_eq_ok {db db' : PolicyDatabase} {misses : List QualifiedMiss}
    (h : storeCandidate db candidate misses = .ok db') :
    upsertCandidate db.candidates candidate = .ok db'.candidates ∧
      db' = { db with
        candidates := db'.candidates
        evidence := db.evidence.insertAllOrIgnore (misses.map (evidenceRow candidate)) } := by
  simp only [storeCandidate, bind_eq_ok, pure_eq_ok] at h
  obtain ⟨table, htable, heq⟩ := h
  rw [← heq]
  exact ⟨htable, rfl⟩

section Groups

variable {d : Digests} {policy : PromotionPolicy} {policyDigest : String} {nowMs : Nat}
  {misses : List QualifiedMiss} {db db' : PolicyDatabase} {candidates : List PolicyCandidate}

variable {group : String × String} {gs : List (String × String)} {candidate : PolicyCandidate}

theorem generateGroups_cons_eq_ok {rest : List (String × String)} :
    generateGroups d policy policyDigest nowMs misses db (group :: rest) = .ok (db', candidates) ↔
      ∃ candidate stored others,
        candidateOf d policy policyDigest nowMs group (observations misses group) = .ok candidate ∧
          storeCandidate db candidate (observations misses group) = .ok stored ∧
          generateGroups d policy policyDigest nowMs misses stored rest = .ok (db', others) ∧
          candidates = candidate :: others := by
  simp only [generateGroups, bind_eq_ok, pure_eq_ok, Prod.exists, Prod.mk.injEq]
  constructor
  · rintro ⟨candidate, hcandidate, stored, hstored, final, others, hothers, rfl, rfl⟩
    exact ⟨candidate, stored, others, hcandidate, hstored, hothers, rfl⟩
  · rintro ⟨candidate, stored, others, hcandidate, hstored, hothers, rfl⟩
    exact ⟨candidate, hcandidate, stored, hstored, db', others, hothers, rfl, rfl⟩

theorem generateGroups_keeps {I : PolicyDatabase → Prop}
    (hstore : ∀ group ∈ gs, ∀ candidate before after,
      candidateOf d policy policyDigest nowMs group (observations misses group) = .ok candidate →
      storeCandidate before candidate (observations misses group) = .ok after → I before → I after)
    (h : generateGroups d policy policyDigest nowMs misses db gs = .ok (db', candidates))
    (hdb : I db) : I db' := by
  induction gs generalizing db candidates with
  | nil =>
    obtain ⟨rfl, -⟩ := Prod.mk.inj (Except.ok.inj h)
    exact hdb
  | cons group rest ih =>
    obtain ⟨candidate, stored, others, hcandidate, hstored, hothers, -⟩ :=
      generateGroups_cons_eq_ok.mp h
    have hI : I stored := hstore group mem_cons_self candidate db stored hcandidate hstored hdb
    apply ih _ hothers hI
    intro g hg
    exact hstore g (mem_cons_of_mem _ hg)

theorem candidateOf_of_mem
    (h : generateGroups d policy policyDigest nowMs misses db gs = .ok (db', candidates))
    (hgroup : group ∈ gs) :
    ∃ candidate ∈ candidates,
      candidateOf d policy policyDigest nowMs group (observations misses group) = .ok candidate := by
  induction gs generalizing db candidates with
  | nil => exact absurd hgroup not_mem_nil
  | cons first rest ih =>
    obtain ⟨candidate, stored, others, hcandidate, -, hothers, rfl⟩ :=
      generateGroups_cons_eq_ok.mp h
    rcases mem_cons.mp hgroup with rfl | hrest
    · exact ⟨candidate, mem_cons_self, hcandidate⟩
    · obtain ⟨other, hother, heq⟩ := ih hothers hrest
      exact ⟨other, mem_cons_of_mem _ hother, heq⟩

theorem group_of_mem
    (h : generateGroups d policy policyDigest nowMs misses db gs = .ok (db', candidates))
    (hcandidate : candidate ∈ candidates) :
    ∃ group ∈ gs,
      candidateOf d policy policyDigest nowMs group (observations misses group) = .ok candidate := by
  induction gs generalizing db candidates with
  | nil =>
    obtain ⟨-, rfl⟩ := Prod.mk.inj (Except.ok.inj h)
    exact absurd hcandidate not_mem_nil
  | cons first rest ih =>
    obtain ⟨head, stored, others, hhead, -, hothers, rfl⟩ := generateGroups_cons_eq_ok.mp h
    rcases mem_cons.mp hcandidate with rfl | hrest
    · exact ⟨first, mem_cons_self, hhead⟩
    · obtain ⟨group, hgroup, heq⟩ := ih hothers hrest
      exact ⟨group, mem_cons_of_mem _ hgroup, heq⟩

theorem exists_evidence {miss : QualifiedMiss}
    (h : generateGroups d policy policyDigest nowMs misses db gs = .ok (db', candidates))
    (hgroup : group ∈ gs) (hcandidate :
      candidateOf d policy policyDigest nowMs group (observations misses group) = .ok candidate)
    (hmiss : miss ∈ observations misses group) :
    ∃ row ∈ db'.evidence.rows, row.key = (evidenceRow candidate miss).key := by
  induction gs generalizing db candidates with
  | nil => exact absurd hgroup not_mem_nil
  | cons first rest ih =>
    obtain ⟨head, stored, others, hhead, hstored, hothers, -⟩ := generateGroups_cons_eq_ok.mp h
    rcases mem_cons.mp hgroup with rfl | hrest
    · obtain rfl := Except.ok.inj (hhead.symm.trans hcandidate)
      obtain ⟨-, heq⟩ := storeCandidate_eq_ok hstored
      refine generateGroups_keeps (I := fun other => ∃ row ∈ other.evidence.rows,
        row.key = (evidenceRow head miss).key) ?_ hothers ?_
      · rintro g - other before after - hafter ⟨row, hrow, hkey⟩
        obtain ⟨-, hafterEq⟩ := storeCandidate_eq_ok hafter
        rw [hafterEq]
        exact ⟨row, mem_insertAllOrIgnore_of_mem _ hrow, hkey⟩
      · rw [heq]
        exact exists_mem_insertAllOrIgnore (mem_map_of_mem hmiss)
    · exact ih hothers hrest

theorem mem_evidence {row : EvidenceRow}
    (h : generateGroups d policy policyDigest nowMs misses db gs = .ok (db', candidates))
    (hrow : row ∈ db'.evidence.rows) :
    row ∈ db.evidence.rows ∨
      ∃ miss ∈ misses, ∃ candidate : PolicyCandidate, candidate.checkId = miss.checkId ∧
        row = evidenceRow candidate miss := by
  refine generateGroups_keeps (I := fun other => ∀ row ∈ other.evidence.rows,
    row ∈ db.evidence.rows ∨ ∃ miss ∈ misses, ∃ candidate : PolicyCandidate,
      candidate.checkId = miss.checkId ∧ row = evidenceRow candidate miss)
    ?_ h (fun row hrow => .inl hrow) row hrow
  intro group _ candidate before after hcandidate hstore hbefore row hrow
  obtain ⟨-, hafter⟩ := storeCandidate_eq_ok hstore
  rw [hafter] at hrow
  rcases mem_rows_insertAllOrIgnore hrow with hold | hnew
  · exact hbefore row hold
  · obtain ⟨miss, hmiss, rfl⟩ := mem_map.mp hnew
    obtain ⟨hmem, rfl⟩ := mem_observations.mp hmiss
    obtain ⟨-, -, heq⟩ := candidateOf_eq_ok.mp hcandidate
    have hcheck : candidate.checkId = miss.checkId := by
      rw [heq]
      rfl
    exact .inr ⟨miss, hmem, candidate, hcheck, rfl⟩

theorem exists_open_row
    (h : generateGroups d policy policyDigest nowMs misses db gs = .ok (db', candidates))
    (hgroup : group ∈ gs) :
    ∃ row, db'.candidates.get? (generateCandidateId d (scopeOf group.1) group.2 policyDigest) =
      some row ∧ IsOpen row.state := by
  induction gs generalizing db candidates with
  | nil => exact absurd hgroup not_mem_nil
  | cons first rest ih =>
    obtain ⟨candidate, stored, others, hcandidate, hstored, hothers, -⟩ :=
      generateGroups_cons_eq_ok.mp h
    rcases mem_cons.mp hgroup with rfl | hrest
    · have hid := candidateId_of_candidateOf hcandidate
      have hopen := isOpen_of_candidateOf hcandidate
      rw [← hid]
      refine generateGroups_keeps (I := fun db => ∃ row,
        db.candidates.get? candidate.candidateId = some row ∧ IsOpen row.state) ?_ hothers ?_
      · rintro g - other before after hother hafter ⟨row, hrow, hrowOpen⟩
        obtain ⟨hupsert, -⟩ := storeCandidate_eq_ok hafter
        have hget := get?_upsertCandidate hupsert candidate.candidateId
        rw [hrow] at hget
        by_cases hsame : other.candidateId = candidate.candidateId
        · rw [if_pos hsame] at hget
          have hotherOpen := isOpen_of_candidateOf hother
          exact ⟨_, hget, hotherOpen⟩
        · rw [if_neg hsame] at hget
          exact ⟨row, hget, hrowOpen⟩
      · obtain ⟨hupsert, -⟩ := storeCandidate_eq_ok hstored
        have hget := get?_upsertCandidate hupsert candidate.candidateId
        rw [if_pos rfl] at hget
        refine ⟨_, hget, ?_⟩
        cases db.candidates.get? candidate.candidateId with
        | none => exact hopen
        | some row => exact hopen
    · exact ih hothers hrest

end Groups

theorem generateCandidates_eq_ok {d : Digests} {db db' : PolicyDatabase} {policy : PromotionPolicy}
    {nowMs : Nat} {candidates : List PolicyCandidate} :
    generateCandidates d db policy nowMs = .ok (db', candidates) ↔
      ∃ policyDigest misses, computePromotionPolicyDigest d policy = .ok policyDigest ∧
        readQualifiedMisses db.runs policy.lookbackLimit.toNat = .ok misses ∧
        generateGroups d policy policyDigest nowMs misses db (groups misses) =
          .ok (db', candidates) := by
  simp only [generateCandidates, bind_eq_ok]
  constructor
  · rintro ⟨policyDigest, hdigest, misses, hmisses, h⟩
    exact ⟨policyDigest, misses, hdigest, hmisses, h⟩
  · rintro ⟨policyDigest, misses, hdigest, hmisses, h⟩
    exact ⟨policyDigest, hdigest, misses, hmisses, h⟩

end CandidateGeneration
