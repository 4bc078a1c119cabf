import FlowDeck.Policy.PolicyCalls

/-! Whether a candidate's row says what its policy's row says. -/

namespace CandidateAgreement

open CalibrationHistory PolicyStore CandidateGeneration Promotion PolicyCalls Machine Table

/-- A miss whose group has a candidate: its scope is taken, and its duration has a digest. -/
def Acceptable (miss : QualifiedMiss) : Prop :=
  scopeTrigger miss.scope = .ok (scopeOf miss.scope) ∧ miss.durationMs ≤ maxSafeInteger

def Regenerates (d : Digests) (db : PolicyDatabase) (policy : PromotionPolicy) (id : String) :
    Prop :=
  ∃ policyDigest misses, computePromotionPolicyDigest d policy = .ok policyDigest ∧
    readQualifiedMisses db.runs policy.lookbackLimit.toNat = .ok misses ∧
    (∀ miss ∈ misses, Acceptable miss) ∧
    ∃ miss ∈ misses, generateCandidateId d (scopeOf miss.scope) miss.checkId policyDigest = id

variable {d : Digests} {policy : PromotionPolicy} {nowMs : Nat} {db db' : PolicyDatabase}
  {candidates : List PolicyCandidate}

theorem acceptable_of_candidates {policyDigest : String} {misses : List QualifiedMiss}
    (h : generateGroups d policy policyDigest nowMs misses db (groups misses) =
      .ok (db', candidates)) : ∀ miss ∈ misses, Acceptable miss := by
  intro miss hmiss
  have hgroup : groupKey miss ∈ groups misses := mem_groups.mpr ⟨miss, hmiss, rfl⟩
  obtain ⟨candidate, -, hcandidate⟩ := candidateOf_of_mem h hgroup
  obtain ⟨hscope, hsafe, -⟩ := candidateOf_eq_ok.mp hcandidate
  have hmem : miss ∈ observations misses (groupKey miss) := mem_observations.mpr ⟨hmiss, rfl⟩
  exact ⟨hscope, (durationMs_le_estimatedRuntime hmem).trans hsafe⟩

theorem row_of_generateCandidates (h : generateCandidates d db policy nowMs = .ok (db', candidates))
    {id : String} {row : PolicyCandidate} (hrow : db'.candidates.get? id = some row) :
    db.candidates.get? id = some row ∨ IsOpen row.state ∧ Regenerates d db policy id := by
  obtain ⟨policyDigest, misses, hdigest, hmisses, hgroups⟩ := generateCandidates_eq_ok.mp h
  have hacceptable := acceptable_of_candidates hgroups
  refine generateGroups_keeps (I := fun other => ∀ row, other.candidates.get? id = some row →
    db.candidates.get? id = some row ∨ IsOpen row.state ∧ Regenerates d db policy id)
    ?_ hgroups (fun row hrow => .inl hrow) row hrow
  intro group hgroup candidate before after hcandidate hstore hbefore row hrow
  obtain ⟨hupsert, -⟩ := storeCandidate_eq_ok hstore
  rw [get?_upsertCandidate hupsert] at hrow
  split_ifs at hrow with hid
  · obtain ⟨miss, hmiss, rfl⟩ := mem_groups.mp hgroup
    have hopen := isOpen_of_candidateOf hcandidate
    refine .inr ⟨?_, policyDigest, misses, hdigest, hmisses, hacceptable, miss, hmiss, ?_⟩
    · rw [← Option.some.inj hrow]
      cases before.candidates.get? id with
      | none => exact hopen
      | some old => exact hopen
    · exact (candidateId_of_candidateOf hcandidate).symm.trans hid
  · exact hbefore row hrow

theorem exists_generateGroups (policy : PromotionPolicy) (policyDigest : String) (nowMs : Nat)
    {misses : List QualifiedMiss} {db : PolicyDatabase} {gs : List (String × String)}
    (hgs : ∀ group ∈ gs, group ∈ groups misses) (hacceptable : ∀ miss ∈ misses, Acceptable miss)
    (hidentified : ∀ id row, db.candidates.get? id = some row → Identified d row) :
    ∃ result, generateGroups d policy policyDigest nowMs misses db gs = .ok result := by
  induction gs generalizing db with
  | nil => exact ⟨_, rfl⟩
  | cons group rest ih =>
    obtain ⟨miss, hmiss, rfl⟩ := mem_groups.mp (hgs group List.mem_cons_self)
    have hsafe : estimatedRuntime (observations misses (groupKey miss)) ≤ maxSafeInteger := by
      apply estimatedRuntime_le
      intro other hother
      exact (hacceptable other (mem_observations.mp hother).1).2
    have hscope : scopeTrigger (groupKey miss).1 = .ok (scopeOf (groupKey miss).1) :=
      (hacceptable miss hmiss).1
    obtain ⟨candidate, hcandidate⟩ := exists_candidateOf d policy policyDigest nowMs hscope hsafe
    have hown := identified_of_candidateOf hcandidate
    have hsame : ∀ row ∈ db.candidates.rows, sameIdentity candidate row = true →
        row.candidateId = candidate.candidateId := by
      intro row hrow hidentity
      simp only [sameIdentity, Bool.and_eq_true, decide_eq_true_eq] at hidentity
      obtain ⟨⟨⟨-, htrigger⟩, hcheck⟩, hdigest⟩ := hidentity
      have hother := hidentified _ row (get?_of_mem hrow)
      rw [hother.1, hown.1, htrigger, hcheck, hdigest]
    obtain ⟨table, htable⟩ := exists_upsertCandidate hsame
    have hstore : ∃ stored, storeCandidate db candidate (observations misses (groupKey miss)) =
        .ok stored := ⟨_, Checked.bind_eq_ok.mpr ⟨table, htable, rfl⟩⟩
    obtain ⟨stored, hstored⟩ := hstore
    obtain ⟨hupsert, -⟩ := storeCandidate_eq_ok hstored
    have hevolves := evolves_upsertCandidate hupsert hown
    obtain ⟨⟨db', others⟩, hothers⟩ := ih (fun group hgroup => hgs group
      (List.mem_cons_of_mem _ hgroup)) (hevolves.identified hidentified)
    exact ⟨_, generateGroups_cons_eq_ok.mpr
      ⟨candidate, stored, others, hcandidate, hstored, hothers, rfl⟩⟩

theorem exists_generateCandidates {id : String} (nowMs : Nat) (hsound : Sound d db)
    (h : Regenerates d db policy id) :
    ∃ db' candidates, generateCandidates d db policy nowMs = .ok (db', candidates) ∧
      ∃ row, db'.candidates.get? id = some row ∧ IsOpen row.state := by
  obtain ⟨policyDigest, misses, hdigest, hmisses, hacceptable, miss, hmiss, rfl⟩ := h
  obtain ⟨⟨db', candidates⟩, hgroups⟩ := exists_generateGroups policy policyDigest nowMs
    (fun group hgroup => hgroup) hacceptable hsound.identified
  have hgroup : groupKey miss ∈ groups misses := mem_groups.mpr ⟨miss, hmiss, rfl⟩
  obtain ⟨row, hrow, hopen⟩ := exists_open_row hgroups hgroup
  have hgenerate : generateCandidates d db policy nowMs = .ok (db', candidates) :=
    generateCandidates_eq_ok.mpr ⟨policyDigest, misses, hdigest, hmisses, hgroups⟩
  exact ⟨db', candidates, hgenerate, row, hrow, hopen⟩

/-- The row is promoted exactly when a policy of the candidate is in force, and revoked exactly when
one has been revoked. -/
def StateAgrees (db : PolicyDatabase) (row : PolicyCandidate) : Prop :=
  (row.state = .promoted ↔
    ∃ p ∈ db.policies.rows, p.candidateId = row.candidateId ∧ p.state = .promoted) ∧
  (row.state = .revoked ↔
    ∃ p ∈ db.policies.rows, p.candidateId = row.candidateId ∧ p.state = .revoked)

instance (db : PolicyDatabase) (row : PolicyCandidate) : Decidable (StateAgrees db row) := by
  unfold StateAgrees
  infer_instance

def Agrees (db : PolicyDatabase) : Prop := ∀ row ∈ db.candidates.rows, StateAgrees db row

instance (db : PolicyDatabase) : Decidable (Agrees db) := by
  unfold Agrees
  infer_instance

def IsSettled (state : PolicyState) : Prop := state = .promoted ∨ state = .revoked

theorem not_isSettled_of_isOpen {state : PolicyState} (h : IsOpen state) : ¬IsSettled state := by
  rcases h with rfl | rfl
  · simp [IsSettled]
  · simp [IsSettled]

theorem isSettled_of_policy (hsound : Sound d db) (hagrees : Agrees db) {p : PromotedPolicy}
    (hp : p ∈ db.policies.rows) {row : PolicyCandidate}
    (hrow : db.candidates.get? p.candidateId = some row) : IsSettled row.state := by
  have hkey : row.candidateId = p.candidateId := key_of_get? hrow
  obtain ⟨hpromoted, hrevoked⟩ := hagrees row (mem_of_get? hrow)
  rcases hsound.states p hp with hstate | hstate
  · exact .inl (hpromoted.mpr ⟨p, hp, hkey.symm, hstate⟩)
  · exact .inr (hrevoked.mpr ⟨p, hp, hkey.symm, hstate⟩)

theorem stateAgrees_of_none {row : PolicyCandidate} (hstate : ¬IsSettled row.state)
    (hnone : ∀ p ∈ db.policies.rows, p.candidateId ≠ row.candidateId) : StateAgrees db row := by
  constructor
  · constructor
    · intro h
      exact absurd (.inl h) hstate
    · rintro ⟨p, hp, hid, -⟩
      exact absurd hid (hnone p hp)
  · constructor
    · intro h
      exact absurd (.inr h) hstate
    · rintro ⟨p, hp, hid, -⟩
      exact absurd hid (hnone p hp)

theorem Agrees.generate (hsound : Sound d db) (hagrees : Agrees db)
    (h : generateCandidates d db policy nowMs = .ok (db', candidates))
    (hopen : ∀ id row, Regenerates d db policy id → db.candidates.get? id = some row →
      ¬IsSettled row.state) : Agrees db' := by
  obtain ⟨-, hpolicies, -, -⟩ := generateCandidates_frame h
  intro row hrow
  rcases row_of_generateCandidates h (get?_of_mem hrow) with hsame | ⟨hrowOpen, hregenerates⟩
  · have hbefore := hagrees row (mem_of_get? hsame)
    rw [StateAgrees, hpolicies]
    exact hbefore
  · apply stateAgrees_of_none (not_isSettled_of_isOpen hrowOpen)
    rw [hpolicies]
    intro p hp hid
    obtain ⟨old, hold⟩ := hsound.owners p hp
    have hsettled := isSettled_of_policy hsound hagrees hp hold
    rw [hid] at hold
    exact hopen row.candidateId old hregenerates hold hsettled

theorem Agrees.writes {candidate : PolicyCandidate} {requiredDigest : String}
    {template : MaterializedPolicyTemplate} {promoted : PromotedPolicy} (hagrees : Agrees db)
    (h : Writes d db db' candidate requiredDigest template nowMs promoted) : Agrees db' := by
  obtain ⟨-, hfresh, -⟩ := insertPolicy_eq_ok.mp h.policies
  have hid : promoted.candidateId = candidate.candidateId := by rw [h.promoted_eq]; rfl
  have hstate : promoted.state = .promoted := by rw [h.promoted_eq]; rfl
  intro row hrow
  rw [h.candidates] at hrow
  obtain ⟨old, hold, rfl⟩ := List.mem_map.mp hrow
  by_cases hsame : old.candidateId = candidate.candidateId
  · rw [setCandidate_pos hsame]
    constructor
    · constructor
      · intro _
        exact ⟨promoted, (mem_policies_of_writes h).mpr (.inr rfl), hid.trans hsame.symm, hstate⟩
      · intro _
        rfl
    · constructor
      · intro hrevoked
        cases hrevoked
      · rintro ⟨p, hp, hpid, hpstate⟩
        rcases (mem_policies_of_writes h).mp hp with hp | rfl
        · exact absurd (hpid.trans (hsame.trans hid.symm)) (hfresh p hp)
        · rw [hstate] at hpstate
          cases hpstate
  · rw [setCandidate_neg hsame]
    have hpolicies : ∀ state, (∃ p ∈ db'.policies.rows, p.candidateId = old.candidateId ∧
        p.state = state) ↔ ∃ p ∈ db.policies.rows, p.candidateId = old.candidateId ∧
        p.state = state := by
      intro state
      constructor
      · rintro ⟨p, hp, hpid, hpstate⟩
        rcases (mem_policies_of_writes h).mp hp with hp | rfl
        · exact ⟨p, hp, hpid, hpstate⟩
        · exact absurd (hpid.symm.trans hid) hsame
      · rintro ⟨p, hp, hrest⟩
        exact ⟨p, (mem_policies_of_writes h).mpr (.inl hp), hrest⟩
    rw [StateAgrees, hpolicies, hpolicies]
    exact hagrees old hold

theorem Agrees.revoked (hsound : Sound d db) (hagrees : Agrees db) {policy : PromotedPolicy}
    (hpolicy : policy ∈ db.policies.rows) (hstate : policy.state = .promoted) (reason : String)
    (nowMs : Nat) : Agrees (revoked d db policy reason nowMs) := by
  have hown : setWhere (isRevocable policy.policyId) (revoke reason nowMs) policy =
      revoke reason nowMs policy := setWhere_pos (by simp [isRevocable, hstate])
  intro row hrow
  obtain ⟨old, hold, rfl⟩ := List.mem_map.mp hrow
  by_cases hsame : old.candidateId = policy.candidateId
  · rw [setCandidate_pos hsame]
    constructor
    · constructor
      · intro hpromoted
        cases hpromoted
      · rintro ⟨p, hp, hid, hpstate⟩
        obtain ⟨q, hq, rfl⟩ := mem_policies_revoked.mp hp
        rw [candidateId_setWhere_revoke] at hid
        rw [hsound.sole q hq policy hpolicy (hid.trans hsame), hown] at hpstate
        cases hpstate
    · constructor
      · intro _
        exact ⟨revoke reason nowMs policy, mem_policies_revoked.mpr ⟨policy, hpolicy, hown⟩,
          hsame.symm, rfl⟩
      · intro _
        rfl
  · rw [setCandidate_neg hsame]
    -- another candidate's policy has another id, and is left alone
    have hother : ∀ q ∈ db.policies.rows, q.candidateId = old.candidateId →
        setWhere (isRevocable policy.policyId) (revoke reason nowMs) q = q := by
      intro q hq hid
      apply setWhere_neg
      have hne : q.policyId ≠ policy.policyId := by
        intro heq
        have hsome := get?_of_mem hq
        rw [heq, get?_of_mem hpolicy] at hsome
        rw [Option.some.inj hsome] at hsame
        exact hsame hid.symm
      simp [isRevocable, hne]
    have hpolicies : ∀ state, (∃ p ∈ (Promotion.revoked d db policy reason nowMs).policies.rows,
        p.candidateId = old.candidateId ∧ p.state = state) ↔
        ∃ p ∈ db.policies.rows, p.candidateId = old.candidateId ∧ p.state = state := by
      intro state
      constructor
      · rintro ⟨p, hp, hid, hpstate⟩
        obtain ⟨q, hq, rfl⟩ := mem_policies_revoked.mp hp
        rw [candidateId_setWhere_revoke] at hid
        rw [hother q hq hid] at hpstate
        exact ⟨q, hq, hid, hpstate⟩
      · rintro ⟨q, hq, hid, hpstate⟩
        exact ⟨q, mem_policies_revoked.mpr ⟨q, hq, hother q hq hid⟩, hid, hpstate⟩
    rw [StateAgrees, hpolicies, hpolicies]
    exact hagrees old hold

/-- What is asked of a call: the rows agree after it, a generation leaves no settled row open, and a
promotion of a candidate whose policy is in force returns that policy. -/
def Lawful (d : Digests) (db : PolicyDatabase) (call : PolicyCall) : Prop :=
  Agrees (perform d db call) ∧
    match call with
    | .generate _ _ => ∀ id row row', db.candidates.get? id = some row → IsSettled row.state →
        (perform d db call).candidates.get? id = some row' → ¬IsOpen row'.state
    | .promote candidateId policy template nowMs => ∀ p ∈ db.policies.rows,
        p.candidateId = candidateId → p.state = .promoted →
        promoteCandidate d db candidateId policy template nowMs = .ok (db, p)
    | _ => True

def Heeds (d : Digests) (db : PolicyDatabase) : PolicyCall → Prop
  | .generate policy _ => ∀ id row, Regenerates d db policy id →
      db.candidates.get? id = some row → ¬IsSettled row.state
  | .promote candidateId policy _ _ => ∀ row, db.candidates.get? candidateId = some row →
      row.state = .promoted → computePromotionPolicyDigest d policy = .ok row.promotionPolicyDigest
  | _ => True

theorem loadPolicyByCandidate_of_mem (hsound : Sound d db) {p : PromotedPolicy}
    (hp : p ∈ db.policies.rows) : loadPolicyByCandidate db p.candidateId = some p := by
  unfold loadPolicyByCandidate
  cases hfind : db.policies.rows.find? fun row => row.candidateId = p.candidateId with
  | none =>
    have hnot := List.find?_eq_none.mp hfind p hp
    exact absurd (decide_eq_true rfl) hnot
  | some q =>
    have hq : q.candidateId = p.candidateId := by simpa using List.find?_some hfind
    rw [hsound.sole q (List.mem_of_find?_eq_some hfind) p hp hq]

theorem Heeds.lawful {call : PolicyCall} (hsound : Sound d db) (hagrees : Agrees db)
    (h : Heeds d db call) : Lawful d db call := by
  constructor
  · rcases perform_cases d db call with hsame | ⟨run, -, heq⟩ |
      ⟨policy, nowMs, candidates, rfl, hgenerate⟩ |
      ⟨candidateId, policy, template, nowMs, candidate, promoted, -, -, -, -, hwrites⟩ |
      ⟨policyId, reason, nowMs, row, -, hrow, hstate, -, heq⟩
    · rw [hsame]
      exact hagrees
    · rw [heq]
      exact hagrees
    · exact hagrees.generate hsound hgenerate h
    · exact hagrees.writes hwrites
    · rw [heq]
      exact hagrees.revoked hsound (mem_of_get? hrow) hstate reason nowMs
  · cases call with
    | calibrate run => trivial
    | revoke policyId reason nowMs => trivial
    | generate policy nowMs =>
      intro id row row' hrow hsettled hrow' hrowOpen
      simp only [perform] at hrow'
      cases hgenerate : generateCandidates d db policy nowMs with
      | error e =>
        rw [hgenerate] at hrow'
        obtain rfl := Option.some.inj (hrow.symm.trans hrow')
        exact not_isSettled_of_isOpen hrowOpen hsettled
      | ok result =>
        rw [hgenerate] at hrow'
        rcases row_of_generateCandidates hgenerate hrow' with hsame | ⟨-, hregenerates⟩
        · obtain rfl := Option.some.inj (hrow.symm.trans hsame)
          exact not_isSettled_of_isOpen hrowOpen hsettled
        · exact h id row hregenerates hrow hsettled
    | promote candidateId policy template nowMs =>
      rintro p hp rfl hstate
      obtain ⟨row, hrow⟩ := hsound.owners p hp
      have hkey : row.candidateId = p.candidateId := key_of_get? hrow
      obtain ⟨hpromoted, -⟩ := hagrees row (mem_of_get? hrow)
      have hrowState := hpromoted.mpr ⟨p, hp, hkey.symm, hstate⟩
      have hload := loadPolicyByCandidate_of_mem hsound hp
      exact promoteCandidate_eq_ok.mpr
        ⟨row, hrow, h row hrow hrowState, .inl ⟨hrowState, hload, rfl⟩⟩

theorem Lawful.heeds {call : PolicyCall} (hsound : Sound d db) (hagrees : Agrees db)
    (h : Lawful d db call) : Heeds d db call := by
  cases call with
  | calibrate run => trivial
  | revoke policyId reason nowMs => trivial
  | generate policy nowMs =>
    intro id row hregenerates hrow hsettled
    obtain ⟨db', candidates, hgenerate, row', hrow', hopen⟩ :=
      exists_generateCandidates nowMs hsound hregenerates
    have hperform : perform d db (.generate policy nowMs) = db' := by
      simp only [perform, hgenerate]
    have hnot := h.2 id row row' hrow hsettled
    rw [hperform] at hnot
    exact hnot hrow' hopen
  | promote candidateId policy template nowMs =>
    intro row hrow hstate
    have hkey : row.candidateId = candidateId := key_of_get? hrow
    obtain ⟨hpromoted, -⟩ := hagrees row (mem_of_get? hrow)
    obtain ⟨p, hp, hid, hpstate⟩ := hpromoted.mp hstate
    have hreturned := h.2 p hp (hid.trans hkey) hpstate
    obtain ⟨candidate, hcandidate, hdigest, -⟩ := promoteCandidate_eq_ok.mp hreturned
    obtain rfl := Option.some.inj (hrow.symm.trans hcandidate)
    exact hdigest

/-- The calls of a run are all lawful exactly when they are all heedful. -/
theorem lawful_iff_heeds (d : Digests) (calls : List PolicyCall) :
    Along (step d) (Lawful d) .empty calls ↔ Along (step d) (Heeds d) .empty calls := by
  have hempty : Sound d .empty ∧ Agrees .empty :=
    ⟨sound_empty d, fun row hrow => absurd hrow List.not_mem_nil⟩
  have hkeep : ∀ db call db', Sound d db ∧ Agrees db → Lawful d db call →
      step d db call = some db' → Sound d db' ∧ Agrees db' := by
    intro db call db' hI hlawful hstep
    obtain rfl := Option.some.inj hstep
    exact ⟨hI.1.perform call, hlawful.1⟩
  constructor
  · intro h
    exact h.imp hkeep (fun db call hI hlawful => hlawful.heeds hI.1 hI.2) hempty
  · intro h
    refine h.imp (I := fun db => Sound d db ∧ Agrees db) ?_
      (fun db call hI hheeds => hheeds.lawful hI.1 hI.2) hempty
    intro db call db' hI hheeds hstep
    exact hkeep db call db' hI (hheeds.lawful hI.1 hI.2) hstep

/-- Generated again from the same evidence, a promoted candidate is eligible beside its policy. -/
theorem promoted_candidate_reopened : ¬Along (step plainDigests) (Lawful plainDigests) .empty
    [.calibrate (missedRun "a" 1), .calibrate (missedRun "b" 2), .generate twoMisses 3,
      .promote unitCandidate twoMisses (unitTemplate "a") 4, .generate twoMisses 5] := by
  intro h
  have hpromoted := (((h.2 _ rfl).2 _ rfl).2 _ rfl).2 _ rfl
  have hagrees := hpromoted.1.1
  exact absurd hagrees (by decide +kernel)

end CandidateAgreement
