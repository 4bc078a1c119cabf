import FlowDeck.Policy.PolicySnapshots

/-! Applications of the policies in force, between the calls that promote and revoke them. -/

namespace PolicyApplications

open PolicyStore CandidateGeneration Promotion PolicyCalls PolicySnapshots Checked KeyOrder Table
open List

/-- A persisted application beside the snapshot it was computed from, which is not stored. -/
structure Reading where
  row : ApplicationRow
  snapshot : PolicySnapshot

structure PolicyHistory where
  db : PolicyDatabase
  applications : Table ApplicationRow.digest
  readings : List Reading
  nowMs : Nat

def PolicyHistory.empty : PolicyHistory where
  db := .empty
  applications := .empty
  readings := []
  nowMs := 0

inductive HistoryCall
  | policy (call : PolicyCall)
  | apply (basePlanDigest effectivePlanDigest : String) (addedCheckIds : List String) (nowMs : Nat)

def timeOf (h : PolicyHistory) : HistoryCall → Nat
  | .policy (.calibrate _) => h.nowMs
  | .policy (.generate _ nowMs) => nowMs
  | .policy (.promote _ _ _ nowMs) => nowMs
  | .policy (.revoke _ _ nowMs) => nowMs
  | .apply _ _ _ nowMs => nowMs

/-- The active snapshot is read and the application persisted with the time of the reading. -/
def applySnapshot (d : SnapshotDigests) (h : PolicyHistory)
    (basePlanDigest effectivePlanDigest : String) (addedCheckIds : List String) (nowMs : Nat) :
    PolicyHistory :=
  match activePolicySnapshot d h.db with
  | .error _ => h
  | .ok snapshot =>
    let application :=
      canonicalApplication d basePlanDigest effectivePlanDigest addedCheckIds snapshot
    match persistPolicyApplication h.applications application nowMs with
    | .error _ => h
    | .ok applications =>
      if (h.applications.get? application.applicationDigest).isSome then h
      else { h with
        applications
        readings := h.readings ++ [⟨⟨application, nowMs⟩, snapshot⟩] }

def performHistory (d : SnapshotDigests) (h : PolicyHistory) : HistoryCall → PolicyHistory
  | .policy call => { h with db := perform d.toDigests h.db call }
  | .apply basePlanDigest effectivePlanDigest addedCheckIds nowMs =>
    applySnapshot d h basePlanDigest effectivePlanDigest addedCheckIds nowMs

/-- Time does not go back, and may stand still. -/
def step (d : SnapshotDigests) (h : PolicyHistory) (call : HistoryCall) : Option PolicyHistory :=
  if timeOf h call < h.nowMs then none
  else some { performHistory d h call with nowMs := timeOf h call }

/-- The historical snapshot at an application's time is the one the application was read from. -/
def Reconstructs (d : SnapshotDigests) (h : PolicyHistory) : Prop :=
  h.applications.rows = h.readings.map (·.row) ∧
    ∀ r ∈ h.readings, historicalSnapshotAt d h.db r.row.appliedAtMs = .ok r.snapshot ∧
      r.snapshot.snapshotDigest = r.row.application.policySnapshotDigest

/-- A call that comes when an application's time can still be told from its own: a policy is promoted
after the applications before it, a policy is revoked after the applications that held it, and at an
application the rows in force by their times are those in force. -/
def Heeds (d : SnapshotDigests) (h : PolicyHistory) : HistoryCall → Prop
  | .policy (.revoke policyId reason nowMs) => ∀ p, h.db.policies.get? policyId = some p →
      p.state = .promoted → isDisallowedReason reason = false → ∀ r ∈ h.readings,
        p ∈ r.snapshot.policies → sqlInteger r.row.appliedAtMs < sqlInteger nowMs
  | .policy call => ∀ p ∈ (perform d.toDigests h.db call).policies.rows,
      p ∈ h.db.policies.rows ∨
        ∀ r ∈ h.readings, sqlInteger r.row.appliedAtMs < sqlInteger p.promotedAtMs
  | .apply basePlanDigest effectivePlanDigest addedCheckIds nowMs =>
      ∀ r ∈ (applySnapshot d h basePlanDigest effectivePlanDigest addedCheckIds nowMs).readings,
        r ∈ h.readings ∨ ∀ p ∈ h.db.policies.rows, isInForceAt nowMs p = isPromoted p

/-- What holds of the rows and readings after any calls. -/
structure Kept (d : SnapshotDigests) (h : PolicyHistory) : Prop where
  lifecycle : ∀ p ∈ h.db.policies.rows, Lifecycle p
  readings : h.applications.rows = h.readings.map (·.row)
  stands : ∀ r ∈ h.readings, Stands d h.db r.snapshot
  digests : ∀ r ∈ h.readings,
    r.snapshot.snapshotDigest = r.row.application.policySnapshotDigest

theorem kept_empty (d : SnapshotDigests) : Kept d .empty where
  lifecycle := fun _ hp => absurd hp not_mem_nil
  readings := rfl
  stands := fun _ hr => absurd hr not_mem_nil
  digests := fun _ hr => absurd hr not_mem_nil

variable {d : SnapshotDigests} {h : PolicyHistory} {db db' : PolicyDatabase} {call : PolicyCall}
  {snapshot : PolicySnapshot}

theorem Kept.reconstructs_iff (hkept : Kept d h) :
    Reconstructs d h ↔ ∀ r ∈ h.readings, Restores h.db r.row.appliedAtMs r.snapshot := by
  constructor
  · rintro ⟨-, hall⟩ r hr
    exact (historicalSnapshotAt_eq_ok_iff (hkept.stands r hr)).mp (hall r hr).1
  · intro hrestores
    refine ⟨hkept.readings, fun r hr => ⟨?_, hkept.digests r hr⟩⟩
    exact (historicalSnapshotAt_eq_ok_iff (hkept.stands r hr)).mpr (hrestores r hr)

inductive PolicyChange (d : Digests) (db db' : PolicyDatabase) (call : PolicyCall) : Prop
  | same (h : db'.policies = db.policies)
  | promoted (promoted : PromotedPolicy)
      (fresh : ∀ p ∈ db.policies.rows, p.policyId ≠ promoted.policyId)
      (rows : db'.policies.rows = db.policies.rows ++ [promoted])
      (state : promoted.state = .promoted) (revokedAtMs : promoted.revokedAtMs = none)
      (revokeReason : promoted.revokeReason = none)
      (call_eq : ∃ candidateId policy template, call =
        .promote candidateId policy template promoted.promotedAtMs)
  | revoked (row : PromotedPolicy) (reason : String) (nowMs : Nat)
      (mem : db.policies.get? row.policyId = some row) (state : row.state = .promoted)
      (allowed : isDisallowedReason reason = false)
      (call_eq : call = .revoke row.policyId reason nowMs)
      (rows : db'.policies.rows = db.policies.rows.map
        (setWhere (isRevocable row.policyId) (revoke reason nowMs)))

theorem policyChange (d : Digests) (db : PolicyDatabase) (call : PolicyCall) :
    PolicyChange d db (perform d db call) call := by
  rcases perform_cases d db call with hsame | ⟨run, -, heq⟩ |
    ⟨policy, nowMs, candidates, -, hgenerate⟩ |
    ⟨candidateId, policy, template, nowMs, candidate, promoted, rfl, -, -, -, hwrites⟩ |
    ⟨policyId, reason, nowMs, row, rfl, hrow, hstate, hallowed, heq⟩
  · exact .same (congrArg PolicyDatabase.policies hsame)
  · rw [heq]
    exact .same rfl
  · obtain ⟨-, hpolicies, -⟩ := generateCandidates_frame hgenerate
    exact .same hpolicies
  · obtain ⟨hinsert, -, -⟩ := insertPolicy_eq_ok.mp hwrites.policies
    obtain ⟨hnone, hrows⟩ := insert?_eq_some hinsert
    have hpromoted := hwrites.promoted_eq
    refine .promoted promoted (get?_eq_none_iff.mp hnone) hrows ?_ ?_ ?_ ?_
    · rw [hpromoted]
      rfl
    · rw [hpromoted]
      rfl
    · rw [hpromoted]
      rfl
    · rw [hpromoted]
      exact ⟨candidateId, policy, template, rfl⟩
  · obtain rfl := key_of_get? hrow
    rw [heq]
    exact .revoked row reason nowMs hrow hstate hallowed rfl rfl

theorem revoke_promotedAtMs (reason : String) (nowMs : Nat) (p : PromotedPolicy) :
    (revoke reason nowMs p).promotedAtMs = p.promotedAtMs := rfl

theorem revoke_revokedAtMs (reason : String) (nowMs : Nat) (p : PromotedPolicy) :
    (revoke reason nowMs p).revokedAtMs = some nowMs := rfl

theorem whileActive_setWhere (policyId reason : String) (nowMs : Nat) (p : PromotedPolicy) :
    whileActive (setWhere (isRevocable policyId) (revoke reason nowMs) p) = whileActive p := by
  unfold setWhere
  split_ifs
  · rfl
  · rfl

/-- The policies a call leaves are those before it up to their lifecycle, and new ones. -/
theorem PolicyChange.exists_whileActive {d : Digests} (h : PolicyChange d db db' call)
    {p : PromotedPolicy} (hp : p ∈ db.policies.rows) :
    ∃ q ∈ db'.policies.rows, whileActive q = whileActive p := by
  cases h with
  | same h => exact ⟨p, h ▸ hp, rfl⟩
  | promoted promoted fresh rows state revokedAtMs revokeReason call_eq =>
    rw [rows]
    exact ⟨p, mem_append_left _ hp, rfl⟩
  | revoked row reason nowMs mem state allowed call_eq rows =>
    rw [rows]
    exact ⟨_, mem_map_of_mem hp, whileActive_setWhere row.policyId reason nowMs p⟩

theorem PolicyChange.lifecycle {d : Digests} (h : PolicyChange d db db' call)
    (hlifecycle : ∀ p ∈ db.policies.rows, Lifecycle p) : ∀ p ∈ db'.policies.rows, Lifecycle p := by
  cases h with
  | same h => exact h ▸ hlifecycle
  | promoted promoted fresh rows state revokedAtMs revokeReason call_eq =>
    intro p hp
    rw [rows] at hp
    rcases mem_append.mp hp with hp | hp
    · exact hlifecycle p hp
    · rw [mem_singleton.mp hp]
      exact .inl ⟨state, revokedAtMs, revokeReason⟩
  | revoked row reason nowMs mem state allowed call_eq rows =>
    intro p hp
    rw [rows] at hp
    obtain ⟨q, hq, rfl⟩ := mem_map.mp hp
    unfold setWhere
    split_ifs
    · exact .inr ⟨rfl, nowMs, rfl⟩
    · exact hlifecycle q hq

theorem stands_of_change {d : SnapshotDigests} {db db' : PolicyDatabase} {call : PolicyCall}
    {snapshot : PolicySnapshot} (hstands : Stands d db snapshot)
    (h : PolicyChange d.toDigests db db' call) : Stands d db' snapshot where
  digested := hstands.digested
  supported := hstands.supported
  stored := by
    intro p hp
    obtain ⟨q, hq, rfl⟩ := hstands.stored p hp
    exact h.exists_whileActive hq
  distinct := hstands.distinct
  ordered := hstands.ordered

/-- What a promotion asks of a reading that its policies restore: to come later. -/
theorem restores_promoted_iff {appliedAtMs : Nat} {promoted : PromotedPolicy}
    (hstands : Stands d db snapshot) (hbefore : Restores db appliedAtMs snapshot)
    (hfresh : ∀ p ∈ db.policies.rows, p.policyId ≠ promoted.policyId)
    (hrows : db'.policies.rows = db.policies.rows ++ [promoted])
    (hnotRevoked : promoted.revokedAtMs = none) :
    Restores db' appliedAtMs snapshot ↔
      sqlInteger appliedAtMs < sqlInteger promoted.promotedAtMs := by
  have hnew : whileActive promoted ∉ snapshot.policies := by
    intro hmem
    obtain ⟨q, hq, heq⟩ := hstands.stored _ hmem
    have hid : q.policyId = promoted.policyId := by
      rw [← whileActive_policyId q, heq, whileActive_policyId]
    exact hfresh q hq hid
  have hforce : isInForceAt appliedAtMs promoted = true ↔
      ¬sqlInteger appliedAtMs < sqlInteger promoted.promotedAtMs := by
    simp [isInForceAt, hnotRevoked]
  constructor
  · intro hafter
    have hmem : promoted ∈ db'.policies.rows := by
      rw [hrows]
      exact mem_append_right _ (mem_singleton_self _)
    by_contra hlate
    exact hnew ((hafter promoted hmem).mp (hforce.mpr hlate))
  · intro hlate p hp
    rw [hrows] at hp
    rcases mem_append.mp hp with hp | hp
    · exact hbefore p hp
    · rw [mem_singleton.mp hp]
      constructor
      · intro hin
        exact absurd hlate (hforce.mp hin)
      · intro hmem
        exact absurd hmem hnew

/-- What a revocation asks of a reading that held the policy: to come later. -/
theorem restores_revoked_iff {appliedAtMs nowMs : Nat} {row : PromotedPolicy} {reason : String}
    (hbefore : Restores db appliedAtMs snapshot) (hrow : db.policies.get? row.policyId = some row)
    (hstate : row.state = .promoted) (hlifecycle : Lifecycle row)
    (hrows : db'.policies.rows = db.policies.rows.map
      (setWhere (isRevocable row.policyId) (revoke reason nowMs))) :
    Restores db' appliedAtMs snapshot ↔
      (row ∈ snapshot.policies → sqlInteger appliedAtMs < sqlInteger nowMs) := by
  have hmem : row ∈ db.policies.rows := mem_of_get? hrow
  have hwhile := hlifecycle.whileActive_eq hstate
  have hrevocable : isRevocable row.policyId row = true := by
    simp [isRevocable, hstate]
  have hnone : row.revokedAtMs = none := by
    rcases hlifecycle with ⟨-, hnone, -⟩ | ⟨hrevoked, -⟩
    · exact hnone
    · rw [hstate] at hrevoked
      cases hrevoked
  have hforceBefore := hbefore row hmem
  rw [hwhile] at hforceBefore
  have hforceAfter : isInForceAt appliedAtMs (revoke reason nowMs row) = true ↔
      isInForceAt appliedAtMs row = true ∧ sqlInteger appliedAtMs < sqlInteger nowMs := by
    have hafter : isInForceAt appliedAtMs (revoke reason nowMs row) =
        (decide (sqlInteger row.promotedAtMs ≤ sqlInteger appliedAtMs) &&
          decide (sqlInteger appliedAtMs < sqlInteger nowMs)) := by
      rw [isInForceAt, revoke_promotedAtMs, revoke_revokedAtMs, Option.all_some]
    have hbefore : isInForceAt appliedAtMs row =
        decide (sqlInteger row.promotedAtMs ≤ sqlInteger appliedAtMs) := by
      rw [isInForceAt, hnone, Option.all_none, Bool.and_true]
    rw [hafter, hbefore, Bool.and_eq_true, decide_eq_true_eq, decide_eq_true_eq]
  -- every other row is left alone
  have hother : ∀ p ∈ db.policies.rows, p ≠ row →
      setWhere (isRevocable row.policyId) (revoke reason nowMs) p = p := by
    intro p hp hne
    apply setWhere_neg
    have hid : p.policyId ≠ row.policyId := by
      intro hid
      have hget := get?_of_mem hp
      rw [hid, hrow] at hget
      exact hne (Option.some.inj hget).symm
    simp [isRevocable, hid]
  constructor
  · intro hafter hin
    have hrevoked := hafter (revoke reason nowMs row) (by
      rw [hrows]
      exact mem_map.mpr ⟨row, hmem, setWhere_pos hrevocable⟩)
    have hsame : whileActive (revoke reason nowMs row) = row := hwhile
    rw [hsame] at hrevoked
    exact (hforceAfter.mp (hrevoked.mpr hin)).2
  · intro hlate p hp
    rw [hrows] at hp
    obtain ⟨q, hq, rfl⟩ := mem_map.mp hp
    by_cases hqrow : q = row
    · rw [hqrow, setWhere_pos hrevocable, hforceAfter, hforceBefore]
      have hsame : whileActive (revoke reason nowMs row) = row := hwhile
      rw [hsame]
      constructor
      · rintro ⟨hin, -⟩
        exact hin
      · intro hin
        exact ⟨hin, hlate hin⟩
    · rw [hother q hq hqrow]
      exact hbefore q hq

/-- An application that is not persisted changes nothing; one that is brings its reading. -/
theorem applySnapshot_cases (d : SnapshotDigests) (h : PolicyHistory)
    (basePlanDigest effectivePlanDigest : String) (addedCheckIds : List String) (nowMs : Nat) :
    applySnapshot d h basePlanDigest effectivePlanDigest addedCheckIds nowMs = h ∨
      ∃ snapshot application applications, activePolicySnapshot d h.db = .ok snapshot ∧
        snapshot.snapshotDigest = application.policySnapshotDigest ∧
        h.applications.insert? ⟨application, nowMs⟩ = some applications ∧
        applySnapshot d h basePlanDigest effectivePlanDigest addedCheckIds nowMs =
          { h with
            applications
            readings := h.readings ++ [⟨⟨application, nowMs⟩, snapshot⟩] } := by
  unfold applySnapshot
  cases hactive : activePolicySnapshot d h.db with
  | error e => exact .inl rfl
  | ok snapshot =>
    simp only
    cases hpersist : persistPolicyApplication h.applications
        (canonicalApplication d basePlanDigest effectivePlanDigest addedCheckIds snapshot) nowMs with
    | error e => exact .inl rfl
    | ok applications =>
      simp only
      split_ifs with hstored
      · exact .inl rfl
      · unfold persistPolicyApplication at hpersist
        cases hinsert : h.applications.insert? ⟨canonicalApplication d basePlanDigest
            effectivePlanDigest addedCheckIds snapshot, nowMs⟩ with
        | none =>
          obtain ⟨row, hrow⟩ := insert?_eq_none hinsert
          exact absurd (Option.isSome_iff_exists.mpr ⟨row, hrow⟩) hstored
        | some inserted =>
          rw [hinsert] at hpersist
          obtain ⟨-, hsame⟩ := guard_eq_ok.mp hpersist
          obtain rfl := Except.ok.inj hsame
          exact .inr ⟨snapshot, _, inserted, rfl, rfl, hinsert, rfl⟩

theorem isPromoted_iff {p : PromotedPolicy} (hlifecycle : ∀ q ∈ db.policies.rows, Lifecycle q)
    (hpolicies : snapshot.policies =
      orderBy PromotedPolicy.policyId (db.policies.rows.filter isPromoted))
    (hp : p ∈ db.policies.rows) : whileActive p ∈ snapshot.policies ↔ isPromoted p = true := by
  rw [hpolicies, mem_orderBy, mem_filter]
  constructor
  · rintro ⟨hmem, hpromoted⟩
    have hsame := (hlifecycle _ hmem).whileActive_eq rfl
    rw [eq_of_whileActive hp hmem hsame.symm]
    exact hpromoted
  · intro hpromoted
    rw [(hlifecycle p hp).whileActive_eq (of_decide_eq_true hpromoted)]
    exact ⟨hp, hpromoted⟩

theorem restores_reading_iff (appliedAtMs : Nat) (hlifecycle : ∀ q ∈ db.policies.rows, Lifecycle q)
    (hpolicies : snapshot.policies =
      orderBy PromotedPolicy.policyId (db.policies.rows.filter isPromoted)) :
    Restores db appliedAtMs snapshot ↔
      ∀ p ∈ db.policies.rows, isInForceAt appliedAtMs p = isPromoted p := by
  constructor
  · intro hrestores p hp
    apply Bool.eq_iff_iff.mpr
    rw [hrestores p hp, isPromoted_iff hlifecycle hpolicies hp]
  · intro hsame p hp
    rw [hsame p hp, isPromoted_iff hlifecycle hpolicies hp]

theorem stands_of_active (hlifecycle : ∀ q ∈ db.policies.rows, Lifecycle q)
    (h : activePolicySnapshot d db = .ok snapshot) : Stands d db snapshot := by
  obtain ⟨hpolicies, hsupported, hdigested⟩ := activePolicySnapshot_eq_ok h
  have hdistinct := nodup_filter db.policies.unique isPromoted
  refine ⟨hdigested, hsupported, ?_, ?_, ?_⟩
  · intro p hp
    rw [hpolicies, mem_orderBy, mem_filter] at hp
    exact ⟨p, hp.1, (hlifecycle p hp.1).whileActive_eq (of_decide_eq_true hp.2)⟩
  · rw [hpolicies]
    exact nodup_orderBy hdistinct
  · rw [hpolicies]
    exact orderBy_orderBy hdistinct

theorem Kept.performHistory (hkept : Kept d h) (call : HistoryCall) :
    Kept d (performHistory d h call) := by
  cases call with
  | policy call =>
    have hchange := policyChange d.toDigests h.db call
    exact ⟨hchange.lifecycle hkept.lifecycle, hkept.readings,
      fun r hr => stands_of_change (hkept.stands r hr) hchange, hkept.digests⟩
  | apply basePlanDigest effectivePlanDigest addedCheckIds nowMs =>
    simp only [PolicyApplications.performHistory]
    rcases applySnapshot_cases d h basePlanDigest effectivePlanDigest addedCheckIds nowMs with
      hsame | ⟨snapshot, application, applications, hactive, hdigest, hinsert, heq⟩
    · rw [hsame]
      exact hkept
    · rw [heq]
      refine ⟨hkept.lifecycle, ?_, ?_, ?_⟩
      · rw [(insert?_eq_some hinsert).2, hkept.readings, map_append]
        rfl
      · intro r hr
        rcases mem_append.mp hr with hr | hr
        · exact hkept.stands r hr
        · rw [mem_singleton.mp hr]
          exact stands_of_active hkept.lifecycle hactive
      · intro r hr
        rcases mem_append.mp hr with hr | hr
        · exact hkept.digests r hr
        · rw [mem_singleton.mp hr]
          exact hdigest

theorem restores_of_change_iff {readings : List Reading}
    (hchange : PolicyChange d.toDigests db db' call)
    (hcall : ∀ policyId reason nowMs, call ≠ .revoke policyId reason nowMs)
    (hstands : ∀ r ∈ readings, Stands d db r.snapshot)
    (hbefore : ∀ r ∈ readings, Restores db r.row.appliedAtMs r.snapshot) :
    (∀ r ∈ readings, Restores db' r.row.appliedAtMs r.snapshot) ↔
      ∀ p ∈ db'.policies.rows, p ∈ db.policies.rows ∨
        ∀ r ∈ readings, sqlInteger r.row.appliedAtMs < sqlInteger p.promotedAtMs := by
  cases hchange with
  | same h =>
    constructor
    · intro _ p hp
      exact .inl (h ▸ hp)
    · intro _ r hr
      rw [Restores, h]
      exact hbefore r hr
  | promoted promoted fresh rows state revokedAtMs revokeReason call_eq =>
    have hiff := fun r hr => restores_promoted_iff (hstands r hr) (hbefore r hr) fresh rows revokedAtMs
    constructor
    · intro hall p hp
      rw [rows] at hp
      rcases mem_append.mp hp with hp | hp
      · exact .inl hp
      · rw [mem_singleton.mp hp]
        exact .inr fun r hr => (hiff r hr).mp (hall r hr)
    · intro hheeds r hr
      have hmem : promoted ∈ db'.policies.rows := by
        rw [rows]
        exact mem_append_right _ (mem_singleton_self _)
      rcases hheeds promoted hmem with hold | hlate
      · exact absurd rfl (fresh promoted hold)
      · exact (hiff r hr).mpr (hlate r hr)
  | revoked row reason nowMs mem state allowed call_eq rows =>
    exact absurd call_eq (hcall row.policyId reason nowMs)

theorem restores_performHistory_iff (hkept : Kept d h)
    (hbefore : ∀ r ∈ h.readings, Restores h.db r.row.appliedAtMs r.snapshot) (call : HistoryCall) :
    (∀ r ∈ (performHistory d h call).readings,
      Restores (performHistory d h call).db r.row.appliedAtMs r.snapshot) ↔ Heeds d h call := by
  cases call with
  | apply basePlanDigest effectivePlanDigest addedCheckIds nowMs =>
    simp only [PolicyApplications.performHistory, Heeds]
    rcases applySnapshot_cases d h basePlanDigest effectivePlanDigest addedCheckIds nowMs with
      hsame | ⟨snapshot, application, applications, hactive, -, -, heq⟩
    · rw [hsame]
      constructor
      · intro _ r hr
        exact .inl hr
      · intro _
        exact hbefore
    · obtain ⟨hpolicies, -, -⟩ := activePolicySnapshot_eq_ok hactive
      have hreading := restores_reading_iff nowMs hkept.lifecycle hpolicies
      rw [heq]
      constructor
      · intro hall r hr
        rcases mem_append.mp hr with hr | hr
        · exact .inl hr
        · have hnew := hall ⟨⟨application, nowMs⟩, snapshot⟩ (mem_append_right _
            (mem_singleton_self _))
          exact .inr (hreading.mp hnew)
      · intro hheeds r hr
        rcases hheeds r hr with hold | hsame
        · exact hbefore r hold
        · rcases mem_append.mp hr with hold | hnew
          · exact hbefore r hold
          · rw [mem_singleton.mp hnew]
            exact hreading.mpr hsame
  | policy call =>
    have hchange := policyChange d.toDigests h.db call
    cases call with
    | calibrate run =>
      exact restores_of_change_iff hchange (by simp) hkept.stands hbefore
    | generate policy nowMs =>
      exact restores_of_change_iff hchange (by simp) hkept.stands hbefore
    | promote candidateId policy template nowMs =>
      exact restores_of_change_iff hchange (by simp) hkept.stands hbefore
    | revoke policyId reason nowMs =>
      simp only [PolicyApplications.performHistory, Heeds]
      cases hchange with
      | same hsame =>
        constructor
        · intro _ p hp hstate hallowed
          obtain rfl := key_of_get? hp
          -- the revocation would have been made
          have hrevoked : perform d.toDigests h.db (.revoke p.policyId reason nowMs) =
              revoked d.toDigests h.db p reason nowMs := by
            simp only [perform, revokePolicy_eq nowMs hp hstate hallowed]
          rw [hrevoked] at hsame
          have hget := congrArg (fun policies => policies.get? p.policyId) hsame
          simp only [revoked, get?_update, hp, Option.map_some, Option.some.injEq] at hget
          rw [setWhere_pos (by simp [isRevocable, hstate])] at hget
          rw [← hget] at hstate
          cases hstate
        · intro _ r hr
          rw [Restores, hsame]
          exact hbefore r hr
      | promoted promoted fresh rows state revokedAtMs revokeReason call_eq =>
        obtain ⟨candidateId, policy, template, heq⟩ := call_eq
        cases heq
      | revoked row reason' nowMs' mem state allowed call_eq rows =>
        cases call_eq
        have hiff := fun r hr => restores_revoked_iff (hbefore r hr) mem state
          (hkept.lifecycle row (mem_of_get? mem)) rows
        constructor
        · intro hall p hp _ _ r hr
          obtain rfl := Option.some.inj (mem.symm.trans hp)
          exact (hiff r hr).mp (hall r hr)
        · intro hheeds r hr
          exact (hiff r hr).mpr (hheeds row mem state allowed r hr)

/-- In every state of a history the applications' snapshots are reconstructed exactly when every call
heeds them. -/
theorem reconstructs_iff_heeds (d : SnapshotDigests) (calls : List HistoryCall) :
    Machine.Along (step d)
      (fun h call => ∀ h', step d h call = some h' → Reconstructs d h') .empty calls ↔
    Machine.Along (step d) (fun h call => h.nowMs ≤ timeOf h call → Heeds d h call) .empty calls := by
  have hempty : Kept d .empty ∧ Reconstructs d .empty :=
    ⟨kept_empty d, rfl, fun r hr => absurd hr not_mem_nil⟩
  have hnext : ∀ h call h', step d h call = some h' →
      h.nowMs ≤ timeOf h call ∧ h' = { performHistory d h call with nowMs := timeOf h call } := by
    intro h call h' hstep
    unfold step at hstep
    split_ifs at hstep with hback
    exact ⟨not_lt.mp hback, (Option.some.inj hstep).symm⟩
  have hkeep : ∀ h call h', Kept d h → step d h call = some h' → Kept d h' := by
    intro h call h' hkept hstep
    obtain ⟨-, rfl⟩ := hnext h call h' hstep
    have hafter := hkept.performHistory call
    exact ⟨hafter.lifecycle, hafter.readings, hafter.stands, hafter.digests⟩
  have hiff : ∀ h call h', Kept d h → Reconstructs d h → step d h call = some h' →
      (Reconstructs d h' ↔ Heeds d h call) := by
    intro h call h' hkept hbefore hstep
    obtain ⟨-, rfl⟩ := hnext h call h' hstep
    rw [← restores_performHistory_iff hkept (hkept.reconstructs_iff.mp hbefore) call]
    exact (hkept.performHistory call).reconstructs_iff
  constructor
  · intro hall
    refine hall.imp (I := fun h => Kept d h ∧ Reconstructs d h) ?_ ?_ hempty
    · intro h call h' hI hlawful hstep
      exact ⟨hkeep h call h' hI.1 hstep, hlawful h' hstep⟩
    · intro h call hI hlawful htime
      have hstep : step d h call = some { performHistory d h call with nowMs := timeOf h call } :=
        if_neg (not_lt.mpr htime)
      exact (hiff h call _ hI.1 hI.2 hstep).mp (hlawful _ hstep)
  · intro hall
    refine hall.imp (I := fun h => Kept d h ∧ Reconstructs d h) ?_ ?_ hempty
    · intro h call h' hI hheeds hstep
      exact ⟨hkeep h call h' hI.1 hstep,
        (hiff h call h' hI.1 hI.2 hstep).mpr (hheeds (hnext h call h' hstep).1)⟩
    · intro h call hI hheeds h' hstep
      exact (hiff h call h' hI.1 hI.2 hstep).mpr (hheeds (hnext h call h' hstep).1)

/-- Snapshots and applications that stand for themselves too. -/
def plainSnapshotDigests : SnapshotDigests where
  toDigests := plainDigests
  canonicalSnapshot := fun policies => String.intercalate "," (policies.map (·.policyId))
  canonicalApplication := fun application =>
    String.intercalate "," [application.basePlanDigest, application.policySnapshotDigest,
      application.effectivePlanDigest]

def unitPolicy : String :=
  policyIdOf plainDigests
    { draftCandidate plainDigests twoMisses "2,2" 3 (scopeOf "core") "unit" [] with
      candidateDigest := "unit,2" } "2,2" "unit,core"

/-- Applied and revoked in the same millisecond, a policy is missing from the reconstruction. -/
theorem revoked_in_same_millisecond : ¬Machine.Along (step plainSnapshotDigests)
    (fun h call => ∀ h', step plainSnapshotDigests h call = some h' →
      Reconstructs plainSnapshotDigests h') .empty
    [.policy (.calibrate (missedRun "a" 1)), .policy (.calibrate (missedRun "b" 2)),
      .policy (.generate twoMisses 3), .policy (.promote unitCandidate twoMisses (unitTemplate "a") 4),
      .apply "base" "effective" ["unit"] 5, .policy (.revoke unitPolicy "superseded" 5)] := by
  intro h
  have hlast := (((((h.2 _ rfl).2 _ rfl).2 _ rfl).2 _ rfl).2 _ rfl).1 _ rfl
  have hread := hlast.2
  have hall : all _ _ = true := all_eq_true.mpr fun r hr =>
    decide_eq_true (congrArg Except.toOption (hread r hr).1)
  exact absurd hall (by decide +kernel)

end PolicyApplications
