import FlowDeck.Library.KeyOrder
import FlowDeck.Policy.PolicyCalls
import Mathlib.Data.String.Basic

/-! The policies in force, read now and reconstructed later. -/

namespace PolicySnapshots

open PolicyStore Promotion Checked KeyOrder

structure PolicySnapshot where
  policies : List PromotedPolicy
  snapshotDigest : String
  deriving DecidableEq

structure PolicyApplication where
  applicationId : String
  basePlanDigest : String
  policySnapshotDigest : String
  effectivePlanDigest : String
  addedCheckIds : List String
  applicationDigest : String
  deriving DecidableEq

/-- A row of `policy_applications`. -/
structure ApplicationRow where
  application : PolicyApplication
  appliedAtMs : Nat
  deriving DecidableEq

def ApplicationRow.digest (row : ApplicationRow) : String := row.application.applicationDigest

structure SnapshotDigests extends Digests where
  canonicalSnapshot : List PromotedPolicy → String
  canonicalApplication : PolicyApplication → String

/-- A `u64` as the integer column holds it. -/
def sqlInteger (n : Nat) : Int := (n : Int).bmod (2 ^ 64)

def computeSnapshotDigest (d : SnapshotDigests) (policies : List PromotedPolicy) :
    Except String String :=
  computeCanonicalSha256 d.toDigests
    (policies.flatMap fun p => [p.policyContractVersion, p.promotedAtMs] ++ p.revokedAtMs.toList)
    (d.canonicalSnapshot policies)

/-- An application holds no number. -/
def computeApplicationDigest (d : SnapshotDigests) (application : PolicyApplication) : String :=
  d.sha256 (d.canonicalApplication application)

def snapshotOf (d : SnapshotDigests) (policies : List PromotedPolicy) :
    Except String PolicySnapshot := do
  let snapshotDigest ← computeSnapshotDigest d policies
  return { policies, snapshotDigest }

def hasEmptyField (p : PromotedPolicy) : Bool :=
  p.policyId = "" || p.candidateId = "" || p.checkId = "" || p.templateDigest = "" ||
    p.candidateDigest = "" || p.promotionPolicyDigest = "" || p.promotedPolicyDigest = ""

def validateLifecycle (p : PromotedPolicy) : Except String Unit :=
  match p.state, p.revokedAtMs with
  | .promoted, none => .ok ()
  | .revoked, some _ => .ok ()
  | .promoted, some _ | .revoked, none =>
    .error "policy snapshot contains inconsistent revocation lifecycle fields"
  | _, _ => .error "policy snapshot contains unsupported promoted-policy lifecycle state"

def expectedPolicyDigest (d : SnapshotDigests) (p : PromotedPolicy) : String :=
  d.sha256 (toString policyContractVersion ++ ":" ++ p.candidateId ++ ":" ++
    PolicyAction.addCheck.text ++ ":" ++ p.trigger.kind ++ ":" ++ p.trigger.scope ++ ":" ++
    p.checkId ++ ":" ++ p.templateDigest)

def expectedPolicyId (d : SnapshotDigests) (p : PromotedPolicy) : String :=
  "policy_" ++ d.sha256 (p.candidateId ++ ":" ++ p.candidateDigest ++ ":" ++
    p.promotionPolicyDigest ++ ":" ++ p.templateDigest)

def validatePersistedPolicyIdentity (d : SnapshotDigests) (p : PromotedPolicy) :
    Except String Unit := do
  refuseIf (p.policyContractVersion ≠ policyContractVersion ∨ hasEmptyField p)
    "policy snapshot contains missing or unsupported policy identity"
  refuseIf (p.action ≠ .addCheck ∨ p.trigger.kind ≠ "scope")
    "policy snapshot contains non-additive or unsupported policy authority"
  validateLifecycle p
  let _ ← scopeTrigger p.trigger.scope
  refuseIf (p.promotedPolicyDigest ≠ expectedPolicyDigest d p ∨ p.policyId ≠ expectedPolicyId d p)
    "policy snapshot contains a template-unbound or corrupt policy digest"

/-- The rows one after another, up to the first that is refused. -/
def validateAll (d : SnapshotDigests) : List PromotedPolicy → Except String Unit
  | [] => .ok ()
  | p :: rest => do
    validatePersistedPolicyIdentity d p
    validateAll d rest

def isPromoted (p : PromotedPolicy) : Bool := p.state = .promoted

def activePolicySnapshot (d : SnapshotDigests) (db : PolicyDatabase) :
    Except String PolicySnapshot := do
  let persisted := orderBy PromotedPolicy.policyId db.policies.rows
  validateAll d persisted
  snapshotOf d (persisted.filter isPromoted)

/-- `promoted_at_ms <= ?1 AND (revoked_at_ms IS NULL OR revoked_at_ms > ?1)`. -/
def isInForceAt (appliedAtMs : Nat) (p : PromotedPolicy) : Bool :=
  decide (sqlInteger p.promotedAtMs ≤ sqlInteger appliedAtMs) &&
    p.revokedAtMs.all fun revokedAtMs => decide (sqlInteger appliedAtMs < sqlInteger revokedAtMs)

def hasUnsupportedAuthority (p : PromotedPolicy) : Bool :=
  p.policyContractVersion ≠ policyContractVersion || p.action ≠ .addCheck ||
    p.trigger.kind ≠ "scope" || p.policyId = "" || p.checkId = "" || p.templateDigest = "" ||
    p.promotedPolicyDigest = ""

/-- The lifecycle of a row as it was while the row was active. -/
def whileActive (p : PromotedPolicy) : PromotedPolicy :=
  { p with state := .promoted, revokedAtMs := none, revokeReason := none }

theorem whileActive_policyId (p : PromotedPolicy) : (whileActive p).policyId = p.policyId := rfl

def historicalSnapshotAt (d : SnapshotDigests) (db : PolicyDatabase) (appliedAtMs : Nat) :
    Except String PolicySnapshot := do
  let rows := orderBy PromotedPolicy.policyId (db.policies.rows.filter (isInForceAt appliedAtMs))
  refuseIf (rows.any hasUnsupportedAuthority)
    "historical policy snapshot contains unsupported policy authority"
  snapshotOf d (rows.map whileActive)

def canonicalApplication (d : SnapshotDigests) (basePlanDigest effectivePlanDigest : String)
    (addedCheckIds : List String) (snapshot : PolicySnapshot) : PolicyApplication :=
  let draft : PolicyApplication := {
    applicationId := ""
    basePlanDigest
    policySnapshotDigest := snapshot.snapshotDigest
    effectivePlanDigest
    addedCheckIds
    applicationDigest := "" }
  let digest := computeApplicationDigest d draft
  { draft with applicationDigest := digest, applicationId := "policyapp_" ++ digest }

def persistPolicyApplication (applications : Table ApplicationRow.digest)
    (application : PolicyApplication) (appliedAtMs : Nat) :
    Except String (Table ApplicationRow.digest) :=
  match applications.insert? { application, appliedAtMs } with
  | none => .ok applications
  | some inserted =>
    if applications.rows.any fun row =>
        row.application.applicationId = application.applicationId then
      .error ("failed to persist policy application: UNIQUE constraint failed: " ++
        "policy_applications.application_id")
    else .ok inserted

variable {d : SnapshotDigests} {p : PromotedPolicy} {snapshot : PolicySnapshot}
  {db : PolicyDatabase}

theorem validate_of_mem {ps : List PromotedPolicy} (h : validateAll d ps = .ok ()) (hp : p ∈ ps) :
    validatePersistedPolicyIdentity d p = .ok () := by
  induction ps with
  | nil => exact absurd hp List.not_mem_nil
  | cons first rest ih =>
    obtain ⟨⟨⟩, hfirst, hrest⟩ := bind_eq_ok.mp h
    rcases List.mem_cons.mp hp with rfl | hp
    · exact hfirst
    · exact ih hrest hp

/-- A row that is valid now is supported when it is read as history. -/
theorem supported_of_validate (h : validatePersistedPolicyIdentity d p = .ok ()) :
    hasUnsupportedAuthority p = false := by
  simp only [validatePersistedPolicyIdentity, bind_eq_ok, refuseIf_eq_ok, not_or, ne_eq,
    not_not, hasEmptyField, Bool.or_eq_true, decide_eq_true_eq] at h
  obtain ⟨-, ⟨hversion, ⟨⟨⟨⟨⟨⟨hid, -⟩, hcheck⟩, htemplate⟩, -⟩, -⟩, hdigest⟩⟩, -, ⟨-, hkind⟩, -⟩ := h
  simp [hasUnsupportedAuthority, hversion, hkind, hid, hcheck, htemplate, hdigest]

theorem snapshotOf_eq_ok {policies : List PromotedPolicy} (h : snapshotOf d policies = .ok snapshot) :
    snapshot.policies = policies := by
  simp only [snapshotOf, bind_eq_ok, pure_eq_ok] at h
  obtain ⟨digest, -, heq⟩ := h
  rw [← heq]

/-- What was read of the policies in force: valid rows, in order, under their digest. -/
theorem activePolicySnapshot_eq_ok (h : activePolicySnapshot d db = .ok snapshot) :
    snapshot.policies = orderBy PromotedPolicy.policyId (db.policies.rows.filter isPromoted) ∧
      (∀ p ∈ snapshot.policies, hasUnsupportedAuthority p = false) ∧
      snapshotOf d snapshot.policies = .ok snapshot := by
  simp only [activePolicySnapshot, bind_eq_ok] at h
  obtain ⟨⟨⟩, hvalid, hsnapshot⟩ := h
  have hpolicies := snapshotOf_eq_ok hsnapshot
  refine ⟨hpolicies.trans (filter_orderBy db.policies.unique isPromoted), ?_, ?_⟩
  · intro p hp
    rw [hpolicies] at hp
    exact supported_of_validate (validate_of_mem hvalid (List.mem_filter.mp hp).1)
  · rw [hpolicies]
    exact hsnapshot

theorem hasUnsupportedAuthority_whileActive (p : PromotedPolicy) :
    hasUnsupportedAuthority (whileActive p) = hasUnsupportedAuthority p := rfl

/-- A policy in force has not been revoked, and a revoked one says when. -/
def Lifecycle (p : PromotedPolicy) : Prop :=
  (p.state = .promoted ∧ p.revokedAtMs = none ∧ p.revokeReason = none) ∨
    (p.state = .revoked ∧ ∃ revokedAtMs, p.revokedAtMs = some revokedAtMs)

theorem Lifecycle.whileActive_eq (h : Lifecycle p) (hstate : p.state = .promoted) :
    whileActive p = p := by
  rcases h with ⟨-, hrevoked, hreason⟩ | ⟨hrevoked, -⟩
  · obtain ⟨id, version, candidate, action, trigger, check, template, candidateDigest,
      promotionDigest, digest, state, promotedAtMs, revokedAtMs, reason⟩ := p
    simp only at hstate hrevoked hreason
    rw [hstate, hrevoked, hreason]
    rfl
  · rw [hstate] at hrevoked
    cases hrevoked

/-- The rows in force at the time are those of the snapshot. -/
def Restores (db : PolicyDatabase) (appliedAtMs : Nat) (snapshot : PolicySnapshot) : Prop :=
  ∀ p ∈ db.policies.rows, isInForceAt appliedAtMs p = true ↔ whileActive p ∈ snapshot.policies

/-- A snapshot that was read of rows that are still there, up to their lifecycle. -/
structure Stands (d : SnapshotDigests) (db : PolicyDatabase) (snapshot : PolicySnapshot) : Prop where
  digested : snapshotOf d snapshot.policies = .ok snapshot
  supported : ∀ p ∈ snapshot.policies, hasUnsupportedAuthority p = false
  stored : ∀ p ∈ snapshot.policies, ∃ q ∈ db.policies.rows, whileActive q = p
  distinct : (snapshot.policies.map PromotedPolicy.policyId).Nodup
  ordered : orderBy PromotedPolicy.policyId snapshot.policies = snapshot.policies

theorem eq_of_whileActive {q : PromotedPolicy} (hp : p ∈ db.policies.rows)
    (hq : q ∈ db.policies.rows) (h : whileActive p = whileActive q) : p = q := by
  have hid : p.policyId = q.policyId := by
    rw [← whileActive_policyId p, h, whileActive_policyId]
  have hget := Table.get?_of_mem hp
  rw [hid, Table.get?_of_mem hq] at hget
  exact (Option.some.inj hget).symm

theorem historicalSnapshotAt_eq_ok_iff {appliedAtMs : Nat} (h : Stands d db snapshot) :
    historicalSnapshotAt d db appliedAtMs = .ok snapshot ↔ Restores db appliedAtMs snapshot := by
  have hdistinct : (((db.policies.rows.filter (isInForceAt appliedAtMs)).map whileActive).map
      PromotedPolicy.policyId).Nodup :=
    nodup_map whileActive_policyId (nodup_filter db.policies.unique _)
  have hmap := map_orderBy whileActive_policyId
    (db.policies.rows.filter (isInForceAt appliedAtMs))
  have hsame : (orderBy PromotedPolicy.policyId
      (db.policies.rows.filter (isInForceAt appliedAtMs))).map whileActive = snapshot.policies ↔
      Restores db appliedAtMs snapshot := by
    rw [hmap, ← h.ordered, orderBy_eq_iff hdistinct h.distinct]
    constructor
    · intro hmem p hp
      constructor
      · intro hforce
        exact (hmem _).mp (List.mem_map_of_mem (List.mem_filter.mpr ⟨hp, hforce⟩))
      · intro hin
        obtain ⟨q, hq, heq⟩ := List.mem_map.mp ((hmem _).mpr hin)
        obtain ⟨hq, hforce⟩ := List.mem_filter.mp hq
        rw [← eq_of_whileActive hq hp heq]
        exact hforce
    · intro hrestores p
      constructor
      · intro hp
        obtain ⟨q, hq, rfl⟩ := List.mem_map.mp hp
        obtain ⟨hq, hforce⟩ := List.mem_filter.mp hq
        exact (hrestores q hq).mp hforce
      · intro hp
        obtain ⟨q, hq, rfl⟩ := h.stored p hp
        exact List.mem_map_of_mem (List.mem_filter.mpr ⟨hq, (hrestores q hq).mpr hp⟩)
  rw [← hsame]
  simp only [historicalSnapshotAt, bind_eq_ok, refuseIf_eq_ok, Bool.not_eq_true]
  constructor
  · rintro ⟨⟨⟩, -, hsnapshot⟩
    exact (snapshotOf_eq_ok hsnapshot).symm
  · intro hpolicies
    refine ⟨(), ?_, ?_⟩
    · apply List.any_eq_false.mpr
      intro p hp
      have hmem : whileActive p ∈ snapshot.policies := by
        rw [← hpolicies]
        exact List.mem_map_of_mem hp
      rw [← hasUnsupportedAuthority_whileActive, h.supported _ hmem]
      exact Bool.false_ne_true
    · rw [hpolicies]
      exact h.digested

end PolicySnapshots
