import FlowDeck.Verification.ExecutedRuns

/-! What the outcome and the assurance of a run say of the checks that were planned. -/

namespace PlanExecutor

open CalibrationHistory CheckDiscovery CheckResolution PolicyStore RunArtifact Statements List

variable {x : Services} {c : Checkout} {plan : VerificationPlan}
  {options : VerificationExecutorOptions} {w : World} {conflicting : List (String × String)}

/-! ### The checks that are kept -/

theorem mem_deduplicateStep {d : Deduplication} {check kept : PlannedCheck} (h : kept ∈ d.uniqueChecks) :
    kept ∈ (deduplicateStep d check).uniqueChecks := by
  unfold deduplicateStep
  split
  · split <;> exact h
  · exact mem_append_left _ h

theorem named_deduplicateStep (d : Deduplication) (check : PlannedCheck) :
    ∃ kept ∈ (deduplicateStep d check).uniqueChecks, kept.checkId = check.checkId := by
  cases hfind : d.uniqueChecks.find? fun existing => existing.checkId = check.checkId with
  | some existing =>
    have hid : existing.checkId = check.checkId := by simpa using find?_some hfind
    exact ⟨existing, mem_deduplicateStep (mem_of_find?_eq_some hfind), hid⟩
  | none =>
    refine ⟨check, ?_, rfl⟩
    simp only [deduplicateStep, hfind]
    exact mem_append_right _ mem_cons_self

variable {checks : List PlannedCheck} {p : Progress}

theorem named_deduplicate {d : Deduplication} {check : PlannedCheck}
    (h : check ∈ checks ∨ ∃ kept ∈ d.uniqueChecks, kept.checkId = check.checkId) :
    ∃ kept ∈ (checks.foldl deduplicateStep d).uniqueChecks, kept.checkId = check.checkId := by
  induction checks generalizing d with
  | nil => simpa using h
  | cons first checks ih =>
    apply ih
    rcases h with hmem | ⟨kept, hkept, hid⟩
    · rcases mem_cons.mp hmem with rfl | hmem
      · exact Or.inr (named_deduplicateStep d check)
      · exact Or.inl hmem
    · exact Or.inr ⟨kept, mem_deduplicateStep hkept, hid⟩

/-! ### The results -/

/-- A status that a check can be left with. -/
def Ended (status : CheckExecutionStatus) : Prop := status ≠ .pending ∧ status ≠ .running

theorem ended_endStatus (bounds : ProcessBounds) (timedOut exceeded : Bool) (exitCode : Option Int)
    (signal : Option String) : Ended (endStatus bounds timedOut exceeded exitCode signal).1 := by
  unfold endStatus
  split
  · exact ⟨nofun, nofun⟩
  split
  · exact ⟨nofun, nofun⟩
  split
  · split <;> exact ⟨nofun, nofun⟩
  · exact ⟨nofun, nofun⟩
  · exact ⟨nofun, nofun⟩

theorem ended_executeBoundedCommand (x : Services) (bounds : ProcessBounds) (program : String)
    (count : Nat) (process : Process) :
    Ended (executeBoundedCommand x bounds program count process).status := by
  unfold executeBoundedCommand
  cases process.ending with
  | ended timedOut overflowed exitCode signal stdout stderr => exact ended_endStatus _ _ _ _ _
  | unsupportedPlatform => exact ⟨nofun, nofun⟩
  | spawnError e => exact ⟨nofun, nofun⟩
  | waitError e => exact ⟨nofun, nofun⟩

structure Answered (checks : List PlannedCheck) (p : Progress) : Prop where
  ids : p.results.map (·.checkId) = checks.map (·.checkId)
  results : ∀ r ∈ p.results, Ended r.status
  cached : ∀ entry ∈ p.invocationCache, Ended entry.2.status

theorem Answered.append {p' : Progress} (h : Answered checks p) {check : PlannedCheck}
    {r : CheckExecutionResult} (hresults : p'.results = p.results ++ [r])
    (hid : r.checkId = check.checkId) (hended : Ended r.status)
    (hcached : ∀ entry ∈ p'.invocationCache, Ended entry.2.status) :
    Answered (checks ++ [check]) p' := by
  constructor
  · simp [hresults, h.ids, hid]
  · intro other hother
    rw [hresults, mem_append, mem_singleton] at hother
    rcases hother with hother | rfl
    · exact h.results other hother
    · exact hended
  · exact hcached

theorem Answered.invoke (h : Answered checks p) (x : Services)
    (options : VerificationExecutorOptions) (root : String) (w : World) (i : Nat)
    (check : PlannedCheck) (inv : ConcreteInvocation) :
    Answered (checks ++ [check]) (p.invoke x options root w i check inv) := by
  unfold Progress.invoke
  cases hlookup : p.invocationCache.lookup inv.cacheKey with
  | some cached =>
    have hended : Ended cached.status := by
      obtain ⟨before, after, hsplit, _⟩ := lookup_eq_some_iff.mp hlookup
      apply h.cached (inv.cacheKey, cached)
      rw [hsplit]
      simp
    exact h.append rfl rfl hended h.cached
  | none =>
    have hended := ended_executeBoundedCommand x options.bounds inv.program (w.execCount i) (w.process i)
    apply h.append rfl rfl hended
    intro entry hentry
    rcases mem_append.mp hentry with hentry | hentry
    · exact h.cached entry hentry
    · obtain rfl := mem_singleton.mp hentry
      exact hended

theorem Answered.performCheck (h : Answered checks p) (x : Services) (c : Checkout)
    (options : VerificationExecutorOptions) (conflicting : List (String × String)) (w : World)
    (i : Nat) (check : PlannedCheck) :
    Answered (checks ++ [check]) (performCheck x c options conflicting w i check p) := by
  unfold PlanExecutor.performCheck
  split
  · exact h.append rfl rfl ⟨nofun, nofun⟩ h.cached
  split
  · exact h.append rfl rfl ⟨nofun, nofun⟩ h.cached
  split
  · exact h.append rfl rfl ⟨nofun, nofun⟩ h.cached
  · exact h.invoke x options c.root w i check _

theorem Answered.performChecks {rest : List PlannedCheck} (h : Answered checks p) (i : Nat) :
    Answered (checks ++ rest) (performChecks x c options conflicting w i rest p) := by
  induction rest generalizing checks p i with
  | nil =>
    rw [append_nil]
    exact h
  | cons check rest ih =>
    have hall := ih (h.performCheck x c options conflicting w i check) (i + 1)
    rw [append_assoc, singleton_append] at hall
    exact hall

theorem answered_initialRun (x : Services) (c : Checkout) (plan : VerificationPlan)
    (options : VerificationExecutorOptions) (w : World) :
    ((initialRun x c plan options w).checks.map (·.checkId) =
        (deduplicate plan).uniqueChecks.map (·.checkId)) ∧
      ∀ r ∈ (initialRun x c plan options w).checks, Ended r.status := by
  have hempty : Answered [] {} := ⟨rfl, by simp, by simp⟩
  have hall : Answered ([] ++ (deduplicate plan).uniqueChecks)
      (performChecks x c options (deduplicate plan).conflicting w 0 (deduplicate plan).uniqueChecks {}) :=
    hempty.performChecks 0
  exact ⟨hall.ids, hall.results⟩

theorem aggregateOutcome_eq_passed {checks : List CheckExecutionResult} :
    aggregateOutcome plan checks = .passed ↔
      (∀ r ∈ checks, r.status = .passed) ∧ plan.unresolvedObligations = [] := by
  unfold aggregateOutcome
  constructor
  · intro h
    split_ifs at h with hfailed hincomplete
    have hnever : ∀ r ∈ checks, r.status ≠ .failed := by simpa using hfailed
    have hrest : (∀ r ∈ checks, r.status ≠ .failed → r.status = .passed) ∧
        plan.unresolvedObligations = [] := by simpa using hincomplete
    exact ⟨fun r hr => hrest.1 r hr (hnever r hr), hrest.2⟩
  · rintro ⟨hpassed, hnone⟩
    have hfailed : ¬ (checks.any fun check => check.status = .failed) = true := by
      rw [any_eq_true]
      rintro ⟨r, hr, hfail⟩
      simp [hpassed r hr] at hfail
    have hincomplete : ¬ ((checks.any fun check => check.status ≠ .failed && check.status ≠ .passed) ||
        !plan.unresolvedObligations.isEmpty) = true := by
      rw [Bool.or_eq_true, any_eq_true, hnone]
      rintro (⟨r, hr, hrest⟩ | hsome)
      · simp [hpassed r hr] at hrest
      · simp at hsome
    rw [if_neg hfailed, if_neg hincomplete]

theorem result_unique {r other : CheckExecutionResult}
    (hr : r ∈ (initialRun x c plan options w).checks)
    (hother : other ∈ (initialRun x c plan options w).checks) (hid : r.checkId = other.checkId) :
    r = other := by
  have hnodup : ((initialRun x c plan options w).checks.map (·.checkId)).Nodup := by
    rw [(answered_initialRun x c plan options w).1]
    exact (deduplicate_distinct plan).distinct
  exact inj_on_of_nodup_map hnodup hr hother hid

theorem exists_result (x : Services) (c : Checkout) (options : VerificationExecutorOptions) (w : World)
    {check : PlannedCheck} (h : check ∈ plan.selectedChecks) :
    ∃ r ∈ (initialRun x c plan options w).checks, r.checkId = check.checkId := by
  obtain ⟨kept, hkept, hid⟩ := named_deduplicate (d := {}) (Or.inl h)
  have hmem : kept.checkId ∈ (initialRun x c plan options w).checks.map (·.checkId) := by
    rw [(answered_initialRun x c plan options w).1]
    exact mem_map_of_mem hkept
  obtain ⟨r, hr, hrid⟩ := mem_map.mp hmem
  exact ⟨r, hr, hrid.trans hid⟩

theorem exists_planned {r : CheckExecutionResult} (h : r ∈ (initialRun x c plan options w).checks) :
    ∃ check ∈ plan.selectedChecks, r.checkId = check.checkId := by
  have hmem : r.checkId ∈ (deduplicate plan).uniqueChecks.map (·.checkId) := by
    rw [← (answered_initialRun x c plan options w).1]
    exact mem_map_of_mem h
  obtain ⟨kept, hkept, hid⟩ := mem_map.mp hmem
  exact ⟨kept, (deduplicate_distinct plan).planned kept hkept, hid.symm⟩

def AllPassed (plan : VerificationPlan) (checks : List CheckExecutionResult) : Prop :=
  ∀ check ∈ plan.selectedChecks, ∃ r ∈ checks, r.checkId = check.checkId ∧ r.status = .passed

theorem allPassed_iff (x : Services) (c : Checkout) (plan : VerificationPlan)
    (options : VerificationExecutorOptions) (w : World) :
    AllPassed plan (initialRun x c plan options w).checks ↔
      ∀ r ∈ (initialRun x c plan options w).checks, r.status = .passed := by
  constructor
  · intro h r hr
    obtain ⟨check, hcheck, hid⟩ := exists_planned hr
    obtain ⟨other, hother, hoid, hpassed⟩ := h check hcheck
    rw [result_unique hr hother (hid.trans hoid.symm)]
    exact hpassed
  · intro h check hcheck
    obtain ⟨r, hr, hid⟩ := exists_result x c options w hcheck
    exact ⟨r, hr, hid, h r hr⟩

theorem initialRun_passed (x : Services) (c : Checkout) (plan : VerificationPlan)
    (options : VerificationExecutorOptions) (w : World) :
    (initialRun x c plan options w).outcome = .passed ↔
      AllPassed plan (initialRun x c plan options w).checks ∧ plan.unresolvedObligations = [] := by
  rw [allPassed_iff]
  exact aggregateOutcome_eq_passed

def Inconclusive (check : PlannedCheck) (checks : List CheckExecutionResult) : Prop :=
  ∀ r ∈ checks, r.checkId = check.checkId → r.status ≠ .passed ∧ r.status ≠ .failed

theorem isIncomplete_of_ended {status : CheckExecutionStatus} (h : Ended status)
    (hpassed : status ≠ .passed) (hfailed : status ≠ .failed) : isIncomplete status = true := by
  obtain ⟨hpending, hrunning⟩ := h
  cases status with
  | pending => exact absurd rfl hpending
  | running => exact absurd rfl hrunning
  | passed => exact absurd rfl hpassed
  | failed => exact absurd rfl hfailed
  | _ => rfl

theorem initialRun_unverified
    (h : (∃ check ∈ plan.selectedChecks, Inconclusive check (initialRun x c plan options w).checks) ∨
      plan.unresolvedObligations ≠ []) :
    (initialRun x c plan options w).assurance = .unverified := by
  have hany : (((initialRun x c plan options w).checks.any fun check => isIncomplete check.status) ||
      !plan.unresolvedObligations.isEmpty) = true := by
    rw [Bool.or_eq_true]
    rcases h with ⟨check, hcheck, hnone⟩ | hobligations
    · left
      obtain ⟨r, hr, hid⟩ := exists_result x c options w hcheck
      obtain ⟨hpassed, hfailed⟩ := hnone r hr hid
      have hended := (answered_initialRun x c plan options w).2 r hr
      exact any_eq_true.mpr ⟨r, hr, isIncomplete_of_ended hended hpassed hfailed⟩
    · right
      simpa using hobligations
  exact if_pos hany

theorem initialRun_assurance_le (x : Services) (c : Checkout) (plan : VerificationPlan)
    (options : VerificationExecutorOptions) (w : World) :
    assuranceRank (initialRun x c plan options w).assurance ≤ assuranceRank plan.assurance := by
  simp only [initialRun, propagateAssurance]
  split
  · exact Nat.zero_le _
  · exact le_refl _

structure Faithful (plan : VerificationPlan) (options : VerificationExecutorOptions)
    (run : VerificationRun) (artifact : Option (List UInt8)) : Prop where
  passed : run.outcome = .passed ↔ AllPassed plan run.checks ∧ plan.unresolvedObligations = [] ∧
    (options.persist = true → artifact.isSome = true)
  bounded : assuranceRank run.assurance ≤ assuranceRank plan.assurance
  inconclusive : (∃ check ∈ plan.selectedChecks, Inconclusive check run.checks) →
    run.assurance = .unverified
  obligations : plan.unresolvedObligations ≠ [] → run.assurance = .unverified

theorem failPersistence_outcome (run : VerificationRun) (e : String) :
    (failPersistence run e).outcome ≠ .passed := by
  simp only [failPersistence]
  split
  · exact nofun
  · next h => exact h

/-- A run is passed exactly when every planned check is, nothing is left unresolved and the artifact
that was asked for is there; and its assurance never says more than the plan and the results do. -/
theorem executeVerificationPlan_faithful (x : Services) (c : Checkout) (plan : VerificationPlan)
    (options : VerificationExecutorOptions) (w : World) :
    Faithful plan options (executeVerificationPlan x c plan options w).1
      (executeVerificationPlan x c plan options w).2 := by
  have hpassed := initialRun_passed x c plan options w
  have hbounded := initialRun_assurance_le x c plan options w
  unfold executeVerificationPlan
  by_cases hpersist : options.persist = true
  · simp only [hpersist, if_true]
    cases w.persistError with
    | some e =>
      constructor
      · constructor
        · intro h
          exact absurd h (failPersistence_outcome _ e)
        · rintro ⟨_, _, hwritten⟩
          simp [hpersist] at hwritten
      · exact Nat.zero_le _
      · intro _
        rfl
      · intro _
        rfl
    | none =>
      constructor
      · simpa [hpersist] using hpassed
      · exact hbounded
      · intro h
        exact initialRun_unverified (Or.inl h)
      · intro h
        exact initialRun_unverified (Or.inr h)
  · simp only [hpersist]
    constructor
    · simpa [hpersist] using hpassed
    · exact hbounded
    · intro h
      exact initialRun_unverified (Or.inl h)
    · intro h
      exact initialRun_unverified (Or.inr h)

end PlanExecutor
