import FlowDeck.Verification.ExecutedRuns
import FlowDeck.Verification.IngestionLaws

/-! The ingestion of the executor's runs. -/

namespace PlanExecutor

open CalibrationHistory CheckDiscovery CheckResolution Paths PolicyStore RunArtifact RuntimeIngest

section Passing

variable {x : Services} {c : Checkout} {options : VerificationExecutorOptions}
  {conflicting : List (String × String)} {w : World}

/-- A run only adds to its results and to its cache. -/
structure Extends (p p' : Progress) : Prop where
  results : ∀ r ∈ p.results, r ∈ p'.results
  cache : ∀ key outcome, p.invocationCache.lookup key = some outcome →
    p'.invocationCache.lookup key = some outcome

theorem Extends.trans {p p' p'' : Progress} (h : Extends p p') (h' : Extends p' p'') :
    Extends p p'' :=
  ⟨fun r hr => h'.results r (h.results r hr),
    fun key outcome hlookup => h'.cache key outcome (h.cache key outcome hlookup)⟩

theorem lookup_append_of_some {key : InvocationKey} {outcome : RawProcessOutcome}
    {cache more : List (InvocationKey × RawProcessOutcome)}
    (h : cache.lookup key = some outcome) : (cache ++ more).lookup key = some outcome := by
  induction cache with
  | nil => exact absurd h.symm (Option.some_ne_none outcome)
  | cons entry cache ih =>
    obtain ⟨other, stored⟩ := entry
    rw [List.cons_append, List.lookup_cons]
    rw [List.lookup_cons] at h
    cases hhead : key == other with
    | true => simpa only [hhead] using h
    | false =>
      simp only [hhead] at h ⊢
      exact ih h

theorem lookup_append_self {key : InvocationKey} {outcome : RawProcessOutcome}
    {cache : List (InvocationKey × RawProcessOutcome)} (h : cache.lookup key = none) :
    (cache ++ [(key, outcome)]).lookup key = some outcome := by
  induction cache with
  | nil => exact List.lookup_cons_self
  | cons entry cache ih =>
    obtain ⟨other, stored⟩ := entry
    rw [List.cons_append, List.lookup_cons]
    rw [List.lookup_cons] at h
    cases hhead : key == other with
    | true =>
      simp only [hhead] at h
      exact absurd h (Option.some_ne_none stored)
    | false =>
      simp only [hhead] at h ⊢
      exact ih h

theorem invoke_spec (x : Services) (c : Checkout) (options : VerificationExecutorOptions) (w : World)
    (p : Progress) (i : Nat) (check : PlannedCheck) (inv : ConcreteInvocation) :
    ∃ outcome reused,
      (p.invoke x options c.root w i check inv).results =
        p.results ++ [runResult c.root check inv outcome reused] ∧
      (p.invoke x options c.root w i check inv).invocationCache.lookup inv.cacheKey =
        some outcome ∧
      (p.invocationCache.lookup inv.cacheKey = some outcome ∨ outcome =
        executeBoundedCommand x options.bounds inv.program (w.execCount i) (w.process i)) ∧
      (p.invoke x options c.root w i check inv).failFastTriggered = (p.failFastTriggered ||
        options.failFast && (isFailure outcome.status || isIncomplete outcome.status)) ∧
      ∀ key other, p.invocationCache.lookup key = some other →
        (p.invoke x options c.root w i check inv).invocationCache.lookup key = some other := by
  unfold Progress.invoke
  cases hlookup : p.invocationCache.lookup inv.cacheKey with
  | some cached => exact ⟨cached, true, rfl, hlookup, .inl rfl, rfl, fun _ _ hother => hother⟩
  | none =>
    exact ⟨_, false, rfl, lookup_append_self hlookup, .inr rfl, rfl,
      fun _ _ hother => lookup_append_of_some hother⟩

theorem performCheck_of_performs {p : Progress} (hgoes : p.failFastTriggered = false) {i : Nat}
    {check : PlannedCheck} {inv : ConcreteInvocation}
    (hperforms : Performs c conflicting i check inv) :
    performCheck x c options conflicting w i check p = p.invoke x options c.root w i check inv := by
  simp [performCheck, hgoes, hperforms.1, hperforms.2]

theorem extends_performCheck (w : World) (i : Nat) (check : PlannedCheck) (p : Progress) :
    Extends p (performCheck x c options conflicting w i check p) := by
  have hadds : ∀ (p' : Progress) (r : CheckExecutionResult), p'.results = p.results ++ [r] →
      (∀ key outcome, p.invocationCache.lookup key = some outcome →
        p'.invocationCache.lookup key = some outcome) → Extends p p' := by
    intro p' r hresults hcache
    exact ⟨fun s hs => hresults ▸ List.mem_append_left _ hs, hcache⟩
  unfold performCheck
  split_ifs
  · exact hadds _ _ rfl fun _ _ h => h
  · cases conflicting.lookup check.checkId with
    | some message => exact hadds _ _ rfl fun _ _ h => h
    | none =>
      cases resolve c i check with
      | error reason => exact hadds _ _ rfl fun _ _ h => h
      | ok inv =>
        obtain ⟨outcome, reused, hresults, -, -, -, hcache⟩ :=
          invoke_spec x c options w p i check inv
        exact hadds _ _ hresults hcache

theorem extends_performChecks (w : World) (checks : List PlannedCheck) (i : Nat) (p : Progress) :
    Extends p (performChecks x c options conflicting w i checks p) := by
  induction checks generalizing i p with
  | nil => exact ⟨fun _ hr => hr, fun _ _ h => h⟩
  | cons check checks ih => exact (extends_performCheck w i check p).trans (ih _ _)

theorem performChecks_append (before rest : List PlannedCheck) (i : Nat) (p : Progress) :
    performChecks x c options conflicting w i (before ++ rest) p =
      performChecks x c options conflicting w (i + before.length) rest
        (performChecks x c options conflicting w i before p) := by
  induction before generalizing i p with
  | nil => rfl
  | cons check before ih =>
    rw [List.cons_append, performChecks, ih, performChecks, List.length_cons, Nat.add_assoc,
      Nat.add_comm 1]

/-- A world in which every process that can pass does. -/
def passingWorld : World where
  startWall := 0
  nowNanos := 0
  runCount := 1
  pid := 1
  clock _ := 0
  process _ := ⟨0, 0, .ended false false (some 0) none ⟨"", 0, false, ""⟩ ⟨"", 0, false, ""⟩⟩
  execCount := id
  counted := Function.injective_id
  elapsedMs := 0
  persistError := none

theorem passing_passes {bounds : ProcessBounds} (h : Passable bounds) (program : String)
    (count i : Nat) :
    (executeBoundedCommand x bounds program count (passingWorld.process i)).status = .passed := by
  have hout : bounds.maxStdoutBytes ≠ 0 := Nat.pos_iff_ne_zero.mp h.1
  have herr : bounds.maxStderrBytes ≠ 0 := Nat.pos_iff_ne_zero.mp h.2
  simp [executeBoundedCommand, passingWorld, endStatus, hout, herr]

/-- A run that nothing has stopped; where a process may pass, all did. -/
structure Goes (options : VerificationExecutorOptions) (p : Progress) : Prop where
  flag : p.failFastTriggered = false
  passed : Passable options.bounds → ∀ key outcome,
    p.invocationCache.lookup key = some outcome → outcome.status = .passed

theorem goes_performCheck {p : Progress} (h : Goes options p) (i : Nat) (check : PlannedCheck)
    (hperforms : options.failFast = true → (∃ inv, Performs c conflicting i check inv) ∧
      Passable options.bounds) :
    Goes options (performCheck x c options conflicting passingWorld i check p) := by
  have hrefused : ∀ result, (¬ ∃ inv, Performs c conflicting i check inv) →
      Goes options (p.refuse options result) := by
    intro result hnot
    have hslow : options.failFast = false := by
      by_contra hfast
      exact hnot (hperforms (eq_true_of_ne_false hfast)).1
    exact ⟨by simp [Progress.refuse, h.flag, hslow], h.passed⟩
  cases hconflict : conflicting.lookup check.checkId with
  | some message =>
    have hrefuse := hrefused (notRun check .unsupported "conflict:" (passingWorld.clock i) message) ?_
    · simpa only [performCheck, h.flag, hconflict, Bool.false_eq_true, if_false] using hrefuse
    · intro hsome
      obtain ⟨inv, hnone, -⟩ := hsome
      rw [hconflict] at hnone
      exact absurd hnone (Option.some_ne_none message)
  | none =>
    cases hresolve : resolve c i check with
    | error reason =>
      have hrefuse := hrefused (notRun check .unsupported "unsupported:" (passingWorld.clock i)
        (x.redactSecrets reason)) ?_
      · simpa only [performCheck, h.flag, hconflict, hresolve, Bool.false_eq_true, if_false]
          using hrefuse
      · intro hsome
        obtain ⟨inv, -, hok⟩ := hsome
        rw [hresolve] at hok
        cases hok
    | ok inv =>
      rw [performCheck_of_performs h.flag ⟨hconflict, hresolve⟩]
      obtain ⟨outcome, reused, -, hstored, hfrom, hflag, -⟩ :=
        invoke_spec x c options passingWorld p i check inv
      have houtcome : Passable options.bounds → outcome.status = .passed := by
        intro hpass
        cases hfrom with
        | inl hcached => exact h.passed hpass _ _ hcached
        | inr hrun => exact hrun ▸ passing_passes hpass _ _ _
      refine ⟨?_, ?_⟩
      · rw [hflag, h.flag]
        cases hfast : options.failFast with
        | false => rfl
        | true => simp [houtcome (hperforms hfast).2, isFailure, isIncomplete]
      · intro hpass key other hlookup
        by_cases hkey : key = inv.cacheKey
        · rw [hkey, hstored] at hlookup
          exact Option.some.inj hlookup ▸ houtcome hpass
        · unfold Progress.invoke at hlookup
          split at hlookup
          · exact h.passed hpass key other hlookup
          · cases lookup_concat hlookup with
            | inl hold => exact h.passed hpass key other hold
            | inr hnew => exact absurd hnew.1 hkey

theorem goes_performChecks (checks : List PlannedCheck) (i : Nat) {p : Progress}
    (h : Goes options p) (hperforms : options.failFast = true → ∀ k e, checks[k]? = some e →
      (∃ inv, Performs c conflicting (i + k) e inv) ∧ Passable options.bounds) :
    Goes options (performChecks x c options conflicting passingWorld i checks p) := by
  induction checks generalizing i p with
  | nil => exact h
  | cons check checks ih =>
    refine ih (i + 1) (goes_performCheck h i check ?_) ?_
    · intro hfast
      simpa using hperforms hfast 0 check rfl
    · intro hfast k e he
      have hnext := hperforms hfast (k + 1) e (by simpa using he)
      rwa [Nat.add_comm k 1, ← Nat.add_assoc] at hnext

theorem performed_at (x : Services) {checks : List PlannedCheck} {j : Nat} {check : PlannedCheck}
    (hat : checks[j]? = some check) (hcomes : ComesTo c options conflicting checks j)
    {inv : ConcreteInvocation} (hperforms : Performs c conflicting j check inv) :
    ∃ outcome reused, runResult c.root check inv outcome reused ∈
        (performChecks x c options conflicting passingWorld 0 checks {}).results ∧
      (performChecks x c options conflicting passingWorld 0 checks {}).invocationCache.lookup
        inv.cacheKey = some outcome := by
  obtain ⟨hlt, hcheck⟩ := List.getElem?_eq_some_iff.mp hat
  have hsplit : checks = checks.take j ++ check :: checks.drop (j + 1) := by
    rw [← hcheck, List.cons_getElem_drop_succ, List.take_append_drop]
  have hlength : (checks.take j).length = j := List.length_take_of_le (Nat.le_of_lt hlt)
  have hstart : Goes options {} := ⟨rfl, fun _ key outcome h =>
    absurd h.symm (Option.some_ne_none outcome)⟩
  have hgoes : Goes options
      (performChecks x c options conflicting passingWorld 0 (checks.take j) {}) := by
    refine goes_performChecks _ 0 hstart ?_
    intro hfast k e he
    obtain ⟨hk, -⟩ := List.getElem?_eq_some_iff.mp he
    rw [hlength] at hk
    rw [List.getElem?_take_of_lt hk] at he
    simpa using hcomes hfast k hk e he
  obtain ⟨outcome, reused, hresults, hstored, -⟩ :=
    invoke_spec x c options passingWorld
      (performChecks x c options conflicting passingWorld 0 (checks.take j) {}) j check inv
  have hall : performChecks x c options conflicting passingWorld 0 checks {} =
      performChecks x c options conflicting passingWorld (j + 1) (checks.drop (j + 1))
        ((performChecks x c options conflicting passingWorld 0 (checks.take j) {}).invoke x options
          c.root passingWorld j check inv) := by
    conv_lhs => rw [hsplit]
    rw [performChecks_append, hlength, Nat.zero_add, performChecks,
      performCheck_of_performs hgoes.flag hperforms]
  rw [hall]
  refine ⟨outcome, reused, ?_, ?_⟩
  · apply (extends_performChecks passingWorld _ _ _).results
    rw [hresults]
    exact List.mem_append_right _ List.mem_cons_self
  · exact (extends_performChecks passingWorld _ _ _).cache _ _ hstored

/-- Directories written apart make a run that is refused. -/
theorem writtenAlike_of_valid (x : Services) {plan : VerificationPlan}
    (h : ValidRun (initialRun x c plan options passingWorld)) : WrittenAlike c options plan := by
  intro i j hij a b ha hb hcomes inv inv' hinv hinv' hkey
  have hcomesI : ComesTo c options (deduplicate plan).conflicting (deduplicate plan).uniqueChecks i :=
    fun hfast k hk e he => hcomes hfast k (Nat.lt_trans hk hij) e he
  obtain ⟨outcome, reused, hmem, hstored⟩ := performed_at x ha hcomesI hinv
  obtain ⟨outcome', reused', hmem', hstored'⟩ := performed_at x hb hcomes hinv'
  have hsame : outcome = outcome' := by
    rw [hkey] at hstored
    exact Option.some.inj (hstored.symm.trans hstored')
  have hid : (runResult c.root a inv outcome reused).executionId =
      (runResult c.root b inv' outcome' reused').executionId :=
    congrArg RawProcessOutcome.executionId hsame
  exact (h.evidence _ hmem _ hmem' hid).cwd.symm

end Passing

def ReadsBack (r : Runtime) (x : Services) (run : VerificationRun) : Prop :=
  r.parseRun (x.runJson run) = .ok run

/-- The run passes every validation, and its artifact, where one is written within the bound, is
imported unless the history has a run of its id, and in no case reported as failed. -/
structure Ingests (r : Runtime) (x : Services) (c : Checkout) (plan : VerificationPlan)
    (options : VerificationExecutorOptions) (w : World) : Prop where
  validated : validateRun r (executeVerificationPlan x c plan options w).1 = .ok ()
  imported : ∀ bytes, (executeVerificationPlan x c plan options w).2 = some bytes →
    ReadsBack r x (executeVerificationPlan x c plan options w).1 →
    bytes.length ≤ maxRuntimeArtifactBytes →
    ∀ (h : History) now,
      (∀ runId reason, (h.ingest r bytes now).1 ≠ .ok (.failed runId reason)) ∧
      ((∀ digest, ¬ h.StoredAs (trimmed (generateUniqueRunId x plan w)) digest) →
        (h.ingest r bytes now).1 =
          .ok (.imported (trimmed (generateUniqueRunId x plan w)) (r.sha256 bytes)))

section Ingestion

variable {r : Runtime} {x : Services} {c : Checkout} {plan : VerificationPlan}
  {options : VerificationExecutorOptions} {w : World}

theorem runId_named : trimmed (generateUniqueRunId x plan w) ≠ "" := by
  have hlist : ∃ rest, (generateUniqueRunId x plan w).toList = 'r' :: rest := by
    simp [generateUniqueRunId]
  obtain ⟨rest, hrest⟩ := hlist
  exact trimmed_ne_empty hrest (by decide)

theorem existing?_ne_failed {t : Tables} {runId digest : String} (failedId : Option String)
    (reason : String) : existing? t runId digest ≠ some (.failed failedId reason) := by
  unfold existing?
  split
  · split_ifs <;> simp
  · simp

theorem existing?_of_not_stored {h : History} {runId : String}
    (hfree : ∀ digest, ¬ h.StoredAs runId digest) (digest : String) :
    existing? h.tables runId digest = none := by
  unfold existing?
  cases hrow : h.tables.runs.get? runId with
  | none => rfl
  | some row =>
    have hcontract : row.ingestionContractVersion ≠ ingestionContractVersionV2 := by
      intro hcurrent
      exact hfree row.artifactDigest
        ⟨row, Table.mem_of_get? hrow, Table.key_of_get? hrow, rfl, hcurrent⟩
    simp [hcontract]

theorem validRun_of_same {run run' : VerificationRun} (hplan : run'.plan = run.plan)
    (hchecks : run'.checks = run.checks) (h : ValidRun run) : ValidRun run' := by
  refine ⟨?_, ?_, ?_, ?_, ?_⟩
  · exact hchecks ▸ h.distinct
  · exact hchecks ▸ h.named
  · intro check hcheck
    rw [hchecks] at hcheck
    simpa only [isPlanned, hplan] using h.planned check hcheck
  · intro check hcheck
    rw [hchecks] at hcheck
    simpa only [groupOf, hchecks] using h.primary check hcheck
  · exact hchecks ▸ h.evidence

theorem executed_cases (x : Services) (c : Checkout) (plan : VerificationPlan)
    (options : VerificationExecutorOptions) (w : World) :
    (executeVerificationPlan x c plan options w).1.plan = plan ∧
      (executeVerificationPlan x c plan options w).1.checks =
        (initialRun x c plan options w).checks ∧
      ∀ bytes, (executeVerificationPlan x c plan options w).2 = some bytes →
        (executeVerificationPlan x c plan options w).1 = initialRun x c plan options w ∧
          bytes = x.runJson (initialRun x c plan options w) := by
  unfold executeVerificationPlan
  split_ifs
  · cases w.persistError with
    | some e =>
      refine ⟨rfl, rfl, ?_⟩
      intro bytes h
      simp at h
    | none =>
      refine ⟨rfl, rfl, ?_⟩
      intro bytes h
      exact ⟨rfl, (Option.some.inj h).symm⟩
  · refine ⟨rfl, rfl, ?_⟩
    intro bytes h
    simp at h

theorem readArtifact_run (hjson : ReadsBack r x (initialRun x c plan options w))
    (hvalid : ValidRun (initialRun x c plan options w))
    (hsize : (x.runJson (initialRun x c plan options w)).length ≤ maxRuntimeArtifactBytes) :
    readArtifact r (x.runJson (initialRun x c plan options w)) =
      .ok (trimmed (generateUniqueRunId x plan w), initialRun x c plan options w) := by
  have hnamed : trimmed (initialRun x c plan options w).runId ≠ "" := runId_named
  have hvalidated : validateRun r (initialRun x c plan options w) = .ok () :=
    validateRun_eq_ok.mpr hvalid
  unfold ReadsBack at hjson
  simp only [readArtifact, Nat.not_lt.mpr hsize, if_false, hjson, hnamed, hvalidated]
  rfl

theorem ingests_of_valid (hvalid : ValidRun (initialRun x c plan options w)) :
    Ingests r x c plan options w := by
  obtain ⟨hplan, hchecks, hbytes⟩ := executed_cases x c plan options w
  refine ⟨validateRun_eq_ok.mpr (validRun_of_same hplan hchecks hvalid), ?_⟩
  intro bytes hwritten hjson hsize h now
  obtain ⟨hrun, rfl⟩ := hbytes bytes hwritten
  rw [hrun] at hjson
  have hread := readArtifact_run hjson hvalid hsize
  cases History.ingest_reads h now hread with
  | inl hold =>
    obtain ⟨result, hexisting, heq⟩ := hold
    rw [heq]
    refine ⟨?_, ?_⟩
    · intro runId reason hfailed
      rw [Except.ok.inj hfailed] at hexisting
      exact existing?_ne_failed runId reason hexisting
    · intro hfree
      rw [existing?_of_not_stored hfree] at hexisting
      exact absurd hexisting.symm (Option.some_ne_none result)
  | inr hnew =>
    obtain ⟨-, himported, -⟩ := hnew
    rw [himported]
    refine ⟨?_, fun _ => rfl⟩
    intro runId reason hfailed
    exact absurd (Except.ok.inj hfailed) (by simp)

end Ingestion

/-- Every run of a plan is ingested, whatever its processes do, where the directories of one
invocation are written alike. -/
theorem ingests_iff (r : Runtime) (x : Services) (c : Checkout)
    (options : VerificationExecutorOptions) (plan : VerificationPlan) :
    (∀ w, Ingests r x c plan options w) ↔ WrittenAlike c options plan := by
  constructor
  · intro h
    obtain ⟨hplan, hchecks, -⟩ := executed_cases x c plan options passingWorld
    have hvalid := validateRun_eq_ok.mp (h passingWorld).validated
    exact writtenAlike_of_valid x (validRun_of_same hplan.symm hchecks.symm hvalid)
  · intro halike w
    exact ingests_of_valid (validRun_initialRun halike)

/-- A repository with a package `a/b`, which npm runs. -/
def packageCheckout : Checkout where
  root := "/repo"
  files _ :=
    { root := "/repo"
      walk := []
      packageLimit := 500
      readToString := fun _ => .error "not found"
      pathExists := fun path => path = "/repo/package-lock.json"
      canonicalize := fun path => .ok (if path = "/repo" then "/repo" else "/repo/a/b")
      parseJson := fun _ => .error "no value"
      debugPath := id }
  rooted _ := rfl

def testCheck (checkId : String) : PlannedCheck :=
  ⟨checkId, "test", .unitTest, "pkg:npm:a/b", "mandatory", .mandatoryCheck, .structural, "", none, true⟩

def planOf (checkIds : List String) : VerificationPlan :=
  ⟨.exact, [], [], checkIds.map testCheck, [], []⟩

def plainOptions : VerificationExecutorOptions :=
  ⟨⟨60, 1048576, 1048576⟩, false, true, none, none⟩

def sampleServices : Services where
  redactSecrets := id
  planJson _ := "plan"
  runJson run := run.runId.toUTF8.toList
  sha256Hex text := text

def sampleRuntime (run : VerificationRun) : Runtime where
  sha256 bytes := String.ofList (bytes.map fun byte => Char.ofNat byte.toNat)
  planBytes _ := []
  parseRun _ := .ok run
  debug := id
  walk ids := ids
  walk_perm _ := List.Perm.refl _

/-- The check of one directory, written in two ways, runs once, and the run is refused. -/
theorem respelled_directory_refused :
    validateRun (sampleRuntime (initialRun sampleServices packageCheckout
      (planOf ["check:pkg:npm:a//b:test", "check:pkg:npm:a/b:test"]) plainOptions passingWorld))
      (executeVerificationPlan sampleServices packageCheckout
        (planOf ["check:pkg:npm:a//b:test", "check:pkg:npm:a/b:test"]) plainOptions
        passingWorld).1 =
      .error "execution_id 'exec_0_npm_0' has conflicting cwd: 'a//b' vs 'a/b'" := by
  decide +kernel

end PlanExecutor
