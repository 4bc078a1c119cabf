import FlowDeck.Verification.RunValidity

/-! What an ingestion leaves of the runtime history. -/

namespace RuntimeIngest

open CalibrationHistory Checked PolicyStore RunArtifact Statements Table List

section InsertRows

variable {ρ κ : Type} [DecidableEq κ] {key : ρ → κ}

theorem insertRow_eq_ok (name : String) {t : Table key} (row : ρ)
    (h : t.get? (key row) = none) :
    ∃ t', insertRow name t row = .ok t' ∧ t'.rows = t.rows ++ [row] := by
  obtain ⟨t', hinsert⟩ := exists_insert? h
  exact ⟨t', by simp [insertRow, hinsert], (insert?_eq_some hinsert).2⟩

theorem foldlM_insertRow_eq_ok (name : String) {t : Table key} {rows : List ρ}
    (hdistinct : (rows.map key).Nodup) (hfree : ∀ row ∈ rows, t.get? (key row) = none) :
    ∃ t', rows.foldlM (insertRow name) t = .ok t' ∧ t'.rows = t.rows ++ rows := by
  induction rows generalizing t with
  | nil => exact ⟨t, rfl, (append_nil _).symm⟩
  | cons row rows ih =>
    rw [map_cons, nodup_cons] at hdistinct
    obtain ⟨next, hnext, hrows⟩ := insertRow_eq_ok name row (hfree row mem_cons_self)
    have hstill : ∀ later ∈ rows, next.get? (key later) = none := by
      intro later hlater
      have hold := get?_eq_none_iff.mp (hfree later (mem_cons_of_mem _ hlater))
      apply get?_eq_none_iff.mpr
      intro candidate hcandidate
      rw [hrows] at hcandidate
      cases mem_append.mp hcandidate with
      | inl hmem => exact hold candidate hmem
      | inr hmem =>
        rw [mem_singleton.mp hmem]
        intro heq
        exact hdistinct.1 (heq ▸ mem_map_of_mem hlater)
    obtain ⟨t', ht', hall⟩ := ih hdistinct.2 hstill
    refine ⟨t', ?_, ?_⟩
    · rw [foldlM_cons, hnext, ok_bind, ht']
    · rw [hall, hrows, append_assoc, singleton_append]

end InsertRows

structure Anchored (t : Tables) : Prop where
  executions : ∀ row ∈ t.executions.rows, ∃ run ∈ t.runs.rows, run.runId = row.runId
  checks : ∀ row ∈ t.checks.rows, ∃ run ∈ t.runs.rows, run.runId = row.runId
  changes : ∀ row ∈ t.changes.rows, ∃ run ∈ t.runs.rows, run.runId = row.runId

theorem not_mem_of_get?_none {t : Tables} {runId : String} (h : t.runs.get? runId = none) :
    ∀ row ∈ t.runs.rows, row.runId ≠ runId := get?_eq_none_iff.mp h

section MakeWay

variable {t : Tables} {runId : String}

theorem mem_makeWay_runs {row : RunRow} :
    row ∈ (makeWay t runId).runs.rows ↔ row ∈ t.runs.rows ∧ row.runId ≠ runId := by
  unfold makeWay
  split_ifs with hrun
  · simp [Tables.deleteRun]
  · have hfree : t.runs.get? runId = none := by simpa using hrun
    exact (and_iff_left_of_imp fun hmem => not_mem_of_get?_none hfree row hmem).symm

theorem mem_makeWay_executions (h : Anchored t) {row : ExecutionRow} :
    row ∈ (makeWay t runId).executions.rows ↔ row ∈ t.executions.rows ∧ row.runId ≠ runId := by
  unfold makeWay
  split_ifs with hrun
  · simp [Tables.deleteRun]
  · have hfree : t.runs.get? runId = none := by simpa using hrun
    refine (and_iff_left_of_imp ?_).symm
    intro hmem
    obtain ⟨run, hrow, hid⟩ := h.executions row hmem
    exact hid ▸ not_mem_of_get?_none hfree run hrow

theorem mem_makeWay_checks (h : Anchored t) {row : CheckRow} :
    row ∈ (makeWay t runId).checks.rows ↔ row ∈ t.checks.rows ∧ row.runId ≠ runId := by
  unfold makeWay
  split_ifs with hrun
  · simp [Tables.deleteRun]
  · have hfree : t.runs.get? runId = none := by simpa using hrun
    refine (and_iff_left_of_imp ?_).symm
    intro hmem
    obtain ⟨run, hrow, hid⟩ := h.checks row hmem
    exact hid ▸ not_mem_of_get?_none hfree run hrow

theorem mem_makeWay_changes (h : Anchored t) {row : ChangeRow} :
    row ∈ (makeWay t runId).changes.rows ↔ row ∈ t.changes.rows ∧ row.runId ≠ runId := by
  unfold makeWay
  split_ifs with hrun
  · simp [Tables.deleteRun]
  · have hfree : t.runs.get? runId = none := by simpa using hrun
    refine (and_iff_left_of_imp ?_).symm
    intro hmem
    obtain ⟨run, hrow, hid⟩ := h.changes row hmem
    exact hid ▸ not_mem_of_get?_none hfree run hrow

end MakeWay

section Rows

variable {r : Runtime} {run : VerificationRun} {runId : String}

theorem head?_groupOf {executionId : String} {first : CheckExecutionResult}
    (h : (groupOf run executionId).head? = some first) :
    first ∈ run.checks ∧ first.executionId = executionId :=
  mem_groupOf.mp (mem_of_mem_head? h)

theorem exists_head?_groupOf {check : CheckExecutionResult} (h : check ∈ run.checks) :
    ∃ first, (groupOf run check.executionId).head? = some first := by
  cases hgroup : groupOf run check.executionId with
  | nil =>
    have hmem : check ∈ groupOf run check.executionId := mem_groupOf.mpr ⟨h, rfl⟩
    rw [hgroup] at hmem
    exact absurd hmem not_mem_nil
  | cons first others => exact ⟨first, rfl⟩

theorem groupPhysical_eq (hvalid : ValidRun run) {check : CheckExecutionResult}
    (h : check ∈ run.checks) :
    groupPhysical run check.executionId = isPhysicalProcessExecution check.status := by
  obtain ⟨first, hfirst⟩ := exists_head?_groupOf h
  obtain ⟨hmem, hid⟩ := head?_groupOf hfirst
  have hsame := hvalid.evidence first hmem check h hid
  simp [groupPhysical, hfirst, hsame.status]

theorem executionRow_eq {first other : CheckExecutionResult} (hsame : SameEvidence first other)
    (hid : first.executionId = other.executionId) :
    executionRow r runId first = executionRow r runId other := by
  simp [executionRow, hid, hsame.status, hsame.command, hsame.cwd, hsame.exitCode,
    hsame.durationMs, hsame.stdoutDigest, hsame.stderrDigest, hsame.stdoutCapturedBytes,
    hsame.stderrCapturedBytes, hsame.stdoutTruncated, hsame.stderrTruncated]

theorem mem_executionRows (hvalid : ValidRun run) {row : ExecutionRow} :
    row ∈ executionRows r run runId ↔
      ∃ check ∈ run.checks, isPhysicalProcessExecution check.status = true ∧
        executionRow r runId check = row := by
  simp only [executionRows, mem_filterMap, (r.walk_perm _).mem_iff, mem_executionIds]
  constructor
  · intro h
    obtain ⟨executionId, ⟨check, hcheck, rfl⟩, hrow⟩ := h
    split_ifs at hrow with hphysical
    obtain ⟨first, hfirst, rfl⟩ := Option.map_eq_some_iff.mp hrow
    obtain ⟨hmem, hid⟩ := head?_groupOf hfirst
    rw [← hid, groupPhysical_eq hvalid hmem] at hphysical
    exact ⟨first, hmem, hphysical, rfl⟩
  · intro h
    obtain ⟨check, hcheck, hphysical, rfl⟩ := h
    obtain ⟨first, hfirst⟩ := exists_head?_groupOf hcheck
    obtain ⟨hmem, hid⟩ := head?_groupOf hfirst
    refine ⟨check.executionId, ⟨check, hcheck, rfl⟩, ?_⟩
    rw [groupPhysical_eq hvalid hcheck, if_pos hphysical, hfirst, Option.map_some,
      executionRow_eq (hvalid.evidence first hmem check hcheck hid) hid]

theorem keys_executionRows (r : Runtime) (run : VerificationRun) (runId : String) :
    ((executionRows r run runId).map ExecutionRow.key).Nodup := by
  have hsub : ∀ ids : List String,
      Sublist ((ids.filterMap fun executionId =>
        if groupPhysical run executionId then
          (groupOf run executionId).head?.map (executionRow r runId)
        else none).map ExecutionRow.key) (ids.map fun executionId => (runId, executionId)) := by
    intro ids
    induction ids with
    | nil => exact Sublist.refl _
    | cons executionId ids ih =>
      rw [map_cons, filterMap_cons]
      split
      · exact ih.cons _
      · rename_i row hrow
        split_ifs at hrow
        obtain ⟨first, hfirst, rfl⟩ := Option.map_eq_some_iff.mp hrow
        have hid : first.executionId = executionId := (head?_groupOf hfirst).2
        rw [map_cons, ExecutionRow.key, executionRow, hid]
        exact ih.cons_cons _
  have hids : (r.walk (executionIds run)).Nodup :=
    (r.walk_perm _).nodup_iff.mpr (nodup_dedup _)
  have hinj : Function.Injective fun executionId : String => (runId, executionId) :=
    fun _ _ heq => congrArg Prod.snd heq
  exact (hids.map hinj).sublist (hsub _)

theorem keys_checkRows (hvalid : ValidRun run) :
    ((run.checks.map (checkRow run runId)).map CheckRow.key).Nodup := by
  have hkeys : (run.checks.map (checkRow run runId)).map CheckRow.key =
      (run.checks.map CheckExecutionResult.checkId).map fun checkId => (runId, checkId) := by
    rw [map_map, map_map]
    rfl
  have hinj : Function.Injective fun checkId : String => (runId, checkId) :=
    fun _ _ heq => congrArg Prod.snd heq
  rw [hkeys]
  exact hvalid.distinct.map hinj

end Rows

/-- What the tables hold once a run is stored: its rows, and those of the other runs. -/
structure Stored (r : Runtime) (t t' : Tables) (run : VerificationRun)
    (runId artifactDigest : String) (now : Int) : Prop where
  runs : ∀ row, row ∈ t'.runs.rows ↔
    row ∈ t.runs.rows ∧ row.runId ≠ runId ∨ row = runRow r run runId artifactDigest now
  executions : ∀ row, row ∈ t'.executions.rows ↔
    row ∈ t.executions.rows ∧ row.runId ≠ runId ∨ row ∈ executionRows r run runId
  checks : ∀ row, row ∈ t'.checks.rows ↔
    row ∈ t.checks.rows ∧ row.runId ≠ runId ∨ row ∈ run.checks.map (checkRow run runId)
  changes : ∀ row, row ∈ t'.changes.rows ↔
    row ∈ t.changes.rows ∧ row.runId ≠ runId ∨ row ∈ run.plan.changed.map (changeRow runId)

theorem runId_of_mem_executionRows {r : Runtime} {run : VerificationRun} {runId : String}
    {row : ExecutionRow} (h : row ∈ executionRows r run runId) : row.runId = runId := by
  obtain ⟨executionId, -, hrow⟩ := mem_filterMap.mp h
  split_ifs at hrow
  obtain ⟨first, -, rfl⟩ := Option.map_eq_some_iff.mp hrow
  rfl

theorem integrity {r : Runtime} {run : VerificationRun} {runId : String} {t : Tables}
    (hvalid : ValidRun run)
    (hexecutions : ∀ row ∈ t.executions.rows, row.runId = runId → row ∈ executionRows r run runId)
    (hrows : ∀ row ∈ executionRows r run runId, row ∈ t.executions.rows)
    (hchecks : ∀ row ∈ t.checks.rows, row.runId = runId →
      row ∈ run.checks.map (checkRow run runId)) :
    orphanPhysicalChecks t runId = 0 ∧ illegitimatePhysicalExecs t runId = 0 := by
  have hhas : ∀ row ∈ t.checks.rows, row.runId = runId →
      hasExecution t row = row.hasPhysicalExecution := by
    intro row hmem hid
    obtain ⟨check, hcheck, rfl⟩ := mem_map.mp (hchecks row hmem hid)
    rw [Bool.eq_iff_iff]
    simp only [hasExecution, checkRow, groupPhysical_eq hvalid hcheck, Option.isSome_iff_exists]
    constructor
    · intro hsome
      obtain ⟨stored, hstored⟩ := hsome
      have hkey : stored.key = (runId, check.executionId) := key_of_get? hstored
      have hin := hexecutions stored (mem_of_get? hstored) (congrArg Prod.fst hkey)
      obtain ⟨other, hother, hphysical, rfl⟩ := (mem_executionRows hvalid).mp hin
      have hsame := hvalid.evidence other hother check hcheck (congrArg Prod.snd hkey)
      rw [hsame.status]
      exact hphysical
    · intro hphysical
      have hin := hrows _ ((mem_executionRows hvalid).mpr ⟨check, hcheck, hphysical, rfl⟩)
      exact ⟨_, get?_of_mem hin⟩
  constructor
  · rw [orphanPhysicalChecks, length_eq_zero_iff, filter_eq_nil_iff]
    intro row hmem hcounted
    simp only [Bool.and_eq_true, decide_eq_true_eq, Bool.not_eq_true'] at hcounted
    obtain ⟨⟨hid, hphysical⟩, hnone⟩ := hcounted
    rw [hhas row hmem hid, hphysical] at hnone
    exact Bool.noConfusion hnone
  · rw [illegitimatePhysicalExecs, length_eq_zero_iff, filter_eq_nil_iff]
    intro row hmem hcounted
    simp only [Bool.and_eq_true, decide_eq_true_eq, Bool.not_eq_true'] at hcounted
    obtain ⟨⟨hid, hphysical⟩, hsome⟩ := hcounted
    rw [hhas row hmem hid, hphysical] at hsome
    exact Bool.noConfusion hsome

theorem insertRun_spec {r : Runtime} {t : Tables} {run : VerificationRun} (h : Anchored t)
    (hvalid : ValidRun run) (runId artifactDigest : String) (now : Int) :
    ∃ t', insertRun r (makeWay t runId) run runId artifactDigest now = .ok t' ∧
      Stored r t t' run runId artifactDigest now := by
  have hfreeRun : (makeWay t runId).runs.get? runId = none := by
    apply get?_eq_none_iff.mpr
    exact fun row hmem => (mem_makeWay_runs.mp hmem).2
  have hfreeExecutions : ∀ row ∈ executionRows r run runId,
      (makeWay t runId).executions.get? row.key = none := by
    intro row hrow
    apply get?_eq_none_iff.mpr
    intro stored hstored heq
    apply ((mem_makeWay_executions h).mp hstored).2
    exact (congrArg Prod.fst heq).trans (runId_of_mem_executionRows hrow)
  have hfreeChecks : ∀ row ∈ run.checks.map (checkRow run runId),
      (makeWay t runId).checks.get? row.key = none := by
    intro row hrow
    obtain ⟨check, -, rfl⟩ := mem_map.mp hrow
    apply get?_eq_none_iff.mpr
    intro stored hstored heq
    exact ((mem_makeWay_checks h).mp hstored).2 (congrArg Prod.fst heq)
  obtain ⟨runs, hruns, hrunRows⟩ := insertRow_eq_ok "runtime_runs"
    (runRow r run runId artifactDigest now) hfreeRun
  obtain ⟨executions, hexecutions, hexecutionRows⟩ := foldlM_insertRow_eq_ok
    "runtime_executions" (keys_executionRows r run runId) hfreeExecutions
  obtain ⟨checks, hchecks, hcheckRows⟩ := foldlM_insertRow_eq_ok
    "runtime_check_observations" (keys_checkRows hvalid) hfreeChecks
  have hmemExecutions : ∀ row, row ∈ executions.rows ↔
      row ∈ t.executions.rows ∧ row.runId ≠ runId ∨ row ∈ executionRows r run runId := by
    intro row
    rw [hexecutionRows, mem_append, mem_makeWay_executions h]
  have hmemChecks : ∀ row, row ∈ checks.rows ↔
      row ∈ t.checks.rows ∧ row.runId ≠ runId ∨ row ∈ run.checks.map (checkRow run runId) := by
    intro row
    rw [hcheckRows, mem_append, mem_makeWay_checks h]
  have hintegrity := integrity (r := r) (t := ⟨runs, executions, checks, (makeWay t runId).changes⟩)
    hvalid (fun row hmem hid => ((hmemExecutions row).mp hmem).resolve_left fun hold => hold.2 hid)
    (fun row hmem => (hmemExecutions row).mpr (Or.inr hmem))
    (fun row hmem hid => ((hmemChecks row).mp hmem).resolve_left fun hold => hold.2 hid)
  refine ⟨⟨runs, executions, checks, (makeWay t runId).changes.insertAllOrIgnore
    (run.plan.changed.map (changeRow runId))⟩, ?_, ?_⟩
  · simp [insertRun, hruns, hexecutions, hchecks, ok_bind, hintegrity.1, hintegrity.2, refuseIf,
      pure, Except.pure]
  · refine ⟨?_, hmemExecutions, hmemChecks, ?_⟩
    · intro row
      rw [hrunRows, mem_append, mem_makeWay_runs, mem_singleton]
    · intro row
      rw [← mem_makeWay_changes h]
      constructor
      · exact fun hmem => mem_rows_insertAllOrIgnore hmem
      · intro hmem
        cases hmem with
        | inl hold => exact mem_insertAllOrIgnore_of_mem _ hold
        | inr hnew =>
          obtain ⟨stored, hstored, hsame⟩ := exists_mem_insertAllOrIgnore
            (t := (makeWay t runId).changes) hnew
          exact hsame ▸ hstored

end RuntimeIngest
