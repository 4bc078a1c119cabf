import FlowDeck.Verification.RuntimeIngest

/-! What an artifact has to be for its run to be stored. -/

namespace RuntimeIngest

open CalibrationHistory Checked PolicyStore RunArtifact List

/-- Two checks that share an execution carry one evidence. -/
structure SameEvidence (first other : CheckExecutionResult) : Prop where
  status : other.status = first.status
  command : other.command = first.command
  cwd : other.cwd = first.cwd
  exitCode : other.exitCode = first.exitCode
  signal : other.signal = first.signal
  durationMs : other.durationMs = first.durationMs
  stdoutDigest : other.stdoutDigest = first.stdoutDigest
  stderrDigest : other.stderrDigest = first.stderrDigest
  stdoutCapturedBytes : other.stdoutCapturedBytes = first.stdoutCapturedBytes
  stderrCapturedBytes : other.stderrCapturedBytes = first.stderrCapturedBytes
  stdoutTruncated : other.stdoutTruncated = first.stdoutTruncated
  stderrTruncated : other.stderrTruncated = first.stderrTruncated
  startedAtMs : other.startedAtMs = first.startedAtMs

theorem SameEvidence.refl (check : CheckExecutionResult) : SameEvidence check check :=
  ⟨rfl, rfl, rfl, rfl, rfl, rfl, rfl, rfl, rfl, rfl, rfl, rfl, rfl⟩

theorem SameEvidence.symm {a b : CheckExecutionResult} (h : SameEvidence a b) :
    SameEvidence b a :=
  ⟨h.status.symm, h.command.symm, h.cwd.symm, h.exitCode.symm, h.signal.symm, h.durationMs.symm,
    h.stdoutDigest.symm, h.stderrDigest.symm, h.stdoutCapturedBytes.symm,
    h.stderrCapturedBytes.symm, h.stdoutTruncated.symm, h.stderrTruncated.symm,
    h.startedAtMs.symm⟩

theorem SameEvidence.trans {a b c : CheckExecutionResult} (h : SameEvidence a b)
    (h' : SameEvidence b c) : SameEvidence a c :=
  ⟨h'.status.trans h.status, h'.command.trans h.command, h'.cwd.trans h.cwd,
    h'.exitCode.trans h.exitCode, h'.signal.trans h.signal, h'.durationMs.trans h.durationMs,
    h'.stdoutDigest.trans h.stdoutDigest, h'.stderrDigest.trans h.stderrDigest,
    h'.stdoutCapturedBytes.trans h.stdoutCapturedBytes,
    h'.stderrCapturedBytes.trans h.stderrCapturedBytes, h'.stdoutTruncated.trans h.stdoutTruncated,
    h'.stderrTruncated.trans h.stderrTruncated, h'.startedAtMs.trans h.startedAtMs⟩

structure ValidRun (run : VerificationRun) : Prop where
  distinct : (run.checks.map CheckExecutionResult.checkId).Nodup
  named : ∀ check ∈ run.checks, trimmed check.executionId ≠ ""
  planned : ∀ check ∈ run.checks, isPlanned run check.checkId = true
  primary : ∀ check ∈ run.checks,
    ((groupOf run check.executionId).filter fun member => !member.reusedExecution).length = 1
  evidence : ∀ first ∈ run.checks, ∀ other ∈ run.checks,
    first.executionId = other.executionId → SameEvidence first other

variable {executionId : String} {run : VerificationRun}

theorem validateEvidence_eq_ok {debug : String → String} {first other : CheckExecutionResult} :
    validateEvidence debug executionId first other = .ok () ↔ SameEvidence first other := by
  simp only [validateEvidence, unit_bind_eq_ok, refuseIf_eq_ok, not_or, not_not]
  constructor
  · intro h
    obtain ⟨hstatus, hcommand, hcwd, hexit, hsignal, hduration, hout, herr, hbytes, hstarted⟩ := h
    exact ⟨hstatus, hcommand, hcwd, hexit, hsignal, hduration, hout, herr, hbytes.1, hbytes.2.1,
      hbytes.2.2.1, hbytes.2.2.2, hstarted⟩
  · intro h
    exact ⟨h.status, h.command, h.cwd, h.exitCode, h.signal, h.durationMs, h.stdoutDigest,
      h.stderrDigest, ⟨h.stdoutCapturedBytes, h.stderrCapturedBytes, h.stdoutTruncated,
        h.stderrTruncated⟩, h.startedAtMs⟩

theorem validateGroup_eq_ok {debug : String → String} {first : CheckExecutionResult}
    {others : List CheckExecutionResult} :
    validateGroup debug executionId (first :: others) = .ok () ↔
      ((first :: others).filter fun member => !member.reusedExecution).length = 1 ∧
        ∀ other ∈ others, SameEvidence first other := by
  simp only [validateGroup, unit_bind_eq_ok, forM_eq_ok, refuseIf_eq_ok, not_not,
    validateEvidence_eq_ok]
  constructor
  · exact fun h => h.2
  · intro h
    refine ⟨?_, h⟩
    intro other hother
    rw [(h.2 other hother).status]

theorem validateCheck_eq_ok {earlier ids : List String} {check : CheckExecutionResult} :
    validateCheck run earlier check = .ok ids ↔
      (check.checkId ∉ earlier ∧ trimmed check.executionId ≠ "" ∧
        isPlanned run check.checkId = true) ∧ earlier ++ [check.checkId] = ids := by
  simp only [validateCheck, bind_eq_ok, refuseIf_eq_ok, pure_eq_ok, exists_const,
    Bool.not_eq_false, and_assoc]

theorem foldlM_validateCheck_eq_ok {checks : List CheckExecutionResult} {earlier ids : List String}
    (hearlier : earlier.Nodup) :
    checks.foldlM (validateCheck run) earlier = .ok ids ↔
      ((earlier ++ checks.map CheckExecutionResult.checkId).Nodup ∧
        ∀ check ∈ checks, trimmed check.executionId ≠ "" ∧ isPlanned run check.checkId = true) ∧
        earlier ++ checks.map CheckExecutionResult.checkId = ids := by
  induction checks generalizing earlier with
  | nil => simp [pure_eq_ok, hearlier]
  | cons check checks ih =>
    rw [foldlM_cons, bind_eq_ok]
    constructor
    · intro h
      obtain ⟨next, hnext, hrest⟩ := h
      obtain ⟨⟨hnew, hcheck⟩, rfl⟩ := validateCheck_eq_ok.mp hnext
      have hnodup : (earlier ++ [check.checkId]).Nodup := by
        simp [nodup_append, hearlier]
        exact fun id hid heq => hnew (heq ▸ hid)
      obtain ⟨⟨hall, hchecks⟩, hids⟩ := (ih hnodup).mp hrest
      rw [append_assoc] at hall hids
      refine ⟨⟨hall, ?_⟩, hids⟩
      intro candidate hmem
      cases mem_cons.mp hmem with
      | inl heq => exact heq ▸ hcheck
      | inr hmem => exact hchecks candidate hmem
    · intro h
      obtain ⟨⟨hall, hchecks⟩, hids⟩ := h
      rw [map_cons, ← singleton_append, ← append_assoc] at hall hids
      have hnodup : (earlier ++ [check.checkId]).Nodup := hall.of_append_left
      have hnew : check.checkId ∉ earlier := by
        intro hid
        exact disjoint_of_nodup_append hnodup hid (mem_singleton_self _)
      refine ⟨earlier ++ [check.checkId],
        validateCheck_eq_ok.mpr ⟨⟨hnew, hchecks check mem_cons_self⟩, rfl⟩, ?_⟩
      refine (ih hnodup).mpr ⟨⟨hall, ?_⟩, hids⟩
      exact fun candidate hmem => hchecks candidate (mem_cons_of_mem _ hmem)

theorem mem_groupOf {check : CheckExecutionResult} :
    check ∈ groupOf run executionId ↔ check ∈ run.checks ∧ check.executionId = executionId := by
  simp [groupOf]

theorem mem_executionIds :
    executionId ∈ executionIds run ↔ ∃ check ∈ run.checks, check.executionId = executionId := by
  simp [executionIds]

theorem validateRun_eq_ok {r : Runtime} : validateRun r run = .ok () ↔ ValidRun run := by
  have hgroups : (r.walk (executionIds run)).forM
      (fun executionId => validateGroup r.debug executionId (groupOf run executionId)) = .ok () ↔
        ∀ check ∈ run.checks,
          validateGroup r.debug check.executionId (groupOf run check.executionId) = .ok () := by
    rw [forM_eq_ok]
    simp only [(r.walk_perm _).mem_iff, mem_executionIds]
    constructor
    · exact fun h check hcheck => h check.executionId ⟨check, hcheck, rfl⟩
    · intro h executionId hid
      obtain ⟨check, hcheck, rfl⟩ := hid
      exact h check hcheck
  have hchecks : (∃ ids, run.checks.foldlM (validateCheck run) [] = .ok ids) ↔
      (run.checks.map CheckExecutionResult.checkId).Nodup ∧
        ∀ check ∈ run.checks,
          trimmed check.executionId ≠ "" ∧ isPlanned run check.checkId = true := by
    simp [foldlM_validateCheck_eq_ok nodup_nil]
  have hrun : validateRun r run = .ok () ↔
      (∃ ids, run.checks.foldlM (validateCheck run) [] = .ok ids) ∧
        (r.walk (executionIds run)).forM
          (fun executionId => validateGroup r.debug executionId (groupOf run executionId)) =
            .ok () := by
    simp only [validateRun, bind_eq_ok]
    exact exists_and_right
  rw [hrun, hchecks, hgroups]
  constructor
  · intro h
    obtain ⟨⟨hdistinct, heach⟩, hgroup⟩ := h
    -- every group of a check has a first member, with which the others agree
    have hfirst : ∀ check ∈ run.checks,
        ((groupOf run check.executionId).filter fun member =>
          !member.reusedExecution).length = 1 ∧
        ∃ first, ∀ member ∈ groupOf run check.executionId, SameEvidence first member := by
      intro check hcheck
      have hvalid := hgroup check hcheck
      cases hmembers : groupOf run check.executionId with
      | nil =>
        have hmem : check ∈ groupOf run check.executionId := mem_groupOf.mpr ⟨hcheck, rfl⟩
        rw [hmembers] at hmem
        exact absurd hmem not_mem_nil
      | cons first others =>
        rw [hmembers] at hvalid
        obtain ⟨hprimary, hsame⟩ := validateGroup_eq_ok.mp hvalid
        refine ⟨hprimary, first, ?_⟩
        intro member hmember
        cases mem_cons.mp hmember with
        | inl heq => exact heq ▸ SameEvidence.refl first
        | inr hmem => exact hsame member hmem
    refine ⟨hdistinct, fun check hcheck => (heach check hcheck).1,
      fun check hcheck => (heach check hcheck).2, fun check hcheck => (hfirst check hcheck).1, ?_⟩
    intro a ha b hb hid
    obtain ⟨-, first, hsame⟩ := hfirst a ha
    have hfirstA := hsame a (mem_groupOf.mpr ⟨ha, rfl⟩)
    have hfirstB := hsame b (mem_groupOf.mpr ⟨hb, hid.symm⟩)
    exact hfirstA.symm.trans hfirstB
  · intro h
    refine ⟨⟨h.distinct, fun check hcheck => ⟨h.named check hcheck, h.planned check hcheck⟩⟩, ?_⟩
    intro check hcheck
    cases hmembers : groupOf run check.executionId with
    | nil => rfl
    | cons first others =>
      have hprimary := h.primary check hcheck
      rw [hmembers] at hprimary
      refine validateGroup_eq_ok.mpr ⟨hprimary, ?_⟩
      have hmem : ∀ member ∈ first :: others,
          member ∈ run.checks ∧ member.executionId = check.executionId := by
        intro member hmember
        rw [← hmembers] at hmember
        exact mem_groupOf.mp hmember
      obtain ⟨hfirst, hfirstId⟩ := hmem first mem_cons_self
      intro other hother
      obtain ⟨hin, hotherId⟩ := hmem other (mem_cons_of_mem _ hother)
      exact h.evidence first hfirst other hin (hfirstId.trans hotherId.symm)

end RuntimeIngest
