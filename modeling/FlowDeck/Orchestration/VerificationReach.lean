import FlowDeck.Orchestration.ProgressOnce

/-! When evaluations that are repeated on a finished run move it to `verifying`. -/

namespace AttemptStore

open Orchestration RunStore Snapshot TransitionEngine VerificationEntry RunEffects TransitionEngine

/-! ### Evaluations leave the attempts -/

def attemptRows (store : Store) : List MetadataRow :=
  store.metadata.rows.filter fun row => row.value.attempt?.isSome

variable {store store' : Store} {now : Nat}

theorem listAttempts_congr (hstore : Consistent store) (hstore' : Consistent store')
    (h : attemptRows store' = attemptRows store) (order : ScanOrder) (runId item : String) :
    listAttempts order store' runId item = listAttempts order store runId item := by
  have hrows {store : Store} (hstore : Consistent store) :
      matchingRows store runId (attemptPattern runId item) =
        (attemptRows store).filter fun row =>
          row.runId = runId && Like.like (attemptPattern runId item).toList row.key.toList := by
    rw [attemptRows, List.filter_filter, matchingRows]
    apply List.filter_congr
    intro row hrow
    cases hmatches : decide (row.runId = runId) &&
        Like.like (attemptPattern runId item).toList row.key.toList with
    | false => rfl
    | true =>
      have hfound : row ∈ matchingRows store runId (attemptPattern runId item) :=
        List.mem_filter.mpr ⟨hrow, hmatches⟩
      obtain ⟨-, a, ha, -⟩ := (mem_matchingRows hstore).mp hfound
      simp [attempt?_eq_some.mpr ha]
  rw [listAttempts, listAttempts, hrows hstore, hrows hstore', h]

theorem Consistent.upsert_attemptRows {row : MetadataRow} {metadata : Table MetadataRow.place}
    (hstore : Consistent store) (hvalue : row.value.attempt? = none)
    (hkey : ∃ item, row.key = consumedKey row.runId item ∨ row.key = constraintKey row.runId item)
    (h : upsertRow store.metadata row = some metadata) :
    attemptRows ⟨metadata, store.calls⟩ = attemptRows store := by
  unfold upsertRow at h
  split at h
  · obtain rfl := Option.some.inj h
    let f := Table.setWhere (fun other : MetadataRow => other.place = row.place)
      fun other => { other with value := row.value }
    have hrows : (AttemptStore.setValue store.metadata row.place row.value).rows =
        store.metadata.rows.map f := rfl
    have hkept : ∀ other ∈ store.metadata.rows,
        ((f other).value.attempt?.isSome = other.value.attempt?.isSome) ∧
          (other.value.attempt?.isSome = true → f other = other) := by
      intro other hother
      by_cases hplace : other.place = row.place
      · have hf : f other = { other with value := row.value } :=
          Table.setWhere_pos (by simpa using hplace)
        have hnone : other.value.attempt? = none := by
          cases hattempt : other.value.attempt? with
          | none => rfl
          | some a =>
            obtain ⟨-, hown⟩ := hstore.attempt other hother a (attempt?_eq_some.mp hattempt)
            exact absurd (hown.symm.trans (congrArg Prod.snd hplace)) (attemptKey_ne_other hkey)
        simp [hf, hvalue, hnone]
      · have hf : f other = other := Table.setWhere_neg (by simpa using hplace)
        simp [hf]
    simp only [attemptRows, hrows, List.filter_map]
    have hfilter : store.metadata.rows.filter ((fun row => row.value.attempt?.isSome) ∘ f) =
        store.metadata.rows.filter fun row => row.value.attempt?.isSome :=
      List.filter_congr fun other hother => (hkept other hother).1
    rw [hfilter]
    refine (List.map_congr_left fun other hother => ?_).trans (List.map_id _)
    obtain ⟨hmem, hsome⟩ := List.mem_filter.mp hother
    exact (hkept other hmem).2 hsome
  · unfold insertRow at h
    split_ifs at h
    obtain ⟨-, hrows⟩ := Table.insert?_eq_some h
    simp [attemptRows, hrows, hvalue]

theorem Consistent.write_attemptRows {runId : String} {w : MetadataWrite}
    (hstore : Consistent store) (h : AttemptStore.write store runId now w = some store') :
    attemptRows store' = attemptRows store := by
  have hput {item : String} {set : StrategyConstraintSet} {cleared : Bool}
      (h : AttemptStore.putConstraints store runId item set cleared now = some store') :
      attemptRows store' = attemptRows store := by
    obtain ⟨metadata, hupsert, rfl⟩ := Option.map_eq_some_iff.mp h
    exact hstore.upsert_attemptRows rfl ⟨item, .inr rfl⟩ hupsert
  cases w with
  | saveStrategyConstraint item action state reason => exact hput h
  | markConsumedProgressAttempt item n =>
    obtain ⟨metadata, hupsert, rfl⟩ := Option.map_eq_some_iff.mp h
    exact hstore.upsert_attemptRows rfl ⟨item, .inl rfl⟩ hupsert
  | clearStrategyConstraint item =>
    simp only [AttemptStore.write, clearStrategyConstraint] at h
    split at h
    · obtain rfl := Option.some.inj h
      rfl
    · exact hput h

theorem Consistent.writeAll_attemptRows {runId : String} {writes : List MetadataWrite}
    (hstore : Consistent store) (h : AttemptStore.writeAll store runId now writes = some store') :
    attemptRows store' = attemptRows store := by
  induction writes generalizing store with
  | nil =>
    obtain rfl := Option.some.inj h
    rfl
  | cons w writes ih =>
    obtain ⟨next, hnext, hrest⟩ := writeAll_cons.mp h
    have hfirst := hstore.write_attemptRows hnext
    have hlast := ih (hstore.write hnext).consistent hrest
    rw [hlast, hfirst]

theorem evaluateRun_attempts {order : ScanOrder} {e : Engine} {input : EvaluateInput}
    {version : Nat} (hstore : Consistent e.store) (runId item : String) :
    listAttempts order (evaluateRun order e input version now).1.store runId item =
      listAttempts order e.store runId item := by
  apply listAttempts_congr hstore (evaluateRun_writes hstore).consistent
  simp only [evaluateRun]
  split
  · next store hwritten => exact hstore.writeAll_attemptRows hwritten
  · rfl

/-! ### One evaluation of a finished run -/

/-- A run in execution that has nothing left to do but to be verified. -/
structure Finished (snapshot : OrchestrationSnapshot) : Prop where
  executing : snapshot.phase = .executing
  ready : isReadyForVerification snapshot = true
  noFailed : hasFailedRequired snapshot = false
  noCancellation : snapshot.cancellationPending = false
  noReplacement : snapshot.unresolvedDeferredReplacement = false
  notStalled : snapshot.progress.isStalled = false

def NothingToJudge (records : ItemRecords) : Prop :=
  ∀ last, records.attempts.getLast? = some last → last.actionFingerprint = ""

/-- `evaluate({ runId, sessionId })`. -/
def idleInput (runId : String) : EvaluateInput where
  runId := runId
  latestActionFingerprint := none
  latestError := none

section Finished

variable {snapshot : OrchestrationSnapshot} {records : ItemRecords} {runId : String}

def hasStateChange (snapshot : OrchestrationSnapshot) (records : ItemRecords) : Bool :=
  decide (0 < snapshot.progress.lastRepositoryDelta) ||
    records.attempts.getLast?.any (·.progressProduced)

/-- The checks on the latest attempt let an evaluation on only where they have nothing to judge. -/
theorem judgeAttempt_idle : judgeAttempt snapshot (idleInput runId) records
    (hasStateChange snapshot records) = none ↔ NothingToJudge records := by
  unfold NothingToJudge
  cases hlast : records.attempts.getLast? with
  | none => simp [judgeAttempt, hlast]
  | some last =>
    have hfingerprint : (idleInput runId).latestActionFingerprint.getD last.actionFingerprint =
        last.actionFingerprint := rfl
    have hchanged : hasStateChange snapshot records =
        (decide (0 < snapshot.progress.lastRepositoryDelta) || last.progressProduced) := by
      simp [hasStateChange, hlast]
    simp only [judgeAttempt, hlast, hfingerprint, Option.some.injEq, forall_eq']
    by_cases hempty : last.actionFingerprint = ""
    · simp [hempty]
    · rw [if_neg hempty]
      refine iff_of_false (fun hnone => ?_) hempty
      split_ifs at hnone with hrepeat htransient hprogress hconsumed
      -- neither repeated nor progress: but one of the two holds
      simp only [hchanged, decide_true, Bool.true_and, Bool.and_eq_true, Bool.not_eq_true',
        Bool.or_eq_false_iff, Bool.or_eq_true, not_and, not_or] at hrepeat hprogress
      have hprogressed : last.progressProduced = false := Bool.eq_false_iff.mpr hprogress.1
      exact hrepeat hprogressed (Bool.eq_false_iff.mpr hprogress.2) hprogressed

/-- An evaluation of a finished run blocks, judges the last attempt, or asks for `verifying`. -/
theorem evaluateSnapshot_finished (h : Finished snapshot) (input : EvaluateInput)
    (records : ItemRecords) :
    (isExhausted snapshot records = true ∧
        ∃ answer, evaluateSnapshot snapshot input records = .answer answer) ∨
      isExhausted snapshot records = false ∧ evaluateSnapshot snapshot input records =
        match judgeAttempt snapshot input records (hasStateChange snapshot records) with
        | some answer => .answer answer
        | none => advance snapshot := by
  have hterminal : isTerminalPhase snapshot.phase = false := by
    rw [h.executing]
    decide
  have hrecovering : (decide (snapshot.phase = .recovering) &&
      hasStateChange snapshot records) = false := by
    rw [h.executing]
    simp
  unfold hasStateChange at hrecovering
  cases hexhausted : isExhausted snapshot records with
  | true =>
    unfold isExhausted at hexhausted
    simp [evaluateSnapshot, hterminal, h.noFailed, hexhausted]
  | false =>
    unfold isExhausted at hexhausted
    refine .inr ⟨rfl, ?_⟩
    generalize hanswer : (match judgeAttempt snapshot input records
        (hasStateChange snapshot records) with
      | some answer => Evaluation.answer answer
      | none => advance snapshot) = answer
    simp only [evaluateSnapshot, hterminal, h.noFailed, hexhausted, h.notStalled, hrecovering,
      Bool.false_eq_true, if_false]
    exact hanswer

theorem evaluateSnapshot_judges (h : Finished snapshot) (hjudge : ¬NothingToJudge records) :
    ∃ answer, evaluateSnapshot snapshot (idleInput runId) records = .answer answer := by
  rcases evaluateSnapshot_finished h (idleInput runId) records with ⟨-, hanswer⟩ | ⟨-, heq⟩
  · exact hanswer
  · obtain ⟨answer, hanswer⟩ :=
      Option.ne_none_iff_exists'.mp fun hnone => hjudge (judgeAttempt_idle.mp hnone)
    rw [hanswer] at heq
    exact ⟨answer, heq⟩

theorem advance_finished (h : Finished snapshot) :
    ∃ answer conflict, advance snapshot = swapTo snapshot .verifying answer none conflict := by
  have hready := h.ready
  simp only [isReadyForVerification, Bool.and_eq_true, decide_eq_true_eq] at hready
  have hactive : ¬0 < snapshot.childState.activeRequired := by omega
  have hallowed : (decide (snapshot.phase ≠ .verifying) &&
      isValidPhaseTransition snapshot.phase .verifying) = true := by
    rw [h.executing]
    decide
  simp only [advance, h.noCancellation, h.noReplacement, Bool.or_false, Bool.false_eq_true,
    if_false, hactive, h.ready, if_true, enter, hallowed]
  exact ⟨_, _, rfl⟩

end Finished

/-! ### Repeated evaluations -/

/-- The engine after so many calls of `evaluate({ runId, sessionId })`. -/
def afterEvaluations (order : ScanOrder) (e : Engine) (runId : String) (version : Nat)
    (now : Nat → Nat) : Nat → Engine
  | 0 => e
  | n + 1 =>
    (evaluateRun order (afterEvaluations order e runId version now n) (idleInput runId) version
      (now n)).1

def phaseOf (e : Engine) (runId : String) : Option OrchestrationPhase :=
  (e.db.taskRuns.get? runId).map (·.state)

/-- The run has only its verification ahead, and its strategies are not exhausted. -/
structure AtVerification (order : ScanOrder) (e : Engine) (runId : String) (version : Nat)
    (snapshot : OrchestrationSnapshot) : Prop where
  consistent : Consistent e.store
  found : getSnapshot e.db runId = some snapshot
  finished : Finished snapshot
  notExhausted : isExhausted snapshot
    (itemRecords order e.store version runId (targetItemId snapshot)) = false

section Reach

variable {order : ScanOrder} {e : Engine} {runId : String} {version : Nat}
  {snapshot : OrchestrationSnapshot}

theorem evaluateRun_db (order : ScanOrder) (e : Engine) (input : EvaluateInput)
    (version now : Nat) : (evaluateRun order e input version now).1.db =
      (VerificationEntry.perform e.db (evaluate e.db input
        (itemRecords order e.store version input.runId))).1 := by
  simp only [evaluateRun]
  split <;> rfl

theorem moves_first (h : AtVerification order e runId version snapshot)
    (hnothing : NothingToJudge (itemRecords order e.store version runId (targetItemId snapshot)))
    (now : Nat → Nat) :
    phaseOf (afterEvaluations order e runId version now 1) runId = some .verifying := by
  obtain ⟨row, hrow, rfl⟩ := Option.map_eq_some_iff.mp h.found
  have hid : row.runId = runId := Table.key_of_get? hrow
  obtain ⟨answer, conflict, hadvance⟩ := advance_finished h.finished
  have hevaluate : evaluate e.db (idleInput runId)
      (itemRecords order e.store version runId) =
        swapTo (snapshotOf e.db row) .verifying answer none conflict := by
    have hsnapshot : getSnapshot e.db (idleInput runId).runId = some (snapshotOf e.db row) := h.found
    simp only [evaluate, hsnapshot]
    rcases evaluateSnapshot_finished h.finished (idleInput runId) (itemRecords order e.store version
      runId (targetItemId (snapshotOf e.db row))) with ⟨hexhausted, -⟩ | ⟨-, heq⟩
    · rw [h.notExhausted] at hexhausted
      cases hexhausted
    · rw [heq, judgeAttempt_idle.mpr hnothing, hadvance]
  have hmatches : (decide (row.runId = row.runId) && decide (row.state = row.state) &&
      decide (row.aggregateVersion = row.aggregateVersion)) = true := by simp
  have hphase : row.state = .executing := h.finished.executing
  have hmay : mayTransition ⟨row.runId, .verifying, row.state, row.aggregateVersion, none⟩ false =
      true := by
    rw [hphase]
    rfl
  rw [phaseOf, afterEvaluations, afterEvaluations, evaluateRun_db]
  have hsame : (idleInput runId).runId = runId := rfl
  rw [hsame, hevaluate]
  have hget := transitionPhase_get? e.db
    ⟨row.runId, .verifying, row.state, row.aggregateVersion, none⟩ false runId
  rw [hrow, Option.map_some, hmay, Bool.true_and] at hget
  have hswap : PhaseCas.matches (TransitionPhaseInput.cas
      ⟨row.runId, .verifying, row.state, row.aggregateVersion, none⟩) row = true := hmatches
  rw [if_pos hswap] at hget
  exact congrArg (Option.map (·.state)) hget

theorem stays (h : AtVerification order e runId version snapshot)
    (hjudge : ¬NothingToJudge (itemRecords order e.store version runId (targetItemId snapshot)))
    (now : Nat → Nat) (n : Nat) :
    phaseOf (afterEvaluations order e runId version now n) runId = some .executing := by
  have hkept : (afterEvaluations order e runId version now n).db = e.db ∧
      Consistent (afterEvaluations order e runId version now n).store ∧
      ∀ item, listAttempts order (afterEvaluations order e runId version now n).store runId item =
        listAttempts order e.store runId item := by
    induction n with
    | zero => exact ⟨rfl, h.consistent, fun _ => rfl⟩
    | succ n ih =>
      obtain ⟨hdb, hconsistent, hlist⟩ := ih
      refine ⟨?_, (evaluateRun_writes hconsistent).consistent, fun item => ?_⟩
      · let records := itemRecords order (afterEvaluations order e runId version now n).store version
          runId
        have hsnapshot : getSnapshot e.db (idleInput runId).runId = some snapshot := h.found
        have hattempts : (records (targetItemId snapshot)).attempts =
            (itemRecords order e.store version runId (targetItemId snapshot)).attempts :=
          congrArg (List.map Attempt.toRecord) (hlist (targetItemId snapshot))
        have hstill : ¬NothingToJudge (records (targetItemId snapshot)) := by
          unfold NothingToJudge at hjudge ⊢
          rw [hattempts]
          exact hjudge
        have hanswers : ∃ answer, evaluateSnapshot snapshot (idleInput runId)
            (records (targetItemId snapshot)) = .answer answer :=
          evaluateSnapshot_judges h.finished hstill
        obtain ⟨answer, hanswer⟩ := hanswers
        have hevaluate : evaluate e.db (idleInput runId) records =
            .answer answer := by
          simp only [evaluate, hsnapshot, hanswer]
        have hperform : VerificationEntry.perform e.db
            (evaluate e.db (idleInput runId) records) = (e.db, answer) := by
          rw [hevaluate]
          rfl
        rw [afterEvaluations, evaluateRun_db, hdb]
        exact congrArg Prod.fst hperform
      · rw [afterEvaluations, evaluateRun_attempts hconsistent, hlist]
  obtain ⟨row, hrow, rfl⟩ := Option.map_eq_some_iff.mp h.found
  have hphase : row.state = .executing := h.finished.executing
  rw [phaseOf, hkept.1, hrow, Option.map_some, hphase]

/-- A run that has only its verification ahead is moved to `verifying` within as many evaluations as
it has items and attempts, or at all, exactly when its item has no attempt to judge. -/
theorem reaches_verifying_iff (h : AtVerification order e runId version snapshot)
    (now : Nat → Nat) :
    ((∃ n ≤ snapshot.workItems.length + (allStarted e.store).length,
        phaseOf (afterEvaluations order e runId version now n) runId = some .verifying) ↔
      NothingToJudge (itemRecords order e.store version runId (targetItemId snapshot))) ∧
    ((∃ n, phaseOf (afterEvaluations order e runId version now n) runId = some .verifying) ↔
      NothingToJudge (itemRecords order e.store version runId (targetItemId snapshot))) := by
  have hnever : (∃ n, phaseOf (afterEvaluations order e runId version now n) runId =
      some .verifying) →
        NothingToJudge (itemRecords order e.store version runId (targetItemId snapshot)) := by
    intro hreaches
    obtain ⟨n, hn⟩ := hreaches
    by_contra hjudge
    rw [stays h hjudge now n] at hn
    cases hn
  have hsome : 1 ≤ snapshot.workItems.length + (allStarted e.store).length := by
    have hready := h.finished.ready
    simp only [isReadyForVerification, Bool.and_eq_true, decide_eq_true_eq] at hready
    have hle := List.length_filter_le (·.isRequired) snapshot.workItems
    omega
  refine ⟨⟨fun hreaches => ?_, fun hnothing => ?_⟩, hnever, fun hnothing => ?_⟩
  · obtain ⟨n, _, hn⟩ := hreaches
    exact hnever ⟨n, hn⟩
  · exact ⟨1, hsome, moves_first h hnothing now⟩
  · exact ⟨1, moves_first h hnothing now⟩

end Reach

def completedRun : Database :=
  { oneRun with surroundings := { RunService.exampleSurroundings with
      assignments := ⟨[itemRow "a" .completed], List.nodup_singleton _⟩ } }

theorem completedRun_finished : Finished (snapshotOf completedRun
    ⟨"r", "c", "solo", .executing, 1, none, 0, none⟩) :=
  ⟨rfl, by decide +kernel, by decide +kernel, by decide +kernel, by decide +kernel, rfl⟩

theorem completed_run_reaches_iff :
    ((∃ n ≤ 1 + 0, phaseOf (afterEvaluations (keyOrder false) ⟨completedRun, emptyStore⟩ "r" 0 id n)
        "r" = some .verifying) ↔
      NothingToJudge (itemRecords (keyOrder false) emptyStore 0 "r" "a")) ∧
    ((∃ n, phaseOf (afterEvaluations (keyOrder false) ⟨completedRun, emptyStore⟩ "r" 0 id n)
        "r" = some .verifying) ↔
      NothingToJudge (itemRecords (keyOrder false) emptyStore 0 "r" "a")) :=
  reaches_verifying_iff ⟨(Recorded.empty completedRun).consistent, rfl, completedRun_finished, rfl⟩ id

def startOfRun : Engine := ⟨completedRun, emptyStore⟩

/-- The completed run after one attempt that made progress. -/
def afterProgress : Engine :=
  (Machine.run (step (keyOrder false)) startOfRun (progress "a" "c1" 1 1)).getD startOfRun

theorem run_afterProgress : Machine.run (step (keyOrder false)) startOfRun
    (progress "a" "c1" 1 1) = some afterProgress := rfl

theorem confirmed_attempt_never_verified : ∃ snapshot,
    AtVerification (keyOrder false) afterProgress "r" 0 snapshot ∧
      ¬∃ n, phaseOf (afterEvaluations (keyOrder false) afterProgress "r" 0 id n) "r" =
        some .verifying := by
  have hrecorded : Recorded afterProgress := Machine.run_invariant
    (fun _ _ _ he hstep => he.step hstep) (Recorded.empty completedRun) run_afterProgress
  have hat : AtVerification (keyOrder false) afterProgress "r" 0 (snapshotOf completedRun
      ⟨"r", "c", "solo", .executing, 1, none, 0, none⟩) :=
    ⟨hrecorded.consistent, rfl, completedRun_finished, by decide +kernel⟩
  have hjudge : ¬NothingToJudge (itemRecords (keyOrder false) afterProgress.store 0 "r" "a") := by
    intro hnothing
    have hlast := hnothing ⟨1, "f", "s", true, false⟩ (by decide +kernel)
    exact absurd hlast (by decide)
  refine ⟨_, hat, fun ⟨n, hn⟩ => ?_⟩
  rw [stays hat hjudge id n] at hn
  cases hn

end AttemptStore
