import FlowDeck.Orchestration.ProgressOnce

/-! How often an action that keeps failing is allowed a retry because of transient errors. -/

namespace AttemptStore

open Orchestration RunStore Snapshot TransitionEngine VerificationEntry Machine List

/-! ### One evaluation -/

/-- An evaluation of the snapshot comes to the repetition check. -/
def reachesCheck (snapshot : OrchestrationSnapshot) (records : ItemRecords) : Bool :=
  !isTerminalPhase snapshot.phase && !hasFailedRequired snapshot &&
    !(records.activeConstraint.any fun constraint => constraint.exhausted &&
      decide (constraint.stateFingerprint =
        computeStrategyStateFingerprint snapshot (targetItemId snapshot) records)) &&
    !snapshot.progress.isStalled

def failedTransiently (snapshot : OrchestrationSnapshot) (input : EvaluateInput)
    (records : ItemRecords) (action : String) : Bool :=
  match records.attempts.getLast? with
  | none => false
  | some last =>
    decide (action ≠ "") &&
      decide (input.latestActionFingerprint.getD last.actionFingerprint = action) &&
      decide (last.actionFingerprint = action) && !last.progressProduced &&
      !decide (0 < snapshot.progress.lastRepositoryDelta) &&
      (input.latestError.any isTransientError || last.isTransientError)

def storedTransient (records : ItemRecords) (action : String) : Nat :=
  records.attempts.countP fun attempt =>
    decide (attempt.actionFingerprint = action) && attempt.isTransientError

def judgedAction (input : EvaluateInput) (records : ItemRecords) : Option String :=
  records.attempts.getLast?.map fun last =>
    input.latestActionFingerprint.getD last.actionFingerprint

def retryAnswer (snapshot : OrchestrationSnapshot) : Answer where
  result := stay snapshot (some (targetItemId snapshot)) .retrySameStrategy .transientRetryAllowed true

variable {snapshot : OrchestrationSnapshot} {input : EvaluateInput} {records : ItemRecords}
  {action : String}

theorem judgeAttempt_retry (h : failedTransiently snapshot input records action = true)
    (hcount : storedTransient records action ≤ 2) :
    judgeAttempt snapshot input records (decide (0 < snapshot.progress.lastRepositoryDelta) ||
      records.attempts.getLast?.any (·.progressProduced)) = some (retryAnswer snapshot) := by
  unfold failedTransiently at h
  unfold judgeAttempt
  cases hlast : records.attempts.getLast? with
  | none => simp [hlast] at h
  | some last =>
    simp only [hlast, Bool.and_eq_true, decide_eq_true_eq, Bool.not_eq_true'] at h
    obtain ⟨⟨⟨⟨⟨hne, hjudged⟩, hsame⟩, hfailed⟩, hdelta⟩, htransient⟩ := h
    have hcount' : (records.attempts.countP fun attempt =>
        decide (attempt.actionFingerprint = action) && attempt.isTransientError) ≤ 2 := hcount
    subst hsame
    simp [hjudged, hne, hfailed, hdelta, htransient, hcount', retryAnswer]

theorem retry_of_judgeAttempt {answer : Answer} {changed : Bool}
    (hchanged : changed = (decide (0 < snapshot.progress.lastRepositoryDelta) ||
      records.attempts.getLast?.any (·.progressProduced)))
    (h : judgeAttempt snapshot input records changed = some answer)
    (hretry : answer.result.reasonCode = .transientRetryAllowed) :
    answer = retryAnswer snapshot ∧ ∃ action, judgedAction input records = some action ∧
      failedTransiently snapshot input records action = true ∧
        storedTransient records action ≤ 2 := by
  unfold judgeAttempt at h
  split at h
  · cases h
  · next last hlast =>
    simp only at h
    split_ifs at h with hnone hrepeat htransient hphase hprogress hconsumed
    · refine ⟨(Option.some.inj h).symm,
        input.latestActionFingerprint.getD last.actionFingerprint, ?_, ?_, ?_⟩
      · simp [judgedAction, hlast]
      · simp only [hlast, Option.any_some] at hchanged
        simp only [Bool.and_eq_true, decide_eq_true_eq, Bool.not_eq_true'] at hrepeat htransient
        obtain ⟨⟨hsame, hfailed⟩, hunchanged⟩ := hrepeat
        rw [hchanged, Bool.or_eq_false_iff] at hunchanged
        simp only [failedTransiently, hlast, Bool.and_eq_true, decide_eq_true_eq, Bool.not_eq_true']
        exact ⟨⟨⟨⟨⟨hnone, trivial⟩, hsame⟩, hfailed⟩, hunchanged.1⟩, htransient.1⟩
      · simp only [Bool.and_eq_true, decide_eq_true_eq] at htransient
        exact htransient.2
    · obtain rfl := Option.some.inj h
      simp at hretry
    · obtain rfl := Option.some.inj h
      simp at hretry
    · obtain rfl := Option.some.inj h
      simp [stay] at hretry
    · obtain rfl := Option.some.inj h
      simp [stay] at hretry

theorem evaluateSnapshot_retry (hreaches : reachesCheck snapshot records = true)
    (h : failedTransiently snapshot input records action = true)
    (hcount : storedTransient records action ≤ 2) :
    evaluateSnapshot snapshot input records = .answer (retryAnswer snapshot) := by
  have hunchanged : (decide (0 < snapshot.progress.lastRepositoryDelta) ||
      records.attempts.getLast?.any (·.progressProduced)) = false := by
    unfold failedTransiently at h
    cases hlast : records.attempts.getLast? with
    | none => simp [hlast] at h
    | some last =>
      simp only [hlast, Bool.and_eq_true, Bool.not_eq_true'] at h
      obtain ⟨⟨⟨_, hfailed⟩, hdelta⟩, _⟩ := h
      simp [hfailed, hdelta]
  have hjudge := judgeAttempt_retry h hcount
  simp only [reachesCheck, Bool.and_eq_true, Bool.not_eq_true'] at hreaches
  obtain ⟨⟨⟨hactive, hnotFailed⟩, hopen⟩, hmoving⟩ := hreaches
  unfold evaluateSnapshot
  rw [hactive, hnotFailed, hopen, hmoving, hunchanged]
  rw [hunchanged] at hjudge
  simp [hjudge]

def AllowsRetry (snapshot : OrchestrationSnapshot) (input : EvaluateInput) (records : ItemRecords)
    (answer : Answer) : Prop :=
  answer.result.reasonCode = .transientRetryAllowed →
    answer = retryAnswer snapshot ∧ reachesCheck snapshot records = true ∧
      ∃ action, judgedAction input records = some action ∧
        failedTransiently snapshot input records action = true ∧
          storedTransient records action ≤ 2

theorem allowsRetry_of_ne {answer : Answer}
    (h : answer.result.reasonCode ≠ .transientRetryAllowed) :
    AllowsRetry snapshot input records answer := fun hretry => absurd hretry h

theorem allowsRetry_recoverFailed :
    Answers (AllowsRetry snapshot input records) (recoverFailed snapshot) := by
  simp only [recoverFailed]
  apply answers_enter
  · intro phase changed
    apply allowsRetry_of_ne
    split_ifs <;> simp
  · exact allowsRetry_of_ne (by simp)

theorem allowsRetry_recoverStalled :
    Answers (AllowsRetry snapshot input records) (recoverStalled snapshot input records) := by
  simp only [recoverStalled]
  apply answers_enter
  · intro phase changed
    exact allowsRetry_of_ne (by simp)
  · exact allowsRetry_of_ne (by simp)

theorem allowsRetry_advance : Answers (AllowsRetry snapshot input records) (advance snapshot) := by
  unfold advance
  simp only
  split_ifs with hbarrier hcancelled hactive hready hpending
  · exact allowsRetry_of_ne (by simp [stay])
  · exact allowsRetry_of_ne (by simp [stay])
  · exact allowsRetry_of_ne (by simp [stay])
  · apply answers_enter
    · intro phase changed
      exact allowsRetry_of_ne (by simp)
    · exact allowsRetry_of_ne (by simp)
  · exact allowsRetry_of_ne (by simp [stay])
  · exact allowsRetry_of_ne (by simp [stay])

theorem allowsRetry_evaluateSnapshot (snapshot : OrchestrationSnapshot) (input : EvaluateInput)
    (records : ItemRecords) :
    Answers (AllowsRetry snapshot input records) (evaluateSnapshot snapshot input records) := by
  unfold evaluateSnapshot
  simp only
  split_ifs with hterminal hcancelled hfailed hexhausted hstalled hrecovering
  · exact allowsRetry_of_ne (by simp [stay])
  · exact allowsRetry_of_ne (by simp [stay])
  · exact allowsRetry_recoverFailed
  · exact allowsRetry_of_ne (by simp [stay])
  · exact allowsRetry_recoverStalled
  · exact ⟨allowsRetry_of_ne (by simp), allowsRetry_of_ne (by simp)⟩
  · split
    · next answer hanswer =>
      intro hretry
      obtain ⟨hanswer', haction⟩ := retry_of_judgeAttempt rfl hanswer hretry
      refine ⟨hanswer', ?_, haction⟩
      simp only [Bool.not_eq_true] at hterminal hfailed hexhausted hstalled
      simp only [reachesCheck, hterminal, hfailed, hexhausted, hstalled]
      rfl
    · exact allowsRetry_advance

/-! ### Runs -/

def retries (order : ScanOrder) (runId item action : String) (e : Engine) : Call → Bool
  | .evaluate input version now =>
    decide (input.runId = runId) &&
      ((evaluateRun order e input version now).2.any fun result =>
        decide (result.reasonCode = .transientRetryAllowed) &&
          decide (result.currentWorkItemId = some item)) &&
      decide (judgedAction input (itemRecords order e.store version runId item) = some action)
  | _ => false

def stops (order : ScanOrder) (runId action : String) (e : Engine) : Call → Bool
  | .evaluate input version now =>
    decide (input.runId = runId) &&
      (evaluateRun order e input version now).2.any fun result =>
        decide (result.prohibitedActionFingerprint = some action) ||
          decide (result.strategyDecision = .block)
  | _ => false

def asksRetry (order : ScanOrder) (runId item action : String) (e : Engine) : Call → Bool
  | .evaluate input version _ =>
    let records := itemRecords order e.store version runId item
    decide (input.runId = runId) && (getSnapshot e.db runId).any fun snapshot =>
      decide (targetItemId snapshot = item) && reachesCheck snapshot records &&
        failedTransiently snapshot input records action
  | _ => false

/-- The listed attempts of the action that are stored as transient errors. -/
def storedCount (order : ScanOrder) (runId item action : String) (e : Engine) : Nat :=
  storedTransient (itemRecords order e.store 0 runId item) action

theorem evaluate_of_snapshot {db : Database} {records : String → ItemRecords}
    (h : getSnapshot db input.runId = some snapshot) :
    TransitionEngine.evaluate db input records =
      evaluateSnapshot snapshot input (records (targetItemId snapshot)) := by
  simp [TransitionEngine.evaluate, h]

/-- An evaluation that allows a retry writes nothing. -/
theorem evaluateRun_retry {order : ScanOrder} {e : Engine} {version now : Nat}
    (hsnapshot : getSnapshot e.db input.runId = some snapshot)
    (hreaches : reachesCheck snapshot (itemRecords order e.store version input.runId
      (targetItemId snapshot)) = true)
    (hfailed : failedTransiently snapshot input (itemRecords order e.store version input.runId
      (targetItemId snapshot)) action = true)
    (hcount : storedCount order input.runId (targetItemId snapshot) action e ≤ 2) :
    evaluateRun order e input version now = (e, some (retryAnswer snapshot).result) := by
  have hanswer := evaluateSnapshot_retry hreaches hfailed hcount
  simp only [evaluateRun]
  rw [evaluate_of_snapshot hsnapshot, hanswer]
  rfl

theorem retries_iff {order : ScanOrder} {runId item : String} {e : Engine} {call : Call} :
    retries order runId item action e call = true ↔
      asksRetry order runId item action e call = true ∧
        storedCount order runId item action e ≤ 2 := by
  cases call with
  | startAttempt input now => simp [retries, asksRetry]
  | finalizeAttempt input now => simp [retries, asksRetry]
  | surroundings surroundings => simp [retries, asksRetry]
  | evaluate input version now =>
    simp only [retries, asksRetry, Bool.and_eq_true, decide_eq_true_eq, Option.any_eq_true]
    constructor
    · intro h
      obtain ⟨⟨hrun, result, hresult, hreason, hitem⟩, hjudged⟩ := h
      obtain rfl := hrun
      simp only [evaluateRun] at hresult
      split at hresult
      · obtain rfl := Option.some.inj hresult
        cases hsnapshot : getSnapshot e.db input.runId with
        | none =>
          simp [TransitionEngine.evaluate, hsnapshot, VerificationEntry.perform] at hreason
        | some snapshot =>
          rw [evaluate_of_snapshot hsnapshot] at hreason hitem
          have hanswers := (allowsRetry_evaluateSnapshot snapshot input (itemRecords order e.store
            version input.runId (targetItemId snapshot))).perform e.db
          obtain ⟨hanswer, hreaches, other, hother, hfailed, hcount⟩ := hanswers hreason
          rw [hanswer] at hitem
          obtain rfl : targetItemId snapshot = item := Option.some.inj hitem
          obtain rfl : other = action := Option.some.inj (hother.symm.trans hjudged)
          exact ⟨⟨rfl, snapshot, rfl, ⟨rfl, hreaches⟩, hfailed⟩, hcount⟩
      · cases hresult
    · intro h
      obtain ⟨⟨hrun, snapshot, hsnapshot, ⟨htarget, hreaches⟩, hfailed⟩, hcount⟩ := h
      obtain rfl := hrun
      obtain rfl := htarget
      have hresult : (evaluateRun order e input version now).2 =
          some (retryAnswer snapshot).result := by
        rw [evaluateRun_retry hsnapshot hreaches hfailed hcount]
      have hjudged : judgedAction input (itemRecords order e.store version input.runId
          (targetItemId snapshot)) = some action := by
        unfold failedTransiently at hfailed
        unfold judgedAction
        split at hfailed
        · cases hfailed
        · next last hlast =>
          simp only [Bool.and_eq_true, decide_eq_true_eq] at hfailed
          rw [hlast, Option.map_some, hfailed.1.1.1.1.2]
      exact ⟨⟨rfl, _, hresult, rfl, rfl⟩, hjudged⟩

/-- How many retries a run of calls gives before the action is prohibited or something blocks. -/
def timesRetried (order : ScanOrder) (runId item action : String) : Engine → List Call → Nat
  | _, [] => 0
  | e, call :: rest =>
    if stops order runId action e call then 0
    else
      (if retries order runId item action e call then 1 else 0) +
        ((step order e call).map fun e' => timesRetried order runId item action e' rest).getD 0

/-- How many of the evaluations that ask for a retry, with two attempts stored as transient errors
at most, find no more of them stored than an earlier one: fewer than `least`, to begin with. -/
def timesUnbacked (order : ScanOrder) (runId item action : String) :
    Nat → Engine → List Call → Nat
  | _, _, [] => 0
  | least, e, call :: rest =>
    let stored := storedCount order runId item action e
    let rest' (least : Nat) : Nat := ((step order e call).map fun e' =>
      timesUnbacked order runId item action least e' rest).getD 0
    if stops order runId action e call then 0
    else if asksRetry order runId item action e call && decide (stored ≤ 2) then
      if stored < least then 1 + rest' least else rest' (stored + 1)
    else rest' least

section Bound

variable {order : ScanOrder} {runId item : String}

theorem timesUnbacked_cons (least : Nat) {e e' : Engine} {call : Call} (rest : List Call)
    (hstep : step order e call = some e')
    (hstops : ¬stops order runId action e call = true) :
    timesUnbacked order runId item action least e (call :: rest) =
      if retries order runId item action e call = true then
        if storedCount order runId item action e < least then
          1 + timesUnbacked order runId item action least e' rest
        else timesUnbacked order runId item action (storedCount order runId item action e + 1) e' rest
      else timesUnbacked order runId item action least e' rest := by
  have hretries : retries order runId item action e call = true ↔
      (asksRetry order runId item action e call &&
        decide (storedCount order runId item action e ≤ 2)) = true := by
    rw [retries_iff, Bool.and_eq_true, decide_eq_true_eq]
  simp only [timesUnbacked, hstep, Option.map_some, Option.getD_some, hstops, if_false, hretries,
    Bool.false_eq_true]

theorem timesRetried_cons {e e' : Engine} {call : Call} (rest : List Call)
    (hstep : step order e call = some e')
    (hstops : ¬stops order runId action e call = true) :
    timesRetried order runId item action e (call :: rest) =
      (if retries order runId item action e call = true then 1 else 0) +
        timesRetried order runId item action e' rest := by
  simp only [timesRetried, hstep, Option.map_some, Option.getD_some, hstops, if_false,
    Bool.false_eq_true]

/-- The evaluations that are backed by a newly stored attempt are three at most. -/
theorem timesRetried_le (least : Nat) (e : Engine) (calls : List Call) :
    timesRetried order runId item action e calls ≤
        timesUnbacked order runId item action least e calls + (3 - least) ∧
      timesUnbacked order runId item action least e calls ≤
        timesRetried order runId item action e calls := by
  induction calls generalizing least e with
  | nil => simp [timesRetried, timesUnbacked]
  | cons call rest ih =>
    obtain ⟨e', hstep⟩ := exists_step order e call
    by_cases hstops : stops order runId action e call = true
    · simp [timesRetried, timesUnbacked, hstops]
    · rw [timesRetried_cons rest hstep hstops, timesUnbacked_cons least rest hstep hstops]
      by_cases hretries : retries order runId item action e call = true
      · rw [if_pos hretries, if_pos hretries]
        have hcount : storedCount order runId item action e ≤ 2 := (retries_iff.mp hretries).2
        by_cases hleast : storedCount order runId item action e < least
        · have hrest := ih least e'
          rw [if_pos hleast]
          omega
        · have hrest := ih (storedCount order runId item action e + 1) e'
          rw [if_neg hleast]
          omega
      · have hrest := ih least e'
        rw [if_neg hretries, if_neg hretries]
        omega

/-- Whatever runs a caller makes, from whatever rows: the retries before an action is prohibited are
bounded over them just when the evaluations without a newly stored attempt behind them are. -/
theorem retries_bounded_iff (order : ScanOrder) (runId item action : String)
    (runs : Set (Engine × List Call)) :
    (∃ bound, ∀ r ∈ runs, timesRetried order runId item action r.1 r.2 ≤ bound) ↔
      ∃ bound, ∀ r ∈ runs, timesUnbacked order runId item action 0 r.1 r.2 ≤ bound := by
  constructor
  · intro ⟨bound, hbound⟩
    refine ⟨bound, ?_⟩
    intro r hr
    exact (timesRetried_le 0 r.1 r.2).2.trans (hbound r hr)
  · intro ⟨bound, hbound⟩
    refine ⟨bound + 3, ?_⟩
    intro r hr
    have hle : timesRetried order runId item action r.1 r.2 ≤
        timesUnbacked order runId item action 0 r.1 r.2 + 3 := (timesRetried_le 0 r.1 r.2).1
    have hone := hbound r hr
    omega

end Bound

/-! ### Failures that are not stored as transient errors -/

def failedOf (n : Nat) : FinalizeInput where
  runId := "r"
  assignmentId := "root:r"
  attemptNumber := n
  finishedAt := "t"
  progressProduced := false

def callOf (n : Nat) : StartInput := startOf "root:r" (toString n)

def failedRound (n : Nat) : List Call :=
  [.startAttempt (callOf n) n, .finalizeAttempt (failedOf n) n,
    .evaluate ⟨"r", none, some "timeout"⟩ 0 n]

def failedRounds : Nat → Nat → List Call
  | _, 0 => []
  | first, count + 1 => failedRound first ++ failedRounds (first + 1) count

def failedAttempt (n : Nat) : Attempt := (failedOf n).updated ((callOf n).record n)

/-- The first attempts have failed, and nothing else is stored. -/
structure FailedBefore (n : Nat) (e : Engine) : Prop where
  db : e.db = oneRun
  consistent : Consistent e.store
  rows : e.store.metadata.rows = (range n).map fun k => (failedAttempt (k + 1)).row (k + 1)
  calls : e.store.calls.rows = (range n).map fun k => (callOf (k + 1)).call (k + 1)

theorem foldl_max_le {attempts : List Attempt} {bound : Nat}
    (h : ∀ a ∈ attempts, a.attemptNumber ≤ bound) (m : Nat) (hm : m ≤ bound) :
    attempts.foldl (fun m a => max m a.attemptNumber) m ≤ bound := by
  induction attempts generalizing m with
  | nil => exact hm
  | cons first attempts ih =>
    rw [foldl_cons]
    apply ih
    · intro a ha
      exact h a (mem_cons_of_mem first ha)
    · have hfirst := h first mem_cons_self
      omega

theorem attemptRowId_inj {runId item : String} {n m : Nat}
    (h : attemptRowId runId item n = attemptRowId runId item m) : n = m := by
  have hlist := congrArg String.toList h
  simp only [attemptRowId, String.toList_append] at hlist
  exact Decimal.toString_inj (append_cancel_left hlist)

section Forever

variable {n : Nat} {e : Engine}

theorem FailedBefore.exists_row (h : FailedBefore n e) {row : MetadataRow}
    (hrow : row ∈ e.store.metadata.rows) :
    ∃ k < n, row = (failedAttempt (k + 1)).row (k + 1) := by
  rw [h.rows] at hrow
  obtain ⟨k, hk, heq⟩ := mem_map.mp hrow
  exact ⟨k, mem_range.mp hk, heq.symm⟩

theorem FailedBefore.listed (h : FailedBefore n e) (order : ScanOrder) {a : Attempt} :
    a ∈ listAttempts order e.store "r" "root:r" ↔ ∃ k < n, a = failedAttempt (k + 1) := by
  rw [mem_listAttempts]
  constructor
  · intro ⟨row, hmatch, hvalue⟩
    obtain ⟨hrow, -⟩ := (mem_matchingRows h.consistent).mp hmatch
    obtain ⟨k, hk, rfl⟩ := h.exists_row hrow
    exact ⟨k, hk, (MetadataValue.attempt.inj hvalue).symm⟩
  · intro ⟨k, hk, ha⟩
    subst ha
    have hrow : (failedAttempt (k + 1)).row (k + 1) ∈ e.store.metadata.rows := by
      rw [h.rows]
      exact mem_map.mpr ⟨k, mem_range.mpr hk, rfl⟩
    refine ⟨_, (mem_matchingRows h.consistent).mpr ⟨hrow, _, rfl, rfl, ?_⟩, rfl⟩
    exact clashes_self "r" "root:r"

theorem FailedBefore.next (h : FailedBefore n e) (order : ScanOrder) :
    nextAttemptNumber order e.store "r" "root:r" = n + 1 := by
  have hle : (listAttempts order e.store "r" "root:r").foldl
      (fun m a => max m a.attemptNumber) 0 ≤ n := by
    apply foldl_max_le
    · intro a ha
      obtain ⟨k, hk, rfl⟩ := (h.listed _).mp ha
      exact hk
    · exact Nat.zero_le n
  have hge : n < nextAttemptNumber order e.store "r" "root:r" := by
    rcases Nat.eq_zero_or_pos n with rfl | hpos
    · exact Nat.succ_pos _
    · have hlast : failedAttempt n ∈ listAttempts order e.store "r" "root:r" := by
        apply (h.listed _).mpr
        exact ⟨n - 1, by omega, by rw [Nat.sub_add_cancel hpos]⟩
      exact lt_nextAttemptNumber hlast
  have hnext : nextAttemptNumber order e.store "r" "root:r" ≤ n + 1 := Nat.succ_le_succ hle
  omega

theorem FailedBefore.creates (h : FailedBefore n e) (order : ScanOrder) : Creates order e (callOf (n + 1)) := by
  constructor
  · have hnone : e.store.calls.get? (toString (n + 1)) = none := by
      apply Table.get?_eq_none_iff.mpr
      intro call hcall heq
      rw [h.calls] at hcall
      obtain ⟨k, hk, rfl⟩ := mem_map.mp hcall
      have hsame : k + 1 = n + 1 := Decimal.toString_inj (congrArg String.toList heq)
      have hlt := mem_range.mp hk
      omega
    have hget : e.store.calls.get? (callOf (n + 1)).callID = none := hnone
    simp [startedByCall, hget]
  · rw [hasRun, h.db]
    rfl
  · intro row hrow heq
    obtain ⟨k, hk, rfl⟩ := h.exists_row hrow
    have hnext : nextAttemptNumber order e.store (callOf (n + 1)).runId
        (callOf (n + 1)).assignmentId = n + 1 := h.next order
    rw [hnext] at heq
    have hsame : k + 1 = n + 1 := attemptRowId_inj heq
    omega

/-- The next attempt is started under the next number. -/
theorem FailedBefore.start (h : FailedBefore n e) (order : ScanOrder) : ∃ e', step order e
    (.startAttempt (callOf (n + 1)) (n + 1)) = some e' ∧ e'.db = oneRun ∧
      Consistent e'.store ∧
      e'.store.metadata.rows =
        e.store.metadata.rows ++ [((callOf (n + 1)).record (n + 1)).row (n + 1)] ∧
      e'.store.calls.rows = e.store.calls.rows ++ [(callOf (n + 1)).call (n + 1)] := by
  have hcreates : Creates order e (callOf (n + 1)) := h.creates order
  obtain ⟨store, hreserve⟩ := hcreates.reserve (n + 1) h.consistent
  have hnext : nextAttemptNumber order e.store (callOf (n + 1)).runId
      (callOf (n + 1)).assignmentId = n + 1 := h.next order
  have hstart : startAttempt order (hasRun e (callOf (n + 1)).runId) e.store (callOf (n + 1))
      (n + 1) = some (store, (callOf (n + 1)).record (n + 1)) := by
    rw [hnext] at hreserve
    simp [startAttempt, hcreates.fresh, hcreates.run, hnext, hreserve]
  rw [hnext] at hreserve
  obtain ⟨-, hmetadata, hcalls, -⟩ := reserveAttempt_eq_some hreserve
  refine ⟨⟨e.db, store⟩, ?_, h.db, (h.consistent.reserve hreserve).1, ?_, ?_⟩
  · simp only [step, hstart, Option.map_some, Option.getD_some]
  · exact (Table.insert?_eq_some hmetadata).2
  · exact (Table.insert?_eq_some hcalls).2

theorem FailedBefore.finalize (h : FailedBefore n e) (order : ScanOrder) {e' : Engine} (hdb : e'.db = oneRun)
    (hstore : Consistent e'.store)
    (hrows : e'.store.metadata.rows =
      e.store.metadata.rows ++ [((callOf (n + 1)).record (n + 1)).row (n + 1)])
    (hcalls : e'.store.calls.rows = e.store.calls.rows ++ [(callOf (n + 1)).call (n + 1)]) :
    ∃ e'', step order e' (.finalizeAttempt (failedOf (n + 1)) (n + 1)) = some e'' ∧
      FailedBefore (n + 1) e'' := by
  let started : Attempt := (callOf (n + 1)).record (n + 1)
  have hmem : started.row (n + 1) ∈ e'.store.metadata.rows := by
    rw [hrows]
    exact mem_append_right _ (mem_singleton_self _)
  have hlisted : started ∈ listAttempts order e'.store "r" "root:r" := by
    apply mem_listAttempts.mpr
    refine ⟨_, (mem_matchingRows hstore).mpr ⟨hmem, started, rfl, rfl, ?_⟩, rfl⟩
    exact clashes_self "r" "root:r"
  have hfound : (listAttempts order e'.store "r" "root:r").find?
      (fun a => a.attemptNumber = n + 1) = some started := by
    cases hfind : (listAttempts order e'.store "r" "root:r").find?
        (fun a => a.attemptNumber = n + 1) with
    | none =>
      have hnot := find?_eq_none.mp hfind started hlisted
      exact absurd (decide_eq_true rfl) hnot
    | some a =>
      have hnumber : a.attemptNumber = n + 1 := by simpa using find?_some hfind
      obtain ⟨row, hmatch, hvalue⟩ := mem_listAttempts.mp (mem_of_find?_eq_some hfind)
      obtain ⟨hrow, -⟩ := (mem_matchingRows hstore).mp hmatch
      rw [hrows, mem_append, mem_singleton] at hrow
      rcases hrow with hrow | rfl
      · obtain ⟨k, hk, rfl⟩ := h.exists_row hrow
        obtain rfl := MetadataValue.attempt.inj hvalue
        have hsame : k + 1 = n + 1 := hnumber
        omega
      · exact congrArg some (MetadataValue.attempt.inj hvalue).symm
  have hget : e'.store.metadata.get? ((failedAttempt (n + 1)).row (n + 1)).place =
      some (started.row (n + 1)) := Table.get?_of_mem hmem
  let metadata := setValue e'.store.metadata ((failedAttempt (n + 1)).row (n + 1)).place
    (.attempt (failedAttempt (n + 1)))
  have hfinal : finalizeAttempt order e'.store (failedOf (n + 1)) (n + 1) =
      some ({ e'.store with metadata }, some (failedAttempt (n + 1))) := by
    have hfound' : (listAttempts order e'.store (failedOf (n + 1)).runId
        (failedOf (n + 1)).assignmentId).find?
          (fun a => a.attemptNumber = (failedOf (n + 1)).attemptNumber) = some started := hfound
    have hrecord : recordAttempt e'.store ((failedOf (n + 1)).updated started) (n + 1) =
        some { e'.store with metadata } := by
      have hget' : e'.store.metadata.get? (((failedOf (n + 1)).updated started).row
          (n + 1)).place = some (started.row (n + 1)) := hget
      simp only [recordAttempt, upsertRow, hget']
      rfl
    simp only [finalizeAttempt, hfound', hrecord]
    rfl
  have hmetadata : metadata.rows =
      e.store.metadata.rows ++ [(failedAttempt (n + 1)).row (n + 1)] := by
    have hset : metadata.rows = e'.store.metadata.rows.map (Table.setWhere
        (fun row => row.place = ((failedAttempt (n + 1)).row (n + 1)).place)
        fun row => { row with value := .attempt (failedAttempt (n + 1)) }) := rfl
    have hlast : Table.setWhere
        (fun row => row.place = ((failedAttempt (n + 1)).row (n + 1)).place)
        (fun row => { row with value := .attempt (failedAttempt (n + 1)) })
        (started.row (n + 1)) = (failedAttempt (n + 1)).row (n + 1) :=
      Table.setWhere_pos (decide_eq_true rfl)
    have hkept : ∀ row ∈ e.store.metadata.rows, Table.setWhere
        (fun row => row.place = ((failedAttempt (n + 1)).row (n + 1)).place)
        (fun row => { row with value := .attempt (failedAttempt (n + 1)) }) row = row := by
      intro row hrow
      obtain ⟨k, hk, rfl⟩ := h.exists_row hrow
      apply Table.setWhere_neg
      apply decide_eq_false
      intro heq
      have hsame : k + 1 = n + 1 := (attemptKey_inj (congrArg Prod.snd heq)).2
      omega
    rw [hset, hrows, map_append, map_congr_left hkept, map_id', map_singleton, hlast]
  refine ⟨⟨e'.db, { e'.store with metadata }⟩, ?_, hdb, (hstore.finalize hfinal).1, ?_, ?_⟩
  · simp only [step, hfinal, Option.map_some, Option.getD_some]
  · rw [range_succ, map_append, ← h.rows]
    exact hmetadata
  · rw [range_succ, map_append, ← h.calls]
    exact hcalls

theorem oneRun_snapshot : ∃ snapshot, getSnapshot oneRun "r" = some snapshot ∧
    targetItemId snapshot = "root:r" ∧ isTerminalPhase snapshot.phase = false ∧
      hasFailedRequired snapshot = false ∧ snapshot.progress.isStalled = false ∧
        snapshot.progress.lastRepositoryDelta = 0 := by
  have hany : ((getSnapshot oneRun "r").any fun snapshot =>
      decide (targetItemId snapshot = "root:r") && !isTerminalPhase snapshot.phase &&
        !hasFailedRequired snapshot && !snapshot.progress.isStalled &&
          decide (snapshot.progress.lastRepositoryDelta = 0)) = true := by decide +kernel
  rw [Option.any_eq_true] at hany
  obtain ⟨snapshot, hsnapshot, hall⟩ := hany
  simp only [Bool.and_eq_true, decide_eq_true_eq, Bool.not_eq_true'] at hall
  obtain ⟨⟨⟨⟨htarget, hphase⟩, hrequired⟩, hstalled⟩, hdelta⟩ := hall
  exact ⟨snapshot, hsnapshot, htarget, hphase, hrequired, hstalled, hdelta⟩

theorem FailedBefore.activeConstraint (h : FailedBefore n e) :
    getActiveStrategyConstraints e.store "r" "root:r" = none := by
  unfold getActiveStrategyConstraints
  cases hget : e.store.metadata.get? ("r", constraintKey "r" "root:r") with
  | none => rfl
  | some row =>
    obtain ⟨k, hk, rfl⟩ := h.exists_row (Table.mem_of_get? hget)
    rfl

/-- None of the attempts is stored as a transient error. -/
theorem FailedBefore.storedCount (h : FailedBefore n e) (order : ScanOrder) :
    storedCount order "r" "root:r" "f" e = 0 := by
  apply countP_eq_zero.mpr
  intro record hrecord
  obtain ⟨a, ha, rfl⟩ := mem_map.mp hrecord
  obtain ⟨k, hk, rfl⟩ := (h.listed _).mp ha
  simp [failedAttempt, FinalizeInput.updated, failedOf, StartInput.record, Attempt.toRecord]

theorem FailedBefore.getLast (h : FailedBefore n e) (order : ScanOrder) (hpos : 0 < n) :
    ∃ k < n, (itemRecords order e.store 0 "r" "root:r").attempts.getLast? =
      some (failedAttempt (k + 1)).toRecord := by
  have hone : failedAttempt 1 ∈ listAttempts order e.store "r" "root:r" :=
    (h.listed _).mpr ⟨0, hpos, rfl⟩
  obtain ⟨a, ha⟩ := Option.ne_none_iff_exists'.mp
    (mt getLast?_eq_none_iff.mp (ne_nil_of_mem hone))
  obtain ⟨k, hk, rfl⟩ := (h.listed _).mp (mem_of_getLast? ha)
  refine ⟨k, hk, ?_⟩
  have hrecords : (itemRecords order e.store 0 "r" "root:r").attempts =
      (listAttempts order e.store "r" "root:r").map (·.toRecord) := rfl
  rw [hrecords, getLast?_map, ha, Option.map_some]

/-- The evaluation allows a retry, and changes nothing. -/
theorem FailedBefore.evaluate (h : FailedBefore n e) (order : ScanOrder) (hpos : 0 < n) (now : Nat) :
    let call := Call.evaluate ⟨"r", none, some "timeout"⟩ 0 now
    retries order "r" "root:r" "f" e call = true ∧ stops order "r" "f" e call = false ∧
      step order e call = some e := by
  intro call
  obtain ⟨snapshot, hsnapshot, htarget, hphase, hrequired, hstalled, hdelta⟩ := oneRun_snapshot
  rw [← h.db] at hsnapshot
  have hreaches : reachesCheck snapshot (itemRecords order e.store 0 "r" "root:r") = true := by
    have hnone : (itemRecords order e.store 0 "r" "root:r").activeConstraint = none :=
      h.activeConstraint
    simp [reachesCheck, hphase, hrequired, hstalled, hnone]
  obtain ⟨k, hk, hlast⟩ := h.getLast order hpos
  have htimeout : isTransientError "timeout" = true := by decide +kernel
  have hfailed : failedTransiently snapshot ⟨"r", none, some "timeout"⟩
      (itemRecords order e.store 0 "r" "root:r") "f" = true := by
    simp [failedTransiently, hlast, hdelta, htimeout, failedAttempt, FinalizeInput.updated,
      failedOf, StartInput.record, Attempt.toRecord, callOf, startOf]
  have hcount : AttemptStore.storedCount order "r" "root:r" "f" e ≤ 2 := by
    rw [h.storedCount order]
    omega
  have hrun : evaluateRun order e ⟨"r", none, some "timeout"⟩ 0 now =
      (e, some (retryAnswer snapshot).result) := by
    apply evaluateRun_retry hsnapshot
    · rw [htarget]
      exact hreaches
    · rw [htarget]
      exact hfailed
    · rw [htarget]
      exact hcount
  refine ⟨?_, ?_, ?_⟩
  · apply retries_iff.mpr
    refine ⟨?_, hcount⟩
    simp [call, asksRetry, hsnapshot, htarget, hreaches, hfailed]
  · simp [call, stops, hrun, retryAnswer, stay]
  · simp [call, step, hrun]

theorem FailedBefore.timesRetried (h : FailedBefore n e) (order : ScanOrder) (count : Nat) :
    timesRetried order "r" "root:r" "f" e (failedRounds (n + 1) count) = count := by
  induction count generalizing n e with
  | zero => rfl
  | succ count ih =>
    obtain ⟨started, hstart, hdb, hstore, hrows, hcalls⟩ := h.start order
    obtain ⟨failed, hfinal, hfailed⟩ := h.finalize order hdb hstore hrows hcalls
    obtain ⟨hretries, hstops, hsame⟩ := hfailed.evaluate order (Nat.succ_pos n) (n + 1)
    have hrest := ih hfailed
    simp only [failedRounds, failedRound, cons_append, nil_append,
      AttemptStore.timesRetried, hstart, hfinal, hsame, hretries, hstops, Option.map_some,
      Option.getD_some, hrest]
    simp [stops, retries, Nat.add_comm]

end Forever

/-- Attempts of one action that keep failing on time-outs are allowed more retries than any bound. -/
theorem failures_retried_forever : ¬∃ bound, ∀ count, timesRetried (keyOrder false) "r" "root:r" "f"
    ⟨oneRun, emptyStore⟩ (failedRounds 1 count) ≤ bound := by
  intro ⟨bound, hbound⟩
  have hstart : FailedBefore 0 ⟨oneRun, emptyStore⟩ :=
    ⟨rfl, (Recorded.empty oneRun).consistent, rfl, rfl⟩
  have hmany := hstart.timesRetried (keyOrder false) (bound + 1)
  have hle := hbound (bound + 1)
  rw [hmany] at hle
  omega

end AttemptStore
