import FlowDeck.Orchestration.RunEffects

/-! How the transition engine moves a run: the state it enters `verifying` in, and the edges it
takes. -/

namespace VerificationEntry

open Orchestration RunStore Snapshot TransitionEngine RunEffects Machine Option
open ChildExecution (listAll isRequiredChild isActiveState isFailedChild cancelPending)

/-- A call of the engine runs to its end at once. -/
def perform (db : Database) : Evaluation → Database × Answer
  | .answer answer => (db, answer)
  | .swap input swapped conflict =>
    let result := transitionPhase db input false
    (result.1, if result.2 then swapped else conflict)

/-- The calls of the engine; between them the other services change what is theirs. -/
inductive Action
  | evaluate (input : EvaluateInput) (records : String → ItemRecords)
  | observeVerificationResult (input : ObserveInput)
  | surroundings (surroundings : Surroundings)

def step (digests : Digests) (db : Database) : Action → Option Database
  | .evaluate input records => some (perform db (evaluate db input records)).1
  | .observeVerificationResult input =>
    some (perform db (observeVerificationResult digests db input)).1
  | .surroundings surroundings => some { db with surroundings }

def isExhausted (snapshot : OrchestrationSnapshot) (records : ItemRecords) : Bool :=
  records.activeConstraint.any fun constraint => constraint.exhausted &&
    decide (constraint.stateFingerprint =
      computeStrategyStateFingerprint snapshot (targetItemId snapshot) records)

/-- What an evaluation has checked of its snapshot before it asks for `verifying`. -/
structure Eligible (snapshot : OrchestrationSnapshot) (records : ItemRecords) : Prop where
  ready : isReadyForVerification snapshot = true
  noCancellation : snapshot.cancellationPending = false
  noReplacement : snapshot.unresolvedDeferredReplacement = false
  notStalled : snapshot.progress.isStalled = false
  notExhausted : isExhausted snapshot records = false

/-- A swap from the snapshot's own phase and version to another phase. -/
structure Departs (snapshot : OrchestrationSnapshot) (input : TransitionPhaseInput) : Prop where
  runId : input.runId = snapshot.runId
  phase : input.expectedPhase = snapshot.phase
  version : input.expectedAggregateVersion = snapshot.aggregateVersion
  moves : input.targetPhase ≠ snapshot.phase

variable {snapshot : OrchestrationSnapshot} {swapped conflict : Answer}
  {input : TransitionPhaseInput} {db db' : Database} {row : TaskRunRow} {runId : String}
  {a : Action} {digests : Digests}

theorem swapTo_eq_swap {target : OrchestrationPhase} {answer : Answer} {item : Option String}
    {reason : String} (h : swapTo snapshot target answer item reason = .swap input swapped conflict)
    (hmoves : target ≠ snapshot.phase) : Departs snapshot input ∧ input.targetPhase = target := by
  simp only [swapTo, Evaluation.swap.injEq] at h
  obtain ⟨hinput, -, -⟩ := h
  rw [← hinput]
  exact ⟨⟨rfl, rfl, rfl, hmoves⟩, rfl⟩

theorem enter_eq_swap {allowed : Bool} {target : OrchestrationPhase}
    {answer : OrchestrationPhase → Bool → Answer} {item : Option String} {reason : String}
    (h : enter snapshot allowed target answer item reason = .swap input swapped conflict)
    (hmoves : allowed = true → target ≠ snapshot.phase) :
    Departs snapshot input ∧ input.targetPhase = target := by
  unfold enter at h
  split_ifs at h with hallowed
  exact swapTo_eq_swap h (hmoves (Bool.and_eq_true_iff.mp hallowed).1)

theorem recoverFailed_eq_swap (h : recoverFailed snapshot = .swap input swapped conflict) :
    Departs snapshot input ∧ input.targetPhase = .recovering := by
  simp only [recoverFailed] at h
  apply enter_eq_swap h
  intro hphase hsame
  rw [← hsame] at hphase
  cases hphase

theorem recoverStalled_eq_swap {evaluateInput : EvaluateInput} {records : ItemRecords}
    (h : recoverStalled snapshot evaluateInput records = .swap input swapped conflict) :
    Departs snapshot input ∧ input.targetPhase = .recovering := by
  simp only [recoverStalled] at h
  apply enter_eq_swap h
  intro hphase hsame
  exact of_decide_eq_true hphase hsame.symm

theorem leaveRecovery_eq_swap (hphase : snapshot.phase = .recovering)
    (h : leaveRecovery snapshot = .swap input swapped conflict) :
    Departs snapshot input ∧ input.targetPhase = .executing := by
  simp only [leaveRecovery] at h
  apply swapTo_eq_swap h
  rw [hphase]
  decide

theorem advance_eq_swap (h : advance snapshot = .swap input swapped conflict) :
    (Departs snapshot input ∧ input.targetPhase = .verifying) ∧
      isReadyForVerification snapshot = true ∧ snapshot.cancellationPending = false ∧
      snapshot.unresolvedDeferredReplacement = false := by
  simp only [advance] at h
  split_ifs at h with hblocked hactive hready hpending
  · obtain ⟨hcancellation, hreplacement⟩ := Bool.or_eq_false_iff.mp (Bool.eq_false_iff.mpr hblocked)
    refine ⟨enter_eq_swap h ?_, hready, hcancellation, hreplacement⟩
    intro hphase hsame
    exact of_decide_eq_true hphase hsame.symm

/-- Every swap an evaluation asks for leaves the snapshot's phase, and one to `verifying` only from
an eligible snapshot. -/
theorem evaluateSnapshot_eq_swap {evaluateInput : EvaluateInput} {records : ItemRecords}
    (h : evaluateSnapshot snapshot evaluateInput records = .swap input swapped conflict) :
    Departs snapshot input ∧ (input.targetPhase = .verifying → Eligible snapshot records) := by
  have hother : ∀ {phase : OrchestrationPhase}, phase ≠ .verifying → input.targetPhase = phase →
      input.targetPhase = .verifying → Eligible snapshot records := by
    intro phase hphase htarget hverifying
    exact absurd (htarget.symm.trans hverifying) hphase
  unfold evaluateSnapshot at h
  split_ifs at h with hterminal hfailed hexhausted hstalled
  · obtain ⟨hdeparts, htarget⟩ := recoverFailed_eq_swap h
    exact ⟨hdeparts, hother (by decide) htarget⟩
  · obtain ⟨hdeparts, htarget⟩ := recoverStalled_eq_swap h
    exact ⟨hdeparts, hother (by decide) htarget⟩
  · simp only at h
    split_ifs at h with hrecovering
    · have hphase : snapshot.phase = .recovering :=
        of_decide_eq_true (Bool.and_eq_true_iff.mp hrecovering).1
      obtain ⟨hdeparts, htarget⟩ := leaveRecovery_eq_swap hphase h
      exact ⟨hdeparts, hother (by decide) htarget⟩
    · split at h
      · cases h
      · obtain ⟨⟨hdeparts, -⟩, hready, hcancellation, hreplacement⟩ := advance_eq_swap h
        refine ⟨hdeparts, fun _ => ⟨hready, hcancellation, hreplacement, ?_, ?_⟩⟩
        · exact Bool.eq_false_iff.mpr hstalled
        · exact Bool.eq_false_iff.mpr hexhausted

/-- The state of a run, over the tables: every required item satisfied, and nothing in the way. -/
structure ReadyToVerify (db : Database) (runId : String) (records : String → ItemRecords) :
    Prop where
  required : ∃ row ∈ db.surroundings.assignments.rows, row.runId = runId ∧ row.isRequired = true
  satisfied : ∀ row ∈ db.surroundings.assignments.rows, row.runId = runId → row.isRequired = true →
    (workItem row).isSatisfied = true
  children : ∀ record ∈ listAll (childDatabase db) (some runId),
    isRequiredChild (childDatabase db) record = true →
      isActiveState record.status = false ∧ isFailedChild record = false
  noCancellation : ∀ record ∈ listAll (childDatabase db) (some runId), cancelPending record = false
  noReplacement : ∀ row ∈ db.surroundings.deferredReplacements, row.oldRunId = runId →
    row.status ∉ unresolvedStatuses
  notStalled : (db.surroundings.progress runId).isStalled = false
  notExhausted : ∀ snapshot, getSnapshot db runId = some snapshot →
    isExhausted snapshot (records (targetItemId snapshot)) = false

theorem countP_filter_eq_zero {α : Type} {p q : α → Bool} {xs : List α}
    (h : (xs.filter p).countP q = 0) : ∀ x ∈ xs, p x = true → q x = false := by
  intro x hx hp
  have hnot := List.countP_eq_zero.mp h x (List.mem_filter.mpr ⟨hx, hp⟩)
  exact Bool.eq_false_iff.mpr hnot

theorem Eligible.readyToVerify {records : String → ItemRecords}
    (hrow : db.taskRuns.get? row.runId = some row)
    (h : Eligible (snapshotOf db row) (records (targetItemId (snapshotOf db row)))) :
    ReadyToVerify db row.runId records := by
  have hready := h.ready
  simp only [isReadyForVerification, Bool.and_eq_true, decide_eq_true_eq] at hready
  obtain ⟨⟨⟨hsome, hall⟩, hactive⟩, hfailed⟩ := hready
  have hitems : ∀ assignment ∈ db.surroundings.assignments.rows, assignment.runId = row.runId →
      workItem assignment ∈ (snapshotOf db row).workItems := by
    intro assignment hmem hrun
    exact List.mem_map.mpr ⟨assignment, List.mem_filter.mpr ⟨hmem, by simpa using hrun⟩, rfl⟩
  have hcancelled : ¬0 < ((listAll (childDatabase db) (some row.runId)).countP cancelPending) :=
    of_decide_eq_false h.noCancellation
  constructor
  · obtain ⟨item, hitem⟩ := List.exists_mem_of_length_pos hsome
    obtain ⟨hmem, hrequired⟩ := List.mem_filter.mp hitem
    obtain ⟨assignment, hassignment, heq⟩ := List.mem_map.mp hmem
    obtain ⟨hin, hrun⟩ := List.mem_filter.mp hassignment
    rw [← heq] at hrequired
    exact ⟨assignment, hin, of_decide_eq_true hrun, hrequired⟩
  · intro assignment hmem hrun hrequired
    have hitem : workItem assignment ∈ (snapshotOf db row).workItems.filter (·.isRequired) :=
      List.mem_filter.mpr ⟨hitems assignment hmem hrun, hrequired⟩
    exact List.all_eq_true.mp hall _ hitem
  · intro record hmem hrequired
    exact ⟨countP_filter_eq_zero hactive record hmem hrequired,
      countP_filter_eq_zero hfailed record hmem hrequired⟩
  · intro record hmem
    have hnone : ¬cancelPending record = true := by
      intro hpending
      exact hcancelled (List.countP_pos_iff.mpr ⟨record, hmem, hpending⟩)
    exact Bool.eq_false_iff.mpr hnone
  · intro replacement hmem hrun hstatus
    have hany := h.noReplacement
    simp only [snapshotOf, unresolvedDeferredReplacement, List.any_eq_false, Bool.and_eq_true,
      decide_eq_true_eq, not_and] at hany
    exact hany replacement hmem hrun hstatus
  · exact h.notStalled
  · intro snapshot hsnapshot
    have hsame : getSnapshot db row.runId = some (snapshotOf db row) := by
      simp [getSnapshot, hrow]
    rw [hsame] at hsnapshot
    rw [← some.inj hsnapshot]
    exact h.notExhausted

/-- What one call does to a run: nothing, or one edge of the table and one version. A run gets to
`verifying` only by an evaluation that finds it ready. -/
structure PhaseLaw (db : Database) (a : Action) (db' : Database) : Prop where
  edge : ∀ runId row row', db.taskRuns.get? runId = some row → db'.taskRuns.get? runId = some row' →
    row' = row ∨ row'.state ∈ legalPhaseTransitions row.state ∧
      row'.aggregateVersion = row.aggregateVersion + 1
  verifying : ∀ runId row row', db.taskRuns.get? runId = some row →
    db'.taskRuns.get? runId = some row' → row.state ≠ .verifying → row'.state = .verifying →
    ∃ input records, a = .evaluate input records ∧ ReadyToVerify db runId records

theorem legal_of_mayTransition (h : mayTransition input false = true)
    (hmoves : input.targetPhase ≠ input.expectedPhase) :
    input.targetPhase ∈ legalPhaseTransitions input.expectedPhase := by
  have hvalid := (Bool.and_eq_true_iff.mp h).2
  unfold isValidPhaseTransition at hvalid
  rw [if_neg hmoves.symm] at hvalid
  split_ifs at hvalid with hterminal
  exact of_decide_eq_true hvalid

/-- A swap that departs from a run's snapshot touches that run alone. -/
theorem transitionPhase_get?_cases {row' : TaskRunRow} (hrow : db.taskRuns.get? runId = some row)
    (hrow' : (transitionPhase db input false).1.taskRuns.get? runId = some row') :
    row' = row ∨ row' = input.cas.apply row ∧ mayTransition input false = true ∧
      input.cas.matches row = true := by
  rw [transitionPhase_get?, hrow] at hrow'
  simp only [map_some, some.injEq] at hrow'
  by_cases hswap : (mayTransition input false && input.cas.matches row) = true
  · rw [if_pos hswap] at hrow'
    obtain ⟨hmay, hmatches⟩ := Bool.and_eq_true_iff.mp hswap
    exact Or.inr ⟨hrow'.symm, hmay, hmatches⟩
  · rw [if_neg hswap] at hrow'
    exact Or.inl hrow'.symm

def Lawful (db : Database) (a : Action) (evaluation : Evaluation) : Prop :=
  ∀ input swapped conflict, evaluation = .swap input swapped conflict →
    input.targetPhase ≠ input.expectedPhase ∧
      (input.targetPhase = .verifying →
        ∃ evaluated records, a = .evaluate evaluated records ∧ ReadyToVerify db input.runId records)

theorem phaseLaw_of_lawful {evaluation : Evaluation} (h : Lawful db a evaluation) :
    PhaseLaw db a (perform db evaluation).1 := by
  cases evaluation with
  | answer answer =>
    constructor
    · intro runId row row' hrow hrow'
      exact Or.inl (some.inj (hrow'.symm.trans hrow))
    · intro runId row row' hrow hrow' hbefore hafter
      have hsame : row' = row := some.inj (hrow'.symm.trans hrow)
      rw [hsame] at hafter
      exact absurd hafter hbefore
  | swap input swapped conflict =>
    obtain ⟨hmoves, hready⟩ := h input swapped conflict rfl
    constructor
    · intro runId row row' hrow hrow'
      rcases transitionPhase_get?_cases hrow hrow' with hsame | ⟨happly, hmay, hmatches⟩
      · exact Or.inl hsame
      · obtain ⟨-, hphase, -⟩ := matches_iff.mp hmatches
        have hedge := legal_of_mayTransition hmay hmoves
        right
        rw [happly, hphase]
        exact ⟨hedge, rfl⟩
    · intro runId row row' hrow hrow' hbefore hafter
      rcases transitionPhase_get?_cases hrow hrow' with hsame | ⟨happly, -, hmatches⟩
      · rw [hsame] at hafter
        exact absurd hafter hbefore
      · obtain ⟨hrun, -, -⟩ := matches_iff.mp hmatches
        rw [happly] at hafter
        have hid : row.runId = runId := Table.key_of_get? hrow
        rw [← hid, hrun]
        exact hready hafter

theorem evaluate_lawful (db : Database) (input : EvaluateInput) (records : String → ItemRecords) :
    Lawful db (.evaluate input records) (evaluate db input records) := by
  intro swap swapped conflict h
  unfold TransitionEngine.evaluate at h
  cases hsnapshot : getSnapshot db input.runId with
  | none =>
    rw [hsnapshot] at h
    cases h
  | some snapshot =>
    simp only [hsnapshot] at h
    obtain ⟨row, hrow, hof⟩ := map_eq_some_iff.mp hsnapshot
    obtain ⟨hdeparts, heligible⟩ := evaluateSnapshot_eq_swap h
    refine ⟨?_, ?_⟩
    · rw [hdeparts.phase]
      exact hdeparts.moves
    · intro hverifying
      refine ⟨input, records, rfl, ?_⟩
      have hid : row.runId = input.runId := Table.key_of_get? hrow
      have hready := heligible hverifying
      rw [← hof] at hready
      rw [hdeparts.runId, ← hof]
      rw [← hid] at hrow
      exact hready.readyToVerify hrow

theorem observeVerificationResult_lawful (digests : Digests) (db : Database)
    (input : ObserveInput) : Lawful db (.observeVerificationResult input)
      (observeVerificationResult digests db input) := by
  intro swap swapped conflict h
  simp only [observeVerificationResult] at h
  split at h
  · cases h
  · split_ifs at h
    simp only [Evaluation.swap.injEq] at h
    rw [← h.1]
    constructor
    · intro hsame
      cases hsame
    · intro hverifying
      cases hverifying

theorem step_phaseLaw (h : step digests db a = some db') : PhaseLaw db a db' := by
  cases a with
  | evaluate input records =>
    rw [← some.inj h]
    exact phaseLaw_of_lawful (evaluate_lawful db input records)
  | observeVerificationResult input =>
    rw [← some.inj h]
    exact phaseLaw_of_lawful (observeVerificationResult_lawful digests db input)
  | surroundings surroundings =>
    rw [← some.inj h]
    constructor
    · intro runId row row' hrow hrow'
      exact Or.inl (some.inj (hrow'.symm.trans hrow))
    · intro runId row row' hrow hrow' hbefore hafter
      have hsame : row' = row := some.inj (hrow'.symm.trans hrow)
      rw [hsame] at hafter
      exact absurd hafter hbefore

/-- A way from one phase to another along `n` edges of the table. -/
inductive Walk : OrchestrationPhase → Nat → OrchestrationPhase → Prop
  | nil (phase : OrchestrationPhase) : Walk phase 0 phase
  | edge {source next target : OrchestrationPhase} {n : Nat} :
      next ∈ legalPhaseTransitions source → Walk next n target → Walk source (n + 1) target

theorem perform_get? {evaluation : Evaluation} (h : db.taskRuns.get? runId = some row) :
    ∃ row', (perform db evaluation).1.taskRuns.get? runId = some row' := by
  cases evaluation with
  | answer answer => exact ⟨row, h⟩
  | swap input swapped conflict =>
    simp only [perform, transitionPhase_get?, h, map_some]
    exact ⟨_, rfl⟩

theorem step_get? (h : step digests db a = some db') (hrow : db.taskRuns.get? runId = some row) :
    ∃ row', db'.taskRuns.get? runId = some row' := by
  cases a with
  | evaluate input records =>
    rw [← some.inj h]
    exact perform_get? hrow
  | observeVerificationResult input =>
    rw [← some.inj h]
    exact perform_get? hrow
  | surroundings surroundings =>
    rw [← some.inj h]
    exact ⟨row, hrow⟩

/-- Over a sequence of calls a run walks along the table, one version an edge. -/
theorem run_walk {as : List Action} (h : run (step digests) db as = some db') {runId : String}
    {row : TaskRunRow} (hrow : db.taskRuns.get? runId = some row) :
    ∃ row' n, db'.taskRuns.get? runId = some row' ∧ Walk row.state n row'.state ∧
      row'.aggregateVersion = row.aggregateVersion + n := by
  induction as generalizing db row with
  | nil =>
    rw [← some.inj h]
    exact ⟨row, 0, hrow, .nil row.state, rfl⟩
  | cons a as ih =>
    obtain ⟨next, hstep, hrest⟩ := run_cons_eq_some.mp h
    obtain ⟨middle, hmiddle⟩ := step_get? hstep hrow
    obtain ⟨row', n, hrow', hwalk, hversion⟩ := ih hrest hmiddle
    rcases (step_phaseLaw hstep).edge runId row middle hrow hmiddle with hsame | ⟨hedge, hraised⟩
    · rw [hsame] at hwalk hversion
      exact ⟨row', n, hrow', hwalk, hversion⟩
    · refine ⟨row', n + 1, hrow', .edge hedge hwalk, ?_⟩
      omega

/-- In every sequence of calls, from any database: each call keeps the law of the phases, and each
run ends where its edges lead, one version an edge. -/
theorem phases_lawful (digests : Digests) (db : Database) (as : List Action) :
    Along (step digests) (fun s a => ∀ t, step digests s a = some t → PhaseLaw s a t) db as ∧
      ∀ db' runId row, run (step digests) db as = some db' → db.taskRuns.get? runId = some row →
        ∃ row' n, db'.taskRuns.get? runId = some row' ∧ Walk row.state n row'.state ∧
          row'.aggregateVersion = row.aggregateVersion + n :=
  ⟨Along.of_forall fun _ _ _ => step_phaseLaw, fun _ _ _ h => run_walk h⟩

end VerificationEntry
