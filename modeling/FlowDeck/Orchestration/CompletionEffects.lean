import FlowDeck.Orchestration.RunEffects

namespace CompletionEffects

open Orchestration RunStore Snapshot TransitionEngine CompletionPolicy RunService RunEffects Table
open Option

@[simp] theorem blocker_eq_nil {applies : Bool} {reason : String} :
    blocker applies reason = [] ↔ applies = false := by
  cases applies <;> simp [blocker]

/-- A snapshot that blocks no completion. -/
structure Unblocked (snapshot : OrchestrationSnapshot) : Prop where
  verifying : snapshot.phase = .verifying
  hasRequired : ∃ item ∈ snapshot.workItems, item.isRequired = true
  satisfied : ∀ item ∈ snapshot.workItems, item.isRequired = true → item.isSatisfied = true
  noActiveRequired : snapshot.childState.activeRequired = 0
  noFailedRequired : snapshot.childState.failedRequired = 0
  noCancellation : snapshot.cancellationPending = false
  noReplacement : snapshot.unresolvedDeferredReplacement = false
  notStalled : snapshot.progress.isStalled = false

theorem collectSnapshotBlockers_eq_nil {snapshot : OrchestrationSnapshot}
    (h : collectSnapshotBlockers snapshot = []) : Unblocked snapshot := by
  simp only [collectSnapshotBlockers, List.append_eq_nil_iff, blocker_eq_nil, Bool.or_eq_false_iff,
    decide_eq_false_iff_not, Nat.not_lt, Nat.le_zero] at h
  obtain ⟨⟨⟨⟨⟨⟨⟨⟨hphase, -⟩, hrequired⟩, hsatisfied⟩, hactive⟩, hfailed⟩, hcancel⟩, hreplacement⟩,
    hstalled⟩ := h
  refine ⟨?_, ?_, ?_, hactive, hfailed, hcancel.2, hreplacement, hstalled⟩
  · simpa using hphase
  · have hne : snapshot.workItems.filter (·.isRequired) ≠ [] := by
      intro hempty
      rw [hempty] at hrequired
      cases hrequired
    obtain ⟨item, hitem⟩ := List.exists_mem_of_ne_nil _ hne
    obtain ⟨hmem, hreq⟩ := List.mem_filter.mp hitem
    exact ⟨item, hmem, hreq⟩
  · intro item hmem hreq
    have hnot := List.any_eq_false.mp hsatisfied item (List.mem_filter.mpr ⟨hmem, hreq⟩)
    simpa using hnot

/-- A verification row that gives authority: of this run, live, passed, current and evidenced. -/
structure Authoritative (row : VerificationRow) (runId : String) : Prop where
  sameRun : row.runId = runId
  live : row.verificationType = liveCheckType
  passed : row.status = "passed"
  notStale : row.isStale = 0
  version : isStateVersion row.stateVersion = true
  fingerprint : row.stateFingerprint.any isFingerprint = true
  targetSha : isSha row.targetSha = true
  evidenced : (parseRequiredStringArray row.evidence "EVIDENCE_JSON").1 ≠ []
  noFailures : (parseRequiredStringArray row.failureReasons "FAILURE_REASONS").1 = []

theorem verificationBlockers_eq_nil {row : VerificationRow} {runId : String}
    (h : verificationBlockers row runId = []) : Authoritative row runId := by
  simp only [verificationBlockers, List.append_eq_nil_iff, blocker_eq_nil, Bool.not_eq_false'] at h
  obtain ⟨⟨⟨⟨⟨⟨⟨⟨⟨⟨-, -⟩, hrun⟩, htype⟩, hstatus⟩, hversion⟩, hfingerprint⟩, hsha⟩, hstale⟩,
    hevidence⟩, hfailures⟩ := h
  refine ⟨by simpa using hrun, by simpa using htype, ?_, ?_, hversion, hfingerprint, hsha, ?_, ?_⟩
  · unfold statusBlockers at hstatus
    split_ifs at hstatus
    simpa using hstatus
  · unfold staleBlockers at hstale
    split_ifs at hstale with hflag
    have hone : row.isStale ≠ 1 := by simpa using hstale
    by_contra hzero
    exact hflag ⟨hzero, hone⟩
  · intro hempty
    rw [hempty] at hevidence
    cases hevidence
  · simpa using hfailures

/-- What a justification rests on. -/
structure Justified (digests : Digests) (db : Database) (input : EvaluateCompletionPolicyInput)
    (snapshot : OrchestrationSnapshot) (just : Justification) : Prop where
  snapshot_eq : just.snapshot = snapshot
  unblocked : Unblocked snapshot
  fingerprint_eq : computeStateFingerprint digests db input.runId = some just.fingerprint
  authority : ∃ row, db.surroundings.verifications.get? input.verificationId = some row ∧
    Authoritative row input.runId ∧ just.verification = authorityOf row
  version : just.verification.stateVersion = snapshot.aggregateVersion
  current : just.verification.stateFingerprint = just.fingerprint

variable {db db' : Database} {digests : Digests} {input : EvaluateCompletionPolicyInput}
  {just : Justification} {now : Nat} {row : TaskRunRow} {reviewId : RecordId}
  {result : CompletionPolicyResult}

theorem loadAndValidate_eq_ok {verificationId runId : String}
    {verification : LiveVerificationAuthority}
    (h : loadAndValidateLiveVerification db verificationId runId = .ok verification) :
    ∃ row, db.surroundings.verifications.get? verificationId = some row ∧
      Authoritative row runId ∧ verification = authorityOf row := by
  unfold loadAndValidateLiveVerification at h
  cases hrow : db.surroundings.verifications.get? verificationId with
  | none =>
    rw [hrow] at h
    cases h
  | some row =>
    simp only [hrow] at h
    cases hblockers : verificationBlockers row runId with
    | nil =>
      rw [hblockers] at h
      exact ⟨row, rfl, verificationBlockers_eq_nil hblockers, (Except.ok.inj h).symm⟩
    | cons reason reasons =>
      rw [hblockers] at h
      cases h

theorem judge_eq_ok {snapshot : OrchestrationSnapshot}
    (h : judge digests db input snapshot = .ok just) :
    Justified digests db input snapshot just := by
  unfold judge at h
  cases hload : loadAndValidateLiveVerification db input.verificationId input.runId with
  | error reasons =>
    rw [hload] at h
    cases h
  | ok verification =>
    simp only [hload] at h
    cases hfingerprint : ChildExecution.present (computeStateFingerprint digests db input.runId) with
    | none =>
      rw [hfingerprint] at h
      cases h
    | some fingerprint =>
      simp only [hfingerprint] at h
      split at h
      · rename_i hnil
        obtain rfl := Except.ok.inj h
        obtain ⟨hrest, hcurrency⟩ := List.append_eq_nil_iff.mp hnil
        obtain ⟨hblockers, -⟩ := List.append_eq_nil_iff.mp hrest
        simp only [currencyBlockers, List.append_eq_nil_iff, blocker_eq_nil,
          decide_eq_false_iff_not, ne_eq, Decidable.not_not] at hcurrency
        have hcomputed : computeStateFingerprint digests db input.runId = some fingerprint :=
          (filter_eq_some_iff.mp hfingerprint).1
        exact ⟨rfl, collectSnapshotBlockers_eq_nil hblockers, hcomputed,
          loadAndValidate_eq_ok hload, hcurrency.1, hcurrency.2⟩
      · cases h

def completedRow (just : Justification) (now : Nat) (row : TaskRunRow) : TaskRunRow :=
  if row.runId = just.snapshot.runId then setCompletedAt now (just.swap.cas.apply row) else row

theorem insertEventOrIgnore_cases (db : Database) (event : EventRow) :
    ((∀ row ∈ db.events, conflicts event row = false) ∧
      insertEventOrIgnore db event = { db with events := db.events ++ [event] }) ∨
    ((∃ row ∈ db.events, conflicts event row = true) ∧ insertEventOrIgnore db event = db) := by
  unfold insertEventOrIgnore
  cases hinsert : insertEvent? db event with
  | some db' =>
    obtain ⟨hfree, rfl⟩ := insertEvent?_eq_some.mp hinsert
    exact Or.inl ⟨hfree, rfl⟩
  | none =>
    right
    refine ⟨?_, rfl⟩
    unfold insertEvent? at hinsert
    split_ifs at hinsert with hany
    exact List.any_eq_true.mp hany

/-- The outbox entry is stored, or its key is taken; without its event it is neither. -/
theorem insertOutboxOrIgnore?_eq_some {entry : OutboxRow}
    (h : insertOutboxOrIgnore? db entry = some db') :
    ((∀ row ∈ db.outbox, outboxConflicts entry row = false) ∧ referencesEvent db entry = true ∧
      db' = { db with outbox := db.outbox ++ [entry] }) ∨
    ((∃ row ∈ db.outbox, outboxConflicts entry row = true) ∧ db' = db) := by
  unfold insertOutboxOrIgnore? at h
  split_ifs at h with hany href
  · exact Or.inr ⟨List.any_eq_true.mp hany, (some.inj h).symm⟩
  · left
    refine ⟨?_, href, (some.inj h).symm⟩
    intro row hrow
    exact Bool.eq_false_iff.mpr fun hconflict => hany (List.any_eq_true.mpr ⟨row, hrow, hconflict⟩)

@[simp] theorem insertDecisionOrIgnore_taskRuns (db : Database) (row : CompletionDecisionRow) :
    (insertDecisionOrIgnore db row).taskRuns = db.taskRuns := by
  unfold insertDecisionOrIgnore
  split_ifs <;> rfl

@[simp] theorem insertDecisionOrIgnore_events (db : Database) (row : CompletionDecisionRow) :
    (insertDecisionOrIgnore db row).events = db.events := by
  unfold insertDecisionOrIgnore
  split_ifs <;> rfl

@[simp] theorem insertDecisionOrIgnore_outbox (db : Database) (row : CompletionDecisionRow) :
    (insertDecisionOrIgnore db row).outbox = db.outbox := by
  unfold insertDecisionOrIgnore
  split_ifs <;> rfl

@[simp] theorem insertDecisionOrIgnore_reviews (db : Database) (row : CompletionDecisionRow) :
    (insertDecisionOrIgnore db row).reviews = db.reviews := by
  unfold insertDecisionOrIgnore
  split_ifs <;> rfl

@[simp] theorem insertDecisionOrIgnore_surroundings (db : Database) (row : CompletionDecisionRow) :
    (insertDecisionOrIgnore db row).surroundings = db.surroundings := by
  unfold insertDecisionOrIgnore
  split_ifs <;> rfl

def completeReview (digests : Digests) (just : Justification) (now : Nat) (review : ReviewRow) :
    ReviewRow :=
  setReviewCompleted (.completionEvent (digests.digest just.key)) just.decision now review

/-- What the writes after the swap did, once they succeeded. -/
structure Written (digests : Digests) (db db' : Database) (just : Justification) (now : Nat) :
    Prop where
  taskRuns : ∀ runId, db'.taskRuns.get? runId = (db.taskRuns.get? runId).map fun row =>
    if row.runId = just.snapshot.runId ∧ row.state = .completed ∧
        row.aggregateVersion = just.snapshot.aggregateVersion + 1 then setCompletedAt now row
    else row
  reviews : ∀ key, db'.reviews.get? key = (db.reviews.get? key).map fun review =>
    if review.completionKey = just.key ∧ review.status = .running then
      completeReview digests just now review
    else review
  events : ((∀ row ∈ db.events, conflicts (completionEvent digests just now) row = false) ∧
      db'.events = db.events ++ [completionEvent digests just now]) ∨
    ((∃ row ∈ db.events, conflicts (completionEvent digests just now) row = true) ∧
      db'.events = db.events)
  outbox : ((∀ row ∈ db.outbox, outboxConflicts (completionEntry digests just) row = false) ∧
      (∃ event ∈ db'.events, event.eventId = .completionEvent (digests.digest just.key)) ∧
      db'.outbox = db.outbox ++ [completionEntry digests just]) ∨
    ((∃ row ∈ db.outbox, outboxConflicts (completionEntry digests just) row = true) ∧
      db'.outbox = db.outbox)
  surroundings : db'.surroundings = db.surroundings

theorem completionWrites_eq_ok (h : completionWrites digests db just now = .ok db') :
    Written digests db db' just now := by
  unfold completionWrites at h
  extract_lets isCompleted taskRuns reviews db₁ db₂ at h
  have htaskRuns : ∀ runId, taskRuns.get? runId = (db.taskRuns.get? runId).map fun row =>
      if row.runId = just.snapshot.runId ∧ row.state = .completed ∧
          row.aggregateVersion = just.snapshot.aggregateVersion + 1 then setCompletedAt now row
      else row := by
    intro runId
    simp only [taskRuns]
    rw [get?_update]
    congr 1
    funext row
    simp [setWhere, isCompleted, and_assoc]
  have hreviews : ∀ key, reviews.get? key = (db.reviews.get? key).map fun review =>
      if review.completionKey = just.key ∧ review.status = .running then
        completeReview digests just now review
      else review := by
    intro key
    simp only [reviews]
    rw [get?_update]
    congr 1
    funext review
    simp [setWhere, isRunningReview, completeReview]
  cases hentry : insertOutboxOrIgnore? db₂ (completionEntry digests just) with
  | none =>
    rw [hentry] at h
    cases h
  | some db₃ =>
    rw [hentry] at h
    obtain rfl := Except.ok.inj h
    have hdb₁ : db₁.taskRuns = taskRuns ∧ db₁.reviews = reviews ∧ db₁.events = db.events ∧
        db₁.outbox = db.outbox ∧ db₁.surroundings = db.surroundings := by
      simp [db₁]
    obtain ⟨hruns₁, hreviews₁, hevents₁, houtbox₁, hsurroundings₁⟩ := hdb₁
    have hevent := insertEventOrIgnore_cases db₁ (completionEvent digests just now)
    have hdb₂ : db₂.taskRuns = taskRuns ∧ db₂.reviews = reviews ∧ db₂.outbox = db.outbox ∧
        db₂.surroundings = db.surroundings := by
      rcases hevent with ⟨-, heq⟩ | ⟨-, heq⟩
      · simp only [db₂, heq]
        exact ⟨hruns₁, hreviews₁, houtbox₁, hsurroundings₁⟩
      · simp only [db₂, heq]
        exact ⟨hruns₁, hreviews₁, houtbox₁, hsurroundings₁⟩
    obtain ⟨hruns₂, hreviews₂, houtbox₂, hsurroundings₂⟩ := hdb₂
    have hevents₂ : ((∀ row ∈ db.events, conflicts (completionEvent digests just now) row = false) ∧
        db₂.events = db.events ++ [completionEvent digests just now]) ∨
        ((∃ row ∈ db.events, conflicts (completionEvent digests just now) row = true) ∧
          db₂.events = db.events) := by
      rcases hevent with ⟨hfree, heq⟩ | ⟨htaken, heq⟩
      · left
        rw [hevents₁] at hfree
        refine ⟨hfree, ?_⟩
        simp only [db₂, heq, hevents₁]
      · right
        rw [hevents₁] at htaken
        refine ⟨htaken, ?_⟩
        simp only [db₂, heq, hevents₁]
    rcases insertOutboxOrIgnore?_eq_some hentry with ⟨hfree, href, rfl⟩ | ⟨htaken, rfl⟩
    · refine ⟨?_, ?_, hevents₂, Or.inl ⟨?_, ?_, ?_⟩, hsurroundings₂⟩
      · simpa only [hruns₂] using htaskRuns
      · simpa only [hreviews₂] using hreviews
      · rwa [houtbox₂] at hfree
      · obtain ⟨event, hmem, hid⟩ := List.any_eq_true.mp href
        exact ⟨event, hmem, of_decide_eq_true hid⟩
      · simp only [houtbox₂]
    · refine ⟨?_, ?_, hevents₂, Or.inr ⟨?_, houtbox₂⟩, hsurroundings₂⟩
      · simpa only [hruns₂] using htaskRuns
      · simpa only [hreviews₂] using hreviews
      · rwa [houtbox₂] at htaken

/-- What a completion that commits did: the swap of its run, the review of its key, its event and
its outbox entry. -/
structure Committed (digests : Digests) (db db' : Database) (just : Justification)
    (sessionId : Option String) (now : Nat) : Prop where
  found : ∃ row, db.taskRuns.get? just.snapshot.runId = some row ∧ row.state = .verifying ∧
    row.aggregateVersion = just.snapshot.aggregateVersion
  taskRuns : ∀ runId, db'.taskRuns.get? runId =
    (db.taskRuns.get? runId).map (completedRow just now)
  review : ∃ base, db'.reviews.get? just.key = some (completeReview digests just now base) ∧
    ((db.reviews.get? just.key = none ∧ base = just.review digests sessionId now) ∨
      (db.reviews.get? just.key = some base ∧ base.status = .running))
  otherReviews : ∀ key, key ≠ just.key → db'.reviews.get? key = db.reviews.get? key
  events : ((∀ row ∈ db.events, conflicts (completionEvent digests just now) row = false) ∧
      db'.events = db.events ++ [completionEvent digests just now]) ∨
    ((∃ row ∈ db.events, conflicts (completionEvent digests just now) row = true) ∧
      db'.events = db.events)
  outbox : ((∀ row ∈ db.outbox, outboxConflicts (completionEntry digests just) row = false) ∧
      (∃ event ∈ db'.events, event.eventId = .completionEvent (digests.digest just.key)) ∧
      db'.outbox = db.outbox ++ [completionEntry digests just]) ∨
    ((∃ row ∈ db.outbox, outboxConflicts (completionEntry digests just) row = true) ∧
      db'.outbox = db.outbox)
  surroundings : db'.surroundings = db.surroundings

theorem swap_completes (hid : row.runId = just.snapshot.runId) (hstate : row.state = .verifying)
    (hversion : row.aggregateVersion = just.snapshot.aggregateVersion) :
    just.swap.cas.matches row = true := matches_iff.mpr ⟨hid, hstate, hversion⟩

theorem swap_get? (hrow : db.taskRuns.get? just.snapshot.runId = some row)
    (hstate : row.state = .verifying)
    (hversion : row.aggregateVersion = just.snapshot.aggregateVersion) (runId : String) :
    (transitionPhase db just.swap true).1.taskRuns.get? runId =
      (db.taskRuns.get? runId).map fun row =>
        if row.runId = just.snapshot.runId then just.swap.cas.apply row else row := by
  rw [transitionPhase_get?]
  cases hget : db.taskRuns.get? runId with
  | none => rfl
  | some other =>
    have hid : other.runId = runId := key_of_get? hget
    rw [map_some, map_some]
    congr 1
    by_cases hsame : other.runId = just.snapshot.runId
    · have hother : other = row := by
        rw [← hid, hsame, hrow] at hget
        exact (some.inj hget).symm
      have hmatches := swap_completes hsame (hother ▸ hstate) (hother ▸ hversion)
      have hmay : mayTransition just.swap true = true := rfl
      rw [if_pos hsame, hmay, hmatches]
      rfl
    · have hmatches : just.swap.cas.matches other = false := by
        refine Bool.eq_false_iff.mpr ?_
        intro htrue
        exact hsame (matches_iff.mp htrue).1
      rw [if_neg hsame, hmatches, Bool.and_false]
      rfl

theorem completeReviewed_eq_ok (hrow : db.taskRuns.get? just.snapshot.runId = some row)
    (hstate : row.state = .verifying)
    (hversion : row.aggregateVersion = just.snapshot.aggregateVersion)
    (h : completeReviewed digests db just reviewId now = .ok (db', result)) :
    result.status = .completed ∧
      Written digests (transitionPhase db just.swap true).1 db' just now := by
  unfold completeReviewed at h
  have hswapped : (transitionPhase db just.swap true).2 = true := by
    rw [transitionPhase_swapped_iff]
    have hid : row.runId = just.snapshot.runId := key_of_get? hrow
    exact ⟨rfl, row, hrow, swap_completes hid hstate hversion⟩
  simp only [hswapped, if_true, bind, Except.bind, pure, Except.pure] at h
  cases hwrites : completionWrites digests (transitionPhase db just.swap true).1 just now with
  | error failure =>
    rw [hwrites] at h
    cases h
  | ok db₁ =>
    rw [hwrites] at h
    obtain ⟨rfl, rfl⟩ := Prod.mk.inj (Except.ok.inj h)
    exact ⟨rfl, completionWrites_eq_ok hwrites⟩

theorem written_taskRuns (hrow : db.taskRuns.get? just.snapshot.runId = some row)
    (hstate : row.state = .verifying)
    (hversion : row.aggregateVersion = just.snapshot.aggregateVersion)
    (h : Written digests (transitionPhase db just.swap true).1 db' just now) (runId : String) :
    db'.taskRuns.get? runId = (db.taskRuns.get? runId).map (completedRow just now) := by
  rw [h.taskRuns, swap_get? hrow hstate hversion, map_map]
  cases hget : db.taskRuns.get? runId with
  | none => rfl
  | some other =>
    have hid : other.runId = runId := key_of_get? hget
    rw [map_some, map_some]
    congr 1
    simp only [Function.comp_apply, completedRow]
    by_cases hsame : other.runId = just.snapshot.runId
    · have hother : other = row := by
        rw [← hid, hsame, hrow] at hget
        exact (some.inj hget).symm
      have happlied : (just.swap.cas.apply other).runId = just.snapshot.runId ∧
          (just.swap.cas.apply other).state = .completed ∧
          (just.swap.cas.apply other).aggregateVersion = just.snapshot.aggregateVersion + 1 := by
        refine ⟨hsame, rfl, ?_⟩
        rw [hother]
        exact congrArg (· + 1) hversion
      rw [if_pos hsame, if_pos hsame, if_pos happlied]
    · rw [if_neg hsame, if_neg hsame, if_neg]
      exact fun hall => hsame hall.1

theorem completeReviewed_committed {db₀ : Database} {sessionId : Option String} {base : ReviewRow}
    (hrow : db₀.taskRuns.get? just.snapshot.runId = some row) (hstate : row.state = .verifying)
    (hversion : row.aggregateVersion = just.snapshot.aggregateVersion)
    (hdb : ∃ reviews, db = { db₀ with reviews }) (hbase : db.reviews.get? just.key = some base)
    (hrunning : base.status = .running)
    (hreview : (db₀.reviews.get? just.key = none ∧ base = just.review digests sessionId now) ∨
      (db₀.reviews.get? just.key = some base ∧ base.status = .running))
    (hother : ∀ key, key ≠ just.key → db.reviews.get? key = db₀.reviews.get? key)
    (h : completeReviewed digests db just reviewId now = .ok (db', result)) :
    result.status = .completed ∧ Committed digests db₀ db' just sessionId now := by
  obtain ⟨reviews, hdb⟩ := hdb
  have htaskRuns : db.taskRuns = db₀.taskRuns := by rw [hdb]
  have hevents₀ : db.events = db₀.events := by rw [hdb]
  have houtbox₀ : db.outbox = db₀.outbox := by rw [hdb]
  have hsurroundings₀ : db.surroundings = db₀.surroundings := by rw [hdb]
  have hfound : db.taskRuns.get? just.snapshot.runId = some row := by rw [htaskRuns, hrow]
  have hkey : base.completionKey = just.key := key_of_get? hbase
  obtain ⟨hstatus, hwritten⟩ := completeReviewed_eq_ok hfound hstate hversion h
  have hreviews := hwritten.reviews
  have hevents := hwritten.events
  have houtbox := hwritten.outbox
  have hsurroundings := hwritten.surroundings
  rw [transitionPhase_events, hevents₀] at hevents
  rw [transitionPhase_outbox, houtbox₀] at houtbox
  rw [transitionPhase_surroundings, hsurroundings₀] at hsurroundings
  refine ⟨hstatus, ⟨row, hrow, hstate, hversion⟩, ?_, ⟨base, ?_, hreview⟩, ?_, hevents, houtbox,
    hsurroundings⟩
  · intro runId
    rw [written_taskRuns hfound hstate hversion hwritten, htaskRuns]
  · rw [hreviews, transitionPhase_reviews, hbase, map_some, if_pos ⟨hkey, hrunning⟩]
  · intro key hne
    rw [hreviews, transitionPhase_reviews, hother key hne]
    cases hget : db₀.reviews.get? key with
    | none => rfl
    | some review =>
      have hreviewKey : review.completionKey = key := key_of_get? hget
      rw [map_some, if_neg]
      exact fun hall => hne (hreviewKey.symm.trans hall.1)

/-- The review of a decision can be taken: it is there and running, or it can be inserted. -/
def holdsReview (digests : Digests) (db : Database) (just : Justification)
    (sessionId : Option String) (now : Nat) : Bool :=
  match db.reviews.get? just.key with
  | some existing => decide (existing.status = .running)
  | none => (insertReview? db (just.review digests sessionId now)).isSome

/-- An evaluation that finds no blocker and gets as far as its swap. -/
structure ReachesSwap (digests : Digests) (db : Database) (input : EvaluateCompletionPolicyInput)
    (now : Nat) (row : TaskRunRow) (just : Justification) : Prop where
  found : db.taskRuns.get? input.runId = some row
  judged : judge digests db input (snapshotOf db row) = .ok just
  held : holdsReview digests db just input.sessionId now = true

theorem ReachesSwap.snapshot_runId (h : ReachesSwap digests db input now row just) :
    just.snapshot.runId = input.runId := by
  have hid : row.runId = input.runId := key_of_get? h.found
  rw [(judge_eq_ok h.judged).snapshot_eq]
  exact hid

theorem ReachesSwap.verifying (h : ReachesSwap digests db input now row just) :
    row.state = .verifying :=
  (judge_eq_ok h.judged).unblocked.verifying

theorem ReachesSwap.version (h : ReachesSwap digests db input now row just) :
    just.snapshot.aggregateVersion = row.aggregateVersion := by
  rw [(judge_eq_ok h.judged).snapshot_eq]
  rfl

theorem ReachesSwap.found' (h : ReachesSwap digests db input now row just) :
    db.taskRuns.get? just.snapshot.runId = some row := by
  rw [h.snapshot_runId]
  exact h.found

/-- What an evaluation does to the database: nothing, or a completion of a justified run. -/
theorem evaluateInTransaction_eq_ok
    (h : evaluateInTransaction digests db input now = .ok (db', result)) :
    (db' = db ∧ result.status ≠ .completed) ∨
    ∃ row just, ReachesSwap digests db input now row just ∧ result.status = .completed ∧
      Committed digests db db' just input.sessionId now := by
  unfold evaluateInTransaction at h
  cases hrow : db.taskRuns.get? input.runId with
  | none =>
    simp only [getSnapshot, hrow, map_none] at h
    obtain ⟨rfl, rfl⟩ := Prod.mk.inj (Except.ok.inj h)
    exact Or.inl ⟨rfl, by simp [blocked]⟩
  | some row =>
    simp only [getSnapshot, hrow, map_some] at h
    split_ifs at h with hcompleted
    · obtain ⟨rfl, rfl⟩ := Prod.mk.inj (Except.ok.inj h)
      left
      refine ⟨rfl, ?_⟩
      unfold answerCompleted
      split <;> simp [blocked]
    · cases hjudge : judge digests db input (snapshotOf db row) with
      | error reasons =>
        rw [hjudge] at h
        obtain ⟨rfl, rfl⟩ := Prod.mk.inj (Except.ok.inj h)
        exact Or.inl ⟨rfl, by simp [blocked]⟩
      | ok just =>
        simp only [hjudge] at h
        have hreaches : holdsReview digests db just input.sessionId now = true →
            ReachesSwap digests db input now row just := fun hheld => ⟨hrow, hjudge, hheld⟩
        have hjust := judge_eq_ok hjudge
        have hid : row.runId = input.runId := key_of_get? hrow
        have hsnapshot : just.snapshot.runId = input.runId := by
          rw [hjust.snapshot_eq]
          exact hid
        have hfound : db.taskRuns.get? just.snapshot.runId = some row := by
          rw [hsnapshot]
          exact hrow
        have hstate : row.state = .verifying := hjust.unblocked.verifying
        have hversion : row.aggregateVersion = just.snapshot.aggregateVersion := by
          rw [hjust.snapshot_eq]
          rfl
        unfold completeJustified at h
        extract_lets review at h
        cases hexisting : db.reviews.get? just.key with
        | none =>
          simp only [hexisting] at h
          cases hinsert : insertReview? db review with
          | none =>
            rw [hinsert] at h
            cases h
          | some db₁ =>
            simp only [hinsert] at h
            have hheld : holdsReview digests db just input.sessionId now = true := by
              simp only [holdsReview, hexisting]
              rw [isSome_iff_exists]
              exact ⟨db₁, hinsert⟩
            unfold insertReview? at hinsert
            split_ifs at hinsert with hconflict
            obtain ⟨reviews, hreviews, rfl⟩ := map_eq_some_iff.mp hinsert
            have hget := get?_insert? hreviews
            have hkey : review.completionKey = just.key := rfl
            have hbase : reviews.get? just.key = some review := by
              rw [hget, if_pos hkey]
            have hother : ∀ key, key ≠ just.key → reviews.get? key = db.reviews.get? key := by
              intro key hne
              rw [hget, if_neg]
              exact fun he => hne he.symm
            obtain ⟨hstatus, hcommitted⟩ := completeReviewed_committed hfound hstate hversion
              ⟨reviews, rfl⟩ hbase rfl (Or.inl ⟨hexisting, rfl⟩) hother h
            exact Or.inr ⟨row, just, hreaches hheld, hstatus, hcommitted⟩
        | some existing =>
          simp only [hexisting] at h
          cases hstatus : existing.status with
          | completed =>
            simp only [hstatus] at h
            split_ifs at h
            · obtain ⟨rfl, rfl⟩ := Prod.mk.inj (Except.ok.inj h)
              exact Or.inl ⟨rfl, by simp⟩
            · obtain ⟨rfl, rfl⟩ := Prod.mk.inj (Except.ok.inj h)
              exact Or.inl ⟨rfl, by simp [blocked]⟩
          | running =>
            simp only [hstatus] at h
            obtain ⟨hresult, hcommitted⟩ := completeReviewed_committed hfound hstate hversion
              ⟨db.reviews, rfl⟩ hexisting hstatus (Or.inr ⟨hexisting, hstatus⟩) (fun _ _ => rfl) h
            have hheld : holdsReview digests db just input.sessionId now = true := by
              simp [holdsReview, hexisting, hstatus]
            exact Or.inr ⟨row, just, hreaches hheld, hresult, hcommitted⟩
          | pending =>
            simp only [hstatus] at h
            obtain ⟨rfl, rfl⟩ := Prod.mk.inj (Except.ok.inj h)
            exact Or.inl ⟨rfl, by simp [blocked]⟩
          | failed =>
            simp only [hstatus] at h
            obtain ⟨rfl, rfl⟩ := Prod.mk.inj (Except.ok.inj h)
            exact Or.inl ⟨rfl, by simp [blocked]⟩

theorem completionWrites_of_free
    (hevents : ∀ row ∈ db.events, conflicts (completionEvent digests just now) row = false)
    (hentries : ∀ row ∈ db.outbox, outboxConflicts (completionEntry digests just) row = false) :
    ∃ db', completionWrites digests db just now = .ok db' := by
  unfold completionWrites
  extract_lets isCompleted taskRuns reviews db₁ db₂
  have hevents₁ : db₁.events = db.events := by simp [db₁]
  have houtbox₁ : db₁.outbox = db.outbox := by simp [db₁]
  have hinsert := insertEventOrIgnore_cases db₁ (completionEvent digests just now)
  rw [hevents₁] at hinsert
  cases hinsert with
  | inl hfree =>
    have hany : ¬db₂.outbox.any (outboxConflicts (completionEntry digests just)) = true := by
      simp only [db₂, hfree.2, houtbox₁]
      intro htaken
      obtain ⟨entry, hentry, hconflict⟩ := List.any_eq_true.mp htaken
      rw [hentries entry hentry] at hconflict
      cases hconflict
    have href : referencesEvent db₂ (completionEntry digests just) = true := by
      simp only [db₂, hfree.2, referencesEvent]
      simp [completionEntry, completionEvent]
    rw [insertOutboxOrIgnore?, if_neg hany, if_pos href]
    exact ⟨_, rfl⟩
  | inr htaken =>
    obtain ⟨⟨event, hevent, hconflict⟩, -⟩ := htaken
    rw [hevents event hevent] at hconflict
    cases hconflict

theorem completeReviewed_of_free {digests : Digests} {db : Database} {just : Justification}
    {reviewId : RecordId} {now : Nat} {row : TaskRunRow}
    (hrow : db.taskRuns.get? just.snapshot.runId = some row) (hstate : row.state = .verifying)
    (hversion : row.aggregateVersion = just.snapshot.aggregateVersion)
    (hevents : ∀ row ∈ db.events, conflicts (completionEvent digests just now) row = false)
    (hentries : ∀ row ∈ db.outbox, outboxConflicts (completionEntry digests just) row = false) :
    ∃ db' result, completeReviewed digests db just reviewId now = .ok (db', result) ∧
      result.status = .completed := by
  have hswapped : (transitionPhase db just.swap true).2 = true := by
    rw [transitionPhase_swapped_iff]
    have hid : row.runId = just.snapshot.runId := key_of_get? hrow
    exact ⟨rfl, row, hrow, swap_completes hid hstate hversion⟩
  have hwrites : ∃ db', completionWrites digests (transitionPhase db just.swap true).1 just now =
      .ok db' := by
    apply completionWrites_of_free
    · rw [transitionPhase_events]
      exact hevents
    · rw [transitionPhase_outbox]
      exact hentries
  obtain ⟨db', hwrites⟩ := hwrites
  simp only [completeReviewed, hswapped, if_true, bind, Except.bind, pure, Except.pure, hwrites]
  exact ⟨_, _, rfl, rfl⟩

theorem ReachesSwap.completes (h : ReachesSwap digests db input now row just)
    (hevents : ∀ row ∈ db.events, conflicts (completionEvent digests just now) row = false)
    (hentries : ∀ row ∈ db.outbox, outboxConflicts (completionEntry digests just) row = false) :
    ∃ db' result, evaluateInTransaction digests db input now = .ok (db', result) ∧
      result.status = .completed := by
  have hphase : (snapshotOf db row).phase ≠ .completed := by
    intro hcompleted
    have hverifying : (snapshotOf db row).phase = .verifying := h.verifying
    rw [hverifying] at hcompleted
    cases hcompleted
  have hheld := h.held
  simp only [evaluateInTransaction, getSnapshot, h.found, map_some, if_neg hphase, h.judged]
  unfold completeJustified holdsReview at *
  cases hexisting : db.reviews.get? just.key with
  | some existing =>
    simp only [hexisting, decide_eq_true_eq] at hheld
    simp only [hheld]
    exact completeReviewed_of_free h.found' h.verifying h.version.symm hevents hentries
  | none =>
    simp only [hexisting] at hheld
    obtain ⟨db₁, hinsert⟩ := isSome_iff_exists.mp hheld
    simp only [hinsert]
    unfold insertReview? at hinsert
    split_ifs at hinsert
    obtain ⟨reviews, -, rfl⟩ := map_eq_some_iff.mp hinsert
    exact @completeReviewed_of_free digests { db with reviews } just _ now row h.found' h.verifying
      h.version.symm hevents hentries

end CompletionEffects
