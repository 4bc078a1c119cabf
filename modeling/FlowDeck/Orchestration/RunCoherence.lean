import FlowDeck.Orchestration.RunSteps

namespace RunCoherence

open Orchestration RunStore Snapshot TransitionEngine CompletionPolicy RunService RunEffects List
open CompletionEffects RunSteps Machine

/-- What links the stored rows: reviews are decided, events belong to runs, outbox entries refer to
events, and the keys derived from a decision are taken only together with its review. -/
structure Coherent (db : Database) : Prop where
  decided : ∀ key review, db.reviews.get? key = some review → review.status = .completed
  owned : ∀ event ∈ db.events, ∃ row, db.taskRuns.get? event.aggregateId = some row
  referenced : ∀ entry ∈ db.outbox, ∃ event ∈ db.events, event.eventId = entry.eventId
  decisionEvents : ∀ event ∈ db.events, ∀ d, event.eventId = .completionEvent d →
    ∃ key review, db.reviews.get? key = some review ∧ review.id = .completionReview d
  decisionEntries : ∀ entry ∈ db.outbox, ∀ d, entry.id = .completionOutbox d →
    ∃ key review, db.reviews.get? key = some review ∧ review.id = .completionReview d
  decisionKeys : ∀ entry ∈ db.outbox, ∀ key, entry.idempotencyKey = .completion key →
    ∃ review, db.reviews.get? key = some review

theorem initial_coherent (surroundings : Surroundings) : Coherent (initial surroundings).db := by
  constructor
  · intro key review hreview
    cases hreview
  all_goals
    intro row hrow
    cases hrow

variable {db db' : Database} {digests : Digests} {just : Justification} {sessionId : Option String}
  {now : Nat}

/-- Only the run rows change, and none of them goes. -/
theorem Coherent.withRuns (h : Coherent db)
    (hruns : ∀ id row, db.taskRuns.get? id = some row → ∃ row', db'.taskRuns.get? id = some row')
    (hevents : db'.events = db.events) (houtbox : db'.outbox = db.outbox)
    (hreviews : db'.reviews = db.reviews) : Coherent db' := by
  obtain ⟨hdecided, howned, hreferenced, hdecisionEvents, hdecisionEntries, hkeys⟩ := h
  constructor
  · rw [hreviews]
    exact hdecided
  · rw [hevents]
    intro event hevent
    obtain ⟨row, hrow⟩ := howned event hevent
    exact hruns _ row hrow
  · rw [hevents, houtbox]
    exact hreferenced
  · rw [hevents, hreviews]
    exact hdecisionEvents
  · rw [houtbox, hreviews]
    exact hdecisionEntries
  · rw [houtbox, hreviews]
    exact hkeys

theorem Coherent.append {event : EventRow} {eventId outboxId : String} (h : Coherent db)
    (hid : event.eventId = .uuid eventId)
    (hruns : ∀ id row, db.taskRuns.get? id = some row → ∃ row', db'.taskRuns.get? id = some row')
    (howner : ∃ row, db'.taskRuns.get? event.aggregateId = some row)
    (hevents : db'.events = db.events ++ [event])
    (houtbox : db'.outbox = db.outbox ++ [outboxEntry event outboxId])
    (hreviews : db'.reviews = db.reviews) : Coherent db' := by
  constructor
  · rw [hreviews]
    exact h.decided
  · rw [hevents]
    intro row hrow
    cases mem_append.mp hrow with
    | inl hold =>
      obtain ⟨run, hrun⟩ := h.owned row hold
      exact hruns _ run hrun
    | inr hnew =>
      obtain rfl := mem_singleton.mp hnew
      exact howner
  · rw [hevents, houtbox]
    intro entry hentry
    cases mem_append.mp hentry with
    | inl hold =>
      obtain ⟨row, hrow, heq⟩ := h.referenced entry hold
      exact ⟨row, mem_append_left _ hrow, heq⟩
    | inr hnew =>
      obtain rfl := mem_singleton.mp hnew
      exact ⟨event, by simp, rfl⟩
  · rw [hevents, hreviews]
    intro row hrow d hd
    cases mem_append.mp hrow with
    | inl hold => exact h.decisionEvents row hold d hd
    | inr hnew =>
      obtain rfl := mem_singleton.mp hnew
      rw [hid] at hd
      cases hd
  · rw [houtbox, hreviews]
    intro entry hentry d hd
    cases mem_append.mp hentry with
    | inl hold => exact h.decisionEntries entry hold d hd
    | inr hnew =>
      obtain rfl := mem_singleton.mp hnew
      cases hd
  · rw [houtbox, hreviews]
    intro entry hentry key hkey
    cases mem_append.mp hentry with
    | inl hold => exact h.decisionKeys entry hold key hkey
    | inr hnew =>
      obtain rfl := mem_singleton.mp hnew
      cases hkey

theorem Coherent.untaken (h : Coherent db)
    (hheld : holdsReview digests db just sessionId now = true) :
    db.reviews.get? just.key = none ∧ ∀ key review, db.reviews.get? key = some review →
      review.id ≠ .completionReview (digests.digest just.key) := by
  unfold holdsReview at hheld
  cases hexisting : db.reviews.get? just.key with
  | some existing =>
    rw [hexisting] at hheld
    have hcompleted := h.decided _ _ hexisting
    simp [hcompleted] at hheld
  | none =>
    refine ⟨rfl, ?_⟩
    intro key review hreview hid
    simp only [hexisting, insertReview?] at hheld
    split_ifs at hheld with hconflict
    · cases hheld
    · apply hconflict
      rw [any_eq_true]
      refine ⟨review, Table.mem_of_get? hreview, ?_⟩
      simp [reviewConflicts, hid, Justification.review]

theorem Coherent.event_untaken (h : Coherent db)
    (hheld : holdsReview digests db just sessionId now = true) :
    ∀ event ∈ db.events, event.eventId ≠ .completionEvent (digests.digest just.key) := by
  intro event hevent hid
  obtain ⟨key, review, hreview, hreviewId⟩ := h.decisionEvents event hevent _ hid
  exact (h.untaken hheld).2 key review hreview hreviewId

theorem Coherent.entry_untaken (h : Coherent db)
    (hheld : holdsReview digests db just sessionId now = true) :
    ∀ entry ∈ db.outbox, outboxConflicts (completionEntry digests just) entry = false := by
  intro entry hentry
  refine outboxConflicts_eq_false.mpr ⟨?_, ?_⟩
  · intro hid
    obtain ⟨key, review, hreview, hreviewId⟩ := h.decisionEntries entry hentry _ hid
    exact (h.untaken hheld).2 key review hreview hreviewId
  · intro hkey
    obtain ⟨review, hreview⟩ := h.decisionKeys entry hentry _ hkey
    rw [(h.untaken hheld).1] at hreview
    cases hreview

theorem Coherent.stored (h : Coherent db) (hheld : holdsReview digests db just sessionId now = true)
    (hcommitted : Committed digests db db' just sessionId now) :
    (∀ row ∈ db.events, conflicts (completionEvent digests just now) row = false) ∧
      db'.events = db.events ++ [completionEvent digests just now] ∧
      db'.outbox = db.outbox ++ [completionEntry digests just] := by
  have houtbox : (∃ event ∈ db'.events,
      event.eventId = .completionEvent (digests.digest just.key)) ∧
      db'.outbox = db.outbox ++ [completionEntry digests just] := by
    cases hcommitted.outbox with
    | inl hfree => exact hfree.2
    | inr htaken =>
      obtain ⟨⟨entry, hentry, hconflict⟩, -⟩ := htaken
      rw [h.entry_untaken hheld entry hentry] at hconflict
      cases hconflict
  cases hcommitted.events with
  | inl hfree => exact ⟨hfree.1, hfree.2, houtbox.2⟩
  | inr htaken =>
    obtain ⟨event, hevent, hid⟩ := houtbox.1
    rw [htaken.2] at hevent
    exact absurd hid (h.event_untaken hheld event hevent)

/-- The reviews that were there stay, and the one more is that of the decision. -/
theorem Coherent.reviews_kept (h : Coherent db)
    (hheld : holdsReview digests db just sessionId now = true)
    (hcommitted : Committed digests db db' just sessionId now) {key : String} {review : ReviewRow}
    (hreview : db.reviews.get? key = some review) : db'.reviews.get? key = some review := by
  have hne : key ≠ just.key := by
    intro heq
    rw [heq, (h.untaken hheld).1] at hreview
    cases hreview
  rw [hcommitted.otherReviews key hne]
  exact hreview

theorem Coherent.review_taken (h : Coherent db)
    (hheld : holdsReview digests db just sessionId now = true)
    (hcommitted : Committed digests db db' just sessionId now) :
    db'.reviews.get? just.key =
      some (completeReview digests just now (just.review digests sessionId now)) := by
  obtain ⟨base, hbase, horigin⟩ := hcommitted.review
  cases horigin with
  | inl hnew =>
    rw [hbase, hnew.2]
  | inr hold =>
    rw [(h.untaken hheld).1] at hold
    cases hold.1

theorem Coherent.committed (h : Coherent db)
    (hheld : holdsReview digests db just sessionId now = true)
    (hcommitted : Committed digests db db' just sessionId now) : Coherent db' := by
  obtain ⟨-, hevents, houtbox⟩ := h.stored hheld hcommitted
  have htaken := h.review_taken hheld hcommitted
  have hruns : ∀ id row, db.taskRuns.get? id = some row →
      ∃ row', db'.taskRuns.get? id = some row' := by
    intro id row hrow
    rw [hcommitted.taskRuns, hrow]
    exact ⟨_, rfl⟩
  constructor
  · intro key review hreview
    by_cases hkey : key = just.key
    · rw [hkey, htaken] at hreview
      rw [← Option.some.inj hreview]
      rfl
    · rw [hcommitted.otherReviews key hkey] at hreview
      exact h.decided key review hreview
  · rw [hevents]
    intro event hevent
    cases mem_append.mp hevent with
    | inl hold =>
      obtain ⟨row, hrow⟩ := h.owned event hold
      exact hruns _ row hrow
    | inr hnew =>
      obtain rfl := mem_singleton.mp hnew
      obtain ⟨row, hrow, -⟩ := hcommitted.found
      exact hruns _ row hrow
  · rw [hevents, houtbox]
    intro entry hentry
    cases mem_append.mp hentry with
    | inl hold =>
      obtain ⟨event, hevent, heq⟩ := h.referenced entry hold
      exact ⟨event, mem_append_left _ hevent, heq⟩
    | inr hnew =>
      obtain rfl := mem_singleton.mp hnew
      exact ⟨completionEvent digests just now, by simp, rfl⟩
  · rw [hevents]
    intro event hevent d hd
    cases mem_append.mp hevent with
    | inl hold =>
      obtain ⟨key, review, hreview, hid⟩ := h.decisionEvents event hold d hd
      exact ⟨key, review, h.reviews_kept hheld hcommitted hreview, hid⟩
    | inr hnew =>
      obtain rfl := mem_singleton.mp hnew
      obtain rfl := RecordId.completionEvent.inj hd
      exact ⟨just.key, _, htaken, rfl⟩
  · rw [houtbox]
    intro entry hentry d hd
    cases mem_append.mp hentry with
    | inl hold =>
      obtain ⟨key, review, hreview, hid⟩ := h.decisionEntries entry hold d hd
      exact ⟨key, review, h.reviews_kept hheld hcommitted hreview, hid⟩
    | inr hnew =>
      obtain rfl := mem_singleton.mp hnew
      obtain rfl := RecordId.completionOutbox.inj hd
      exact ⟨just.key, _, htaken, rfl⟩
  · rw [houtbox]
    intro entry hentry key hkey
    cases mem_append.mp hentry with
    | inl hold =>
      obtain ⟨review, hreview⟩ := h.decisionKeys entry hold key hkey
      exact ⟨review, h.reviews_kept hheld hcommitted hreview⟩
    | inr hnew =>
      obtain rfl := mem_singleton.mp hnew
      obtain rfl := IdempotencyKey.completion.inj hkey
      exact ⟨_, htaken⟩

theorem effect_coherent {s : State} {a : Action} (h : Coherent s.db)
    (heffect : Effect digests s a db') : Coherent db' := by
  cases heffect with
  | kept quiet => exact h
  | surroundings surroundings quiet =>
    exact h.withRuns (fun _ row hrow => ⟨row, hrow⟩) rfl rfl rfl
  | created input correlationId draws db' quiet created =>
    have hget := Table.get?_insert? created.inserted
    have howner : db'.taskRuns.get? draws.runId = some (runRow input draws.runId draws.now) := by
      rw [hget]
      exact if_pos rfl
    exact h.append rfl
      (fun _ row hrow => ⟨row, Table.get?_insert?_of_some created.inserted hrow⟩)
      ⟨_, howner⟩ created.events created.outbox created.reviews
  | updated n draws id input existing read state draft action call wrote ready =>
    have hruns : ∀ runId row, s.db.taskRuns.get? runId = some row →
        ∃ row', (updated s.db id state draft draws.ids draws.now).taskRuns.get? runId =
          some row' := by
      intro runId row hrow
      rw [updated_get?, hrow]
      exact ⟨_, rfl⟩
    obtain ⟨row, hrow⟩ := ready.found
    exact h.append rfl hruns (hruns id row hrow) (updated_events _ _ _ _ _ _)
      (updated_outbox _ _ _ _ _ _) (updated_reviews _ _ _ _ _ _)
  | swapped input row wrote may found matched =>
    have hruns : ∀ runId row, s.db.taskRuns.get? runId = some row →
        ∃ row', (transitionPhase s.db input false).1.taskRuns.get? runId = some row' := by
      intro runId row hrow
      rw [transitionPhase_get?, hrow]
      exact ⟨_, rfl⟩
    exact h.withRuns hruns (transitionPhase_events _ _ _) (transitionPhase_outbox _ _ _)
      (transitionPhase_reviews _ _ _)
  | completed input now row just result db' action quiet reaches answer status committed =>
    exact h.committed reaches.held committed

theorem run_coherent {surroundings : Surroundings} {as : List Action} {t : State}
    (hr : Machine.run (step digests) (initial surroundings) as = some t) : Coherent t.db := by
  have hstep : ∀ s a t, Coherent s.db → step digests s a = some t → Coherent t.db :=
    fun _ _ _ hcoherent hstep => effect_coherent hcoherent (step_effect hstep)
  exact run_invariant (I := fun s => Coherent s.db) hstep (initial_coherent surroundings) hr

end RunCoherence
