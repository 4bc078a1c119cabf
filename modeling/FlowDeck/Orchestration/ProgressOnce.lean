import FlowDeck.Orchestration.AttemptListing

/-! How often the progress that an attempt made on an item is confirmed. -/

namespace AttemptStore

open Orchestration RunStore Snapshot TransitionEngine VerificationEntry Machine Option

/-! ### Evaluations that confirm -/

/-- What an evaluation answers has a property, whatever its swap gives. -/
def Answers (P : Answer → Prop) : Evaluation → Prop
  | .answer answer => P answer
  | .swap _ swapped conflict => P swapped ∧ P conflict

theorem Answers.perform {P : Answer → Prop} {evaluation : Evaluation} (h : Answers P evaluation)
    (db : Database) : P (perform db evaluation).2 := by
  cases evaluation with
  | answer answer => exact h
  | swap input swapped conflict =>
    simp only [VerificationEntry.perform]
    split_ifs
    · exact h.1
    · exact h.2

def MarksConfirmed (item : String) (records : ItemRecords) (answer : Answer) : Prop :=
  (∃ last, records.attempts.getLast? = some last ∧
      records.consumedAttempt ≠ some last.attemptNumber ∧
      answer.result.reasonCode = .progressConfirmed ∧
      answer.writes = [.markConsumedProgressAttempt item last.attemptNumber,
        .clearStrategyConstraint item]) ∨
    answer.result.reasonCode ≠ .progressConfirmed ∧
      ∀ other n, .markConsumedProgressAttempt other n ∉ answer.writes

variable {item runId : String} {snapshot : OrchestrationSnapshot} {input : EvaluateInput}
  {store store' : Store} {now : Nat}

theorem marksConfirmed_of_ne {records : ItemRecords} {answer : Answer}
    (hreason : answer.result.reasonCode ≠ .progressConfirmed)
    (hwrites : ∀ other n, .markConsumedProgressAttempt other n ∉ answer.writes) :
    MarksConfirmed item records answer :=
  .inr ⟨hreason, hwrites⟩

theorem answers_enter {P : Answer → Prop} {allowed : Bool} {target : OrchestrationPhase}
    {answer : OrchestrationPhase → Bool → Answer} {item : Option String} {reason : String}
    (hanswer : ∀ phase changed, P (answer phase changed)) (hconflict : P { result := {
        currentPhase := snapshot.phase
        currentWorkItemId := item
        strategyDecision := .block
        reasonCode := .transitionConflict
        requiresAction := false
        blockerReason := some reason } }) :
    Answers P (enter snapshot allowed target answer item reason) := by
  unfold enter
  split_ifs
  · exact ⟨hanswer _ _, hconflict⟩
  · exact hanswer _ _

theorem answers_recoverFailed (snapshot : OrchestrationSnapshot) (records : ItemRecords) :
    Answers (MarksConfirmed (targetItemId snapshot) records) (recoverFailed snapshot) := by
  simp only [recoverFailed]
  apply answers_enter
  · intro phase changed
    apply marksConfirmed_of_ne
    · split_ifs <;> simp
    · simp
  · exact marksConfirmed_of_ne (by simp) (by simp)

theorem answers_recoverStalled (snapshot : OrchestrationSnapshot) (input : EvaluateInput)
    (records : ItemRecords) :
    Answers (MarksConfirmed (targetItemId snapshot) records)
      (recoverStalled snapshot input records) := by
  simp only [recoverStalled]
  apply answers_enter
  · intro phase changed
    apply marksConfirmed_of_ne
    · simp
    · intro other n hmem
      simp only at hmem
      split at hmem
      · simp at hmem
      · simp at hmem
  · exact marksConfirmed_of_ne (by simp) (by simp)

theorem marksConfirmed_judge {records : ItemRecords} {changed : Bool} {answer : Answer}
    (h : judgeAttempt snapshot input records changed = some answer) :
    MarksConfirmed (targetItemId snapshot) records answer := by
  unfold judgeAttempt at h
  split at h
  · cases h
  · next last hlast =>
      simp only at h
      split_ifs at h with hnone hrepeat htransient hphase hprogress hconsumed
      · obtain rfl := some.inj h
        exact marksConfirmed_of_ne (by simp [stay]) (by simp)
      · obtain rfl := some.inj h
        exact marksConfirmed_of_ne (by simp) (by simp)
      · obtain rfl := some.inj h
        exact marksConfirmed_of_ne (by simp) (by simp)
      · obtain rfl := some.inj h
        exact marksConfirmed_of_ne (by simp [stay]) (by simp)
      · obtain rfl := some.inj h
        exact .inl ⟨last, hlast, hconsumed, rfl, rfl⟩

theorem answers_advance (snapshot : OrchestrationSnapshot) (records : ItemRecords) :
    Answers (MarksConfirmed (targetItemId snapshot) records) (advance snapshot) := by
  unfold advance
  simp only
  split_ifs with hbarrier hcancelled hactive hready hpending
  · exact marksConfirmed_of_ne (by simp [stay]) (by simp)
  · exact marksConfirmed_of_ne (by simp [stay]) (by simp)
  · exact marksConfirmed_of_ne (by simp [stay]) (by simp)
  · apply answers_enter
    · intro phase changed
      exact marksConfirmed_of_ne (by simp) (by simp)
    · exact marksConfirmed_of_ne (by simp) (by simp)
  · exact marksConfirmed_of_ne (by simp [stay]) (by simp)
  · exact marksConfirmed_of_ne (by simp [stay]) (by simp)

theorem answers_evaluateSnapshot (snapshot : OrchestrationSnapshot) (input : EvaluateInput)
    (records : ItemRecords) :
    Answers (MarksConfirmed (targetItemId snapshot) records)
      (evaluateSnapshot snapshot input records) := by
  unfold evaluateSnapshot
  simp only
  split_ifs with hterminal hcancelled hfailed hexhausted hstalled hrecovering
  · exact marksConfirmed_of_ne (by simp [stay]) (by simp)
  · exact marksConfirmed_of_ne (by simp [stay]) (by simp)
  · exact answers_recoverFailed snapshot records
  · exact marksConfirmed_of_ne (by simp [stay]) (by simp)
  · exact answers_recoverStalled snapshot input records
  · exact ⟨marksConfirmed_of_ne (by simp) (by simp), marksConfirmed_of_ne (by simp) (by simp)⟩
  · split
    · next answer hanswer => exact marksConfirmed_judge hanswer
    · exact answers_advance snapshot records

/-! ### Confirmations -/

/-- A decision that confirms progress: its run and item, and the attempt that it judged. -/
structure Confirmation where
  runId : String
  workItem : String
  judged : Attempt
  deriving DecidableEq

def judged? (order : ScanOrder) (e : Engine) (runId : String) : Option (String × Attempt) :=
  (getSnapshot e.db runId).bind fun snapshot =>
    (listAttempts order e.store runId (targetItemId snapshot)).getLast?.map
      (targetItemId snapshot, ·)

/-- The call ends in the decision `PROGRESS_CONFIRMED`. -/
def confirmation (order : ScanOrder) (e : Engine) : Call → Option Confirmation
  | .evaluate input version now =>
    if (evaluateRun order e input version now).2.any fun result =>
        result.reasonCode = .progressConfirmed then
      (judged? order e input.runId).map fun (item, attempt) => ⟨input.runId, item, attempt⟩
    else none
  | _ => none

/-- What an evaluation does about progress: it confirms that of the judged attempt, which is not
the one marked, and marks it; or it confirms none and leaves the markers. -/
inductive Judges (order : ScanOrder) (e : Engine) (call : Call) (store : Store) : Prop
  | confirms (c : Confirmation) (h : confirmation order e call = some c)
      (judged : judged? order e c.runId = some (c.workItem, c.judged))
      (unmarked : getConsumedProgressAttempt e.store c.runId c.workItem ≠
        some c.judged.attemptNumber)
      (marked : ∀ runId item, getConsumedProgressAttempt store runId item =
        if runId = c.runId ∧ item = c.workItem then some c.judged.attemptNumber
        else getConsumedProgressAttempt e.store runId item)
  | passes (h : confirmation order e call = none)
      (marked : ∀ runId item, getConsumedProgressAttempt store runId item =
        getConsumedProgressAttempt e.store runId item)

/-- A write that marks nothing leaves the markers. -/
theorem Consistent.write_unmarked {w : MetadataWrite} (hstore : Consistent store)
    (hw : ∀ item n, w ≠ .markConsumedProgressAttempt item n)
    (h : AttemptStore.write store runId now w = some store') (run item : String) :
    getConsumedProgressAttempt store' run item = getConsumedProgressAttempt store run item := by
  cases w with
  | saveStrategyConstraint other action state reason => exact (hstore.putConstraints h).2 run item
  | markConsumedProgressAttempt other n => exact absurd rfl (hw other n)
  | clearStrategyConstraint other =>
    simp only [AttemptStore.write, clearStrategyConstraint] at h
    split at h
    · obtain rfl := some.inj h
      rfl
    · exact (hstore.putConstraints h).2 run item

theorem writeAll_cons {w : MetadataWrite} {writes : List MetadataWrite} :
    writeAll store runId now (w :: writes) = some store' ↔
      ∃ next, AttemptStore.write store runId now w = some next ∧
        writeAll next runId now writes = some store' := by
  simp [writeAll, bind_eq_some_iff]

theorem Consistent.writeAll_unmarked {writes : List MetadataWrite} (hstore : Consistent store)
    (hw : ∀ item n, .markConsumedProgressAttempt item n ∉ writes)
    (h : AttemptStore.writeAll store runId now writes = some store') (run item : String) :
    getConsumedProgressAttempt store' run item = getConsumedProgressAttempt store run item := by
  induction writes generalizing store with
  | nil =>
    obtain rfl := some.inj h
    rfl
  | cons w writes ih =>
    obtain ⟨next, hnext, hrest⟩ := writeAll_cons.mp h
    have hfirst : getConsumedProgressAttempt next run item =
        getConsumedProgressAttempt store run item := by
      apply hstore.write_unmarked _ hnext
      intro other n heq
      exact hw other n (heq ▸ List.mem_cons_self)
    have hlast := ih (hstore.write hnext).consistent
      (fun other n hmem => hw other n (List.mem_cons_of_mem w hmem)) hrest
    rw [hlast, hfirst]

theorem answer_marksConfirmed {order : ScanOrder} {e : Engine} {version : Nat}
    (hsnapshot : getSnapshot e.db input.runId = some snapshot) :
    MarksConfirmed (targetItemId snapshot)
      (itemRecords order e.store version input.runId (targetItemId snapshot))
      (perform e.db (TransitionEngine.evaluate e.db input
        (itemRecords order e.store version input.runId))).2 := by
  apply Answers.perform
  simp only [TransitionEngine.evaluate, hsnapshot]
  exact answers_evaluateSnapshot _ _ _

theorem judges_evaluate {order : ScanOrder} {e : Engine} {version : Nat}
    (hstore : Consistent e.store) :
    Judges order e (.evaluate input version now)
      (evaluateRun order e input version now).1.store := by
  let records := itemRecords order e.store version input.runId
  let performed := perform e.db (TransitionEngine.evaluate e.db input records)
  cases hwritten : writeAll e.store input.runId now performed.2.writes with
  | none =>
    have hout : evaluateRun order e input version now = (⟨performed.1, e.store⟩, none) := by
      simp only [evaluateRun, performed, records] at hwritten ⊢
      rw [hwritten]
    apply Judges.passes
    · simp [confirmation, hout]
    · simp [hout]
  | some store =>
    have hout : evaluateRun order e input version now =
        (⟨performed.1, store⟩, some performed.2.result) := by
      simp only [evaluateRun, performed, records] at hwritten ⊢
      rw [hwritten]
    cases hsnapshot : getSnapshot e.db input.runId with
    | none =>
      have hanswer : performed.2.result.reasonCode = .blocked ∧ performed.2.writes = [] := by
        simp [performed, TransitionEngine.evaluate, hsnapshot, perform]
      apply Judges.passes
      · simp [confirmation, hout, hanswer.1]
      · rw [hanswer.2] at hwritten
        obtain rfl := some.inj hwritten
        simp [hout]
    | some snapshot =>
      have hanswer : MarksConfirmed (targetItemId snapshot)
          (records (targetItemId snapshot)) performed.2 := answer_marksConfirmed hsnapshot
      rcases hanswer with
        ⟨last, hlast, hunmarked, hreason, hwrites⟩ | ⟨hreason, hwrites⟩
      · have hrecords :
            (itemRecords order e.store version input.runId (targetItemId snapshot)).attempts =
              (listAttempts order e.store input.runId (targetItemId snapshot)).map
                (·.toRecord) := rfl
        rw [hrecords, List.getLast?_map] at hlast
        obtain ⟨attempt, hattempt, rfl⟩ := map_eq_some_iff.mp hlast
        have hjudged : judged? order e input.runId = some (targetItemId snapshot, attempt) := by
          simp [judged?, hsnapshot, hattempt]
        have hconfirms : confirmation order e (.evaluate input version now) =
            some ⟨input.runId, targetItemId snapshot, attempt⟩ := by
          have hany : (some performed.2.result).any
              (fun result => decide (result.reasonCode = .progressConfirmed)) = true :=
            decide_eq_true hreason
          simp only [confirmation, hout, hany, if_true, hjudged, map_some]
        have hlisted : performed.2.writes =
            [.markConsumedProgressAttempt (targetItemId snapshot) attempt.attemptNumber,
              .clearStrategyConstraint (targetItemId snapshot)] := hwrites
        rw [hlisted] at hwritten
        obtain ⟨next, hmark, hrest⟩ := writeAll_cons.mp hwritten
        obtain ⟨hwrote, hmarked⟩ := hstore.markConsumed hmark
        refine .confirms _ hconfirms hjudged hunmarked fun runId item => ?_
        have hlast : getConsumedProgressAttempt store runId item =
            getConsumedProgressAttempt next runId item :=
          hwrote.consistent.writeAll_unmarked (by simp) hrest runId item
        rw [hout]
        exact hlast.trans (hmarked runId item)
      · apply Judges.passes
        · simp [confirmation, hout]
          intro h
          exact absurd h hreason
        · rw [hout]
          exact hstore.writeAll_unmarked hwrites hwritten

theorem Consistent.judges {order : ScanOrder} {e e' : Engine} {call : Call}
    (hstore : Consistent e.store) (h : AttemptStore.step order e call = some e') :
    Judges order e call e'.store := by
  cases call with
  | evaluate input version now =>
    obtain rfl := some.inj h
    exact judges_evaluate hstore
  | surroundings surroundings =>
    obtain rfl := some.inj h
    exact .passes rfl fun runId item => rfl
  | finalizeAttempt input now =>
    obtain rfl := some.inj h
    refine .passes rfl fun runId item => ?_
    cases hfinal : finalizeAttempt order e.store input now with
    | none => rfl
    | some out =>
      obtain ⟨-, -, hother⟩ := hstore.finalize hfinal
      have hget := hother runId (consumedKey runId item) ⟨item, .inl rfl⟩
      simp only [getConsumedProgressAttempt, map_some, getD_some, hget]
  | startAttempt input now =>
    obtain rfl := some.inj h
    refine .passes rfl fun runId item => ?_
    cases hstart : startAttempt order (hasRun e input.runId) e.store input now with
    | none => rfl
    | some out =>
      rcases startAttempt_cases hstart with ⟨hsame, -⟩ | ⟨-, -, hreserve⟩
      · simp only [map_some, getD_some, hsame]
      · obtain ⟨hrecord, hmetadata, -, -⟩ := reserveAttempt_eq_some hreserve
        have hget : out.1.metadata.get? (runId, consumedKey runId item) =
            e.store.metadata.get? (runId, consumedKey runId item) := by
          rw [Table.get?_insert? hmetadata, if_neg]
          intro heq
          exact attemptKey_ne_other ⟨item, .inl rfl⟩ (congrArg Prod.snd heq)
        simp only [getConsumedProgressAttempt, map_some, getD_some, hget]

/-! ### At most once -/

def Mark.stamp (m : Mark) : Nat × String :=
  (m.createdAt, attemptKey m.runId m.assignmentId m.attemptNumber)

theorem le_refl_stamp (order : ScanOrder) (a : Nat × String) : order.le a a = true := by
  rcases order.total a a with h | h
  · exact h
  · exact h

theorem exists_last_of_filterMap {α β : Type*} {f : α → Option β} {xs : List α} {b : β}
    (hsome : ∀ x ∈ xs, f x ≠ none) (h : (xs.filterMap f).getLast? = some b) :
    ∃ ys x, xs = ys ++ [x] ∧ f x = some b := by
  rcases List.eq_nil_or_concat xs with rfl | ⟨ys, x, hxs⟩
  · cases h
  · rw [List.concat_eq_append] at hxs
    subst hxs
    refine ⟨ys, x, rfl, ?_⟩
    obtain ⟨c, hc⟩ := ne_none_iff_exists'.mp (hsome x (by simp))
    have hend : (ys ++ [x]).filterMap f = ys.filterMap f ++ [c] := by simp [hc]
    rw [hend, List.getLast?_concat] at h
    rw [hc, h]

theorem last_listed {order : ScanOrder} {a : Attempt} (hstore : Consistent store)
    (h : (listAttempts order store runId item).getLast? = some a) :
    ∃ createdAt, a.mark createdAt ∈ marks store ∧ a.runId = runId ∧
      ∀ other ∈ marks store, other.runId = runId → Clashes runId other.assignmentId item →
        order.le other.stamp (a.mark createdAt).stamp = true := by
  let rows := (matchingRows store runId (attemptPattern runId item)).insertionSort
    fun a b => order.le a.stamp b.stamp = true
  have hmem {row : MetadataRow} : row ∈ rows ↔ row ∈ store.metadata.rows ∧
      ∃ b, row.value = .attempt b ∧ b.runId = runId ∧ Clashes runId b.assignmentId item := by
    rw [List.mem_insertionSort, mem_matchingRows hstore]
  have hsome : ∀ row ∈ rows, row.value.attempt? ≠ none := by
    intro row hrow
    obtain ⟨-, b, hb, -⟩ := hmem.mp hrow
    simp [attempt?_eq_some.mpr hb]
  have hstamp {row : MetadataRow} {b : Attempt} (hrow : row ∈ store.metadata.rows)
      (hb : row.value = .attempt b) : (b.mark row.createdAt).stamp = row.stamp := by
    rw [MetadataRow.stamp, (hstore.attempt row hrow b hb).2]
    rfl
  have hsorted : rows.Pairwise fun a b => order.le a.stamp b.stamp = true := by
    have : Std.Total fun a b : MetadataRow => order.le a.stamp b.stamp = true :=
      ⟨fun a b => order.total a.stamp b.stamp⟩
    have : IsTrans MetadataRow fun a b => order.le a.stamp b.stamp = true :=
      ⟨fun a b c => order.trans a.stamp b.stamp c.stamp⟩
    exact List.pairwise_insertionSort _ _
  obtain ⟨earlier, last, hrows, hlast⟩ := exists_last_of_filterMap hsome h
  obtain ⟨hlastMem, b, hb, hrun, -⟩ := hmem.mp
    (hrows ▸ List.mem_append_right earlier (List.mem_singleton_self last))
  obtain rfl := MetadataValue.attempt.inj (hb.symm.trans (attempt?_eq_some.mp hlast))
  refine ⟨last.createdAt, mem_marks.mpr ⟨last, hlastMem, b, hb, rfl⟩, hrun, ?_⟩
  intro other hother hotherRun hclash
  obtain ⟨row, hrow, c, hc, rfl⟩ := mem_marks.mp hother
  have hlisted : row ∈ earlier ++ [last] := hrows ▸ hmem.mpr ⟨hrow, c, hc, hotherRun, hclash⟩
  rw [hstamp hrow hc, hstamp hlastMem hb]
  rcases List.mem_append.mp hlisted with hearlier | hsame
  · rw [hrows] at hsorted
    exact (List.pairwise_append.mp hsorted).2.2 row hearlier last (by simp)
  · obtain rfl := List.mem_singleton.mp hsame
    exact le_refl_stamp order _

/-- Attempts of one item under one number are the same. -/
theorem marks_inj (hstore : Consistent store) {m m' : Mark} (hm : m ∈ marks store)
    (hm' : m' ∈ marks store) (hrun : m.runId = m'.runId) (hitem : m.assignmentId = m'.assignmentId)
    (hnumber : m.attemptNumber = m'.attemptNumber) : m = m' := by
  obtain ⟨row, hrow, a, ha, rfl⟩ := mem_marks.mp hm
  obtain ⟨row', hrow', b, hb, rfl⟩ := mem_marks.mp hm'
  have harun : a.runId = b.runId := hrun
  have haitem : a.assignmentId = b.assignmentId := hitem
  have hanumber : a.attemptNumber = b.attemptNumber := hnumber
  obtain ⟨hid, hkey⟩ := hstore.attempt row hrow a ha
  obtain ⟨hid', hkey'⟩ := hstore.attempt row' hrow' b hb
  have hplace : row.place = row'.place := by
    rw [MetadataRow.place, MetadataRow.place, hid, hkey, hid', hkey', harun, haitem, hanumber]
  have hget := Table.get?_of_mem hrow
  rw [hplace, Table.get?_of_mem hrow'] at hget
  obtain rfl := some.inj hget
  obtain rfl := MetadataValue.attempt.inj (ha.symm.trans hb)
  rfl

/-- The attempt that the call would judge is one of the item's own. -/
def JudgesOwn (order : ScanOrder) (e : Engine) : Call → Prop
  | .evaluate input _ _ =>
    ∀ judged ∈ judged? order e input.runId, judged.2.assignmentId = judged.1
  | _ => True

instance (order : ScanOrder) (e : Engine) (call : Call) : Decidable (JudgesOwn order e call) :=
  match call with
  | .evaluate input _ _ => inferInstanceAs
      (Decidable (∀ judged ∈ judged? order e input.runId, judged.2.assignmentId = judged.1))
  | .startAttempt _ _ | .finalizeAttempt _ _ | .surroundings _ => isTrue trivial

/-- The item's attempt of that number has been confirmed, and will not be again: it is the one
marked, or one listed later has been. -/
def Spent (order : ScanOrder) (runId item : String) (n : Nat) (e : Engine) : Prop :=
  ∃ m ∈ marks e.store, m.runId = runId ∧ m.assignmentId = item ∧ m.attemptNumber = n ∧
    (getConsumedProgressAttempt e.store runId item = some n ∨
      ∃ later ∈ marks e.store, later.runId = runId ∧ later.assignmentId = item ∧
        later.attemptNumber ≠ n ∧ order.le m.stamp later.stamp = true)

theorem exists_step (order : ScanOrder) (e : Engine) (call : Call) :
    ∃ e', step order e call = some e' := by
  cases call with
  | evaluate input version now => exact ⟨_, rfl⟩
  | startAttempt input now => exact ⟨_, rfl⟩
  | finalizeAttempt input now => exact ⟨_, rfl⟩
  | surroundings surroundings => exact ⟨_, rfl⟩

section Once

variable {order : ScanOrder} {e e' : Engine} {call : Call} {c : Confirmation}

variable {runId item : String}

theorem judged?_eq_some {a : Attempt} (h : judged? order e runId = some (item, a)) :
    (listAttempts order e.store runId item).getLast? = some a := by
  obtain ⟨snapshot, -, hlast⟩ := bind_eq_some_iff.mp h
  obtain ⟨b, hb, heq⟩ := map_eq_some_iff.mp hlast
  obtain ⟨rfl, rfl⟩ := Prod.mk.inj heq
  exact hb

theorem confirmation_judged (h : confirmation order e call = some c) :
    judged? order e c.runId = some (c.workItem, c.judged) := by
  cases call with
  | evaluate input version now =>
    simp only [confirmation] at h
    split_ifs at h
    obtain ⟨⟨item, a⟩, hjudged, rfl⟩ := map_eq_some_iff.mp h
    exact hjudged
  | startAttempt input now => cases h
  | finalizeAttempt input now => cases h
  | surroundings surroundings => cases h

theorem JudgesOwn.owner (hown : JudgesOwn order e call) (h : confirmation order e call = some c) :
    c.judged.assignmentId = c.workItem := by
  cases call with
  | evaluate input version now =>
    have hjudged := confirmation_judged h
    simp only [confirmation] at h
    split_ifs at h
    obtain ⟨⟨item, a⟩, -, rfl⟩ := map_eq_some_iff.mp h
    exact hown (item, a) hjudged
  | startAttempt input now => cases h
  | finalizeAttempt input now => cases h
  | surroundings surroundings => cases h

theorem confirmed_last (hstore : Consistent e.store) (hown : JudgesOwn order e call)
    (h : confirmation order e call = some c) : ∃ m ∈ marks e.store, m.runId = c.runId ∧
      m.assignmentId = c.workItem ∧ m.attemptNumber = c.judged.attemptNumber ∧
      ∀ other ∈ marks e.store, other.runId = c.runId → other.assignmentId = c.workItem →
        order.le other.stamp m.stamp = true := by
  obtain ⟨createdAt, hmem, hrun, hlast⟩ :=
    last_listed hstore (judged?_eq_some (confirmation_judged h))
  refine ⟨_, hmem, hrun, hown.owner h, rfl, fun other hother hotherRun hitem => ?_⟩
  apply hlast other hother hotherRun
  rw [hitem]
  exact clashes_self c.runId c.workItem

theorem spent_unconfirmed {n : Nat} (hstore : Consistent e.store) (hown : JudgesOwn order e call)
    (hspent : Spent order runId item n e) (h : confirmation order e call = some c)
    (hstep : AttemptStore.step order e call = some e') :
    (c.runId, c.workItem, c.judged.attemptNumber) ≠ (runId, item, n) := by
  intro heq
  simp only [Prod.mk.injEq] at heq
  obtain ⟨rfl, rfl, rfl⟩ := heq
  obtain ⟨m, hm, hrun, hitem, hnumber, hconfirmed⟩ := hspent
  rcases hconfirmed with hmarked | ⟨later, hlater, hlaterRun, hlaterItem, hlaterNumber, hle⟩
  · rcases hstore.judges hstep with ⟨d, hd, -, hunmarked, -⟩ | ⟨hnone, -⟩
    · obtain rfl := some.inj (hd.symm.trans h)
      exact hunmarked hmarked
    · rw [hnone] at h
      cases h
  · obtain ⟨last, hlast, hlastRun, hlastItem, hlastNumber, hbehind⟩ := confirmed_last hstore hown h
    -- the attempt confirmed is the last one, and the later one stands behind it
    have hsame : m = last := by
      apply marks_inj hstore hm hlast
      · rw [hrun, hlastRun]
      · rw [hitem, hlastItem]
      · rw [hnumber, hlastNumber]
    have hback := hbehind later hlater hlaterRun hlaterItem
    rw [← hsame] at hback
    have hkeys := congrArg Prod.snd (order.antisymm _ _ hle hback)
    simp only [Mark.stamp, hrun, hitem, hlaterRun, hlaterItem] at hkeys
    exact hlaterNumber ((attemptKey_inj hkeys).2.symm.trans hnumber)

theorem step_marks_subset {m : Mark} (hstore : Consistent e.store)
    (hstep : AttemptStore.step order e call = some e') (hm : m ∈ marks e.store) :
    m ∈ marks e'.store := by
  rcases (step_marks hstore hstep).2 with ⟨input, now, -, -, hmarks⟩ | ⟨-, hmarks⟩
  · rw [hmarks]
    exact List.mem_append_left _ hm
  · rw [hmarks]
    exact hm

theorem Spent.step {runId item : String} {n : Nat} (hstore : Consistent e.store)
    (hown : JudgesOwn order e call) (hstep : AttemptStore.step order e call = some e')
    (hspent : Spent order runId item n e) : Spent order runId item n e' := by
  obtain ⟨m, hm, hrun, hitem, hnumber, hconfirmed⟩ := hspent
  have hkept {m : Mark} := step_marks_subset (m := m) hstore hstep
  refine ⟨m, hkept hm, hrun, hitem, hnumber, ?_⟩
  rcases hconfirmed with hmarked | ⟨later, hlater, hrest⟩
  · rcases hstore.judges hstep with ⟨c, hc, -, hunmarked, hmarks⟩ | ⟨-, hmarks⟩
    · by_cases hsame : runId = c.runId ∧ item = c.workItem
      · obtain ⟨hsameRun, hsameItem⟩ := hsame
        obtain ⟨last, hlast, hlastRun, hlastItem, hlastNumber, hbehind⟩ :=
          confirmed_last hstore hown hc
        refine .inr ⟨last, hkept hlast, hlastRun.trans hsameRun.symm,
          hlastItem.trans hsameItem.symm, ?_, ?_⟩
        · intro heq
          rw [hsameRun, hsameItem] at hmarked
          exact hunmarked (by rw [hmarked, ← heq, hlastNumber])
        · exact hbehind m hm (hrun.trans hsameRun) (hitem.trans hsameItem)
      · exact .inl (by rw [hmarks, if_neg hsame, hmarked])
    · exact .inl (by rw [hmarks, hmarked])
  · exact .inr ⟨later, hkept hlater, hrest⟩

theorem spends (hstore : Consistent e.store) (hown : JudgesOwn order e call)
    (hstep : AttemptStore.step order e call = some e') (h : confirmation order e call = some c) :
    Spent order c.runId c.workItem c.judged.attemptNumber e' := by
  obtain ⟨last, hlast, hrun, hitem, hnumber, -⟩ := confirmed_last hstore hown h
  refine ⟨last, step_marks_subset hstore hstep hlast, hrun, hitem, hnumber, .inl ?_⟩
  rcases hstore.judges hstep with ⟨d, hd, -, -, hmarks⟩ | ⟨hnone, -⟩
  · obtain rfl := some.inj (hd.symm.trans h)
    rw [hmarks, if_pos ⟨rfl, rfl⟩]
  · rw [hnone] at h
    cases h

end Once

def Confirmation.decided (c : Confirmation) : String × String × Nat :=
  (c.runId, c.workItem, c.judged.attemptNumber)

def Confirmation.recorded (c : Confirmation) : String × String × Nat :=
  (c.runId, c.judged.assignmentId, c.judged.attemptNumber)

/-- How often a run of calls confirms a triple. -/
def timesConfirmed (order : ScanOrder) (key : Confirmation → String × String × Nat)
    (triple : String × String × Nat) (e : Engine) (calls : List Call) : Nat :=
  tally (step order)
    (fun e call => if (confirmation order e call).map key = some triple then 1 else 0) e calls

/-- In every run of calls from an empty store whose evaluations judge the items' own attempts, the
progress that an attempt made is confirmed once at most. -/
theorem progress_confirmed_at_most_once {order : ScanOrder} {db : Database} {calls : List Call}
    (h : Along (step order) (JudgesOwn order) ⟨db, emptyStore⟩ calls)
    (triple : String × String × Nat) :
    timesConfirmed order Confirmation.decided triple ⟨db, emptyStore⟩ calls ≤ 1 ∧
      timesConfirmed order Confirmation.recorded triple ⟨db, emptyStore⟩ calls ≤ 1 := by
  obtain ⟨runId, item, n⟩ := triple
  have hstart : Consistent emptyStore := (Recorded.empty db).consistent
  have hkept : ∀ e call e', Consistent e.store → JudgesOwn order e call →
      step order e call = some e' → Consistent e'.store :=
    fun e call e' he _ hstep => (step_marks he hstep).1
  have hspent : ∀ e call e', Consistent e.store ∧ Spent order runId item n e →
      JudgesOwn order e call → step order e call = some e' →
        Consistent e'.store ∧ Spent order runId item n e' :=
    fun e call e' he hown hstep =>
      ⟨(step_marks he.1 hstep).1, he.2.step he.1 hown hstep⟩
  have hzero : ∀ e call, Consistent e.store ∧ Spent order runId item n e →
      JudgesOwn order e call →
        (if (confirmation order e call).map Confirmation.decided = some (runId, item, n)
          then 1 else 0) = 0 := by
    intro e call he hown
    apply if_neg
    intro heq
    obtain ⟨c, hc, hkey⟩ := map_eq_some_iff.mp heq
    obtain ⟨e', hstep⟩ := exists_step order e call
    exact spent_unconfirmed he.1 hown he.2 hc hstep hkey
  have hspend : ∀ e call e', Consistent e.store → JudgesOwn order e call →
      step order e call = some e' →
        (if (confirmation order e call).map Confirmation.decided = some (runId, item, n)
          then 1 else 0) ≠ 0 → Spent order runId item n e' := by
    intro e call e' he hown hstep hne
    obtain ⟨c, hc, hkey⟩ := map_eq_some_iff.mp (ite_ne_right_iff.mp hne).1
    have hspends := spends he hown hstep hc
    simp only [Confirmation.decided, Prod.mk.injEq] at hkey
    obtain ⟨rfl, rfl, rfl⟩ := hkey
    exact hspends
  have hone : ∀ (key : Confirmation → String × String × Nat) e call,
      (if (confirmation order e call).map key = some (runId, item, n) then 1 else 0) ≤ 1 := by
    intro key e call
    split_ifs <;> omega
  have hdecided := h.tally_le_one hkept hspent hzero (hone _) hspend hstart
  have hsame : ∀ e call, Consistent e.store → JudgesOwn order e call →
      (if (confirmation order e call).map Confirmation.recorded = some (runId, item, n)
        then 1 else 0) =
      if (confirmation order e call).map Confirmation.decided = some (runId, item, n)
        then 1 else 0 := by
    intro e call _ hown
    cases hc : confirmation order e call with
    | none => rfl
    | some c =>
      have hkeys : c.recorded = c.decided := by
        rw [Confirmation.recorded, Confirmation.decided, hown.owner hc]
      rw [map_some, map_some, hkeys]
  refine ⟨hdecided, ?_⟩
  have hrecorded := h.tally_congr hkept hsame hstart
  exact hrecorded.trans_le hdecided

def itemRow (id : String) (status : ChildExecution.StoredAssignmentStatus) :
    ChildExecution.AssignmentRow := ⟨id, "r", "coder", "", status, true⟩

theorem itemRows_unique (first second : ChildExecution.StoredAssignmentStatus) :
    ([itemRow "a" first, itemRow "a:b" second].map (·.id)).Nodup := by
  simp [itemRow]

/-- The items `a` and `a:b` of the run. -/
def twoItems (first second : ChildExecution.StoredAssignmentStatus) : Surroundings :=
  { RunService.exampleSurroundings with
    assignments := ⟨[itemRow "a" first, itemRow "a:b" second], itemRows_unique first second⟩ }

def finalOf (item : String) (n : Nat) : FinalizeInput where
  runId := "r"
  assignmentId := item
  attemptNumber := n
  finishedAt := "t"
  progressProduced := true

def progress (item callID : String) (n now : Nat) : List Call :=
  [.startAttempt (startOf item callID) now, .finalizeAttempt (finalOf item n) now]

def evaluateAt (now : Nat) : Call := .evaluate ⟨"r", none, none⟩ 0 now

/-- One attempt on `a`, evaluated twice. -/
def confirmedOnce : List Call :=
  .surroundings (twoItems .running .pending) :: progress "a" "c1" 1 1 ++
    [evaluateAt 1, evaluateAt 2]

theorem one_attempt_confirmed_once :
    timesConfirmed (keyOrder false) Confirmation.decided ("r", "a", 1) ⟨oneRun, emptyStore⟩
        confirmedOnce ≤ 1 ∧
      timesConfirmed (keyOrder false) Confirmation.recorded ("r", "a", 1) ⟨oneRun, emptyStore⟩
        confirmedOnce ≤ 1 := by
  apply progress_confirmed_at_most_once
  refine .cons trivial rfl (.cons trivial rfl (.cons trivial rfl ?_))
  exact .cons (by decide +kernel) rfl (.cons (by decide +kernel) rfl trivial)

/-- After two attempts on `a`, the first of `a:b` is judged for `a`, as its first one; then it is
judged for its own item. -/
def confirmedTwice : List Call :=
  .surroundings (twoItems .running .pending) :: progress "a" "c1" 1 1 ++ [evaluateAt 1] ++
    progress "a" "c2" 2 2 ++ [evaluateAt 2] ++ progress "a:b" "c3" 1 3 ++ [evaluateAt 3] ++
    [.surroundings (twoItems .completed .running), evaluateAt 4]

theorem prefix_attempt_confirmed_twice :
    timesConfirmed (keyOrder false) Confirmation.decided ("r", "a", 1) ⟨oneRun, emptyStore⟩
        confirmedTwice = 2 ∧
      timesConfirmed (keyOrder false) Confirmation.recorded ("r", "a:b", 1) ⟨oneRun, emptyStore⟩
        confirmedTwice = 2 := by
  decide +kernel

end AttemptStore
