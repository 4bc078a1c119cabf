import FlowDeck.Orchestration.AttemptRows
import FlowDeck.Orchestration.VerificationEntry

/-! Runs of evaluations, starts and finalizations over the rows of the transition engine. -/

namespace AttemptStore

open Orchestration RunStore Snapshot TransitionEngine VerificationEntry

/-- The tables of the runs, and the rows that the engine keeps. -/
structure Engine where
  db : Database
  store : Store

/-- The calls of the engine; between them the other services change what is theirs. -/
inductive Call
  | evaluate (input : EvaluateInput) (meaningfulStateVersion now : Nat)
  | startAttempt (input : StartInput) (now : Nat)
  | finalizeAttempt (input : FinalizeInput) (now : Nat)
  | surroundings (surroundings : Surroundings)

def writeAll (store : Store) (runId : String) (now : Nat) (writes : List MetadataWrite) :
    Option Store :=
  writes.foldlM (fun store w => write store runId now w) store

/-- `evaluate`, with what it writes; a refused write leaves the rows and gives no decision. -/
def evaluateRun (order : ScanOrder) (e : Engine) (input : EvaluateInput)
    (meaningfulStateVersion now : Nat) : Engine × Option TransitionEvaluationResult :=
  let records := itemRecords order e.store meaningfulStateVersion input.runId
  let performed := perform e.db (TransitionEngine.evaluate e.db input records)
  match writeAll e.store input.runId now performed.2.writes with
  | some store => (⟨performed.1, store⟩, some performed.2.result)
  | none => (⟨performed.1, e.store⟩, none)

def hasRun (e : Engine) (runId : String) : Bool := (e.db.taskRuns.get? runId).isSome

def step (order : ScanOrder) (e : Engine) : Call → Option Engine
  | .evaluate input version now => some (evaluateRun order e input version now).1
  | .startAttempt input now =>
    some { e with store :=
      ((startAttempt order (hasRun e input.runId) e.store input now).map (·.1)).getD e.store }
  | .finalizeAttempt input now =>
    some { e with store := ((finalizeAttempt order e.store input now).map (·.1)).getD e.store }
  | .surroundings surroundings => some { e with db := { e.db with surroundings } }

variable {store : Store} {now : Nat} {order : ScanOrder} {e : Engine}

/-- The writes of an evaluation are about its item: of the attempts, they touch none. -/
theorem Consistent.write {store' : Store} {runId : String} {w : MetadataWrite}
    (hstore : Consistent store) (h : AttemptStore.write store runId now w = some store') :
    Writes store store' := by
  cases w with
  | saveStrategyConstraint item action state reason => exact (hstore.putConstraints h).1
  | markConsumedProgressAttempt item n => exact (hstore.markConsumed h).1
  | clearStrategyConstraint item =>
    simp only [AttemptStore.write, clearStrategyConstraint] at h
    split at h
    · obtain rfl := Option.some.inj h
      exact ⟨hstore, rfl⟩
    · exact (hstore.putConstraints h).1

theorem Consistent.writeAll {store' : Store} {runId : String} {writes : List MetadataWrite}
    (hstore : Consistent store) (h : AttemptStore.writeAll store runId now writes = some store') :
    Writes store store' := by
  induction writes generalizing store with
  | nil =>
    obtain rfl := Option.some.inj h
    exact ⟨hstore, rfl⟩
  | cons w writes ih =>
    simp only [AttemptStore.writeAll, List.foldlM_cons, Option.bind_eq_bind,
      Option.bind_eq_some_iff] at h
    obtain ⟨next, hnext, hrest⟩ := h
    have hfirst := hstore.write hnext
    have hlast := ih hfirst.consistent hrest
    exact ⟨hlast.consistent, hlast.marks.trans hfirst.marks⟩

theorem evaluateRun_writes {input : EvaluateInput} {version : Nat} (hstore : Consistent e.store) :
    Writes e.store (evaluateRun order e input version now).1.store := by
  simp only [evaluateRun]
  split
  · next store hstore' => exact hstore.writeAll hstore'
  · exact ⟨hstore, rfl⟩

/-- The call starts a new attempt: its id is not taken by a call, and the rows take the attempt. -/
structure Creates (order : ScanOrder) (e : Engine) (input : StartInput) : Prop where
  fresh : startedByCall e.store input.callID = none
  run : hasRun e input.runId = true
  id : ∀ row ∈ e.store.metadata.rows, row.id ≠ attemptRowId input.runId input.assignmentId
    (nextAttemptNumber order e.store input.runId input.assignmentId)

theorem Consistent.startedByCall (hstore : Consistent store) {callID : String} {call : CallRow}
    (h : store.calls.get? callID = some call) :
    ∃ a, AttemptStore.startedByCall store callID = some a := by
  obtain ⟨row, hrow, a, ha, hrun, hitem, hnumber⟩ := hstore.kept call (Table.mem_of_get? h)
  obtain ⟨hid, hkey⟩ := hstore.attempt row hrow a ha
  have hplace : row.place = (call.runId, attemptKey call.runId call.assignmentId
      call.attemptNumber) := by
    rw [MetadataRow.place, hid, hkey, hrun, hitem, hnumber]
  have hget := Table.get?_of_mem hrow
  rw [hplace] at hget
  refine ⟨a, ?_⟩
  simp [AttemptStore.startedByCall, getAttempt, h, hget, ha, MetadataValue.attempt?]

theorem Consistent.next_fresh (hstore : Consistent store) {row : MetadataRow}
    (hrow : row ∈ store.metadata.rows) {a : Attempt} (ha : row.value = .attempt a) :
    a.attemptNumber < nextAttemptNumber order store a.runId a.assignmentId := by
  apply lt_nextAttemptNumber
  apply mem_listAttempts.mpr
  refine ⟨row, (mem_matchingRows hstore).mpr ⟨hrow, a, ha, rfl, ?_⟩, ha⟩
  exact clashes_self a.runId a.assignmentId

theorem Creates.reserve {input : StartInput} (h : Creates order e input) (now : Nat)
    (hstore : Consistent e.store) :
    ∃ store', reserveAttempt e.store input
      (nextAttemptNumber order e.store input.runId input.assignmentId) now =
        some (store', input.record
          (nextAttemptNumber order e.store input.runId input.assignmentId)) := by
  have hplace : e.store.metadata.get? ((input.record (nextAttemptNumber order e.store input.runId
      input.assignmentId)).row now).place = none := by
    apply Table.get?_eq_none_iff.mpr
    intro row hrow heq
    cases hvalue : row.value.attempt? with
    | none =>
      have hkey := hstore.other row hrow hvalue
      exact attemptKey_ne_other hkey (congrArg Prod.snd heq).symm
    | some a =>
      have ha := attempt?_eq_some.mp hvalue
      obtain ⟨hrun, hkey⟩ := hstore.attempt row hrow a ha
      obtain ⟨hid, hsame⟩ := Prod.mk.inj heq
      have harun : a.runId = input.runId := hrun.symm.trans hid
      have hnames := hkey.symm.trans hsame
      rw [harun] at hnames
      obtain ⟨hitem, hnumber⟩ := attemptKey_inj hnames
      have hlt : a.attemptNumber < nextAttemptNumber order e.store a.runId a.assignmentId :=
        hstore.next_fresh hrow ha
      rw [harun, hitem, hnumber] at hlt
      exact lt_irrefl _ hlt
  have hcall : e.store.calls.get? input.callID = none := by
    by_contra hsome
    obtain ⟨call, hcall⟩ := Option.ne_none_iff_exists'.mp hsome
    obtain ⟨a, ha⟩ := hstore.startedByCall hcall
    simp [h.fresh] at ha
  obtain ⟨metadata, hmetadata⟩ := Table.exists_insert? hplace
  obtain ⟨calls, hcalls⟩ := Table.exists_insert?
    (r := input.call (nextAttemptNumber order e.store input.runId input.assignmentId)) hcall
  have hinsert : insertRow e.store.metadata ((input.record (nextAttemptNumber order e.store
      input.runId input.assignmentId)).row now) = some metadata := by
    rw [insertRow, if_neg, hmetadata]
    intro hany
    obtain ⟨row, hrow, hid⟩ := List.any_eq_true.mp hany
    exact h.id row hrow (of_decide_eq_true hid)
  refine ⟨⟨metadata, calls⟩, ?_⟩
  simp only [reserveAttempt, hinsert, hcalls, Option.bind_eq_bind, Option.bind_some, pure]

def newMark (order : ScanOrder) (e : Engine) (input : StartInput) (now : Nat) : Mark :=
  ⟨input.runId, input.assignmentId,
    nextAttemptNumber order e.store input.runId input.assignmentId, input.callID, now⟩

theorem step_marks {e' : Engine} {call : Call} (hstore : Consistent e.store)
    (h : step order e call = some e') :
    Consistent e'.store ∧
      ((∃ input now, call = .startAttempt input now ∧ Creates order e input ∧
          marks e'.store = marks e.store ++ [newMark order e input now]) ∨
        (∀ input now, call = .startAttempt input now → ¬Creates order e input) ∧
          marks e'.store = marks e.store) := by
  cases call with
  | evaluate input version now =>
    obtain rfl := Option.some.inj h
    have hwrites : Writes e.store (evaluateRun order e input version now).1.store :=
      evaluateRun_writes hstore
    exact ⟨hwrites.consistent, .inr ⟨by simp, hwrites.marks⟩⟩
  | surroundings surroundings =>
    obtain rfl := Option.some.inj h
    exact ⟨hstore, .inr ⟨by simp, rfl⟩⟩
  | finalizeAttempt input now =>
    obtain rfl := Option.some.inj h
    cases hfinal : finalizeAttempt order e.store input now with
    | none => exact ⟨hstore, .inr ⟨by simp, rfl⟩⟩
    | some out =>
      obtain ⟨hconsistent, hmarks, -⟩ := hstore.finalize hfinal
      exact ⟨hconsistent, .inr ⟨by simp, hmarks⟩⟩
  | startAttempt input now =>
    obtain rfl := Option.some.inj h
    by_cases hcreates : Creates order e input
    · obtain ⟨store', hreserve⟩ := hcreates.reserve now hstore
      obtain ⟨hconsistent, hmarks⟩ := hstore.reserve hreserve
      have hstart : startAttempt order (hasRun e input.runId) e.store input now =
          some (store', input.record (nextAttemptNumber order e.store input.runId
            input.assignmentId)) := by
        simp [startAttempt, hcreates.fresh, hcreates.run, hreserve]
      simp only [hstart]
      exact ⟨hconsistent, .inl ⟨input, now, rfl, hcreates, hmarks⟩⟩
    · have hleft : ((startAttempt order (hasRun e input.runId) e.store input now).map
          (·.1)).getD e.store = e.store := by
        cases hstart : startAttempt order (hasRun e input.runId) e.store input now with
        | none => rfl
        | some out =>
          rcases startAttempt_cases hstart with ⟨hsame, -⟩ | ⟨hfresh, hrun, hreserve⟩
          · exact hsame
          · obtain ⟨hrecord, -, -, hid⟩ := reserveAttempt_eq_some hreserve
            rw [hrecord] at hid
            exact absurd ⟨hfresh, hrun, hid⟩ hcreates
      rw [hleft]
      refine ⟨hstore, .inr ⟨fun input' now' heq => ?_, rfl⟩⟩
      obtain ⟨rfl, -⟩ := Call.startAttempt.inj heq
      exact hcreates

end AttemptStore
