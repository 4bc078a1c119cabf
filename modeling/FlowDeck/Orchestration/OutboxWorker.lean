import FlowDeck.Library.Machine
import FlowDeck.Orchestration.DeliverySink

namespace OutboxWorker

open DeliverySink Machine Option

structure OutboxWorkerOptions where
  workerId : String
  batchSize : Nat := 20
  leaseSeconds : Nat := 60

/-- What `processBatch` counts up and returns. -/
structure BatchResult where
  processed : Nat
  failed : Nat
  deriving DecidableEq

structure OrchestrationEvent where
  id : String
  type : String
  correlationId : String
  causationId : String
  aggregateId : String
  aggregateVersion : Nat
  data : Payload
  deriving DecidableEq

/-- Where a worker stands in `processBatch`, between two awaits. -/
inductive WorkerState
  | idle
  | batch (records : List DeliveryRecord) (result : BatchResult)
  | publishing (event : OrchestrationEvent) (record : DeliveryRecord)
      (rest : List DeliveryRecord) (result : BatchResult)
  | delivering (record : DeliveryRecord) (rest : List DeliveryRecord) (result : BatchResult)
  | malformed (record : DeliveryRecord) (error : String) (rest : List DeliveryRecord)
      (result : BatchResult)
  | failing (record : DeliveryRecord) (error : LastError) (rest : List DeliveryRecord)
      (result : BatchResult)

inductive Move
  | processBatch (nowSeconds : Nat)
  | nextRecord (parseError : LastError)
  | published
  | publishThrew (error : LastError)
  | markDelivered
  | markDeliveredThrew (error : LastError)
  | markFailed
  | markFailedThrew (error : LastError)
  | crash

def includes (text fragment : String) : Bool :=
  decide (fragment.toList <:+: text.toList)

def isDecodeError (message : String) : Bool :=
  let lower := message.toLower
  includes lower "decode" || includes lower "unexpected token" || includes lower "json" ||
    includes lower "parse" || includes lower "malformed" || includes lower "unexpected end"

/-- The payload as the event carries it; `none` where `JSON.parse` throws on a string payload. -/
def eventData : Payload → Option Payload
  | .string (.malformed _) => none
  | .string content => some (payloadOf (some content))
  | payload => some payload

def toEvent (record : DeliveryRecord) : Option OrchestrationEvent :=
  (eventData record.payload).map fun data =>
    { id := record.eventId
      type := record.eventType
      correlationId := record.correlationId
      causationId := record.correlationId
      aggregateId := record.aggregateId
      aggregateVersion := 1
      data }

def BatchResult.countProcessed (result : BatchResult) : BatchResult :=
  { result with processed := result.processed + 1 }

def BatchResult.countFailed (result : BatchResult) : BatchResult :=
  { result with failed := result.failed + 1 }

/-- The body of the loop up to its first await. -/
def nextRecord (records : List DeliveryRecord) (result : BatchResult) (parseError : LastError) :
    WorkerState :=
  match records with
  | [] => .idle
  | record :: rest =>
    if record.status = .delivered then .batch rest result.countProcessed
    else
      match record.lastError.filter isDecodeError with
      | some error => .malformed record error rest result.countFailed
      | none =>
        match toEvent record with
        | some event => .publishing event record rest result
        | none => .failing record parseError rest result.countFailed

/-- One segment of `processBatch`; the audit tables it also writes are left out. -/
def workerStep (options : OutboxWorkerOptions) (outbox : Outbox) :
    WorkerState → Move → Option (Outbox × WorkerState)
  | .idle, .processBatch nowSeconds =>
    let (outbox', claimed) :=
      claimDue options.workerId nowSeconds options.batchSize options.leaseSeconds outbox
    some (outbox', .batch claimed { processed := 0, failed := 0 })
  | .batch records result, .nextRecord parseError =>
    some (outbox, nextRecord records result parseError)
  | .publishing _ record rest result, .published => some (outbox, .delivering record rest result)
  | .publishing _ record rest result, .publishThrew error =>
    some (outbox, .failing record error rest result.countFailed)
  | .delivering record rest result, .markDelivered =>
    some ((markDelivered record.id (some record.idempotencyKey) outbox).1,
      .batch rest result.countProcessed)
  | .delivering record rest result, .markDeliveredThrew error =>
    some (outbox, .failing record error rest result.countFailed)
  | .malformed record error rest result, .markFailed =>
    some (markFailed record.id (record.attemptCount + 1) (.text error) record.maxRetries outbox,
      .batch rest result)
  | .malformed record _ rest result, .markFailedThrew error =>
    some (outbox, .failing record error rest result.countFailed)
  | .failing record error rest result, .markFailed =>
    some (markFailed record.id (record.attemptCount + 1) error record.maxRetries outbox,
      .batch rest result)
  | .failing _ _ _ _, .markFailedThrew _ => some (outbox, .idle)
  | _, .crash => some (outbox, .idle)
  | _, _ => none

/-- The shared table and every worker process. -/
structure State where
  outbox : Outbox
  workers : Nat → WorkerState

inductive Action
  | worker (w : Nat) (move : Move)
  | requeueExpiredLeases (nowSeconds : Nat)
  | enqueue (row : OutboxRow)

def step (options : Nat → OutboxWorkerOptions) (s : State) : Action → Option State
  | .worker w move =>
    (workerStep (options w) s.outbox (s.workers w) move).map fun (outbox, worker) =>
      { outbox, workers := Function.update s.workers w worker }
  | .requeueExpiredLeases nowSeconds =>
    some { s with outbox := (requeueExpiredLeases nowSeconds s.outbox).1 }
  | .enqueue row =>
    if row.status = .pending then
      (s.outbox.insert? row).map fun outbox => { s with outbox }
    else none

/-- Every delivered entry of the first table is delivered in the second. -/
def DeliveredStays (outbox outbox' : Outbox) : Prop :=
  ∀ id, statusOf outbox id = some .delivered → statusOf outbox' id = some .delivered

def failedRecord : WorkerState → Option DeliveryRecord
  | .malformed record _ _ _ => some record
  | .failing record _ _ _ => some record
  | _ => none

def ReportsUndelivered (s : State) : Action → Prop
  | .worker w .markFailed =>
    ∀ record, failedRecord (s.workers w) = some record →
      statusOf s.outbox record.id ≠ some .delivered
  | _ => True

theorem DeliveredStays.refl (outbox : Outbox) : DeliveredStays outbox outbox := fun _ h => h

theorem DeliveredStays.trans {a b c : Outbox} (hab : DeliveredStays a b)
    (hbc : DeliveredStays b c) : DeliveredStays a c := fun id h => hbc id (hab id h)

theorem statusOf_eq_some {outbox : Outbox} {id : String} {status : DeliveryStatus}
    (h : statusOf outbox id = some status) :
    ∃ row, outbox.get? id = some row ∧ row.status = status :=
  map_eq_some_iff.mp h

theorem update_deliveredStays (outbox : Outbox) {p : OutboxRow → Bool} {f : OutboxRow → OutboxRow}
    (hf : ∀ row, (f row).id = row.id)
    (hp : ∀ row, row.status = .delivered → p row = true → (f row).status = .delivered) :
    DeliveredStays outbox (outbox.update p f hf) := by
  intro id h
  obtain ⟨row, hrow, hstatus⟩ := statusOf_eq_some h
  have hset : (Table.setWhere p f row).status = .delivered := by
    unfold Table.setWhere
    split_ifs with hq
    · exact hp row hstatus hq
    · exact hstatus
  simp [statusOf, hrow, hset]

theorem claimDue_deliveredStays (workerId : String) (nowSeconds batchSize leaseSeconds : Nat)
    (outbox : Outbox) :
    DeliveredStays outbox (claimDue workerId nowSeconds batchSize leaseSeconds outbox).1 := by
  intro id h
  obtain ⟨row, hrow, hstatus⟩ := statusOf_eq_some h
  have hdue : id ∉ dueIds nowSeconds batchSize outbox := by
    intro hmem
    obtain ⟨row', hrow', hclaim⟩ := mem_dueIds hmem
    obtain rfl : row = row' := some.inj (hrow.symm.trans hrow')
    simp [claimable, hstatus] at hclaim
  rw [statusOf, claimDue_get?, hrow]
  simp [hdue, hstatus]

theorem markDelivered_deliveredStays (id : String) (idempotencyKey : Option String)
    (outbox : Outbox) : DeliveredStays outbox (markDelivered id idempotencyKey outbox).1 := by
  unfold markDelivered
  extract_lets alreadyDelivered touched
  split_ifs
  · exact DeliveredStays.refl outbox
  · exact update_deliveredStays outbox setDelivered_id fun _ _ _ => rfl

theorem requeueExpiredLeases_deliveredStays (nowSeconds : Nat) (outbox : Outbox) :
    DeliveredStays outbox (requeueExpiredLeases nowSeconds outbox).1 := by
  refine update_deliveredStays outbox requeue_id ?_
  intro row hstatus hq
  simp [hstatus] at hq

theorem insert_deliveredStays {outbox outbox' : Outbox} {row : OutboxRow}
    (h : outbox.insert? row = some outbox') : DeliveredStays outbox outbox' := by
  intro id hid
  obtain ⟨row', hrow', hstatus⟩ := statusOf_eq_some hid
  simp [statusOf, Table.get?_insert?_of_some h hrow', hstatus]

theorem nextStatus_ne_delivered (attemptCount maxRetries : Nat) :
    nextStatus attemptCount maxRetries ≠ .delivered := by
  unfold nextStatus
  split_ifs <;> decide

theorem markFailed_statusOf_self {id : String} {outbox : Outbox} {status : DeliveryStatus}
    (h : statusOf outbox id = some status) (attemptCount : Nat) (lastError : LastError)
    (maxRetries : Nat) :
    statusOf (markFailed id attemptCount lastError maxRetries outbox) id =
      some (nextStatus attemptCount maxRetries) := by
  obtain ⟨row, hrow, -⟩ := statusOf_eq_some h
  have hid : row.id = id := Table.key_of_get? hrow
  rw [statusOf, markFailed, Table.get?_update, hrow, map_some, Table.setWhere_pos]
  · rfl
  · simpa using hid

theorem markFailed_statusOf_of_ne {id id' : String} (hne : id' ≠ id) (attemptCount : Nat)
    (lastError : LastError) (maxRetries : Nat) (outbox : Outbox) :
    statusOf (markFailed id attemptCount lastError maxRetries outbox) id' =
      statusOf outbox id' := by
  rw [statusOf, markFailed, Table.get?_update]
  cases hrow : outbox.get? id' with
  | none => simp [statusOf, hrow]
  | some row =>
    have hid : row.id = id' := Table.key_of_get? hrow
    rw [map_some, Table.setWhere_neg, statusOf, hrow]
    simpa [hid] using hne

/-- A failure report keeps delivered entries delivered exactly when its own entry is not one. -/
theorem markFailed_deliveredStays_iff (id : String) (attemptCount : Nat) (lastError : LastError)
    (maxRetries : Nat) (outbox : Outbox) :
    DeliveredStays outbox (markFailed id attemptCount lastError maxRetries outbox) ↔
      statusOf outbox id ≠ some .delivered := by
  constructor
  · intro h hdelivered
    have hkept := h id hdelivered
    rw [markFailed_statusOf_self hdelivered] at hkept
    exact nextStatus_ne_delivered _ _ (some.inj hkept)
  · intro h id' hdelivered
    have hne : id' ≠ id := fun he => h (he ▸ hdelivered)
    rw [markFailed_statusOf_of_ne hne]
    exact hdelivered

variable {options : OutboxWorkerOptions} {outbox outbox' : Outbox} {worker worker' : WorkerState}

/-- Every segment but a failure report keeps delivered entries delivered. -/
theorem workerStep_deliveredStays {move : Move} (hmove : move ≠ .markFailed)
    (h : workerStep options outbox worker move = some (outbox', worker')) :
    DeliveredStays outbox outbox' := by
  cases move with
  | markFailed => exact absurd rfl hmove
  | processBatch nowSeconds =>
    cases worker with
    | idle =>
      obtain ⟨rfl, -⟩ := Prod.mk.inj (some.inj h)
      exact claimDue_deliveredStays _ _ _ _ _
    | _ => cases h
  | markDelivered =>
    cases worker with
    | delivering record rest result =>
      obtain ⟨rfl, -⟩ := Prod.mk.inj (some.inj h)
      exact markDelivered_deliveredStays _ _ _
    | _ => cases h
  | _ =>
    have hsame : outbox' = outbox := by
      cases worker <;> cases h <;> rfl
    exact hsame ▸ DeliveredStays.refl outbox

/-- A failure report is one `markFailed` of the record the worker holds. -/
theorem workerStep_markFailed
    (h : workerStep options outbox worker .markFailed = some (outbox', worker')) :
    ∃ record attemptCount lastError maxRetries, failedRecord worker = some record ∧
      outbox' = markFailed record.id attemptCount lastError maxRetries outbox := by
  cases worker with
  | malformed record error rest result =>
    obtain ⟨rfl, -⟩ := Prod.mk.inj (some.inj h)
    exact ⟨record, _, _, _, rfl, rfl⟩
  | failing record error rest result =>
    obtain ⟨rfl, -⟩ := Prod.mk.inj (some.inj h)
    exact ⟨record, _, _, _, rfl, rfl⟩
  | _ => cases h

theorem workerStep_markFailed_isSome (options : OutboxWorkerOptions) (outbox : Outbox)
    {record : DeliveryRecord} (h : failedRecord worker = some record) :
    (workerStep options outbox worker .markFailed).isSome := by
  cases worker with
  | malformed record error rest result => rfl
  | failing record error rest result => rfl
  | _ => cases h

theorem step_deliveredStays_iff (options : Nat → OutboxWorkerOptions) (s : State) (a : Action) :
    (∀ t, step options s a = some t → DeliveredStays s.outbox t.outbox) ↔
      ReportsUndelivered s a := by
  cases a with
  | requeueExpiredLeases nowSeconds =>
    refine iff_of_true (fun t h => ?_) trivial
    obtain rfl := some.inj h
    exact requeueExpiredLeases_deliveredStays nowSeconds s.outbox
  | enqueue row =>
    refine iff_of_true (fun t h => ?_) trivial
    simp only [step] at h
    split_ifs at h
    obtain ⟨outbox, hinsert, rfl⟩ := map_eq_some_iff.mp h
    exact insert_deliveredStays hinsert
  | worker w move =>
    by_cases hmove : move = .markFailed
    · subst hmove
      constructor
      · intro h record hrecord
        have hsome := workerStep_markFailed_isSome (options w) s.outbox hrecord
        obtain ⟨⟨outbox, worker⟩, hstep⟩ := isSome_iff_exists.mp hsome
        obtain ⟨record', n, e, m, hrecord', rfl⟩ := workerStep_markFailed hstep
        obtain rfl : record = record' := some.inj (hrecord.symm.trans hrecord')
        have hstays := h _ (by rw [step, hstep]; rfl)
        exact (markFailed_deliveredStays_iff record.id n e m s.outbox).mp hstays
      · intro h t ht
        obtain ⟨⟨outbox, worker⟩, hstep, rfl⟩ := map_eq_some_iff.mp ht
        obtain ⟨record, n, e, m, hrecord, rfl⟩ := workerStep_markFailed hstep
        exact (markFailed_deliveredStays_iff record.id n e m s.outbox).mpr (h record hrecord)
    · have htrivial : ReportsUndelivered s (.worker w move) := by
        cases move <;> trivial
      refine iff_of_true (fun t ht => ?_) htrivial
      obtain ⟨⟨outbox, worker⟩, hstep, rfl⟩ := map_eq_some_iff.mp ht
      exact workerStep_deliveredStays hmove hstep

theorem delivered_stays_iff (options : Nat → OutboxWorkerOptions) (s : State)
    (as : List Action) :
    Throughout (step options) (fun u v => DeliveredStays u.outbox v.outbox) s as ↔
      Along (step options) ReportsUndelivered s as := by
  have hrefl : ∀ u : State, DeliveredStays u.outbox u.outbox :=
    fun u => DeliveredStays.refl u.outbox
  have htrans : ∀ u v w : State, DeliveredStays u.outbox v.outbox →
      DeliveredStays v.outbox w.outbox → DeliveredStays u.outbox w.outbox :=
    fun _ _ _ => DeliveredStays.trans
  rw [throughout_iff_along hrefl htrans]
  exact Along.congr (I := fun _ => True) (fun _ _ _ _ _ => trivial)
    (fun u a _ => step_deliveredStays_iff options u a) trivial

def mainOptions : Nat → OutboxWorkerOptions := fun _ => { workerId := "orchestration-main" }

/-- The first worker's publish outlasts its lease and throws after the second has delivered. -/
def staleFailure : List Action :=
  [.enqueue (queuedRow "e1" 10),
    .worker 0 (.processBatch 1000), .worker 0 (.nextRecord (.text "")),
    .worker 1 (.processBatch 1061), .worker 1 (.nextRecord (.text "")),
    .worker 1 .published, .worker 1 .markDelivered,
    .worker 0 (.publishThrew (.text "timeout"))]

theorem stale_failure_requeues_delivered :
    ∃ u v, run (step mainOptions) { outbox := Table.empty, workers := fun _ => .idle }
        staleFailure = some u ∧
      run (step mainOptions) u [.worker 0 .markFailed] = some v ∧
      statusOf u.outbox "e1" = some .delivered ∧ statusOf v.outbox "e1" = some .pending :=
  ⟨_, _, rfl, rfl, by decide, by decide⟩

end OutboxWorker
