import FlowDeck.Library.Table
import Mathlib.Data.List.Infix
import Mathlib.Data.List.Sort

namespace DeliverySink

inductive DeliveryStatus
  | pending
  | delivering
  | delivered
  | failed
  | deadLetter
  | partiallyDelivered
  deriving DecidableEq

/-- What `JSON.parse` makes of a text; the content of a string literal is again a text. -/
inductive JsonText
  | malformed (text : String)
  | value (text : String)
  | string (content : JsonText)
  deriving DecidableEq

structure LeaseInfo where
  workerId : String
  leaseUntil : Nat
  deriving DecidableEq

/-- The `last_error` column: the JSON lease stamped by a claim, or a text that carries no lease. -/
inductive LastError
  | lease (info : LeaseInfo)
  | text (message : String)
  deriving DecidableEq

structure OutboxRow where
  id : String
  eventId : String
  eventType : String
  sourceComponent : String
  data : Option JsonText
  idempotencyKey : String
  aggregateId : String
  status : DeliveryStatus
  retryCount : Nat
  lastError : Option LastError
  createdTs : Nat
  deriving DecidableEq

abbrev Outbox := Table OutboxRow.id

/-- `payload` of a record: absent data is `{}`, malformed data is wrapped as `{ raw }`. -/
inductive Payload
  | empty
  | parsed (value : String)
  | string (content : JsonText)
  | raw (text : String)
  deriving DecidableEq

structure DeliveryRecord where
  id : String
  eventId : String
  eventType : String
  destination : String
  payload : Payload
  correlationId : String
  aggregateId : String
  status : DeliveryStatus
  attemptCount : Nat
  maxRetries : Nat
  lastError : Option String
  idempotencyKey : String
  lease : Option LeaseInfo
  createdAt : Nat
  updatedAt : Nat
  deriving DecidableEq

def payloadOf : Option JsonText → Payload
  | none => .empty
  | some (.malformed text) => .raw text
  | some (.value text) => .parsed text
  | some (.string content) => .string content

def leaseOf : Option LastError → Option LeaseInfo
  | some (.lease info) => some info
  | _ => none

def errorTextOf : Option LastError → Option String
  | some (.text message) => if message = "" then none else some message
  | _ => none

def rowToRecord (row : OutboxRow) : DeliveryRecord where
  id := row.id
  eventId := row.eventId
  eventType := row.eventType
  destination := row.sourceComponent
  payload := payloadOf row.data
  correlationId := row.idempotencyKey
  aggregateId := row.aggregateId
  status := row.status
  attemptCount := row.retryCount
  maxRetries := 3
  lastError := errorTextOf row.lastError
  idempotencyKey := row.idempotencyKey
  lease := leaseOf row.lastError
  createdAt := row.createdTs * 1000
  updatedAt := row.createdTs * 1000

def leaseExpired (nowSeconds : Nat) (row : OutboxRow) : Bool :=
  match leaseOf row.lastError with
  | some info => decide (info.leaseUntil < nowSeconds)
  | none => false

/-- The `WHERE` of the claim: pending, or delivering under a lease that has expired. -/
def claimable (nowSeconds : Nat) (row : OutboxRow) : Bool :=
  row.status = .pending || (row.status = .delivering && leaseExpired nowSeconds row)

/-- `ORDER BY created_ts ASC`, ties in table order. -/
def byCreatedTs (rows : List OutboxRow) : List OutboxRow :=
  rows.insertionSort fun a b => a.createdTs ≤ b.createdTs

def dueIds (nowSeconds batchSize : Nat) (outbox : Outbox) : List String :=
  ((byCreatedTs (outbox.rows.filter (claimable nowSeconds))).take batchSize).map (·.id)

def stamp (claimInfo : LeaseInfo) (row : OutboxRow) : OutboxRow :=
  { row with status := .delivering, lastError := some (.lease claimInfo) }

theorem stamp_id (claimInfo : LeaseInfo) (row : OutboxRow) : (stamp claimInfo row).id = row.id :=
  rfl

/-- The `WHERE` of the read-back: delivering under exactly this claim text. -/
def heldUnder (claimInfo : LeaseInfo) (row : OutboxRow) : Bool :=
  row.status = .delivering && row.lastError = some (.lease claimInfo)

def claimDue (workerId : String) (nowSeconds batchSize leaseSeconds : Nat) (outbox : Outbox) :
    Outbox × List DeliveryRecord :=
  let claimInfo : LeaseInfo := { workerId, leaseUntil := nowSeconds + leaseSeconds }
  let due := dueIds nowSeconds batchSize outbox
  let outbox' := outbox.update (fun row => decide (row.id ∈ due)) (stamp claimInfo)
    (stamp_id claimInfo)
  (outbox', (byCreatedTs (outbox'.rows.filter (heldUnder claimInfo))).map rowToRecord)

def setDelivered (row : OutboxRow) : OutboxRow := { row with status := .delivered }

theorem setDelivered_id (row : OutboxRow) : (setDelivered row).id = row.id := rfl

def markDelivered (id : String) (idempotencyKey : Option String) (outbox : Outbox) :
    Outbox × Bool :=
  let alreadyDelivered : Bool := (outbox.get? id).any fun row =>
    row.idempotencyKey = idempotencyKey && row.status = .delivered
  if idempotencyKey.any (· ≠ "") && alreadyDelivered then
    (outbox, true)
  else
    let touched : OutboxRow → Bool := fun row => decide (row.id = id) && row.status = .delivering
    (outbox.update touched setDelivered setDelivered_id, decide (0 < outbox.changes touched))

def nextStatus (attemptCount maxRetries : Nat) : DeliveryStatus :=
  if maxRetries ≤ attemptCount then .failed else .pending

def setFailed (nextStatus : DeliveryStatus) (attemptCount : Nat) (lastError : LastError)
    (row : OutboxRow) : OutboxRow :=
  { row with status := nextStatus, retryCount := attemptCount, lastError := some lastError }

theorem setFailed_id (nextStatus : DeliveryStatus) (attemptCount : Nat) (lastError : LastError)
    (row : OutboxRow) : (setFailed nextStatus attemptCount lastError row).id = row.id := rfl

def markFailed (id : String) (attemptCount : Nat) (lastError : LastError) (maxRetries : Nat)
    (outbox : Outbox) : Outbox :=
  outbox.update (fun row => decide (row.id = id))
    (setFailed (nextStatus attemptCount maxRetries) attemptCount lastError)
    (setFailed_id (nextStatus attemptCount maxRetries) attemptCount lastError)

def requeue (row : OutboxRow) : OutboxRow :=
  { row with status := .pending, lastError := some (.text "lease-expired-requeued") }

theorem requeue_id (row : OutboxRow) : (requeue row).id = row.id := rfl

def requeueExpiredLeases (nowSeconds : Nat) (outbox : Outbox) : Outbox × Nat :=
  let touched : OutboxRow → Bool := fun row =>
    row.status = .delivering && leaseExpired nowSeconds row
  (outbox.update touched requeue requeue_id, outbox.changes touched)

def countByStatus (status : DeliveryStatus) (outbox : Outbox) : Nat :=
  outbox.changes fun row => row.status = status

def statusOf (outbox : Outbox) (id : String) : Option DeliveryStatus :=
  (outbox.get? id).map (·.status)

theorem mem_byCreatedTs {row : OutboxRow} {rows : List OutboxRow} :
    row ∈ byCreatedTs rows ↔ row ∈ rows :=
  List.mem_insertionSort _

variable {id : String} {nowSeconds batchSize : Nat} {outbox : Outbox}

theorem mem_dueIds (h : id ∈ dueIds nowSeconds batchSize outbox) :
    ∃ row, outbox.get? id = some row ∧ claimable nowSeconds row = true := by
  obtain ⟨row, hrow, rfl⟩ := List.mem_map.mp h
  have hmem := mem_byCreatedTs.mp (List.mem_of_mem_take hrow)
  obtain ⟨hin, hclaim⟩ := List.mem_filter.mp hmem
  exact ⟨row, Table.get?_of_mem hin, hclaim⟩

theorem claimDue_get? (workerId : String) (nowSeconds batchSize leaseSeconds : Nat)
    (outbox : Outbox) (id : String) :
    (claimDue workerId nowSeconds batchSize leaseSeconds outbox).1.get? id =
      (outbox.get? id).map fun row =>
        if id ∈ dueIds nowSeconds batchSize outbox then
          stamp { workerId, leaseUntil := nowSeconds + leaseSeconds } row
        else row := by
  simp only [claimDue]
  rw [Table.get?_update]
  cases h : outbox.get? id with
  | none => rfl
  | some row =>
    have hid : row.id = id := Table.key_of_get? h
    simp [Table.setWhere, hid]

theorem mem_claimDue_ids {workerId : String} {leaseSeconds : Nat} :
    id ∈ (claimDue workerId nowSeconds batchSize leaseSeconds outbox).2.map (·.id) ↔
      ∃ row, (claimDue workerId nowSeconds batchSize leaseSeconds outbox).1.get? id = some row ∧
        heldUnder { workerId, leaseUntil := nowSeconds + leaseSeconds } row = true := by
  simp only [claimDue, List.map_map, List.mem_map, mem_byCreatedTs, List.mem_filter,
    Function.comp_apply, Table.get?_eq_some_iff]
  constructor
  · rintro ⟨row, ⟨hrow, hheld⟩, rfl⟩
    exact ⟨row, ⟨hrow, rfl⟩, hheld⟩
  · rintro ⟨row, ⟨hrow, rfl⟩, hheld⟩
    exact ⟨row, ⟨hrow, hheld⟩, rfl⟩

/-- The read-back of a claim holds the entries it stamped and those already under its text. -/
theorem mem_claimDue_ids_iff {workerId : String} {leaseSeconds : Nat} :
    id ∈ (claimDue workerId nowSeconds batchSize leaseSeconds outbox).2.map (·.id) ↔
      id ∈ dueIds nowSeconds batchSize outbox ∨
        ∃ row, outbox.get? id = some row ∧
          heldUnder { workerId, leaseUntil := nowSeconds + leaseSeconds } row = true := by
  rw [mem_claimDue_ids, claimDue_get?]
  constructor
  · rintro ⟨row, hrow, hheld⟩
    by_cases hdue : id ∈ dueIds nowSeconds batchSize outbox
    · exact Or.inl hdue
    · simp only [hdue, if_false, Option.map_id'] at hrow
      exact Or.inr ⟨row, hrow, hheld⟩
  · rintro (hdue | ⟨row, hrow, hheld⟩)
    · obtain ⟨row, hrow, -⟩ := mem_dueIds hdue
      exact ⟨_, by rw [hrow, Option.map_some, if_pos hdue], by simp [heldUnder, stamp]⟩
    · by_cases hdue : id ∈ dueIds nowSeconds batchSize outbox
      · exact ⟨_, by rw [hrow, Option.map_some, if_pos hdue], by simp [heldUnder, stamp]⟩
      · exact ⟨row, by simp [hrow, hdue], hheld⟩

/-- An entry as the run writer enqueues it. -/
def queuedRow (id : String) (createdTs : Nat) : OutboxRow where
  id := id
  eventId := id
  eventType := "run.queued"
  sourceComponent := "orchestration"
  data := some (.value "\x7b\x7d")
  idempotencyKey := id
  aggregateId := "run-1"
  status := .pending
  retryCount := 0
  lastError := none
  createdTs := createdTs

end DeliverySink
