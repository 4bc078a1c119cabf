import FlowDeck.Orchestration.OutboxWorker

/-! When an outbox row whose data is no JSON is kept from the publisher. -/

namespace OutboxWorker

open DeliverySink Machine Option

def Malformed (outbox : Outbox) (id : String) : Prop :=
  ∃ row text, outbox.get? id = some row ∧ row.data = some (.malformed text)

/-- No worker publishes the event of a row whose data is no JSON. -/
def KeptFromPublisher (s : State) : Prop :=
  ∀ w event record rest result, s.workers w = .publishing event record rest result →
    ¬Malformed s.outbox record.id

def ComesToParsed (s : State) : Action → Prop
  | .worker w (.nextRecord _) => ∀ record rest result,
      s.workers w = .batch (record :: rest) result → ¬Malformed s.outbox record.id
  | _ => True

def WorkerState.records : WorkerState → List DeliveryRecord
  | .idle => []
  | .batch records _ => records
  | .publishing _ record rest _ => record :: rest
  | .delivering record rest _ => record :: rest
  | .malformed record _ rest _ => record :: rest
  | .failing record _ rest _ => record :: rest

/-- A record as a claim returns it: the claim has written its lease over any error text. -/
structure Claimed (outbox : Outbox) (record : DeliveryRecord) : Prop where
  row : ∃ row, outbox.get? record.id = some row ∧ record.payload = payloadOf row.data
  lastError : record.lastError = none
  status : record.status = .delivering

def AllClaimed (s : State) : Prop :=
  ∀ w, ∀ record ∈ (s.workers w).records, Claimed s.outbox record

/-- The rows stay, with the data they have. -/
def KeepsData (outbox outbox' : Outbox) : Prop :=
  ∀ id row, outbox.get? id = some row → ∃ row', outbox'.get? id = some row' ∧ row'.data = row.data

theorem KeepsData.refl (outbox : Outbox) : KeepsData outbox outbox :=
  fun _ row hrow => ⟨row, hrow, rfl⟩

theorem keepsData_update (outbox : Outbox) {p : OutboxRow → Bool} {f : OutboxRow → OutboxRow}
    (hf : ∀ row, (f row).id = row.id) (hdata : ∀ row, (f row).data = row.data) :
    KeepsData outbox (outbox.update p f hf) := by
  intro id row hrow
  refine ⟨Table.setWhere p f row, ?_, ?_⟩
  · rw [Table.get?_update, hrow, map_some]
  · unfold Table.setWhere
    split_ifs
    · exact hdata row
    · rfl

theorem keepsData_insert {outbox outbox' : Outbox} {row : OutboxRow}
    (h : outbox.insert? row = some outbox') : KeepsData outbox outbox' :=
  fun _ other hother => ⟨other, Table.get?_insert?_of_some h hother, rfl⟩

theorem keepsData_markDelivered (id : String) (key : Option String) (outbox : Outbox) :
    KeepsData outbox (markDelivered id key outbox).1 := by
  unfold markDelivered
  extract_lets alreadyDelivered touched
  split_ifs
  · exact .refl outbox
  · exact keepsData_update outbox setDelivered_id fun _ => rfl

theorem keepsData_claimDue (workerId : String) (nowSeconds batchSize leaseSeconds : Nat)
    (outbox : Outbox) :
    KeepsData outbox (claimDue workerId nowSeconds batchSize leaseSeconds outbox).1 :=
  keepsData_update outbox (stamp_id _) fun _ => rfl

section Steps

variable {options : OutboxWorkerOptions} {outbox outbox' : Outbox} {worker worker' : WorkerState}

variable {move : Move} {record : DeliveryRecord}

theorem workerStep_keepsData (h : workerStep options outbox worker move = some (outbox', worker')) :
    KeepsData outbox outbox' := by
  cases move with
  | processBatch nowSeconds =>
    cases worker with
    | idle =>
      obtain ⟨rfl, -⟩ := Prod.mk.inj (some.inj h)
      exact keepsData_claimDue _ _ _ _ _
    | _ => cases h
  | markDelivered =>
    cases worker with
    | delivering record rest result =>
      obtain ⟨rfl, -⟩ := Prod.mk.inj (some.inj h)
      exact keepsData_markDelivered _ _ _
    | _ => cases h
  | markFailed =>
    obtain ⟨record, attemptCount, lastError, maxRetries, -, rfl⟩ := workerStep_markFailed h
    exact keepsData_update outbox (setFailed_id _ _ _) fun _ => rfl
  | _ =>
    have hsame : outbox' = outbox := by
      cases worker <;> cases h <;> rfl
    exact hsame ▸ .refl outbox

theorem Claimed.keep (h : Claimed outbox record) (hkeeps : KeepsData outbox outbox') :
    Claimed outbox' record := by
  obtain ⟨row, hrow, hpayload⟩ := h.row
  obtain ⟨row', hrow', hdata⟩ := hkeeps _ row hrow
  exact ⟨⟨row', hrow', by rw [hdata, hpayload]⟩, h.lastError, h.status⟩

theorem claimed_claimDue {workerId : String} {nowSeconds batchSize leaseSeconds : Nat}
    (h : record ∈ (claimDue workerId nowSeconds batchSize leaseSeconds outbox).2) :
    Claimed (claimDue workerId nowSeconds batchSize leaseSeconds outbox).1 record := by
  obtain ⟨row, hrow, rfl⟩ := List.mem_map.mp h
  obtain ⟨hmem, hheld⟩ := List.mem_filter.mp (mem_byCreatedTs.mp hrow)
  simp only [heldUnder, Bool.and_eq_true, decide_eq_true_eq] at hheld
  constructor
  · exact ⟨row, Table.get?_of_mem hmem, rfl⟩
  · simp [rowToRecord, errorTextOf, hheld.2]
  · exact hheld.1

theorem records_nextRecord {records : List DeliveryRecord} {result : BatchResult}
    {parseError : LastError} (h : record ∈ (nextRecord records result parseError).records) :
    record ∈ records := by
  cases records with
  | nil => cases h
  | cons first rest =>
    simp only [nextRecord] at h
    split_ifs at h
    · exact List.mem_cons_of_mem first h
    · split at h
      · exact h
      · split at h
        · exact h
        · exact h

/-- A worker holds what it held before, or what it has just claimed. -/
theorem workerStep_records (h : workerStep options outbox worker move = some (outbox', worker'))
    (hrecord : record ∈ worker'.records) :
    record ∈ worker.records ∨ ∃ nowSeconds, (outbox', worker'.records) =
      claimDue options.workerId nowSeconds options.batchSize options.leaseSeconds outbox := by
  cases move with
  | processBatch nowSeconds =>
    cases worker with
    | idle =>
      obtain ⟨rfl, rfl⟩ := Prod.mk.inj (some.inj h)
      exact .inr ⟨nowSeconds, rfl⟩
    | _ => cases h
  | nextRecord parseError =>
    cases worker with
    | batch records result =>
      obtain ⟨rfl, rfl⟩ := Prod.mk.inj (some.inj h)
      exact .inl (records_nextRecord hrecord)
    | _ => cases h
  | _ =>
    left
    cases worker <;> cases h
    all_goals first
      | exact hrecord
      | exact List.mem_cons_of_mem _ hrecord
      | cases hrecord

theorem Claimed.malformed (h : Claimed outbox record) (hkeeps : KeepsData outbox outbox')
    (hmalformed : Malformed outbox' record.id) : Malformed outbox record.id := by
  obtain ⟨row, hrow, -⟩ := h.row
  obtain ⟨row', hrow', hdata⟩ := hkeeps _ row hrow
  obtain ⟨later, text, hlater, htext⟩ := hmalformed
  obtain rfl := some.inj (hrow'.symm.trans hlater)
  exact ⟨row, text, hrow, hdata.symm.trans htext⟩

/-- The decode test has no error text to look at in a claimed record, and the text that is no JSON
makes a payload like any other. -/
theorem Claimed.published (h : Claimed outbox record) (hmalformed : Malformed outbox record.id)
    (rest : List DeliveryRecord) (result : BatchResult) (parseError : LastError) : ∃ event,
      nextRecord (record :: rest) result parseError = .publishing event record rest result := by
  obtain ⟨row, hrow, hpayload⟩ := h.row
  obtain ⟨row', text, hrow', htext⟩ := hmalformed
  obtain rfl := some.inj (hrow.symm.trans hrow')
  have hraw : record.payload = .raw text := by rw [hpayload, htext, payloadOf]
  simp [nextRecord, h.status, h.lastError, toEvent, hraw, eventData]

theorem workerStep_publishing {event : OrchestrationEvent} {rest : List DeliveryRecord}
    {result : BatchResult} (h : workerStep options outbox worker move =
      some (outbox', .publishing event record rest result)) :
    outbox' = outbox ∧ ∃ parseError rest' result', move = .nextRecord parseError ∧
      worker = .batch (record :: rest') result' := by
  cases move with
  | nextRecord parseError =>
    cases worker with
    | batch records result' =>
      obtain ⟨rfl, hnext⟩ := Prod.mk.inj (some.inj h)
      refine ⟨rfl, parseError, ?_⟩
      cases records with
      | nil => cases hnext
      | cons first rest' =>
        simp only [nextRecord] at hnext
        split_ifs at hnext
        split at hnext
        · cases hnext
        · split at hnext
          · obtain ⟨-, rfl, -, -⟩ := WorkerState.publishing.inj hnext
            exact ⟨rest', result', rfl, rfl⟩
          · cases hnext
    | _ => cases h
  | processBatch nowSeconds =>
    cases worker with
    | idle => cases h
    | _ => cases h
  | _ => cases worker <;> cases h

end Steps

variable {options : Nat → OutboxWorkerOptions} {s t : State} {a : Action}

theorem step_keepsData (h : step options s a = some t) : KeepsData s.outbox t.outbox := by
  cases a with
  | requeueExpiredLeases nowSeconds =>
    obtain rfl := some.inj h
    exact keepsData_update s.outbox requeue_id fun _ => rfl
  | enqueue row =>
    simp only [step] at h
    split_ifs at h
    obtain ⟨outbox, hinsert, rfl⟩ := map_eq_some_iff.mp h
    exact keepsData_insert hinsert
  | worker w move =>
    obtain ⟨⟨outbox, worker⟩, hstep, rfl⟩ := map_eq_some_iff.mp h
    exact workerStep_keepsData hstep

/-- The other workers stand where they stood, and one may have made a move. -/
theorem step_worker (h : step options s a = some t) (w : Nat) : t.workers w = s.workers w ∨
    ∃ move, a = .worker w move ∧
      workerStep (options w) s.outbox (s.workers w) move = some (t.outbox, t.workers w) := by
  cases a with
  | requeueExpiredLeases nowSeconds =>
    obtain rfl := some.inj h
    exact .inl rfl
  | enqueue row =>
    simp only [step] at h
    split_ifs at h
    obtain ⟨outbox, -, rfl⟩ := map_eq_some_iff.mp h
    exact .inl rfl
  | worker w' move =>
    obtain ⟨⟨outbox, worker⟩, hstep, rfl⟩ := map_eq_some_iff.mp h
    by_cases hw : w = w'
    · subst hw
      exact .inr ⟨move, rfl, by simp [hstep]⟩
    · exact .inl (Function.update_of_ne hw _ _)

theorem allClaimed_step (hs : AllClaimed s) (h : step options s a = some t) : AllClaimed t := by
  intro w record hrecord
  have hkeeps := step_keepsData h
  rcases step_worker h w with hsame | ⟨move, -, hmove⟩
  · rw [hsame] at hrecord
    exact (hs w record hrecord).keep hkeeps
  · rcases workerStep_records hmove hrecord with hheld | ⟨nowSeconds, hclaim⟩
    · exact (hs w record hheld).keep hkeeps
    · have hclaimed : record ∈ (claimDue (options w).workerId nowSeconds (options w).batchSize
          (options w).leaseSeconds s.outbox).2 := by
        rw [← hclaim]
        exact hrecord
      have houtbox := congrArg Prod.fst hclaim
      simp only at houtbox
      rw [houtbox]
      exact claimed_claimDue hclaimed

theorem kept_step (hs : AllClaimed s) (hkept : KeptFromPublisher s) (ha : ComesToParsed s a)
    (h : step options s a = some t) : KeptFromPublisher t := by
  intro w event record rest result hpublishing hmalformed
  have hkeeps := step_keepsData h
  rcases step_worker h w with hsame | ⟨move, rfl, hmove⟩
  · rw [hsame] at hpublishing
    have hclaimed : Claimed s.outbox record := by
      apply hs w
      rw [hpublishing]
      exact List.mem_cons_self
    exact hkept w event record rest result hpublishing (hclaimed.malformed hkeeps hmalformed)
  · rw [hpublishing] at hmove
    obtain ⟨hsame, parseError, rest', result', rfl, hbatch⟩ := workerStep_publishing hmove
    rw [hsame] at hmalformed
    exact ha record rest' result' hbatch hmalformed

/-- A row whose data is no JSON is published when its turn comes. -/
theorem comesToParsed_of_kept (hs : AllClaimed s)
    (hkept : ∀ t, step options s a = some t → KeptFromPublisher t) : ComesToParsed s a := by
  cases a with
  | worker w move =>
    cases move with
    | nextRecord parseError =>
      intro record rest result hbatch hmalformed
      have hclaimed : Claimed s.outbox record := by
        apply hs w
        rw [hbatch]
        exact List.mem_cons_self
      obtain ⟨event, hevent⟩ := hclaimed.published hmalformed rest result parseError
      have hstep : step options s (.worker w (.nextRecord parseError)) =
          some ⟨s.outbox, Function.update s.workers w (.publishing event record rest result)⟩ := by
        simp [step, hbatch, workerStep, hevent]
      exact hkept _ hstep w event record rest result (Function.update_self _ _ _) hmalformed
    | _ => trivial
  | requeueExpiredLeases nowSeconds => trivial
  | enqueue row => trivial

/-- Whatever error texts and leases the rows had, and however the workers take turns: no worker
publishes a row whose data is no JSON exactly when none comes to such a row in its batch. -/
theorem malformed_kept_iff (options : Nat → OutboxWorkerOptions) (outbox : Outbox)
    (as : List Action) :
    (∀ pre post u, as = pre ++ post →
        run (step options) ⟨outbox, fun _ => .idle⟩ pre = some u → KeptFromPublisher u) ↔
      Along (step options) ComesToParsed ⟨outbox, fun _ => .idle⟩ as := by
  have hclaimed : AllClaimed ⟨outbox, fun _ => .idle⟩ := by
    intro w record hrecord
    cases hrecord
  have hkept : KeptFromPublisher ⟨outbox, fun _ => .idle⟩ := by
    intro w event record rest result hpublishing
    cases hpublishing
  rw [always_iff_along hkept]
  constructor
  · apply Along.imp (I := AllClaimed)
    · intro s a t hs _ h
      exact allClaimed_step hs h
    · intro s a hs hall
      exact comesToParsed_of_kept hs hall
    · exact hclaimed
  · apply Along.imp (I := fun s => AllClaimed s ∧ KeptFromPublisher s)
    · intro s a t hs ha h
      exact ⟨allClaimed_step hs.1 h, kept_step hs.1 hs.2 ha h⟩
    · intro s a hs ha t h
      exact kept_step hs.1 hs.2 ha h
    · exact ⟨hclaimed, hkept⟩

def cutOffRow : OutboxRow :=
  { queuedRow "e1" 10 with
    data := some (.malformed "\x7b")
    lastError := some (.text "Unexpected end of JSON input") }

theorem cut_off_row_published : ∃ u, run (step mainOptions) ⟨Table.empty, fun _ => .idle⟩
    [.enqueue cutOffRow, .worker 0 (.processBatch 1000), .worker 0 (.nextRecord (.text ""))] =
      some u ∧ ¬KeptFromPublisher u := by
  refine ⟨_, rfl, ?_⟩
  intro h
  exact h 0 _ _ _ _ rfl ⟨_, _, rfl, rfl⟩

end OutboxWorker
