import FlowDeck.Budget.Controller
import FlowDeck.Library.Holds
import FlowDeck.Library.Machine

namespace BudgetLedgers

open UsageStore BudgetController BudgetController.Controller Ledger Ledger.Books Table List

def hold (r : ReservationRecord) : Hold String String String ℚ where
  id := r.reservationId
  owner := r.sessionId
  project := truthy r.assignmentId
  amount := r.claimed

/-- The four ledgers of a controller. -/
def books (s : Controller) : Books String String String ℚ where
  reserved := s.run.reserved
  accounts := s.agents.rows.map fun a => (a.sessionId, a.reserved)
  projects := s.assignments.rows.map fun a => (a.assignmentId, a.reserved)
  holds := (s.reservedWhere fun _ => true).map hold

@[simp] theorem books_append (s : Controller) (entry : UsageStoreEntry) :
    books (s.append entry) = books s := rfl

@[simp] theorem books_recordUsage (s : Controller) (record : TokenUsageRecord) :
    books (s.recordUsage record) = books s := rfl

@[simp] theorem books_setTerminal (s : Controller) (state : TerminalState) :
    books (s.setTerminal state) = books s := rfl

theorem books_warn (now : Nat) (s : Controller) : books (s.warn now) = books s := by
  unfold warn
  split_ifs
  · rfl
  · rfl

/-- Changing a session or an assignment apart from what it has reserved moves no ledger. -/
theorem books_updateAgent_of_eq (s : Controller) (sessionId : String)
    (f : AgentBudgetState → AgentBudgetState) (hf : ∀ a, (f a).sessionId = a.sessionId)
    (hreserved : ∀ a, (f a).reserved = a.reserved) :
    books (s.updateAgent sessionId f hf) = books s := by
  refine Books.ext rfl ?_ rfl rfl
  refine map_rows_update _ _ f hf ?_
  intro a
  rw [hf, hreserved]

theorem books_updateAssignment_of_eq (s : Controller) (assignmentId : String)
    (f : AssignmentBudgetState → AssignmentBudgetState)
    (hf : ∀ a, (f a).assignmentId = a.assignmentId) (hreserved : ∀ a, (f a).reserved = a.reserved) :
    books (s.updateAssignment assignmentId f hf) = books s := by
  refine Books.ext rfl rfl ?_ rfl
  refine map_rows_update _ _ f hf ?_
  intro a
  rw [hf, hreserved]

theorem books_endSessions (s : Controller) (p : AgentBudgetState → Bool) (state : TerminalState) :
    books (s.endSessions p state) = books s := by
  refine Books.ext rfl ?_ rfl rfl
  refine map_rows_update s.agents _ (fun a => { a with terminal := some state })
    (fun _ => rfl) ?_
  intro a
  rfl

theorem books_closeAssignment (status : AssignmentStatus) (s : Controller) (assignmentId : String) :
    books (closeAssignment status s assignmentId) = books s := by
  unfold closeAssignment
  split
  · split_ifs
    · exact books_updateAssignment_of_eq s assignmentId (fun a => { a with status })
        (fun _ => rfl) fun _ => rfl
    · rfl
  · rfl

def registered (b : Books String String String ℚ) (sessionId : String) :
    Books String String String ℚ :=
  if sessionId ∈ b.accounts.map (·.1) then b else b.openAccount sessionId

theorem keys_accounts (s : Controller) :
    (books s).accounts.map (·.1) = s.agents.rows.map AgentBudgetState.sessionId := by
  simp [books, Function.comp_def]

theorem books_registerSession (s : Controller) (sessionId agentId : String)
    (parentSessionId : Option String) :
    books (s.registerSession sessionId agentId parentSessionId) =
      registered (books s) sessionId := by
  unfold registerSession registered
  cases hinsert : s.agents.insert? (s.newAgent sessionId agentId parentSessionId) with
  | none =>
    obtain ⟨a, ha⟩ := insert?_eq_none hinsert
    have hmem : sessionId ∈ (books s).accounts.map (·.1) := by
      rw [keys_accounts]
      have hkey : a.sessionId = sessionId := key_of_get? ha
      rw [← hkey]
      exact mem_map_of_mem (mem_of_get? ha)
    rw [if_pos hmem]
  | some agents =>
    obtain ⟨hnone, hrows⟩ := insert?_eq_some hinsert
    have hnot : sessionId ∉ (books s).accounts.map (·.1) := by
      rw [keys_accounts]
      intro hmem
      obtain ⟨a, ha, hkey⟩ := mem_map.mp hmem
      exact get?_eq_none_iff.mp hnone a ha hkey
    rw [if_neg hnot]
    refine Books.ext rfl ?_ rfl rfl
    simp only [books, Books.openAccount, hrows, map_append]
    rfl

theorem debit_agents (s : Controller) (sessionId : String) (amount : ℚ) :
    (s.agents.update (fun a => decide (a.sessionId = sessionId))
      (fun a => { a with reserved := max 0 (a.reserved - amount) }) fun _ => rfl).rows.map
        (fun a => (a.sessionId, a.reserved)) = debit (books s).accounts sessionId amount := by
  simp only [books, update, debit, map_map]
  apply map_congr_left
  intro a _
  simp only [Function.comp_apply, setWhere, decide_eq_true_eq]
  split_ifs
  · rfl
  · rfl

theorem debit_assignments (s : Controller) (assignmentId : String) (amount : ℚ) :
    (s.assignments.update (fun a => decide (a.assignmentId = assignmentId))
      (fun a => { a with reserved := max 0 (a.reserved - amount) }) fun _ => rfl).rows.map
        (fun a => (a.assignmentId, a.reserved)) =
          debit (books s).projects assignmentId amount := by
  simp only [books, update, debit, map_map]
  apply map_congr_left
  intro a _
  simp only [Function.comp_apply, setWhere, decide_eq_true_eq]
  split_ifs
  · rfl
  · rfl

theorem credit_agents (s : Controller) (sessionId : String) (amount : ℚ) :
    (s.agents.update (fun a => decide (a.sessionId = sessionId))
      (fun a => { a with reserved := a.reserved + amount }) fun _ => rfl).rows.map
        (fun a => (a.sessionId, a.reserved)) = credit (books s).accounts sessionId amount := by
  simp only [books, update, credit, map_map]
  apply map_congr_left
  intro a _
  simp only [Function.comp_apply, setWhere, decide_eq_true_eq]
  split_ifs
  · rfl
  · rfl

theorem credit_assignments (s : Controller) (assignmentId : String) (amount : ℚ) :
    (s.assignments.update (fun a => decide (a.assignmentId = assignmentId))
      (fun a => { a with reserved := a.reserved + amount }) fun _ => rfl).rows.map
        (fun a => (a.assignmentId, a.reserved)) =
          credit (books s).projects assignmentId amount := by
  simp only [books, update, credit, map_map]
  apply map_congr_left
  intro a _
  simp only [Function.comp_apply, setWhere, decide_eq_true_eq]
  split_ifs
  · rfl
  · rfl

variable {s : Controller} {r : ReservationRecord}

theorem books_claim {reservations : Table ReservationRecord.reservationId}
    (hinsert : s.reservations.insert? r = some reservations) (hstatus : r.status = .reserved)
    (entry : UsageStoreEntry) :
    books (({ s.claim r with reservations } : Controller).append entry) =
      (books s).place (hold r) := by
  have hrows := (insert?_eq_some hinsert).2
  have hholds : (reservations.rows.filter fun r => r.status = .reserved && true).map hold =
      (books s).holds ++ [hold r] := by
    rw [hrows, filter_append, map_append]
    simp [books, reservedWhere, hstatus]
  unfold claim
  cases hproject : truthy r.assignmentId with
  | none =>
    refine Books.ext rfl ?_ ?_ hholds
    · exact credit_agents s r.sessionId r.claimed
    · simp only [place, hold, hproject]
      rfl
  | some assignmentId =>
    refine Books.ext rfl ?_ ?_ hholds
    · exact credit_agents s r.sessionId r.claimed
    · simp only [place, hold, hproject]
      exact credit_assignments s assignmentId r.claimed

/-- A reservation that is no longer reserved drops out of those that are. -/
theorem reserved_upsert {t : Table ReservationRecord.reservationId} {q : ReservationRecord}
    (hr : t.get? r.reservationId = some r) (hkey : q.reservationId = r.reservationId)
    (hstatus : q.status ≠ .reserved) :
    (t.upsert q).rows.filter (fun r => r.status = .reserved && true) =
      (t.rows.filter fun r => r.status = .reserved && true).filter
        fun row => row.reservationId ≠ r.reservationId := by
  rw [rows_upsert_of_some (hkey.symm ▸ hr), hkey]
  generalize t.rows = rows
  induction rows with
  | nil => rfl
  | cons row rows ih =>
    simp only [Bool.and_true] at ih ⊢
    rw [map_cons]
    by_cases hid : row.reservationId = r.reservationId
    · rw [if_pos hid, filter_cons_of_neg (by simpa using hstatus), ih]
      by_cases hreserved : row.status = .reserved
      · rw [filter_cons_of_pos (by simpa using hreserved), filter_cons_of_neg (by simpa using hid)]
      · rw [filter_cons_of_neg (by simpa using hreserved)]
    · rw [if_neg hid]
      by_cases hreserved : row.status = .reserved
      · rw [filter_cons_of_pos (by simpa using hreserved),
          filter_cons_of_pos (by simpa using hreserved),
          filter_cons_of_pos (by simpa using hid), ih]
      · rw [filter_cons_of_neg (by simpa using hreserved),
          filter_cons_of_neg (by simpa using hreserved), ih]

theorem holds_upsert {t : Table ReservationRecord.reservationId} {q : ReservationRecord}
    (hr : t.get? r.reservationId = some r) (hkey : q.reservationId = r.reservationId)
    (hstatus : q.status ≠ .reserved) :
    ((t.upsert q).rows.filter fun r => r.status = .reserved && true).map hold =
      ((t.rows.filter fun r => r.status = .reserved && true).map hold).filter
        fun h => h.id ≠ (hold r).id := by
  rw [reserved_upsert hr hkey hstatus, filter_map]
  rfl

/-- A cancellation gives the claim back to the session, never to the assignment. -/
def cancellation (r : ReservationRecord) : Release String String String ℚ :=
  ⟨r.sessionId, false, hold r⟩

theorem books_cancelRecord (hr : s.reservations.get? r.reservationId = some r)
    (terminationReason : Option String) :
    books (cancelRecord terminationReason s r) = (books s).release (cancellation r) := by
  refine Books.ext rfl ?_ rfl ?_
  · exact debit_agents s r.sessionId r.claimed
  · exact holds_upsert (q := { r with status := .cancelled }) hr rfl (by simp)

/-- A commit gives the claim back to the session it names and to the assignment. -/
def settlement (opts : CommitUsageOptions) (r : ReservationRecord) :
    Release String String String ℚ :=
  ⟨opts.sessionId, true, hold r⟩

theorem books_releaseClaim (hr : s.reservations.get? r.reservationId = some r) (now : Nat)
    (opts : CommitUsageOptions) (billable : ℚ) :
    books (s.releaseClaim now opts r billable) = (books s).release (settlement opts r) := by
  have hholds := holds_upsert (q := { r with status := .committed, committedAt := some now })
    hr rfl (by simp)
  unfold releaseClaim
  cases hproject : truthy r.assignmentId with
  | none =>
    refine Books.ext rfl ?_ ?_ hholds
    · exact debit_agents s opts.sessionId r.claimed
    · simp only [release, settlement, hold, hproject]
      rfl
  | some assignmentId =>
    refine Books.ext rfl ?_ ?_ hholds
    · exact debit_agents s opts.sessionId r.claimed
    · simp only [release, settlement, hold, hproject]
      exact debit_assignments s assignmentId r.claimed

theorem get?_cancelRecord {id : String} (hid : id ≠ r.reservationId)
    (terminationReason : Option String) :
    (cancelRecord terminationReason s r).reservations.get? id = s.reservations.get? id := by
  have hget : (s.reservations.upsert { r with status := .cancelled }).get? id =
      if r.reservationId = id then some { r with status := .cancelled }
      else s.reservations.get? id := get?_upsert _ _ _
  rw [if_neg (Ne.symm hid)] at hget
  exact hget

theorem books_cancelRecords {rs : List ReservationRecord}
    (hmem : ∀ r ∈ rs, s.reservations.get? r.reservationId = some r)
    (hdistinct : (rs.map fun r => r.reservationId).Nodup) :
    books (rs.foldl (cancelRecord none) s) =
      (rs.map cancellation).foldl Books.release (books s) := by
  induction rs generalizing s with
  | nil => rfl
  | cons r rs ih =>
    rw [map_cons, nodup_cons] at hdistinct
    have hr := hmem r mem_cons_self
    have hrest : ∀ other ∈ rs,
        (cancelRecord none s r).reservations.get? other.reservationId = some other := by
      intro other hother
      have hne : other.reservationId ≠ r.reservationId := by
        intro he
        exact hdistinct.1 (he ▸ mem_map_of_mem (f := fun r => r.reservationId) hother)
      rw [get?_cancelRecord hne]
      exact hmem other (mem_cons_of_mem _ hother)
    rw [foldl_cons, ih hrest hdistinct.2, books_cancelRecord hr, map_cons, foldl_cons]

theorem get?_of_mem_reservedWhere {p : ReservationRecord → Bool} (h : r ∈ s.reservedWhere p) :
    s.reservations.get? r.reservationId = some r :=
  get?_of_mem (mem_of_mem_filter h)

theorem nodup_reservedWhere (s : Controller) (p : ReservationRecord → Bool) :
    ((s.reservedWhere p).map fun r => r.reservationId).Nodup :=
  s.reservations.unique.sublist (filter_sublist.map _)

theorem books_cancelWhere (s : Controller) (p : ReservationRecord → Bool) :
    books (s.cancelWhere p) =
      ((s.reservedWhere p).map cancellation).foldl Books.release (books s) :=
  books_cancelRecords (fun _ h => get?_of_mem_reservedWhere h) (nodup_reservedWhere s p)

/-- The reserved reservations picked out by a condition are holds, each of its own. -/
theorem ends_reservedWhere (s : Controller) (p : ReservationRecord → Bool) :
    Ends (books s) ((s.reservedWhere p).map cancellation) := by
  refine ⟨?_, ?_⟩
  · intro release hrelease
    obtain ⟨r, hr, rfl⟩ := mem_map.mp hrelease
    have hfilter := mem_filter.mp hr
    have hstatus : r.status = .reserved := by
      have hboth := hfilter.2
      simp only [Bool.and_eq_true, decide_eq_true_eq] at hboth
      exact hboth.1
    refine mem_map.mpr ⟨r, ?_, rfl⟩
    exact mem_filter.mpr ⟨hfilter.1, by simpa using hstatus⟩
  · rw [map_map]
    exact nodup_reservedWhere s p

end BudgetLedgers
