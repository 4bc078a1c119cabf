import FlowDeck.Budget.Ledgers

namespace LedgerBalance

open UsageStore BudgetController BudgetController.Controller BudgetLedgers Ledger Ledger.Books List
open Machine

def reservedClaims (s : Controller) : ℚ :=
  ((s.reservedWhere fun _ => true).map fun r => r.claimed).sum

def assignmentClaims (s : Controller) (assignmentId : String) : ℚ :=
  ((s.reservedWhere fun r => r.assignmentId = some assignmentId).map fun r => r.claimed).sum

def agentsReserved (s : Controller) : ℚ := (s.agents.rows.map fun a => a.reserved).sum

/-- The four ledgers of the run agree. -/
structure Agree (s : Controller) : Prop where
  run : s.run.reserved = reservedClaims s
  agents : s.run.reserved = agentsReserved s
  assignments : ∀ a ∈ s.assignments.rows, a.reserved = assignmentClaims s a.assignmentId

/-- What a session is charged with, nothing for one that is not registered. -/
def chargedTo (s : Controller) (sessionId : String) : ℚ :=
  ((s.agents.get? sessionId).map fun a => a.reserved).getD 0

def stopsAfter (s : Controller) (opts : CommitUsageOptions) : Bool :=
  s.run.terminal.isNone &&
    s.config.hardStopThreshold * s.run.ceiling ≤ s.run.consumed + (s.usageOf opts).billable

def cancelled (s : Controller) : Op → List ReservationRecord
  | .commitUsage _ opts =>
    if s.isDuplicate opts || !stopsAfter s opts then []
    else
      match s.released opts with
      | some r => (s.reservedWhere fun _ => true).filter fun row => row.reservationId ≠ r.reservationId
      | none => s.reservedWhere fun _ => true
  | .terminate _ _ => if s.run.terminal.isSome then [] else s.reservedWhere fun _ => true
  | .cancelSession _ sessionId _ => s.reservedWhere fun r => s.affected sessionId r.sessionId
  | .cancelReservation reservationId _ =>
    ((s.reservations.get? reservationId).filter fun r => r.status = .reserved).toList
  | .cancelAllReservations => s.reservedWhere fun _ => true
  | _ => []

/-- The reservation a commit settles, whatever session it was made for. -/
def settled (s : Controller) : Op → List (CommitUsageOptions × ReservationRecord)
  | .commitUsage _ opts =>
    if s.isDuplicate opts then [] else (s.released opts).toList.map fun r => (opts, r)
  | _ => []

def takenOff (s : Controller) (op : Op) : List (String × ℚ) :=
  ((settled s op).map fun entry => (entry.1.sessionId, entry.2.claimed)) ++
    (cancelled s op).map fun r => (r.sessionId, r.claimed)

/-- An operation takes no more off a session than it is charged with, and cancels nothing claimed for
a known assignment. -/
structure Covered (s : Controller) (op : Op) : Prop where
  sessions : ∀ sessionId, debited (takenOff s op) sessionId ≤ chargedTo s sessionId
  assignments : ∀ r ∈ cancelled s op, ∀ a ∈ s.assignments.rows,
    r.assignmentId = some a.assignmentId → r.claimed = 0

structure Consistent (s : Controller) : Prop where
  sound : (books s).Sound
  named : "" ∉ (books s).projects.map (·.1)

theorem Consistent.assignmentId_ne {s : Controller} (h : Consistent s) {a : AssignmentBudgetState}
    (ha : a ∈ s.assignments.rows) : a.assignmentId ≠ "" := by
  intro he
  apply h.named
  refine mem_map.mpr ⟨(a.assignmentId, a.reserved), ?_, he⟩
  exact mem_map_of_mem (f := fun a => (a.assignmentId, a.reserved)) ha

theorem balance_accounts (s : Controller) (sessionId : String) :
    balance (books s).accounts sessionId = chargedTo s sessionId := by
  unfold balance chargedTo books Table.get?
  rw [find?_map, Option.map_map]
  rfl

/-- The books an operation starts releasing from: those of the state, but for a new session. -/
structure Prepared (s : Controller) (b : Books String String String ℚ) : Prop where
  sound : b.Sound
  balanced : b.Balanced ↔ (books s).Balanced
  balance : ∀ sessionId, balance b.accounts sessionId = chargedTo s sessionId
  projects : b.projects = (books s).projects

theorem prepared_books {s : Controller} (h : Consistent s) : Prepared s (books s) :=
  ⟨h.sound, Iff.rfl, balance_accounts s, rfl⟩

theorem prepared_registered {s : Controller} (h : Consistent s) (sessionId : String) :
    Prepared s (registered (books s) sessionId) := by
  unfold registered
  split_ifs with hmem
  · exact prepared_books h
  · refine ⟨h.sound.openAccount hmem, balanced_openAccount_iff, ?_, rfl⟩
    intro other
    rw [← balance_accounts]
    simp only [openAccount, Ledger.balance, find?_append]
    cases hfind : (books s).accounts.find? fun account => account.1 = other with
    | some account => rfl
    | none =>
      by_cases hk : sessionId = other
      · simp [hk]
      · simp [hk]

def releases (s : Controller) (op : Op) : List (Release String String String ℚ) :=
  ((settled s op).map fun entry => settlement entry.1 entry.2) ++
    (cancelled s op).map cancellation

theorem debits_releases (s : Controller) (op : Op) : debits (releases s op) = takenOff s op := by
  unfold debits releases takenOff
  rw [map_append, map_map, map_map]
  rfl

theorem unbooked_cancellation_iff {s : Controller} (h : Consistent s) {r : ReservationRecord} :
    Unbooked (cancellation r) (books s).projects ↔
      ∀ a ∈ s.assignments.rows, r.assignmentId = some a.assignmentId → r.claimed = 0 := by
  unfold Unbooked cancellation hold
  simp only [forall_const]
  constructor
  · intro hall a ha hr
    apply hall a.assignmentId
    · unfold truthy
      rw [Option.filter_eq_some_iff]
      exact ⟨hr, by simpa using h.assignmentId_ne ha⟩
    · refine mem_map.mpr ⟨(a.assignmentId, a.reserved), ?_, rfl⟩
      exact mem_map_of_mem (f := fun a => (a.assignmentId, a.reserved)) ha
  · intro hall p hp hmem
    obtain ⟨entry, hentry, rfl⟩ := mem_map.mp hmem
    obtain ⟨a, ha, rfl⟩ := mem_map.mp hentry
    unfold truthy at hp
    rw [Option.filter_eq_some_iff] at hp
    exact hall a ha hp.1

theorem unbooked_releases_iff {s : Controller} (h : Consistent s) (op : Op) :
    (∀ r ∈ releases s op, Unbooked r (books s).projects) ↔
      ∀ r ∈ cancelled s op, ∀ a ∈ s.assignments.rows,
        r.assignmentId = some a.assignmentId → r.claimed = 0 := by
  constructor
  · intro hall r hr
    apply (unbooked_cancellation_iff h).mp
    apply hall
    exact mem_append_right _ (mem_map_of_mem hr)
  · intro hall release hrelease
    rcases mem_append.mp hrelease with hsettled | hcancelled
    · obtain ⟨entry, _, rfl⟩ := mem_map.mp hsettled
      intro hfalse
      exact absurd hfalse (by simp [settlement])
    · obtain ⟨r, hr, rfl⟩ := mem_map.mp hcancelled
      exact (unbooked_cancellation_iff h).mpr (hall r hr)

theorem keys_projects_releases (b : Books String String String ℚ)
    (rs : List (Release String String String ℚ)) :
    (rs.foldl Books.release b).projects.map (·.1) = b.projects.map (·.1) := by
  induction rs generalizing b with
  | nil => rfl
  | cons r rs ih => rw [foldl_cons, ih, keys_projects_release]

/-- What a step does to the ledgers: they stay sound, and stay in agreement exactly when the step is
covered. -/
def Keeps (s : Controller) (op : Op) (t : Controller) : Prop :=
  Consistent t ∧ ((books t).Balanced ↔ (books s).Balanced ∧ Covered s op)

theorem Prepared.keeps {s t : Controller} {op : Op} {b : Books String String String ℚ}
    (hb : Prepared s b) (h : Consistent s) (hends : Ends b (releases s op))
    (hbooks : books t = (releases s op).foldl Books.release b) : Keeps s op t := by
  refine ⟨⟨?_, ?_⟩, ?_⟩
  · rw [hbooks]
    exact hb.sound.releases hends
  · rw [hbooks, keys_projects_releases, hb.projects]
    exact h.named
  · rw [hbooks, balanced_releases_iff hb.sound hends, hb.balanced, debits_releases, hb.projects,
      unbooked_releases_iff h]
    simp only [hb.balance]
    constructor
    · rintro ⟨hbal, hsessions, hassignments⟩
      exact ⟨hbal, hsessions, hassignments⟩
    · rintro ⟨hbal, hsessions, hassignments⟩
      exact ⟨hbal, hsessions, hassignments⟩

theorem Prepared.quiet {s t : Controller} {op : Op} {b : Books String String String ℚ}
    (hb : Prepared s b) (h : Consistent s) (hnone : releases s op = []) (hbooks : books t = b) :
    Keeps s op t := by
  apply hb.keeps h
  · rw [hnone]
    exact ⟨fun r hr => absurd hr not_mem_nil, nodup_nil⟩
  · rw [hnone]
    exact hbooks

theorem covered_of_quiet {s : Controller} (h : Consistent s) {op : Op}
    (hsettled : settled s op = []) (hcancelled : cancelled s op = []) : Covered s op := by
  refine ⟨?_, ?_⟩
  · intro sessionId
    unfold takenOff
    rw [hsettled, hcancelled, ← balance_accounts]
    exact balance_nonneg h.sound.accounts sessionId
  · intro r hr
    rw [hcancelled] at hr
    exact absurd hr not_mem_nil

theorem ensureAssignment_keeps {s t : Controller} (h : Consistent s)
    {uuid agentId assignmentType scope sha : String}
    (hstep : s.ensureAssignment uuid agentId assignmentType scope sha = some t) :
    Keeps s (.ensureAssignment uuid agentId assignmentType scope sha) t := by
  unfold ensureAssignment at hstep
  dsimp only at hstep
  split_ifs at hstep with hreused hfresh
  · obtain rfl := Option.some.inj hstep
    exact (prepared_books h).quiet h rfl rfl
  · obtain ⟨assignments, hinsert, rfl⟩ := Option.map_eq_some_iff.mp hstep
    have hrows := (Table.insert?_eq_some hinsert).2
    simp only [freshAssignment, Bool.and_eq_true, all_eq_true, decide_eq_true_eq] at hfresh
    obtain ⟨⟨hname, _⟩, hreservations⟩ := hfresh
    have hholds : ∀ g ∈ (books s).holds, g.project ≠ some uuid := by
      intro g hg hproject
      obtain ⟨r, hr, rfl⟩ := mem_map.mp hg
      apply hreservations r (mem_of_mem_filter hr)
      unfold hold truthy at hproject
      exact (Option.filter_eq_some_iff.mp hproject).1
    have hbooks : ∀ identities, books { s with assignments, assignmentByIdentity := identities } =
        (books s).openProject uuid := by
      intro identities
      refine Books.ext rfl rfl ?_ rfl
      simp only [books, openProject, hrows, map_append]
      rfl
    refine ⟨⟨?_, ?_⟩, ?_⟩
    · rw [hbooks]
      exact h.sound.openProject hholds
    · rw [hbooks]
      simp only [openProject, map_append, mem_append]
      rintro (hmem | hmem)
      · exact h.named hmem
      · have heq : "" = uuid := by simpa using hmem
        exact hname heq.symm
    · rw [hbooks, balanced_openProject_iff hholds]
      exact (and_iff_left (covered_of_quiet h rfl rfl)).symm

theorem need_nonneg (opts : ReserveRequestOptions) (config : ResolvedTokenBudgetConfig) :
    0 ≤ opts.need config := by
  have hinput : 0 ≤ opts.estimatedInput config := le_max_left _ _
  have houtput : 0 ≤ opts.maxOutput config := le_max_left _ _
  exact add_nonneg hinput houtput

theorem reserveFor_keeps {s s₀ : Controller} (h : Consistent s₀) {uuid : String}
    {opts : ReserveRequestOptions} {agent : AgentBudgetState}
    (hb : books s = registered (books s₀) opts.sessionId)
    (hagent : s.agents.get? opts.sessionId = some agent) {result : ReservationResult × Controller}
    (hstep : s.reserveFor uuid opts agent = some result) :
    Keeps s₀ (.reserveRequest uuid opts) result.2 := by
  have hprepared := prepared_registered h opts.sessionId
  rw [← hb] at hprepared
  unfold reserveFor at hstep
  dsimp only at hstep
  split_ifs at hstep with hrun hsession
  · obtain rfl := Option.some.inj hstep
    exact hprepared.quiet h rfl rfl
  · obtain rfl := Option.some.inj hstep
    exact hprepared.quiet h rfl rfl
  · obtain ⟨reservations, hinsert, rfl⟩ := Option.map_eq_some_iff.mp hstep
    have howner : (hold (s.newReservation uuid opts)).owner ∈ (books s).accounts.map (·.1) := by
      rw [keys_accounts]
      have hkey : agent.sessionId = opts.sessionId := Table.key_of_get? hagent
      have hmem := mem_map_of_mem (f := AgentBudgetState.sessionId) (Table.mem_of_get? hagent)
      rw [hkey] at hmem
      exact hmem
    have hid : ∀ g ∈ (books s).holds, g.id ≠ (hold (s.newReservation uuid opts)).id := by
      intro g hg
      obtain ⟨r, hr, rfl⟩ := mem_map.mp hg
      have hnone := (Table.insert?_eq_some hinsert).1
      exact Table.get?_eq_none_iff.mp hnone r (mem_of_mem_filter hr)
    have hbooks := books_claim hinsert rfl (.reservation (s.newReservation uuid opts) none)
    have hkeys : ((books s).place (hold (s.newReservation uuid opts))).projects.map (·.1) =
        (books s).projects.map (·.1) := by
      unfold place
      dsimp only
      split
      · exact keys_credit _ _ _
      · rfl
    refine ⟨⟨?_, ?_⟩, ?_⟩
    · rw [hbooks]
      exact hprepared.sound.place howner hid (need_nonneg opts s.config)
    · rw [hbooks, hkeys, hprepared.projects]
      exact h.named
    · rw [hbooks, balanced_place_iff hprepared.sound howner, hprepared.balanced]
      exact (and_iff_left (covered_of_quiet h rfl rfl)).symm

theorem reserveRequest_keeps {s : Controller} (h : Consistent s) {uuid : String}
    {opts : ReserveRequestOptions} {result : ReservationResult × Controller}
    (hstep : s.reserveRequestSync uuid opts = some result) :
    Keeps s (.reserveRequest uuid opts) result.2 := by
  unfold reserveRequestSync at hstep
  dsimp only at hstep
  split_ifs at hstep with hdisabled
  · obtain rfl := Option.some.inj hstep
    exact (prepared_books h).quiet h rfl rfl
  · have hbooks := books_registerSession s opts.sessionId opts.agentId opts.parentSessionId
    cases hterminal : s.run.terminal with
    | some terminal =>
      simp only [hterminal] at hstep
      obtain rfl := Option.some.inj hstep
      exact (prepared_books h).quiet h rfl rfl
    | none =>
      simp only [hterminal] at hstep
      cases hagent : (s.registerSession opts.sessionId opts.agentId
          opts.parentSessionId).agents.get? opts.sessionId with
      | none =>
        simp only [hagent] at hstep
        cases hstep
      | some agent =>
        simp only [hagent] at hstep
        cases hended : agent.terminal with
        | some terminal =>
          simp only [hended] at hstep
          obtain rfl := Option.some.inj hstep
          exact (prepared_registered h opts.sessionId).quiet h rfl hbooks
        | none =>
          simp only [hended] at hstep
          exact reserveFor_keeps h hbooks hagent hstep

theorem cancelWhere_keeps {s s' : Controller} (h : Consistent s) {op : Op}
    (hbooks : books s' = books s) (p : ReservationRecord → Bool)
    (hsettled : settled s op = []) (hcancelled : cancelled s op = s'.reservedWhere p) :
    Keeps s op (s'.cancelWhere p) := by
  have hreleases : releases s op = (s'.reservedWhere p).map cancellation := by
    unfold releases
    rw [hsettled, hcancelled]
    rfl
  apply (prepared_books h).keeps h
  · rw [hreleases, ← hbooks]
    exact ends_reservedWhere s' p
  · rw [books_cancelWhere, hreleases, hbooks]

theorem cancelAllReservations_keeps {s : Controller} (h : Consistent s) :
    Keeps s .cancelAllReservations s.cancelAllReservations :=
  cancelWhere_keeps h rfl _ rfl rfl

theorem Keeps.of_books_eq {s t t' : Controller} {op : Op} (h : Keeps s op t)
    (hbooks : books t' = books t) : Keeps s op t' := by
  refine ⟨⟨?_, ?_⟩, ?_⟩
  · rw [hbooks]
    exact h.1.sound
  · rw [hbooks]
    exact h.1.named
  · rw [hbooks]
    exact h.2

theorem terminate_keeps {s : Controller} (h : Consistent s) (now : Nat) (reason : String) :
    Keeps s (.terminate now reason) (s.terminate now reason) := by
  unfold terminate
  cases hterminal : s.run.terminal.isSome with
  | true =>
    have hcancelled : cancelled s (.terminate now reason) = [] := by
      simp [cancelled, hterminal]
    rw [if_pos rfl]
    apply (prepared_books h).quiet h _ rfl
    unfold releases
    rw [hcancelled]
    rfl
  | false =>
    rw [if_neg (by simp)]
    have hcancelled : cancelled s (.terminate now reason) =
        (s.setTerminal ⟨reason, now⟩).reservedWhere fun _ => true := by
      simp only [cancelled, hterminal]
      rfl
    exact (cancelWhere_keeps h (books_setTerminal s _) _ rfl hcancelled).of_books_eq
      (books_endSessions _ _ _)

theorem affected_endSessions (s : Controller) (p : AgentBudgetState → Bool) (state : TerminalState) :
    (s.endSessions p state).affected = s.affected := by
  funext sessionId candidate
  have hrows : (s.endSessions p state).agents.rows.map
      (fun a => (a.parentSessionId, a.sessionId)) =
        s.agents.rows.map fun a => (a.parentSessionId, a.sessionId) :=
    s.agents.map_rows_update _ (fun a => { a with terminal := some state }) (fun _ => rfl)
      fun _ => rfl
  have hany : ∀ rows : List AgentBudgetState,
      (rows.any fun a => a.parentSessionId = some sessionId && a.sessionId = candidate) =
        (rows.map fun a => (a.parentSessionId, a.sessionId)).any
          fun entry => entry.1 = some sessionId && entry.2 = candidate := by
    intro rows
    rw [any_map]
    rfl
  unfold affected
  rw [hany, hany, hrows]

theorem cancelSession_keeps {s : Controller} (h : Consistent s) (now : Nat)
    (sessionId reason : String) :
    Keeps s (.cancelSession now sessionId reason) (s.cancelSession now sessionId reason) := by
  apply cancelWhere_keeps h
  · rw [books_endSessions, books_endSessions]
  · rfl
  · rw [affected_endSessions, affected_endSessions]
    rfl

theorem cancelReservation_keeps {s : Controller} (h : Consistent s)
    (reservationId reason : String) :
    Keeps s (.cancelReservation reservationId reason)
      (s.cancelReservation reservationId reason).2 := by
  have hquiet : cancelled s (.cancelReservation reservationId reason) = [] →
      Keeps s (.cancelReservation reservationId reason) s := by
    intro hcancelled
    apply (prepared_books h).quiet h _ rfl
    unfold releases
    rw [hcancelled]
    rfl
  unfold cancelReservation
  cases hget : s.reservations.get? reservationId with
  | none => exact hquiet (by simp [cancelled, hget])
  | some r =>
    dsimp only
    split_ifs with hstatus
    · have hkey : r.reservationId = reservationId := Table.key_of_get? hget
      have hcancelled : cancelled s (.cancelReservation reservationId reason) = [r] := by
        simp [cancelled, hget, hstatus]
      have hreleases : releases s (.cancelReservation reservationId reason) = [cancellation r] := by
        unfold releases
        rw [hcancelled]
        rfl
      apply (prepared_books h).keeps h
      · rw [hreleases]
        refine ⟨?_, nodup_singleton _⟩
        intro release hrelease
        rw [mem_singleton.mp hrelease]
        refine mem_map.mpr ⟨r, ?_, rfl⟩
        exact mem_filter.mpr ⟨Table.mem_of_get? hget, by simpa using hstatus⟩
      · rw [hreleases, foldl_cons, foldl_nil]
        exact books_cancelRecord (hkey.symm ▸ hget) (some reason)
    · exact hquiet (by simp [cancelled, hget, hstatus])

theorem books_chargeUsage (s : Controller) (opts : CommitUsageOptions)
    (reservation : Option ReservationRecord) (billable : ℚ) :
    books (s.chargeUsage opts reservation billable) = registered (books s) opts.sessionId := by
  unfold chargeUsage
  dsimp only
  have hregister := books_registerSession
    { s with run := { s.run with consumed := s.run.consumed + billable } } opts.sessionId
    opts.agentId opts.parentSessionId
  have hagent : ∀ s' : Controller, books (s'.updateAgent opts.sessionId
      (fun a => { a with consumed := a.consumed + billable }) fun _ => rfl) = books s' :=
    fun s' => books_updateAgent_of_eq s' _ (fun a => { a with consumed := a.consumed + billable })
      (fun _ => rfl) fun _ => rfl
  split
  · rename_i assignmentId _
    exact (books_updateAssignment_of_eq _ assignmentId
      (fun a => { a with consumed := a.consumed + billable }) (fun _ => rfl) fun _ => rfl).trans
        ((hagent _).trans hregister)
  · exact (hagent _).trans hregister

/-- Registering the debtor of a release before or after it comes to the same. -/
theorem registered_release {b : Books String String String ℚ}
    {r : Release String String String ℚ} (hamount : 0 ≤ r.hold.amount) :
    registered (b.release r) r.debtor = (registered b r.debtor).release r := by
  have hkeys : (b.release r).accounts.map (·.1) = b.accounts.map (·.1) := keys_debit _ _ _
  unfold registered
  rw [hkeys]
  split_ifs
  · rfl
  · refine Books.ext rfl ?_ rfl rfl
    simp only [openAccount, release, debit, map_append, map_cons, map_nil, if_true]
    rw [zero_sub, max_eq_left (neg_nonpos.mpr hamount)]

theorem released_eq_some {s : Controller} {opts : CommitUsageOptions} {r : ReservationRecord}
    (h : s.released opts = some r) :
    s.reservations.get? r.reservationId = some r ∧ r.status = .reserved := by
  unfold released namedReservation at h
  obtain ⟨hnamed, hstatus⟩ := Option.filter_eq_some_iff.mp h
  obtain ⟨id, _, hget⟩ := Option.bind_eq_some_iff.mp hnamed
  have hkey : r.reservationId = id := Table.key_of_get? hget
  exact ⟨hkey.symm ▸ hget, by simpa using hstatus⟩

theorem mem_holds {s : Controller} {r : ReservationRecord}
    (hget : s.reservations.get? r.reservationId = some r) (hstatus : r.status = .reserved) :
    hold r ∈ (books s).holds := by
  refine mem_map.mpr ⟨r, ?_, rfl⟩
  exact mem_filter.mpr ⟨Table.mem_of_get? hget, by simpa using hstatus⟩

theorem books_commitCharge {s : Controller} (h : Consistent s) (now : Nat)
    (opts : CommitUsageOptions) :
    books (s.commitCharge now opts) =
      ((s.released opts).toList.map (settlement opts)).foldl Books.release
        (registered (books s) opts.sessionId) := by
  have hcharge : ∀ s' : Controller,
      books ((s'.chargeUsage opts (s.namedReservation opts) (s.usageOf opts).billable)) =
        registered (books s') opts.sessionId := fun s' => books_chargeUsage s' opts _ _
  unfold commitCharge
  cases hreleased : s.released opts with
  | none => exact hcharge s
  | some r =>
    obtain ⟨hget, hstatus⟩ := released_eq_some hreleased
    have hamount : 0 ≤ (settlement opts r).hold.amount :=
      h.sound.amounts _ (mem_holds hget hstatus)
    have hbooks := hcharge (s.releaseClaim now opts r (s.usageOf opts).billable)
    rw [books_releaseClaim hget] at hbooks
    exact hbooks.trans (registered_release hamount)

section Untouched

variable (s : Controller) (now : Nat) (opts : CommitUsageOptions)

theorem run_registerSession (sessionId agentId : String) (parentSessionId : Option String) :
    (s.registerSession sessionId agentId parentSessionId).run = s.run := by
  unfold registerSession
  split
  · rfl
  · rfl

theorem config_registerSession (sessionId agentId : String) (parentSessionId : Option String) :
    (s.registerSession sessionId agentId parentSessionId).config = s.config := by
  unfold registerSession
  split
  · rfl
  · rfl

theorem reservations_registerSession (sessionId agentId : String)
    (parentSessionId : Option String) :
    (s.registerSession sessionId agentId parentSessionId).reservations = s.reservations := by
  unfold registerSession
  split
  · rfl
  · rfl

theorem chargeUsage_frame (reservation : Option ReservationRecord) (billable : ℚ) :
    (s.chargeUsage opts reservation billable).run =
        { s.run with consumed := s.run.consumed + billable } ∧
      (s.chargeUsage opts reservation billable).config = s.config ∧
      (s.chargeUsage opts reservation billable).reservations = s.reservations := by
  unfold chargeUsage
  dsimp only
  split
  · refine ⟨?_, ?_, ?_⟩
    · exact run_registerSession _ _ _ _
    · exact config_registerSession _ _ _ _
    · exact reservations_registerSession _ _ _ _
  · refine ⟨?_, ?_, ?_⟩
    · exact run_registerSession _ _ _ _
    · exact config_registerSession _ _ _ _
    · exact reservations_registerSession _ _ _ _

theorem releaseClaim_frame (r : ReservationRecord) (billable : ℚ) :
    (s.releaseClaim now opts r billable).run.terminal = s.run.terminal ∧
      (s.releaseClaim now opts r billable).run.ceiling = s.run.ceiling ∧
      (s.releaseClaim now opts r billable).run.consumed = s.run.consumed ∧
      (s.releaseClaim now opts r billable).config = s.config ∧
      (s.releaseClaim now opts r billable).reservations =
        s.reservations.upsert { r with status := .committed, committedAt := some now } := by
  unfold releaseClaim
  dsimp only
  split
  · exact ⟨rfl, rfl, rfl, rfl, rfl⟩
  · exact ⟨rfl, rfl, rfl, rfl, rfl⟩

theorem hardStops_commitCharge :
    ((s.commitCharge now opts).warn now).hardStops = stopsAfter s opts := by
  have hwarn : ∀ s' : Controller, (s'.warn now).hardStops = s'.hardStops := by
    intro s'
    unfold warn
    split_ifs
    · rfl
    · rfl
  have hcharge : ∀ s' : Controller, s'.run.terminal = s.run.terminal →
      s'.run.ceiling = s.run.ceiling → s'.run.consumed = s.run.consumed → s'.config = s.config →
      (s'.chargeUsage opts (s.namedReservation opts) (s.usageOf opts).billable).hardStops =
        stopsAfter s opts := by
    intro s' hterminal hceiling hconsumed hconfig
    obtain ⟨hrun, hconfig', _⟩ :=
      chargeUsage_frame s' opts (s.namedReservation opts) (s.usageOf opts).billable
    unfold hardStops stopsAfter
    rw [hrun, hconfig', hterminal, hceiling, hconsumed, hconfig]
  rw [hwarn]
  unfold commitCharge
  cases hreleased : s.released opts with
  | none => exact hcharge s rfl rfl rfl rfl
  | some r =>
    obtain ⟨hterminal, hceiling, hconsumed, hconfig, _⟩ :=
      releaseClaim_frame s now opts r (s.usageOf opts).billable
    exact hcharge _ hterminal hceiling hconsumed hconfig

theorem reservations_commitCharge :
    (s.commitCharge now opts).reservations =
      match s.released opts with
      | some r => s.reservations.upsert { r with status := .committed, committedAt := some now }
      | none => s.reservations := by
  unfold commitCharge
  cases hreleased : s.released opts with
  | none => exact (chargeUsage_frame s opts _ _).2.2
  | some r =>
    obtain ⟨_, _, _, _, hreservations⟩ :=
      releaseClaim_frame s now opts r (s.usageOf opts).billable
    exact (chargeUsage_frame _ opts _ _).2.2.trans hreservations

theorem reservations_warn : (s.warn now).reservations = s.reservations := by
  unfold warn
  split_ifs
  · rfl
  · rfl

theorem reserved_commitCharge :
    ((s.commitCharge now opts).warn now).reservedWhere (fun _ => true) =
      match s.released opts with
      | some r =>
        (s.reservedWhere fun _ => true).filter fun row => row.reservationId ≠ r.reservationId
      | none => s.reservedWhere fun _ => true := by
  unfold reservedWhere
  rw [reservations_warn, reservations_commitCharge]
  cases hreleased : s.released opts with
  | none => rfl
  | some r =>
    exact reserved_upsert (q := { r with status := .committed, committedAt := some now })
      (released_eq_some hreleased).1 rfl (by simp)

end Untouched

theorem holds_registered (b : Books String String String ℚ) (sessionId : String) :
    (registered b sessionId).holds = b.holds := by
  unfold registered
  split_ifs
  · rfl
  · rfl

theorem cancelled_subset (s : Controller) (now : Nat) (opts : CommitUsageOptions) :
    (cancelled s (.commitUsage now opts)).Sublist (s.reservedWhere fun _ => true) := by
  unfold cancelled
  dsimp only
  split
  · exact nil_sublist _
  · split
    · exact filter_sublist
    · exact Sublist.refl _

theorem ends_commit (s : Controller) (now : Nat) (opts : CommitUsageOptions)
    (hfresh : s.isDuplicate opts = false) :
    Ends (registered (books s) opts.sessionId) (releases s (.commitUsage now opts)) := by
  have hcancelled := cancelled_subset s now opts
  have hends := ends_reservedWhere s fun _ => true
  have hsettled : settled s (.commitUsage now opts) =
      (s.released opts).toList.map fun r => (opts, r) := by
    simp [settled, hfresh]
  unfold releases
  rw [hsettled, map_map]
  refine ⟨?_, ?_⟩
  · rw [holds_registered]
    intro release hrelease
    rcases mem_append.mp hrelease with hmem | hmem
    · obtain ⟨r, hr, rfl⟩ := mem_map.mp hmem
      obtain ⟨hget, hstatus⟩ := released_eq_some (Option.mem_toList.mp hr)
      exact mem_holds hget hstatus
    · obtain ⟨r, hr, rfl⟩ := mem_map.mp hmem
      exact hends.mem _ (mem_map_of_mem (hcancelled.subset hr))
  · have hnodup := (nodup_reservedWhere s fun _ => true).sublist
      (hcancelled.map fun r => r.reservationId)
    cases hreleased : s.released opts with
    | none =>
      simp only [Option.toList_none, map_nil, nil_append, map_map]
      exact hnodup
    | some r =>
      simp only [Option.toList_some, map_cons, map_nil, cons_append, nil_append, map_map]
      rw [nodup_cons]
      refine ⟨?_, hnodup⟩
      intro hmem
      obtain ⟨other, hother, hid⟩ := mem_map.mp hmem
      unfold cancelled at hother
      simp only [hfresh, hreleased, Bool.false_or] at hother
      split_ifs at hother
      · exact absurd hother not_mem_nil
      · have hne : other.reservationId ≠ r.reservationId := by
          simpa using (mem_filter.mp hother).2
        exact absurd hid hne

theorem commitUsage_keeps {s : Controller} (h : Consistent s) (now : Nat)
    (opts : CommitUsageOptions) :
    Keeps s (.commitUsage now opts) (s.commitUsageSync now opts).2 := by
  unfold commitUsageSync
  cases hduplicate : s.isDuplicate opts with
  | true =>
    rw [if_pos rfl]
    apply (prepared_books h).quiet h _ rfl
    simp [releases, settled, cancelled, hduplicate]
  | false =>
    rw [if_neg (by simp)]
    have hsettled : settled s (.commitUsage now opts) =
        (s.released opts).toList.map fun r => (opts, r) := by
      simp [settled, hduplicate]
    have hcharged := books_commitCharge h now opts
    rw [← books_warn now] at hcharged
    apply (prepared_registered h opts.sessionId).keeps h (ends_commit s now opts hduplicate)
    unfold releases
    rw [hsettled, map_map, foldl_append]
    unfold hardStop
    dsimp only
    rw [hardStops_commitCharge]
    cases hstops : stopsAfter s opts with
    | false =>
      have hcancelled : cancelled s (.commitUsage now opts) = [] := by
        simp [cancelled, hstops]
      rw [hcancelled]
      exact hcharged
    | true =>
      have hcancelled : cancelled s (.commitUsage now opts) =
          ((s.commitCharge now opts).warn now).reservedWhere fun _ => true := by
        rw [reserved_commitCharge]
        simp only [cancelled, hduplicate, hstops]
        rfl
      rw [hcancelled]
      have hcancel := books_cancelWhere
        (((s.commitCharge now opts).warn now).setTerminal ⟨"budget_exhausted", now⟩) fun _ => true
      rw [books_setTerminal, hcharged] at hcancel
      exact hcancel

theorem step_keeps {s t : Controller} (h : Consistent s) {op : Op} (hstep : step s op = some t) :
    Keeps s op t := by
  cases op with
  | registerSession sessionId agentId parentSessionId =>
    obtain rfl := Option.some.inj hstep
    exact (prepared_registered h sessionId).quiet h rfl
      (books_registerSession s sessionId agentId parentSessionId)
  | ensureAssignment uuid agentId assignmentType scope sha =>
    exact ensureAssignment_keeps h hstep
  | completeAssignment assignmentId =>
    obtain rfl := Option.some.inj hstep
    exact (prepared_books h).quiet h rfl (books_closeAssignment .completed s assignmentId)
  | supersedeAssignment assignmentId =>
    obtain rfl := Option.some.inj hstep
    exact (prepared_books h).quiet h rfl (books_closeAssignment .superseded s assignmentId)
  | reserveRequest uuid opts =>
    obtain ⟨result, hresult, rfl⟩ := Option.map_eq_some_iff.mp hstep
    exact reserveRequest_keeps h hresult
  | commitUsage now opts =>
    obtain rfl := Option.some.inj hstep
    exact commitUsage_keeps h now opts
  | terminate now reason =>
    obtain rfl := Option.some.inj hstep
    exact terminate_keeps h now reason
  | cancelSession now sessionId reason =>
    obtain rfl := Option.some.inj hstep
    exact cancelSession_keeps h now sessionId reason
  | cancelReservation reservationId reason =>
    obtain rfl := Option.some.inj hstep
    exact cancelReservation_keeps h reservationId reason
  | cancelAllReservations =>
    obtain rfl := Option.some.inj hstep
    exact cancelAllReservations_keeps h

def exampleConfig : ResolvedTokenBudgetConfig where
  enabled := true
  runTotal := 100
  childTotal := 50
  warningThreshold := 4 / 5
  hardStopThreshold := 1
  maxRequestInputTokens := 200
  maxRequestOutputTokens := 200

end LedgerBalance
