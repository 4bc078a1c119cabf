import FlowDeck.Budget.LedgerBalance

/-! What cancelling a session leaves of the sessions below it. -/

namespace SessionTree

open UsageStore BudgetController BudgetController.Controller BudgetLedgers Machine Table Option

/-! ### What is claimed -/

def Child (s : Controller) (parent sessionId : String) : Prop :=
  ∃ a, s.agents.get? sessionId = some a ∧ a.parentSessionId = some parent

/-- Below, at any depth. -/
def Descends (s : Controller) : String → String → Prop := Relation.TransGen (Child s)

/-- The session is registered, and has been ended. -/
def Ended (s : Controller) (sessionId : String) : Prop :=
  ∃ a, s.agents.get? sessionId = some a ∧ a.terminal.isSome = true

def Unreserved (s : Controller) (sessionId : String) : Prop :=
  ∀ r ∈ s.reservations.rows, r.sessionId = sessionId → r.status ≠ .reserved

/-- No reserve for the session succeeds, now or after any operations. -/
def Refused (s : Controller) (sessionId : String) : Prop :=
  ∀ ops t uuid opts result t', run step s ops = some t → opts.sessionId = sessionId →
    t.reserveRequestSync uuid opts = some (result, t') → result.allowed = false

def CancelsDescendants (s : Controller) (now : Nat) (sessionId reason : String) : Prop :=
  ∀ d, Descends s sessionId d → Ended (s.cancelSession now sessionId reason) d ∧
    Unreserved (s.cancelSession now sessionId reason) d ∧
      Refused (s.cancelSession now sessionId reason) d

/-! ### What ends stays ended -/

/-- The configuration is the same, and no session that has ended is open again. -/
structure KeepsEnded (s t : Controller) : Prop where
  config : t.config = s.config
  ended : ∀ d, Ended s d → Ended t d

theorem KeepsEnded.refl (s : Controller) : KeepsEnded s s := ⟨rfl, fun _ h => h⟩

variable {s t : Controller}

theorem KeepsEnded.trans {u : Controller} (h : KeepsEnded s t) (h' : KeepsEnded t u) :
    KeepsEnded s u :=
  ⟨h'.config.trans h.config, fun d hd => h'.ended d (h.ended d hd)⟩

theorem KeepsEnded.of_agents (hconfig : t.config = s.config) (hagents : t.agents = s.agents) :
    KeepsEnded s t := by
  refine ⟨hconfig, fun d hd => ?_⟩
  obtain ⟨a, ha, hterminal⟩ := hd
  exact ⟨a, by rw [hagents]; exact ha, hterminal⟩

theorem KeepsEnded.update (p : AgentBudgetState → Bool) (f : AgentBudgetState → AgentBudgetState)
    (hf : ∀ a, (f a).sessionId = a.sessionId)
    (hkeep : ∀ a, a.terminal.isSome = true → (f a).terminal.isSome = true) :
    KeepsEnded s { s with agents := s.agents.update p f hf } := by
  refine ⟨rfl, fun d hd => ?_⟩
  obtain ⟨a, ha, hterminal⟩ := hd
  refine ⟨setWhere p f a, ?_, ?_⟩
  · rw [get?_update, ha]
    rfl
  · unfold setWhere
    split_ifs
    · exact hkeep a hterminal
    · exact hterminal

theorem keepsEnded_updateAgent (s : Controller) (sessionId : String)
    (f : AgentBudgetState → AgentBudgetState) (hf : ∀ a, (f a).sessionId = a.sessionId)
    (hterminal : ∀ a, (f a).terminal = a.terminal) :
    KeepsEnded s (s.updateAgent sessionId f hf) := by
  apply KeepsEnded.update
  intro a ha
  rw [hterminal]
  exact ha

theorem keepsEnded_endSessions (s : Controller) (p : AgentBudgetState → Bool)
    (state : TerminalState) : KeepsEnded s (s.endSessions p state) := by
  apply KeepsEnded.update
  intro a _
  rfl

theorem keepsEnded_registerSession (s : Controller) (sessionId agentId : String)
    (parentSessionId : Option String) :
    KeepsEnded s (s.registerSession sessionId agentId parentSessionId) := by
  unfold registerSession
  split
  · next agents hinsert =>
    refine ⟨rfl, fun d hd => ?_⟩
    obtain ⟨a, ha, hterminal⟩ := hd
    exact ⟨a, get?_insert?_of_some hinsert ha, hterminal⟩
  · exact .refl s

theorem keepsEnded_cancelRecord (terminationReason : Option String) (s : Controller)
    (r : ReservationRecord) : KeepsEnded s (cancelRecord terminationReason s r) := by
  unfold cancelRecord
  have hfields : KeepsEnded s { s with
      reservations := s.reservations.upsert { r with status := .cancelled }
      run := { s.run with reserved := max 0 (s.run.reserved - r.claimed) } } := .of_agents rfl rfl
  have hagent := keepsEnded_updateAgent { s with
      reservations := s.reservations.upsert { r with status := .cancelled }
      run := { s.run with reserved := max 0 (s.run.reserved - r.claimed) } } r.sessionId
    (fun a => { a with reserved := max 0 (a.reserved - r.claimed) }) (fun _ => rfl) fun _ => rfl
  exact (hfields.trans hagent).trans (.of_agents rfl rfl)

theorem keepsEnded_cancelWhere (s : Controller) (p : ReservationRecord → Bool) :
    KeepsEnded s (s.cancelWhere p) := by
  unfold cancelWhere
  generalize s.reservedWhere p = rs
  induction rs generalizing s with
  | nil => exact .refl s
  | cons r rs ih =>
    rw [List.foldl_cons]
    exact (keepsEnded_cancelRecord none s r).trans (ih _)

theorem keepsEnded_claim (s : Controller) (r : ReservationRecord) : KeepsEnded s (s.claim r) := by
  unfold claim
  have hrun : KeepsEnded s { s with run := { s.run with reserved := s.run.reserved + r.claimed } } :=
    .of_agents rfl rfl
  have hagent := keepsEnded_updateAgent
    { s with run := { s.run with reserved := s.run.reserved + r.claimed } } r.sessionId
    (fun a => { a with reserved := a.reserved + r.claimed }) (fun _ => rfl) fun _ => rfl
  dsimp only
  split
  · exact (hrun.trans hagent).trans (.of_agents rfl rfl)
  · exact hrun.trans hagent

theorem keepsEnded_reserveFor {uuid : String} {opts : ReserveRequestOptions}
    {agent : AgentBudgetState} {result : ReservationResult}
    (h : s.reserveFor uuid opts agent = some (result, t)) : KeepsEnded s t := by
  unfold reserveFor at h
  dsimp only at h
  split_ifs at h
  · obtain rfl := (Prod.mk.inj (some.inj h)).2
    exact .of_agents rfl rfl
  · obtain rfl := (Prod.mk.inj (some.inj h)).2
    exact .of_agents rfl rfl
  · obtain ⟨reservations, -, hpair⟩ := map_eq_some_iff.mp h
    obtain rfl := (Prod.mk.inj hpair).2
    exact (keepsEnded_claim s _).trans (.of_agents rfl rfl)

theorem keepsEnded_reserveRequest {uuid : String} {opts : ReserveRequestOptions}
    {result : ReservationResult} (h : s.reserveRequestSync uuid opts = some (result, t)) :
    KeepsEnded s t := by
  unfold reserveRequestSync at h
  split_ifs at h
  · obtain rfl := (Prod.mk.inj (some.inj h)).2
    exact .of_agents rfl rfl
  · split at h
    · obtain rfl := (Prod.mk.inj (some.inj h)).2
      exact .of_agents rfl rfl
    · have hregister := keepsEnded_registerSession s opts.sessionId opts.agentId
        opts.parentSessionId
      dsimp only at h
      split at h
      · cases h
      · split at h
        · obtain rfl := (Prod.mk.inj (some.inj h)).2
          exact hregister.trans (.of_agents rfl rfl)
        · exact hregister.trans (keepsEnded_reserveFor h)

theorem keepsEnded_releaseClaim (s : Controller) (now : Nat) (opts : CommitUsageOptions)
    (r : ReservationRecord) (billable : ℚ) :
    KeepsEnded s (s.releaseClaim now opts r billable) := by
  unfold releaseClaim
  dsimp only
  have hrun : KeepsEnded s { s with
      reservations := s.reservations.upsert
        { r with status := .committed, committedAt := some now }
      run := { s.run with
        reserved := max 0 (s.run.reserved - r.claimed)
        releasedUnused := s.run.releasedUnused + max 0 (r.claimed - billable) } } :=
    .of_agents rfl rfl
  have hagent := hrun.trans (keepsEnded_updateAgent _ opts.sessionId
    (fun a => { a with reserved := max 0 (a.reserved - r.claimed) }) (fun _ => rfl) fun _ => rfl)
  split
  · exact hagent.trans (.of_agents rfl rfl)
  · exact hagent

theorem keepsEnded_chargeUsage (s : Controller) (opts : CommitUsageOptions)
    (reservation : Option ReservationRecord) (billable : ℚ) :
    KeepsEnded s (s.chargeUsage opts reservation billable) := by
  unfold chargeUsage
  dsimp only
  have hrun : KeepsEnded s { s with run := { s.run with consumed := s.run.consumed + billable } } :=
    .of_agents rfl rfl
  have hregister := hrun.trans (keepsEnded_registerSession _ opts.sessionId opts.agentId
    opts.parentSessionId)
  have hagent := hregister.trans (keepsEnded_updateAgent _ opts.sessionId
    (fun a => { a with consumed := a.consumed + billable }) (fun _ => rfl) fun _ => rfl)
  split
  · exact hagent.trans (.of_agents rfl rfl)
  · exact hagent

theorem keepsEnded_hardStop (now : Nat) (s : Controller) : KeepsEnded s (s.hardStop now) := by
  unfold hardStop
  split_ifs
  · have hset : KeepsEnded s (s.setTerminal ⟨"budget_exhausted", now⟩) := .of_agents rfl rfl
    exact hset.trans (keepsEnded_cancelWhere _ _)
  · exact .refl s

theorem keepsEnded_warn (now : Nat) (s : Controller) : KeepsEnded s (s.warn now) := by
  unfold warn
  split_ifs
  · exact .of_agents rfl rfl
  · exact .refl s

theorem keepsEnded_commitUsage (s : Controller) (now : Nat) (opts : CommitUsageOptions) :
    KeepsEnded s (s.commitUsageSync now opts).2 := by
  unfold commitUsageSync
  split_ifs
  · exact .refl s
  · have hcharge : KeepsEnded s (s.commitCharge now opts) := by
      unfold commitCharge
      dsimp only
      split
      · next r _ =>
        have hrelease := keepsEnded_releaseClaim s now opts r (s.usageOf opts).billable
        have hcharge := hrelease.trans (keepsEnded_chargeUsage _ opts (s.namedReservation opts)
          (s.usageOf opts).billable)
        exact hcharge.trans (.of_agents rfl rfl)
      · have hcharge := keepsEnded_chargeUsage s opts (s.namedReservation opts)
          (s.usageOf opts).billable
        exact hcharge.trans (.of_agents rfl rfl)
    exact (hcharge.trans (keepsEnded_warn now _)).trans (keepsEnded_hardStop now _)

theorem keepsEnded_closeAssignment (status : AssignmentStatus) (s : Controller)
    (assignmentId : String) : KeepsEnded s (s.closeAssignment status assignmentId) := by
  unfold closeAssignment
  split
  · split_ifs
    · exact .of_agents rfl rfl
    · exact .refl s
  · exact .refl s

theorem keepsEnded_cancelSession (s : Controller) (now : Nat) (sessionId reason : String) :
    KeepsEnded s (s.cancelSession now sessionId reason) := by
  unfold cancelSession
  have hself := keepsEnded_endSessions s (fun a => a.sessionId = sessionId) ⟨reason, now⟩
  have hchildren := hself.trans (keepsEnded_endSessions _
    (fun a => a.parentSessionId = some sessionId) ⟨reason, now⟩)
  exact hchildren.trans (keepsEnded_cancelWhere _ _)

theorem keepsEnded_step {op : Op} (h : step s op = some t) : KeepsEnded s t := by
  cases op with
  | registerSession sessionId agentId parentSessionId =>
    obtain rfl := some.inj h
    exact keepsEnded_registerSession s sessionId agentId parentSessionId
  | ensureAssignment uuid agentId assignmentType scope sha =>
    simp only [step, ensureAssignment] at h
    split_ifs at h
    · obtain rfl := some.inj h
      exact .refl s
    · obtain ⟨assignments, -, rfl⟩ := map_eq_some_iff.mp h
      exact .of_agents rfl rfl
  | completeAssignment assignmentId =>
    obtain rfl := some.inj h
    exact keepsEnded_closeAssignment .completed s assignmentId
  | supersedeAssignment assignmentId =>
    obtain rfl := some.inj h
    exact keepsEnded_closeAssignment .superseded s assignmentId
  | reserveRequest uuid opts =>
    obtain ⟨⟨result, t'⟩, hreserve, rfl⟩ := map_eq_some_iff.mp h
    exact keepsEnded_reserveRequest hreserve
  | commitUsage now opts =>
    obtain rfl := some.inj h
    exact keepsEnded_commitUsage s now opts
  | terminate now reason =>
    obtain rfl := some.inj h
    unfold Controller.terminate
    split_ifs
    · exact .refl s
    · have hset : KeepsEnded s (s.setTerminal ⟨reason, now⟩) := .of_agents rfl rfl
      exact (hset.trans (keepsEnded_cancelWhere _ _)).trans (keepsEnded_endSessions _ _ _)
  | cancelSession now sessionId reason =>
    obtain rfl := some.inj h
    exact keepsEnded_cancelSession s now sessionId reason
  | cancelReservation reservationId reason =>
    obtain rfl := some.inj h
    unfold Controller.cancelReservation
    split
    · split_ifs
      · exact keepsEnded_cancelRecord (some reason) s _
      · exact .refl s
    · exact .refl s
  | cancelAllReservations =>
    obtain rfl := some.inj h
    exact keepsEnded_cancelWhere s _

theorem keepsEnded_run {ops : List Op} (h : run step s ops = some t) : KeepsEnded s t :=
  run_invariant (I := KeepsEnded s) (fun _ _ _ hu hstep => hu.trans (keepsEnded_step hstep))
    (.refl s) h

theorem refused_of_ended {d : String} (henabled : s.config.enabled = true) (h : Ended s d) :
    Refused s d := by
  intro ops t uuid opts result t' hrun hsession hreserve
  have hkept := keepsEnded_run hrun
  have hregister := keepsEnded_registerSession t opts.sessionId opts.agentId opts.parentSessionId
  obtain ⟨a, ha, hterminal⟩ := hregister.ended d (hkept.ended d h)
  obtain ⟨terminal, hsome⟩ := isSome_iff_exists.mp hterminal
  have hon : t.config.enabled ≠ false := by simp [hkept.config, henabled]
  unfold reserveRequestSync at hreserve
  rw [if_neg hon] at hreserve
  split at hreserve
  · obtain rfl := (Prod.mk.inj (some.inj hreserve)).1
    rfl
  · rw [← hsession] at ha
    simp only [ha, hsome] at hreserve
    obtain rfl := (Prod.mk.inj (some.inj hreserve)).1
    rfl

/-- A budget that is switched off refuses nothing. -/
theorem enabled_of_refused {d : String} (h : Refused s d) : s.config.enabled = true := by
  by_contra hoff
  have hdisabled : s.config.enabled = false := by simpa using hoff
  let opts : ReserveRequestOptions := ⟨"", d, "", none, none, "", none, none, none⟩
  have hreserve : s.reserveRequestSync "" opts =
      some (⟨true, "", none, true, s.remainingRun, 0⟩,
        s.recordUsage (opts.buildRecord "" .disabled none)) := by
    unfold reserveRequestSync
    rw [if_pos hdisabled]
  have hallowed := h [] s "" opts _ _ rfl rfl hreserve
  cases hallowed

/-! ### What a cancellation reaches -/

theorem terminal_cancelWhere (s : Controller) (p : ReservationRecord → Bool) (d : String) :
    ((s.cancelWhere p).agents.get? d).map (fun a => (a.parentSessionId, a.terminal)) =
      (s.agents.get? d).map fun a => (a.parentSessionId, a.terminal) := by
  unfold cancelWhere
  generalize s.reservedWhere p = rs
  induction rs generalizing s with
  | nil => rfl
  | cons r rs ih =>
    rw [List.foldl_cons, ih]
    have hagents : (cancelRecord none s r).agents.get? d = (s.agents.get? d).map
        (setWhere (fun a => decide (a.sessionId = r.sessionId))
          fun a => { a with reserved := max 0 (a.reserved - r.claimed) }) := by
      simp only [cancelRecord, updateAgent, append, get?_update]
    rw [hagents, map_map]
    congr 1
    funext a
    simp only [Function.comp_apply, setWhere]
    split_ifs
    · rfl
    · rfl

theorem get?_cancelRecords {rs : List ReservationRecord} {id : String}
    (hfree : ∀ r ∈ rs, r.reservationId ≠ id) :
    (rs.foldl (cancelRecord none) s).reservations.get? id = s.reservations.get? id := by
  induction rs generalizing s with
  | nil => rfl
  | cons r rs ih =>
    rw [List.foldl_cons, ih fun q hq => hfree q (List.mem_cons_of_mem r hq)]
    exact get?_cancelRecord (Ne.symm (hfree r List.mem_cons_self)) none

theorem cancelled_of_mem {rs : List ReservationRecord} {r : ReservationRecord} (hr : r ∈ rs)
    (hdistinct : (rs.map fun r => r.reservationId).Nodup) :
    (rs.foldl (cancelRecord none) s).reservations.get? r.reservationId =
      some { r with status := .cancelled } := by
  induction rs generalizing s with
  | nil => cases hr
  | cons q rs ih =>
    obtain ⟨hnot, hdistinct⟩ := List.nodup_cons.mp hdistinct
    rw [List.foldl_cons]
    rcases List.mem_cons.mp hr with rfl | hr
    · have hfree : ∀ other ∈ rs, other.reservationId ≠ r.reservationId := by
        intro other hother heq
        exact hnot (List.mem_map.mpr ⟨other, hother, heq⟩)
      rw [get?_cancelRecords hfree]
      have hget := get?_upsert s.reservations { r with status := .cancelled } r.reservationId
      rw [if_pos rfl] at hget
      exact hget
    · exact ih hr hdistinct

/-- What is still reserved afterwards was reserved before and is not picked out. -/
theorem reserved_cancelWhere_iff (s : Controller) (p : ReservationRecord → Bool)
    (r : ReservationRecord) :
    r ∈ (s.cancelWhere p).reservations.rows ∧ r.status = .reserved ↔
      r ∈ s.reservations.rows ∧ r.status = .reserved ∧ p r = false := by
  by_cases hmem : ∃ q ∈ s.reservedWhere p, q.reservationId = r.reservationId
  · obtain ⟨q, hq, hid⟩ := hmem
    have hget : (s.cancelWhere p).reservations.get? q.reservationId =
        some { q with status := .cancelled } := cancelled_of_mem hq (nodup_reservedWhere s p)
    have hold := get?_of_mem_reservedWhere hq
    have hpicked := (List.mem_filter.mp hq).2
    simp only [Bool.and_eq_true, decide_eq_true_eq] at hpicked
    constructor
    · intro h
      rw [hid, get?_of_mem h.1] at hget
      rw [some.inj hget] at h
      cases h.2
    · intro h
      rw [hid, get?_of_mem h.1] at hold
      rw [some.inj hold] at h
      rw [hpicked.2] at h
      cases h.2.2
  · have hfree : ∀ q ∈ s.reservedWhere p, q.reservationId ≠ r.reservationId :=
      fun q hq hid => hmem ⟨q, hq, hid⟩
    have hget : (s.cancelWhere p).reservations.get? r.reservationId =
        s.reservations.get? r.reservationId := get?_cancelRecords hfree
    rw [mem_rows_iff, hget, ← mem_rows_iff]
    constructor
    · intro h
      refine ⟨h.1, h.2, ?_⟩
      by_contra hp
      have hpicked : r ∈ s.reservedWhere p := by
        refine List.mem_filter.mpr ⟨h.1, ?_⟩
        simpa [h.2] using hp
      exact hfree r hpicked rfl
    · intro h
      exact ⟨h.1, h.2.1⟩

theorem get?_endSessions (s : Controller) (p : AgentBudgetState → Bool) (state : TerminalState)
    (d : String) : (s.endSessions p state).agents.get? d = (s.agents.get? d).map
      (setWhere (fun a => a.terminal.isNone && p a) fun a =>
        { a with terminal := some state }) := by
  simp only [endSessions, get?_update]

/-- The session itself, or one that names it as its parent. -/
def Reached (s : Controller) (sessionId d : String) : Prop := d = sessionId ∨ Child s sessionId d

theorem ended_cancelSession_iff (s : Controller) (now : Nat) (sessionId reason : String)
    {d : String} (hd : ∃ a, s.agents.get? d = some a) :
    Ended (s.cancelSession now sessionId reason) d ↔ Ended s d ∨ Reached s sessionId d := by
  obtain ⟨a, ha⟩ := hd
  have hid : a.sessionId = d := key_of_get? ha
  let state : TerminalState := ⟨reason, now⟩
  let first := s.endSessions (fun a => a.sessionId = sessionId) state
  let second := first.endSessions (fun a => a.parentSessionId = some sessionId) state
  let b := setWhere (fun a : AgentBudgetState => a.terminal.isNone &&
      decide (a.parentSessionId = some sessionId)) (fun a => { a with terminal := some state })
    (setWhere (fun a : AgentBudgetState => a.terminal.isNone &&
      decide (a.sessionId = sessionId)) (fun a => { a with terminal := some state }) a)
  have hsecond : second.agents.get? d = some b := by
    rw [get?_endSessions, get?_endSessions, ha]
    rfl
  have hkept := terminal_cancelWhere second (fun r => second.affected sessionId r.sessionId) d
  rw [hsecond] at hkept
  have hend : Ended (s.cancelSession now sessionId reason) d ↔ b.terminal.isSome = true := by
    unfold Ended
    obtain ⟨c, hc, hfields⟩ := map_eq_some_iff.mp hkept
    have hterminal : c.terminal = b.terminal := (Prod.mk.inj hfields).2
    have hget : (s.cancelSession now sessionId reason).agents.get? d = some c := hc
    simp [hget, hterminal]
  rw [hend]
  have hreached : Reached s sessionId d ↔ a.sessionId = sessionId ∨
      a.parentSessionId = some sessionId := by
    simp [Reached, Child, ha, hid]
  have hended : Ended s d ↔ a.terminal.isSome = true := by
    simp [Ended, ha]
  rw [hreached, hended]
  simp only [b, setWhere]
  cases hterminal : a.terminal with
  | some terminal => simp [hterminal]
  | none =>
    by_cases hself : a.sessionId = sessionId
    · simp [hself]
    · by_cases hparent : a.parentSessionId = some sessionId
      · simp [hterminal, hself, hparent]
      · simp [hterminal, hself, hparent]

theorem unreserved_cancelSession_iff (s : Controller) (now : Nat) (sessionId reason d : String) :
    Unreserved (s.cancelSession now sessionId reason) d ↔
      Unreserved s d ∨ Reached s sessionId d := by
  let state : TerminalState := ⟨reason, now⟩
  let ending := (s.endSessions (fun a => a.sessionId = sessionId) state).endSessions
    (fun a => a.parentSessionId = some sessionId) state
  have haffected : ending.affected sessionId d = true ↔ Reached s sessionId d := by
    have hfields : (ending.agents.rows.map fun a => (a.parentSessionId, a.sessionId)) =
        s.agents.rows.map fun a => (a.parentSessionId, a.sessionId) := by
      have hfirst := map_rows_update s.agents
        (fun a => a.terminal.isNone && decide (a.sessionId = sessionId))
        (fun a => { a with terminal := some state }) (fun _ => rfl)
        (g := fun a => (a.parentSessionId, a.sessionId)) fun _ => rfl
      have hsecond := map_rows_update
        (s.endSessions (fun a => a.sessionId = sessionId) state).agents
        (fun a => a.terminal.isNone && decide (a.parentSessionId = some sessionId))
        (fun a => { a with terminal := some state }) (fun _ => rfl)
        (g := fun a => (a.parentSessionId, a.sessionId)) fun _ => rfl
      exact hsecond.trans hfirst
    have hany : (∃ a ∈ ending.agents.rows, a.parentSessionId = some sessionId ∧ a.sessionId = d) ↔
        (some sessionId, d) ∈ ending.agents.rows.map fun a => (a.parentSessionId, a.sessionId) := by
      simp
    have hchild : Child s sessionId d ↔
        (some sessionId, d) ∈ s.agents.rows.map fun a => (a.parentSessionId, a.sessionId) := by
      simp only [Child, List.mem_map, Prod.mk.injEq]
      constructor
      · intro h
        obtain ⟨a, ha, hparent⟩ := h
        exact ⟨a, mem_of_get? ha, hparent, key_of_get? ha⟩
      · intro h
        obtain ⟨a, ha, hparent, hid⟩ := h
        exact ⟨a, get?_eq_some_iff.mpr ⟨ha, hid⟩, hparent⟩
    have hboth : ending.affected sessionId d = true ↔ d = sessionId ∨
        ∃ a ∈ ending.agents.rows, a.parentSessionId = some sessionId ∧ a.sessionId = d := by
      simp [affected]
    rw [hboth, hany, hfields, ← hchild]
    rfl
  have hstill (r : ReservationRecord) :=
    reserved_cancelWhere_iff ending (fun r => ending.affected sessionId r.sessionId) r
  constructor
  · intro h
    by_cases hreached : Reached s sessionId d
    · exact .inr hreached
    · left
      intro r hr hsession hstatus
      have hnot : ending.affected sessionId r.sessionId = false := by
        rw [hsession]
        exact Bool.eq_false_iff.mpr fun htrue => hreached (haffected.mp htrue)
      have hafter := (hstill r).mpr ⟨hr, hstatus, hnot⟩
      exact h r hafter.1 hsession hafter.2
  · intro h r hr hsession hstatus
    obtain ⟨hold, -, hnot⟩ := (hstill r).mp ⟨hr, hstatus⟩
    rcases h with h | hreached
    · exact h r hold hsession hstatus
    · rw [hsession, haffected.mpr hreached] at hnot
      cases hnot

/-! ### The sessions below -/

/-- Cancelling a session does all that is claimed exactly when the budget is switched on and every
session below it names it as its parent, or has ended before and holds nothing. -/
theorem cancelsDescendants_iff (s : Controller) (now : Nat) (sessionId reason : String) :
    CancelsDescendants s now sessionId reason ↔
      ∀ d, Descends s sessionId d → s.config.enabled = true ∧
        (Reached s sessionId d ∨ Ended s d ∧ Unreserved s d) := by
  have hconfig := (keepsEnded_cancelSession s now sessionId reason).config
  have hknown (d : String) (hd : Descends s sessionId d) : ∃ a, s.agents.get? d = some a := by
    cases hd with
    | single hchild =>
      obtain ⟨a, ha, -⟩ := hchild
      exact ⟨a, ha⟩
    | tail _ hchild =>
      obtain ⟨a, ha, -⟩ := hchild
      exact ⟨a, ha⟩
  constructor
  · intro h d hd
    obtain ⟨hended, hunreserved, hrefused⟩ := h d hd
    rw [ended_cancelSession_iff s now sessionId reason (hknown d hd)] at hended
    rw [unreserved_cancelSession_iff] at hunreserved
    refine ⟨hconfig ▸ enabled_of_refused hrefused, ?_⟩
    tauto
  · intro h d hd
    obtain ⟨henabled, hcase⟩ := h d hd
    have hended : Ended (s.cancelSession now sessionId reason) d := by
      rw [ended_cancelSession_iff s now sessionId reason (hknown d hd)]
      tauto
    refine ⟨hended, ?_, refused_of_ended (hconfig ▸ henabled) hended⟩
    rw [unreserved_cancelSession_iff]
    tauto

/-! ### A grandchild -/

def grandchildRequest : ReserveRequestOptions where
  runId := "run"
  sessionId := "grandchild"
  agentId := "coder"
  parentSessionId := some "child"
  assignmentId := none
  requestId := "request"
  attempt := none
  estimatedInputTokens := some 10
  maxOutputTokens := none

def threeLevels : List Op :=
  [.registerSession "root" "orchestrator" none,
    .registerSession "child" "planner" (some "root"),
    .registerSession "grandchild" "coder" (some "child"),
    .reserveRequest "r1" grandchildRequest]

def withGrandchild : Controller :=
  (run step (create LedgerBalance.exampleConfig "run" []) threeLevels).getD
    (create LedgerBalance.exampleConfig "run" [])

theorem grandchild_stays_open : ¬CancelsDescendants withGrandchild 1 "root" "manual_cancel" := by
  intro h
  have hchild : Child withGrandchild "root" "child" :=
    ⟨(withGrandchild.agents.get? "child").getD (withGrandchild.newAgent "" "" none),
      by decide +kernel, by decide +kernel⟩
  have hgrandchild : Child withGrandchild "child" "grandchild" :=
    ⟨(withGrandchild.agents.get? "grandchild").getD (withGrandchild.newAgent "" "" none),
      by decide +kernel, by decide +kernel⟩
  have hdescends : Descends withGrandchild "root" "grandchild" :=
    .tail (.single hchild) hgrandchild
  obtain ⟨a, ha, hterminal⟩ := (h "grandchild" hdescends).1
  have hopen : ((withGrandchild.cancelSession 1 "root" "manual_cancel").agents.get?
      "grandchild").map (fun a => a.terminal.isSome) = some false := by
    decide +kernel
  rw [ha, map_some, hterminal] at hopen
  cases hopen

end SessionTree
