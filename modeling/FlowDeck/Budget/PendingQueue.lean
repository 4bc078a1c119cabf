import FlowDeck.Budget.TokenBudgetRuntime

/-! When no reservation that a session was given is lost, and a repeated message changes nothing. -/

namespace TokenBudgetRuntime

open UsageStore BudgetController BudgetController.Controller BudgetLedgers Machine Option List

/-! ### What is claimed -/

def Lossless (s : Runtime) : Prop :=
  ∀ h ∈ s.handed, ∃ ctrl r, s.controllers h.runId = some ctrl ∧
    ctrl.reservations.get? h.reservationId = some r ∧
      (r.status = .committed ∨ r.status = .cancelled ∨
        ∃ slot ∈ s.pending h.sessionID, slot.reservationId = h.reservationId)

/-- The queues are the same, and so are the reservations and the totals of every run. -/
def Untouched (s t : Runtime) : Prop :=
  t.pending = s.pending ∧ ∀ runId ctrl, s.controllers runId = some ctrl →
    ∃ ctrl', t.controllers runId = some ctrl' ∧ ctrl'.reservations = ctrl.reservations ∧
      ctrl'.run = ctrl.run ∧ ctrl'.assignments = ctrl.assignments ∧
        ∀ a ∈ ctrl.agents.rows, a ∈ ctrl'.agents.rows

/-- The message was reconciled before, here or by the process that wrote the store. -/
def Repeats (s : Runtime) (ctx : SessionBudgetContext) (msg : Message) : Prop :=
  msg.id ∈ s.reconciled ∨ ∃ runId ctrl opened,
    getControllerForSession s ctx = some (runId, ctrl, opened) ∧
      ctrl.isDuplicate (commitOptions ctrl ctx msg none) = true

def KeepsRepeats (s : Runtime) (a : Action) : Prop :=
  ∀ now ctx msg t, a = .reconcileUsage now ctx msg → Repeats s ctx msg → step s a = some t →
    Untouched s t

/-- The run that a call is for. -/
def runIdOf (s : Runtime) (ctx : SessionBudgetContext) : String :=
  (truthy (s.runForSession ctx.sessionID)).getD (lookupRunId s ctx)

/-- A queue that is full loses no reservation that is still open, and a repeated message finds an
empty queue and the controller that has reconciled it; no run has the empty id. -/
def Orderly (s : Runtime) : Action → Prop
  | .beforeDispatch ctx _ => runIdOf s ctx ≠ "" ∧
    ∀ slot rest, s.pending ctx.sessionID = slot :: rest →
      maxPendingPerSession ≤ (s.pending ctx.sessionID).length →
        ∀ runId ctrl opened r, getControllerForSession s ctx = some (runId, ctrl, opened) →
          ctrl.reservations.get? slot.reservationId = some r → r.status ≠ .reserved
  | .reconcileUsage _ ctx msg => runIdOf s ctx ≠ "" ∧ (Repeats s ctx msg →
    s.pending ctx.sessionID = [] ∧ ∀ runId ctrl opened,
      getControllerForSession s ctx = some (runId, ctrl, opened) →
        ctrl.isDuplicate (commitOptions ctrl ctx msg none) = true)

/-! ### Reservations only settle -/

/-- A reserved reservation may be committed or cancelled; no other status changes. -/
def Advances (status later : ReservationStatus) : Prop :=
  later = status ∨ status = .reserved ∧ (later = .committed ∨ later = .cancelled)

theorem Advances.trans {a b c : ReservationStatus} (h : Advances a b) (h' : Advances b c) :
    Advances a c := by
  unfold Advances at *
  rcases h with rfl | ⟨rfl, rfl | rfl⟩
  · exact h'
  · rcases h' with rfl | ⟨hreserved, -⟩
    · exact .inr ⟨rfl, .inl rfl⟩
    · cases hreserved
  · rcases h' with rfl | ⟨hreserved, -⟩
    · exact .inr ⟨rfl, .inr rfl⟩
    · cases hreserved

def KeepsReservations (s t : Controller) : Prop :=
  ∀ id r, s.reservations.get? id = some r →
    ∃ r', t.reservations.get? id = some r' ∧ Advances r.status r'.status

section Controllers

variable {s t u : Controller}

theorem KeepsReservations.of_eq (h : t.reservations = s.reservations) : KeepsReservations s t :=
  fun id r hr => ⟨r, by rw [h]; exact hr, .inl rfl⟩

theorem KeepsReservations.trans (h : KeepsReservations s t) (h' : KeepsReservations t u) :
    KeepsReservations s u := by
  intro id r hr
  obtain ⟨r', hr', hadvance⟩ := h id r hr
  obtain ⟨r'', hr'', hadvance'⟩ := h' id r' hr'
  exact ⟨r'', hr'', hadvance.trans hadvance'⟩

theorem keepsReservations_cancelWhere (s : Controller) (p : ReservationRecord → Bool) :
    KeepsReservations s (s.cancelWhere p) := by
  intro id r hr
  by_cases hmem : ∃ q ∈ s.reservedWhere p, q.reservationId = id
  · obtain ⟨q, hq, rfl⟩ := hmem
    obtain rfl : q = r := some.inj ((get?_of_mem_reservedWhere hq).symm.trans hr)
    have hreserved := (mem_filter.mp hq).2
    simp only [Bool.and_eq_true, decide_eq_true_eq] at hreserved
    have hget := SessionTree.cancelled_of_mem (s := s) hq (nodup_reservedWhere s p)
    exact ⟨_, hget, .inr ⟨hreserved.1, .inr rfl⟩⟩
  · have hfree : ∀ q ∈ s.reservedWhere p, q.reservationId ≠ id :=
      fun q hq hid => hmem ⟨q, hq, hid⟩
    have hget : (s.cancelWhere p).reservations.get? id = s.reservations.get? id :=
      SessionTree.get?_cancelRecords hfree
    exact ⟨r, hget.trans hr, .inl rfl⟩

theorem keepsReservations_registerSession (s : Controller) (sessionId agentId : String)
    (parentSessionId : Option String) :
    KeepsReservations s (s.registerSession sessionId agentId parentSessionId) := by
  apply KeepsReservations.of_eq
  unfold registerSession
  split
  · rfl
  · rfl

theorem reserveRequest_spec {uuid : String} {opts : ReserveRequestOptions}
    {result : ReservationResult} (h : s.reserveRequestSync uuid opts = some (result, t)) :
    KeepsReservations s t ∧ (result.allowed = true → result.disabled = false →
      result.reservationId = uuid ∧
        ∃ r, t.reservations.get? uuid = some r ∧ r.status = .reserved) := by
  unfold reserveRequestSync at h
  split_ifs at h
  · obtain ⟨rfl, rfl⟩ := Prod.mk.inj (some.inj h)
    refine ⟨.of_eq rfl, fun _ hdisabled => ?_⟩
    cases hdisabled
  · split at h
    · obtain ⟨rfl, rfl⟩ := Prod.mk.inj (some.inj h)
      refine ⟨.of_eq rfl, fun hallowed => ?_⟩
      cases hallowed
    · have hregister := keepsReservations_registerSession s opts.sessionId opts.agentId
        opts.parentSessionId
      dsimp only at h
      split at h
      · cases h
      · split at h
        · obtain ⟨rfl, rfl⟩ := Prod.mk.inj (some.inj h)
          refine ⟨hregister.trans (.of_eq rfl), fun hallowed => ?_⟩
          cases hallowed
        · unfold reserveFor at h
          dsimp only at h
          split_ifs at h
          · obtain ⟨rfl, rfl⟩ := Prod.mk.inj (some.inj h)
            refine ⟨hregister.trans (.of_eq rfl), fun hallowed => ?_⟩
            cases hallowed
          · obtain ⟨rfl, rfl⟩ := Prod.mk.inj (some.inj h)
            refine ⟨hregister.trans (.of_eq rfl), fun hallowed => ?_⟩
            cases hallowed
          · obtain ⟨reservations, hinsert, hpair⟩ := map_eq_some_iff.mp h
            obtain ⟨rfl, rfl⟩ := Prod.mk.inj hpair
            constructor
            · apply hregister.trans
              intro id r hr
              exact ⟨r, Table.get?_insert?_of_some hinsert hr, .inl rfl⟩
            · intro _ _
              have hget := Table.get?_insert? hinsert uuid
              have hkey : ((s.registerSession opts.sessionId opts.agentId
                  opts.parentSessionId).newReservation uuid opts).reservationId = uuid := rfl
              rw [if_pos hkey] at hget
              exact ⟨rfl, _, hget, rfl⟩

theorem reservations_chargeUsage (s : Controller) (opts : CommitUsageOptions)
    (reservation : Option ReservationRecord) (billable : ℚ) :
    (s.chargeUsage opts reservation billable).reservations = s.reservations := by
  have hregister (s : Controller) : (s.registerSession opts.sessionId opts.agentId
      opts.parentSessionId).reservations = s.reservations := by
    unfold registerSession
    split
    · rfl
    · rfl
  unfold chargeUsage
  dsimp only
  split
  · exact hregister _
  · exact hregister _

theorem reservations_releaseClaim (s : Controller) (now : Nat) (opts : CommitUsageOptions)
    (r : ReservationRecord) (billable : ℚ) :
    (s.releaseClaim now opts r billable).reservations =
      s.reservations.upsert { r with status := .committed, committedAt := some now } := by
  unfold releaseClaim
  dsimp only
  split
  · rfl
  · rfl

theorem keepsReservations_commitCharge (s : Controller) (now : Nat) (opts : CommitUsageOptions) :
    KeepsReservations s (s.commitCharge now opts) := by
  unfold commitCharge
  dsimp only
  split
  · next r hreleased =>
    obtain ⟨hnamed, hstatus⟩ := filter_eq_some_iff.mp hreleased
    have hreserved : r.status = .reserved := by simpa using hstatus
    have hget : s.reservations.get? r.reservationId = some r := by
      obtain ⟨id, -, hid⟩ := bind_eq_some_iff.mp hnamed
      rwa [Table.key_of_get? hid]
    intro id q hq
    have hupsert := Table.get?_upsert s.reservations
      { r with status := .committed, committedAt := some now } id
    have hsame : ((s.releaseClaim now opts r (s.usageOf opts).billable).chargeUsage opts
        (s.namedReservation opts) (s.usageOf opts).billable).reservations.get? id =
        (s.reservations.upsert { r with status := .committed, committedAt := some now }).get?
          id := by
      rw [reservations_chargeUsage, reservations_releaseClaim]
    by_cases hid : r.reservationId = id
    · rw [if_pos hid] at hupsert
      obtain rfl : r = q := some.inj (hget.symm.trans (hid ▸ hq))
      exact ⟨_, hsame.trans hupsert, .inr ⟨hreserved, .inl rfl⟩⟩
    · rw [if_neg hid] at hupsert
      exact ⟨q, (hsame.trans hupsert).trans hq, .inl rfl⟩
  · exact .of_eq (reservations_chargeUsage s opts _ _)

theorem keepsReservations_stop (now : Nat) (s : Controller) :
    KeepsReservations s ((s.warn now).hardStop now) := by
  have hwarn : KeepsReservations s (s.warn now) := by
    unfold warn
    split_ifs
    · exact .of_eq rfl
    · exact .of_eq rfl
  refine hwarn.trans ?_
  unfold hardStop
  split_ifs
  · have hset : KeepsReservations (s.warn now)
        ((s.warn now).setTerminal ⟨"budget_exhausted", now⟩) := .of_eq rfl
    exact hset.trans (keepsReservations_cancelWhere _ _)
  · exact .of_eq rfl

theorem keepsReservations_commitUsage (s : Controller) (now : Nat) (opts : CommitUsageOptions) :
    KeepsReservations s (s.commitUsageSync now opts).2 := by
  unfold commitUsageSync
  split_ifs
  · exact .of_eq rfl
  · exact (keepsReservations_commitCharge s now opts).trans (keepsReservations_stop now _)

/-- A commit of a new message leaves the reservation that it names open no more. -/
theorem settled_commitUsage {now : Nat} {opts : CommitUsageOptions} {id : String}
    {r : ReservationRecord} (hnew : s.isDuplicate opts = false)
    (hid : truthy opts.reservationId = some id) (hr : s.reservations.get? id = some r) :
    ∃ r', (s.commitUsageSync now opts).2.reservations.get? id = some r' ∧
      Advances r.status r'.status ∧ r'.status ≠ .reserved := by
  have hnamed : s.namedReservation opts = some r := by
    simp [namedReservation, hid, hr]
  have hstop := keepsReservations_stop now (s.commitCharge now opts)
  have hcommit : (s.commitUsageSync now opts).2 =
      ((s.commitCharge now opts).warn now).hardStop now := by
    unfold commitUsageSync
    rw [hnew]
    rfl
  have hcharged : ∃ q, (s.commitCharge now opts).reservations.get? id = some q ∧
      Advances r.status q.status ∧ q.status ≠ .reserved := by
    by_cases hreserved : r.status = .reserved
    · have hreleased : s.released opts = some r := by
        simp [released, hnamed, hreserved]
      have hkey : r.reservationId = id := Table.key_of_get? hr
      have hget := Table.get?_upsert s.reservations
        { r with status := .committed, committedAt := some now } id
      rw [if_pos hkey] at hget
      refine ⟨{ r with status := .committed, committedAt := some now }, ?_,
        .inr ⟨hreserved, .inl rfl⟩, by simp⟩
      have hsame : (s.commitCharge now opts).reservations =
          s.reservations.upsert { r with status := .committed, committedAt := some now } := by
        simp only [commitCharge, hreleased, recordUsage, append, reservations_chargeUsage,
          reservations_releaseClaim]
      rw [hsame]
      exact hget
    · obtain ⟨q, hq, hadvance⟩ := keepsReservations_commitCharge s now opts id r hr
      refine ⟨q, hq, hadvance, ?_⟩
      rcases hadvance with heq | ⟨hstatus, -⟩
      · rw [heq]
        exact hreserved
      · exact absurd hstatus hreserved
  obtain ⟨q, hq, hadvance, hopen⟩ := hcharged
  obtain ⟨r', hr', hlater⟩ := hstop id q hq
  rw [hcommit]
  refine ⟨r', hr', hadvance.trans hlater, ?_⟩
  rcases hlater with heq | ⟨hstatus, -⟩
  · rw [heq]
    exact hopen
  · exact absurd hstatus hopen

end Controllers

/-! ### The controller of a session -/

section Sessions

variable {s t opened : Runtime} {ctx : SessionBudgetContext} {runId : String} {ctrl : Controller}

theorem truthy_eq_some {text : Option String} {value : String} :
    truthy text = some value ↔ text = some value ∧ value ≠ "" := by
  simp [truthy, filter_eq_some_iff]

structure Opens (s : Runtime) (ctx : SessionBudgetContext) (runId : String) (ctrl : Controller)
    (opened : Runtime) : Prop where
  run : runId = runIdOf s ctx
  current : opened.controllers runId = some ctrl
  session : opened.runForSession ctx.sessionID = some runId
  sessions : ∀ y run, s.runForSession y = some run → run ≠ "" → opened.runForSession y = some run
  pending : opened.pending = s.pending
  handed : opened.handed = s.handed
  reconciled : opened.reconciled = s.reconciled
  kept : ∀ run c, s.controllers run = some c → ∃ c', opened.controllers run = some c' ∧
    c'.reservations = c.reservations ∧ c'.run = c.run ∧ c'.assignments = c.assignments ∧
      ∀ a ∈ c.agents.rows, a ∈ c'.agents.rows

theorem registerSession_fields (ctrl : Controller) (sessionId agentId : String)
    (parentSessionId : Option String) :
    (ctrl.registerSession sessionId agentId parentSessionId).reservations = ctrl.reservations ∧
      (ctrl.registerSession sessionId agentId parentSessionId).run = ctrl.run ∧
        (ctrl.registerSession sessionId agentId parentSessionId).assignments = ctrl.assignments ∧
          ∀ a ∈ ctrl.agents.rows,
            a ∈ (ctrl.registerSession sessionId agentId parentSessionId).agents.rows := by
  unfold registerSession
  split
  · next agents hinsert =>
    refine ⟨rfl, rfl, rfl, fun a ha => ?_⟩
    have hrows := (Table.insert?_eq_some hinsert).2
    rw [hrows]
    exact mem_append_left _ ha
  · exact ⟨rfl, rfl, rfl, fun a ha => ha⟩

theorem opens_of_getController
    (h : getControllerForSession s ctx = some (runId, ctrl, opened)) :
    Opens s ctx runId ctrl opened := by
  unfold getControllerForSession at h
  split at h
  · next run hrun =>
    obtain ⟨c, hc, hfields⟩ := map_eq_some_iff.mp h
    simp only [Prod.mk.injEq] at hfields
    obtain ⟨rfl, rfl, rfl⟩ := hfields
    refine ⟨?_, hc, (truthy_eq_some.mp hrun).1, fun y run hy _ => hy, rfl, rfl, rfl, ?_⟩
    · simp [runIdOf, hrun]
    · intro run c hc
      exact ⟨c, hc, rfl, rfl, rfl, fun a ha => ha⟩
  · next hnone =>
    simp only [some.injEq, Prod.mk.injEq] at h
    obtain ⟨rfl, rfl, rfl⟩ := h
    refine ⟨?_, Function.update_self _ _ _, Function.update_self _ _ _, ?_, rfl, rfl, rfl, ?_⟩
    · simp [runIdOf, hnone]
    · intro y run hy hne
      have hother : y ≠ ctx.sessionID := by
        intro heq
        have hsome := truthy_eq_some.mpr ⟨heq ▸ hy, hne⟩
        rw [hnone] at hsome
        cases hsome
      dsimp only
      rw [Function.update_of_ne hother]
      exact hy
    · intro run c hc
      by_cases heq : run = lookupRunId s ctx
      · refine ⟨_, by rw [heq]; exact Function.update_self _ _ _, ?_⟩
        rw [heq] at hc
        rw [hc]
        exact registerSession_fields c ctx.sessionID ctx.agent ctx.parentID
      · refine ⟨c, ?_, rfl, rfl, rfl, fun a ha => ha⟩
        dsimp only
        rw [Function.update_of_ne heq]
        exact hc

/-! ### The invariant -/

/-- The reservation is open, or it is settled. -/
def Live (status : ReservationStatus) : Prop :=
  status = .reserved ∨ status = .committed ∨ status = .cancelled

theorem Live.advance {status later : ReservationStatus} (h : Live status)
    (hadvance : Advances status later) : Live later := by
  rcases hadvance with rfl | ⟨-, rfl | rfl⟩
  · exact h
  · exact .inr (.inl rfl)
  · exact .inr (.inr rfl)

structure Sound (s : Runtime) : Prop where
  run : ∀ h ∈ s.handed, s.runForSession h.sessionID = some h.runId ∧ h.runId ≠ "" ∧
    h.reservationId ≠ ""
  kept : ∀ h ∈ s.handed, ∃ ctrl r, s.controllers h.runId = some ctrl ∧
    ctrl.reservations.get? h.reservationId = some r ∧ Live r.status ∧
      (r.status = .reserved →
        ∃ slot ∈ s.pending h.sessionID, slot.reservationId = h.reservationId)

theorem Sound.lossless (hs : Sound s) : Lossless s := by
  intro h hh
  obtain ⟨ctrl, r, hctrl, hr, hlive, hpending⟩ := hs.kept h hh
  refine ⟨ctrl, r, hctrl, hr, ?_⟩
  rcases hlive with hreserved | hcommitted | hcancelled
  · exact .inr (.inr (hpending hreserved))
  · exact .inl hcommitted
  · exact .inr (.inl hcancelled)

theorem Sound.opens (hs : Sound s) (ho : Opens s ctx runId ctrl opened) : Sound opened := by
  constructor
  · intro h hh
    obtain ⟨hsession, hrun, hid⟩ := hs.run h (ho.handed ▸ hh)
    exact ⟨ho.sessions _ _ hsession hrun, hrun, hid⟩
  · intro h hh
    obtain ⟨c, r, hc, hr, hrest⟩ := hs.kept h (ho.handed ▸ hh)
    obtain ⟨c', hc', hsame, -⟩ := ho.kept h.runId c hc
    refine ⟨c', r, hc', by rw [hsame]; exact hr, ?_⟩
    rw [ho.pending]
    exact hrest

theorem Sound.run_eq (hs : Sound opened) (ho : Opens s ctx runId ctrl opened) {h : Handed}
    (hh : h ∈ opened.handed) (hsession : h.sessionID = ctx.sessionID) : h.runId = runId := by
  have hrun := (hs.run h hh).1
  rw [hsession, ho.session] at hrun
  exact (some.inj hrun).symm

/-- A controller goes on to one that keeps its reservations, and the queues lose no open one. -/
theorem Sound.advance (hs : Sound s) {ctrl' : Controller} (hctrl : s.controllers runId = some ctrl)
    (hkeeps : KeepsReservations ctrl ctrl') {pending : String → List PendingSlot}
    {reconciled : List String}
    (hpending : ∀ h ∈ s.handed, ∀ r', (h.runId = runId →
      ctrl'.reservations.get? h.reservationId = some r') → r'.status = .reserved →
        ∀ slot ∈ s.pending h.sessionID, slot.reservationId = h.reservationId →
          ∃ slot ∈ pending h.sessionID, slot.reservationId = h.reservationId) :
    Sound { s.setController runId ctrl' with pending, reconciled } := by
  refine ⟨hs.run, fun h hh => ?_⟩
  obtain ⟨c, r, hc, hr, hlive, hslot⟩ := hs.kept h hh
  by_cases hrun : h.runId = runId
  · rw [hrun, hctrl] at hc
    obtain rfl := some.inj hc
    obtain ⟨r', hr', hadvance⟩ := hkeeps h.reservationId r hr
    refine ⟨ctrl', r', ?_, hr', hlive.advance hadvance, ?_⟩
    · rw [hrun]
      exact Function.update_self _ _ _
    · intro hreserved
      have hwas : r.status = .reserved := by
        rcases hadvance with heq | ⟨hstatus, -⟩
        · exact heq.symm.trans hreserved
        · exact hstatus
      obtain ⟨slot, hmem, hid⟩ := hslot hwas
      exact hpending h hh r' (fun _ => hr') hreserved slot hmem hid
  · refine ⟨c, r, ?_, hr, hlive, ?_⟩
    · exact (Function.update_of_ne hrun _ _).trans hc
    · intro hreserved
      obtain ⟨slot, hmem, hid⟩ := hslot hreserved
      exact hpending h hh r (fun heq => absurd heq hrun) hreserved slot hmem hid

theorem Sound.hand (hs : Sound s) {h : Handed} {r : ReservationRecord}
    (hsession : s.runForSession h.sessionID = some h.runId) (hrun : h.runId ≠ "")
    (hid : h.reservationId ≠ "") (hctrl : s.controllers h.runId = some ctrl)
    (hr : ctrl.reservations.get? h.reservationId = some r) (hreserved : r.status = .reserved)
    (hslot : ∃ slot ∈ s.pending h.sessionID, slot.reservationId = h.reservationId) :
    Sound { s with handed := s.handed ++ [h] } := by
  constructor
  · intro other hother
    rcases mem_append.mp hother with hold | hnew
    · exact hs.run other hold
    · obtain rfl := mem_singleton.mp hnew
      exact ⟨hsession, hrun, hid⟩
  · intro other hother
    rcases mem_append.mp hother with hold | hnew
    · exact hs.kept other hold
    · obtain rfl := mem_singleton.mp hnew
      exact ⟨ctrl, r, hctrl, hr, .inl hreserved, fun _ => hslot⟩

/-! ### The steps -/

theorem mem_enqueue {slots : List PendingSlot} {slot new : PendingSlot} (h : slot ∈ slots)
    (hkeep : ∀ first rest, slots = first :: rest → maxPendingPerSession ≤ slots.length →
      slot = first → False) : slot ∈ enqueue slots new := by
  unfold enqueue
  split_ifs with hlong
  · cases slots with
    | nil => cases h
    | cons first rest =>
      have hfull : maxPendingPerSession ≤ (first :: rest).length := by
        simp only [length_append, length_singleton] at hlong
        omega
      rcases mem_cons.mp h with heq | hrest
      · exact absurd heq (hkeep first rest rfl hfull)
      · exact mem_append_left _ hrest
  · exact mem_append_left _ h

theorem new_mem_enqueue (slots : List PendingSlot) (new : PendingSlot) :
    new ∈ enqueue slots new := by
  unfold enqueue
  split_ifs with hlong
  · cases slots with
    | nil =>
      have hshort : ¬maxPendingPerSession < 1 := by decide
      exact absurd hlong hshort
    | cons first rest => exact mem_append_right _ (mem_singleton_self new)
  · exact mem_append_right _ (mem_singleton_self new)

theorem Sound.beforeDispatch (hs : Sound s) {input : DispatchInput} {result : PreDispatchResult}
    (hguard : Orderly s (.beforeDispatch ctx input))
    (hstep : beforeDispatch s ctx input = some (result, t)) : Sound t := by
  obtain ⟨hrunId, hfull⟩ := hguard
  unfold TokenBudgetRuntime.beforeDispatch at hstep
  split_ifs at hstep with hempty
  obtain ⟨⟨runId, ctrl, opened⟩, hopen, hreserve⟩ := bind_eq_some_iff.mp hstep
  obtain ⟨⟨answer, ctrl'⟩, hctrl', hpair⟩ := map_eq_some_iff.mp hreserve
  have ho := opens_of_getController hopen
  have hsound := hs.opens ho
  obtain ⟨hkeeps, hallows⟩ := reserveRequest_spec hctrl'
  have hplain : Sound (opened.setController runId ctrl') :=
    hsound.advance ho.current hkeeps fun h _ r' _ _ slot hmem hid => ⟨slot, hmem, hid⟩
  dsimp only at hpair
  split_ifs at hpair with hdisabled hallowed
  · obtain ⟨-, rfl⟩ := Prod.mk.inj hpair
    exact hplain
  · obtain ⟨-, rfl⟩ := Prod.mk.inj hpair
    obtain ⟨hid, r, hr, hreserved⟩ := hallows hallowed (by simpa using hdisabled)
    have hqueued : Sound { opened.setController runId ctrl' with
        pending := Function.update opened.pending ctx.sessionID
          (enqueue (opened.pending ctx.sessionID)
            ⟨ctx.sessionID, answer.reservationId, "req-" ++ ctx.sessionID⟩) } := by
      apply hsound.advance ho.current hkeeps
      intro h hh r' hr' hopen' slot hmem hslot
      by_cases hsession : h.sessionID = ctx.sessionID
      · rw [hsession] at hmem ⊢
        rw [Function.update_self]
        refine ⟨slot, mem_enqueue hmem ?_, hslot⟩
        -- the slot that goes out is of a reservation that is not open
        intro first rest hslots hlong heq
        have hrun : h.runId = runId := hsound.run_eq ho hh hsession
        obtain ⟨c, q, hc, hq, -⟩ := hsound.kept h hh
        rw [hrun, ho.current] at hc
        obtain rfl := some.inj hc
        rw [ho.pending] at hslots hlong
        have hclosed := hfull first rest hslots hlong runId ctrl opened q hopen
          (by rw [← heq, hslot]; exact hq)
        obtain ⟨q', hq', hadvance⟩ := hkeeps h.reservationId q hq
        obtain rfl := some.inj (hq'.symm.trans (hr' hrun))
        rcases hadvance with hsame | ⟨hstatus, -⟩
        · exact hclosed (hsame.symm.trans hopen')
        · exact hclosed hstatus
      · rw [Function.update_of_ne hsession]
        exact ⟨slot, hmem, hslot⟩
    have hcurrent : (opened.setController runId ctrl').controllers runId = some ctrl' :=
      Function.update_self _ _ _
    refine hqueued.hand ho.session (ho.run ▸ hrunId) ?_ hcurrent (hid ▸ hr) hreserved ?_
    · rw [hid]
      exact hempty
    · refine ⟨⟨ctx.sessionID, answer.reservationId, "req-" ++ ctx.sessionID⟩, ?_, rfl⟩
      dsimp only
      rw [Function.update_self]
      exact new_mem_enqueue _ _
  · obtain ⟨-, rfl⟩ := Prod.mk.inj hpair
    exact hplain

theorem isDuplicate_slot (ctrl : Controller) (ctx : SessionBudgetContext) (msg : Message)
    (slot : Option PendingSlot) :
    ctrl.isDuplicate (commitOptions ctrl ctx msg slot) =
      ctrl.isDuplicate (commitOptions ctrl ctx msg none) := rfl

theorem Sound.reconcileUsage (hs : Sound s) {now : Nat} {msg : Message}
    (hguard : Orderly s (.reconcileUsage now ctx msg))
    (hstep : reconcileUsage s now ctx msg = some t) : Sound t := by
  obtain ⟨-, hrepeat⟩ := hguard
  unfold TokenBudgetRuntime.reconcileUsage at hstep
  obtain ⟨⟨runId, ctrl, opened⟩, hopen, rfl⟩ := map_eq_some_iff.mp hstep
  have ho := opens_of_getController hopen
  have hsound := hs.opens ho
  apply hsound.advance ho.current (keepsReservations_commitUsage ctrl now _)
  intro h hh r' hr' hreserved slot hmem hslot
  by_cases hsession : h.sessionID = ctx.sessionID
  · rw [hsession] at hmem ⊢
    rw [Function.update_self]
    cases hslots : opened.pending ctx.sessionID with
    | nil =>
      rw [hslots] at hmem
      cases hmem
    | cons first rest =>
      rw [hslots] at hmem
      rcases mem_cons.mp hmem with rfl | hrest
      · -- the slot that is taken: the message is new, so its reservation is settled
        have hnew : ctrl.isDuplicate (commitOptions ctrl ctx msg none) = false := by
          by_contra hduplicate
          have hrepeats : Repeats s ctx msg :=
            .inr ⟨runId, ctrl, opened, hopen, by simpa using hduplicate⟩
          have hempty := (hrepeat hrepeats).1
          rw [← ho.pending, hslots] at hempty
          cases hempty
        have hrun : h.runId = runId := hsound.run_eq ho hh hsession
        obtain ⟨c, q, hc, hq, -⟩ := hsound.kept h hh
        rw [hrun, ho.current] at hc
        obtain rfl := some.inj hc
        have hid : truthy (commitOptions ctrl ctx msg (some slot)).reservationId =
            some h.reservationId :=
          truthy_eq_some.mpr ⟨congrArg some hslot, (hsound.run h hh).2.2⟩
        have hnew' : ctrl.isDuplicate (commitOptions ctrl ctx msg (some slot)) = false := hnew
        obtain ⟨q', hq', -, hclosed⟩ := settled_commitUsage hnew' hid hq
        have hsame := hr' hrun
        rw [hslots, head?_cons, hq'] at hsame
        obtain rfl := some.inj hsame
        exact absurd hreserved hclosed
      · exact ⟨slot, hrest, hslot⟩
  · rw [Function.update_of_ne hsession]
    exact ⟨slot, hmem, hslot⟩

theorem keepsRepeats_of_orderly {a : Action} (hguard : Orderly s a) : KeepsRepeats s a := by
  intro now ctx msg t ha hrepeats hstep
  subst ha
  obtain ⟨-, hrepeat⟩ := hguard
  obtain ⟨hempty, hduplicate⟩ := hrepeat hrepeats
  have hreconcile : TokenBudgetRuntime.reconcileUsage s now ctx msg = some t := hstep
  unfold TokenBudgetRuntime.reconcileUsage at hreconcile
  obtain ⟨⟨runId, ctrl, opened⟩, hopen, rfl⟩ := map_eq_some_iff.mp hreconcile
  have ho := opens_of_getController hopen
  have hsame (slot : Option PendingSlot) :
      (ctrl.commitUsageSync now (commitOptions ctrl ctx msg slot)).2 = ctrl := by
    have hslot := (isDuplicate_slot ctrl ctx msg slot).trans (hduplicate runId ctrl opened hopen)
    unfold commitUsageSync
    rw [hslot]
    rfl
  constructor
  · funext y
    dsimp only
    rw [ho.pending]
    by_cases hy : y = ctx.sessionID
    · rw [hy, Function.update_self, hempty]
      rfl
    · rw [Function.update_of_ne hy]
  · intro run c hc
    obtain ⟨c', hc', hkept⟩ := ho.kept run c hc
    refine ⟨c', ?_, hkept⟩
    dsimp only [Runtime.setController]
    rw [hsame]
    by_cases hrun : run = runId
    · rw [hrun, Function.update_self, ← ho.current, ← hrun]
      exact hc'
    · rw [Function.update_of_ne hrun]
      exact hc'

theorem Sound.step {a : Action} (hs : Sound s) (hguard : Orderly s a)
    (hstep : step s a = some t) : Sound t := by
  cases a with
  | beforeDispatch ctx input =>
    obtain ⟨⟨result, t'⟩, hdispatch, rfl⟩ := map_eq_some_iff.mp hstep
    exact hs.beforeDispatch hguard hdispatch
  | reconcileUsage now ctx msg => exact hs.reconcileUsage hguard hstep

theorem Sound.start (config : ResolvedTokenBudgetConfig) (persistent : Bool)
    (stored : String → List UsageStoreEntry) :
    Sound (TokenBudgetRuntime.start config persistent stored) := by
  constructor
  · intro h hh
    cases hh
  · intro h hh
    cases hh

end Sessions

/-- In every state of the run no reservation is lost, and no repeated message changes anything. -/
def QueuesKept (s : Runtime) (as : List Action) : Prop :=
  (∀ pre post t, as = pre ++ post → run step s pre = some t → Lossless t) ∧
    Along step KeepsRepeats s as

/-- A run whose queues lose no open reservation, and whose repeated messages find empty ones. -/
theorem queuesKept_of_orderly (config : ResolvedTokenBudgetConfig) (persistent : Bool)
    (stored : String → List UsageStoreEntry) {as : List Action}
    (h : Along step Orderly (start config persistent stored) as) :
    QueuesKept (start config persistent stored) as := by
  have hsteps : ∀ s a t, Sound s → Orderly s a → step s a = some t → Sound t :=
    fun s a t hs hguard hstep => hs.step hguard hstep
  have hstart := Sound.start config persistent stored
  constructor
  · intro pre post t has hr
    rw [has] at h
    exact (h.take.invariant hsteps hstart hr).lossless
  · exact Along.imp hsteps (fun s a _ hguard => keepsRepeats_of_orderly hguard) hstart h

/-! ### A repeated message -/

def solo : SessionBudgetContext := ⟨"session", "coder", none, none⟩

def dispatch (reservationId : String) : Action :=
  .beforeDispatch solo ⟨10, none, reservationId, "uuid"⟩

def usage (id : String) : Message := ⟨id, ⟨some 5, none, none, none, none⟩, false⟩

def fresh : Runtime := start LedgerBalance.exampleConfig false fun _ => []

def after (as : List Action) : Runtime := (run step fresh as).getD fresh

theorem run_after {as : List Action} (h : (run step fresh as).isSome = true) :
    run step fresh as = some (after as) := by
  obtain ⟨s, hs⟩ := isSome_iff_exists.mp h
  rw [after, hs, getD_some]

theorem step_after (as : List Action) (a : Action)
    (h : (run step fresh (as ++ [a])).isSome = true) :
    step (after as) a = some (after (as ++ [a])) := by
  obtain ⟨s, hs, ha⟩ := run_append_eq_some.mp (run_after h)
  have hs' : after as = s := by rw [after, hs, getD_some]
  rw [hs']
  simpa [run_cons_eq_some] using ha

/-- The message of a request comes again while no other request waits. -/
def repeatedAlone : List Action :=
  [dispatch "r1", .reconcileUsage 0 solo (usage "m1"), .reconcileUsage 0 solo (usage "m1")]

theorem repeatedAlone_kept : QueuesKept fresh repeatedAlone := by
  apply queuesKept_of_orderly
  have hduplicate (s : Runtime) (b : Bool) (h : (getControllerForSession s solo).map (fun found =>
      found.2.1.isDuplicate (commitOptions found.2.1 solo (usage "m1") none)) = some b)
      (runId : String) (ctrl : Controller) (opened : Runtime)
      (hopen : getControllerForSession s solo = some (runId, ctrl, opened)) :
      ctrl.isDuplicate (commitOptions ctrl solo (usage "m1") none) = b := by
    rw [hopen] at h
    exact some.inj h
  have hfirst : Orderly (after []) (dispatch "r1") := by
    refine ⟨by decide +kernel, ?_⟩
    intro slot rest hslots
    cases hslots
  have hsecond : Orderly (after [dispatch "r1"]) (.reconcileUsage 0 solo (usage "m1")) := by
    refine ⟨by decide +kernel, ?_⟩
    intro hrepeats
    rcases hrepeats with hrecorded | ⟨runId, ctrl, opened, hopen, htrue⟩
    · have hnot : (usage "m1").id ∉ (after [dispatch "r1"]).reconciled := by decide +kernel
      exact absurd hrecorded hnot
    · have hfalse := hduplicate _ false (by decide +kernel) runId ctrl opened hopen
      rw [htrue] at hfalse
      cases hfalse
  have hthird : Orderly (after [dispatch "r1", .reconcileUsage 0 solo (usage "m1")])
      (.reconcileUsage 0 solo (usage "m1")) := by
    refine ⟨by decide +kernel, ?_⟩
    intro _
    exact ⟨by decide +kernel, hduplicate _ true (by decide +kernel)⟩
  refine .cons hfirst (step_after [] _ (by decide +kernel)) ?_
  refine .cons hsecond (step_after [dispatch "r1"] _ (by decide +kernel)) ?_
  exact .cons hthird (step_after [dispatch "r1", .reconcileUsage 0 solo (usage "m1")] _
    (by decide +kernel)) trivial

/-- The message comes again while another request waits. -/
def repeatedBetween : List Action :=
  [dispatch "r1", .reconcileUsage 0 solo (usage "m1"), dispatch "r2"]

theorem repeated_message_drops :
    ¬(∀ pre post t, repeatedBetween ++ [.reconcileUsage 0 solo (usage "m1")] = pre ++ post →
      run step fresh pre = some t → Lossless t) ∧
    ¬Along step KeepsRepeats fresh (repeatedBetween ++ [.reconcileUsage 0 solo (usage "m1")]) := by
  have hlast := step_after repeatedBetween (.reconcileUsage 0 solo (usage "m1")) (by decide +kernel)
  constructor
  · intro h
    have hlossless := h _ [] _ (append_nil _).symm (run_after (by decide +kernel))
    obtain ⟨ctrl, r, hctrl, hr, hcase⟩ := hlossless ⟨"session", "session", "r2"⟩ (by decide +kernel)
    have hread : ((after (repeatedBetween ++ [.reconcileUsage 0 solo (usage "m1")])).controllers
        "session").bind (fun ctrl => (ctrl.reservations.get? "r2").map (·.status)) =
          some .reserved := by
      decide +kernel
    rw [hctrl, bind_some, hr, map_some] at hread
    rw [some.inj hread] at hcase
    rcases hcase with hcommitted | hcancelled | ⟨slot, hslot, -⟩
    · cases hcommitted
    · cases hcancelled
    · have hempty : (after (repeatedBetween ++
          [.reconcileUsage 0 solo (usage "m1")])).pending "session" = [] := by decide +kernel
      rw [hempty] at hslot
      cases hslot
  · intro h
    have hkeeps := (h.append (run_after (by decide +kernel))).1
    have hrepeats : Repeats (after repeatedBetween) solo (usage "m1") := .inl (by decide +kernel)
    have hsame := (hkeeps 0 solo (usage "m1") _ rfl hrepeats hlast).1
    have hqueue := congrArg (fun pending => (pending "session").length) hsame
    revert hqueue
    decide +kernel

end TokenBudgetRuntime
