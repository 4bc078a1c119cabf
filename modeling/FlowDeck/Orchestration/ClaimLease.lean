import FlowDeck.Library.Machine
import FlowDeck.Orchestration.DeliverySink

namespace ClaimLease

open DeliverySink Machine

/-- What one `claimDue` call returned, and how long its lease lasts. -/
structure Grant where
  nowSeconds : Nat
  leaseUntil : Nat
  ids : List String
  deriving DecidableEq

/-- The shared table and the calls that have returned, newest first. -/
structure State where
  outbox : Outbox
  grants : List Grant

inductive Action
  | enqueue (row : OutboxRow)
  | claimDue (workerId : String) (nowSeconds batchSize leaseSeconds : Nat)

def grantOf (workerId : String) (nowSeconds batchSize leaseSeconds : Nat) (outbox : Outbox) :
    Grant where
  nowSeconds := nowSeconds
  leaseUntil := nowSeconds + leaseSeconds
  ids := (claimDue workerId nowSeconds batchSize leaseSeconds outbox).2.map (·.id)

def step (s : State) : Action → Option State
  | .enqueue row =>
    if row.status = .pending then
      (s.outbox.insert? row).map fun outbox => { s with outbox }
    else none
  | .claimDue workerId nowSeconds batchSize leaseSeconds =>
    some {
      outbox := (DeliverySink.claimDue workerId nowSeconds batchSize leaseSeconds s.outbox).1
      grants := grantOf workerId nowSeconds batchSize leaseSeconds s.outbox :: s.grants }

def initial (outbox : Outbox) : State := { outbox, grants := [] }

/-- An entry a call returned is returned to no later call before its lease has expired. -/
def Exclusive (s : State) : Prop :=
  s.grants.Pairwise fun later earlier =>
    ∀ id ∈ later.ids, id ∈ earlier.ids → earlier.leaseUntil < later.nowSeconds

instance (s : State) : Decidable (Exclusive s) :=
  inferInstanceAs (Decidable (List.Pairwise _ s.grants))

/-- A claim finds no entry already delivering under the text it is about to stamp. -/
def DistinctClaimInfo (s : State) : Action → Prop
  | .enqueue _ => True
  | .claimDue workerId nowSeconds _ leaseSeconds =>
    ∀ row ∈ s.outbox.rows,
      heldUnder { workerId, leaseUntil := nowSeconds + leaseSeconds } row = false

/-- An entry out on lease carries the lease of the last call that returned it. -/
structure Tracked (s : State) : Prop where
  leased : ∀ id row, s.outbox.get? id = some row → row.status = .delivering →
    ∃ info, row.lastError = some (.lease info) ∧
      (∃ g ∈ s.grants, id ∈ g.ids ∧ g.leaseUntil = info.leaseUntil) ∧
      ∀ g ∈ s.grants, id ∈ g.ids → g.leaseUntil ≤ info.leaseUntil
  out : ∀ g ∈ s.grants, ∀ id ∈ g.ids, statusOf s.outbox id = some .delivering

theorem initial_tracked {outbox : Outbox}
    (h : ∀ row ∈ outbox.rows, row.status ≠ .delivering) : Tracked (initial outbox) where
  leased _ row hrow hstatus := absurd hstatus (h row (Table.mem_of_get? hrow))
  out _ hg := absurd hg List.not_mem_nil

theorem leased_of_grant {s : State} (hs : Tracked s) {g : Grant} (hg : g ∈ s.grants) {id : String}
    (hid : id ∈ g.ids) : ∃ row info, s.outbox.get? id = some row ∧ row.status = .delivering ∧
      row.lastError = some (.lease info) ∧ g.leaseUntil ≤ info.leaseUntil := by
  have hout := hs.out g hg id hid
  simp only [statusOf, Option.map_eq_some_iff] at hout
  obtain ⟨row, hrow, hstatus⟩ := hout
  obtain ⟨info, hinfo, -, hmax⟩ := hs.leased id row hrow hstatus
  exact ⟨row, info, hrow, hstatus, hinfo, hmax g hg hid⟩

/-- An entry that a claim stamps is under no unexpired lease of an earlier call. -/
theorem lease_lt_of_due {s : State} (hs : Tracked s) {nowSeconds batchSize : Nat} {id : String}
    (hdue : id ∈ dueIds nowSeconds batchSize s.outbox) {g : Grant} (hg : g ∈ s.grants)
    (hid : id ∈ g.ids) : g.leaseUntil < nowSeconds := by
  obtain ⟨row, info, hrow, hstatus, hinfo, hle⟩ := leased_of_grant hs hg hid
  obtain ⟨row', hrow', hclaim⟩ := mem_dueIds hdue
  obtain rfl : row = row' := Option.some.inj (hrow.symm.trans hrow')
  have hexpired : info.leaseUntil < nowSeconds := by
    simpa [claimable, hstatus, leaseExpired, leaseOf, hinfo] using hclaim
  omega

theorem enqueue_tracked {s : State} {row : OutboxRow} {outbox : Outbox} (hs : Tracked s)
    (hpending : row.status = .pending) (hinsert : s.outbox.insert? row = some outbox) :
    Tracked { s with outbox } where
  leased id row' hrow' hstatus := by
    rw [Table.get?_insert? hinsert] at hrow'
    split_ifs at hrow' with hid
    · obtain rfl := Option.some.inj hrow'
      rw [hpending] at hstatus
      exact absurd hstatus (by decide)
    · exact hs.leased id row' hrow' hstatus
  out g hg id hid := by
    obtain ⟨row', info, hrow', hstatus, -⟩ := leased_of_grant hs hg hid
    simp [statusOf, Table.get?_insert?_of_some hinsert hrow', hstatus]

theorem claimDue_tracked {s : State} (hs : Tracked s) (workerId : String)
    (nowSeconds batchSize leaseSeconds : Nat) :
    Tracked {
      outbox := (claimDue workerId nowSeconds batchSize leaseSeconds s.outbox).1
      grants := grantOf workerId nowSeconds batchSize leaseSeconds s.outbox :: s.grants } where
  leased id row' hrow' hstatus := by
    by_cases hdue : id ∈ dueIds nowSeconds batchSize s.outbox
    · rw [claimDue_get?] at hrow'
      obtain ⟨row, hrow, rfl⟩ := Option.map_eq_some_iff.mp hrow'
      refine ⟨{ workerId, leaseUntil := nowSeconds + leaseSeconds }, by simp [hdue, stamp], ?_, ?_⟩
      · exact ⟨_, List.mem_cons_self, mem_claimDue_ids_iff.mpr (Or.inl hdue), rfl⟩
      · intro g hg hid
        rcases List.mem_cons.mp hg with rfl | hg
        · exact Nat.le_refl _
        · have := lease_lt_of_due hs hdue hg hid
          change g.leaseUntil ≤ nowSeconds + leaseSeconds
          omega
    · have hrow : s.outbox.get? id = some row' := by
        rw [claimDue_get?] at hrow'
        simpa [hdue] using hrow'
      obtain ⟨info, hinfo, ⟨g, hg, hid, hgl⟩, hmax⟩ := hs.leased id row' hrow hstatus
      refine ⟨info, hinfo, ⟨g, List.mem_cons_of_mem _ hg, hid, hgl⟩, ?_⟩
      intro g' hg' hid'
      rcases List.mem_cons.mp hg' with rfl | hg'
      · obtain ⟨row, hrow'', hheld⟩ := (mem_claimDue_ids_iff.mp hid').resolve_left hdue
        obtain rfl : row' = row := Option.some.inj (hrow.symm.trans hrow'')
        have hsame : info = { workerId, leaseUntil := nowSeconds + leaseSeconds } := by
          simpa [heldUnder, hstatus, hinfo] using hheld
        rw [hsame]
        exact Nat.le_refl _
      · exact hmax g' hg' hid'
  out g hg id hid := by
    rcases List.mem_cons.mp hg with rfl | hg
    · obtain ⟨row, hrow, hheld⟩ := mem_claimDue_ids.mp hid
      have hstatus : row.status = .delivering := by
        simp only [heldUnder, Bool.and_eq_true, decide_eq_true_eq] at hheld
        exact hheld.1
      simp [statusOf, hrow, hstatus]
    · obtain ⟨row, info, hrow, hstatus, -⟩ := leased_of_grant hs hg hid
      rw [statusOf, claimDue_get?, hrow]
      simp only [Option.map_some]
      split_ifs
      · rfl
      · rw [hstatus]

theorem step_tracked (s : State) (a : Action) (t : State) (hs : Tracked s)
    (h : step s a = some t) : Tracked t := by
  cases a with
  | enqueue row =>
    simp only [step] at h
    split_ifs at h with hpending
    obtain ⟨outbox, hinsert, rfl⟩ := Option.map_eq_some_iff.mp h
    exact enqueue_tracked hs hpending hinsert
  | claimDue workerId nowSeconds batchSize leaseSeconds =>
    obtain rfl := Option.some.inj h
    exact claimDue_tracked hs workerId nowSeconds batchSize leaseSeconds

/-- A claim keeps the calls exclusive exactly when its text is new to the table. -/
theorem claimDue_exclusive_iff {s : State} (hs : Tracked s) (workerId : String)
    (nowSeconds batchSize leaseSeconds : Nat) :
    Exclusive {
      outbox := (claimDue workerId nowSeconds batchSize leaseSeconds s.outbox).1
      grants := grantOf workerId nowSeconds batchSize leaseSeconds s.outbox :: s.grants } ↔
      Exclusive s ∧ DistinctClaimInfo s (.claimDue workerId nowSeconds batchSize leaseSeconds) := by
  simp only [Exclusive, List.pairwise_cons, DistinctClaimInfo]
  constructor
  · rintro ⟨hnew, hold⟩
    refine ⟨hold, fun row hrow => ?_⟩
    by_contra hheld
    rw [Bool.not_eq_false] at hheld
    have hget := Table.get?_of_mem hrow
    have hboth : row.status = .delivering ∧ row.lastError =
        some (.lease { workerId, leaseUntil := nowSeconds + leaseSeconds }) := by
      simpa [heldUnder] using hheld
    obtain ⟨info, hinfo, ⟨g, hg, hid, hgl⟩, -⟩ := hs.leased row.id row hget hboth.1
    rw [hboth.2] at hinfo
    obtain rfl := LastError.lease.inj (Option.some.inj hinfo)
    have hlt : g.leaseUntil < nowSeconds :=
      hnew g hg row.id (mem_claimDue_ids_iff.mpr (Or.inr ⟨row, hget, hheld⟩)) hid
    have hge : nowSeconds + leaseSeconds = g.leaseUntil := hgl.symm
    omega
  · rintro ⟨hold, hdistinct⟩
    refine ⟨fun g hg id hnew hid => ?_, hold⟩
    rcases mem_claimDue_ids_iff.mp hnew with hdue | ⟨row, hrow, hheld⟩
    · exact lease_lt_of_due hs hdue hg hid
    · rw [hdistinct row (Table.mem_of_get? hrow)] at hheld
      exact absurd hheld (by decide)

theorem step_exclusive_iff (s : State) (a : Action) (t : State) (hs : Tracked s)
    (h : step s a = some t) : Exclusive t ↔ Exclusive s ∧ DistinctClaimInfo s a := by
  cases a with
  | enqueue row =>
    simp only [step] at h
    split_ifs at h
    obtain ⟨outbox, -, rfl⟩ := Option.map_eq_some_iff.mp h
    simp [Exclusive, DistinctClaimInfo]
  | claimDue workerId nowSeconds batchSize leaseSeconds =>
    obtain rfl := Option.some.inj h
    exact claimDue_exclusive_iff hs workerId nowSeconds batchSize leaseSeconds

theorem claims_exclusive_iff (outbox : Outbox)
    (hidle : ∀ row ∈ outbox.rows, row.status ≠ .delivering) (as : List Action) (t : State)
    (hrun : run step (initial outbox) as = some t) :
    Exclusive t ↔ Along step DistinctClaimInfo (initial outbox) as := by
  have h := run_iff_along step_tracked step_exclusive_iff (initial_tracked hidle) hrun
  simpa [Exclusive, initial] using h

theorem claims_exclusive_iff_spaced :
    ∃ t, run step (initial Table.empty) [.enqueue (queuedRow "e1" 10),
        .claimDue "orchestration-main" 1000 20 60, .claimDue "orchestration-main" 1001 20 60] =
          some t ∧
      (Exclusive t ↔ Along step DistinctClaimInfo (initial Table.empty)
        [.enqueue (queuedRow "e1" 10), .claimDue "orchestration-main" 1000 20 60,
          .claimDue "orchestration-main" 1001 20 60]) :=
  ⟨_, rfl, claims_exclusive_iff Table.empty (fun _ h => absurd h List.not_mem_nil) _ _ rfl⟩

/-- Two processes that claim in one second both receive the entry the first of them stamped. -/
theorem same_second_claims_overlap :
    ∃ t, run step (initial Table.empty) [.enqueue (queuedRow "e1" 10),
        .claimDue "orchestration-main" 1000 20 60, .claimDue "orchestration-main" 1000 20 60] =
          some t ∧ ¬Exclusive t :=
  ⟨_, rfl, by decide⟩

end ClaimLease
