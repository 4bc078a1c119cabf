import Mathlib.Data.List.Sort
import FlowDeck.Library.Texts
import FlowDeck.Library.Table
import FlowDeck.Library.Fallible

namespace ExecutionContracts

inductive ExecutionWorkstreamStatus
  | planned | blocked | ready | running | succeeded | failed | cancelled
  | integration_pending | integrated | superseded
  deriving DecidableEq

inductive ExecutionPlanStatus
  | planned | running | succeeded | failed | cancelled | superseded
  deriving DecidableEq

def ExecutionWorkstreamStatus.text : ExecutionWorkstreamStatus → String
  | .planned => "planned"
  | .blocked => "blocked"
  | .ready => "ready"
  | .running => "running"
  | .succeeded => "succeeded"
  | .failed => "failed"
  | .cancelled => "cancelled"
  | .integration_pending => "integration_pending"
  | .integrated => "integrated"
  | .superseded => "superseded"

def ExecutionPlanStatus.text : ExecutionPlanStatus → String
  | .planned => "planned"
  | .running => "running"
  | .succeeded => "succeeded"
  | .failed => "failed"
  | .cancelled => "cancelled"
  | .superseded => "superseded"

def transitions : ExecutionWorkstreamStatus → List ExecutionWorkstreamStatus
  | .planned => [.blocked, .ready, .cancelled, .superseded]
  | .blocked => [.ready, .cancelled, .superseded]
  | .ready => [.running, .cancelled, .superseded]
  | .running => [.ready, .succeeded, .failed, .cancelled, .integration_pending]
  | .succeeded => [.integration_pending, .superseded]
  | .failed => [.superseded]
  | .cancelled => [.superseded]
  | .integration_pending => [.integrated, .failed, .cancelled]
  | .integrated => [.superseded]
  | .superseded => []

def planTransitions : ExecutionPlanStatus → List ExecutionPlanStatus
  | .planned => [.running, .cancelled, .superseded]
  | .running => [.succeeded, .failed, .cancelled, .superseded]
  | .succeeded => [.superseded]
  | .failed => [.superseded]
  | .cancelled => [.superseded]
  | .superseded => []

structure ExecutionWorkstream where
  workstreamId : String
  dependsOn : List String
  status : ExecutionWorkstreamStatus
  blockedBy : List String
  failureReason : Option String
  deriving DecidableEq

/-- A plan as its rows hold it, with the workstreams that have an attempt recorded as integrated. -/
structure ExecutionPlan where
  status : ExecutionPlanStatus
  workstreams : Table ExecutionWorkstream.workstreamId
  integratedAttempts : List String

def ExecutionPlan.statusOf (plan : ExecutionPlan) (workstreamId : String) :
    Option ExecutionWorkstreamStatus :=
  (plan.workstreams.get? workstreamId).map fun w => w.status

def ExecutionPlan.depsOf (plan : ExecutionPlan) (workstreamId : String) : List String :=
  ((plan.workstreams.get? workstreamId).map fun w => w.dependsOn).getD []

end ExecutionContracts

namespace PlanRepository

open ExecutionContracts

/-- Statements on the rows of one plan; a failure leaves what was written before it. -/
abbrev PlanM := EStateM String ExecutionPlan

def setWorkstream (plan : ExecutionPlan) (workstreamId : String)
    (f : ExecutionWorkstream → ExecutionWorkstream)
    (hf : ∀ w, (f w).workstreamId = w.workstreamId) : ExecutionPlan :=
  { plan with
    workstreams := plan.workstreams.update (fun w => decide (w.workstreamId = workstreamId)) f hf }

def transitionWorkstream (workstreamId : String) (status : ExecutionWorkstreamStatus)
    (failureReason : Option String) (blockedBy : List String) : PlanM Unit := fun plan =>
  match plan.workstreams.get? workstreamId with
  | none => .error "WORKSTREAM_NOT_FOUND" plan
  | some w =>
    if status ∈ transitions w.status then
      .ok () (setWorkstream plan workstreamId
        (fun w => { w with status, failureReason, blockedBy }) fun _ => rfl)
    else
      .error ("INVALID_WORKSTREAM_TRANSITION:" ++ w.status.text ++ "->" ++ status.text) plan

def transitionPlanStatus (status : ExecutionPlanStatus) : PlanM Unit := fun plan =>
  if status ∈ planTransitions plan.status then .ok () { plan with status }
  else
    .error ("INVALID_EXECUTION_PLAN_TRANSITION:" ++ plan.status.text ++ "->" ++ status.text) plan

def getPlan : PlanM ExecutionPlan := fun plan => .ok plan plan

/-- A dependency that its dependents need not wait for any more. -/
def satisfied (plan : ExecutionPlan) (dependency : String) : Bool :=
  plan.statusOf dependency = some .succeeded || plan.statusOf dependency = some .integrated

def isReady (plan : ExecutionPlan) (w : ExecutionWorkstream) : Bool :=
  (w.status = .planned || w.status = .ready) && w.dependsOn.all (satisfied plan)

/-- The workstreams to dispatch, in the order of `localeCompare`. -/
def listReady (notAfter : String → String → Bool) (plan : ExecutionPlan) :
    List ExecutionWorkstream :=
  (plan.workstreams.rows.filter (isReady plan)).insertionSort
    fun a b => notAfter a.workstreamId b.workstreamId = true

/-- `cancelPlan`, apart from the leases it releases. -/
def cancelPlan (reason : String) : PlanM Unit := do
  let plan ← getPlan
  plan.workstreams.rows.forM fun w =>
    if w.status = .planned ∨ w.status = .ready ∨ w.status = .running then
      transitionWorkstream w.workstreamId .cancelled (some reason) []
    else pure ()
  transitionPlanStatus .cancelled

/-- A workstream whose integration is on record counts as integrated. -/
def reconcileIntegratedAttempts : PlanM Unit := fun plan =>
  .ok () { plan with
    workstreams := plan.workstreams.update
      (fun w => decide (w.workstreamId ∈ plan.integratedAttempts) &&
        (w.status = .succeeded || w.status = .integration_pending))
      (fun w => { w with status := .integrated }) fun _ => rfl }

/-- `recoverAfterRestart`, apart from the leases it reclaims. -/
def recoverAfterRestart : PlanM Unit := do
  reconcileIntegratedAttempts
  let plan ← getPlan
  plan.workstreams.rows.forM fun w =>
    if w.status = .running then
      transitionWorkstream w.workstreamId .ready (some "ORCHESTRATOR_RESTART") []
    else pure ()

theorem statusOf_eq_some_iff {plan : ExecutionPlan} {id : String}
    {status : ExecutionWorkstreamStatus} :
    plan.statusOf id = some status ↔
      ∃ w, plan.workstreams.get? id = some w ∧ w.status = status := by
  unfold ExecutionPlan.statusOf
  rw [Option.map_eq_some_iff]

theorem depsOf_of_mem {plan : ExecutionPlan} {w : ExecutionWorkstream}
    (h : w ∈ plan.workstreams.rows) : plan.depsOf w.workstreamId = w.dependsOn := by
  unfold ExecutionPlan.depsOf
  rw [Table.get?_of_mem h]
  rfl

theorem exists_row_of_statusOf {plan : ExecutionPlan} {id : String}
    {status : ExecutionWorkstreamStatus} (h : plan.statusOf id = some status) :
    ∃ w ∈ plan.workstreams.rows, w.workstreamId = id ∧ w.status = status := by
  obtain ⟨w, hget, hstatus⟩ := statusOf_eq_some_iff.mp h
  exact ⟨w, Table.mem_of_get? hget, Table.key_of_get? hget, hstatus⟩

theorem statusOf_of_mem {plan : ExecutionPlan} {w : ExecutionWorkstream}
    (h : w ∈ plan.workstreams.rows) : plan.statusOf w.workstreamId = some w.status :=
  statusOf_eq_some_iff.mpr ⟨w, Table.get?_of_mem h, rfl⟩

theorem get?_setWorkstream (plan : ExecutionPlan) (workstreamId id : String)
    (f : ExecutionWorkstream → ExecutionWorkstream)
    (hf : ∀ w, (f w).workstreamId = w.workstreamId) :
    (setWorkstream plan workstreamId f hf).workstreams.get? id =
      if id = workstreamId then (plan.workstreams.get? id).map f
      else plan.workstreams.get? id := by
  unfold setWorkstream
  rw [Table.get?_update]
  cases hget : plan.workstreams.get? id with
  | none => simp
  | some w =>
    have hkey : w.workstreamId = id := Table.key_of_get? hget
    by_cases hid : id = workstreamId
    · simp [Table.setWhere, hkey, hid]
    · simp [Table.setWhere, hkey, hid]

/-- A transition that goes through moves one workstream along the table and no other. -/
theorem transitionWorkstream_eq_ok_iff {plan plan' : ExecutionPlan} {workstreamId : String}
    {status : ExecutionWorkstreamStatus} {failureReason : Option String}
    {blockedBy : List String} :
    transitionWorkstream workstreamId status failureReason blockedBy plan = .ok () plan' ↔
      ∃ w, plan.workstreams.get? workstreamId = some w ∧ status ∈ transitions w.status ∧
        plan' = setWorkstream plan workstreamId
          (fun w => { w with status, failureReason, blockedBy }) fun _ => rfl := by
  unfold transitionWorkstream
  cases hget : plan.workstreams.get? workstreamId with
  | none => simp
  | some w =>
    simp only [Option.some.injEq, exists_eq_left']
    split_ifs with hallowed
    · constructor
      · intro h
        exact ⟨hallowed, (EStateM.Result.ok.inj h).2.symm⟩
      · rintro ⟨_, rfl⟩
        rfl
    · simp [hallowed]

theorem transitionWorkstream_error {plan plan' : ExecutionPlan} {id error : String}
    {status : ExecutionWorkstreamStatus} {failureReason : Option String} {blockedBy : List String}
    (h : transitionWorkstream id status failureReason blockedBy plan = .error error plan') :
    plan' = plan := by
  unfold transitionWorkstream at h
  split at h
  · exact (EStateM.Result.error.inj h).2.symm
  · split at h
    · cases h
    · exact (EStateM.Result.error.inj h).2.symm

/-- A row after a transition. -/
def moveTo (plan : ExecutionPlan) (workstreamId : String) (status : ExecutionWorkstreamStatus)
    (failureReason : Option String) (blockedBy : List String) : ExecutionPlan :=
  setWorkstream plan workstreamId (fun w => { w with status, failureReason, blockedBy }) fun _ => rfl

section MoveTo

variable {plan : ExecutionPlan} {id other : String} {from_ status : ExecutionWorkstreamStatus}
  {failureReason : Option String} {blockedBy : List String}

theorem transitionWorkstream_of_statusOf (hfrom : plan.statusOf id = some from_)
    (hallowed : status ∈ transitions from_) :
    transitionWorkstream id status failureReason blockedBy plan =
      .ok () (moveTo plan id status failureReason blockedBy) := by
  obtain ⟨w, hget, rfl⟩ := statusOf_eq_some_iff.mp hfrom
  exact transitionWorkstream_eq_ok_iff.mpr ⟨w, hget, hallowed, rfl⟩

theorem statusOf_moveTo_self (hfrom : plan.statusOf id = some from_) :
    (moveTo plan id status failureReason blockedBy).statusOf id = some status := by
  obtain ⟨w, hget, _⟩ := statusOf_eq_some_iff.mp hfrom
  unfold moveTo ExecutionPlan.statusOf
  rw [get?_setWorkstream, if_pos rfl, hget]
  rfl

theorem statusOf_moveTo_ne (hne : other ≠ id) :
    (moveTo plan id status failureReason blockedBy).statusOf other = plan.statusOf other := by
  unfold moveTo ExecutionPlan.statusOf
  rw [get?_setWorkstream, if_neg hne]

theorem depsOf_moveTo :
    (moveTo plan id status failureReason blockedBy).depsOf other = plan.depsOf other := by
  unfold moveTo ExecutionPlan.depsOf
  rw [get?_setWorkstream]
  split_ifs with hid
  · cases plan.workstreams.get? other with
    | none => rfl
    | some w => rfl
  · rfl

end MoveTo

/-- The rows of several workstreams moved at once. -/
def moveAll (plan : ExecutionPlan) (ids : List String)
    (status : String → ExecutionWorkstreamStatus) (failureReason : String → Option String)
    (blockedBy : String → List String) : ExecutionPlan :=
  { plan with
    workstreams := plan.workstreams.update (fun w => decide (w.workstreamId ∈ ids))
      (fun w =>
        { w with
          status := status w.workstreamId
          failureReason := failureReason w.workstreamId
          blockedBy := blockedBy w.workstreamId }) fun _ => rfl }

section MoveAll

variable {status : String → ExecutionWorkstreamStatus} {failureReason : String → Option String}
  {blockedBy : String → List String}

theorem moveAll_nil (plan : ExecutionPlan) :
    moveAll plan [] status failureReason blockedBy = plan := by
  unfold moveAll
  rw [Table.update_eq_self]
  intro w _
  simp

theorem moveAll_cons {id : String} {ids : List String} (h : id ∉ ids) (plan : ExecutionPlan) :
    moveAll (setWorkstream plan id
      (fun w =>
        { w with
          status := status id, failureReason := failureReason id, blockedBy := blockedBy id })
      fun _ => rfl) ids status failureReason blockedBy =
      moveAll plan (id :: ids) status failureReason blockedBy := by
  unfold moveAll setWorkstream
  congr 1
  apply Table.ext_rows
  simp only [Table.update, List.map_map]
  apply List.map_congr_left
  intro w _
  simp only [Function.comp_apply, Table.setWhere, decide_eq_true_eq, List.mem_cons]
  by_cases hid : w.workstreamId = id
  · simp [hid, h]
  · simp [hid]

theorem get?_moveAll (plan : ExecutionPlan) (ids : List String) (id : String) :
    (moveAll plan ids status failureReason blockedBy).workstreams.get? id =
      (plan.workstreams.get? id).map fun w =>
        if id ∈ ids then
          { w with
            status := status id, failureReason := failureReason id, blockedBy := blockedBy id }
        else w := by
  unfold moveAll
  rw [Table.get?_update]
  cases hget : plan.workstreams.get? id with
  | none => rfl
  | some w =>
    have hkey : w.workstreamId = id := Table.key_of_get? hget
    by_cases hid : id ∈ ids
    · simp [Table.setWhere, hkey, hid]
    · simp [Table.setWhere, hkey, hid]

theorem statusOf_moveAll (plan : ExecutionPlan) (ids : List String) (id : String) :
    (moveAll plan ids status failureReason blockedBy).statusOf id =
      if id ∈ ids then (plan.statusOf id).map fun _ => status id else plan.statusOf id := by
  unfold ExecutionPlan.statusOf
  rw [get?_moveAll]
  cases plan.workstreams.get? id with
  | none => simp
  | some w =>
    by_cases hid : id ∈ ids
    · simp [hid]
    · simp [hid]

theorem depsOf_moveAll (plan : ExecutionPlan) (ids : List String) (id : String) :
    (moveAll plan ids status failureReason blockedBy).depsOf id = plan.depsOf id := by
  unfold ExecutionPlan.depsOf
  rw [get?_moveAll]
  cases plan.workstreams.get? id with
  | none => rfl
  | some w =>
    by_cases hid : id ∈ ids
    · simp [hid]
    · simp [hid]

/-- Transitions of distinct workstreams go through together exactly when the table allows each of
them. -/
theorem forM_transitionWorkstream_eq_ok_iff {ids : List String} (hdistinct : ids.Nodup)
    {plan plan' : ExecutionPlan} :
    (ids.forM fun id => transitionWorkstream id (status id) (failureReason id) (blockedBy id)) plan =
        .ok ⟨⟩ plan' ↔
      (∀ id ∈ ids, ∃ from_, plan.statusOf id = some from_ ∧ status id ∈ transitions from_) ∧
        plan' = moveAll plan ids status failureReason blockedBy := by
  induction ids generalizing plan with
  | nil =>
    rw [Fallible.forM_nil_eq_ok_iff, moveAll_nil]
    simp [eq_comm]
  | cons id ids ih =>
    rw [List.nodup_cons] at hdistinct
    rw [Fallible.forM_cons_eq_ok_iff]
    have hother : ∀ other ∈ ids, (setWorkstream plan id
        (fun w =>
          { w with
            status := status id, failureReason := failureReason id, blockedBy := blockedBy id })
        fun _ => rfl).statusOf other = plan.statusOf other := by
      intro other hmem
      have hne : other ≠ id := fun he => hdistinct.1 (he ▸ hmem)
      unfold ExecutionPlan.statusOf
      rw [get?_setWorkstream, if_neg hne]
    constructor
    · rintro ⟨mid, hfirst, hrest⟩
      obtain ⟨w, hget, hallowed, rfl⟩ := transitionWorkstream_eq_ok_iff.mp hfirst
      obtain ⟨hall, rfl⟩ := (ih hdistinct.2).mp hrest
      refine ⟨?_, moveAll_cons hdistinct.1 plan⟩
      intro other hmem
      rcases List.mem_cons.mp hmem with rfl | hmem
      · exact ⟨w.status, statusOf_eq_some_iff.mpr ⟨w, hget, rfl⟩, hallowed⟩
      · rw [← hother other hmem]
        exact hall other hmem
    · rintro ⟨hall, rfl⟩
      obtain ⟨from_, hstatus, hallowed⟩ := hall id List.mem_cons_self
      obtain ⟨w, hget, rfl⟩ := statusOf_eq_some_iff.mp hstatus
      refine ⟨_, transitionWorkstream_eq_ok_iff.mpr ⟨w, hget, hallowed, rfl⟩, ?_⟩
      refine (ih hdistinct.2).mpr ⟨?_, (moveAll_cons hdistinct.1 plan).symm⟩
      intro other hmem
      rw [hother other hmem]
      exact hall other (List.mem_cons_of_mem _ hmem)

end MoveAll

end PlanRepository
