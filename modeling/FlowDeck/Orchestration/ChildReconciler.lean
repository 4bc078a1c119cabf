import FlowDeck.Library.InsertionMap
import FlowDeck.Library.Machine

/-! The reconciler of child lifecycles: what events and polls make of the snapshots it tracks. -/

namespace ChildReconciler

open InsertionMap Machine

inductive ChildLifecycleState
  | queued
  | running
  | completed
  | failed
  | cancelled
  | timedOut
  | unknown
  deriving DecidableEq

def ChildLifecycleState.isTerminal : ChildLifecycleState → Bool
  | .queued | .running => false
  | _ => true

structure ChildSnapshot where
  childId : String
  state : ChildLifecycleState
  phase : Option String := none
  currentTool : Option String := none
  summary : Option String := none
  deriving DecidableEq

def sameLifecycleState (a b : ChildSnapshot) : Bool :=
  a.state = b.state && a.phase = b.phase && a.currentTool = b.currentTool && a.summary = b.summary

structure Reconciler where
  tracked : InsertionMap String ChildSnapshot
  lastTransitionAt : Int
  reconciliationPolls : Nat := 0
  childStatusEvents : Nat := 0
  recoveredFromEvents : Nat := 0

structure ReconcilerReport where
  snapshotCount : Nat
  changed : List String := []
  newlySeen : List String := []
  recovered : List String := []
  pollModelTurns : Nat := 0

def handleEvent (r : Reconciler) (childId : String) (snapshot : ChildSnapshot) (now : Int) :
    Reconciler :=
  { r with
    childStatusEvents := r.childStatusEvents + 1
    recoveredFromEvents :=
      r.recoveredFromEvents + if (r.tracked.get? childId).isNone then 1 else 0
    tracked := r.tracked.set childId snapshot
    lastTransitionAt := now }

/-- One listed snapshot; one of the state that is tracked already changes nothing. -/
def applyListed (now : Int) (acc : Reconciler × ReconcilerReport) (snap : ChildSnapshot) :
    Reconciler × ReconcilerReport :=
  let (r, report) := acc
  let stored := { r with tracked := r.tracked.set snap.childId snap, lastTransitionAt := now }
  match r.tracked.get? snap.childId with
  | none => (stored, { report with
      recovered := report.recovered ++ [snap.childId]
      newlySeen := report.newlySeen ++ [snap.childId]
      changed := report.changed ++ [snap.childId] })
  | some prev =>
    if sameLifecycleState prev snap then acc
    else (stored, { report with changed := report.changed ++ [snap.childId] })

/-- The rest of `pollOnce`, once the port has listed the children. -/
def pollOnce (r : Reconciler) (listed : List ChildSnapshot) (now : Int) :
    Reconciler × ReconcilerReport :=
  listed.foldl (applyListed now) (r, { snapshotCount := listed.length })

structure State where
  reconciler : Reconciler
  /-- the polls that wait for their listing -/
  awaiting : Nat := 0

inductive Action
  | handleEvent (childId : String) (snapshot : ChildSnapshot) (now : Int)
  | pollOnce
  | listed (snapshots : List ChildSnapshot) (now : Int)
  | listFails

def step (s : State) : Action → Option State
  | .handleEvent childId snapshot now =>
    some { s with reconciler := handleEvent s.reconciler childId snapshot now }
  | .pollOnce => some {
      reconciler := { s.reconciler with
        reconciliationPolls := s.reconciler.reconciliationPolls + 1 }
      awaiting := s.awaiting + 1 }
  | .listed snapshots now =>
    if s.awaiting = 0 then none
    else some ⟨(pollOnce s.reconciler snapshots now).1, s.awaiting - 1⟩
  | .listFails => if s.awaiting = 0 then none else some { s with awaiting := s.awaiting - 1 }

/-- The state that is tracked of a child. -/
def stateOf (s : State) (childId : String) : Option ChildLifecycleState :=
  (s.reconciler.tracked.get? childId).map (·.state)

/-- The child has come to an end. -/
def Ended (s : State) (childId : String) : Prop :=
  (stateOf s childId).any (·.isTerminal) = true

def KeepsEnds (s t : State) : Prop := ∀ childId, Ended s childId → Ended t childId

/-- The snapshot of a child that a listing puts last. -/
def lastListed (snapshots : List ChildSnapshot) (childId : String) : Option ChildSnapshot :=
  (snapshots.filter (·.childId = childId)).getLast?

/-- What is told of a child that has ended is that it has. -/
def InOrder (s : State) : Action → Prop
  | .handleEvent childId snapshot _ => Ended s childId → snapshot.state.isTerminal = true
  | .listed snapshots _ => s.awaiting ≠ 0 → ∀ childId, Ended s childId →
      ∀ snapshot, lastListed snapshots childId = some snapshot → snapshot.state.isTerminal = true
  | _ => True

theorem tracked_applyListed (now : Int) (acc : Reconciler × ReconcilerReport) (snap : ChildSnapshot)
    (childId : String) : ((applyListed now acc snap).1.tracked.get? childId).map (·.state) =
      if snap.childId = childId then some snap.state
      else (acc.1.tracked.get? childId).map (·.state) := by
  unfold applyListed
  by_cases hchild : snap.childId = childId
  · subst hchild
    cases hprev : acc.1.tracked.get? snap.childId with
    | none => simp [hprev]
    | some prev =>
      by_cases hsame : sameLifecycleState prev snap = true
      · have hstate : prev.state = snap.state := by
          simp only [sameLifecycleState, Bool.and_eq_true, decide_eq_true_eq] at hsame
          exact hsame.1.1.1
        simp [hprev, hsame, hstate]
      · simp [hprev, hsame]
  · cases hprev : acc.1.tracked.get? snap.childId with
    | none => simp [hprev, hchild, get?_set]
    | some prev => by_cases hsame : sameLifecycleState prev snap = true <;>
        simp [hprev, hsame, hchild, get?_set]

/-- A poll leaves of each child the state that was listed last. -/
theorem stateOf_pollOnce (r : Reconciler) (listed : List ChildSnapshot) (now : Int)
    (childId : String) (awaiting : Nat) : stateOf ⟨(pollOnce r listed now).1, awaiting⟩ childId =
      ((lastListed listed childId).map (·.state)).or ((r.tracked.get? childId).map (·.state)) := by
  unfold pollOnce
  generalize ReconcilerReport.mk listed.length [] [] [] 0 = report
  induction listed using List.reverseRecOn with
  | nil => simp [stateOf, lastListed]
  | append_singleton listed snap ih =>
    rw [List.foldl_append, List.foldl_cons, List.foldl_nil, stateOf, tracked_applyListed]
    by_cases hchild : snap.childId = childId
    · simp [lastListed, hchild]
    · simpa [lastListed, hchild, stateOf] using ih

theorem keepsEnds_iff (s : State) (a : Action) :
    (∀ t, step s a = some t → KeepsEnds s t) ↔ InOrder s a := by
  cases a with
  | handleEvent childId snapshot now =>
    have hstate (other : String) :
        stateOf ⟨handleEvent s.reconciler childId snapshot now, s.awaiting⟩ other =
          if childId = other then some snapshot.state else stateOf s other := by
      simp only [stateOf, handleEvent, get?_set]
      split_ifs with hchild
      · rfl
      · rfl
    simp only [step, Option.some.injEq, forall_eq', KeepsEnds, Ended, hstate, InOrder]
    constructor
    · intro h hended
      simpa using h childId hended
    · intro h other hended
      split_ifs with hchild
      · exact h (hchild ▸ hended)
      · exact hended
  | pollOnce => simp [step, KeepsEnds, Ended, stateOf, InOrder]
  | listed snapshots now =>
    by_cases hawaiting : s.awaiting = 0
    · simp [step, InOrder, hawaiting]
    · simp only [step, hawaiting, if_false, Option.some.injEq, forall_eq', KeepsEnds, Ended,
        stateOf_pollOnce, InOrder, ne_eq, not_false_eq_true, true_imp_iff]
      refine forall_congr' fun childId => imp_congr_right fun hended => ?_
      cases hlast : lastListed snapshots childId with
      | none => simpa [stateOf] using hended
      | some snapshot => simp
  | listFails =>
    by_cases hawaiting : s.awaiting = 0 <;>
      simp [step, hawaiting, KeepsEnds, Ended, stateOf, InOrder]

/-- Children that have ended stay so over a run exactly when no event and no listing tells otherwise
of one. -/
theorem throughout_keepsEnds_iff (s : State) (as : List Action) :
    Throughout step KeepsEnds s as ↔ Along step InOrder s as := by
  rw [throughout_iff_along (fun _ _ h => h) fun _ _ _ h h' childId he => h' childId (h childId he)]
  exact Along.congr (I := fun _ => True) (fun _ _ _ _ _ => trivial)
    (fun s a _ => keepsEnds_iff s a) trivial

/-- A listing from before the completion is applied after it. -/
theorem late_listing_revives : ¬Throughout step KeepsEnds ⟨⟨empty, 0, 0, 0, 0⟩, 0⟩
    [.pollOnce, .handleEvent "X" ⟨"X", .completed, none, none, none⟩ 1,
      .listed [⟨"X", .running, none, none, none⟩] 2] := by
  intro h
  have hended := h [.pollOnce, .handleEvent "X" ⟨"X", .completed, none, none, none⟩ 1]
    [.listed [⟨"X", .running, none, none, none⟩] 2] [] _ _ rfl rfl rfl "X" rfl
  exact Bool.false_ne_true hended

end ChildReconciler
