import FlowDeck.Orchestration.ChildLifecycle

namespace ChildAssignment

open ChildExecution ChildLifecycle Machine Service InsertionMap Option

def assignmentStatus (db : Database) (id : String) : Option StoredAssignmentStatus :=
  (db.assignments.get? id).map (·.status)

def endOf : ChildExecutionState → Option StoredAssignmentStatus
  | .completed => some .completed
  | .failed => some .failed
  | _ => none

def IsEnd (status : StoredAssignmentStatus) : Prop :=
  status = .completed ∨ status = .failed

/-- A completed child has a completed assignment, and a failed child a failed one. -/
def Agrees (db : Database) (record : ChildExecutionRecord) : Prop :=
  ∀ status, endOf record.status = some status →
    assignmentStatus db record.assignmentId = some status

/-- No assignment that ended is put back. -/
def EndKept (db db' : Database) : Prop :=
  ∀ id status, IsEnd status → assignmentStatus db id = some status →
    assignmentStatus db' id = some status

def pendingUpdate : Handler → Option (String × AssignmentStatus)
  | .awaiting (.updateAssignment id status _) _ => some (id, status)
  | .awaiting (.writeAssignment id status _) _ => some (id, status)
  | _ => none

def registering : Handler → Option String
  | .awaiting (.register input _) _ => some input.assignmentId
  | _ => none

def MarksChild : Action → Prop
  | .registerDelegation _ _ _ => True
  | .bindChildSession _ _ => True
  | .markStarted _ _ _ => True
  | .markCompleted _ _ _ _ => True
  | .markFailed _ _ _ _ => True
  | .resume _ _ => True
  | _ => False

/-- The writes of a completion or failure succeed, and no start is written on an assignment that
ended. -/
def InOrder (s : State) : Action → Prop
  | .markCompleted _ _ _ answers => answers.written = true
  | .markFailed _ _ _ answers => answers.written = true
  | .resume h answers =>
    match s.handlers h with
    | .awaiting (.updateAssignment _ status _) _ => IsEnd status.stored → answers.written = true
    | .awaiting (.writeAssignment id status _) _ =>
      (IsEnd status.stored → answers.written = true) ∧
        (¬IsEnd status.stored → ∀ old, assignmentStatus s.world.db id = some old → ¬IsEnd old)
    | _ => True
  | _ => True

/-- The shapes the handlers of these calls take. -/
inductive Expected : Handler → Prop
  | idle : Expected .idle
  | settled (outcome : Outcome) : Expected (.settled outcome)
  | register (input : RegisterDelegationInput) (now : Nat) :
    Expected (.awaiting (.register input now) [])
  | update (id : String) (status : AssignmentStatus) (sessionStatus : String)
    (sessionError : Option String) (result : TransitionResult) :
    Expected (.awaiting (.updateAssignment id status false)
      [.finish sessionStatus sessionError result])
  | write (id : String) (status : AssignmentStatus) (sessionStatus : String)
    (sessionError : Option String) (result : TransitionResult) :
    Expected (.awaiting (.writeAssignment id status false)
      [.finish sessionStatus sessionError result])
  | finish (sessionStatus : String) (sessionError : Option String) (result : TransitionResult) :
    Expected (.awaiting (.finish sessionStatus sessionError result) [])

/-- Children and assignments apart from the handlers: every object in use has an assignment of its
own, which ended only with the child. -/
structure Paired (w : World) : Prop where
  taskCalls : ∀ obj ∈ w.service.recordsByTaskCall.values, obj < w.service.allocated
  childSessions : ∀ obj ∈ w.service.recordsByChildSession.values, obj < w.service.allocated
  distinct : ∀ obj < w.service.allocated, ∀ obj' < w.service.allocated,
    (w.service.objects obj).assignmentId = (w.service.objects obj').assignmentId → obj = obj'
  created : ∀ obj < w.service.allocated,
    (assignmentStatus w.db (w.service.objects obj).assignmentId).isSome = true
  ended : ∀ obj < w.service.allocated, ∀ status, IsEnd status →
    assignmentStatus w.db (w.service.objects obj).assignmentId = some status →
      endOf (w.service.objects obj).status = some status
  stored : ∀ k record, w.db.children.get? k = some record → ∀ status,
    endOf record.status = some status → ∃ obj < w.service.allocated,
      (w.service.objects obj).assignmentId = record.assignmentId ∧
        endOf (w.service.objects obj).status = some status

/-- The handlers in flight: the end of a child is written to its assignment or about to be. -/
structure Synced (s : State) : Prop where
  paired : Paired s.world
  expected : ∀ h, Expected (s.handlers h)
  registered : ∀ h id, registering (s.handlers h) = some id →
    assignmentStatus s.world.db id = some .pending ∧
      ∀ obj < s.world.service.allocated, (s.world.service.objects obj).assignmentId ≠ id
  registers : ∀ h h' id, registering (s.handlers h) = some id →
    registering (s.handlers h') = some id → h = h'
  pending : ∀ h id status, pendingUpdate (s.handlers h) = some (id, status) →
    ∃ obj < s.world.service.allocated, (s.world.service.objects obj).assignmentId = id ∧
      (status = .inProgress ∨ endOf (s.world.service.objects obj).status = some status.stored)
  ending : ∀ obj < s.world.service.allocated, ∀ status,
    endOf (s.world.service.objects obj).status = some status →
      assignmentStatus s.world.db (s.world.service.objects obj).assignmentId = some status ∨
        ∃ h update, update.stored = status ∧
          pendingUpdate (s.handlers h) = some ((s.world.service.objects obj).assignmentId, update)

theorem isEnd_of_endOf {state : ChildExecutionState} {status : StoredAssignmentStatus}
    (h : endOf state = some status) : IsEnd status := by
  cases state with
  | completed => exact Or.inl (some.inj h).symm
  | failed => exact Or.inr (some.inj h).symm
  | _ => cases h

theorem not_isEnd_pending : ¬IsEnd .pending := by
  intro h
  rcases h with h | h <;> cases h

theorem not_isEnd_inProgress : ¬IsEnd AssignmentStatus.inProgress.stored := by
  intro h
  rcases h with h | h <;> cases h

theorem endOf_of_active {state : ChildExecutionState} (h : isTerminalChildState state = false) :
    endOf state = none := by
  cases state <;> first | rfl | cases h

theorem EndKept.refl (db : Database) : EndKept db db := fun _ _ _ h => h

variable {db : Database} {w w' : World} {s : State} {h : Nat}

theorem EndKept.trans {db' db'' : Database} (h : EndKept db db') (h' : EndKept db' db'') :
    EndKept db db'' := fun id status hend hstatus => h' id status hend (h id status hend hstatus)

theorem assignmentStatus_congr {db' : Database} (h : db'.assignments = db.assignments) (id : String) :
    assignmentStatus db' id = assignmentStatus db id := by
  rw [assignmentStatus, assignmentStatus, h]

theorem assignmentStatus_update (db : Database) (id id' : String) (status : AssignmentStatus) :
    assignmentStatus (updateAssignmentStatus db id status) id' =
      if id' = id then (assignmentStatus db id').map fun _ => status.stored
      else assignmentStatus db id' := by
  simp only [assignmentStatus, updateAssignmentStatus]
  rw [Table.get?_update]
  cases hrow : db.assignments.get? id' with
  | none => simp
  | some row =>
    have hid : row.id = id' := Table.key_of_get? hrow
    by_cases h : id' = id
    · have hrowid : row.id = id := hid.trans h
      simp [Table.setWhere, hrowid, h, setAssignment]
    · have hrowid : row.id ≠ id := fun he => h (hid.symm.trans he)
      simp [Table.setWhere, hrowid, h]

/-- A step that leaves alone what pairs children with assignments. -/
structure SameChildren (w w' : World) : Prop where
  allocated : w'.service.allocated = w.service.allocated
  ids : ∀ obj, (w'.service.objects obj).assignmentId = (w.service.objects obj).assignmentId
  statuses : ∀ obj, (w'.service.objects obj).status = (w.service.objects obj).status
  taskCalls : w'.service.recordsByTaskCall = w.service.recordsByTaskCall
  childSessions : ∀ obj ∈ w'.service.recordsByChildSession.values,
    obj ∈ w.service.recordsByChildSession.values ∨ obj < w.service.allocated
  assignments : w'.db.assignments = w.db.assignments
  stored : ∀ k record, w'.db.children.get? k = some record →
    w.db.children.get? k = some record ∨ ∃ obj < w.service.allocated,
      (w.service.objects obj).assignmentId = record.assignmentId ∧
        (w.service.objects obj).status = record.status

theorem SameChildren.refl (w : World) : SameChildren w w where
  allocated := rfl
  ids _ := rfl
  statuses _ := rfl
  taskCalls := rfl
  childSessions _ := Or.inl
  assignments := rfl
  stored _ _ := Or.inl

theorem SameChildren.paired {w w' : World} (h : SameChildren w w') (hw : Paired w) : Paired w' where
  taskCalls obj hobj := by
    rw [h.taskCalls] at hobj
    rw [h.allocated]
    exact hw.taskCalls obj hobj
  childSessions obj hobj := by
    rw [h.allocated]
    cases h.childSessions obj hobj with
    | inl hold => exact hw.childSessions obj hold
    | inr hlt => exact hlt
  distinct obj hobj obj' hobj' he := by
    rw [h.allocated] at hobj hobj'
    rw [h.ids, h.ids] at he
    exact hw.distinct obj hobj obj' hobj' he
  created obj hobj := by
    rw [h.allocated] at hobj
    rw [h.ids, assignmentStatus_congr h.assignments]
    exact hw.created obj hobj
  ended obj hobj status hend hstatus := by
    rw [h.allocated] at hobj
    rw [h.ids, assignmentStatus_congr h.assignments] at hstatus
    rw [h.statuses]
    exact hw.ended obj hobj status hend hstatus
  stored k record hrecord status hend := by
    have hold : ∃ obj < w.service.allocated,
        (w.service.objects obj).assignmentId = record.assignmentId ∧
          endOf (w.service.objects obj).status = some status := by
      cases h.stored k record hrecord with
      | inl hget => exact hw.stored k record hget status hend
      | inr hsaved =>
        obtain ⟨obj, hobj, hid, hstatus⟩ := hsaved
        exact ⟨obj, hobj, hid, hstatus ▸ hend⟩
    obtain ⟨obj, hobj, hid, hstatus⟩ := hold
    refine ⟨obj, h.allocated ▸ hobj, (h.ids obj).trans hid, ?_⟩
    rw [h.statuses]
    exact hstatus

theorem setHandler_world (s : State) (h : Nat) (w : World) (next : Handler) :
    (s.setHandler h (w, next)).world = w := rfl

@[simp] theorem setHandler_self (s : State) (h : Nat) (result : World × Handler) :
    (s.setHandler h result).handlers h = result.2 := by
  simp [State.setHandler]

theorem setHandler_other {h' : Nat} (hne : h' ≠ h) (result : World × Handler) :
    (s.setHandler h result).handlers h' = s.handlers h' := by
  simp [State.setHandler, hne]

theorem expected_setHandler (hs : ∀ h, Expected (s.handlers h)) {h : Nat} {result : World × Handler}
    (hresult : Expected result.2) (h' : Nat) : Expected ((s.setHandler h result).handlers h') := by
  by_cases hh : h' = h
  · subst hh
    rw [setHandler_self]
    exact hresult
  · rw [setHandler_other hh]
    exact hs h'

theorem of_setHandler {α : Type} {f : Handler → Option α} {result : World × Handler}
    (hresult : f result.2 = none) {h' : Nat} {x : α}
    (hx : f ((s.setHandler h result).handlers h') = some x) :
    h' ≠ h ∧ f (s.handlers h') = some x := by
  by_cases hh : h' = h
  · subst hh
    rw [setHandler_self, hresult] at hx
    cases hx
  · rw [setHandler_other hh] at hx
    exact ⟨hh, hx⟩

/-- A handler goes on without writing an assignment: it keeps its pending update, or drops one
that was no end. -/
theorem Synced.proceed {s : State} (hs : Synced s) {h : Nat} {w : World} {next : Handler}
    (hsame : SameChildren s.world w) (hexpected : Expected next)
    (hregistering : registering next = none)
    (hpending : pendingUpdate next = pendingUpdate (s.handlers h) ∨ pendingUpdate next = none ∧
      ∀ id status, pendingUpdate (s.handlers h) = some (id, status) → ¬IsEnd status.stored) :
    Synced (s.setHandler h (w, next)) where
  paired := hsame.paired hs.paired
  expected := expected_setHandler hs.expected hexpected
  registered h' id hid := by
    obtain ⟨hstatus, hother⟩ := hs.registered h' id (of_setHandler hregistering hid).2
    refine ⟨(assignmentStatus_congr hsame.assignments id).trans hstatus, ?_⟩
    intro obj hobj
    have hlt : obj < s.world.service.allocated := hsame.allocated ▸ hobj
    exact fun he => hother obj hlt ((hsame.ids obj).symm.trans he)
  registers h₁ h₂ id hid₁ hid₂ := hs.registers h₁ h₂ id
    (of_setHandler hregistering hid₁).2 (of_setHandler hregistering hid₂).2
  pending h' id status hid := by
    have hold : pendingUpdate (s.handlers h') = some (id, status) := by
      by_cases hh : h' = h
      · subst hh
        rw [setHandler_self] at hid
        rcases hpending with hsamePending | ⟨hnone, -⟩
        · exact hsamePending.symm.trans hid
        · rw [hnone] at hid
          cases hid
      · rwa [setHandler_other hh] at hid
    obtain ⟨obj, hobj, hassignment, hstatus⟩ := hs.pending h' id status hold
    refine ⟨obj, hsame.allocated ▸ hobj, (hsame.ids obj).trans hassignment, ?_⟩
    rw [setHandler_world, hsame.statuses]
    exact hstatus
  ending obj hobj status hend := by
    have hlt : obj < s.world.service.allocated := hsame.allocated ▸ hobj
    have hend' : endOf (s.world.service.objects obj).status = some status :=
      hsame.statuses obj ▸ hend
    have hid : (w.service.objects obj).assignmentId =
        (s.world.service.objects obj).assignmentId := hsame.ids obj
    rw [setHandler_world, hid, assignmentStatus_congr hsame.assignments]
    rcases hs.ending obj hlt status hend' with hwritten | ⟨h', update, hupdate, hid'⟩
    · exact Or.inl hwritten
    · refine Or.inr ⟨h', update, hupdate, ?_⟩
      by_cases hh : h' = h
      · subst hh
        rw [setHandler_self]
        rcases hpending with hsamePending | ⟨-, hdropped⟩
        · exact hsamePending.trans hid'
        · exact absurd (hupdate ▸ isEnd_of_endOf hend') (hdropped _ _ hid')
      · rw [setHandler_other hh]
        exact hid'

/-- A step that changes one record in use, and what pairs the others with assignments not at all. -/
structure Moves (w w' : World) (obj : Nat) : Prop where
  allocated : w'.service.allocated = w.service.allocated
  others : ∀ obj', obj' ≠ obj → w'.service.objects obj' = w.service.objects obj'
  id : (w'.service.objects obj).assignmentId = (w.service.objects obj).assignmentId
  taskCalls : ∀ obj' ∈ w'.service.recordsByTaskCall.values,
    obj' = obj ∨ obj' ∈ w.service.recordsByTaskCall.values
  childSessions : ∀ obj' ∈ w'.service.recordsByChildSession.values,
    obj' = obj ∨ obj' ∈ w.service.recordsByChildSession.values
  assignments : w'.db.assignments = w.db.assignments
  stored : ∀ k record, w'.db.children.get? k = some record →
    w.db.children.get? k = some record ∨ record = w'.service.objects obj

theorem Moves.ids {obj : Nat} (h : Moves w w' obj) (obj' : Nat) :
    (w'.service.objects obj').assignmentId = (w.service.objects obj').assignmentId := by
  by_cases hobj : obj' = obj
  · rw [hobj]
    exact h.id
  · rw [h.others obj' hobj]

theorem Moves.paired {w w' : World} {obj : Nat} (h : Moves w w' obj) (hw : Paired w)
    (hobj : obj < w.service.allocated)
    (hactive : isTerminalChildState (w.service.objects obj).status = false) : Paired w' where
  taskCalls obj' hmem := by
    rw [h.allocated]
    rcases h.taskCalls obj' hmem with rfl | hold
    · exact hobj
    · exact hw.taskCalls obj' hold
  childSessions obj' hmem := by
    rw [h.allocated]
    rcases h.childSessions obj' hmem with rfl | hold
    · exact hobj
    · exact hw.childSessions obj' hold
  distinct obj₁ h₁ obj₂ h₂ he := by
    rw [h.allocated] at h₁ h₂
    rw [h.ids, h.ids] at he
    exact hw.distinct obj₁ h₁ obj₂ h₂ he
  created obj' hlt := by
    rw [h.allocated] at hlt
    rw [h.ids, assignmentStatus_congr h.assignments]
    exact hw.created obj' hlt
  ended obj' hlt status hend hstatus := by
    rw [h.allocated] at hlt
    rw [h.ids, assignmentStatus_congr h.assignments] at hstatus
    have hold := hw.ended obj' hlt status hend hstatus
    by_cases hobj' : obj' = obj
    · rw [hobj', endOf_of_active hactive] at hold
      cases hold
    · rw [h.others obj' hobj']
      exact hold
  stored k record hrecord status hend := by
    rcases h.stored k record hrecord with hold | hnew
    · obtain ⟨obj', hlt, hid, hstatus⟩ := hw.stored k record hold status hend
      have hne : obj' ≠ obj := by
        intro he
        rw [he, endOf_of_active hactive] at hstatus
        cases hstatus
      refine ⟨obj', h.allocated ▸ hlt, (h.ids obj').trans hid, ?_⟩
      rw [h.others obj' hne]
      exact hstatus
    · rw [hnew]
      rw [hnew] at hend
      exact ⟨obj, h.allocated ▸ hobj, rfl, hend⟩

/-- A call moves an active child: where it ends it, its handler has the end still to write. -/
theorem Synced.move {s : State} (hs : Synced s) {h : Nat} (hidle : s.handlers h = .idle) {w : World}
    {next : Handler} {obj : Nat} (hmoves : Moves s.world w obj)
    (hobj : obj < s.world.service.allocated)
    (hactive : isTerminalChildState (s.world.service.objects obj).status = false)
    (hexpected : Expected next) (hregistering : registering next = none)
    (hpending : ∀ id status, pendingUpdate next = some (id, status) →
      (w.service.objects obj).assignmentId = id ∧
        (status = .inProgress ∨ endOf (w.service.objects obj).status = some status.stored))
    (hend : ∀ status, endOf (w.service.objects obj).status = some status →
      ∃ update : AssignmentStatus, update.stored = status ∧
        pendingUpdate next = some ((w.service.objects obj).assignmentId, update)) :
    Synced (s.setHandler h (w, next)) where
  paired := hmoves.paired hs.paired hobj hactive
  expected := expected_setHandler hs.expected hexpected
  registered h' id hid := by
    obtain ⟨hstatus, hother⟩ := hs.registered h' id (of_setHandler hregistering hid).2
    refine ⟨(assignmentStatus_congr hmoves.assignments id).trans hstatus, ?_⟩
    intro obj' hlt
    have hlt' : obj' < s.world.service.allocated := hmoves.allocated ▸ hlt
    exact fun he => hother obj' hlt' ((hmoves.ids obj').symm.trans he)
  registers h₁ h₂ id hid₁ hid₂ := hs.registers h₁ h₂ id
    (of_setHandler hregistering hid₁).2 (of_setHandler hregistering hid₂).2
  pending h' id status hid := by
    by_cases hh : h' = h
    · subst hh
      rw [setHandler_self] at hid
      exact ⟨obj, hmoves.allocated ▸ hobj, hpending id status hid⟩
    · rw [setHandler_other hh] at hid
      obtain ⟨obj', hlt, hassignment, hstatus⟩ := hs.pending h' id status hid
      refine ⟨obj', hmoves.allocated ▸ hlt, (hmoves.ids obj').trans hassignment, ?_⟩
      rcases hstatus with hstart | hended
      · exact Or.inl hstart
      · have hne : obj' ≠ obj := by
          intro he
          rw [he, endOf_of_active hactive] at hended
          cases hended
        right
        rw [setHandler_world, hmoves.others obj' hne]
        exact hended
  ending obj' hlt status hended := by
    by_cases hobj' : obj' = obj
    · subst hobj'
      obtain ⟨update, hupdate, hid⟩ := hend status hended
      refine Or.inr ⟨h, update, hupdate, ?_⟩
      rw [setHandler_self]
      exact hid
    · have hlt' : obj' < s.world.service.allocated := hmoves.allocated ▸ hlt
      have hsame : w.service.objects obj' = s.world.service.objects obj' :=
        hmoves.others obj' hobj'
      rw [setHandler_world, hsame] at hended
      rw [setHandler_world, hsame, assignmentStatus_congr hmoves.assignments]
      rcases hs.ending obj' hlt' status hended with hwritten | ⟨h', update, hupdate, hid⟩
      · exact Or.inl hwritten
      · have hh : h' ≠ h := by
          intro he
          rw [he, hidle] at hid
          cases hid
        refine Or.inr ⟨h', update, hupdate, ?_⟩
        rw [setHandler_other hh]
        exact hid

theorem resolveRecord_lt (hw : Paired w) {input : ChildRef} {obj : Nat}
    (h : resolveRecord w.service input = some obj) : obj < w.service.allocated := by
  unfold resolveRecord at h
  rcases or_eq_some_iff.mp h with hcall | ⟨-, hsession⟩
  · obtain ⟨key, -, hget⟩ := bind_eq_some_iff.mp hcall
    exact hw.taskCalls obj (mem_values_of_get? hget)
  · obtain ⟨key, -, hget⟩ := bind_eq_some_iff.mp hsession
    exact hw.childSessions obj (mem_values_of_get? hget)

theorem apply_status (extra : TransitionExtra) (record : ChildExecutionRecord) :
    (extra.apply record).status = record.status := rfl

theorem setObject_moves (w : World) (obj : Nat) {record : ChildExecutionRecord}
    (hid : record.assignmentId = (w.service.objects obj).assignmentId) :
    Moves w { w with service := w.service.setObject obj record } obj where
  allocated := rfl
  others obj' hne := by simp [setObject, hne]
  id := by simp [setObject, hid]
  taskCalls _ := Or.inr
  childSessions _ := Or.inr
  assignments := rfl
  stored _ _ := Or.inl

theorem saveObject_moves (w : World) (obj : Nat) {record : ChildExecutionRecord}
    (hid : record.assignmentId = (w.service.objects obj).assignmentId) :
    Moves w { service := (w.service.setObject obj record).cache obj record, db := w.db.save record }
      obj where
  allocated := rfl
  others obj' hne := by simp [cache, setObject, hne]
  id := by simp [cache, setObject, hid]
  taskCalls _ hmem := mem_values_set hmem
  childSessions obj' hmem := by
    simp only [cache] at hmem
    split at hmem
    · exact mem_values_set hmem
    · exact Or.inr hmem
  assignments := rfl
  stored k record' hget := by
    simp only [Database.save] at hget
    rw [Table.get?_upsert] at hget
    split_ifs at hget
    · right
      simpa [cache, setObject] using (some.inj hget).symm
    · exact Or.inl hget

/-- What a start, completion or failure does up to its first await. -/
theorem beginTransition_cases (w : World) (input : ChildRef) (targetState : ChildExecutionState)
    (extra : TransitionExtra) (assignmentStatus : AssignmentStatus) (sessionStatus : String)
    (sessionError : Option String) (written : Bool) :
    (∃ outcome, beginTransition w input targetState extra assignmentStatus sessionStatus
        sessionError written = (w, .settled outcome)) ∨
    ∃ obj w', resolveRecord w.service input = some obj ∧
      isTerminalChildState (w.service.objects obj).status = false ∧ Moves w w' obj ∧
      (w'.service.objects obj).status = targetState ∧
      ((written = false ∧ ∃ outcome, beginTransition w input targetState extra assignmentStatus
          sessionStatus sessionError written = (w', .settled outcome)) ∨
        ∃ result, beginTransition w input targetState extra assignmentStatus sessionStatus
          sessionError written = (w', beginAssignmentUpdate w'.db
            (w'.service.objects obj).assignmentId assignmentStatus false
              [.finish sessionStatus sessionError result])) := by
  unfold beginTransition
  cases hobj : resolveRecord w.service input with
  | none => exact Or.inl ⟨_, rfl⟩
  | some obj =>
    simp only [transitionThenUpdate, transitionChild]
    split_ifs with hsame hterminal hvalid hsaved
    · exact Or.inl ⟨_, rfl⟩
    · exact Or.inl ⟨_, rfl⟩
    · refine Or.inr ⟨obj, _, rfl, Bool.eq_false_iff.mpr hterminal, ?_, ?_, Or.inr ⟨_, rfl⟩⟩
      · exact saveObject_moves w obj rfl
      · simp [cache, setObject, apply_status]
    · refine Or.inr ⟨obj, _, rfl, Bool.eq_false_iff.mpr hterminal, ?_, ?_, Or.inl ⟨?_, _, rfl⟩⟩
      · exact setObject_moves w obj rfl
      · simp [setObject, apply_status]
      · exact Bool.eq_false_iff.mpr hsaved
    · exact Or.inl ⟨_, rfl⟩

theorem beginTransition_synced (hs : Synced s) {h : Nat} (hidle : s.handlers h = .idle)
    (input : ChildRef) {targetState : ChildExecutionState} (extra : TransitionExtra)
    {assignmentStatus : AssignmentStatus} (sessionStatus : String) (sessionError : Option String)
    {written : Bool}
    (hstatus : assignmentStatus = .inProgress ∨ endOf targetState = some assignmentStatus.stored)
    (hend : ∀ status, endOf targetState = some status →
      assignmentStatus.stored = status ∧ written = true) :
    Synced (s.setHandler h (beginTransition s.world input targetState extra assignmentStatus
      sessionStatus sessionError written)) := by
  rcases beginTransition_cases s.world input targetState extra assignmentStatus sessionStatus
    sessionError written with ⟨outcome, hresult⟩ | ⟨obj, w, hobj, hactive, hmoves, hmoved, hcase⟩
  · rw [hresult]
    exact hs.proceed (SameChildren.refl s.world) (Expected.settled outcome) rfl
      (Or.inl (by rw [hidle]; rfl))
  · have hlt : obj < s.world.service.allocated := resolveRecord_lt hs.paired hobj
    rcases hcase with ⟨hunwritten, outcome, hresult⟩ | ⟨result, hresult⟩
    · rw [hresult]
      refine hs.move hidle hmoves hlt hactive (Expected.settled outcome) rfl ?_ ?_
      · intro id status hid
        cases hid
      · intro status hended
        rw [hmoved] at hended
        rw [hunwritten] at hend
        cases (hend status hended).2
    · have hcreated := hs.paired.created obj hlt
      have hrow : ∃ row, w.db.assignments.get? (w.service.objects obj).assignmentId = some row := by
        rw [hmoves.assignments, hmoves.id]
        rw [ChildAssignment.assignmentStatus, isSome_map] at hcreated
        exact isSome_iff_exists.mp hcreated
      obtain ⟨row, hrow⟩ := hrow
      have hnext : beginAssignmentUpdate w.db (w.service.objects obj).assignmentId
          assignmentStatus false [.finish sessionStatus sessionError result] =
            .awaiting (.updateAssignment (w.service.objects obj).assignmentId assignmentStatus
              false) [.finish sessionStatus sessionError result] := by
        rw [beginAssignmentUpdate, hrow]
      rw [hresult, hnext]
      refine hs.move hidle hmoves hlt hactive (Expected.update _ _ _ _ _) rfl ?_ ?_
      · intro id status hid
        obtain ⟨rfl, rfl⟩ := Prod.mk.inj (some.inj hid)
        exact ⟨rfl, hmoved ▸ hstatus⟩
      · intro status hended
        rw [hmoved] at hended
        exact ⟨assignmentStatus, (hend status hended).1, rfl⟩

theorem Paired.ofAssignments {w : World} (hw : Paired w) {assignments : Table AssignmentRow.id}
    (hcreated : ∀ obj < w.service.allocated,
      (assignmentStatus { w.db with assignments } (w.service.objects obj).assignmentId).isSome = true)
    (hended : ∀ obj < w.service.allocated, ∀ status, IsEnd status →
      assignmentStatus { w.db with assignments } (w.service.objects obj).assignmentId = some status →
        endOf (w.service.objects obj).status = some status) :
    Paired { w with db := { w.db with assignments } } where
  taskCalls := hw.taskCalls
  childSessions := hw.childSessions
  distinct := hw.distinct
  created := hcreated
  ended := hended
  stored := hw.stored

theorem assignmentStatus_insert {row : AssignmentRow} {assignments : Table AssignmentRow.id}
    (h : db.assignments.insert? row = some assignments) (id : String) :
    assignmentStatus { db with assignments } id =
      if row.id = id then some row.status else assignmentStatus db id := by
  simp only [assignmentStatus]
  rw [Table.get?_insert? h]
  split_ifs <;> rfl

theorem assignmentStatus_of_insert {row : AssignmentRow} {assignments : Table AssignmentRow.id}
    (h : db.assignments.insert? row = some assignments) : assignmentStatus db row.id = none := by
  rw [assignmentStatus, (Table.insert?_eq_some h).1]
  rfl

theorem beginRegister_cases (w : World) (input : RegisterDelegationInput) (answers : Answers) :
    (∃ outcome, beginRegister w input answers = (w, .settled outcome)) ∨
    ∃ row assignments, row.id = input.assignmentId ∧ row.status = .pending ∧
      w.db.assignments.insert? row = some assignments ∧
      beginRegister w input answers = ({ w with db := { w.db with assignments } },
        .awaiting (.register input answers.now) []) := by
  unfold beginRegister
  cases w.service.recordsByTaskCall.get? input.taskCallId with
  | some obj => exact Or.inl ⟨_, rfl⟩
  | none =>
    simp only
    split
    · exact Or.inl ⟨_, rfl⟩
    · rename_i assignments hinsert
      by_cases hwritten : answers.written = true
      · rw [if_pos hwritten] at hinsert
        exact Or.inr ⟨_, assignments, rfl, rfl, hinsert, rfl⟩
      · rw [if_neg hwritten] at hinsert
        cases hinsert

/-- A new assignment belongs to no child yet. -/
theorem beginRegister_synced (hs : Synced s) {h : Nat} (hidle : s.handlers h = .idle)
    (input : RegisterDelegationInput) (answers : Answers) :
    Synced (s.setHandler h (beginRegister s.world input answers)) := by
  rcases beginRegister_cases s.world input answers with
    ⟨outcome, hresult⟩ | ⟨row, assignments, hid, hstatus, hinsert, hresult⟩
  · rw [hresult]
    exact hs.proceed (SameChildren.refl s.world) (Expected.settled outcome) rfl
      (Or.inl (by rw [hidle]; rfl))
  · rw [hresult]
    have hnew := assignmentStatus_of_insert hinsert
    have hinserted := assignmentStatus_insert hinsert
    have hchild : ∀ obj < s.world.service.allocated,
        row.id ≠ (s.world.service.objects obj).assignmentId := by
      intro obj hlt he
      have hcreated := hs.paired.created obj hlt
      rw [← he, hnew] at hcreated
      cases hcreated
    have hsame : ∀ obj < s.world.service.allocated,
        assignmentStatus { s.world.db with assignments } (s.world.service.objects obj).assignmentId =
          assignmentStatus s.world.db (s.world.service.objects obj).assignmentId := by
      intro obj hlt
      rw [hinserted, if_neg (hchild obj hlt)]
    have hregistering : ∀ h' id, registering (s.handlers h') = some id → row.id ≠ id := by
      intro h' id hregister he
      have hold := (hs.registered h' id hregister).1
      rw [← he, hnew] at hold
      cases hold
    refine ⟨?_, ?_, ?_, ?_, ?_, ?_⟩
    · refine hs.paired.ofAssignments ?_ ?_
      · intro obj hlt
        rw [hsame obj hlt]
        exact hs.paired.created obj hlt
      · intro obj hlt status hend hended
        rw [hsame obj hlt] at hended
        exact hs.paired.ended obj hlt status hend hended
    · exact expected_setHandler hs.expected (Expected.register input answers.now)
    · intro h' id hregister
      by_cases hh : h' = h
      · subst hh
        rw [setHandler_self] at hregister
        obtain rfl := some.inj hregister
        refine ⟨?_, fun obj hlt => hid ▸ (hchild obj hlt).symm⟩
        rw [setHandler_world, hinserted, if_pos hid, hstatus]
      · rw [setHandler_other hh] at hregister
        obtain ⟨hold, hother⟩ := hs.registered h' id hregister
        refine ⟨?_, hother⟩
        rw [setHandler_world, hinserted, if_neg (hregistering h' id hregister)]
        exact hold
    · intro h₁ h₂ id hid₁ hid₂
      by_cases hh₁ : h₁ = h
      · by_cases hh₂ : h₂ = h
        · rw [hh₁, hh₂]
        · rw [hh₁, setHandler_self] at hid₁
          rw [setHandler_other hh₂] at hid₂
          exact absurd (hid.trans (some.inj hid₁)) (hregistering h₂ id hid₂)
      · rw [setHandler_other hh₁] at hid₁
        by_cases hh₂ : h₂ = h
        · rw [hh₂, setHandler_self] at hid₂
          exact absurd (hid.trans (some.inj hid₂)) (hregistering h₁ id hid₁)
        · rw [setHandler_other hh₂] at hid₂
          exact hs.registers h₁ h₂ id hid₁ hid₂
    · intro h' id status hpending
      exact hs.pending h' id status (of_setHandler (f := pendingUpdate) rfl hpending).2
    · intro obj hlt status hend
      rw [setHandler_world, hsame obj hlt]
      rcases hs.ending obj hlt status hend with hwritten | ⟨h', update, hupdate, hpending⟩
      · exact Or.inl hwritten
      · refine Or.inr ⟨h', update, hupdate, ?_⟩
        have hh : h' ≠ h := by
          intro he
          rw [he, hidle] at hpending
          cases hpending
        rw [setHandler_other hh]
        exact hpending

/-- What a registration that succeeds leaves: one more object in use, `queued`. -/
theorem concludeRegister_cases (w : World) (input : RegisterDelegationInput) (now : Nat)
    (written : Bool) :
    (∃ outcome, concludeRegister w input now written = (w, .settled outcome)) ∨
    ∃ w' outcome, concludeRegister w input now written = (w', .settled outcome) ∧
      w'.service.allocated = w.service.allocated + 1 ∧
      (∀ obj < w.service.allocated, w'.service.objects obj = w.service.objects obj) ∧
      w'.service.objects w.service.allocated = newRecord input now ∧
      (∀ obj ∈ w'.service.recordsByTaskCall.values,
        obj = w.service.allocated ∨ obj ∈ w.service.recordsByTaskCall.values) ∧
      w'.service.recordsByChildSession = w.service.recordsByChildSession ∧
      w'.db = w.db.save (newRecord input now) := by
  unfold concludeRegister
  cases written with
  | false => exact Or.inl ⟨_, rfl⟩
  | true =>
    refine Or.inr ⟨_, _, rfl, rfl, ?_, ?_, ?_, rfl, rfl⟩
    · intro obj hlt
      have hne : obj ≠ w.service.allocated := Nat.ne_of_lt hlt
      simp [allocate, setObject, hne]
    · simp [allocate, setObject]
    · intro obj hmem
      exact mem_values_set hmem

theorem concludeRegister_synced (hs : Synced s) {h : Nat} {input : RegisterDelegationInput}
    {now : Nat} (hhandler : s.handlers h = .awaiting (.register input now) []) (written : Bool) :
    Synced (s.setHandler h (concludeRegister s.world input now written)) := by
  rcases concludeRegister_cases s.world input now written with ⟨outcome, hresult⟩ |
    ⟨w, outcome, hresult, hallocated, hold, hnew, htaskCalls, hchildSessions, hdb⟩
  · rw [hresult]
    exact hs.proceed (SameChildren.refl s.world) (Expected.settled outcome) rfl
      (Or.inl (by rw [hhandler]; rfl))
  · have hid : registering (s.handlers h) = some input.assignmentId := by
      rw [hhandler]
      rfl
    obtain ⟨hstatus, hother⟩ := hs.registered h input.assignmentId hid
    have hassignments : ∀ id, assignmentStatus w.db id = assignmentStatus s.world.db id :=
      assignmentStatus_congr (by rw [hdb]; rfl)
    have hcases : ∀ obj < w.service.allocated,
        obj < s.world.service.allocated ∨ obj = s.world.service.allocated := by
      intro obj hlt
      rw [hallocated] at hlt
      omega
    rw [hresult]
    refine ⟨⟨?_, ?_, ?_, ?_, ?_, ?_⟩, ?_, ?_, ?_, ?_, ?_⟩
    · intro obj hmem
      rw [setHandler_world, hallocated]
      rcases htaskCalls obj hmem with rfl | hmem
      · exact Nat.lt_succ_self _
      · exact Nat.lt_succ_of_lt (hs.paired.taskCalls obj hmem)
    · intro obj hmem
      rw [setHandler_world] at hmem ⊢
      rw [hchildSessions] at hmem
      rw [hallocated]
      exact Nat.lt_succ_of_lt (hs.paired.childSessions obj hmem)
    · intro obj₁ h₁ obj₂ h₂ he
      rw [setHandler_world] at h₁ h₂ he
      rcases hcases obj₁ h₁ with hlt₁ | rfl
      · rw [hold obj₁ hlt₁] at he
        rcases hcases obj₂ h₂ with hlt₂ | rfl
        · rw [hold obj₂ hlt₂] at he
          exact hs.paired.distinct obj₁ hlt₁ obj₂ hlt₂ he
        · rw [hnew] at he
          exact absurd he (hother obj₁ hlt₁)
      · rw [hnew] at he
        rcases hcases obj₂ h₂ with hlt₂ | heq
        · rw [hold obj₂ hlt₂] at he
          exact absurd he.symm (hother obj₂ hlt₂)
        · exact heq.symm
    · intro obj hlt
      rw [setHandler_world] at hlt ⊢
      rw [hassignments]
      rcases hcases obj hlt with hlt | rfl
      · rw [hold obj hlt]
        exact hs.paired.created obj hlt
      · rw [hnew, show (newRecord input now).assignmentId = input.assignmentId from rfl, hstatus]
        rfl
    · intro obj hlt status hend hended
      rw [setHandler_world] at hlt hended ⊢
      rw [hassignments] at hended
      rcases hcases obj hlt with hlt | rfl
      · rw [hold obj hlt] at hended ⊢
        exact hs.paired.ended obj hlt status hend hended
      · rw [hnew, show (newRecord input now).assignmentId = input.assignmentId from rfl,
          hstatus] at hended
        obtain rfl := some.inj hended
        exact absurd hend not_isEnd_pending
    · intro k record hget status hend
      rw [setHandler_world] at hget ⊢
      rw [hdb, Database.save, Table.get?_upsert] at hget
      split_ifs at hget
      · obtain rfl := some.inj hget
        cases hend
      · obtain ⟨obj, hlt, hassignment, hended⟩ := hs.paired.stored k record hget status hend
        refine ⟨obj, hallocated ▸ Nat.lt_succ_of_lt hlt, ?_⟩
        rw [hold obj hlt]
        exact ⟨hassignment, hended⟩
    · exact expected_setHandler hs.expected (Expected.settled outcome)
    · intro h' id hregister
      obtain ⟨hh, hregister⟩ := of_setHandler (f := registering) rfl hregister
      rw [setHandler_world, hassignments]
      obtain ⟨hstatus', hother'⟩ := hs.registered h' id hregister
      refine ⟨hstatus', ?_⟩
      intro obj hlt
      rcases hcases obj hlt with hlt | rfl
      · rw [hold obj hlt]
        exact hother' obj hlt
      · rw [hnew]
        intro he
        exact hh (hs.registers h' h id hregister (hid.trans (congrArg some he)))
    · intro h₁ h₂ id hid₁ hid₂
      exact hs.registers h₁ h₂ id (of_setHandler rfl hid₁).2 (of_setHandler rfl hid₂).2
    · intro h' id status hpending
      rw [setHandler_world]
      obtain ⟨obj, hlt, hassignment⟩ :=
        hs.pending h' id status (of_setHandler (f := pendingUpdate) rfl hpending).2
      refine ⟨obj, hallocated ▸ Nat.lt_succ_of_lt hlt, ?_⟩
      rw [hold obj hlt]
      exact hassignment
    · intro obj hlt status hend
      rw [setHandler_world] at hlt hend ⊢
      rw [hassignments]
      rcases hcases obj hlt with hlt | rfl
      · rw [hold obj hlt] at hend ⊢
        rcases hs.ending obj hlt status hend with hwritten | ⟨h', update, hupdate, hpending⟩
        · exact Or.inl hwritten
        · refine Or.inr ⟨h', update, hupdate, ?_⟩
          have hh : h' ≠ h := by
            intro he
            rw [he, hhandler] at hpending
            cases hpending
          rw [setHandler_other hh]
          exact hpending
      · rw [hnew] at hend
        cases hend

theorem write_synced (hs : Synced s) {h : Nat} {id : String} {status : AssignmentStatus}
    {next : Handler} (hpending : pendingUpdate (s.handlers h) = some (id, status))
    (hstart : ¬IsEnd status.stored → ∀ old, assignmentStatus s.world.db id = some old → ¬IsEnd old)
    (hexpected : Expected next) (hregistering : registering next = none)
    (hnext : pendingUpdate next = none) :
    Synced (s.setHandler h ({ s.world with db := updateAssignmentStatus s.world.db id status },
      next)) ∧ EndKept s.world.db (updateAssignmentStatus s.world.db id status) := by
  obtain ⟨child, hchild, hid, hmatch⟩ := hs.pending h id status hpending
  have hupdated := assignmentStatus_update s.world.db id
  have hended : IsEnd status.stored → endOf (s.world.service.objects child).status =
      some status.stored := by
    intro hend
    rcases hmatch with rfl | hmatch
    · exact absurd hend not_isEnd_inProgress
    · exact hmatch
  have hchild_eq : ∀ obj < s.world.service.allocated,
      (s.world.service.objects obj).assignmentId = id → obj = child := by
    intro obj hlt he
    exact hs.paired.distinct obj hlt child hchild (he.trans hid.symm)
  refine ⟨⟨?_, ?_, ?_, ?_, ?_, ?_⟩, ?_⟩
  · refine hs.paired.ofAssignments ?_ ?_
    · intro obj hlt
      have hcreated := hs.paired.created obj hlt
      rw [show assignmentStatus { s.world.db with assignments := _ } _ = _ from hupdated _ status]
      split_ifs
      · rwa [isSome_map]
      · exact hcreated
    · intro obj hlt new hend hnew
      rw [show assignmentStatus { s.world.db with assignments := _ } _ = _ from
        hupdated _ status] at hnew
      split_ifs at hnew with he
      · obtain ⟨old, -, rfl⟩ := map_eq_some_iff.mp hnew
        rw [hchild_eq obj hlt he]
        exact hended hend
      · exact hs.paired.ended obj hlt new hend hnew
  · exact expected_setHandler hs.expected hexpected
  · intro h' id' hregister
    obtain ⟨hold, hother⟩ := hs.registered h' id' (of_setHandler hregistering hregister).2
    refine ⟨?_, hother⟩
    have hne : id' ≠ id := fun he => hother child hchild (hid.trans he.symm)
    rw [setHandler_world, hupdated, if_neg hne]
    exact hold
  · intro h₁ h₂ id' hid₁ hid₂
    exact hs.registers h₁ h₂ id' (of_setHandler hregistering hid₁).2
      (of_setHandler hregistering hid₂).2
  · intro h' id' status' hpending'
    exact hs.pending h' id' status' (of_setHandler hnext hpending').2
  · intro obj hlt new hend
    rw [setHandler_world] at hlt hend ⊢
    rw [hupdated]
    have hother : ∀ h' update, update.stored = new →
        pendingUpdate (s.handlers h') = some ((s.world.service.objects obj).assignmentId, update) →
        ¬(h' = h) → ∃ h' update, update.stored = new ∧
          pendingUpdate ((s.setHandler h ({ s.world with
            db := updateAssignmentStatus s.world.db id status }, next)).handlers h') =
              some ((s.world.service.objects obj).assignmentId, update) := by
      intro h' update hupdate hpending' hh
      refine ⟨h', update, hupdate, ?_⟩
      rw [setHandler_other hh]
      exact hpending'
    split_ifs with he
    · have hobj := hchild_eq obj hlt he
      by_cases hend' : IsEnd status.stored
      · left
        have hsame : status.stored = new := by
          have hold := hended hend'
          rw [← hobj, hend] at hold
          exact (some.inj hold).symm
        obtain ⟨old, hold⟩ := isSome_iff_exists.mp (hs.paired.created obj hlt)
        rw [hold, hsame]
        rfl
      · right
        rcases hs.ending obj hlt new hend with hwritten | ⟨h', update, hupdate, hpending'⟩
        · rw [he] at hwritten
          exact absurd (isEnd_of_endOf hend) (hstart hend' new hwritten)
        · refine hother h' update hupdate hpending' ?_
          intro hh
          rw [hh, hpending] at hpending'
          obtain ⟨-, rfl⟩ := Prod.mk.inj (some.inj hpending')
          exact hend' (hupdate ▸ isEnd_of_endOf hend)
    · rcases hs.ending obj hlt new hend with hwritten | ⟨h', update, hupdate, hpending'⟩
      · exact Or.inl hwritten
      · refine Or.inr (hother h' update hupdate hpending' ?_)
        intro hh
        rw [hh, hpending] at hpending'
        obtain ⟨hsame, -⟩ := Prod.mk.inj (some.inj hpending')
        exact he hsame.symm
  · intro id' old hold holdStatus
    rw [hupdated]
    split_ifs with he
    · subst he
      rw [holdStatus]
      by_cases hend : IsEnd status.stored
      · have hmatches := hended hend
        have hstored := hs.paired.ended child hchild old hold (hid.symm ▸ holdStatus)
        rw [hmatches] at hstored
        rw [map_some, some.inj hstored]
      · exact absurd hold (hstart hend old holdStatus)
    · exact holdStatus

theorem bindCandidate_lt (hw : Paired w) {input : BindChildSessionInput} {obj : Nat}
    (h : bindCandidate w.service input = some obj) : obj < w.service.allocated := by
  unfold bindCandidate at h
  cases hcall : (present input.taskCallId).bind w.service.recordsByTaskCall.get? with
  | some obj' =>
    rw [hcall] at h
    obtain rfl := some.inj h
    obtain ⟨key, -, hget⟩ := bind_eq_some_iff.mp hcall
    exact hw.taskCalls _ (mem_values_of_get? hget)
  | none =>
    rw [hcall] at h
    simp only at h
    split at h
    · rename_i obj' hmatching
      obtain rfl := some.inj h
      have hmem := List.mem_of_mem_filter (List.mem_of_mem_filter
        (hmatching ▸ List.mem_singleton_self obj'))
      exact hw.taskCalls _ hmem
    · cases h

theorem writeBoundSession_assignments (db : Database) (record : ChildExecutionRecord)
    (input : BindChildSessionInput) :
    (writeBoundSession db record input).assignments = db.assignments := by
  unfold writeBoundSession
  extract_lets row
  cases db.sessions.insert? row <;> rfl

theorem bindChildSession_same (hw : Paired w) (input : BindChildSessionInput) (written : Bool) :
    SameChildren w (bindChildSession w input written).1 := by
  unfold bindChildSession
  cases hobj : bindCandidate w.service input with
  | none => exact SameChildren.refl w
  | some obj =>
    have hlt := bindCandidate_lt hw hobj
    dsimp -zeta only
    extract_lets record rebinding foreign record' service db
    have hids : ∀ obj', (service.objects obj').assignmentId =
        (w.service.objects obj').assignmentId := by
      intro obj'
      by_cases he : obj' = obj
      · simp [service, setObject, he, record', record]
      · simp [service, setObject, he]
    have hstatuses : ∀ obj', (service.objects obj').status = (w.service.objects obj').status := by
      intro obj'
      by_cases he : obj' = obj
      · simp [service, setObject, he, record', record]
      · simp [service, setObject, he]
    have hassignments : db.assignments = w.db.assignments := writeBoundSession_assignments _ _ _
    have hchildren : db.children = w.db.children := writeBoundSession_children _ _ _
    split_ifs
    · exact SameChildren.refl w
    · refine ⟨rfl, hids, hstatuses, rfl, ?_, hassignments, ?_⟩
      · intro obj' hmem
        rcases mem_values_set hmem with rfl | hmem
        · exact Or.inr hlt
        · exact Or.inl hmem
      · intro k saved hget
        rw [Database.save, Table.get?_upsert, hchildren] at hget
        split_ifs at hget
        · obtain rfl := some.inj hget
          exact Or.inr ⟨obj, hlt, rfl, rfl⟩
        · exact Or.inl hget
    · refine ⟨rfl, hids, hstatuses, rfl, fun _ => Or.inl, hassignments, ?_⟩
      intro k saved hget
      rw [hchildren] at hget
      exact Or.inl hget

/-- What a step of these calls keeps, and that it takes back no end. -/
def Keeps (s t : State) : Prop := Synced t ∧ EndKept s.world.db t.world.db

theorem keeps_of_assignments {result : World × Handler} (hs : Synced (s.setHandler h result))
    (hsame : result.1.db.assignments = s.world.db.assignments) :
    Keeps s (s.setHandler h result) := by
  refine ⟨hs, ?_⟩
  intro id status _ hstatus
  exact (assignmentStatus_congr hsame id).trans hstatus

theorem beginTransition_assignments (w : World) (input : ChildRef)
    (targetState : ChildExecutionState) (extra : TransitionExtra)
    (assignmentStatus : AssignmentStatus) (sessionStatus : String) (sessionError : Option String)
    (written : Bool) :
    (beginTransition w input targetState extra assignmentStatus sessionStatus sessionError
      written).1.db.assignments = w.db.assignments := by
  rcases beginTransition_cases w input targetState extra assignmentStatus sessionStatus
    sessionError written with ⟨outcome, hresult⟩ | ⟨obj, w', -, -, hmoves, -, hcase⟩
  · rw [hresult]
  · rcases hcase with ⟨-, outcome, hresult⟩ | ⟨result, hresult⟩
    · rw [hresult]
      exact hmoves.assignments
    · rw [hresult]
      exact hmoves.assignments

theorem beginRegister_keeps (hs : Synced s) {h : Nat} (hidle : s.handlers h = .idle)
    (input : RegisterDelegationInput) (answers : Answers) :
    Keeps s (s.setHandler h (beginRegister s.world input answers)) := by
  refine ⟨beginRegister_synced hs hidle input answers, ?_⟩
  rcases beginRegister_cases s.world input answers with
    ⟨outcome, hresult⟩ | ⟨row, assignments, -, -, hinsert, hresult⟩
  · rw [hresult]
    exact EndKept.refl _
  · rw [hresult]
    intro id status _ hstatus
    have hne : row.id ≠ id := by
      intro he
      rw [← he, assignmentStatus_of_insert hinsert] at hstatus
      cases hstatus
    rw [setHandler_world, assignmentStatus_insert hinsert, if_neg hne]
    exact hstatus

theorem beginCall_keeps (hs : Synced s) {a : Action} (hmarks : MarksChild a) (horder : InOrder s a)
    {h : Nat} {result : World × Handler} (hcall : beginCall s.world a = some (h, result))
    (hidle : s.handlers h = .idle) : Keeps s (s.setHandler h result) := by
  cases a with
  | registerDelegation h' input answers =>
    obtain ⟨rfl, rfl⟩ := Prod.mk.inj (some.inj hcall)
    exact beginRegister_keeps hs hidle input answers
  | markStarted h' input answers =>
    obtain ⟨rfl, rfl⟩ := Prod.mk.inj (some.inj hcall)
    refine keeps_of_assignments ?_ (beginTransition_assignments _ _ _ _ _ _ _ _)
    apply beginTransition_synced hs hidle
    · exact Or.inl rfl
    · intro status hend
      cases hend
  | markCompleted h' input output answers =>
    obtain ⟨rfl, rfl⟩ := Prod.mk.inj (some.inj hcall)
    refine keeps_of_assignments ?_ (beginTransition_assignments _ _ _ _ _ _ _ _)
    apply beginTransition_synced hs hidle
    · exact Or.inr rfl
    · intro status hend
      exact ⟨some.inj hend, horder⟩
  | markFailed h' input error answers =>
    obtain ⟨rfl, rfl⟩ := Prod.mk.inj (some.inj hcall)
    refine keeps_of_assignments ?_ (beginTransition_assignments _ _ _ _ _ _ _ _)
    apply beginTransition_synced hs hidle
    · exact Or.inr rfl
    · intro status hend
      exact ⟨some.inj hend, horder⟩
  | bindChildSession input answers => cases hcall
  | resume h' answers => cases hcall
  | _ => exact absurd hmarks id

theorem pending_created (hs : Synced s) {h : Nat} {id : String} {status : AssignmentStatus}
    (hpending : pendingUpdate (s.handlers h) = some (id, status)) :
    (s.world.db.assignments.get? id).isSome = true := by
  obtain ⟨obj, hlt, hid, -⟩ := hs.pending h id status hpending
  have hcreated := hs.paired.created obj hlt
  rwa [hid, assignmentStatus, isSome_map] at hcreated

theorem runSegment_keeps (hs : Synced s) {h : Nat} {segment : Segment} {rest : List Segment}
    {answers : Answers} (hhandler : s.handlers h = .awaiting segment rest)
    (horder : InOrder s (.resume h answers)) :
    Keeps s (s.setHandler h (runSegment s.world segment rest answers)) := by
  have hexpected := hs.expected h
  simp only [InOrder, hhandler] at horder
  rw [hhandler] at hexpected
  cases hexpected with
  | register input now =>
    refine keeps_of_assignments (concludeRegister_synced hs hhandler answers.written) ?_
    rcases concludeRegister_cases s.world input now answers.written with ⟨outcome, hresult⟩ |
      ⟨w, outcome, hresult, -, -, -, -, -, hdb⟩
    · rw [runSegment, hresult]
    · rw [runSegment, hresult, hdb]
      rfl
  | update id status sessionStatus sessionError result =>
    have hpending : pendingUpdate (s.handlers h) = some (id, status) := by
      rw [hhandler]
      rfl
    simp only [runSegment]
    split_ifs with hwritten
    · refine keeps_of_assignments ?_ rfl
      exact hs.proceed (SameChildren.refl s.world) (Expected.write _ _ _ _ _) rfl
        (Or.inl hpending.symm)
    · refine keeps_of_assignments ?_ rfl
      refine hs.proceed (SameChildren.refl s.world) (Expected.settled _) rfl (Or.inr ⟨rfl, ?_⟩)
      intro id' status' hpending' hend
      rw [hpending] at hpending'
      obtain ⟨rfl, rfl⟩ := Prod.mk.inj (some.inj hpending')
      refine hwritten ?_
      rw [horder hend, Bool.true_and]
      exact pending_created hs hpending
  | write id status sessionStatus sessionError result =>
    have hpending : pendingUpdate (s.handlers h) = some (id, status) := by
      rw [hhandler]
      rfl
    simp only [runSegment]
    split_ifs with hwritten
    · exact write_synced hs hpending horder.2 (Expected.finish _ _ _) rfl rfl
    · refine keeps_of_assignments ?_ rfl
      refine hs.proceed (SameChildren.refl s.world) (Expected.settled _) rfl (Or.inr ⟨rfl, ?_⟩)
      intro id' status' hpending' hend
      rw [hpending] at hpending'
      obtain ⟨rfl, rfl⟩ := Prod.mk.inj (some.inj hpending')
      refine hwritten ?_
      rw [horder.1 hend, Bool.true_and]
      exact pending_created hs hpending
  | finish sessionStatus sessionError result =>
    have hnone : pendingUpdate (s.handlers h) = none := by
      rw [hhandler]
      rfl
    simp only [runSegment]
    cases present (s.world.service.objects result.record).childSessionId with
    | none =>
      refine keeps_of_assignments ?_ rfl
      exact hs.proceed (SameChildren.refl s.world) (Expected.settled _) rfl (Or.inl hnone.symm)
    | some session =>
      refine keeps_of_assignments ?_ rfl
      refine hs.proceed ?_ (Expected.settled _) rfl (Or.inl hnone.symm)
      exact ⟨rfl, fun _ => rfl, fun _ => rfl, rfl, fun _ => Or.inl, rfl, fun _ _ => Or.inl⟩

/-- A world with the same children serves the handlers of a state as well. -/
theorem Synced.withWorld (hs : Synced s) {w : World} (hsame : SameChildren s.world w) :
    Keeps s { s with world := w } := by
  refine ⟨⟨hsame.paired hs.paired, hs.expected, ?_, hs.registers, ?_, ?_⟩, ?_⟩
  · intro h id hid
    obtain ⟨hstatus, hother⟩ := hs.registered h id hid
    refine ⟨(assignmentStatus_congr hsame.assignments id).trans hstatus, ?_⟩
    intro obj hlt he
    exact hother obj (hsame.allocated ▸ hlt) ((hsame.ids obj).symm.trans he)
  · intro h id status hpending
    obtain ⟨obj, hlt, hid, hstatus⟩ := hs.pending h id status hpending
    refine ⟨obj, hsame.allocated ▸ hlt, (hsame.ids obj).trans hid, ?_⟩
    rw [hsame.statuses]
    exact hstatus
  · intro obj hlt status hend
    have hlt' : obj < s.world.service.allocated := hsame.allocated ▸ hlt
    have hold := hs.ending obj hlt' status (hsame.statuses obj ▸ hend)
    rw [show (({ s with world := w } : State).world) = w from rfl, hsame.ids,
      assignmentStatus_congr hsame.assignments]
    exact hold
  · intro id status _ hstatus
    exact (assignmentStatus_congr hsame.assignments id).trans hstatus

theorem step_keeps (s : State) (a : Action) (t : State) (hs : Synced s) (hmarks : MarksChild a)
    (horder : InOrder s a) (h : step s a = some t) : Keeps s t := by
  unfold step at h
  cases hcall : beginCall s.world a with
  | some called =>
    obtain ⟨n, result⟩ := called
    rw [hcall] at h
    cases hhandler : s.handlers n with
    | idle =>
      simp only [hhandler] at h
      obtain rfl := some.inj h
      exact beginCall_keeps hs hmarks horder hcall hhandler
    | _ => simp [hhandler] at h
  | none =>
    rw [hcall] at h
    cases a with
    | resume n answers =>
      cases hhandler : s.handlers n with
      | awaiting segment rest =>
        simp only [hhandler] at h
        obtain rfl := some.inj h
        exact runSegment_keeps hs hhandler horder
      | _ => simp [hhandler] at h
    | bindChildSession input answers =>
      obtain rfl := some.inj h
      exact hs.withWorld (bindChildSession_same hs.paired _ _)
    | _ => first | exact absurd hmarks id | cases hcall

theorem initial_synced (assignments : Table AssignmentRow.id) (sessions : Table SessionRow.id) :
    Synced (initial assignments sessions) where
  paired :=
    { taskCalls := fun _ hmem => absurd hmem (by simp [initial, fresh, values, empty])
      childSessions := fun _ hmem => absurd hmem (by simp [initial, fresh, values, empty])
      distinct := fun _ hlt => absurd hlt (Nat.not_lt_zero _)
      created := fun _ hlt => absurd hlt (Nat.not_lt_zero _)
      ended := fun _ hlt => absurd hlt (Nat.not_lt_zero _)
      stored := fun _ _ hget => absurd hget (by simp [initial]) }
  expected _ := Expected.idle
  registered _ _ hid := by cases hid
  registers _ _ _ hid := by cases hid
  pending _ _ _ hpending := by cases hpending
  ending _ hlt := absurd hlt (Nat.not_lt_zero _)

theorem agrees_of_settled (hs : Synced s)
    (hsettled : ∀ h segment rest, s.handlers h ≠ .awaiting segment rest) :
    (∀ obj < s.world.service.allocated, Agrees s.world.db (s.world.service.objects obj)) ∧
      ∀ k record, s.world.db.children.get? k = some record → Agrees s.world.db record := by
  have hobjects : ∀ obj < s.world.service.allocated,
      Agrees s.world.db (s.world.service.objects obj) := by
    intro obj hlt status hend
    rcases hs.ending obj hlt status hend with hwritten | ⟨h, update, -, hpending⟩
    · exact hwritten
    · exfalso
      cases hhandler : s.handlers h with
      | awaiting segment rest => exact hsettled h segment rest hhandler
      | _ =>
        rw [hhandler] at hpending
        cases hpending
  refine ⟨hobjects, ?_⟩
  intro k record hget status hend
  obtain ⟨obj, hlt, hid, hended⟩ := hs.paired.stored k record hget status hend
  rw [← hid]
  exact hobjects obj hlt status hended

theorem assignment_agrees (assignments : Table AssignmentRow.id) (sessions : Table SessionRow.id)
    (as : List Action) (hmarks : ∀ a ∈ as, MarksChild a)
    (horder : Along step InOrder (initial assignments sessions) as) :
    (∀ t, run step (initial assignments sessions) as = some t →
      (∀ h segment rest, t.handlers h ≠ .awaiting segment rest) →
      (∀ obj < t.world.service.allocated, Agrees t.world.db (t.world.service.objects obj)) ∧
        ∀ k record, t.world.db.children.get? k = some record → Agrees t.world.db record) ∧
    Throughout step (fun u v => EndKept u.world.db v.world.db) (initial assignments sessions) as := by
  have hguard : Along step (fun s a => MarksChild a ∧ InOrder s a) (initial assignments sessions)
      as := Along.and_mem hmarks horder
  have hstep : ∀ s a t, Synced s → MarksChild a ∧ InOrder s a → step s a = some t → Synced t :=
    fun s a t hs hguard h => (step_keeps s a t hs hguard.1 hguard.2 h).1
  constructor
  · intro t hrun hsettled
    exact agrees_of_settled (hguard.invariant hstep (initial_synced assignments sessions) hrun)
      hsettled
  · have hrefl : ∀ u : State, EndKept u.world.db u.world.db := fun u => EndKept.refl u.world.db
    have htrans : ∀ u v w : State, EndKept u.world.db v.world.db →
        EndKept v.world.db w.world.db → EndKept u.world.db w.world.db :=
      fun _ _ _ => EndKept.trans
    rw [throughout_iff_along hrefl htrans]
    refine Along.imp hstep ?_ (initial_synced assignments sessions) hguard
    intro s a hs hguard t h
    exact (step_keeps s a t hs hguard.1 hguard.2 h).2

def exampleRegistered : List Action :=
  [.registerDelegation 0 exampleInput { now := 1 }, .resume 0 { now := 1 }]

def exampleEnd : List Action :=
  exampleRegistered ++
    [.markCompleted 1 exampleChild none { now := 2 }, .resume 1 { now := 2 },
      .resume 1 { now := 2 }, .resume 1 { now := 2 }]

theorem assignment_agrees_completion : ∃ t,
    run step (initial .empty .empty) exampleEnd = some t ∧
    (∀ obj < t.world.service.allocated, Agrees t.world.db (t.world.service.objects obj)) := by
  have hmarks : ∀ a ∈ exampleEnd, MarksChild a := by
    simp [exampleEnd, exampleRegistered, MarksChild]
  have horder : Along step InOrder (initial .empty .empty) exampleEnd := by
    refine Along.cons trivial rfl (Along.cons trivial rfl (Along.cons rfl rfl
      (Along.cons ?_ rfl (Along.cons ?_ rfl (Along.cons trivial rfl trivial)))))
    · exact fun _ => rfl
    · exact ⟨fun _ => rfl, fun hstart => absurd (Or.inl rfl) hstart⟩
  refine ⟨_, rfl, ?_⟩
  refine ((assignment_agrees .empty .empty exampleEnd hmarks horder).1 _ rfl ?_).1
  intro h segment rest hawaiting
  match h with
  | 0 => cases hawaiting
  | 1 => cases hawaiting
  | n + 2 => cases hawaiting

/-- A completion whose assignment write fails leaves the assignment behind, and a start that writes
after the completion puts the assignment back. -/
theorem assignment_left_behind :
    (∃ t, run step (initial .empty .empty)
        (exampleRegistered ++ [.markCompleted 1 exampleChild none { now := 2 },
          .resume 1 { now := 2, written := false }]) = some t ∧
      (t.world.service.objects 0).status = .completed ∧
      t.handlers 1 = .settled (.thrown "INTERNAL_ERROR") ∧
      assignmentStatus t.world.db "asg-1" = some .pending) ∧
    ∃ u t, run step (initial .empty .empty)
        (exampleRegistered ++ [.markStarted 1 exampleChild { now := 2 }, .resume 1 { now := 2 },
          .markCompleted 2 exampleChild none { now := 3 }, .resume 2 { now := 3 },
          .resume 2 { now := 3 }, .resume 2 { now := 3 }]) = some u ∧
      assignmentStatus u.world.db "asg-1" = some .completed ∧
      run step u [.resume 1 { now := 4 }, .resume 1 { now := 4 }] = some t ∧
      (t.world.service.objects 0).status = .completed ∧
      (∀ h segment rest, t.handlers h ≠ .awaiting segment rest) ∧
      assignmentStatus t.world.db "asg-1" = some .running := by
  refine ⟨⟨_, rfl, rfl, rfl, rfl⟩, _, _, rfl, rfl, rfl, rfl, ?_, rfl⟩
  intro h segment rest hawaiting
  match h with
  | 0 => cases hawaiting
  | 1 => cases hawaiting
  | 2 => cases hawaiting
  | n + 3 => cases hawaiting

end ChildAssignment
