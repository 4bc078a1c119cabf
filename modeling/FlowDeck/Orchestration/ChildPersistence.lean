import FlowDeck.Orchestration.ChildLifecycle

/-! What a child record reads as after the write of a change to it has thrown. -/

namespace ChildPersistence

open ChildExecution ChildLifecycle Machine

/-! ### Reads -/

/-- `getChildExecution`, by task call, child session or assignment. -/
def getChildExecution (service : Service) (ref : ChildRef) (assignmentId : Option String) :
    Option ChildExecutionRecord :=
  ((resolveRecord service ref).or
    ((present assignmentId).bind service.recordsByAssignment.get?)).map service.objects

/-- Every read of a child gives what it gave. -/
structure Unchanged (w w' : World) : Prop where
  stored : w'.db.children = w.db.children
  read : ∀ ref assignmentId,
    getChildExecution w'.service ref assignmentId = getChildExecution w.service ref assignmentId
  listed : ∀ runId,
    listChildExecutionsForRun w'.service runId = listChildExecutionsForRun w.service runId
  diagnosed : ∀ runId, getDiagnosticsForRun w'.service runId = getDiagnosticsForRun w.service runId

/-- Some read comes to the record object. -/
def Reached (service : Service) (obj : Nat) : Prop :=
  obj ∈ service.recordsByTaskCall.values ∨
    (∃ session ≠ "", service.recordsByChildSession.get? session = some obj) ∨
    ∃ assignmentId ≠ "", service.recordsByAssignment.get? assignmentId = some obj

theorem present_eq_some {text : Option String} {t : String} :
    present text = some t ↔ text = some t ∧ t ≠ "" := by
  simp [present, Option.filter_eq_some_iff]

theorem present_some {t : String} (h : t ≠ "") : present (some t) = some t :=
  present_eq_some.mpr ⟨rfl, h⟩

theorem present_none : present none = none := rfl

theorem reached_of_present {service : Service} {obj : Nat} {text : Option String}
    (h : (present text).bind service.recordsByAssignment.get? = some obj) :
    Reached service obj := by
  obtain ⟨assignmentId, hassignment, hobj⟩ := Option.bind_eq_some_iff.mp h
  exact .inr (.inr ⟨assignmentId, (present_eq_some.mp hassignment).2, hobj⟩)

theorem reached_of_resolve {service : Service} {obj : Nat} {input : ChildRef}
    (h : resolveRecord service input = some obj) : Reached service obj := by
  unfold resolveRecord at h
  rcases Option.or_eq_some_iff.mp h with h | ⟨-, h⟩
  · obtain ⟨taskCall, -, hobj⟩ := Option.bind_eq_some_iff.mp h
    exact .inl (InsertionMap.mem_values_of_get? hobj)
  · obtain ⟨session, hsession, hobj⟩ := Option.bind_eq_some_iff.mp h
    exact .inr (.inl ⟨session, (present_eq_some.mp hsession).2, hobj⟩)

theorem Unchanged.refl (w : World) : Unchanged w w :=
  ⟨rfl, fun _ _ => rfl, fun _ => rfl, fun _ => rfl⟩

theorem unchanged_of_eq {w w' : World} (hservice : w'.service = w.service)
    (hchildren : w'.db.children = w.db.children) : Unchanged w w' := by
  constructor
  · exact hchildren
  · rw [hservice]
    exact fun _ _ => rfl
  · rw [hservice]
    exact fun _ => rfl
  · rw [hservice]
    exact fun _ => rfl

section Objects

variable {service : Service} {obj : Nat} {record : ChildExecutionRecord}

theorem setObject_self : service.setObject obj (service.objects obj) = service := by
  simp [Service.setObject]

theorem objects_setObject_self : (service.setObject obj record).objects obj = record := by
  simp [Service.setObject]

theorem objects_setObject_ne {other : Nat} (h : other ≠ obj) :
    (service.setObject obj record).objects other = service.objects other := by
  simp [Service.setObject, h]

theorem read_setObject (hreached : ¬Reached service obj) (ref : ChildRef)
    (assignmentId : Option String) :
    getChildExecution (service.setObject obj record) ref assignmentId =
      getChildExecution service ref assignmentId := by
  have hsame : resolveRecord (service.setObject obj record) ref = resolveRecord service ref := rfl
  unfold getChildExecution
  rw [hsame]
  apply Option.map_congr
  intro other hother
  apply objects_setObject_ne
  intro heq
  subst heq
  rcases Option.or_eq_some_iff.mp hother with hother | ⟨-, hother⟩
  · exact hreached (reached_of_resolve hother)
  · exact hreached (reached_of_present hother)

theorem listed_setObject (hreached : obj ∉ service.recordsByTaskCall.values) (runId : String) :
    listChildExecutionsForRun (service.setObject obj record) runId =
      listChildExecutionsForRun service runId := by
  unfold listChildExecutionsForRun
  congr 1
  apply List.map_congr_left
  intro other hother
  apply objects_setObject_ne
  intro heq
  exact hreached (heq ▸ hother)

theorem diagnosed_of_listed {service' : Service} {runId : String}
    (h : listChildExecutionsForRun service' runId = listChildExecutionsForRun service runId) :
    getDiagnosticsForRun service' runId = getDiagnosticsForRun service runId := by
  unfold getDiagnosticsForRun
  rw [h]

theorem eq_of_listed (hmem : obj ∈ service.recordsByTaskCall.values)
    (hrun : record.runId = (service.objects obj).runId)
    (h : listChildExecutionsForRun (service.setObject obj record) record.runId =
      listChildExecutionsForRun service record.runId) : record = service.objects obj := by
  have hruns : ∀ other, ((service.setObject obj record).objects other).runId =
      (service.objects other).runId := by
    intro other
    by_cases hother : other = obj
    · subst hother
      rw [objects_setObject_self, hrun]
    · rw [objects_setObject_ne hother]
  have hlisted (s : Service) (hs : ∀ other, (s.objects other).runId =
      (service.objects other).runId) (hvalues : s.recordsByTaskCall = service.recordsByTaskCall) :
      listChildExecutionsForRun s record.runId = (service.recordsByTaskCall.values.filter
        fun other => (service.objects other).runId = record.runId).map s.objects := by
    unfold listChildExecutionsForRun
    rw [hvalues, List.filter_map]
    congr 1
    apply List.filter_congr
    intro other _
    simp [hs other]
  rw [hlisted _ hruns rfl, hlisted service (fun _ => rfl) rfl] at h
  have hobj : obj ∈ service.recordsByTaskCall.values.filter
      fun other => (service.objects other).runId = record.runId := by
    simp [hmem, hrun]
  have hsame := List.map_inj_left.mp h obj hobj
  rw [objects_setObject_self] at hsame
  exact hsame

/-- A change of an object is unseen when it is none, or when no read comes to the object. -/
theorem unchanged_setObject_iff {w w' : World} (hservice : w'.service = w.service.setObject obj record)
    (hchildren : w'.db.children = w.db.children)
    (hrun : record.runId = (w.service.objects obj).runId) :
    Unchanged w w' ↔ record = w.service.objects obj ∨ ¬Reached w.service obj := by
  constructor
  · intro h
    by_contra hnot
    obtain ⟨hne, hreached⟩ := not_or.mp hnot
    apply hne
    rcases not_not.mp hreached with hmem | ⟨session, hsession, hobj⟩ | ⟨assignment, hassignment, hobj⟩
    · apply eq_of_listed hmem hrun
      rw [← hservice]
      exact h.listed record.runId
    · have hread := h.read ⟨none, some session⟩ none
      rw [hservice] at hread
      have hbound : (w.service.setObject obj record).recordsByChildSession.get? session =
          some obj := hobj
      simp only [getChildExecution, resolveRecord, present_none, present_some hsession, hobj, hbound,
        Option.bind_none, Option.bind_some, Option.none_or, Option.some_or, Option.map_some,
        objects_setObject_self] at hread
      exact Option.some.inj hread
    · have hread := h.read ⟨none, none⟩ (some assignment)
      rw [hservice] at hread
      have hassigned : (w.service.setObject obj record).recordsByAssignment.get? assignment =
          some obj := hobj
      simp only [getChildExecution, resolveRecord, present_none, present_some hassignment, hobj,
        hassigned, Option.bind_none, Option.bind_some, Option.none_or, Option.map_some,
        objects_setObject_self] at hread
      exact Option.some.inj hread
  · intro h
    rcases h with heq | hreached
    · rw [heq, setObject_self] at hservice
      exact unchanged_of_eq hservice hchildren
    · have hlisted (runId : String) : listChildExecutionsForRun w'.service runId =
          listChildExecutionsForRun w.service runId := by
        rw [hservice]
        exact listed_setObject (fun hmem => hreached (.inl hmem)) runId
      refine ⟨hchildren, ?_, hlisted, fun runId => diagnosed_of_listed (hlisted runId)⟩
      intro ref assignmentId
      rw [hservice]
      exact read_setObject hreached ref assignmentId

end Objects

/-! ### Saves that throw -/

/-- The transition is none of those that are turned away before the save. -/
def Advances (record : ChildExecutionRecord) (targetState : ChildExecutionState) : Prop :=
  record.status ≠ targetState ∧ isTerminalChildState record.status = false ∧
    isValidChildTransition record.status targetState = true

/-- The end of a cancellation saves nothing that it changes. -/
def CancelQuiet (record : ChildExecutionRecord) (reason : String) (confirmed : Bool) : Prop :=
  if confirmed then ¬Advances record .cancelled
  else record.cancelRequested = true ∧ record.nativeTerminationConfirmed = false ∧
    record.error = some reason

def BeginCancelQuiet (service : Service) (input : ChildRef) (reason : Option String)
    (confirmed native : Bool) : Prop :=
  ∀ obj, resolveRecord service input = some obj →
    isTerminalChildState (service.objects obj).status = true ∨
      (!confirmed && (present (service.objects obj).childSessionId).isSome && native) = true ∨
        CancelQuiet (service.objects obj) (reason.getD "Child task cancelled") confirmed

def TransitionQuiet (service : Service) (input : ChildRef) (targetState : ChildExecutionState) :
    Prop :=
  ∀ obj, resolveRecord service input = some obj → ¬Advances (service.objects obj) targetState

/-- The binding is refused, or the child has it already. -/
def BindQuiet (service : Service) (input : BindChildSessionInput) : Prop :=
  ∀ obj, bindCandidate service input = some obj →
    ((present (service.objects obj).childSessionId).any (· ≠ input.childSessionId) ||
      (service.recordsByChildSession.get? input.childSessionId).any fun owner =>
        (service.objects owner).executionId ≠ (service.objects obj).executionId) = true ∨
      (service.objects obj).childSessionId = some input.childSessionId

section Failed

variable {w : World} {obj : Nat}

theorem unchanged_transitionChild_iff {targetState : ChildExecutionState}
    {extra : TransitionExtra} : Unchanged w (transitionChild w obj targetState extra false).1 ↔
      ¬Advances (w.service.objects obj) targetState ∨ ¬Reached w.service obj := by
  by_cases hadvances : Advances (w.service.objects obj) targetState
  · obtain ⟨hne, hactive, hvalid⟩ := hadvances
    have hservice : (transitionChild w obj targetState extra false).1.service =
        w.service.setObject obj
          (extra.apply { w.service.objects obj with status := targetState }) := by
      simp [transitionChild, hne, hactive, hvalid]
    have hchildren : (transitionChild w obj targetState extra false).1.db.children =
        w.db.children := by
      simp [transitionChild, hne, hactive, hvalid]
    rw [unchanged_setObject_iff hservice hchildren rfl]
    have hstatus : extra.apply { w.service.objects obj with status := targetState } ≠
        w.service.objects obj := by
      intro heq
      exact hne (congrArg (·.status) heq).symm
    have hadvances : Advances (w.service.objects obj) targetState := ⟨hne, hactive, hvalid⟩
    constructor
    · intro h
      exact .inr (h.resolve_left hstatus)
    · intro h
      exact .inr (h.resolve_left (not_not.mpr hadvances))
  · have hsame : (transitionChild w obj targetState extra false).1 = w := by
      unfold transitionChild
      extract_lets record unchanged record' service
      split_ifs with heq hterminal hvalid hsaved
      · rfl
      · rfl
      · exact hsaved.elim
      · exact absurd ⟨heq, Bool.eq_false_iff.mpr hterminal, hvalid⟩ hadvances
      · rfl
    rw [hsame]
    constructor
    · intro _
      exact .inl hadvances
    · intro _
      exact .refl w

variable {rest : List Segment} {answers : Answers} {input : ChildRef}

theorem unchanged_concludeCancel_iff {reason : String} {confirmed : Bool}
    (hfail : answers.written = false) :
    Unchanged w (concludeCancel w obj reason confirmed rest answers).1 ↔
      CancelQuiet (w.service.objects obj) reason confirmed ∨ ¬Reached w.service obj := by
  cases confirmed with
  | true =>
    have hworld : (concludeCancel w obj reason true rest answers).1 =
        (transitionChild w obj .cancelled
          { cancelRequested := some true
            nativeTerminationConfirmed := some true
            error := some reason
            completedAt := some (some answers.now) } false).1 := by
      simp only [concludeCancel, if_true, transitionThenUpdate_world, hfail]
    rw [hworld, unchanged_transitionChild_iff]
    rfl
  | false =>
    have hservice : (concludeCancel w obj reason false rest answers).1.service =
        w.service.setObject obj (requestCancel reason (w.service.objects obj)) := by
      simp [concludeCancel, hfail]
    have hchildren : (concludeCancel w obj reason false rest answers).1.db.children =
        w.db.children := by
      simp [concludeCancel, hfail]
    rw [unchanged_setObject_iff hservice hchildren rfl]
    apply or_congr_left
    constructor
    · intro heq
      exact ⟨(congrArg (·.cancelRequested) heq).symm,
        (congrArg (·.nativeTerminationConfirmed) heq).symm, (congrArg (·.error) heq).symm⟩
    · intro ⟨hrequested, hunconfirmed, herror⟩
      unfold requestCancel
      rw [← hrequested, ← hunconfirmed, ← herror]

theorem unchanged_beginCancel_iff {reason : Option String} {confirmed native : Bool}
    (hfail : answers.written = false) :
    Unchanged w (beginCancel w input reason confirmed native rest answers).1 ↔
      BeginCancelQuiet w.service input reason confirmed native := by
  unfold beginCancel BeginCancelQuiet
  cases hobj : resolveRecord w.service input with
  | none => simp [Unchanged.refl]
  | some obj =>
    have hreached : Reached w.service obj := reached_of_resolve hobj
    simp only [Option.some.injEq, forall_eq']
    split_ifs with hterminal hnative
    · simp [hterminal, Unchanged.refl]
    · simp [hnative, Unchanged.refl]
    · rw [unchanged_concludeCancel_iff hfail]
      simp only [hterminal, hnative, false_or, Bool.false_eq_true]
      exact or_iff_left (not_not.mpr hreached)

theorem unchanged_beginTransition_iff {targetState : ChildExecutionState} {extra : TransitionExtra}
    {assignmentStatus : AssignmentStatus} {sessionStatus : String} {sessionError : Option String} :
    Unchanged w (beginTransition w input targetState extra assignmentStatus sessionStatus
        sessionError false).1 ↔ TransitionQuiet w.service input targetState := by
  unfold beginTransition TransitionQuiet
  cases hobj : resolveRecord w.service input with
  | none => simp [Unchanged.refl]
  | some obj =>
    have hreached : Reached w.service obj := reached_of_resolve hobj
    simp only [Option.some.injEq, forall_eq', transitionThenUpdate_world]
    rw [unchanged_transitionChild_iff]
    exact or_iff_left (not_not.mpr hreached)

theorem mem_values_of_bindCandidate {service : Service} {input : BindChildSessionInput}
    (h : bindCandidate service input = some obj) : obj ∈ service.recordsByTaskCall.values := by
  simp only [bindCandidate] at h
  split at h
  · next other hcall =>
    obtain rfl := Option.some.inj h
    obtain ⟨taskCall, -, hget⟩ := Option.bind_eq_some_iff.mp hcall
    exact InsertionMap.mem_values_of_get? hget
  · split at h
    · next other hmatching =>
      obtain rfl := Option.some.inj h
      have hmem := List.mem_of_mem_filter
        (hmatching ▸ List.mem_singleton_self _ : _ ∈ List.filter _ _)
      exact List.mem_of_mem_filter hmem
    · cases h

theorem unchanged_bindChildSession_iff {input : BindChildSessionInput} :
    Unchanged w (bindChildSession w input false).1 ↔ BindQuiet w.service input := by
  cases hobj : bindCandidate w.service input with
  | none => simp [bindChildSession, BindQuiet, hobj, Unchanged.refl]
  | some obj =>
    have hreached : Reached w.service obj := .inl (mem_values_of_bindCandidate hobj)
    by_cases hrefused : ((present (w.service.objects obj).childSessionId).any
        (· ≠ input.childSessionId) ||
      (w.service.recordsByChildSession.get? input.childSessionId).any fun owner =>
        (w.service.objects owner).executionId ≠ (w.service.objects obj).executionId) = true
    · have hworld : (bindChildSession w input false).1 = w := by
        simp only [bindChildSession, hobj, hrefused, if_true]
      rw [hworld]
      constructor
      · intro _ other hother
        obtain rfl := Option.some.inj (hobj.symm.trans hother)
        exact .inl hrefused
      · intro _
        exact .refl w
    · let record : ChildExecutionRecord :=
        { w.service.objects obj with childSessionId := some input.childSessionId }
      have hworld : (bindChildSession w input false).1 =
          ⟨w.service.setObject obj record, writeBoundSession w.db record input⟩ := by
        simp only [bindChildSession, hobj, hrefused, if_false, Bool.false_eq_true, record]
      have hservice : (bindChildSession w input false).1.service =
          w.service.setObject obj record := by rw [hworld]
      have hchildren : (bindChildSession w input false).1.db.children = w.db.children := by
        rw [hworld]
        exact writeBoundSession_children w.db record input
      rw [unchanged_setObject_iff hservice hchildren rfl, or_iff_left (not_not.mpr hreached)]
      constructor
      · intro heq other hother
        obtain rfl := Option.some.inj (hobj.symm.trans hother)
        exact .inr (congrArg (·.childSessionId) heq).symm
      · intro h
        have hsame := (h obj hobj).resolve_left hrefused
        simp only [record]
        rw [← hsame]

theorem unchanged_concludeRegister {input : RegisterDelegationInput} {now : Nat} :
    Unchanged w (concludeRegister w input now false).1 := .refl w

end Failed

/-- What surroundings a handler's step meets; the steps without a save of their own meet none. -/
def answersOf : Action → Option Answers
  | .registerDelegation _ _ answers | .bindChildSession _ answers | .markStarted _ _ answers
  | .markCompleted _ _ _ answers | .markFailed _ _ _ answers | .markTimedOut _ _ answers
  | .markCancelled _ _ _ _ _ answers | .sessionDeleted _ _ answers | .resume _ answers =>
    some answers
  | .cancelChildrenForRun .. | .reconcileAfterRestart _ | .restart | .sessionWritten _ => none

def SegmentQuiet (service : Service) (answers : Answers) : Segment → Prop
  | .abort obj reason =>
    CancelQuiet (service.objects obj) reason answers.aborted ∨ ¬Reached service obj
  | .cancelChildren _ (obj :: _) reason native _ =>
    let record := service.objects obj
    BeginCancelQuiet service ⟨some record.taskCallId, none⟩
      (some (reason.getD "Parent run cancelled"))
      (decide (record.status = .queued) && (present record.childSessionId).isNone) native
  | _ => True

/-- A step has nothing to save, or what it saves is in the cached record already, or no read comes
to the record. -/
def Quiet (s : State) : Action → Prop
  | .bindChildSession input _ => BindQuiet s.world.service input
  | .markStarted _ input _ => TransitionQuiet s.world.service input .running
  | .markCompleted _ input _ _ => TransitionQuiet s.world.service input .completed
  | .markFailed _ input _ _ => TransitionQuiet s.world.service input .failed
  | .markTimedOut _ input _ => TransitionQuiet s.world.service input .timedOut
  | .markCancelled _ input reason confirmed native _ =>
    BeginCancelQuiet s.world.service input reason confirmed native
  | .sessionDeleted _ sessionId _ => ∀ obj, childOfSession s.world.service sessionId = some obj →
      ((s.world.service.objects obj).cancelRequested ||
        decide ((s.world.service.objects obj).status = .cancelled)) = true →
      (s.world.service.objects obj).nativeTerminationConfirmed = false →
        BeginCancelQuiet s.world.service ⟨none, some sessionId⟩ none true false
  | .resume h answers => ∀ segment rest, s.handlers h = .awaiting segment rest →
      SegmentQuiet s.world.service answers segment
  | _ => True

variable {answers : Answers}

theorem unchanged_beginRegister {w : World} {input : RegisterDelegationInput}
    (hfail : answers.written = false) : Unchanged w (beginRegister w input answers).1 := by
  unfold beginRegister
  cases w.service.recordsByTaskCall.get? input.taskCallId with
  | some obj => exact .refl w
  | none => simp [hfail, Unchanged.refl]

theorem unchanged_runSegment_iff {w : World} {segment : Segment} {rest : List Segment}
    (hfail : answers.written = false) :
    Unchanged w (runSegment w segment rest answers).1 ↔
      SegmentQuiet w.service answers segment := by
  cases segment with
  | register input now =>
    simp only [SegmentQuiet, iff_true, runSegment, hfail]
    exact unchanged_concludeRegister
  | updateAssignment id status caught =>
    simp [SegmentQuiet, runSegment, hfail, Unchanged.refl]
  | writeAssignment id status caught =>
    simp [SegmentQuiet, runSegment, hfail, Unchanged.refl]
  | finish sessionStatus sessionError result =>
    simp only [SegmentQuiet, iff_true, runSegment]
    split
    · exact unchanged_of_eq rfl rfl
    · exact .refl w
  | abort obj reason => exact unchanged_concludeCancel_iff hfail
  | cancelChildren runId records reason native count =>
    cases records with
    | nil => simp [SegmentQuiet, runSegment, Unchanged.refl]
    | cons obj records => exact unchanged_beginCancel_iff hfail
  | crossCheck sessions reason count =>
    simp only [SegmentQuiet, iff_true]
    cases sessions with
    | nil => exact .refl w
    | cons session sessions =>
      obtain ⟨hservice, hchildren⟩ := crossCheckSession_world w session sessions reason count rest
      exact unchanged_of_eq hservice hchildren

theorem unchanged_sessionDeleted_iff {w : World} {sessionId : String}
    (hfail : answers.written = false) : Unchanged w (sessionDeleted w sessionId answers).1 ↔
      ∀ obj, childOfSession w.service sessionId = some obj →
        ((w.service.objects obj).cancelRequested ||
          decide ((w.service.objects obj).status = .cancelled)) = true →
        (w.service.objects obj).nativeTerminationConfirmed = false →
          BeginCancelQuiet w.service ⟨none, some sessionId⟩ none true false := by
  unfold sessionDeleted
  cases hobj : childOfSession w.service sessionId with
  | none => simp [Unchanged.refl]
  | some obj =>
    simp only [Option.some.injEq, forall_eq']
    split_ifs with hpending
    · obtain ⟨hrequested, hunconfirmed⟩ := Bool.and_eq_true_iff.mp hpending
      rw [unchanged_beginCancel_iff hfail]
      constructor
      · intro h _ _
        exact h
      · intro h
        exact h hrequested (by simpa using hunconfirmed)
    · constructor
      · intro _ hrequested hunconfirmed
        exact absurd (by simp [hrequested, hunconfirmed]) hpending
      · intro _
        exact .refl w

/-- When what a step saves cannot be written, the children read as before exactly where the step
would not have changed what is read. -/
theorem failed_save_unchanged_iff {s t : State} {a : Action} {answers : Answers}
    (hanswers : answersOf a = some answers) (hfail : answers.written = false)
    (hstep : step s a = some t) : Unchanged s.world t.world ↔ Quiet s a := by
  have hcalled {h : Nat} {result : World × Handler} (hcall : beginCall s.world a = some (h, result)) :
      t.world = result.1 := by
    simp only [step, hcall] at hstep
    split at hstep
    · rw [← Option.some.inj hstep]
      rfl
    · cases hstep
  cases a with
  | registerDelegation h input answers' =>
    obtain rfl := Option.some.inj hanswers
    rw [hcalled rfl]
    simp only [Quiet, iff_true]
    exact unchanged_beginRegister hfail
  | markStarted h input answers' =>
    obtain rfl := Option.some.inj hanswers
    rw [hcalled rfl, markStarted, hfail]
    exact unchanged_beginTransition_iff
  | markCompleted h input output answers' =>
    obtain rfl := Option.some.inj hanswers
    rw [hcalled rfl, markCompleted, hfail]
    exact unchanged_beginTransition_iff
  | markFailed h input error answers' =>
    obtain rfl := Option.some.inj hanswers
    rw [hcalled rfl, markFailed, hfail]
    exact unchanged_beginTransition_iff
  | markTimedOut h input answers' =>
    obtain rfl := Option.some.inj hanswers
    rw [hcalled rfl, markTimedOut, hfail]
    exact unchanged_beginTransition_iff
  | markCancelled h input reason confirmed native answers' =>
    obtain rfl := Option.some.inj hanswers
    rw [hcalled rfl]
    exact unchanged_beginCancel_iff hfail
  | sessionDeleted h sessionId answers' =>
    obtain rfl := Option.some.inj hanswers
    rw [hcalled rfl]
    exact unchanged_sessionDeleted_iff hfail
  | bindChildSession input answers' =>
    obtain rfl := Option.some.inj hanswers
    simp only [step, beginCall, Option.some.injEq] at hstep
    rw [← hstep, hfail]
    exact unchanged_bindChildSession_iff
  | resume h answers' =>
    obtain rfl := Option.some.inj hanswers
    simp only [step, beginCall] at hstep
    split at hstep
    · next segment rest hawaiting =>
      rw [← Option.some.inj hstep]
      refine (unchanged_runSegment_iff hfail).trans ?_
      constructor
      · intro hquiet segment' rest' hawaiting'
        obtain ⟨rfl, rfl⟩ := Handler.awaiting.inj (hawaiting.symm.trans hawaiting')
        exact hquiet
      · intro hquiet
        exact hquiet segment rest hawaiting
    · cases hstep
  | cancelChildrenForRun h runId reason native => cases hanswers
  | reconcileAfterRestart runId => cases hanswers
  | restart => cases hanswers
  | sessionWritten row => cases hanswers

/-- The started child is completed while its record cannot be written. -/
def failedCompletion : Action := .markCompleted 2 exampleChild none { now := 4, written := false }

theorem failedCompletion_unchanged_iff : ∃ s t,
    run step (initial .empty .empty) startedChild = some s ∧ step s failedCompletion = some t ∧
      (Unchanged s.world t.world ↔ Quiet s failedCompletion) :=
  ⟨_, _, rfl, rfl, failed_save_unchanged_iff rfl rfl rfl⟩

/-- The child reads as completed, and is stored as running. -/
theorem failed_completion_read : ∃ s t,
    run step (initial .empty .empty) startedChild = some s ∧ step s failedCompletion = some t ∧
      ¬Unchanged s.world t.world := by
  refine ⟨_, _, rfl, rfl, ?_⟩
  intro h
  have hread := congrArg (Option.map (·.status)) (h.read exampleChild none)
  exact absurd hread (by decide +kernel)

end ChildPersistence
