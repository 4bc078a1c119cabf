import FlowDeck.Execution.AssignmentBinding

namespace AssignmentIdentity

open AssignmentBinding Machine

/-- The workstream a call is at, and where it stands with it. -/
def position : Caller → Option (String × Phase)
  | .running _ _ current phase _ => some (current.workstreamId, phase)
  | _ => none

def at_ (s : BindingState) (c : Nat) : Option (String × Phase) := (s.calls c).bind position

def idOf : Phase → Option String
  | .looking => none
  | .reserving id | .creating id | .created id => some id

/-- A call that stands before no write of its own. -/
def Idle (c : Caller) : Prop := ∀ w phase, position c = some (w, phase) → phase = .looking

theorem at_setCall (s : BindingState) (c c' : Nat) (x : Caller) :
    at_ (s.setCall c x) c' = if c' = c then position x else at_ s c' := by
  have hcalls : (s.setCall c x).calls c' = if c' = c then some x else s.calls c' :=
    Function.update_apply s.calls c (some x) c'
  simp only [at_, hcalls]
  by_cases hsame : c' = c
  · simp [hsame]
  · simp [hsame]

theorem idle_proceed (correlationId : String) (map : String → Option String)
    (rest : List ExecutionWorkstream) : Idle (proceed correlationId map rest) := by
  intro w phase hposition
  cases rest with
  | nil => cases hposition
  | cons next rest =>
    obtain ⟨_, hphase⟩ := Prod.mk.inj (Option.some.inj hposition)
    exact hphase.symm

theorem idle_gone : Idle .gone := by
  intro w phase hposition
  cases hposition

theorem idle_rebound (s : BindingState) (correlationId : String)
    (rest : List ExecutionWorkstream) (current : ExecutionWorkstream)
    (map : String → Option String) : Idle (rebound s correlationId rest current map) := by
  unfold rebound
  split
  · exact idle_proceed _ _ _
  · exact idle_gone

/-- What holds of the identifiers in every state that can be reached. -/
structure Sane (s : BindingState) : Prop where
  drawnCalls : ∀ c w phase id, at_ s c = some (w, phase) → idOf phase = some id → id ∈ s.drawn
  drawnBindings : ∀ w id, s.bound w = some id → id ∈ s.drawn
  drawnRows : ∀ r ∈ s.assignments.rows, r.id ∈ s.drawn
  apart : ∀ c c' w w' phase phase' id, at_ s c = some (w, phase) → at_ s c' = some (w', phase') →
    idOf phase = some id → idOf phase' = some id → c = c'
  reserving : ∀ c w id, at_ s c = some (w, .reserving id) →
    (∀ w', s.bound w' ≠ some id) ∧ ∀ r ∈ s.assignments.rows, r.id ≠ id
  creating : ∀ c w id, at_ s c = some (w, .creating id) →
    (∃ id', s.bound w = some id') ∧ (∀ w', s.bound w' = some id → w' = w) ∧
      ∀ r ∈ s.assignments.rows, r.id ≠ id
  created : ∀ c w id, at_ s c = some (w, .created id) →
    ∃ r ∈ s.assignments.rows, r.id = id ∧ r.workstreamId = w
  rows : ∀ r ∈ s.assignments.rows,
    (∃ id, s.bound r.workstreamId = some id) ∧ ∀ w, s.bound w = some r.id → w = r.workstreamId

theorem sane_initial : Sane initial := by
  have hat : ∀ c, at_ initial c = none := fun _ => rfl
  have hbound : ∀ w, initial.bound w = none := fun _ => rfl
  have hrows : ∀ r, r ∉ initial.assignments.rows := fun _ => List.not_mem_nil
  constructor
  · intro c w phase id h
    rw [hat] at h
    cases h
  · intro w id h
    rw [hbound] at h
    cases h
  · intro r h
    exact absurd h (hrows r)
  · intro c c' w w' phase phase' id h
    rw [hat] at h
    cases h
  · intro c w id h
    rw [hat] at h
    cases h
  · intro c w id h
    rw [hat] at h
    cases h
  · intro c w id h
    rw [hat] at h
    cases h
  · intro r h
    exact absurd h (hrows r)

section Calls

variable {s : BindingState} {c : Nat} {x : Caller}

/-- A call that only moves on changes nothing for the identifiers. -/
theorem at_of_idle (hx : Idle x) {c' : Nat} {w id : String} {phase : Phase}
    (h : at_ (s.setCall c x) c' = some (w, phase)) (hid : idOf phase = some id) :
    c' ≠ c ∧ at_ s c' = some (w, phase) := by
  rw [at_setCall] at h
  by_cases hsame : c' = c
  · rw [if_pos hsame] at h
    rw [hx w phase h] at hid
    cases hid
  · rw [if_neg hsame] at h
    exact ⟨hsame, h⟩

theorem sane_setCall_idle (h : Sane s) (hx : Idle x) : Sane (s.setCall c x) := by
  constructor
  · intro c' w phase id hat hid
    exact h.drawnCalls c' w phase id (at_of_idle hx hat hid).2 hid
  · exact h.drawnBindings
  · exact h.drawnRows
  · intro c' c'' w w' phase phase' id hat hat' hid hid'
    exact h.apart c' c'' w w' phase phase' id (at_of_idle hx hat hid).2
      (at_of_idle hx hat' hid').2 hid hid'
  · intro c' w id hat
    exact h.reserving c' w id (at_of_idle hx hat rfl).2
  · intro c' w id hat
    exact h.creating c' w id (at_of_idle hx hat rfl).2
  · intro c' w id hat
    exact h.created c' w id (at_of_idle hx hat rfl).2
  · exact h.rows

end Calls

theorem at_of_call {s : BindingState} {c : Nat} {correlationId : String}
    {rest : List ExecutionWorkstream} {current : ExecutionWorkstream} {phase : Phase}
    {map : String → Option String}
    (h : s.calls c = some (.running correlationId rest current phase map)) :
    at_ s c = some (current.workstreamId, phase) := by
  unfold at_
  rw [h]
  rfl

section Moves

variable {s t : BindingState} {c : Nat} {correlationId : String}
  {rest : List ExecutionWorkstream} {current : ExecutionWorkstream} {phase : Phase}
  {map : String → Option String}

theorem at_of_running {c' : Nat} {w : String} {phase' : Phase}
    (h : at_ (s.setCall c (.running correlationId rest current phase map)) c' = some (w, phase')) :
    c' = c ∧ w = current.workstreamId ∧ phase' = phase ∨ c' ≠ c ∧ at_ s c' = some (w, phase') := by
  rw [at_setCall] at h
  by_cases hsame : c' = c
  · rw [if_pos hsame] at h
    obtain ⟨hw, hphase⟩ := Prod.mk.inj (Option.some.inj h)
    exact Or.inl ⟨hsame, hw.symm, hphase.symm⟩
  · rw [if_neg hsame] at h
    exact Or.inr ⟨hsame, h⟩

theorem at_running_self :
    at_ (s.setCall c (.running correlationId rest current phase map)) c =
      some (current.workstreamId, phase) := by
  rw [at_setCall, if_pos rfl]
  rfl

theorem at_of_ne {x : Caller} {c' : Nat} (hne : c' ≠ c) : at_ (s.setCall c x) c' = at_ s c' := by
  rw [at_setCall, if_neg hne]

end Moves

/-- Drawing an identifier that nobody has drawn before. -/
theorem sane_drew {s t : BindingState} (h : Sane s) {c : Nat} {uuid correlationId : String}
    {rest : List ExecutionWorkstream} {current : ExecutionWorkstream}
    {map : String → Option String} (hfresh : uuid ∉ s.drawn)
    (ht : t = { s.setCall c (.running correlationId rest current (.reserving uuid) map) with
      drawn := uuid :: s.drawn }) : Sane t := by
  have hnew : ∀ c' w phase id, at_ t c' = some (w, phase) → idOf phase = some id →
      c' = c ∧ phase = .reserving uuid ∧ id = uuid ∨ c' ≠ c ∧ at_ s c' = some (w, phase) := by
    intro c' w phase id hc hid
    rw [ht] at hc
    rcases at_of_running hc with ⟨hsame, _, hphase⟩ | hold
    · rw [hphase] at hid
      exact Or.inl ⟨hsame, hphase, (Option.some.inj hid).symm⟩
    · exact Or.inr hold
  have hdrawn : t.drawn = uuid :: s.drawn := by rw [ht]
  have hbound : ∀ w, t.bound w = s.bound w := by
    intro w
    rw [ht]
    rfl
  have hrows : t.assignments = s.assignments := by
    rw [ht]
    rfl
  constructor
  · intro c' w phase id hc hid
    rw [hdrawn]
    rcases hnew c' w phase id hc hid with ⟨_, _, hsame⟩ | ⟨_, hold⟩
    · rw [hsame]
      exact List.mem_cons_self
    · exact List.mem_cons_of_mem _ (h.drawnCalls c' w phase id hold hid)
  · intro w id hw
    rw [hbound] at hw
    rw [hdrawn]
    exact List.mem_cons_of_mem _ (h.drawnBindings w id hw)
  · intro r hr
    rw [hrows] at hr
    rw [hdrawn]
    exact List.mem_cons_of_mem _ (h.drawnRows r hr)
  · intro c' c'' w w' phase phase' id hc hc' hid hid'
    rcases hnew c' w phase id hc hid with ⟨hsame, _, huuid⟩ | ⟨_, hold⟩
    · rcases hnew c'' w' phase' id hc' hid' with ⟨hsame', _, _⟩ | ⟨_, hold'⟩
      · rw [hsame, hsame']
      · rw [huuid] at hid'
        exact absurd (h.drawnCalls c'' w' phase' uuid hold' hid') hfresh
    · rcases hnew c'' w' phase' id hc' hid' with ⟨_, _, huuid⟩ | ⟨_, hold'⟩
      · rw [huuid] at hid
        exact absurd (h.drawnCalls c' w phase uuid hold hid) hfresh
      · exact h.apart c' c'' w w' phase phase' id hold hold' hid hid'
  · intro c' w id hc
    simp only [hbound, hrows]
    rcases hnew c' w _ id hc rfl with ⟨_, _, huuid⟩ | ⟨_, hold⟩
    · rw [huuid]
      constructor
      · intro w' hw'
        exact hfresh (h.drawnBindings w' uuid hw')
      · intro r hr hsame
        exact hfresh (hsame ▸ h.drawnRows r hr)
    · exact h.reserving c' w id hold
  · intro c' w id hc
    simp only [hbound, hrows]
    rcases hnew c' w _ id hc rfl with ⟨_, hphase, _⟩ | ⟨_, hold⟩
    · cases hphase
    · exact h.creating c' w id hold
  · intro c' w id hc
    simp only [hrows]
    rcases hnew c' w _ id hc rfl with ⟨_, hphase, _⟩ | ⟨_, hold⟩
    · cases hphase
    · exact h.created c' w id hold
  · simp only [hbound, hrows]
    exact h.rows

section Reservation

variable {s t : BindingState} {record : AssignmentExecutionBinding}

theorem bound_reserved (hb : t.bindings = ensureBinding s.bindings record) (w : String) :
    t.bound w =
      if s.bound record.workstreamId = none ∧ w = record.workstreamId then
        some record.assignmentId
      else s.bound w := by
  simp only [BindingState.bound, hb, ensureBinding]
  cases hinsert : s.bindings.insert? record with
  | none =>
    obtain ⟨row, hrow⟩ := Table.insert?_eq_none hinsert
    simp [hrow]
  | some bindings =>
    obtain ⟨hnone, _⟩ := Table.insert?_eq_some hinsert
    by_cases hw : w = record.workstreamId
    · simp [Table.get?_insert? hinsert, hnone, hw]
    · have hne : record.workstreamId ≠ w := fun h => hw h.symm
      simp [Table.get?_insert? hinsert, hw, hne]

theorem bound_kept (hb : t.bindings = ensureBinding s.bindings record) {w id : String}
    (h : s.bound w = some id) : t.bound w = some id := by
  rw [bound_reserved hb, if_neg]
  · exact h
  · intro hnew
    rw [← hnew.2, h] at hnew
    cases hnew.1

theorem bound_cases (hb : t.bindings = ensureBinding s.bindings record) {w id : String}
    (h : t.bound w = some id) :
    s.bound w = some id ∨ w = record.workstreamId ∧ id = record.assignmentId := by
  rw [bound_reserved hb] at h
  split_ifs at h with hnew
  · exact Or.inr ⟨hnew.2, (Option.some.inj h).symm⟩
  · exact Or.inl h

theorem bound_record (hb : t.bindings = ensureBinding s.bindings record) :
    ∃ id, t.bound record.workstreamId = some id := by
  rw [bound_reserved hb]
  split_ifs with hnew
  · exact ⟨_, rfl⟩
  · apply Option.ne_none_iff_exists'.mp
    intro hnone
    exact hnew ⟨hnone, rfl⟩

end Reservation

theorem sane_reserved {s t : BindingState} (h : Sane s) {c : Nat}
    {correlationId assignmentId : String} {rest : List ExecutionWorkstream}
    {current : ExecutionWorkstream} {map : String → Option String}
    {record : AssignmentExecutionBinding} (hid : record.assignmentId = assignmentId)
    (hws : record.workstreamId = current.workstreamId)
    (hat : at_ s c = some (current.workstreamId, .reserving assignmentId))
    (ht : t = { s.setCall c (.running correlationId rest current (.creating assignmentId) map) with
      bindings := ensureBinding s.bindings record }) : Sane t := by
  have hb : t.bindings = ensureBinding s.bindings record := by rw [ht]
  have hdrawn : t.drawn = s.drawn := by
    rw [ht]
    rfl
  have hrows : t.assignments = s.assignments := by
    rw [ht]
    rfl
  have hmoved : ∀ c' w phase, at_ t c' = some (w, phase) →
      c' = c ∧ w = current.workstreamId ∧ phase = .creating assignmentId ∨
        c' ≠ c ∧ at_ s c' = some (w, phase) := by
    intro c' w phase hc
    rw [ht] at hc
    exact at_of_running hc
  -- Every identifier that a call holds, it held before.
  have hheld : ∀ c' w phase id, at_ t c' = some (w, phase) → idOf phase = some id →
      ∃ phase', at_ s c' = some (w, phase') ∧ idOf phase' = some id := by
    intro c' w phase id hc hphase
    rcases hmoved c' w phase hc with ⟨hsame, hw, hcreating⟩ | ⟨_, hold⟩
    · rw [hcreating] at hphase
      rw [hsame, hw]
      exact ⟨_, hat, hphase⟩
    · exact ⟨phase, hold, hphase⟩
  have hreserving := h.reserving c _ _ hat
  constructor
  · intro c' w phase id hc hphase
    obtain ⟨phase', hold, hphase'⟩ := hheld c' w phase id hc hphase
    rw [hdrawn]
    exact h.drawnCalls c' w phase' id hold hphase'
  · intro w id hw
    rw [hdrawn]
    rcases bound_cases hb hw with hold | ⟨_, hnew⟩
    · exact h.drawnBindings w id hold
    · rw [hnew, hid]
      exact h.drawnCalls c _ _ assignmentId hat rfl
  · rw [hdrawn, hrows]
    exact h.drawnRows
  · intro c' c'' w w' phase phase' id hc hc' hphase hphase'
    obtain ⟨p, hp, hpid⟩ := hheld c' w phase id hc hphase
    obtain ⟨p', hp', hpid'⟩ := hheld c'' w' phase' id hc' hphase'
    exact h.apart c' c'' w w' p p' id hp hp' hpid hpid'
  · intro c' w id hc
    rw [hrows]
    rcases hmoved c' w _ hc with ⟨_, _, hphase⟩ | ⟨hne, hold⟩
    · cases hphase
    · constructor
      · intro w' hw'
        rcases bound_cases hb hw' with hbound | ⟨_, hnew⟩
        · exact (h.reserving c' w id hold).1 w' hbound
        · rw [hid] at hnew
          exact hne (h.apart c' c _ _ _ _ id hold hat rfl (congrArg some hnew.symm))
      · exact (h.reserving c' w id hold).2
  · intro c' w id hc
    rw [hrows]
    rcases hmoved c' w _ hc with ⟨_, hw, hphase⟩ | ⟨hne, hold⟩
    · obtain rfl : id = assignmentId := Phase.creating.inj hphase
      refine ⟨?_, ?_, hreserving.2⟩
      · rw [hw, ← hws]
        exact bound_record hb
      · intro w' hw'
        rcases bound_cases hb hw' with hbound | ⟨hnew, _⟩
        · exact absurd hbound (hreserving.1 w')
        · rw [hnew, hws, hw]
    · obtain ⟨⟨id', hbound⟩, hunique, hnorow⟩ := h.creating c' w id hold
      refine ⟨⟨id', bound_kept hb hbound⟩, ?_, hnorow⟩
      intro w' hw'
      rcases bound_cases hb hw' with hw'' | ⟨_, hnew⟩
      · exact hunique w' hw''
      · rw [hid] at hnew
        exact absurd (h.apart c' c _ _ _ _ id hold hat rfl (congrArg some hnew.symm)) hne
  · intro c' w id hc
    rw [hrows]
    rcases hmoved c' w _ hc with ⟨_, _, hphase⟩ | ⟨_, hold⟩
    · cases hphase
    · exact h.created c' w id hold
  · intro r hr
    rw [hrows] at hr
    obtain ⟨⟨id, hbound⟩, hunique⟩ := h.rows r hr
    refine ⟨⟨id, bound_kept hb hbound⟩, ?_⟩
    intro w hw
    rcases bound_cases hb hw with hold | ⟨_, hnew⟩
    · exact hunique w hold
    · rw [hid] at hnew
      exact absurd hnew (hreserving.2 r hr)

/-- The row that a caller inserts under the identifier it drew. -/
theorem sane_inserted {s t : BindingState} (h : Sane s) {c : Nat}
    {correlationId assignmentId : String} {rest : List ExecutionWorkstream}
    {current : ExecutionWorkstream} {map : String → Option String} {row : Assignment}
    {assignments : Table Assignment.id} (hid : row.id = assignmentId)
    (hws : row.workstreamId = current.workstreamId)
    (hat : at_ s c = some (current.workstreamId, .creating assignmentId))
    (hrows : assignments.rows = s.assignments.rows ++ [row])
    (ht : t = { s.setCall c (.running correlationId rest current (.created assignmentId) map) with
      assignments }) : Sane t := by
  have hdrawn : t.drawn = s.drawn := by
    rw [ht]
    rfl
  have hbound : ∀ w, t.bound w = s.bound w := by
    intro w
    rw [ht]
    rfl
  have hmem : ∀ r, r ∈ t.assignments.rows ↔ r ∈ s.assignments.rows ∨ r = row := by
    intro r
    rw [ht]
    simp [hrows]
  have hmoved : ∀ c' w phase, at_ t c' = some (w, phase) →
      c' = c ∧ w = current.workstreamId ∧ phase = .created assignmentId ∨
        c' ≠ c ∧ at_ s c' = some (w, phase) := by
    intro c' w phase hc
    rw [ht] at hc
    exact at_of_running hc
  have hheld : ∀ c' w phase id, at_ t c' = some (w, phase) → idOf phase = some id →
      ∃ phase', at_ s c' = some (w, phase') ∧ idOf phase' = some id := by
    intro c' w phase id hc hphase
    rcases hmoved c' w phase hc with ⟨hsame, hw, hcreated⟩ | ⟨_, hold⟩
    · rw [hcreated] at hphase
      rw [hsame, hw]
      exact ⟨_, hat, hphase⟩
    · exact ⟨phase, hold, hphase⟩
  have hcreating := h.creating c _ _ hat
  have hdifferent : ∀ c' w phase, c' ≠ c → at_ s c' = some (w, phase) →
      idOf phase ≠ some assignmentId := by
    intro c' w phase hne hold hphase
    exact hne (h.apart c' c _ _ _ _ assignmentId hold hat hphase rfl)
  constructor
  · intro c' w phase id hc hphase
    obtain ⟨phase', hold, hphase'⟩ := hheld c' w phase id hc hphase
    rw [hdrawn]
    exact h.drawnCalls c' w phase' id hold hphase'
  · simp only [hbound, hdrawn]
    exact h.drawnBindings
  · intro r hr
    rw [hdrawn]
    rcases (hmem r).mp hr with hold | hnew
    · exact h.drawnRows r hold
    · rw [hnew, hid]
      exact h.drawnCalls c _ _ assignmentId hat rfl
  · intro c' c'' w w' phase phase' id hc hc' hphase hphase'
    obtain ⟨p, hp, hpid⟩ := hheld c' w phase id hc hphase
    obtain ⟨p', hp', hpid'⟩ := hheld c'' w' phase' id hc' hphase'
    exact h.apart c' c'' w w' p p' id hp hp' hpid hpid'
  · intro c' w id hc
    simp only [hbound]
    rcases hmoved c' w _ hc with ⟨_, _, hphase⟩ | ⟨hne, hold⟩
    · cases hphase
    · refine ⟨(h.reserving c' w id hold).1, ?_⟩
      intro r hr hsame
      rcases (hmem r).mp hr with hr' | hnew
      · exact (h.reserving c' w id hold).2 r hr' hsame
      · rw [hnew, hid] at hsame
        exact hdifferent c' w _ hne hold (congrArg some hsame.symm)
  · intro c' w id hc
    simp only [hbound]
    rcases hmoved c' w _ hc with ⟨_, _, hphase⟩ | ⟨hne, hold⟩
    · cases hphase
    · obtain ⟨hsome, hunique, hnorow⟩ := h.creating c' w id hold
      refine ⟨hsome, hunique, ?_⟩
      intro r hr hsame
      rcases (hmem r).mp hr with hr' | hnew
      · exact hnorow r hr' hsame
      · rw [hnew, hid] at hsame
        exact hdifferent c' w _ hne hold (congrArg some hsame.symm)
  · intro c' w id hc
    rcases hmoved c' w _ hc with ⟨_, hw, hphase⟩ | ⟨_, hold⟩
    · refine ⟨row, (hmem row).mpr (Or.inr rfl), ?_, ?_⟩
      · rw [hid, Phase.created.inj hphase]
      · rw [hws, hw]
    · obtain ⟨r, hr, hsame⟩ := h.created c' w id hold
      exact ⟨r, (hmem r).mpr (Or.inl hr), hsame⟩
  · intro r hr
    simp only [hbound]
    rcases (hmem r).mp hr with hold | hnew
    · exact h.rows r hold
    · rw [hnew, hws, hid]
      exact ⟨hcreating.1, hcreating.2.1⟩

theorem step_sane {plan : ExecutionPlan} {s t : BindingState} {a : Action} (h : Sane s)
    (hstep : step plan s a = some t) : Sane t := by
  cases step_effect hstep with
  | called _ ht => exact ht ▸ sane_setCall_idle h (idle_proceed _ _ _)
  | found _ _ ht => exact ht ▸ sane_setCall_idle h (idle_proceed _ _ _)
  | drew _ _ hfresh ht => exact sane_drew h hfresh ht
  | reserved hcall ht => exact sane_reserved h rfl rfl (at_of_call hcall) ht
  | inserted hcall hinsert ht =>
    exact sane_inserted h rfl rfl (at_of_call hcall) (Table.insert?_eq_some hinsert).2 ht
  | refused _ ht => exact ht ▸ sane_setCall_idle h (idle_rebound _ _ _ _ _)
  | published _ ht => exact ht ▸ sane_setCall_idle h (idle_proceed _ _ _)
  | unpublished _ ht => exact ht ▸ sane_setCall_idle h (idle_rebound _ _ _ _ _)
  | crashed _ ht => exact ht ▸ sane_setCall_idle h idle_gone

/-- Neither a binding nor a row ever goes. -/
theorem step_grows {plan : ExecutionPlan} {s t : BindingState} {a : Action}
    (hstep : step plan s a = some t) :
    (∀ w id, s.bound w = some id → t.bound w = some id) ∧
      ∀ r ∈ s.assignments.rows, r ∈ t.assignments.rows := by
  cases step_effect hstep with
  | called _ ht | found _ _ ht | drew _ _ _ ht | refused _ ht | published _ ht | unpublished _ ht
  | crashed _ ht =>
    rw [ht]
    exact ⟨fun _ _ hbound => hbound, fun _ hr => hr⟩
  | reserved _ ht =>
    rw [ht]
    exact ⟨fun _ _ hbound => bound_kept rfl hbound, fun _ hr => hr⟩
  | inserted _ hinsert ht =>
    rw [ht]
    refine ⟨fun _ _ hbound => hbound, ?_⟩
    intro r hr
    show r ∈ _
    rw [(Table.insert?_eq_some hinsert).2]
    exact List.mem_append_left _ hr

end AssignmentIdentity
