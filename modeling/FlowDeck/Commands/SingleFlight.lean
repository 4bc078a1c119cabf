import FlowDeck.Commands.CommandInvariants

namespace SingleFlight

open Commands Machine Option

/-- The invocation that a call is in `continueExecution` for. -/
def inside : Call → Option String
  | .working _ _ i stage => if stage.continuing then some i.invocationId else none
  | _ => none

/-- The invocation that a call works on: from its insert or its claim to its end. -/
def worksOn : Call → Option String
  | .compiling _ i | .working _ _ i _ | .loading i => some i.invocationId
  | .releasing invocationId _ => some invocationId
  | _ => none

/-- The invocation that a call has the claim of, as far as the call knows. -/
def recovers : Call → Option String
  | .working .recovery _ i _ | .loading i => some i.invocationId
  | .releasing invocationId _ => some invocationId
  | _ => none

def insideAt (s : CommandState) (c : Nat) : Option String := (s.calls c).bind inside

def worksAt (s : CommandState) (c : Nat) : Option String := (s.calls c).bind worksOn

def recoversAt (s : CommandState) (c : Nat) : Option String := (s.calls c).bind recovers

def Alone (s : CommandState) : Action → Prop
  | .event c (.acquire busy) => ∀ i, s.calls c = some (.claiming i) → busy = false →
      claimLive s.claims s.now i.invocationId = false →
        ∀ c', worksAt s c' ≠ some i.invocationId
  | _ => True

/-- At most one call is in `continueExecution` for an invocation, and a claim stays taken until the
call that took it last gives it up. -/
structure Exclusive (s : CommandState) : Prop where
  flight : ∀ c c' invocationId, insideAt s c = some invocationId →
    insideAt s c' = some invocationId → c = c'
  kept : ∀ invocationId c, s.acquiredBy invocationId = some c →
    claimed s.claims invocationId = true

/-- What holds while recoverers are alone. -/
structure Sole (s : CommandState) : Prop where
  drawn : ∀ c invocationId, worksAt s c = some invocationId →
    ∃ uuid ∈ s.drawn, invocationId = "inv_" ++ uuid
  one : ∀ c c' invocationId, worksAt s c = some invocationId → worksAt s c' = some invocationId →
    c = c'
  held : ∀ c invocationId, recoversAt s c = some invocationId →
    s.acquiredBy invocationId = some c
  kept : ∀ invocationId c, s.acquiredBy invocationId = some c →
    claimed s.claims invocationId = true

theorem sole_initial : Sole initial := by
  constructor
  · intro c invocationId h
    cases h
  · intro c c' invocationId h
    cases h
  · intro c invocationId h
    cases h
  · intro invocationId c h
    cases h

theorem worksOn_of_inside {call : Call} {invocationId : String}
    (h : inside call = some invocationId) : worksOn call = some invocationId := by
  cases call with
  | working origin d i stage =>
    simp only [inside] at h
    split_ifs at h
    exact h
  | _ => cases h

theorem worksOn_of_recovers {call : Call} {invocationId : String}
    (h : recovers call = some invocationId) : worksOn call = some invocationId := by
  cases call with
  | working origin d i stage =>
    cases origin with
    | fresh r => cases h
    | recovery => exact h
  | loading i => exact h
  | releasing id answer => exact h
  | _ => cases h

theorem Sole.exclusive {s : CommandState} (h : Sole s) : Exclusive s := by
  constructor
  · intro c c' invocationId hc hc'
    obtain ⟨call, hcall, hinside⟩ := bind_eq_some_iff.mp hc
    obtain ⟨call', hcall', hinside'⟩ := bind_eq_some_iff.mp hc'
    apply h.one c c' invocationId
    · exact bind_eq_some_iff.mpr ⟨call, hcall, worksOn_of_inside hinside⟩
    · exact bind_eq_some_iff.mpr ⟨call', hcall', worksOn_of_inside hinside'⟩
  · exact h.kept

section Moves

variable {rt : Runtime} {s : CommandState} {e : Event} {call next : Call} {w : Write}
  {invocationId : String}

variable {i : CommandInvocation} {origin : Origin}

theorem invocationId_of_identity {i' : CommandInvocation} (h : i.identity = i'.identity) :
    i.invocationId = i'.invocationId := congrArg Identity.invocationId h

theorem worksOn_guarded (h : Guarded call origin i) : worksOn call = some i.invocationId := by
  cases h with
  | compiling | working | loading => rfl

theorem worksOn_rereadKey (r : Request) (i : CommandInvocation) :
    worksOn (rereadKey rt s r i) = none := by
  unfold rereadKey
  split
  · split_ifs <;> rfl
  · rfl

theorem worksOn_raceExisting (r : Request) : worksOn (raceExisting rt s r) = none := by
  unfold raceExisting
  split
  · split_ifs <;> rfl
  · rfl

theorem worksOn_finish {id : String} {answer : Answer}
    (h : worksOn (origin.finish id answer) = some invocationId) : id = invocationId := by
  cases origin with
  | fresh r => cases h
  | recovery => exact some.inj h

theorem worksOn_move (h : Move rt s e call w next)
    (hworks : worksOn next = some invocationId) :
    worksOn call = some invocationId ∨
      (∃ uuid, e = .insert uuid ∧ invocationId = "inv_" ++ uuid) ∨ w = .acquire invocationId := by
  cases h with
  | refused | clashed | gaveUp | deferred | released | cancelled => cases hworks
  | inserted =>
    obtain rfl := some.inj hworks
    exact Or.inr (Or.inl ⟨_, rfl, rfl⟩)
  | reread =>
    rw [worksOn_rereadKey] at hworks
    cases hworks
  | raced =>
    rw [worksOn_raceExisting] at hworks
    cases hworks
  | compiled _ hidentity =>
    obtain rfl := some.inj hworks
    exact Or.inl (congrArg some (invocationId_of_identity hidentity).symm)
  | bound | rebound | entered | dispatched | verifying | resumed => exact Or.inl hworks
  | completed _ => exact Or.inl (congrArg some (worksOn_finish hworks))
  | stopped _ hguarded =>
    exact Or.inl ((worksOn_guarded hguarded).trans (congrArg some (worksOn_finish hworks)))
  | failed _ _ hguarded =>
    exact Or.inl ((worksOn_guarded hguarded).trans (congrArg some (worksOn_finish hworks)))
  | acquired _ _ =>
    obtain rfl := some.inj hworks
    exact Or.inr (Or.inr rfl)
  | polled hnext =>
    rcases hnext with hnext | ⟨answer, hnext⟩
    · rw [hnext] at hworks
      cases hworks
    · rw [hnext] at hworks
      cases hworks
  | replanned _ hidentity =>
    obtain rfl := some.inj hworks
    exact Or.inl (congrArg some (invocationId_of_identity hidentity).symm)

theorem recovers_finish {id : String} {answer : Answer}
    (h : recovers (origin.finish id answer) = some invocationId) :
    origin = .recovery ∧ id = invocationId := by
  cases origin with
  | fresh r => cases h
  | recovery => exact ⟨rfl, some.inj h⟩

theorem recovers_guarded (h : Guarded call .recovery i) : recovers call = some i.invocationId := by
  cases h with
  | working | loading => rfl

theorem recovers_of_worksOn_none (h : worksOn call = none) : recovers call = none := by
  cases hrecovers : recovers call with
  | none => rfl
  | some id =>
    rw [worksOn_of_recovers hrecovers] at h
    cases h

theorem recovers_working {d d' : CommandDefinition} {i' : CommandInvocation} {stage stage' : Stage}
    (h : i.invocationId = i'.invocationId) :
    recovers (.working origin d i stage) = recovers (.working origin d' i' stage') := by
  cases origin with
  | fresh r => rfl
  | recovery => exact congrArg some h

theorem recovers_move (h : Move rt s e call w next)
    (hrecovers : recovers next = some invocationId) :
    recovers call = some invocationId ∨ w = .acquire invocationId := by
  cases h with
  | refused | inserted | clashed | compiled | bound | gaveUp | deferred | released | cancelled =>
    cases hrecovers
  | reread =>
    rw [recovers_of_worksOn_none (worksOn_rereadKey _ _)] at hrecovers
    cases hrecovers
  | raced =>
    rw [recovers_of_worksOn_none (worksOn_raceExisting _)] at hrecovers
    cases hrecovers
  | rebound | resumed => exact Or.inl hrecovers
  | entered | dispatched | verifying =>
    refine Or.inl (Eq.trans (recovers_working ?_) hrecovers)
    rfl
  | completed _ =>
    obtain ⟨horigin, hid⟩ := recovers_finish hrecovers
    rw [horigin, ← hid]
    exact Or.inl rfl
  | stopped _ hguarded =>
    obtain ⟨horigin, hid⟩ := recovers_finish hrecovers
    rw [horigin] at hguarded
    rw [← hid]
    exact Or.inl (recovers_guarded hguarded)
  | failed _ _ hguarded =>
    obtain ⟨horigin, hid⟩ := recovers_finish hrecovers
    rw [horigin] at hguarded
    rw [← hid]
    exact Or.inl (recovers_guarded hguarded)
  | acquired _ _ =>
    obtain rfl := some.inj hrecovers
    exact Or.inr rfl
  | polled hnext =>
    rcases hnext with hnext | ⟨answer, hnext⟩
    · rw [hnext] at hrecovers
      cases hrecovers
    · rw [hnext] at hrecovers
      cases hrecovers
  | replanned _ hidentity =>
    obtain rfl := some.inj hrecovers
    exact Or.inl (congrArg some (invocationId_of_identity hidentity).symm)

theorem release_move (h : Move rt s e call (.release invocationId) next) :
    recovers call = some invocationId ∧ recovers next = none := by
  cases h with
  | released => exact ⟨rfl, rfl⟩

theorem acquire_move (h : Move rt s e call (.acquire invocationId) next) :
    ∃ i, call = .claiming i ∧ i.invocationId = invocationId ∧ e = .acquire false ∧
      claimLive s.claims s.now invocationId = false := by
  cases h with
  | acquired hbusy hlive =>
    rw [hbusy]
    exact ⟨_, rfl, rfl, rfl, hlive⟩

end Moves

section Writes

variable {s t : CommandState} {caller : Nat} {w : Write}

theorem write_claims (h : s.write caller w = some t) :
    (t.claims = s.claims ∧ t.acquiredBy = s.acquiredBy ∧ (∀ id, w ≠ .acquire id) ∧
      ∀ id, w ≠ .release id) ∨
    (∃ id, w = .acquire id ∧ Commands.acquire s.claims s.now id = some t.claims ∧
      t.acquiredBy = Function.update s.acquiredBy id (some caller)) ∨
    ∃ id, w = .release id ∧ t.claims = Commands.release s.claims s.now id ∧
      t.acquiredBy = if s.acquiredBy id = some caller then Function.update s.acquiredBy id none
        else s.acquiredBy := by
  cases w with
  | nothing =>
    rw [← some.inj h]
    exact Or.inl ⟨rfl, rfl, fun _ => Write.noConfusion, fun _ => Write.noConfusion⟩
  | save i =>
    obtain ⟨_, _, ht⟩ := map_eq_some_iff.mp h
    rw [← ht]
    exact Or.inl ⟨rfl, rfl, fun _ => Write.noConfusion, fun _ => Write.noConfusion⟩
  | acquire id =>
    obtain ⟨claims, hacquire, ht⟩ := map_eq_some_iff.mp h
    rw [← ht]
    exact Or.inr (Or.inl ⟨id, rfl, hacquire, rfl⟩)
  | release id =>
    rw [← some.inj h]
    exact Or.inr (Or.inr ⟨id, rfl, rfl, rfl⟩)

end Writes

section Starts

variable {rt : Runtime} {s : CommandState}

theorem worksOn_executeCommand (commandIdOrAlias : String) (version : Option Nat) (key : String)
    (input : Json) : worksOn (executeCommand rt s commandIdOrAlias version key input) = none := by
  unfold executeCommand
  split
  · rfl
  · simp only
    split
    · rfl
    · split_ifs <;> rfl

theorem worksOn_cancelCommand (invocationId reason : String) :
    worksOn (cancelCommand s invocationId reason) = none := by
  unfold cancelCommand
  split
  · rfl
  · split_ifs <;> rfl

theorem worksOn_recoverCommand (invocationId : String) :
    worksOn (recoverCommand s invocationId) = none := by
  unfold recoverCommand
  split
  · rfl
  · split_ifs <;> rfl

end Starts

section Steps

variable {rt : Runtime} {s t : CommandState}

theorem worksAt_setCall (caller c : Nat) (call : Call) :
    worksAt (s.setCall caller call) c = if c = caller then worksOn call else worksAt s c := by
  unfold worksAt
  rw [calls_setCall]
  by_cases hsame : c = caller
  · simp [hsame]
  · simp [hsame]

theorem recoversAt_setCall (caller c : Nat) (call : Call) :
    recoversAt (s.setCall caller call) c =
      if c = caller then recovers call else recoversAt s c := by
  unfold recoversAt
  rw [calls_setCall]
  by_cases hsame : c = caller
  · simp [hsame]
  · simp [hsame]

theorem worksAt_of_recoversAt {c : Nat} {invocationId : String}
    (h : recoversAt s c = some invocationId) : worksAt s c = some invocationId := by
  obtain ⟨call, hcall, hrecovers⟩ := bind_eq_some_iff.mp h
  exact bind_eq_some_iff.mpr ⟨call, hcall, worksOn_of_recovers hrecovers⟩

theorem sole_setCall (h : Sole s) {caller : Nat} {call : Call} (hworks : worksOn call = none) :
    Sole (s.setCall caller call) := by
  have hkept : ∀ c invocationId, worksAt (s.setCall caller call) c = some invocationId →
      worksAt s c = some invocationId := by
    intro c invocationId hc
    rw [worksAt_setCall] at hc
    split_ifs at hc
    · rw [hworks] at hc
      cases hc
    · exact hc
  refine ⟨?_, ?_, ?_, h.kept⟩
  · intro c invocationId hc
    exact h.drawn c invocationId (hkept c invocationId hc)
  · intro c c' invocationId hc hc'
    exact h.one c c' invocationId (hkept c invocationId hc) (hkept c' invocationId hc')
  · intro c invocationId hc
    rw [recoversAt_setCall] at hc
    split_ifs at hc
    · rw [recovers_of_worksOn_none hworks] at hc
      cases hc
    · exact h.held c invocationId hc

/-- A step of a call whose statement leaves the claims alone. -/
theorem sole_plain (h : Sole s) {u : CommandState} {caller : Nat} {e : Event} {call next : Call}
    {w : Write} (hcall : s.calls caller = some call) (hmove : Move rt s e call w next)
    (hacquire : ∀ id, w ≠ .acquire id) (hu : u.calls = s.calls) (hclaims : u.claims = s.claims)
    (hacquired : u.acquiredBy = s.acquiredBy)
    (hdrawn : (∃ uuid, e = .insert uuid ∧ uuid ∉ s.drawn ∧ u.drawn = uuid :: s.drawn) ∨
      (∀ uuid, e ≠ .insert uuid) ∧ u.drawn = s.drawn) : Sole (u.setCall caller next) := by
  have hat : ∀ c, worksAt u c = worksAt s c := by
    intro c
    unfold worksAt
    rw [hu]
  have hold : ∀ c invocationId, c ≠ caller →
      worksAt (u.setCall caller next) c = some invocationId → worksAt s c = some invocationId := by
    intro c invocationId hne hc
    rw [worksAt_setCall, if_neg hne, hat] at hc
    exact hc
  -- The call works on what it worked on, or on an identifier that nobody knows yet.
  have hown : ∀ invocationId, worksAt (u.setCall caller next) caller = some invocationId →
      worksAt s caller = some invocationId ∨
        ∃ uuid, uuid ∉ s.drawn ∧ u.drawn = uuid :: s.drawn ∧ invocationId = "inv_" ++ uuid := by
    intro invocationId hc
    rw [worksAt_setCall, if_pos rfl] at hc
    rcases worksOn_move hmove hc with hworks | ⟨uuid, he, hid⟩ | hw
    · exact Or.inl (bind_eq_some_iff.mpr ⟨call, hcall, hworks⟩)
    · rcases hdrawn with ⟨uuid', he', hfresh, hd⟩ | ⟨hne, _⟩
      · obtain rfl : uuid' = uuid := Event.insert.inj (he'.symm.trans he)
        exact Or.inr ⟨uuid', hfresh, hd, hid⟩
      · exact absurd he (hne uuid)
    · exact absurd hw (hacquire invocationId)
  have hmono : ∀ uuid ∈ s.drawn, uuid ∈ u.drawn := by
    intro uuid huuid
    rcases hdrawn with ⟨_, _, _, hd⟩ | ⟨_, hd⟩
    · rw [hd]
      exact List.mem_cons_of_mem _ huuid
    · rw [hd]
      exact huuid
  -- Nobody works on an identifier that has just been drawn.
  have hnew : ∀ c uuid, uuid ∉ s.drawn → worksAt s c ≠ some ("inv_" ++ uuid) := by
    intro c uuid hfresh hc
    obtain ⟨other, hother, hid⟩ := h.drawn c _ hc
    have hlist := congrArg String.toList hid
    rw [String.toList_append, String.toList_append] at hlist
    exact hfresh (String.toList_inj.mp (List.append_cancel_left hlist) ▸ hother)
  refine ⟨?_, ?_, ?_, ?_⟩
  · intro c invocationId hc
    by_cases hsame : c = caller
    · rw [hsame] at hc
      rcases hown invocationId hc with hworks | ⟨uuid, _, hd, hid⟩
      · obtain ⟨uuid, huuid, hid⟩ := h.drawn caller invocationId hworks
        exact ⟨uuid, hmono uuid huuid, hid⟩
      · exact ⟨uuid, hd ▸ List.mem_cons_self, hid⟩
    · obtain ⟨uuid, huuid, hid⟩ := h.drawn c invocationId (hold c invocationId hsame hc)
      exact ⟨uuid, hmono uuid huuid, hid⟩
  · have hone : ∀ c invocationId, c ≠ caller →
        worksAt (u.setCall caller next) c = some invocationId →
          worksAt (u.setCall caller next) caller = some invocationId → c = caller := by
      intro c invocationId hne hc hcaller
      have hc' := hold c invocationId hne hc
      rcases hown invocationId hcaller with hworks | ⟨uuid, hfresh, _, hid⟩
      · exact h.one c caller invocationId hc' hworks
      · rw [hid] at hc'
        exact absurd hc' (hnew c uuid hfresh)
    intro c c' invocationId hc hc'
    by_cases hsame : c = caller
    · by_cases hsame' : c' = caller
      · rw [hsame, hsame']
      · rw [hsame] at hc
        exact absurd (hone c' invocationId hsame' hc' hc) hsame'
    · by_cases hsame' : c' = caller
      · rw [hsame'] at hc'
        exact absurd (hone c invocationId hsame hc hc') hsame
      · exact h.one c c' invocationId (hold c invocationId hsame hc)
          (hold c' invocationId hsame' hc')
  · intro c invocationId hc
    show u.acquiredBy invocationId = some c
    rw [hacquired]
    rw [recoversAt_setCall] at hc
    split_ifs at hc with hsame
    · rcases recovers_move hmove hc with hrecovers | hw
      · rw [hsame]
        exact h.held caller invocationId (bind_eq_some_iff.mpr ⟨call, hcall, hrecovers⟩)
      · exact absurd hw (hacquire invocationId)
    · unfold recoversAt at hc
      rw [hu] at hc
      exact h.held c invocationId hc
  · intro invocationId c hc
    show claimed u.claims invocationId = true
    rw [hclaims]
    have hc' : u.acquiredBy invocationId = some c := hc
    rw [hacquired] at hc'
    exact h.kept invocationId c hc'

/-- The claim is taken while nobody else works on the invocation. -/
theorem sole_acquired (h : Sole s) {u : CommandState} {caller : Nat} {i : CommandInvocation}
    (halone : ∀ c, worksAt s c ≠ some i.invocationId)
    (hknown : ∃ uuid ∈ s.drawn, i.invocationId = "inv_" ++ uuid)
    (hu : u.calls = s.calls) (hdrawn : u.drawn = s.drawn)
    (hacquire : acquire s.claims s.now i.invocationId = some u.claims)
    (hacquired : u.acquiredBy = Function.update s.acquiredBy i.invocationId (some caller)) :
    Sole (u.setCall caller (.loading i)) := by
  have hworks : ∀ c, worksAt (u.setCall caller (.loading i)) c =
      if c = caller then some i.invocationId else worksAt s c := by
    intro c
    rw [worksAt_setCall]
    unfold worksAt
    rw [hu]
    rfl
  refine ⟨?_, ?_, ?_, ?_⟩
  · intro c invocationId hc
    show ∃ uuid ∈ u.drawn, invocationId = "inv_" ++ uuid
    rw [hdrawn]
    rw [hworks] at hc
    split_ifs at hc
    · rw [← some.inj hc]
      exact hknown
    · exact h.drawn c invocationId hc
  · intro c c' invocationId hc hc'
    rw [hworks] at hc hc'
    split_ifs at hc with hsame
    · split_ifs at hc' with hsame'
      · rw [hsame, hsame']
      · rw [← some.inj hc] at hc'
        exact absurd hc' (halone c')
    · split_ifs at hc' with hsame'
      · rw [← some.inj hc'] at hc
        exact absurd hc (halone c)
      · exact h.one c c' invocationId hc hc'
  · intro c invocationId hc
    show u.acquiredBy invocationId = some c
    rw [hacquired, Function.update_apply]
    rw [recoversAt_setCall] at hc
    split_ifs at hc with hsame
    · rw [hsame, if_pos (some.inj hc).symm]
    · unfold recoversAt at hc
      rw [hu] at hc
      rw [if_neg]
      · exact h.held c invocationId hc
      · intro hid
        rw [hid] at hc
        exact halone c (worksAt_of_recoversAt hc)
  · intro invocationId c hc
    show claimed u.claims invocationId = true
    have hc' : u.acquiredBy invocationId = some c := hc
    rw [hacquired, Function.update_apply] at hc'
    rw [claimed_acquire hacquire]
    split_ifs at hc' ⊢
    · rfl
    · exact h.kept invocationId c hc'

theorem sole_released (h : Sole s) {u : CommandState} {caller : Nat} {invocationId : String}
    {answer : Answer} (hcall : recoversAt s caller = some invocationId)
    (hu : u.calls = s.calls) (hdrawn : u.drawn = s.drawn)
    (hclaims : u.claims = release s.claims s.now invocationId)
    (hacquired : u.acquiredBy = if s.acquiredBy invocationId = some caller then
      Function.update s.acquiredBy invocationId none else s.acquiredBy) :
    Sole (u.setCall caller (.ended answer)) := by
  have hheld : s.acquiredBy invocationId = some caller := h.held caller invocationId hcall
  rw [if_pos hheld] at hacquired
  have hworks : ∀ c id, worksAt (u.setCall caller (.ended answer)) c = some id →
      c ≠ caller ∧ worksAt s c = some id := by
    intro c id hc
    rw [worksAt_setCall] at hc
    split_ifs at hc with hsame
    · cases hc
    · unfold worksAt at hc
      rw [hu] at hc
      exact ⟨hsame, hc⟩
  refine ⟨?_, ?_, ?_, ?_⟩
  · intro c id hc
    show ∃ uuid ∈ u.drawn, id = "inv_" ++ uuid
    rw [hdrawn]
    exact h.drawn c id (hworks c id hc).2
  · intro c c' id hc hc'
    exact h.one c c' id (hworks c id hc).2 (hworks c' id hc').2
  · intro c id hc
    show u.acquiredBy id = some c
    rw [recoversAt_setCall] at hc
    split_ifs at hc with hsame
    · cases hc
    · unfold recoversAt at hc
      rw [hu] at hc
      have hother : s.acquiredBy id = some c := h.held c id hc
      rw [hacquired, Function.update_apply, if_neg]
      · exact hother
      · intro hid
        rw [hid, hheld] at hother
        exact hsame (some.inj hother).symm
  · intro id c hc
    show claimed u.claims id = true
    have hc' : u.acquiredBy id = some c := hc
    rw [hacquired, Function.update_apply] at hc'
    rw [hclaims, claimed_release]
    split_ifs at hc' ⊢
    exact h.kept id c hc'

theorem step_sole {a : Action} (hcoherent : Coherent s) (h : Sole s) (halone : Alone s a)
    (hstep : step rt s a = some t) : Sole t := by
  cases a with
  | executeCommand caller commandIdOrAlias version key input =>
    rw [(start_eq hstep).2]
    exact sole_setCall h (worksOn_executeCommand _ _ _ _)
  | cancelCommand caller invocationId reason =>
    rw [(start_eq hstep).2]
    exact sole_setCall h (worksOn_cancelCommand _ _)
  | recoverCommand caller invocationId =>
    rw [(start_eq hstep).2]
    exact sole_setCall h (worksOn_recoverCommand _)
  | event caller e =>
    obtain ⟨call, w, next, drawn, written, hcall, hadvance, hdraw, hwrite, ht⟩ := step_event hstep
    have hmove := advance_move hadvance
    rw [ht]
    have hdrawn : drawn.calls = s.calls ∧ drawn.claims = s.claims ∧
        drawn.acquiredBy = s.acquiredBy ∧ drawn.now = s.now := by
      rcases draw_cases hdraw with ⟨_, _, _, hd⟩ | ⟨_, hd⟩
      · rw [hd]
        exact ⟨rfl, rfl, rfl, rfl⟩
      · rw [hd]
        exact ⟨rfl, rfl, rfl, rfl⟩
    obtain ⟨hcalls, hclaims, hacquired, hnow⟩ := hdrawn
    have hwritten : written.calls = s.calls := (write_calls hwrite).trans hcalls
    rcases write_claims hwrite with ⟨hc, ha, hacquire, _⟩ | ⟨id, hw, hc, ha⟩ | ⟨id, hw, hc, ha⟩
    · refine sole_plain h hcall hmove hacquire hwritten (hc.trans hclaims) (ha.trans hacquired) ?_
      rw [write_drawn hwrite]
      rcases draw_cases hdraw with ⟨uuid, he, hfresh, hd⟩ | ⟨hne, hd⟩
      · exact Or.inl ⟨uuid, he, hfresh, by rw [hd]⟩
      · exact Or.inr ⟨hne, by rw [hd]⟩
    · rw [hw] at hmove
      obtain ⟨i, hclaiming, hid, he, hlive⟩ := acquire_move hmove
      obtain rfl : drawn = s := by
        rcases draw_cases hdraw with ⟨uuid, he', _, _⟩ | ⟨_, hd⟩
        · rw [he] at he'
          cases he'
        · exact hd
      rw [hclaiming] at hcall hmove
      rw [he] at halone
      have hnext : next = .loading i := by
        cases hmove with
        | acquired => rfl
      rw [hnext]
      rw [← hid] at hlive hc ha
      obtain ⟨_, hknown⟩ := hcoherent.copies caller _ i hcall rfl
      exact sole_acquired h (halone i hcall rfl hlive) (hcoherent.drawn _ hknown) hwritten
        (write_drawn hwrite) hc ha
    · rw [hw] at hmove
      obtain ⟨hrecovers, _⟩ := release_move hmove
      have hended : ∃ answer, next = .ended answer := by
        cases hmove with
        | released => exact ⟨_, rfl⟩
      obtain ⟨answer, hnext⟩ := hended
      rw [hnext]
      rw [hclaims, hnow] at hc
      rw [hacquired] at ha
      have hsame : written.drawn = s.drawn := by
        rw [write_drawn hwrite]
        rcases draw_cases hdraw with ⟨uuid, he, _, _⟩ | ⟨_, hd⟩
        · rw [he] at hmove
          cases hmove
        · rw [hd]
      exact sole_released h (bind_eq_some_iff.mpr ⟨call, hcall, hrecovers⟩) hwritten hsame
        hc ha
  | crash caller =>
    obtain ⟨call, _, _, ht⟩ := step_crash hstep
    rw [ht]
    exact sole_setCall h rfl
  | clock now =>
    rw [← some.inj hstep]
    exact ⟨h.drawn, h.one, h.held, h.kept⟩

end Steps

/-- Over any interleaving, crashes and expired claims included: while no recoverer gets the claim
beside another call that works on the invocation, at most one call continues it, and no claim is
given up by another call. -/
theorem single_flight {rt : Runtime} {as : List Action} (h : Along (step rt) Alone initial as) :
    ∀ pre post s, as = pre ++ post → run (step rt) initial pre = some s → Exclusive s := by
  intro pre post s has hs
  rw [has] at h
  have hboth : Coherent s ∧ Sole s :=
    Along.invariant (I := fun s => Coherent s ∧ Sole s)
      (fun _ _ _ hs halone hstep => ⟨step_coherent hs.1 hstep, step_sole hs.1 hs.2 halone hstep⟩)
      h.take ⟨coherent_initial, sole_initial⟩ hs
  exact hboth.2.exclusive

def crashedExecution : List Action :=
  [.executeCommand 1 "plan" none "k" (.object []), .event 1 (.insert "u"), .event 1 (.compiled "r"),
    .crash 1, .recoverCommand 2 "inv_u"]

def recovery : List Action :=
  [.event 2 (.acquire false), .event 2 (.load (some "r") (some ("plan:inv_u", "r"))),
    .event 2 .bound, .event 2 .enter, .event 2 (.scheduled false), .event 2 .complete,
    .event 2 .release]

theorem single_flight_recovery :
    ∃ s, run (step planOnly) initial (crashedExecution ++ recovery) = some s ∧ Exclusive s := by
  have hruns : (run (step planOnly) initial (crashedExecution ++ recovery)).isSome = true := by
    decide +kernel
  obtain ⟨s, hs⟩ := isSome_iff_exists.mp hruns
  refine ⟨s, hs, single_flight ?_ _ [] s (List.append_nil _).symm hs⟩
  have hfree : ∀ as : List Action, (∀ a ∈ as, ∀ c busy, a ≠ .event c (.acquire busy)) →
      ∀ u, Along (step planOnly) Alone u as := by
    intro as hall u
    refine Along.imp (I := fun _ => True) (fun _ _ _ _ _ _ => trivial) ?_ trivial
      (Along.of_mem hall)
    intro s a _ ha
    cases a with
    | event c e =>
      cases e with
      | acquire busy => exact absurd rfl (ha c busy)
      | _ => trivial
    | _ => trivial
  apply Along.append_of
  · apply hfree
    simp [crashedExecution]
  · intro u hu
    refine ⟨?_, fun t _ => hfree _ (by simp) t⟩
    intro i _ _ _ c
    have hworks : (run (step planOnly) initial crashedExecution).all fun s =>
        worksAt s 1 = none ∧ worksAt s 2 = none := by decide +kernel
    rw [hu] at hworks
    obtain ⟨hone, htwo⟩ := of_decide_eq_true hworks
    intro hc
    by_cases hfirst : c = 1
    · rw [hfirst, hone] at hc
      cases hc
    · by_cases hsecond : c = 2
      · rw [hsecond, htwo] at hc
        cases hc
      · have hnone : u.calls c = none := by
          apply calls_of_run _ hu
          simp [crashedExecution, Action.caller?]
          exact ⟨Ne.symm hfirst, Ne.symm hsecond⟩
        unfold worksAt at hc
        rw [hnone] at hc
        cases hc

/-- A recoverer that comes for an execution that is going on. -/
def recoveredWhileRunning : List Action :=
  [.executeCommand 1 "plan" none "k" (.object []), .event 1 (.insert "u"), .event 1 (.compiled "r"),
    .event 1 .bound, .recoverCommand 2 "inv_u", .event 2 (.acquire false),
    .event 2 (.load (some "r") (some ("plan:inv_u", "r"))), .event 2 .bound, .event 2 .enter]

/-- A recoverer whose claim runs out, and ends after another has taken it. -/
def overtakenHolder : List Action :=
  crashedExecution ++ [.event 2 (.acquire false), .clock 601, .recoverCommand 3 "inv_u",
    .event 3 (.acquire false), .event 2 (.throws (.other none "crash")), .event 2 .release]

/-- Two calls continue one invocation, and a claim is given up by a call that no longer has it. -/
theorem flights_collide :
    (∃ s, run (step planOnly) initial recoveredWhileRunning = some s ∧
      insideAt s 1 = some "inv_u" ∧ insideAt s 2 = some "inv_u") ∧
    ∃ s, run (step planOnly) initial overtakenHolder = some s ∧
      s.acquiredBy "inv_u" = some 3 ∧ claimed s.claims "inv_u" = false := by
  constructor
  · have hinside : (run (step planOnly) initial recoveredWhileRunning).map (fun s =>
        (insideAt s 1, insideAt s 2)) = some (some "inv_u", some "inv_u") := by decide +kernel
    obtain ⟨s, hs, hpair⟩ := map_eq_some_iff.mp hinside
    obtain ⟨hone, htwo⟩ := Prod.mk.inj hpair
    exact ⟨s, hs, hone, htwo⟩
  · have hclaims : (run (step planOnly) initial overtakenHolder).map (fun s =>
        (s.acquiredBy "inv_u", claimed s.claims "inv_u")) = some (some 3, false) := by
      decide +kernel
    obtain ⟨s, hs, hpair⟩ := map_eq_some_iff.mp hclaims
    obtain ⟨hholder, hfree⟩ := Prod.mk.inj hpair
    exact ⟨s, hs, hholder, hfree⟩

end SingleFlight
