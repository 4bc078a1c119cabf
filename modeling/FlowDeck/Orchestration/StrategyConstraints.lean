import FlowDeck.Orchestration.AttemptListing

/-! The strategies that are prohibited for an item while its state is unchanged, over runs of the
calls that write to the engine's rows. -/

namespace AttemptStore

open TransitionEngine

/-- What the tool boundary does with a call. -/
inductive BoundaryOutcome
  | strategySetExhausted
  | repeatedActionBlocked
  | notStarted
  | started (attempt : Attempt)
  deriving DecidableEq

def startAtBoundary (order : ScanOrder) (hasRun : Bool) (store : Store) (input : StartInput)
    (now : Nat) : Store × BoundaryOutcome :=
  match startAttempt order hasRun store input now with
  | some (store', attempt) => (store', .started attempt)
  | none => (store, .notStarted)

/-- The part of `onToolExecuteBefore` that enforces the constraints and starts the attempt; nothing
else of the process runs in between. -/
def onToolExecuteBefore (order : ScanOrder) (hasRun : Bool) (store : Store) (input : StartInput)
    (now : Nat) : Store × BoundaryOutcome :=
  match getActiveStrategyConstraints store input.runId input.assignmentId with
  | some set =>
    if set.stateFingerprint = input.preStateFingerprint then
      if set.exhausted then (store, .strategySetExhausted)
      else if set.prohibitedActionFingerprints.contains input.actionFingerprint then
        (store, .repeatedActionBlocked)
      else startAtBoundary order hasRun store input now
    else
      match clearStrategyConstraint store input.runId input.assignmentId now with
      | some cleared => startAtBoundary order hasRun cleared input now
      | none => (store, .notStarted)
  | none => startAtBoundary order hasRun store input now

/-- The calls that write to the rows; `hasRun` says whether the run has a row, which every row that
is inserted refers to. -/
inductive Operation
  | write (hasRun : Bool) (runId : String) (w : MetadataWrite) (now : Nat)
  | finalizeAttempt (input : FinalizeInput) (now : Nat)
  | onToolExecuteBefore (hasRun : Bool) (input : StartInput) (now : Nat)

/-- A write that comes through. -/
def written? (store : Store) (hasRun : Bool) (runId : String) (w : MetadataWrite) (now : Nat) :
    Option Store :=
  if hasRun then write store runId now w else none

/-- The rows after a call; a call that throws leaves them as they were. -/
def perform (order : ScanOrder) (store : Store) : Operation → Store
  | .write hasRun runId w now => (written? store hasRun runId w now).getD store
  | .finalizeAttempt input now => ((finalizeAttempt order store input now).map (·.1)).getD store
  | .onToolExecuteBefore hasRun input now =>
    (onToolExecuteBefore order hasRun store input now).1

def performAll (order : ScanOrder) (store : Store) (operations : List Operation) : Store :=
  operations.foldl (perform order) store

def Operation.offer? (runId assignmentId : String) : Operation → Option String
  | .write _ run (.saveStrategyConstraint item action _ _) _ =>
    if run = runId ∧ item = assignmentId then some action else none
  | _ => none

def offered (runId assignmentId : String) (operations : List Operation) : List String :=
  operations.filterMap (·.offer? runId assignmentId)

/-- The call returns. -/
def Operation.returns (store : Store) : Operation → Bool
  | .write hasRun runId w now => (written? store hasRun runId w now).isSome
  | _ => true

/-- The actions offered for an item by calls that returned. -/
def accepted (order : ScanOrder) (runId assignmentId : String) :
    Store → List Operation → List String
  | _, [] => []
  | store, operation :: rest =>
    (if operation.returns store then (operation.offer? runId assignmentId).toList else []) ++
      accepted order runId assignmentId (perform order store operation) rest

/-- The state of the item is the same as far as the call sees it, and nothing clears its set. -/
def Operation.Unchanged (runId assignmentId state : String) : Operation → Prop
  | .write _ run (.saveStrategyConstraint item _ fingerprint _) _ =>
    run = runId ∧ item = assignmentId → fingerprint = state
  | .write _ run (.clearStrategyConstraint item) _ => ¬(run = runId ∧ item = assignmentId)
  | .write _ _ (.markConsumedProgressAttempt _ _) _ => True
  | .finalizeAttempt _ _ => True
  | .onToolExecuteBefore _ input _ =>
    input.runId = runId ∧ input.assignmentId = assignmentId → input.preStateFingerprint = state

def firstTwenty (state : String) (actions : List String) : StrategyConstraintSet :=
  ⟨state, actions.eraseDups.take 20, decide (20 < actions.eraseDups.length)⟩

/-! ### The set -/

theorem eraseDups_concat (actions : List String) (action : String) :
    (actions ++ [action]).eraseDups =
      if action ∈ actions then actions.eraseDups else actions.eraseDups ++ [action] := by
  rw [List.eraseDups_append]
  split_ifs with hmem
  · simp [List.removeAll, hmem]
  · simp [List.removeAll, hmem, List.eraseDups_cons]

theorem constrained_none (state action : String) :
    constrained none action state = firstTwenty state [action] := by
  simp [constrained, firstTwenty, List.eraseDups_cons]

theorem constrained_filter (existing : Option StrategyConstraintSet) (action state : String) :
    constrained (existing.filter fun set => set.stateFingerprint = state) action state =
      constrained existing action state := by
  unfold constrained
  rw [Option.filter_filter]
  simp

theorem state_constrained (existing : Option StrategyConstraintSet) (action state : String) :
    (constrained existing action state).stateFingerprint = state := by
  unfold constrained
  cases hfilter : existing.filter fun set => set.stateFingerprint = state with
  | none => rfl
  | some set =>
    have hstate : set.stateFingerprint = state := by
      simpa using (Option.filter_eq_some_iff.mp hfilter).2
    dsimp only
    split_ifs
    · exact hstate
    · exact hstate
    · rfl

/-- One more offer is one more in the list that the set is made of. -/
theorem constrained_firstTwenty (state action : String) (actions : List String) :
    constrained (some (firstTwenty state actions)) action state =
      firstTwenty state (actions ++ [action]) := by
  have hsame : ((some (firstTwenty state actions)).filter fun set =>
      set.stateFingerprint = state) = some (firstTwenty state actions) := by
    simp [firstTwenty]
  have hconcat := eraseDups_concat actions action
  simp only [constrained, hsame]
  by_cases hfull : 20 < actions.eraseDups.length
  · have htake : (actions ++ [action]).eraseDups.take 20 = actions.eraseDups.take 20 := by
      rw [hconcat]
      split_ifs
      · rfl
      · rw [List.take_append_of_le_length (by omega)]
    have hlonger : 20 < (actions ++ [action]).eraseDups.length := by
      rw [hconcat]
      split_ifs
      · exact hfull
      · simp only [List.length_append]
        omega
    simp [firstTwenty, hfull, htake, hlonger]
  · have hall : actions.eraseDups.take 20 = actions.eraseDups :=
      List.take_of_length_le (by omega)
    by_cases hmem : action ∈ actions
    · rw [if_pos hmem] at hconcat
      simp [firstTwenty, hfull, hall, hconcat, hmem]
    · rw [if_neg hmem] at hconcat
      by_cases hlast : 20 ≤ actions.eraseDups.length
      · have htake : (actions.eraseDups ++ [action]).take 20 = actions.eraseDups := by
          rw [List.take_append_of_le_length hlast, hall]
        have hlonger : 20 < actions.eraseDups.length + 1 := by omega
        simp [firstTwenty, hfull, hall, hconcat, hmem, hlast, htake, hlonger]
      · have htake : (actions.eraseDups ++ [action]).take 20 = actions.eraseDups ++ [action] :=
          List.take_of_length_le (by simp only [List.length_append, List.length_singleton]; omega)
        have hshort : ¬20 < actions.eraseDups.length + 1 := by omega
        simp [firstTwenty, hfull, hall, hconcat, hmem, hlast, htake, hshort]

/-- What the offers of one state make. -/
theorem foldl_constrained (state : String) (actions : List String) :
    actions.foldl (fun set action => some (constrained set action state)) none =
      if actions = [] then none else some (firstTwenty state actions) := by
  induction actions using List.reverseRecOn with
  | nil => rfl
  | append_singleton actions action ih =>
    rw [List.foldl_append, ih]
    have hne : actions ++ [action] ≠ [] := by simp
    rw [if_neg hne]
    by_cases hnil : actions = []
    · rw [if_pos hnil, hnil]
      exact congrArg some (constrained_none state action)
    · rw [if_neg hnil]
      exact congrArg some (constrained_firstTwenty state action actions)

/-! ### The rows -/

def activeIn (store : Store) (runId assignmentId state : String) : Option StrategyConstraintSet :=
  (getActiveStrategyConstraints store runId assignmentId).filter fun set =>
    set.stateFingerprint = state

def MetadataValue.active? : MetadataValue → Option StrategyConstraintSet
  | .constraints set false => some set
  | _ => none

theorem getActive_eq (store : Store) (runId item : String) :
    getActiveStrategyConstraints store runId item =
      ((store.metadata.get? (runId, constraintKey runId item)).map (·.value)).bind
        MetadataValue.active? := by
  unfold getActiveStrategyConstraints
  cases store.metadata.get? (runId, constraintKey runId item) with
  | none => rfl
  | some row =>
    simp only [Option.bind_some, Option.map_some]
    split
    · next h => rw [h]; rfl
    · next h =>
      unfold MetadataValue.active?
      split
      · next set hset => exact absurd hset (h set)
      · rfl

theorem constraintKey_inj {runId item item' : String}
    (h : constraintKey runId item = constraintKey runId item') : item = item' := by
  unfold constraintKey at h
  exact (String.append_right_inj _).mp h

variable {order : ScanOrder} {store store' : Store} {runId item state : String}

theorem Consistent.active_put (hstore : Consistent store) {run other : String}
    {set : StrategyConstraintSet} {cleared : Bool} {now : Nat}
    (h : AttemptStore.putConstraints store run other set cleared now = some store') :
    getActiveStrategyConstraints store' runId item =
      if run = runId ∧ other = item then (if cleared then none else some set)
      else getActiveStrategyConstraints store runId item := by
  obtain ⟨metadata, hupsert, rfl⟩ := Option.map_eq_some_iff.mp h
  obtain ⟨-, -, hvalues⟩ := hstore.upsert rfl ⟨other, .inr rfl⟩ hupsert
  rw [getActive_eq, getActive_eq, hvalues]
  by_cases hsame : run = runId ∧ other = item
  · obtain ⟨rfl, rfl⟩ := hsame
    cases cleared with
    | true => simp [MetadataRow.place, MetadataValue.active?]
    | false => simp [MetadataRow.place, MetadataValue.active?]
  · rw [if_neg hsame, if_neg]
    intro heq
    obtain ⟨rfl, hkey⟩ := Prod.mk.inj heq
    exact hsame ⟨rfl, (constraintKey_inj hkey).symm⟩

theorem Consistent.active_mark (hstore : Consistent store) {run other : String} {n now : Nat}
    (h : AttemptStore.markConsumedProgressAttempt store run other n now = some store') :
    getActiveStrategyConstraints store' runId item =
      getActiveStrategyConstraints store runId item := by
  obtain ⟨metadata, hupsert, rfl⟩ := Option.map_eq_some_iff.mp h
  obtain ⟨-, -, hvalues⟩ := hstore.upsert rfl ⟨other, .inl rfl⟩ hupsert
  rw [getActive_eq, getActive_eq, hvalues, if_neg]
  intro heq
  exact consumedKey_ne_constraintKey (congrArg Prod.snd heq).symm

theorem Consistent.active_clear (hstore : Consistent store) {run other : String} {now : Nat}
    (h : AttemptStore.clearStrategyConstraint store run other now = some store') :
    getActiveStrategyConstraints store' runId item =
      if run = runId ∧ other = item then none
      else getActiveStrategyConstraints store runId item := by
  unfold AttemptStore.clearStrategyConstraint at h
  split at h
  · next hnone =>
    obtain rfl := Option.some.inj h
    split_ifs with hsame
    · obtain ⟨rfl, rfl⟩ := hsame
      exact hnone
    · rfl
  · next set hset =>
    rw [hstore.active_put h]
    simp

theorem Consistent.active_finalize (hstore : Consistent store) {input : FinalizeInput} {now : Nat}
    {result : Option Attempt}
    (h : AttemptStore.finalizeAttempt order store input now = some (store', result)) :
    getActiveStrategyConstraints store' runId item =
      getActiveStrategyConstraints store runId item := by
  obtain ⟨-, -, hframe⟩ := hstore.finalize h
  rw [getActive_eq, getActive_eq, hframe runId _ ⟨item, .inr rfl⟩]

theorem Consistent.startAttempt (hstore : Consistent store) {hasRun : Bool} {input : StartInput}
    {now : Nat} {a : Attempt}
    (h : AttemptStore.startAttempt order hasRun store input now = some (store', a)) :
    Consistent store' ∧ getActiveStrategyConstraints store' runId item =
      getActiveStrategyConstraints store runId item := by
  rcases startAttempt_cases h with ⟨rfl, -⟩ | ⟨-, -, hreserve⟩
  · exact ⟨hstore, rfl⟩
  · refine ⟨(hstore.reserve hreserve).1, ?_⟩
    obtain ⟨rfl, hmetadata, -, -⟩ := reserveAttempt_eq_some hreserve
    have hget := Table.get?_insert? hmetadata (runId, constraintKey runId item)
    rw [if_neg] at hget
    · rw [getActive_eq, getActive_eq, hget]
    · intro heq
      exact attemptKey_ne_other ⟨item, .inr rfl⟩ (congrArg Prod.snd heq)

theorem Consistent.startAtBoundary (hstore : Consistent store) (hasRun : Bool) (input : StartInput)
    (now : Nat) (runId item : String) :
    Consistent (AttemptStore.startAtBoundary order hasRun store input now).1 ∧
      getActiveStrategyConstraints (AttemptStore.startAtBoundary order hasRun store input now).1
        runId item = getActiveStrategyConstraints store runId item := by
  unfold AttemptStore.startAtBoundary
  split
  · next started attempt hstart => exact hstore.startAttempt hstart
  · exact ⟨hstore, rfl⟩

theorem Consistent.clear (hstore : Consistent store) {run other : String} {now : Nat}
    (h : AttemptStore.clearStrategyConstraint store run other now = some store') :
    Consistent store' := by
  have hwrite : AttemptStore.write store run now (.clearStrategyConstraint other) = some store' := h
  exact (hstore.write hwrite).consistent

/-- The boundary clears the set of its item when the state has changed, and leaves it otherwise. -/
theorem Consistent.onToolExecuteBefore (hstore : Consistent store) (hasRun : Bool)
    (input : StartInput) (now : Nat)
    (hstate : input.runId = runId ∧ input.assignmentId = item → input.preStateFingerprint = state) :
    Consistent (AttemptStore.onToolExecuteBefore order hasRun store input now).1 ∧
      activeIn (AttemptStore.onToolExecuteBefore order hasRun store input now).1 runId item state =
        activeIn store runId item state := by
  unfold AttemptStore.onToolExecuteBefore activeIn
  split
  · next set hset =>
    split_ifs with hsame hexhausted hcontains
    · exact ⟨hstore, rfl⟩
    · exact ⟨hstore, rfl⟩
    · obtain ⟨hconsistent, hactive⟩ := hstore.startAtBoundary hasRun input now runId item
      exact ⟨hconsistent, by rw [hactive]⟩
    · split
      · next cleared hclear =>
        obtain ⟨hconsistent, hactive⟩ :=
          (hstore.clear hclear).startAtBoundary hasRun input now runId item
        refine ⟨hconsistent, ?_⟩
        rw [hactive, hstore.active_clear hclear]
        split_ifs with hown
        · obtain ⟨hrun, hitem⟩ := hown
          have hpre := hstate ⟨hrun, hitem⟩
          rw [hrun, hitem] at hset
          rw [hpre] at hsame
          simp [hset, Option.filter, hsame]
        · rfl
      · exact ⟨hstore, rfl⟩
  · obtain ⟨hconsistent, hactive⟩ := hstore.startAtBoundary hasRun input now runId item
    exact ⟨hconsistent, by rw [hactive]⟩

theorem Consistent.perform (hstore : Consistent store) (operation : Operation) :
    Consistent (AttemptStore.perform order store operation) := by
  cases operation with
  | write hasRun run w now =>
    simp only [AttemptStore.perform]
    cases hwrite : written? store hasRun run w now with
    | none => exact hstore
    | some store' =>
      unfold written? at hwrite
      split_ifs at hwrite
      exact (hstore.write hwrite).consistent
  | finalizeAttempt input now =>
    simp only [AttemptStore.perform]
    cases hfinalize : AttemptStore.finalizeAttempt order store input now with
    | none => exact hstore
    | some result => exact (hstore.finalize hfinalize).1
  | onToolExecuteBefore hasRun input now =>
    have hstate : input.runId = input.runId ∧ input.assignmentId = input.assignmentId →
        input.preStateFingerprint = input.preStateFingerprint := fun _ => rfl
    exact (hstore.onToolExecuteBefore hasRun input now hstate).1

theorem Consistent.active_perform (hstore : Consistent store) {operation : Operation}
    (h : operation.Unchanged runId item state) :
    activeIn (AttemptStore.perform order store operation) runId item state =
      (if operation.returns store then (operation.offer? runId item).toList else []).foldl
        (fun set action => some (constrained set action state))
        (activeIn store runId item state) := by
  cases operation with
  | finalizeAttempt input now =>
    simp only [AttemptStore.perform]
    cases hfinalize : AttemptStore.finalizeAttempt order store input now with
    | none => rfl
    | some result =>
      unfold activeIn
      rw [Option.map_some, Option.getD_some, hstore.active_finalize hfinalize]
      rfl
  | onToolExecuteBefore hasRun input now => exact (hstore.onToolExecuteBefore hasRun input now h).2
  | write hasRun run w now =>
    rcases Option.eq_none_or_eq_some (written? store hasRun run w now) with hnone | ⟨store', hsome⟩
    · have hperform : AttemptStore.perform order store (.write hasRun run w now) = store := by
        simp [AttemptStore.perform, hnone]
      have hthrows : (Operation.write hasRun run w now).returns store = false := by
        simp [Operation.returns, hnone]
      rw [hperform, hthrows]
      rfl
    · have hwrite : AttemptStore.write store run now w = some store' := by
        unfold written? at hsome
        split_ifs at hsome
        exact hsome
      have hperform : AttemptStore.perform order store (.write hasRun run w now) = store' := by
        simp [AttemptStore.perform, hsome]
      have hreturns : (Operation.write hasRun run w now).returns store = true := by
        simp [Operation.returns, hsome]
      rw [hperform, if_pos hreturns]
      unfold activeIn
      cases w with
      | markConsumedProgressAttempt other n =>
        rw [hstore.active_mark hwrite]
        rfl
      | clearStrategyConstraint other =>
        rw [hstore.active_clear hwrite, if_neg h]
        rfl
      | saveStrategyConstraint other action fingerprint reason =>
        rw [hstore.active_put hwrite]
        by_cases hown : run = runId ∧ other = item
        · obtain rfl := h hown
          obtain ⟨rfl, rfl⟩ := hown
          have hstate := state_constrained (getActiveStrategyConstraints store run other) action
            fingerprint
          simp only [Operation.offer?, and_self, if_true, Option.toList_some, List.foldl_cons,
            List.foldl_nil, constrained_filter, Bool.false_eq_true, if_false]
          simp [Option.filter, hstate]
        · rw [if_neg hown]
          simp [Operation.offer?, hown]

theorem Consistent.active_performAll (hstore : Consistent store) {operations : List Operation}
    (h : ∀ operation ∈ operations, operation.Unchanged runId item state) :
    activeIn (performAll order store operations) runId item state =
      (accepted order runId item store operations).foldl
        (fun set action => some (constrained set action state))
        (activeIn store runId item state) := by
  induction operations generalizing store with
  | nil => rfl
  | cons operation rest ih =>
    have hnext : Consistent (AttemptStore.perform order store operation) :=
      hstore.perform operation
    have hfirst : activeIn (AttemptStore.perform order store operation) runId item state = _ :=
      hstore.active_perform (h operation List.mem_cons_self)
    have hrest := ih hnext fun o ho => h o (List.mem_cons_of_mem _ ho)
    unfold accepted
    rw [List.foldl_append, ← hfirst, ← hrest]
    rfl

theorem Consistent.performAll (hstore : Consistent store) (operations : List Operation) :
    Consistent (AttemptStore.performAll order store operations) := by
  induction operations generalizing store with
  | nil => exact hstore
  | cons operation rest ih => exact ih (hstore.perform operation)

theorem allowed_of_started {hasRun : Bool} {input : StartInput} {now : Nat} {a : Attempt}
    (h : (onToolExecuteBefore order hasRun store input now).2 = .started a)
    {set : StrategyConstraintSet}
    (hset : activeIn store input.runId input.assignmentId input.preStateFingerprint = some set) :
    set.exhausted = false ∧ input.actionFingerprint ∉ set.prohibitedActionFingerprints := by
  obtain ⟨hactive, hstate⟩ := Option.filter_eq_some_iff.mp hset
  unfold onToolExecuteBefore at h
  rw [hactive] at h
  simp only [decide_eq_true_eq] at hstate
  simp only [hstate, if_true] at h
  by_cases hexhausted : set.exhausted = true
  · simp [hexhausted] at h
  · by_cases hcontains : input.actionFingerprint ∈ set.prohibitedActionFingerprints
    · simp [hexhausted, hcontains] at h
    · exact ⟨by simpa using hexhausted, hcontains⟩

/-! ### Row ids -/

/-- The id of a row, as the engine composes it. -/
inductive MetadataRow.Named (row : MetadataRow) : Prop
  | attempt (item : String) (n : Nat) (hid : row.id = attemptRowId row.runId item n)
  | constraints (item : String) (hid : row.id = "meta-scs-" ++ row.runId ++ "-" ++ item)
      (hkey : row.key = constraintKey row.runId item)
  | consumed (item : String) (hid : row.id = "meta-cpa-" ++ row.runId ++ "-" ++ item)

/-- All rows are named by the engine, for runs whose ids have one length. -/
def Uniform (length : Nat) (store : Store) : Prop :=
  ∀ row ∈ store.metadata.rows, row.Named ∧ row.runId.length = length

def Operation.OfLength (length : Nat) : Operation → Prop
  | .write hasRun runId _ _ => hasRun = true ∧ runId.length = length
  | .finalizeAttempt _ _ => True
  | .onToolExecuteBefore _ input _ => input.runId.length = length

variable {length : Nat}

theorem mem_upsertRow {metadata metadata' : Table MetadataRow.place} {row r : MetadataRow}
    (h : upsertRow metadata row = some metadata') (hr : r ∈ metadata'.rows) :
    r = row ∨ ∃ old ∈ metadata.rows, old.id = r.id ∧ old.runId = r.runId ∧ old.key = r.key := by
  unfold upsertRow at h
  split at h
  · obtain rfl := Option.some.inj h
    obtain ⟨old, hold, rfl⟩ := List.mem_map.mp hr
    refine Or.inr ⟨old, hold, ?_⟩
    unfold Table.setWhere
    split_ifs
    · exact ⟨rfl, rfl, rfl⟩
    · exact ⟨rfl, rfl, rfl⟩
  · unfold insertRow at h
    split_ifs at h
    have hmem := hr
    rw [(Table.insert?_eq_some h).2] at hmem
    rcases List.mem_append.mp hmem with hold | hnew
    · exact Or.inr ⟨r, hold, rfl, rfl, rfl⟩
    · exact Or.inl (List.mem_singleton.mp hnew)

theorem MetadataRow.Named.congr {row old : MetadataRow} (h : old.Named) (hid : old.id = row.id)
    (hrun : old.runId = row.runId) (hkey : old.key = row.key) : row.Named := by
  cases h with
  | attempt item n h => exact .attempt item n (by rw [← hid, ← hrun, h])
  | constraints item h h' =>
    exact .constraints item (by rw [← hid, ← hrun, h]) (by rw [← hkey, ← hrun, h'])
  | consumed item h => exact .consumed item (by rw [← hid, ← hrun, h])

theorem Uniform.upsert (h : Uniform length store) {row : MetadataRow}
    {metadata : Table MetadataRow.place} (hnamed : row.Named) (hlength : row.runId.length = length)
    (hupsert : upsertRow store.metadata row = some metadata) :
    Uniform length ⟨metadata, store.calls⟩ := by
  intro r hr
  rcases mem_upsertRow hupsert hr with rfl | ⟨old, hold, hid, hrun, hkey⟩
  · exact ⟨hnamed, hlength⟩
  · obtain ⟨hnamed', hlength'⟩ := h old hold
    exact ⟨hnamed'.congr hid hrun hkey, hrun ▸ hlength'⟩

theorem Uniform.put (h : Uniform length store) {run other : String} {set : StrategyConstraintSet}
    {cleared : Bool} {now : Nat} (hlength : run.length = length)
    (hput : putConstraints store run other set cleared now = some store') :
    Uniform length store' := by
  obtain ⟨metadata, hupsert, rfl⟩ := Option.map_eq_some_iff.mp hput
  exact h.upsert (.constraints other rfl rfl) hlength hupsert

theorem Uniform.clear (h : Uniform length store) {run other : String} {now : Nat}
    (hlength : run.length = length)
    (hclear : clearStrategyConstraint store run other now = some store') :
    Uniform length store' := by
  unfold clearStrategyConstraint at hclear
  split at hclear
  · obtain rfl := Option.some.inj hclear
    exact h
  · exact h.put hlength hclear

theorem Uniform.startAtBoundary (h : Uniform length store) {hasRun : Bool} {input : StartInput}
    {now : Nat} (hlength : input.runId.length = length) :
    Uniform length (AttemptStore.startAtBoundary order hasRun store input now).1 := by
  unfold AttemptStore.startAtBoundary
  split
  · next started attempt hstart =>
    rcases startAttempt_cases hstart with ⟨rfl, -⟩ | ⟨-, -, hreserve⟩
    · exact h
    · obtain ⟨rfl, hmetadata, -, -⟩ := reserveAttempt_eq_some hreserve
      intro row hrow
      rw [(Table.insert?_eq_some hmetadata).2] at hrow
      rcases List.mem_append.mp hrow with hold | hnew
      · exact h row hold
      · obtain rfl := List.mem_singleton.mp hnew
        exact ⟨.attempt _ _ rfl, hlength⟩
  · exact h

theorem Uniform.onToolExecuteBefore (h : Uniform length store) {hasRun : Bool}
    {input : StartInput} {now : Nat} (hlength : input.runId.length = length) :
    Uniform length (AttemptStore.onToolExecuteBefore order hasRun store input now).1 := by
  unfold AttemptStore.onToolExecuteBefore
  split
  · split_ifs
    · exact h
    · exact h
    · exact h.startAtBoundary hlength
    · split
      · next cleared hclear => exact (h.clear hlength hclear).startAtBoundary hlength
      · exact h
  · exact h.startAtBoundary hlength

theorem Uniform.perform (h : Uniform length store) (hstore : Consistent store)
    {operation : Operation} (hlength : operation.OfLength length) :
    Uniform length (AttemptStore.perform order store operation) := by
  cases operation with
  | onToolExecuteBefore hasRun input now => exact h.onToolExecuteBefore hlength
  | finalizeAttempt input now =>
    simp only [AttemptStore.perform]
    cases hfinalize : AttemptStore.finalizeAttempt order store input now with
    | none => exact h
    | some result =>
      simp only [AttemptStore.finalizeAttempt] at hfinalize
      split at hfinalize
      · obtain rfl := Option.some.inj hfinalize
        exact h
      · next existing hexisting =>
        obtain ⟨row, hrow, ha⟩ := mem_listAttempts.mp (List.mem_of_find?_eq_some hexisting)
        obtain ⟨hmem, -⟩ := (mem_matchingRows hstore).mp hrow
        obtain ⟨hrun, -⟩ := hstore.attempt row hmem existing ha
        obtain ⟨written, hwritten, rfl⟩ := Option.map_eq_some_iff.mp hfinalize
        obtain ⟨metadata, hupsert, rfl⟩ := Option.map_eq_some_iff.mp hwritten
        refine h.upsert (.attempt _ _ rfl) ?_ hupsert
        have hown : existing.runId.length = length := hrun ▸ (h row hmem).2
        exact hown
  | write hasRun run w now =>
    simp only [AttemptStore.perform]
    cases hwritten : written? store hasRun run w now with
    | none => exact h
    | some store' =>
      unfold written? at hwritten
      split_ifs at hwritten
      cases w with
      | saveStrategyConstraint other action fingerprint reason => exact h.put hlength.2 hwritten
      | clearStrategyConstraint other => exact h.clear hlength.2 hwritten
      | markConsumedProgressAttempt other n =>
        obtain ⟨metadata, hupsert, rfl⟩ := Option.map_eq_some_iff.mp hwritten
        exact h.upsert (.consumed other rfl) hlength.2 hupsert

theorem append_inj_of_length {a b c d : String} (hlength : a.length = c.length)
    (h : a ++ b = c ++ d) : a = c ∧ b = d := by
  have htexts := congrArg String.toList h
  rw [String.toList_append, String.toList_append] at htexts
  have htextLength : a.toList.length = c.toList.length := by
    rw [String.length_toList, String.length_toList, hlength]
  obtain ⟨hfirst, hsecond⟩ := List.append_inj htexts htextLength
  exact ⟨String.toList_injective hfirst, String.toList_injective hsecond⟩

theorem MetadataRow.Named.place_eq {row : MetadataRow} (h : row.Named) {run other : String}
    (hlength : row.runId.length = run.length) (hid : row.id = "meta-scs-" ++ run ++ "-" ++ other) :
    row.place = (run, constraintKey run other) := by
  have hsplit : ∀ kind item, row.id = kind ++ row.runId ++ "-" ++ item →
      kind.length = "meta-scs-".length → kind = "meta-scs-" ∧ row.runId = run ∧ item = other := by
    intro kind item hrow hkind
    rw [hid, String.append_assoc, String.append_assoc, String.append_assoc,
      String.append_assoc] at hrow
    obtain ⟨hscs, hrest⟩ := append_inj_of_length hkind.symm hrow
    obtain ⟨hrun, hrest⟩ := append_inj_of_length hlength.symm hrest
    obtain ⟨-, hitem⟩ := append_inj_of_length rfl hrest
    exact ⟨hscs.symm, hrun.symm, hitem.symm⟩
  cases h with
  | attempt item n h =>
    have hfull : row.id = "meta-att-" ++ row.runId ++ "-" ++ (item ++ "-" ++ toString n) := by
      rw [h]
      simp only [attemptRowId, String.append_assoc]
    have hkind := (hsplit "meta-att-" _ hfull (by decide)).1
    exact absurd hkind (by decide)
  | constraints item h hkey =>
    obtain ⟨-, hrun, hitem⟩ := hsplit "meta-scs-" item h rfl
    rw [MetadataRow.place, hkey, hrun, hitem]
  | consumed item h =>
    have hkind := (hsplit "meta-cpa-" item h (by decide)).1
    exact absurd hkind (by decide)

/-- Where all run ids have one length, no offer is refused. -/
theorem Uniform.put_returns (h : Uniform length store) {run other : String}
    (hlength : run.length = length) (set : StrategyConstraintSet) (cleared : Bool) (now : Nat) :
    (putConstraints store run other set cleared now).isSome = true := by
  unfold putConstraints upsertRow
  rw [Option.isSome_map]
  split
  · rfl
  · next hnone =>
    unfold insertRow
    split_ifs with htaken
    · obtain ⟨row, hrow, hid⟩ := List.any_eq_true.mp htaken
      obtain ⟨hnamed, hrun⟩ := h row hrow
      have hplace := hnamed.place_eq (hrun.trans hlength.symm) (by simpa using hid)
      have hget := Table.get?_of_mem hrow
      rw [hplace] at hget
      have habsent : store.metadata.get? (run, constraintKey run other) = none := hnone
      rw [habsent] at hget
      cases hget
    · obtain ⟨metadata, hinsert⟩ := Table.exists_insert? hnone
      rw [hinsert]
      rfl

theorem Uniform.accepted_eq_offered (h : Uniform length store) (hstore : Consistent store)
    {operations : List Operation} (hlength : ∀ operation ∈ operations, operation.OfLength length) :
    accepted order runId item store operations = offered runId item operations := by
  induction operations generalizing store with
  | nil => rfl
  | cons operation rest ih =>
    have hop := hlength operation List.mem_cons_self
    have hhead : (if operation.returns store then (operation.offer? runId item).toList else []) =
        (operation.offer? runId item).toList := by
      cases operation with
      | finalizeAttempt input now => rfl
      | onToolExecuteBefore hasRun input now => rfl
      | write hasRun run w now =>
        cases w with
        | clearStrategyConstraint other => simp [Operation.offer?]
        | markConsumedProgressAttempt other n => simp [Operation.offer?]
        | saveStrategyConstraint other action fingerprint reason =>
          have hreturns : (Operation.write hasRun run (.saveStrategyConstraint other action
              fingerprint reason) now).returns store = true := by
            simp only [Operation.returns, written?, hop.1, if_true]
            exact h.put_returns hop.2 _ _ _
          rw [if_pos hreturns]
    have hnext : Consistent (AttemptStore.perform order store operation) :=
      hstore.perform operation
    have hrest := ih (h.perform hstore hop) hnext fun o ho =>
      hlength o (List.mem_cons_of_mem _ ho)
    unfold accepted offered
    rw [hhead, hrest, List.filterMap_cons]
    cases operation.offer? runId item with
    | none => rfl
    | some action => rfl

theorem Uniform.performAll (h : Uniform length store) (hstore : Consistent store)
    {operations : List Operation} (hlength : ∀ operation ∈ operations, operation.OfLength length) :
    Uniform length (AttemptStore.performAll order store operations) := by
  induction operations generalizing store with
  | nil => exact h
  | cons operation rest ih =>
    have hnext : Consistent (AttemptStore.perform order store operation) :=
      hstore.perform operation
    apply ih (h.perform hstore (hlength operation List.mem_cons_self)) hnext
    intro o ho
    exact hlength o (List.mem_cons_of_mem _ ho)

/-! ### The law -/

theorem Consistent.emptyStore : Consistent emptyStore where
  attempt := fun _ hrow => absurd hrow List.not_mem_nil
  other := fun _ hrow => absurd hrow List.not_mem_nil
  registered := fun _ hrow => absurd hrow List.not_mem_nil
  kept := fun _ hcall => absurd hcall List.not_mem_nil

theorem Uniform.emptyStore : Uniform length emptyStore :=
  fun _ hrow => absurd hrow List.not_mem_nil

/-- What holds of an item's set while calls are made and its state is unchanged. -/
structure StrategyLaw (order : ScanOrder) (store : Store) (runId item state : String)
    (operations : List Operation) : Prop where
  /-- The active set is made of the first twenty different actions, and exhausted by one more. -/
  exact : accepted order runId item store operations ≠ [] →
    getActiveStrategyConstraints (performAll order store operations) runId item =
      some (firstTwenty state (accepted order runId item store operations))
  /-- What is in the set stays there. -/
  kept : ∀ before after, operations = before ++ after → ∀ set,
    activeIn (performAll order store before) runId item state = some set →
      ∃ set', activeIn (performAll order store operations) runId item state = some set' ∧
        set.prohibitedActionFingerprints <+: set'.prohibitedActionFingerprints ∧
          (set.exhausted = true → set'.exhausted = true)
  /-- No attempt is started of an action that the set holds, and none once it is exhausted. -/
  guarded : ∀ before hasRun input now after,
    operations = before ++ .onToolExecuteBefore hasRun input now :: after →
      input.runId = runId → input.assignmentId = item → ∀ attempt,
        (onToolExecuteBefore order hasRun (performAll order store before) input now).2 =
            .started attempt →
          input.actionFingerprint ∉
              (accepted order runId item store before).eraseDups.take 20 ∧
            (accepted order runId item store before).eraseDups.length ≤ 20

theorem activeIn_performAll (hstore : Consistent store)
    (hfresh : activeIn store runId item state = none) {operations : List Operation}
    (h : ∀ operation ∈ operations, operation.Unchanged runId item state) :
    activeIn (performAll order store operations) runId item state =
      if accepted order runId item store operations = [] then none
      else some (firstTwenty state (accepted order runId item store operations)) := by
  rw [hstore.active_performAll h, hfresh, foldl_constrained]

theorem accepted_append (before after : List Operation) :
    accepted order runId item store (before ++ after) =
      accepted order runId item store before ++
        accepted order runId item (performAll order store before) after := by
  induction before generalizing store with
  | nil => rfl
  | cons operation before ih =>
    simp only [List.cons_append, accepted, ih, List.append_assoc]
    rfl

theorem firstTwenty_prefix (state : String) (actions more : List String) :
    (firstTwenty state actions).prohibitedActionFingerprints <+:
        (firstTwenty state (actions ++ more)).prohibitedActionFingerprints ∧
      ((firstTwenty state actions).exhausted = true →
        (firstTwenty state (actions ++ more)).exhausted = true) := by
  have hprefix : actions.eraseDups <+: (actions ++ more).eraseDups := by
    rw [List.eraseDups_append]
    exact List.prefix_append _ _
  constructor
  · exact hprefix.take 20
  · intro hfull
    have hlength := hprefix.length_le
    simp only [firstTwenty, decide_eq_true_eq] at hfull ⊢
    omega

theorem law_of_fresh (hstore : Consistent store)
    (hfresh : activeIn store runId item state = none) {operations : List Operation}
    (h : ∀ operation ∈ operations, operation.Unchanged runId item state) :
    StrategyLaw order store runId item state operations where
  exact := by
    intro hne
    have hactive : activeIn (performAll order store operations) runId item state = _ :=
      activeIn_performAll hstore hfresh h
    rw [if_neg hne] at hactive
    exact (Option.filter_eq_some_iff.mp hactive).1
  kept := by
    intro before after hsplit set hset
    have hbefore : ∀ operation ∈ before, operation.Unchanged runId item state := by
      intro operation hmem
      exact h operation (hsplit ▸ List.mem_append_left _ hmem)
    rw [activeIn_performAll hstore hfresh hbefore] at hset
    rw [activeIn_performAll hstore hfresh h]
    split_ifs at hset with hnone
    obtain rfl := Option.some.inj hset
    have hall : accepted order runId item store operations =
        accepted order runId item store before ++
          accepted order runId item (performAll order store before) after := by
      rw [hsplit]
      exact accepted_append before after
    have hne : accepted order runId item store operations ≠ [] := by
      rw [hall]
      exact List.append_ne_nil_of_left_ne_nil hnone _
    rw [if_neg hne, hall]
    exact ⟨_, rfl, firstTwenty_prefix state _ _⟩
  guarded := by
    intro before hasRun input now after hsplit hrun hitem attempt hstarted
    have hbefore : ∀ operation ∈ before, operation.Unchanged runId item state := by
      intro operation hmem
      exact h operation (hsplit ▸ List.mem_append_left _ hmem)
    have hcall : (Operation.onToolExecuteBefore hasRun input now).Unchanged runId item state :=
      h _ (hsplit ▸ by simp)
    have hpre : input.preStateFingerprint = state := hcall ⟨hrun, hitem⟩
    have hactive : activeIn (performAll order store before) runId item state = _ :=
      activeIn_performAll hstore hfresh hbefore
    by_cases hnone : accepted order runId item store before = []
    · simp [hnone]
    · rw [if_neg hnone, ← hrun, ← hitem, ← hpre] at hactive
      obtain ⟨hopen, hallowed⟩ := allowed_of_started hstarted hactive
      rw [hrun, hitem] at hopen hallowed
      refine ⟨hallowed, ?_⟩
      simpa [firstTwenty] using hopen

/-- In every run from empty tables, once an item has no active set of its present state, the offers
that follow under that state obey the law; none is refused where the ids of runs have one length. -/
theorem strategyLaw (order : ScanOrder) (earlier operations : List Operation)
    (runId item state : String)
    (hfresh : activeIn (performAll order emptyStore earlier) runId item state = none)
    (h : ∀ operation ∈ operations, operation.Unchanged runId item state) :
    StrategyLaw order (performAll order emptyStore earlier) runId item state operations ∧
      ∀ length, (∀ operation ∈ earlier ++ operations, operation.OfLength length) →
        accepted order runId item (performAll order emptyStore earlier) operations =
          offered runId item operations := by
  have hstore : Consistent (performAll order emptyStore earlier) :=
    Consistent.emptyStore.performAll earlier
  refine ⟨law_of_fresh hstore hfresh h, ?_⟩
  intro length hlength
  have huniform : Uniform length (performAll order emptyStore earlier) := by
    apply Uniform.emptyStore.performAll Consistent.emptyStore
    intro operation hmem
    exact hlength operation (List.mem_append_left _ hmem)
  apply huniform.accepted_eq_offered hstore
  intro operation hmem
  exact hlength operation (List.mem_append_right _ hmem)

def prohibit (action : String) : Operation :=
  .write true "run" (.saveStrategyConstraint "item" action "state" "repeated") 0

def useTool (action callID : String) : Operation :=
  .onToolExecuteBefore true
    { runId := "run", assignmentId := "item", callID := callID, tool := "tool"
      actionFingerprint := action, preStateFingerprint := "state", startedAt := "now" } 0

theorem two_offers_law :
    StrategyLaw (keyOrder false) emptyStore "run" "item" "state"
        [prohibit "a", useTool "b" "c1", prohibit "b", prohibit "a", useTool "b" "c2"] ∧
      ∀ length, (∀ operation ∈ [prohibit "a", useTool "b" "c1", prohibit "b", prohibit "a",
          useTool "b" "c2"], operation.OfLength length) →
        accepted (keyOrder false) "run" "item" emptyStore
            [prohibit "a", useTool "b" "c1", prohibit "b", prohibit "a", useTool "b" "c2"] =
          ["a", "b", "a"] :=
  strategyLaw (keyOrder false) []
    [prohibit "a", useTool "b" "c1", prohibit "b", prohibit "a", useTool "b" "c2"]
    "run" "item" "state" rfl (by simp [prohibit, useTool, Operation.Unchanged])

end AttemptStore
