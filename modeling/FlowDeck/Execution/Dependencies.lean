import FlowDeck.Execution.PlanRepository

namespace Dependencies

open ExecutionContracts PlanRepository Fallible

/-- The depths that the search has found so far, latest first. -/
abbrev Depths := List (String × Nat)

abbrev SearchM := EStateM String Depths

def checkDependsOn (known : String → Bool) (workstreamId : String) :
    List String → List String → Except String Unit
  | _, [] => .ok ()
  | seen, dep :: rest =>
    if dep = workstreamId then .error "SELF_DEPENDENCY"
    else if dep ∈ seen then .error "DUPLICATE_DEPENDENCY"
    else if known dep = false then .error ("UNKNOWN_DEPENDENCY:" ++ dep)
    else checkDependsOn known workstreamId (dep :: seen) rest

/-- One more than the greatest depth among the dependencies, and zero where there are none. -/
def deepest (visit : String → SearchM Nat) : List String → SearchM Nat
  | [] => pure 0
  | dep :: rest => do
    let depth ← visit dep
    let others ← deepest visit rest
    pure (max (depth + 1) others)

/-- The search below one workstream; no path is longer than there are workstreams. -/
def visit (deps : String → List String) : Nat → List String → String → SearchM Nat
  | 0, _, _ => throw "DEPENDENCY_CYCLE"
  | fuel + 1, visiting, id =>
    if id ∈ visiting then throw "DEPENDENCY_CYCLE"
    else do
      let visited ← get
      match visited.lookup id with
      | some depth => pure depth
      | none => do
        let depth ← deepest (visit deps fuel (id :: visiting)) (deps id)
        modify fun visited => (id, depth) :: visited
        pure depth

def visitOne (deps : String → List String) (fuel : Nat) (id : String) : SearchM PUnit := do
  let _ ← visit deps fuel [] id
  pure ⟨⟩

def visitAll (plan : ExecutionPlan) : SearchM PUnit :=
  (plan.workstreams.rows.map fun w => w.workstreamId).forM
    (visitOne plan.depsOf (plan.workstreams.rows.length + 1))

def checkAll (plan : ExecutionPlan) : List ExecutionWorkstream → Except String Unit
  | [] => .ok ()
  | w :: rest =>
    match checkDependsOn (fun dep => (plan.workstreams.get? dep).isSome) w.workstreamId []
      w.dependsOn with
    | .error e => .error e
    | .ok () => checkAll plan rest

/-- `analyzeDependencies`, but for the relations between what its workstreams own: the depth of
every workstream. -/
def analyzeDependencies (plan : ExecutionPlan) : Except String Depths :=
  match checkAll plan plan.workstreams.rows with
  | .error e => .error e
  | .ok () =>
    match visitAll plan [] with
    | .error e _ => .error e
    | .ok _ depths => .ok depths

/-- What has a depth depends only on what has a lesser one. -/
def Ranked (deps : String → List String) (visited : Depths) : Prop :=
  ∀ id depth, (id, depth) ∈ visited → ∀ d ∈ deps id, ∃ less < depth, (d, less) ∈ visited

/-- What a search leaves: more depths than before, that of its own workstream among them. -/
structure Found (deps : String → List String) (visited visited' : Depths) (id : String)
    (depth : Nat) : Prop where
  ranked : Ranked deps visited'
  grows : ∀ entry ∈ visited, entry ∈ visited'
  found : (id, depth) ∈ visited'

variable {deps : String → List String}

theorem mem_of_lookup {visited : Depths} {id : String} {depth : Nat}
    (h : visited.lookup id = some depth) : (id, depth) ∈ visited := by
  induction visited with
  | nil => cases h
  | cons entry visited ih =>
    rw [List.lookup_cons] at h
    cases hid : id == entry.1 with
    | true =>
      rw [hid] at h
      obtain rfl := Option.some.inj h
      obtain rfl := eq_of_beq hid
      exact List.mem_cons_self
    | false =>
      rw [hid] at h
      exact List.mem_cons_of_mem _ (ih h)

theorem deepest_spec {search : String → SearchM Nat}
    (hsearch : ∀ id visited visited' depth, search id visited = .ok depth visited' →
      Ranked deps visited → Found deps visited visited' id depth)
    {ids : List String} {visited visited' : Depths} {depth : Nat}
    (hok : deepest search ids visited = .ok depth visited') (hranked : Ranked deps visited) :
    Ranked deps visited' ∧ (∀ entry ∈ visited, entry ∈ visited') ∧
      ∀ id ∈ ids, ∃ less < depth, (id, less) ∈ visited' := by
  induction ids generalizing visited visited' depth with
  | nil =>
    obtain ⟨_, rfl⟩ := pure_eq_ok_iff.mp hok
    refine ⟨hranked, fun _ h => h, ?_⟩
    intro id hid
    exact absurd hid List.not_mem_nil
  | cons id ids ih =>
    obtain ⟨first, mid, hfirst, hrest⟩ := bind_eq_ok_iff.mp hok
    obtain ⟨others, last, hothers, hpure⟩ := bind_eq_ok_iff.mp hrest
    obtain ⟨rfl, rfl⟩ := pure_eq_ok_iff.mp hpure
    have hone := hsearch id visited mid first hfirst hranked
    obtain ⟨hranked', hgrows, hall⟩ := ih hothers hone.ranked
    refine ⟨hranked', fun entry h => hgrows entry (hone.grows entry h), ?_⟩
    intro other hmem
    rcases List.mem_cons.mp hmem with rfl | hmem
    · exact ⟨first, by omega, hgrows _ hone.found⟩
    · obtain ⟨less, hless, hfound⟩ := hall other hmem
      exact ⟨less, by omega, hfound⟩

/-- A search that ends finds a depth above those of all dependencies. -/
theorem visit_spec {fuel : Nat} {visiting : List String} {id : String}
    {visited visited' : Depths} {depth : Nat}
    (hok : visit deps fuel visiting id visited = .ok depth visited')
    (hranked : Ranked deps visited) : Found deps visited visited' id depth := by
  induction fuel generalizing visiting id visited visited' depth with
  | zero => cases hok
  | succ fuel ih =>
    unfold visit at hok
    split_ifs at hok with hcycle
    · cases hok
    · obtain ⟨seen, before, hget, hrest⟩ := bind_eq_ok_iff.mp hok
      obtain ⟨rfl, rfl⟩ := EStateM.Result.ok.inj hget
      cases hlookup : visited.lookup id with
      | some known =>
        rw [hlookup] at hrest
        obtain ⟨rfl, rfl⟩ := pure_eq_ok_iff.mp hrest
        exact ⟨hranked, fun _ h => h, mem_of_lookup hlookup⟩
      | none =>
        rw [hlookup] at hrest
        obtain ⟨below, mid, hdeepest, hpush⟩ := bind_eq_ok_iff.mp hrest
        obtain ⟨_, last, hmodify, hpure⟩ := bind_eq_ok_iff.mp hpush
        obtain ⟨rfl, rfl⟩ := pure_eq_ok_iff.mp hpure
        obtain ⟨_, rfl⟩ := EStateM.Result.ok.inj hmodify
        obtain ⟨hmid, hgrows, hall⟩ := deepest_spec (fun _ _ _ _ => ih) hdeepest hranked
        refine ⟨?_, fun entry h => List.mem_cons_of_mem _ (hgrows entry h), List.mem_cons_self⟩
        intro other otherDepth hmem d hd
        rcases List.mem_cons.mp hmem with hsame | hmem
        · obtain ⟨rfl, rfl⟩ := Prod.mk.inj hsame
          obtain ⟨less, hless, hfound⟩ := hall d hd
          exact ⟨less, hless, List.mem_cons_of_mem _ hfound⟩
        · obtain ⟨less, hless, hfound⟩ := hmid other otherDepth hmem d hd
          exact ⟨less, hless, List.mem_cons_of_mem _ hfound⟩

theorem visitAll_spec {ids : List String} {fuel : Nat} {visited visited' : Depths}
    (hok : ids.forM (visitOne deps fuel) visited = .ok ⟨⟩ visited') (hranked : Ranked deps visited) :
    Ranked deps visited' ∧ (∀ entry ∈ visited, entry ∈ visited') ∧
      ∀ id ∈ ids, ∃ depth, (id, depth) ∈ visited' := by
  induction ids generalizing visited with
  | nil =>
    obtain rfl := forM_nil_eq_ok_iff.mp hok
    refine ⟨hranked, fun _ h => h, ?_⟩
    intro id hid
    exact absurd hid List.not_mem_nil
  | cons id ids ih =>
    obtain ⟨mid, hfirst, hrest⟩ := forM_cons_eq_ok_iff.mp hok
    obtain ⟨depth, last, hvisit, hpure⟩ := bind_eq_ok_iff.mp hfirst
    obtain ⟨_, rfl⟩ := pure_eq_ok_iff.mp hpure
    have hone := visit_spec hvisit hranked
    obtain ⟨hranked', hgrows, hall⟩ := ih hrest hone.ranked
    refine ⟨hranked', fun entry h => hgrows entry (hone.grows entry h), ?_⟩
    intro other hmem
    rcases List.mem_cons.mp hmem with rfl | hmem
    · exact ⟨depth, hgrows _ hone.found⟩
    · exact hall other hmem

end Dependencies
