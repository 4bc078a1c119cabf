import FlowDeck.Execution.RunReady
import FlowDeck.Library.InsertionMap
import FlowDeck.Library.Machine
import FlowDeck.State.StateText
import Mathlib.Data.Rat.Cast.Defs

namespace SpecialistPlanner

open Checked ExecutionScheduler Fallible

inductive ExecutionClass
  | fastDirect | specialist | parallelSpecialists | standard | deep
  deriving DecidableEq

inductive SpecialistDomain
  | debug | security | ui | backend | devops | release | review | architecture
  deriving DecidableEq

def SpecialistDomain.text : SpecialistDomain → String
  | .debug => "DEBUG"
  | .security => "SECURITY"
  | .ui => "UI"
  | .backend => "BACKEND"
  | .devops => "DEVOPS"
  | .release => "RELEASE"
  | .review => "REVIEW"
  | .architecture => "ARCHITECTURE"

inductive ExecutionMode
  | direct | singleSpecialist | multiSpecialist
  deriving DecidableEq

def executionModeForClass : ExecutionClass → ExecutionMode
  | .specialist => .singleSpecialist
  | .parallelSpecialists => .multiSpecialist
  | .fastDirect => .direct
  | .standard => .direct
  | .deep => .multiSpecialist

inductive SpecialistPriority
  | low | normal | high
  deriving DecidableEq

/-- A number of the language. -/
inductive Number
  | finite (value : ℚ)
  | infinity (negative : Bool)
  | nan
  deriving DecidableEq

def Number.isInteger : Number → Bool
  | .finite value => value.den = 1
  | _ => false

def Number.lt : Number → ℚ → Bool
  | .finite value, bound => value < bound
  | .infinity negative, _ => negative
  | .nan, _ => false

def Number.gt : Number → ℚ → Bool
  | .finite value, bound => bound < value
  | .infinity negative, _ => !negative
  | .nan, _ => false

/-- The elements that `slice` from the start to a positive integer takes. -/
def Number.count : Number → Nat
  | .finite value => value.num.toNat
  | _ => 0

inductive AgentMode
  | primary | subagent
  deriving DecidableEq

inductive DelegationPolicy
  | none | justifiedOnly
  deriving DecidableEq

structure CanonicalAgentEntry where
  mode : AgentMode
  allowedTools : List String
  modelPolicy : String
  delegationPolicy : DelegationPolicy
  maxDelegationDepth : Nat
  deriving DecidableEq

/-- The registry of agents, and what the platform gives: `toLowerCase`, `localeCompare` where it is
not positive, and the hexadecimal digest of a text. -/
structure Host where
  getCanonicalAgent : String → Option CanonicalAgentEntry
  lowerCase : String → String
  localeNotAfter : String → String → Bool
  sha256 : String → String

structure SpecialistSpec where
  specialistId : String
  capability : SpecialistDomain
  role : String
  targetAgent : String
  objective : String
  scope : List String
  expectedEvidence : List String
  allowedTools : Option (List String)
  dependsOn : List String
  required : Bool
  priority : SpecialistPriority
  parentRunId : String
  modelPolicy : String
  deriving DecidableEq

structure SpecialistPlan where
  version : String
  runId : String
  executionMode : ExecutionMode
  reasonCode : String
  specs : List SpecialistSpec
  deduplicated : Nat
  fanoutBlocked : Nat
  rejectedReason : Option String
  deriving DecidableEq

structure SpecialistPlanningPolicy where
  maxSpecialists : Option Number
  allowRecursiveDelegation : Option Bool

structure SpecialistCandidate where
  id : Option String
  capability : SpecialistDomain
  targetAgent : String
  objective : Option String
  scope : Option (List String)
  dependsOn : Option (List String)
  required : Option Bool
  priority : Option SpecialistPriority

structure RouterDecision where
  executionClass : ExecutionClass
  executionMode : Option ExecutionMode
  specialists : Option (List SpecialistDomain)
  suggestedAgents : Option (List String)
  reasonCode : String

structure RepoMasterAdvice where
  scope : List String
  architecturalConstraints : List String

structure SpecialistPlannerInput where
  runId : String
  goal : String
  decision : RouterDecision
  candidates : Option (List SpecialistCandidate)
  policy : Option SpecialistPlanningPolicy
  callerDepth : Option Number
  repositoryAdvice : Option RepoMasterAdvice

/-! ### Texts -/

def trim (text : String) : String := String.ofList (StateText.trim text.toList)

/-- Every run of white space as one space. -/
def collapse : List Char → List Char
  | [] => []
  | [c] => if StateText.isSpace c then [' '] else [c]
  | c :: d :: rest =>
    if StateText.isSpace c then
      if StateText.isSpace d then collapse (d :: rest) else ' ' :: collapse (d :: rest)
    else c :: collapse (d :: rest)

/-- The characters that lie within a count of code units; half a pair at the cut is left out. -/
def takeUnits : Nat → List Char → List Char
  | _, [] => []
  | units, c :: rest =>
    let size := (CodeUnits.ofChar c).length
    if size ≤ units then c :: takeUnits (units - size) rest else []

def compactGoal (goal : String) : String :=
  let normalized := StateText.trim (collapse goal.toList)
  if (CodeUnits.ofText (String.ofList normalized)).length ≤ 500 then String.ofList normalized
  else String.ofList (takeUnits 497 normalized) ++ "..."

def stableId (H : Host) (input : String) : String :=
  String.ofList ((H.sha256 input).toList.take 24)

/-! ### The dependency graph -/

def idsOf (specs : List SpecialistSpec) : List String := specs.map fun spec => spec.specialistId

def depsOf (specs : List SpecialistSpec) (id : String) : List String :=
  ((specs.find? fun spec => spec.specialistId = id).map fun spec => spec.dependsOn).getD []

def checkDependsOn (known : String → Bool) (specialistId : String) :
    List String → List String → Except String Unit
  | _, [] => .ok ()
  | seen, dependency :: rest =>
    if dependency = specialistId then .error "SPECIALIST_SELF_DEPENDENCY"
    else if dependency ∈ seen then .error "SPECIALIST_DUPLICATE_DEPENDENCY"
    else if known dependency = false then .error "SPECIALIST_UNKNOWN_DEPENDENCY"
    else checkDependsOn known specialistId (dependency :: seen) rest

/-- What the search has visited, latest first. -/
abbrev SearchM := EStateM String (List String)

/-- The search below one specialist; no path is longer than there are specialists. -/
def visit (deps : String → List String) : Nat → List String → String → SearchM PUnit
  | 0, _, _ => throw "SPECIALIST_DEPENDENCY_CYCLE"
  | fuel + 1, visiting, id =>
    if id ∈ visiting then throw "SPECIALIST_DEPENDENCY_CYCLE"
    else do
      let visited ← get
      if id ∈ visited then pure ⟨⟩
      else do
        (deps id).forM (visit deps fuel (id :: visiting))
        modify fun visited => id :: visited

def visitAll (specs : List SpecialistSpec) : SearchM PUnit :=
  (idsOf specs).forM (visit (depsOf specs) (specs.length + 1) [])

def validateDependencyGraph (specs : List SpecialistSpec) : Except String Unit := do
  refuseIf ((idsOf specs).dedup.length ≠ specs.length) "SPECIALIST_DUPLICATE_ID"
  specs.forM fun spec =>
    checkDependsOn (fun dependency => (idsOf specs).contains dependency) spec.specialistId []
      spec.dependsOn
  match visitAll specs [] with
  | .error e _ => .error e
  | .ok _ _ => .ok ()

/-! ### The plan -/

def asCanonicalSubagent (H : Host) (targetAgent : String) : Except String CanonicalAgentEntry :=
  match H.getCanonicalAgent targetAgent with
  | none => .error "SPECIALIST_TARGET_AGENT_INVALID"
  | some agent =>
    if agent.mode ≠ .subagent then .error "SPECIALIST_TARGET_AGENT_INVALID"
    else if agent.modelPolicy ≠ "inherit" then .error "SPECIALIST_MODEL_POLICY_INVALID"
    else if agent.delegationPolicy ≠ .none ∨ agent.maxDelegationDepth ≠ 0 then
      .error "SPECIALIST_RECURSIVE_DELEGATION_DENIED"
    else .ok agent

def candidateFor (H : Host) (decision : RouterDecision) (goal : String)
    (repositoryAdvice : Option RepoMasterAdvice) (capability : SpecialistDomain)
    (targetAgent : String) : SpecialistCandidate :=
  let lower := H.lowerCase capability.text
  let repositoryScope := (repositoryAdvice.map fun advice => advice.scope.take 4).getD []
  let constraint := (repositoryAdvice.map fun advice =>
    " ".intercalate (advice.architecturalConstraints.take 1)).getD ""
  { id := some (lower ++ "-" ++ targetAgent)
    capability := capability
    targetAgent := targetAgent
    objective := some ("Provide focused " ++ lower ++ " evidence for: " ++ compactGoal goal ++
      if constraint ≠ "" then " Constraint: " ++ constraint else "")
    scope := some (lower :: repositoryScope)
    dependsOn := some
      (if decision.reasonCode = "MULTI_DEEP_MIGRATION" ∧ capability = .review then
        ["architecture-architect"]
      else [])
    required := some true
    priority := some .normal }

def candidatesFromDecision (H : Host) (decision : RouterDecision) (goal : String)
    (repositoryAdvice : Option RepoMasterAdvice) : List SpecialistCandidate :=
  let agents := decision.suggestedAgents.getD []
  (decision.specialists.getD []).zipIdx.filterMap fun (capability, index) =>
    match agents[index]? with
    | none => none
    | some targetAgent =>
      if targetAgent = "" then none
      else some (candidateFor H decision goal repositoryAdvice capability targetAgent)

def planMode (decision : RouterDecision) : ExecutionMode :=
  decision.executionMode.getD (executionModeForClass decision.executionClass)

def scopeOf (H : Host) (candidate : SpecialistCandidate) : List String :=
  let values := candidate.scope.getD [H.lowerCase candidate.capability.text]
  sortTexts ((values.map fun value => H.lowerCase (trim value)).filter (· ≠ "")).dedup

def identityOf (targetAgent : String) (capability : SpecialistDomain) (scope : List String) :
    String :=
  targetAgent ++ ":" ++ capability.text ++ ":" ++ ",".intercalate scope

/-- The candidates by identity, each with its scope, and how many repeat one before them. -/
def deduplicate (H : Host) : InsertionMap String SpecialistCandidate × Nat →
    List SpecialistCandidate → InsertionMap String SpecialistCandidate × Nat
  | found, [] => found
  | (unique, deduplicated), candidate :: rest =>
    let scope := scopeOf H candidate
    let identity := identityOf candidate.targetAgent candidate.capability scope
    if (unique.get? identity).isSome then deduplicate H (unique, deduplicated + 1) rest
    else deduplicate H (unique.set identity { candidate with scope := some scope }, deduplicated)
      rest

def agentCapability (candidate : SpecialistCandidate) : String :=
  candidate.targetAgent ++ ":" ++ candidate.capability.text

def specOf (H : Host) (input : SpecialistPlannerInput) (candidate : SpecialistCandidate)
    (index : Nat) : Except String SpecialistSpec := do
  let agent ← asCanonicalSubagent H candidate.targetAgent
  let lower := H.lowerCase candidate.capability.text
  let objective := trim (candidate.objective.getD
    ("Provide focused " ++ lower ++ " evidence for: " ++ compactGoal input.goal))
  refuseIf (objective = "") "SPECIALIST_OBJECTIVE_EMPTY"
  let given := (candidate.id.map trim).getD ""
  pure
    { specialistId :=
        if given ≠ "" then given
        else "spec-" ++ stableId H (input.runId ++ ":" ++ candidate.targetAgent ++ ":" ++
          candidate.capability.text ++ ":" ++ "|".intercalate (candidate.scope.getD []) ++ ":" ++
          toString index)
      capability := candidate.capability
      role := lower ++ "-specialist"
      targetAgent := candidate.targetAgent
      objective := objective
      scope := candidate.scope.getD [lower]
      expectedEvidence := ["objective_result", "scope_evidence"]
      allowedTools := some (sortTexts agent.allowedTools)
      dependsOn := sortTexts (candidate.dependsOn.getD []).dedup
      required := candidate.required ≠ some false
      priority := candidate.priority.getD .normal
      parentRunId := input.runId
      modelPolicy := "inherit" }

def specialistPlanVersion : String := "1.0.0"

def defaultMaxSpecialists : Number := .finite 3

def SpecialistPlannerInput.maxSpecialists (input : SpecialistPlannerInput) : Number :=
  (input.policy.bind fun policy => policy.maxSpecialists).getD defaultMaxSpecialists

def SpecialistPlannerInput.allowRecursiveDelegation (input : SpecialistPlannerInput) : Bool :=
  input.policy.any fun policy => policy.allowRecursiveDelegation = some true

def planOf (input : SpecialistPlannerInput) (specs : List SpecialistSpec)
    (deduplicated fanoutBlocked : Nat) (rejectedReason : Option String) : SpecialistPlan :=
  { version := specialistPlanVersion
    runId := input.runId
    executionMode := planMode input.decision
    reasonCode := input.decision.reasonCode
    specs := specs
    deduplicated := deduplicated
    fanoutBlocked := fanoutBlocked
    rejectedReason := rejectedReason }

def buildSpecialistPlan (H : Host) (input : SpecialistPlannerInput) :
    Except String SpecialistPlan := do
  let executionMode := planMode input.decision
  let maxSpecialists := input.maxSpecialists
  refuseIf (maxSpecialists.isInteger = false ∨ maxSpecialists.lt 1 = true)
    "SPECIALIST_FANOUT_POLICY_INVALID"
  refuseIf ((input.callerDepth.getD (.finite 0)).gt 0 = true ∨ input.allowRecursiveDelegation = true)
    "SPECIALIST_RECURSIVE_DELEGATION_DENIED"
  refuseIf (trim input.runId = "") "SPECIALIST_PARENT_RUN_REQUIRED"
  refuseIf (trim input.goal = "") "SPECIALIST_OBJECTIVE_EMPTY"
  if executionMode = .direct then pure (planOf input [] 0 0 none)
  else do
    let rawCandidates := input.candidates.getD
      (candidatesFromDecision H input.decision input.goal input.repositoryAdvice)
    let (unique, deduplicated) := deduplicate H (.empty, 0) rawCandidates
    let selected := unique.values.insertionSort fun a b =>
      H.localeNotAfter (agentCapability a) (agentCapability b) = true
    let allowed := selected.take maxSpecialists.count
    let fanoutBlocked := selected.length - allowed.length
    let specs ← allowed.zipIdx.mapM fun (candidate, index) => specOf H input candidate index
    if executionMode = .singleSpecialist ∧ specs.length ≠ 1 then
      pure (planOf input [] deduplicated fanoutBlocked (some "SPECIALIST_CAPABILITY_UNRESOLVED"))
    else if executionMode = .multiSpecialist ∧ specs.length < 2 then
      pure (planOf input [] deduplicated fanoutBlocked
        (some "MULTI_SPECIALIST_CAPABILITIES_UNRESOLVED"))
    else do
      validateDependencyGraph specs
      pure (planOf input specs deduplicated fanoutBlocked none)

def readySpecialistSpecs (plan : SpecialistPlan) (settledSpecialistIds : List String) :
    List SpecialistSpec :=
  plan.specs.filter fun spec =>
    spec.dependsOn.all fun dependency => settledSpecialistIds.contains dependency

def checkSpec (H : Host) (plan : SpecialistPlan) (spec : SpecialistSpec) : Except String Unit := do
  refuseIf (trim spec.objective = "") "SPECIALIST_OBJECTIVE_EMPTY"
  refuseIf (spec.parentRunId ≠ plan.runId) "SPECIALIST_CROSS_RUN_FORBIDDEN"
  refuseIf (spec.modelPolicy ≠ "inherit") "SPECIALIST_MODEL_POLICY_INVALID"
  let agent ← asCanonicalSubagent H spec.targetAgent
  match spec.allowedTools with
  | none => .ok ()
  | some tools =>
    refuseIf (sortTexts tools ≠ sortTexts agent.allowedTools) "SPECIALIST_ALLOWED_TOOLS_INVALID"

def assertValidSpecialistPlan (H : Host) (plan : SpecialistPlan) : Except String Unit := do
  refuseIf (trim plan.runId = "") "SPECIALIST_PARENT_RUN_REQUIRED"
  refuseIf (plan.executionMode = .direct ∧ plan.specs ≠ []) "DIRECT_MODE_SPECIALIST_FORBIDDEN"
  plan.specs.forM (checkSpec H plan)
  validateDependencyGraph plan.specs

def settle (plan : SpecialistPlan) (settled : List String) (id : String) : Option (List String) :=
  if id ∉ settled ∧ id ∈ idsOf (readySpecialistSpecs plan settled) then some (id :: settled)
  else none

/-! ### The search for a cycle -/

open Relation Topological

/-- What a search leaves when it ends: all that was visited and all it was asked for, still in
order, and nothing of what it is below. -/
structure Visited (deps : String → List String) (visiting visited visited' ids : List String) :
    Prop where
  ordered : Ordered (fun a b => b ∈ deps a) visited'
  grows : ∀ id ∈ visited, id ∈ visited'
  found : ∀ id ∈ ids, id ∈ visited'
  untouched : ∀ id ∈ visiting, id ∈ visited' → id ∈ visited

variable {deps : String → List String} {visiting visited visited' ids : List String}

theorem visited_of_forM {search : String → SearchM PUnit}
    (hsearch : ∀ id v v', search id v = .ok ⟨⟩ v' → Ordered (fun a b => b ∈ deps a) v →
      Visited deps visiting v v' [id])
    (hok : ids.forM search visited = .ok ⟨⟩ visited')
    (hordered : Ordered (fun a b => b ∈ deps a) visited) :
    Visited deps visiting visited visited' ids := by
  induction ids generalizing visited with
  | nil =>
    obtain rfl := forM_nil_eq_ok_iff.mp hok
    refine ⟨hordered, fun _ h => h, ?_, fun _ _ h => h⟩
    intro id hid
    exact absurd hid List.not_mem_nil
  | cons id ids ih =>
    obtain ⟨mid, hfirst, hrest⟩ := forM_cons_eq_ok_iff.mp hok
    have hone := hsearch id visited mid hfirst hordered
    have hothers := ih hrest hone.ordered
    refine ⟨hothers.ordered, fun x hx => hothers.grows x (hone.grows x hx), ?_, ?_⟩
    · intro x hx
      rcases List.mem_cons.mp hx with rfl | hx
      · exact hothers.grows x (hone.found x List.mem_cons_self)
      · exact hothers.found x hx
    · intro x hx hmem
      exact hone.untouched x hx (hothers.untouched x hx hmem)

theorem visited_of_visit {fuel : Nat} {id : String}
    (hok : visit deps fuel visiting id visited = .ok ⟨⟩ visited')
    (hordered : Ordered (fun a b => b ∈ deps a) visited) :
    Visited deps visiting visited visited' [id] := by
  induction fuel generalizing visiting id visited visited' with
  | zero => cases hok
  | succ fuel ih =>
    unfold visit at hok
    split_ifs at hok with hcycle
    · cases hok
    · obtain ⟨seen, before, hget, hrest⟩ := bind_eq_ok_iff.mp hok
      obtain ⟨rfl, rfl⟩ := EStateM.Result.ok.inj hget
      by_cases hseen : id ∈ visited
      · rw [if_pos hseen] at hrest
        obtain ⟨_, rfl⟩ := pure_eq_ok_iff.mp hrest
        refine ⟨hordered, fun _ h => h, ?_, fun _ _ h => h⟩
        intro x hx
        rw [List.mem_singleton.mp hx]
        exact hseen
      · rw [if_neg hseen] at hrest
        obtain ⟨_, mid, hbelow, hmodify⟩ := bind_eq_ok_iff.mp hrest
        obtain ⟨_, rfl⟩ := EStateM.Result.ok.inj hmodify
        have hmid := visited_of_forM (fun _ _ _ => ih) hbelow hordered
        have hnew : id ∉ mid := fun hmem => hseen (hmid.untouched id List.mem_cons_self hmem)
        refine ⟨.cons hnew hmid.found hmid.ordered, ?_, ?_, ?_⟩
        · intro x hx
          exact List.mem_cons_of_mem _ (hmid.grows x hx)
        · intro x hx
          rw [List.mem_singleton.mp hx]
          exact List.mem_cons_self
        · intro x hx hmem
          rcases List.mem_cons.mp hmem with rfl | hmem
          · exact absurd hx hcycle
          · exact hmid.untouched x (List.mem_cons_of_mem _ hx) hmem

theorem exists_forM {search : String → SearchM PUnit}
    (hsearch : ∀ id ∈ ids, ∀ v, ∃ v', search id v = .ok ⟨⟩ v') (visited : List String) :
    ∃ visited', ids.forM search visited = .ok ⟨⟩ visited' := by
  induction ids generalizing visited with
  | nil => exact ⟨visited, rfl⟩
  | cons id ids ih =>
    obtain ⟨mid, hfirst⟩ := hsearch id List.mem_cons_self visited
    obtain ⟨last, hrest⟩ := ih (fun x hx => hsearch x (List.mem_cons_of_mem _ hx)) mid
    exact ⟨last, forM_cons_eq_ok_iff.mpr ⟨mid, hfirst, hrest⟩⟩

/-- Where nothing leads back to itself the search ends: what it is below are different specialists,
so that there is always one more step than it can need. -/
theorem exists_visit {known : List String} (hknown : ∀ id ∈ known, ∀ d ∈ deps id, d ∈ known)
    (hacyclic : ∀ id, ¬TransGen (fun a b => b ∈ deps a) id id) {fuel : Nat} {id : String}
    (hid : id ∈ known)
    (habove : ∀ x ∈ visiting, x ∈ known ∧ TransGen (fun a b => b ∈ deps a) x id)
    (hnodup : visiting.Nodup) (hfuel : known.length < visiting.length + fuel)
    (visited : List String) : ∃ visited', visit deps fuel visiting id visited = .ok ⟨⟩ visited' := by
  induction fuel generalizing visiting id visited with
  | zero =>
    have hle : visiting.length ≤ known.length :=
      (List.subperm_of_subset hnodup fun x hx => (habove x hx).1).length_le
    omega
  | succ fuel ih =>
    have hnew : id ∉ visiting := fun hmem => hacyclic id (habove id hmem).2
    unfold visit
    rw [if_neg hnew]
    by_cases hseen : id ∈ visited
    · refine ⟨visited, ?_⟩
      apply bind_eq_ok_iff.mpr
      refine ⟨visited, visited, rfl, ?_⟩
      rw [if_pos hseen]
      rfl
    · have hbelow : ∀ d ∈ deps id, ∀ v, ∃ v', visit deps fuel (id :: visiting) d v = .ok ⟨⟩ v' := by
        intro d hd v
        apply ih (hknown id hid d hd)
        · intro x hx
          rcases List.mem_cons.mp hx with rfl | hx
          · exact ⟨hid, .single hd⟩
          · exact ⟨(habove x hx).1, .tail (habove x hx).2 hd⟩
        · exact List.nodup_cons.mpr ⟨hnew, hnodup⟩
        · simp only [List.length_cons]
          omega
      obtain ⟨mid, hmid⟩ := exists_forM hbelow visited
      refine ⟨id :: mid, ?_⟩
      apply bind_eq_ok_iff.mpr
      refine ⟨visited, visited, rfl, ?_⟩
      rw [if_neg hseen]
      apply bind_eq_ok_iff.mpr
      exact ⟨⟨⟩, mid, hmid, rfl⟩

/-! ### What the graph check accepts -/

variable {H : Host} {input : SpecialistPlannerInput} {specs : List SpecialistSpec}
  {plan : SpecialistPlan}

def DependsOn (specs : List SpecialistSpec) (id d : String) : Prop :=
  ∃ spec ∈ specs, spec.specialistId = id ∧ d ∈ spec.dependsOn

/-- Specialists of different ids that depend only on one another, and never around in a cycle. -/
structure WellFormed (specs : List SpecialistSpec) : Prop where
  distinct : (idsOf specs).Nodup
  once : ∀ spec ∈ specs, spec.dependsOn.Nodup
  closed : ∀ spec ∈ specs, ∀ d ∈ spec.dependsOn, d ∈ idsOf specs
  acyclic : ∀ id, ¬TransGen (DependsOn specs) id id

theorem checkDependsOn_eq_ok_iff {known : String → Bool} {id : String} {seen : List String} :
    checkDependsOn known id seen ids = .ok () ↔
      ids.Nodup ∧ ∀ d ∈ ids, d ≠ id ∧ d ∉ seen ∧ known d = true := by
  induction ids generalizing seen with
  | nil => simp [checkDependsOn]
  | cons dependency rest ih =>
    unfold checkDependsOn
    rw [guard_eq_ok, guard_eq_ok, guard_eq_ok, ih, List.nodup_cons, List.forall_mem_cons]
    simp only [List.mem_cons, not_or, Bool.not_eq_false]
    constructor
    · intro ⟨hself, hseen, hknown, hnodup, hrest⟩
      refine ⟨⟨fun hmem => (hrest dependency hmem).2.1.1 rfl, hnodup⟩, ⟨hself, hseen, hknown⟩, ?_⟩
      intro d hd
      exact ⟨(hrest d hd).1, (hrest d hd).2.1.2, (hrest d hd).2.2⟩
    · intro ⟨⟨hnew, hnodup⟩, ⟨hself, hseen, hknown⟩, hrest⟩
      refine ⟨hself, hseen, hknown, hnodup, ?_⟩
      intro d hd
      have hne : d ≠ dependency := by
        intro heq
        rw [heq] at hd
        exact hnew hd
      exact ⟨(hrest d hd).1, ⟨hne, (hrest d hd).2.1⟩, (hrest d hd).2.2⟩

theorem mem_depsOf_iff (hdistinct : (idsOf specs).Nodup) {id d : String} :
    d ∈ depsOf specs id ↔ DependsOn specs id d := by
  unfold depsOf DependsOn
  cases hfind : specs.find? fun spec => spec.specialistId = id with
  | none =>
    have hnone := List.find?_eq_none.mp hfind
    constructor
    · intro hd
      simp at hd
    · intro ⟨spec, hspec, hid, _⟩
      have hne := hnone spec hspec
      simp [hid] at hne
  | some found =>
    have hfound : found.specialistId = id := by simpa using List.find?_some hfind
    have hmem := List.mem_of_find?_eq_some hfind
    constructor
    · intro hd
      exact ⟨found, hmem, hfound, by simpa using hd⟩
    · intro ⟨spec, hspec, hid, hd⟩
      have hsame : found = spec :=
        List.inj_on_of_nodup_map hdistinct hmem hspec (hfound.trans hid.symm)
      rw [hsame]
      simpa using hd

theorem checkAll_eq_ok_iff {u : Unit} :
    (specs.forM fun spec => checkDependsOn (fun dependency => (idsOf specs).contains dependency)
      spec.specialistId [] spec.dependsOn) = .ok u ↔
      ∀ spec ∈ specs, spec.dependsOn.Nodup ∧
        ∀ d ∈ spec.dependsOn, d ≠ spec.specialistId ∧ d ∈ idsOf specs := by
  cases u
  rw [forM_eq_ok]
  simp [checkDependsOn_eq_ok_iff]

/-- The search ends for all the specialists where no dependency leads back. -/
theorem exists_visitAll_iff (hdistinct : (idsOf specs).Nodup)
    (hclosed : ∀ spec ∈ specs, ∀ d ∈ spec.dependsOn, d ∈ idsOf specs) :
    (∃ visited, visitAll specs [] = .ok ⟨⟩ visited) ↔
      ∀ id, ¬TransGen (DependsOn specs) id id := by
  have hdeps : (fun a b => b ∈ depsOf specs a) = DependsOn specs := by
    funext a b
    exact propext (mem_depsOf_iff hdistinct)
  rw [← hdeps]
  constructor
  · intro ⟨visited, hok⟩ id hcycle
    have hall : Visited (depsOf specs) [] [] visited (idsOf specs) :=
      visited_of_forM (fun _ _ _ => visited_of_visit) hok .nil
    have hid : id ∈ idsOf specs := by
      obtain ⟨d, hneed, _⟩ := TransGen.head'_iff.mp hcycle
      obtain ⟨spec, hspec, rfl, _⟩ := (mem_depsOf_iff hdistinct).mp hneed
      exact List.mem_map_of_mem hspec
    exact hall.ordered.acyclic (hall.found id hid) hcycle
  · intro hacyclic
    have hknown : ∀ id ∈ idsOf specs, ∀ d ∈ depsOf specs id, d ∈ idsOf specs := by
      intro id _ d hd
      obtain ⟨spec, hspec, _, hdep⟩ := (mem_depsOf_iff hdistinct).mp hd
      exact hclosed spec hspec d hdep
    apply exists_forM
    intro id hid v
    apply exists_visit hknown hacyclic hid
    · intro x hx
      exact absurd hx List.not_mem_nil
    · exact List.nodup_nil
    · simp [idsOf]

theorem length_dedup_idsOf_iff :
    (idsOf specs).dedup.length = specs.length ↔ (idsOf specs).Nodup := by
  have hids : (idsOf specs).length = specs.length := List.length_map _
  rw [← hids]
  constructor
  · intro hlength
    exact List.dedup_eq_self.mp ((List.dedup_sublist _).eq_of_length hlength)
  · intro hnodup
    rw [List.dedup_eq_self.mpr hnodup]

theorem validateDependencyGraph_eq_ok_iff {u : Unit} :
    validateDependencyGraph specs = .ok u ↔ WellFormed specs := by
  unfold validateDependencyGraph
  simp only [bind_eq_ok, refuseIf_eq_ok, ne_eq, not_not, length_dedup_idsOf_iff, checkAll_eq_ok_iff]
  constructor
  · intro h
    obtain ⟨_, hdistinct, _, hchecks, hvisit⟩ := h
    have hclosed : ∀ spec ∈ specs, ∀ d ∈ spec.dependsOn, d ∈ idsOf specs :=
      fun spec hspec d hd => ((hchecks spec hspec).2 d hd).2
    refine ⟨hdistinct, fun spec hspec => (hchecks spec hspec).1, hclosed, ?_⟩
    apply (exists_visitAll_iff hdistinct hclosed).mp
    split at hvisit
    · cases hvisit
    · next visited hok => exact ⟨visited, hok⟩
  · intro h
    obtain ⟨visited, hvisit⟩ := (exists_visitAll_iff h.distinct h.closed).mpr h.acyclic
    refine ⟨(), h.distinct, (), ?_, by rw [hvisit]⟩
    intro spec hspec
    refine ⟨h.once spec hspec, fun d hd => ⟨?_, h.closed spec hspec d hd⟩⟩
    rintro rfl
    exact h.acyclic _ (.single ⟨spec, hspec, rfl, hd⟩)

/-! ### Settling -/

/-- Where all is settled whose dependencies are, no specialist is left out. -/
theorem all_settled_of_stuck (h : WellFormed plan.specs) {settled : List String}
    (hstuck : ∀ id, settle plan settled id = none) : ∀ id ∈ idsOf plan.specs, id ∈ settled := by
  by_contra hleft
  push Not at hleft
  obtain ⟨id, hid, hopen⟩ := hleft
  have hfinite : {x | x ∈ idsOf plan.specs ∧ x ∉ settled}.Finite :=
    (List.finite_toSet (idsOf plan.specs)).subset fun x hx => hx.1
  obtain ⟨least, hleast, hnone⟩ := Halting.exists_least hfinite ⟨id, hid, hopen⟩ h.acyclic
  obtain ⟨spec, hspec, rfl⟩ := List.mem_map.mp hleast.1
  have hready : spec ∈ readySpecialistSpecs plan settled := by
    apply List.mem_filter.mpr
    refine ⟨hspec, ?_⟩
    simp only [List.all_eq_true, List.contains_iff_mem]
    intro d hd
    by_contra hmissing
    exact hnone d ⟨h.closed spec hspec d hd, hmissing⟩ ⟨spec, hspec, rfl, hd⟩
  have hnot := hstuck spec.specialistId
  unfold settle at hnot
  rw [if_pos ⟨hleast.2, List.mem_map_of_mem hready⟩] at hnot
  cases hnot

theorem settle_eq_some_iff {settled settled' : List String} {id : String} :
    settle plan settled id = some settled' ↔
      (id ∉ settled ∧ id ∈ idsOf (readySpecialistSpecs plan settled)) ∧ id :: settled = settled' := by
  unfold settle
  split_ifs with h
  · simp [h]
  · simp [h]

theorem settled_of_run {order settled : List String}
    (hrun : Machine.run (settle plan) [] order = some settled) :
    settled = order.reverse ∧ settled.Nodup ∧ ∀ id ∈ settled, id ∈ idsOf plan.specs := by
  induction order using List.reverseRecOn generalizing settled with
  | nil =>
    obtain rfl := Option.some.inj hrun
    simp
  | append_singleton order id ih =>
    obtain ⟨before, hbefore, hlast⟩ := Machine.run_append_eq_some.mp hrun
    obtain ⟨after, hstep, hnil⟩ := Machine.run_cons_eq_some.mp hlast
    obtain rfl := Option.some.inj hnil
    obtain ⟨⟨hnew, hready⟩, rfl⟩ := settle_eq_some_iff.mp hstep
    obtain ⟨rfl, hnodup, hall⟩ := ih hbefore
    obtain ⟨spec, hspec, rfl⟩ := List.mem_map.mp hready
    refine ⟨by simp, List.nodup_cons.mpr ⟨hnew, hnodup⟩, ?_⟩
    intro x hx
    rcases List.mem_cons.mp hx with rfl | hx
    · exact List.mem_map_of_mem (List.mem_of_mem_filter hspec)
    · exact hall x hx

/-! ### Deduplication and the bound on fan-out -/

def candidateIdentity (candidate : SpecialistCandidate) : String :=
  identityOf candidate.targetAgent candidate.capability (candidate.scope.getD [])

def specIdentity (spec : SpecialistSpec) : String :=
  identityOf spec.targetAgent spec.capability spec.scope

/-- Candidates that have their scopes, each once, under their identities. -/
structure Keyed (unique : InsertionMap String SpecialistCandidate) : Prop where
  distinct : unique.Distinct
  key : ∀ entry ∈ unique.entries, candidateIdentity entry.2 = entry.1
  hasScope : ∀ entry ∈ unique.entries, entry.2.scope.isSome = true

theorem Keyed.nodup {unique : InsertionMap String SpecialistCandidate} (h : Keyed unique) :
    (unique.values.map candidateIdentity).Nodup := by
  have hkeys : unique.values.map candidateIdentity = unique.entries.map Prod.fst := by
    rw [InsertionMap.values, List.map_map]
    exact List.map_congr_left h.key
  rw [hkeys]
  exact h.distinct

theorem keyed_deduplicate {found : InsertionMap String SpecialistCandidate × Nat}
    {candidates : List SpecialistCandidate} (h : Keyed found.1) :
    Keyed (deduplicate H found candidates).1 := by
  induction candidates generalizing found with
  | nil => exact h
  | cons candidate rest ih =>
    unfold deduplicate
    dsimp only
    split_ifs with hrepeats
    · exact ih h
    · apply ih
      refine ⟨h.distinct.set _ _, ?_, ?_⟩
      · intro entry hentry
        rcases InsertionMap.mem_replace hentry with rfl | hold
        · rfl
        · exact h.key entry hold
      · intro entry hentry
        rcases InsertionMap.mem_replace hentry with rfl | hold
        · rfl
        · exact h.hasScope entry hold

theorem keyed_empty : Keyed .empty :=
  ⟨InsertionMap.distinct_empty, fun _ h => absurd h List.not_mem_nil,
    fun _ h => absurd h List.not_mem_nil⟩

theorem specOf_identity {candidate : SpecialistCandidate} {index : Nat} {spec : SpecialistSpec}
    (hspec : specOf H input candidate index = .ok spec) (hscope : candidate.scope.isSome = true) :
    specIdentity spec = candidateIdentity candidate := by
  obtain ⟨scope, hsome⟩ := Option.isSome_iff_exists.mp hscope
  unfold specOf at hspec
  simp only [bind_eq_ok, pure_eq_ok] at hspec
  obtain ⟨_, _, _, _, rfl⟩ := hspec
  simp [specIdentity, candidateIdentity, hsome]

theorem specs_identities {allowed : List SpecialistCandidate}
    (hscope : ∀ candidate ∈ allowed, candidate.scope.isSome = true)
    (hspecs : (allowed.zipIdx.mapM fun (candidate, index) => specOf H input candidate index) =
      .ok specs) : specs.map specIdentity = allowed.map candidateIdentity := by
  have hentries : specs.map specIdentity =
      allowed.zipIdx.map (candidateIdentity ∘ Prod.fst) := by
    apply map_eq_of_mapM_eq_ok hspecs
    intro entry hentry spec hspec
    exact specOf_identity hspec (hscope entry.1 (List.fst_mem_of_mem_zipIdx hentry))
  rw [hentries, ← List.map_map, List.zipIdx_map_fst]

theorem specs_of_allowed {unique : InsertionMap String SpecialistCandidate} (h : Keyed unique)
    {limit : Nat} {after : SpecialistCandidate → SpecialistCandidate → Bool}
    (hspecs : (((unique.values.insertionSort fun a b => after a b = true).take limit).zipIdx.mapM
      fun (candidate, index) => specOf H input candidate index) = .ok specs) :
    specs.length ≤ limit ∧ (specs.map specIdentity).Nodup := by
  have hsorted := List.perm_insertionSort (fun a b => after a b = true) unique.values
  have hcut := List.take_sublist limit (unique.values.insertionSort fun a b => after a b = true)
  have hscope : ∀ candidate ∈ (unique.values.insertionSort fun a b => after a b = true).take limit,
      candidate.scope.isSome = true := by
    intro candidate hcandidate
    obtain ⟨entry, hentry, rfl⟩ := List.mem_map.mp (hsorted.mem_iff.mp (hcut.subset hcandidate))
    exact h.hasScope entry hentry
  have hidentities := specs_identities hscope hspecs
  constructor
  · have hlength := congrArg List.length hidentities
    simp only [List.length_map, List.length_take] at hlength
    omega
  · rw [hidentities]
    exact (hcut.map candidateIdentity).nodup ((hsorted.map candidateIdentity).nodup_iff.mpr h.nodup)

theorem wellFormed_nil : WellFormed [] where
  distinct := List.nodup_nil
  once := fun _ h => absurd h List.not_mem_nil
  closed := fun _ h => absurd h List.not_mem_nil
  acyclic := by
    intro id hcycle
    obtain ⟨_, ⟨spec, hspec, _⟩, _⟩ := TransGen.head'_iff.mp hcycle
    exact absurd hspec List.not_mem_nil

/-- What holds of the specialists of every plan that is built. -/
structure Bounded (limit : Nat) (specs : List SpecialistSpec) : Prop where
  fanout : specs.length ≤ limit
  identities : (specs.map specIdentity).Nodup
  wellFormed : WellFormed specs

theorem bounded_nil (limit : Nat) : Bounded limit [] :=
  ⟨Nat.zero_le _, List.nodup_nil, wellFormed_nil⟩

theorem bounded_of_build (h : buildSpecialistPlan H input = .ok plan) :
    Bounded input.maxSpecialists.count plan.specs := by
  unfold buildSpecialistPlan at h
  simp only [bind_eq_ok, refuseIf_eq_ok] at h
  obtain ⟨_, _, _, _, _, _, _, _, hplan⟩ := h
  split_ifs at hplan with hdirect
  · obtain rfl := pure_eq_ok.mp hplan
    exact bounded_nil _
  · simp only [bind_eq_ok] at hplan
    obtain ⟨specs, hspecs, hplan⟩ := hplan
    split_ifs at hplan with hsingle hmulti
    · obtain rfl := pure_eq_ok.mp hplan
      exact bounded_nil _
    · obtain rfl := pure_eq_ok.mp hplan
      exact bounded_nil _
    · obtain ⟨_, hgraph, hplan⟩ := bind_eq_ok.mp hplan
      obtain rfl := pure_eq_ok.mp hplan
      obtain ⟨hfanout, hidentities⟩ := specs_of_allowed (keyed_deduplicate keyed_empty) hspecs
      exact ⟨hfanout, hidentities, validateDependencyGraph_eq_ok_iff.mp hgraph⟩

theorem Number.eq_count {n : Number} (hinteger : n.isInteger = true) (hleast : ¬n.lt 1 = true) :
    n = .finite n.count := by
  cases n with
  | finite value =>
    have hden : value.den = 1 := by simpa [Number.isInteger] using hinteger
    have hpos : 1 ≤ value := by simpa [Number.lt, not_lt] using hleast
    have hzero : (0 : ℚ) ≤ 1 := by decide
    have hnum : 0 ≤ value.num := Rat.num_nonneg.mpr (hzero.trans hpos)
    have hvalue : ((value.num.toNat : Int) : ℚ) = value := by
      rw [Int.toNat_of_nonneg hnum]
      exact Rat.coe_int_num_of_den_eq_one hden
    rw [Int.cast_natCast] at hvalue
    exact congrArg Number.finite hvalue.symm
  | infinity negative => cases hinteger
  | nan => cases hinteger

theorem limit_of_build (h : buildSpecialistPlan H input = .ok plan) :
    input.maxSpecialists = .finite input.maxSpecialists.count := by
  unfold buildSpecialistPlan at h
  obtain ⟨_, hpolicy, _⟩ := bind_eq_ok.mp h
  simp only [refuseIf_eq_ok, not_or, Bool.not_eq_false] at hpolicy
  exact Number.eq_count hpolicy.1 hpolicy.2

theorem buildSpecialistPlan_spec (h : buildSpecialistPlan H input = .ok plan) :
    (∃ limit : Nat, input.maxSpecialists = .finite limit ∧ plan.specs.length ≤ limit) ∧
      plan.specs.Pairwise (fun a b =>
        ¬(a.targetAgent = b.targetAgent ∧ a.capability = b.capability ∧ a.scope = b.scope)) ∧
      WellFormed plan.specs ∧
      ∀ order settled, Machine.run (settle plan) [] order = some settled →
        order.length ≤ plan.specs.length ∧
          ((∀ id, settle plan settled id = none) →
            ∀ spec ∈ plan.specs, spec.specialistId ∈ settled) := by
  have hbounded := bounded_of_build h
  refine ⟨⟨_, limit_of_build h, hbounded.fanout⟩, ?_, hbounded.wellFormed, ?_⟩
  · apply (List.pairwise_map.mp hbounded.identities).imp
    intro a b hne hsame
    apply hne
    rw [specIdentity, specIdentity, hsame.1, hsame.2.1, hsame.2.2]
  · intro order settled hrun
    obtain ⟨hsettled, hnodup, hall⟩ := settled_of_run hrun
    constructor
    · have hle : settled.length ≤ (idsOf plan.specs).length :=
        (List.subperm_of_subset hnodup hall).length_le
      rw [hsettled, List.length_reverse, idsOf, List.length_map] at hle
      exact hle
    · intro hstuck spec hspec
      exact all_settled_of_stuck hbounded.wellFormed hstuck _ (List.mem_map_of_mem hspec)

/-- Two native subagents, and letters of ASCII. -/
def plainHost : Host where
  getCanonicalAgent := fun id =>
    if id = "backend-coder" ∨ id = "reviewer" then
      some
        { mode := .subagent
          allowedTools := ["read", "grep"]
          modelPolicy := "inherit"
          delegationPolicy := .none
          maxDelegationDepth := 0 }
    else none
  lowerCase := fun text => String.ofList (text.toList.map Char.toLower)
  localeNotAfter := CodeUnits.notAfter
  sha256 := fun _ => "9f86d081884c7d659a2feaa0c55ad015a3bf4f1b2b0b822cd15d6c15b0f00a08"

def candidateOf (id : String) (capability : SpecialistDomain) (targetAgent : String)
    (scope dependsOn : List String) : SpecialistCandidate :=
  { id := some id
    capability := capability
    targetAgent := targetAgent
    objective := none
    scope := some scope
    dependsOn := some dependsOn
    required := none
    priority := none }

/-- A review that waits for a schema; the schema is named twice, and a third candidate is too many. -/
def migrationInput : SpecialistPlannerInput :=
  { runId := "run-1"
    goal := "Move the schema"
    decision :=
      { executionClass := .parallelSpecialists
        executionMode := none
        specialists := none
        suggestedAgents := none
        reasonCode := "MULTI_DEEP_MIGRATION" }
    candidates := some
      [candidateOf "review" .review "reviewer" ["schema"] ["schema"],
        candidateOf "schema" .backend "backend-coder" ["schema"] [],
        candidateOf "again" .backend "backend-coder" [" Schema "] [],
        candidateOf "style" .review "reviewer" ["style"] []]
    policy := some { maxSpecialists := some (.finite 2), allowRecursiveDelegation := none }
    callerDepth := none
    repositoryAdvice := none }

def migrationPlan : SpecialistPlan :=
  (buildSpecialistPlan plainHost migrationInput).toOption.getD (planOf migrationInput [] 0 0 none)

theorem migrationPlan_settled :
    (migrationPlan.deduplicated = 1 ∧ migrationPlan.fanoutBlocked = 1 ∧
      Machine.run (settle migrationPlan) [] ["schema", "review"] = some ["review", "schema"]) ∧
      (∃ limit : Nat, migrationInput.maxSpecialists = .finite limit ∧
        migrationPlan.specs.length ≤ limit) ∧
      migrationPlan.specs.Pairwise (fun a b =>
        ¬(a.targetAgent = b.targetAgent ∧ a.capability = b.capability ∧ a.scope = b.scope)) ∧
      WellFormed migrationPlan.specs ∧
      ∀ order settled, Machine.run (settle migrationPlan) [] order = some settled →
        order.length ≤ migrationPlan.specs.length ∧
          ((∀ id, settle migrationPlan settled id = none) →
            ∀ spec ∈ migrationPlan.specs, spec.specialistId ∈ settled) :=
  ⟨by decide +kernel,
    buildSpecialistPlan_spec (by decide +kernel :
      buildSpecialistPlan plainHost migrationInput = .ok migrationPlan)⟩

end SpecialistPlanner
