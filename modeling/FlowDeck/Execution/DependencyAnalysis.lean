import FlowDeck.Execution.Dependencies
import FlowDeck.Execution.Ownership
import FlowDeck.State.StateText

namespace DependencyAnalysis

open ExecutionContracts ExecutionScheduler Ownership Checked Dependencies

inductive BudgetProfile
  | small | normal | audit | deepAudit
  deriving DecidableEq

inductive ContextScope
  | owned | related | audit
  deriving DecidableEq

structure Workstream extends ExecutionWorkstream where
  runId : String
  planId : String
  resolvedAgent : String
  requiredCapability : String
  objective : String
  requirements : List String
  acceptanceCriteria : List String
  ownedPaths : List String
  ownedSymbols : List String
  strategy : String
  budgetProfile : BudgetProfile
  contextScope : ContextScope
  worktreeRef : Option String
  branchRef : Option String
  createdAt : String

structure Plan where
  planId : String
  runId : String
  routingDecisionId : String
  sourceSha : String
  policyVersion : String
  workstreams : List Workstream
  createdAt : String
  status : Option ExecutionPlanStatus
  startedAt : Option String
  completedAt : Option String

/-- What the language and the schema library give: `toLowerCase`, `localeCompare` where it is not
positive, and `datetime`. -/
structure Host where
  lowerCase : String → String
  localeNotAfter : String → String → Bool
  datetime : String → Bool

/-! ### The schema -/

def lengthWithin (least most : Nat) (text : String) : Bool :=
  let length := (CodeUnits.ofText text).length
  least ≤ length && length ≤ most

def isId (text : String) : Bool := lengthWithin 1 200 text

def isPath (text : String) : Bool := lengthWithin 1 500 text

def isSha (text : String) : Bool :=
  text.toList.length = 40 && text.toList.all fun c => c.isDigit || 'a' ≤ c && c ≤ 'f'

def arrayOf (item : String → Bool) (most : Nat) (texts : List String) : Bool :=
  texts.all item && texts.length ≤ most

def nonempty (text : String) : Bool := text ≠ ""

def executionWorkstreamSchema (H : Host) (w : Workstream) : Bool :=
  isId w.workstreamId && isId w.runId && isId w.planId && isId w.resolvedAgent &&
    isId w.requiredCapability && lengthWithin 1 5000 w.objective &&
    arrayOf nonempty 100 w.requirements && arrayOf nonempty 100 w.acceptanceCriteria &&
    arrayOf isPath 200 w.ownedPaths && arrayOf isId 200 w.ownedSymbols &&
    arrayOf isId 100 w.dependsOn && isId w.strategy && w.worktreeRef.all isId &&
    w.branchRef.all isId && w.blockedBy.all isId &&
    w.failureReason.all (lengthWithin 0 1000) && H.datetime w.createdAt

def executionPlanSchema (H : Host) (plan : Plan) : Bool :=
  isId plan.planId && isId plan.runId && isId plan.routingDecisionId && isSha plan.sourceSha &&
    isId plan.policyVersion && plan.workstreams.all (executionWorkstreamSchema H) &&
    !plan.workstreams.isEmpty && H.datetime plan.createdAt && plan.startedAt.all H.datetime &&
    plan.completedAt.all H.datetime

/-! ### Relations between workstreams -/

inductive WorkstreamRelation
  | independent | related | overlapping | duplicate | conflicting
  deriving DecidableEq

structure WorkstreamRelationDiagnostic where
  left : String
  right : String
  relation : WorkstreamRelation
  evidence : List String
  deriving DecidableEq

def trimmedLower (H : Host) (text : String) : String :=
  H.lowerCase (String.ofList (StateText.trim text.toList))

def canonical (H : Host) (values : List String) : String :=
  "|".intercalate (sortTexts (values.map (trimmedLower H)).dedup)

/-- Every element with each that comes after it, in the order of the two loops. -/
def pairs {α : Type} : List α → List (α × α)
  | [] => []
  | a :: rest => rest.map (fun b => (a, b)) ++ pairs rest

def relationOf (ownership ownershipEquivalent objective requirements acceptance : Bool) :
    WorkstreamRelation :=
  if ownership then
    if ownershipEquivalent && objective && requirements && acceptance then .duplicate
    else .overlapping
  else if objective || requirements || acceptance then .related
  else .independent

def classifyPair (H : Host) (left right : Workstream) :
    Except String WorkstreamRelationDiagnostic := do
  let ownership ← ownershipOverlaps left.ownedPaths right.ownedPaths
  let ownershipEquivalent := canonical H left.ownedPaths = canonical H right.ownedPaths
  let objective := trimmedLower H left.objective = trimmedLower H right.objective
  let requirements := canonical H left.requirements = canonical H right.requirements
  let acceptance := canonical H left.acceptanceCriteria = canonical H right.acceptanceCriteria
  pure
    { left := left.workstreamId
      right := right.workstreamId
      relation := relationOf ownership ownershipEquivalent objective requirements acceptance
      evidence :=
        (if ownership then ["ownership_overlap"] else []) ++
          (if objective then ["same_objective"] else []) ++
          (if requirements then ["same_requirements"] else []) ++
          (if acceptance then ["same_acceptance_criteria"] else []) }

def WorkstreamRelationDiagnostic.sortKey (d : WorkstreamRelationDiagnostic) : String :=
  d.left ++ ":" ++ d.right

def classifyWorkstreamRelations (H : Host) (workstreams : List Workstream) :
    Except String (List WorkstreamRelationDiagnostic) := do
  let result ← (pairs workstreams).mapM fun pair => classifyPair H pair.1 pair.2
  pure (result.insertionSort fun a b => H.localeNotAfter a.sortKey b.sortKey = true)

/-- The refusals of one pair; the relations are classified anew for each. -/
def checkPair (H : Host) (workstreams : List Workstream) (pair : Workstream × Workstream) :
    Except String Unit := do
  let relations ← classifyWorkstreamRelations H workstreams
  let relation := (relations.find? fun item =>
    item.left = pair.1.workstreamId && item.right = pair.2.workstreamId).map fun item =>
      item.relation
  if relation = some .duplicate then .error "DUPLICATE_WORKSTREAM"
  else if relation = some .overlapping then .error "OVERLAPPING_OWNERSHIP"
  else .ok ()

/-! ### Waves -/

structure ExecutionWave where
  index : Nat
  workstreamIds : List String
  deriving DecidableEq

structure DependencyDiagnostics where
  waves : List ExecutionWave
  ready : List String
  blocked : List String
  criticalPath : List String
  deriving DecidableEq

def idsOf (workstreams : List Workstream) : List String :=
  workstreams.map fun w => w.workstreamId

def depsOf (workstreams : List Workstream) (id : String) : List String :=
  ((workstreams.find? fun w => w.workstreamId = id).map fun w => w.dependsOn).getD []

def depthsOf (workstreams : List Workstream) : Except String Depths :=
  match (idsOf workstreams).forM
    (visitOne (depsOf workstreams) (workstreams.length + 1)) [] with
  | .error e _ => .error e
  | .ok _ depths => .ok depths

def waveAt (workstreams : List Workstream) (depths : Depths) (index : Nat) :
    ExecutionWave :=
  { index := index
    workstreamIds := sortTexts (idsOf (workstreams.filter fun w =>
      depths.lookup w.workstreamId = some index)) }

def wavesOf (workstreams : List Workstream) (depths : Depths) :
    List ExecutionWave :=
  ((depths.map Prod.snd).dedup.insertionSort (· ≤ ·)).map (waveAt workstreams depths)

def diagnosticsOf (H : Host) (workstreams : List Workstream) (depths : Depths) :
    DependencyDiagnostics :=
  let failed := idsOf (workstreams.filter fun w => w.status = .failed)
  let blockedByFailure (w : Workstream) : Bool := w.dependsOn.any fun d => failed.contains d
  let depth (w : Workstream) : Nat := (depths.lookup w.workstreamId).getD 0
  { waves := wavesOf workstreams depths
    ready := sortTexts (idsOf (workstreams.filter fun w =>
      (w.status = .planned || w.status = .ready) && !blockedByFailure w))
    blocked := sortTexts (idsOf (workstreams.filter blockedByFailure))
    criticalPath := idsOf (workstreams.insertionSort fun a b =>
      depth b < depth a ∨ depth a = depth b ∧
        H.localeNotAfter a.workstreamId b.workstreamId = true) }

/-- `analyzeDependencies` after the plan has passed its schema. -/
def analyzeParsed (H : Host) (workstreams : List Workstream) :
    Except String DependencyDiagnostics := do
  let ids := idsOf workstreams
  refuseIf (ids.dedup.length ≠ ids.length) "DUPLICATE_WORKSTREAM_ID"
  workstreams.forM fun w =>
    checkDependsOn (fun dep => ids.contains dep) w.workstreamId [] w.dependsOn
  (pairs workstreams).forM (checkPair H workstreams)
  let depths ← depthsOf workstreams
  pure (diagnosticsOf H workstreams depths)

/-- Why a plan is refused: it does not pass the schema, or an error with a message is thrown. -/
inductive Refusal
  | schema
  | message (text : String)
  deriving DecidableEq

def analyzeDependencies (H : Host) (plan : Plan) : Except Refusal DependencyDiagnostics :=
  if executionPlanSchema H plan then (analyzeParsed H plan.workstreams).mapError .message
  else .error .schema

end DependencyAnalysis
