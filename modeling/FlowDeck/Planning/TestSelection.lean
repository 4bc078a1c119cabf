import FlowDeck.Planning.ImpactedPackages
import FlowDeck.Verification.OutputBound

/-! The tests that are selected on evidence: by the mapping edges of the affected targets, and as
impacted targets themselves. -/

namespace TestSelection

open CheckDiscovery (TestDiscoveryIssue)

open CheckResolution ImpactEdges ImpactTraversal EvidenceModel ImpactedPackages MappingScopes
  PolicyStore ProviderState RunArtifact Worklist

/-! ### What discovery and the mapping queries leave in doubt -/

def issueReason (issue : TestDiscoveryIssue) : UncertaintyReason :=
  if issue.kind = "dynamic_config" then .dynamicConfigExpression issue.message
  else .buildLimitReached ("Test discovery " ++ issue.kind ++ ": " ++ issue.message)

def discoveryReasons (inventory : TestInventory) : List UncertaintyReason :=
  (if inventory.truncated then
    [.buildLimitReached "Test discovery reached maximum bounded test limit"] else []) ++
  (if inventory.fallback.truncated then
    [.buildLimitReached "Fallback test inventory reached maximum boundary limit"] else []) ++
  inventory.state.issues.map issueReason

def mappingReasons (mapping : TestMappingResolution) : List UncertaintyReason :=
  (if mapping.truncated then
    [.buildLimitReached "Test mapping edges reached maximum limit"] else []) ++
  mapping.errors.map fun err => .graphCorrupt ("Test mapping query error: " ++ err)

/-- The scopes that an issue at a path may hide tests of. -/
def issueScopes (i : PlanInputs) (path : String) : List String :=
  match containingPackages? i.snapshot path with
  | some pkgs => pkgs
  | none =>
    if packagesAround i path = [] then
      match Paths.parent? path with
      | some parent => if parent = "" then [] else fallbackScopeIdsForDir i parent
      | none => []
    else packagesAround i path

/-! ### The mapping edges -/

structure DirectSelection where
  checks : InsertionMap String PlannedCheck
  selected : List String
  perPackage : InsertionMap String Nat
  staleMapping : InsertionMap String String
  uncertainties : List UncertaintyReason

def changeKeys (change : SemanticChange) : List String :=
  [change.file, "file:" ++ change.file] ++
    match change.symbol with
    | some symbol =>
      ["sym:" ++ change.file ++ ":" ++ symbol, change.file ++ ":" ++ symbol]
    | none => []

def normalizeTarget (target : String) : String := (stripPrefix? "file:" target).getD target

def affectedTargetKeys (i : PlanInputs) : List String :=
  (i.changes.flatMap changeKeys ++
    i.impact.impacted.flatMap fun imp => [imp.target, normalizeTarget imp.target]).foldl insertOnce []

def testFile (edge : TestMappingEdge) : String := normalizeTarget edge.testNode

def edgeCheckId (edge : TestMappingEdge) : String :=
  if startsWith "test:" edge.testNode then edge.testNode
  else "test:" ++ (if endsWith ".rs" (testFile edge) then "cargo" else "npm") ++ ":" ++ testFile edge

def owningScope (i : PlanInputs) (edge : TestMappingEdge) : String :=
  ((i.inventory.tests.find? fun test =>
    test.canonicalPath = testFile edge || test.stableId = edge.testNode).bind
      (·.owningPackageId)).getD "repo"

/-- What is wrong with an edge: how it makes the mapping of its scope stale, and what is doubtful of
it. -/
def edgeIssue? (i : PlanInputs) (key : String) (edge : TestMappingEdge) :
    Option (String × UncertaintyReason) :=
  let scope := owningScope i edge
  let provider := i.providers.find? fun p => p.identity.providerId = edge.providerId
  let language := (languageOfFile? (testFile edge)).or (languageOfFile? key)
  let forEdge := "Provider " ++ edge.providerId ++ " for edge in scope " ++ scope
  match evaluateEdgeCompatibility edge provider scope language with
  | .compatible => none
  | .missingProvider =>
    some ("Missing provider state for edge " ++ edge.providerId,
      .providerMissing ("Provider " ++ edge.providerId ++
        " not found in state for edge in scope " ++ scope))
  | .providerUnavailable =>
    some (forEdge ++ " is " ++ ((provider.map fun p => healthDebug p.health).getD ""),
      .providerFailed (forEdge ++ " failed"))
  | .providerStale =>
    some (forEdge ++ " is " ++ ((provider.map fun p => freshnessDebug p.freshness).getD ""),
      .providerStale (forEdge ++ " is stale"))
  | .scopeMismatch =>
    some ("Provider " ++ edge.providerId ++ " scope does not cover " ++ scope,
      .providerStale ("Provider " ++ edge.providerId ++ " scope does not cover " ++ scope))
  | .languageMismatch =>
    some ("Provider " ++ edge.providerId ++ " does not cover language for scope " ++ scope,
      .providerStale ("Provider " ++ edge.providerId ++ " does not cover language in scope " ++ scope))
  | .edgeStale =>
    some ("Test mapping edge " ++ edge.providerId ++ " for " ++ key ++ " is stale",
      .providerStale ("Test mapping edge " ++ edge.providerId ++ " for " ++ key ++ " in scope " ++
        scope ++ " is stale"))
  | .fingerprintMissing =>
    some ("Missing fingerprint on edge " ++ edge.providerId ++ " for " ++ key,
      .providerStale ("Provider " ++ edge.providerId ++ " missing fingerprint on edge in scope " ++
        scope))
  | .fingerprintMismatch =>
    some ("Fingerprint mismatch on edge " ++ edge.providerId ++ " (edge fp: " ++
        i.fingerprintDebug edge.providerFingerprint ++ ", provider fp: " ++
        ((provider.map fun p => p.fingerprint.digest).getD "") ++ ")",
      .providerStale ("Provider " ++ edge.providerId ++ " fingerprint mismatch on edge in scope " ++
        scope))

def edgeStep (edge : TestMappingEdge) : EvidenceStep where
  fromNode := edge.testNode
  edgeKind := edge.kind
  toNode := edge.targetNode
  provider := edge.providerId
  strength := edge.strength
  description := some ("test mapping via " ++ edge.providerId)

def edgePath (key : String) (edge : TestMappingEdge) : EvidencePath where
  changeId := key
  seedNode := key
  targetNode := edge.testNode
  steps := [edgeStep edge]
  pathStrength := edge.strength
  explanation := renderPathExplanation edge.testNode key [edgeStep edge]

def edgeRef (edge : TestMappingEdge) (compatible : Bool) : CheckEvidenceRef where
  evidenceId := edge.evidenceId
  provider := edge.provider
  providerId := edge.providerId
  providerFingerprint := edge.providerFingerprint
  sourceIdentity := edge.sourceIdentity
  strength := edge.strength
  stale := !compatible || edge.stale

def edgeCheck (i : PlanInputs) (key : String) (edge : TestMappingEdge) : PlannedCheck where
  checkId := edgeCheckId edge
  displayName := testFile edge
  kind := if containsText (testFile edge) "/tests/" || containsText (testFile edge) "tests/" then
    .integrationTest else .unitTest
  scope := owningScope i edge
  reason := "tests impacted target " ++ key
  selection := .evidence
  strength := edge.strength
  evidence := i.evidenceText (some (edgePath key edge)) [edgeRef edge (edgeIssue? i key edge).isNone]
  wideningReason := none
  mandatory := false

def countUp (counts : InsertionMap String Nat) (scope : String) : InsertionMap String Nat :=
  counts.set scope ((counts.get? scope).getD 0 + 1)

def DirectSelection.select (s : DirectSelection) (check : PlannedCheck) : DirectSelection :=
  { s with
    checks := s.checks.set check.checkId check
    selected := insertOnce s.selected check.checkId }

def selectEdge (i : PlanInputs) (key : String) (s : DirectSelection) (edge : TestMappingEdge) :
    DirectSelection :=
  let s := s.select (edgeCheck i key edge)
  match edgeIssue? i key edge with
  | none => { s with perPackage := countUp s.perPackage (owningScope i edge) }
  | some issue =>
    { s with
      staleMapping := s.staleMapping.set (owningScope i edge) issue.1
      uncertainties := s.uncertainties ++ [issue.2] }

def edgesOf (i : PlanInputs) (key : String) : List TestMappingEdge :=
  i.mapping.mappings.filter fun edge => edge.targetNode = key

def selectMapped (keyWalk : Walk String) (i : PlanInputs) : DirectSelection :=
  (keyWalk.order (affectedTargetKeys i)).foldl (fun s key => (edgesOf i key).foldl (selectEdge i key) s)
    ⟨InsertionMap.empty, [], InsertionMap.empty, InsertionMap.empty,
      i.impact.uncertainty ++ discoveryReasons i.inventory ++ mappingReasons i.mapping⟩

/-! ### The impacted targets that are tests -/

def testAt? (i : PlanInputs) (path : String) : Option DiscoveredTest :=
  i.inventory.tests.reverse.find? fun test => test.canonicalPath = path

def traversalPath (imp : ImpactedTarget) (test : DiscoveredTest) : EvidencePath :=
  imp.primaryPath.getD
    { changeId := imp.target
      seedNode := imp.target
      targetNode := test.stableId
      steps := []
      pathStrength := imp.strength
      explanation := test.stableId ++ " impacted by graph traversal" }

def traversalRef (imp : ImpactedTarget) : CheckEvidenceRef where
  evidenceId := none
  provider := "graph_traversal"
  providerId := "graph_traversal"
  providerFingerprint := none
  sourceIdentity := some imp.target
  strength := imp.strength
  stale := false

def traversalCheck (i : PlanInputs) (imp : ImpactedTarget) (test : DiscoveredTest) : PlannedCheck where
  checkId := test.stableId
  displayName := test.canonicalPath
  kind := test.kind
  scope := test.owningPackageId.getD "repo"
  reason := (imp.primaryPath.map (·.explanation)).getD ("tests impacted by changes to " ++ imp.target)
  selection := .evidence
  strength := imp.strength
  evidence := i.evidenceText (some (traversalPath imp test)) [traversalRef imp]
  wideningReason := none
  mandatory := false

def selectTarget (i : PlanInputs) (s : DirectSelection) (imp : ImpactedTarget) : DirectSelection :=
  match testAt? i (normalizeTarget imp.target) with
  | none => s
  | some test =>
    if test.stableId ∈ s.selected then s
    else
      let s := s.select (traversalCheck i imp test)
      { s with perPackage := countUp s.perPackage (test.owningPackageId.getD "repo") }

/-- The tests that evidence selects. -/
def selectDirect (keyWalk : Walk String) (i : PlanInputs) : DirectSelection :=
  i.impact.impacted.foldl (selectTarget i) (selectMapped keyWalk i)

/-! ### What is selected -/

/-- Every selected test is kept under its id, which shows it to be a test. -/
structure Selects (s : DirectSelection) : Prop where
  keyed : OutputBound.Keyed s.checks
  ids : ∀ id, (s.checks.get? id).isSome ↔ id ∈ s.selected
  tests : ∀ id ∈ s.selected, startsWith "test:" id

variable {s : DirectSelection} {i : PlanInputs}

theorem Selects.select (h : Selects s) {check : PlannedCheck}
    (hcheck : startsWith "test:" check.checkId) : Selects (s.select check) := by
  refine ⟨h.keyed.set check, ?_, ?_⟩
  · intro id
    have hids := h.ids id
    rw [DirectSelection.select, InsertionMap.get?_set, mem_insertOnce, ← hids]
    by_cases heq : check.checkId = id
    · simp [heq]
    · have hne : id ≠ check.checkId := Ne.symm heq
      simp [heq, hne]
  · intro id hid
    cases mem_insertOnce.mp hid with
    | inl hold => exact h.tests id hold
    | inr hnew =>
      rw [hnew]
      exact hcheck

theorem startsWith_append (start rest : String) : startsWith start (start ++ rest) = true := by
  simp [startsWith, String.toList_append]

theorem startsWith_edgeCheckId (edge : TestMappingEdge) : startsWith "test:" (edgeCheckId edge) := by
  unfold edgeCheckId
  split
  case isTrue h => exact h
  case isFalse =>
    rw [String.append_assoc, String.append_assoc]
    exact startsWith_append _ _

theorem Selects.selectEdge (h : Selects s) (key : String) (edge : TestMappingEdge) :
    Selects (selectEdge i key s edge) := by
  have hselect : Selects (s.select (edgeCheck i key edge)) := h.select (startsWith_edgeCheckId edge)
  unfold TestSelection.selectEdge
  split
  · exact ⟨hselect.keyed, hselect.ids, hselect.tests⟩
  · exact ⟨hselect.keyed, hselect.ids, hselect.tests⟩

theorem testAt?_mem {path : String} {test : DiscoveredTest} (h : testAt? i path = some test) :
    test ∈ i.inventory.tests :=
  List.mem_reverse.mp (List.mem_of_find?_eq_some h)

theorem Selects.selectTarget (h : Selects s) (imp : ImpactedTarget) :
    Selects (selectTarget i s imp) := by
  unfold TestSelection.selectTarget
  split
  · exact h
  · next test htest =>
    split
    · exact h
    · have hselect : Selects (s.select (traversalCheck i imp test)) :=
        h.select (i.inventory.testIds test (testAt?_mem htest))
      exact ⟨hselect.keyed, hselect.ids, hselect.tests⟩

theorem selects_selectDirect (keyWalk : Walk String) (i : PlanInputs) :
    Selects (selectDirect keyWalk i) := by
  apply List.foldlRecOn (motive := Selects)
  · apply List.foldlRecOn (motive := Selects)
    · refine ⟨⟨InsertionMap.distinct_empty, ?_⟩, ?_, ?_⟩
      · intro entry hentry
        exact absurd hentry List.not_mem_nil
      · intro id
        simp
      · intro id hid
        exact absurd hid List.not_mem_nil
    · intro s hs key _
      apply List.foldlRecOn (motive := Selects)
      · exact hs
      · intro s hs edge _
        exact hs.selectEdge key edge
  · intro s hs imp _
    exact hs.selectTarget imp

end TestSelection
