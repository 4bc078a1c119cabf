import FlowDeck.Impact.ImpactReport

/-! What is discovered of the tests, and whether the mapping evidence of a scope is fresh and
complete. -/

namespace MappingScopes

open CheckDiscovery (DiscoveredCheck TestDiscoveryIssue)

open CheckResolution EvidenceModel ImpactEdges PolicyStore ProviderState RunArtifact

structure DiscoveredTest where
  stableId : String
  canonicalPath : String
  owningPackageId : Option String
  kind : VerificationCheckKind
  deriving DecidableEq

inductive DiscoveryState
  | complete
  | incomplete (issues : List TestDiscoveryIssue)
  | failed (issues : List TestDiscoveryIssue)

def DiscoveryState.issues : DiscoveryState → List TestDiscoveryIssue
  | .complete => []
  | .incomplete issues | .failed issues => issues

structure FallbackTestInventory where
  packageTestScopes : List String
  truncated : Bool

/-- The discovered tests and checks; what an id is of can be told from its start. -/
structure TestInventory where
  tests : List DiscoveredTest
  checks : List DiscoveredCheck
  fallback : FallbackTestInventory
  state : DiscoveryState
  truncated : Bool
  testIds : ∀ test ∈ tests, startsWith "test:" test.stableId
  checkIds : ∀ check ∈ checks, startsWith "check:" check.checkId
  distinctChecks : (checks.map (·.checkId)).Nodup

theorem testIds_nil : ∀ test ∈ ([] : List DiscoveredTest), startsWith "test:" test.stableId :=
  List.forall_mem_nil _

theorem checkIds_nil : ∀ check ∈ ([] : List DiscoveredCheck), startsWith "check:" check.checkId :=
  List.forall_mem_nil _

structure TestMappingEdge where
  testNode : String
  targetNode : String
  kind : EdgeKind
  strength : EvidenceStrength
  provider : String
  providerId : String
  providerFingerprint : Option String
  evidenceId : Option String
  sourceIdentity : Option String
  stale : Bool

structure TestMappingResolution where
  mappings : List TestMappingEdge
  truncated : Bool
  errors : List String

inductive MappingScopeState
  | freshComplete
  | stale (reason : String)
  | missing (reason : String)
  | failed (reason : String)
  | truncated
  deriving DecidableEq

inductive EvidenceCompatibility
  | compatible
  | missingProvider
  | providerUnavailable
  | providerStale
  | scopeMismatch
  | languageMismatch
  | edgeStale
  | fingerprintMissing
  | fingerprintMismatch
  deriving DecidableEq

/-- `trim().trim_matches('/')`. -/
def normalizePath (path : String) : String :=
  String.ofList ((((trim path.toList).dropWhile (· = '/')).reverse.dropWhile (· = '/')).reverse)

def scopeContainsPath (scopeRoot candidatePath : String) : Bool :=
  let scope := normalizePath scopeRoot
  if scope = "" || scope = "." || scope = "workspace:root" then true
  else
    let candidate := normalizePath candidatePath
    if candidate = "" || candidate = "." then false
    else candidate = scope || startsWith (scope ++ "/") candidate

/-- A scope without the scheme of its package manager. -/
def cleanScope (scope : String) : String :=
  ((stripPrefix? "pkg:npm:" scope).or (stripPrefix? "pkg:cargo:" scope)).getD scope

def providerCoversPackage (provider : State) (packageScope : String) : Bool :=
  match provider.scope.package with
  | some pkg =>
    if startsWith "pkg:" pkg && startsWith "pkg:" packageScope then pkg = packageScope
    else pkg = packageScope || cleanScope pkg = cleanScope packageScope ||
      pkg = cleanScope packageScope || cleanScope pkg = packageScope
  | none => scopeContainsPath provider.scope.workspaceRoot (cleanScope packageScope)

def evaluateEdgeCompatibility (edge : TestMappingEdge) (provider : Option State)
    (owningScope : String) (relevantLanguage : Option LanguageId) : EvidenceCompatibility :=
  match provider with
  | none => .missingProvider
  | some p =>
    if p.identity.providerId ≠ edge.providerId then .missingProvider
    else if p.health ≠ .available then .providerUnavailable
    else if p.freshness ≠ .fresh then .providerStale
    else if !providerCoversPackage p owningScope then .scopeMismatch
    else if relevantLanguage.any fun lang => !p.scope.languages.contains lang then .languageMismatch
    else if edge.stale then .edgeStale
    else if edge.providerFingerprint.getD "" = "" then .fingerprintMissing
    else if edge.providerFingerprint = some p.fingerprint.digest then .compatible
    else .fingerprintMismatch

def endsWith (ending text : String) : Bool := ending.toList.isSuffixOf text.toList

def languageOfFile? (path : String) : Option LanguageId :=
  if [".ts", ".tsx", ".mts", ".cts"].any fun ending => endsWith ending path then some .typeScript
  else if [".js", ".jsx", ".mjs", ".cjs"].any fun ending => endsWith ending path then
    some .javaScript
  else if endsWith ".rs" path then some .rust
  else none

def containingPackages? (snapshot : CurrentBuildSnapshot) (file : String) : Option (List String) :=
  match snapshot.edges.filter fun e =>
    e.kind = .contains && stripPrefix? "file:" e.toNode = some file with
  | [] => none
  | edges => some (edges.map (·.fromNode))

/-- The packages that depend on a package, in the order of their edges. -/
def dependents (snapshot : CurrentBuildSnapshot) (pkg : String) : List String :=
  (snapshot.edges.filter fun e => e.kind = .dependsOn && e.toNode = pkg).map (·.fromNode)

def fileBelongs (snapshot : CurrentBuildSnapshot) (packageScope file : String) : Bool :=
  match containingPackages? snapshot file with
  | some pkgs => pkgs.contains packageScope || pkgs.contains (cleanScope packageScope)
  | none => scopeContainsPath (cleanScope packageScope) file

/-- The languages in their order. -/
def deriveRelevantLanguagesForPackage (packageScope : String) (tests : List DiscoveredTest)
    (impactedFiles : List String) (snapshot : CurrentBuildSnapshot) : List LanguageId :=
  let found := [LanguageId.typeScript, .javaScript, .rust].filter fun lang =>
    (tests.any fun test =>
      test.owningPackageId = some packageScope && languageOfFile? test.canonicalPath = some lang) ||
    impactedFiles.any fun file =>
      fileBelongs snapshot packageScope file && languageOfFile? file = some lang
  if found ≠ [] then found
  else if startsWith "pkg:cargo:" packageScope then [.rust]
  else if startsWith "pkg:npm:" packageScope then [.typeScript]
  else []

def languageDebug : LanguageId → String
  | .typeScript => "TypeScript"
  | .javaScript => "JavaScript"
  | .rust => "Rust"

def freshnessDebug : ProviderFreshness → String
  | .fresh => "Fresh"
  | .stale => "Stale"
  | .unknown => "Unknown"
  | .absent => "Absent"

def candidates (packageScope : String) (providers : List State) (lang : LanguageId) : List State :=
  KeyOrder.orderBy (fun p : State => p.identity.providerId) (providers.filter fun p =>
    providerCoversPackage p packageScope && p.scope.languages.contains lang)

/-- What keeps the evidence of one language from being fresh and complete. -/
def languageIssue? (packageScope : String) (providers : List State) (lang : LanguageId) :
    Option MappingScopeState :=
  match candidates packageScope providers lang with
  | [] => some (.missing ("no provider covers " ++ languageDebug lang ++ " in " ++ packageScope))
  | first :: rest =>
    if (first :: rest).any fun p => p.health = .available && p.freshness = .fresh then none
    else if (first :: rest).all fun p => p.health ≠ .available then
      some (.failed ("provider for " ++ languageDebug lang ++ " in " ++ packageScope ++
        " failed (" ++ healthDebug first.health ++ ")"))
    else
      some (.stale ("provider for " ++ languageDebug lang ++ " in " ++ packageScope ++
        " is stale (" ++ freshnessDebug first.freshness ++ ")"))

def isFailed : MappingScopeState → Bool
  | .failed _ => true
  | _ => false

def isStale : MappingScopeState → Bool
  | .stale _ => true
  | _ => false

/-- A failure stands before a stale provider, and that before a missing one. -/
def evaluateMappingScope (packageScope : String) (relevantLanguages : List LanguageId)
    (providers : List State) : MappingScopeState :=
  if relevantLanguages = [] then
    .missing ("cannot determine language domain for scope " ++ packageScope)
  else
    let issues := relevantLanguages.filterMap (languageIssue? packageScope providers)
    ((issues.find? isFailed).or ((issues.find? isStale).or issues.head?)).getD .freshComplete

/-- The evidence of a language is there and fresh. -/
def Covered (packageScope : String) (providers : List State) (lang : LanguageId) : Prop :=
  ∃ p ∈ providers, providerCoversPackage p packageScope = true ∧ lang ∈ p.scope.languages ∧
    p.health = .available ∧ p.freshness = .fresh

theorem languageIssue?_eq_none_iff {packageScope : String} {providers : List State}
    {lang : LanguageId} :
    languageIssue? packageScope providers lang = none ↔ Covered packageScope providers lang := by
  have hmem : ∀ p, p ∈ candidates packageScope providers lang ↔
      p ∈ providers ∧ providerCoversPackage p packageScope = true ∧ lang ∈ p.scope.languages := by
    intro p
    simp [candidates]
  have hcovered : Covered packageScope providers lang ↔
      ∃ p ∈ candidates packageScope providers lang, p.health = .available ∧ p.freshness = .fresh := by
    simp only [hmem, Covered, and_assoc]
  rw [hcovered]
  cases hcandidates : candidates packageScope providers lang with
  | nil => simp [languageIssue?, hcandidates]
  | cons first rest =>
    by_cases hfresh : (first :: rest).any fun p => p.health = .available && p.freshness = .fresh
    · have hexists : ∃ p ∈ first :: rest, p.health = .available ∧ p.freshness = .fresh := by
        simpa using hfresh
      simp only [languageIssue?, hcandidates, hfresh, if_true, true_iff]
      exact hexists
    · have hnone : ¬ ∃ p ∈ first :: rest, p.health = .available ∧ p.freshness = .fresh := by
        simpa using hfresh
      simp only [hnone, iff_false, languageIssue?, hcandidates]
      rw [if_neg hfresh]
      split_ifs <;> exact not_false

theorem evaluateMappingScope_eq_freshComplete_iff {packageScope : String}
    {languages : List LanguageId} {providers : List State} :
    evaluateMappingScope packageScope languages providers = .freshComplete ↔
      languages ≠ [] ∧ ∀ lang ∈ languages, Covered packageScope providers lang := by
  by_cases hnil : languages = []
  · simp [evaluateMappingScope, hnil]
  have hissue : ∀ issue ∈ languages.filterMap (languageIssue? packageScope providers),
      issue ≠ .freshComplete := by
    intro issue hmem heq
    obtain ⟨lang, _, hlang⟩ := List.mem_filterMap.mp hmem
    rw [heq] at hlang
    unfold languageIssue? at hlang
    split at hlang
    · simp at hlang
    · split_ifs at hlang <;> simp at hlang
  have hcovered : (∀ lang ∈ languages, Covered packageScope providers lang) ↔
      languages.filterMap (languageIssue? packageScope providers) = [] := by
    simp only [List.filterMap_eq_nil_iff, languageIssue?_eq_none_iff]
  rw [hcovered]
  simp only [evaluateMappingScope, hnil, if_false, ne_eq, not_false_eq_true, true_and]
  generalize languages.filterMap (languageIssue? packageScope providers) = issues at hissue
  constructor
  · intro h
    by_contra hne
    obtain ⟨first, rest, rfl⟩ := List.exists_cons_of_ne_nil hne
    obtain ⟨issue, hissue_eq, hmem⟩ : ∃ issue, ((first :: rest).find? isFailed).or
        (((first :: rest).find? isStale).or (first :: rest).head?) = some issue ∧
          issue ∈ first :: rest := by
      cases hfailed : (first :: rest).find? isFailed with
      | some issue => exact ⟨issue, rfl, List.mem_of_find?_eq_some hfailed⟩
      | none =>
        cases hstale : (first :: rest).find? isStale with
        | some issue => exact ⟨issue, rfl, List.mem_of_find?_eq_some hstale⟩
        | none => exact ⟨first, rfl, List.mem_cons_self⟩
    rw [hissue_eq] at h
    exact hissue issue hmem h
  · intro h
    simp [h]

end MappingScopes
