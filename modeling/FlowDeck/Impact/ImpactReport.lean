import FlowDeck.Impact.ImpactTraversal
import FlowDeck.Library.KeyOrder
import Mathlib.Data.Prod.Lex
import Mathlib.Data.String.Basic

/-! The report of an impact analysis: what the traversal found, widened by the scopes whose build
topology is in doubt. -/

namespace ImpactReport

open CheckResolution EvidenceModel ImpactEdges ImpactTraversal PolicyStore RunArtifact Statements

inductive UncertaintyScope
  | file (path : String)
  | config (path : String)
  | package (dir : String)
  | workspace (id : String)
  | buildTarget (id : String)
  | repository

structure BuildUncertainty where
  code : String
  scope : UncertaintyScope
  reason : String
  shouldWiden : Bool

structure FallbackBuildInventory where
  packageDirs : List String
  configDirs : List String
  truncated : Bool
  walkerErrors : List String

/-- What an analysis starts from. -/
structure Query where
  changeAssurance : AssuranceLevel
  seeds : List ImpactSeed
  uncertainties : List UncertaintyReason
  scopedBuildUncertainties : List BuildUncertainty
  evidence : Evidence
  inventory : FallbackBuildInventory
  debug : UncertaintyReason → String

def widenedTarget (code : String) (target : String × NodeKind) : ImpactedTarget where
  target := target.1
  targetKind := target.2
  depth := 1
  strength := .heuristic
  primaryPath := none
  alternatePaths := []
  alternatePathCount := 0
  wideningReason := some code

structure Widening where
  impacted : InsertionMap String ImpactedTarget
  uncertainties : List UncertaintyReason

def Widening.add (w : Widening) (code : String) (targets : List (String × NodeKind)) : Widening :=
  { w with
    impacted := targets.foldl (fun m target => insertAbsent m (widenedTarget code target)) w.impacted }

def inventoryReasons (inventory : FallbackBuildInventory) : List UncertaintyReason :=
  (if inventory.truncated then
    [.buildLimitReached ("Fallback build inventory limit reached during conservative widening; " ++
      "full repository scope may not be enumerated")]
  else []) ++
    inventory.walkerErrors.map fun err =>
      .buildLimitReached ("Fallback build inventory walker error: " ++ err)

def packageFiles (snapshot : CurrentBuildSnapshot) (dir : String) : List String :=
  ((snapshot.containsPackageToFiles.lookup ("pkg:npm:" ++ dir)).or
    (snapshot.containsPackageToFiles.lookup ("pkg:cargo:" ++ dir))).getD []

def workspaceMembers (snapshot : CurrentBuildSnapshot) (id : String) : List String :=
  (snapshot.packageToOwningWorkspace.filter fun owned => owned.2 = id).map fun owned =>
    ((stripPrefix? "pkg:npm:" owned.1).or (stripPrefix? "pkg:cargo:" owned.1)).getD owned.1

def configParent (path : String) : String :=
  if (Paths.parent? path).getD "" = "" then "." else (Paths.parent? path).getD ""

def repositoryTargets (snapshot : CurrentBuildSnapshot) : List (String × NodeKind) :=
  snapshot.nodes.filterMap fun entry =>
    if entry.2.kind = .package || entry.2.kind = .config then
      entry.2.canonicalPath.map fun path => (path, entry.2.kind)
    else none

def widenScope (q : Query) (affected : List String) (w : Widening) (unc : BuildUncertainty) :
    Widening :=
  if !unc.shouldWiden then w
  else
    match unc.scope with
    | .package dir =>
      if affected.any fun id => id = dir || id = "pkg:npm:" ++ dir || id = "pkg:cargo:" ++ dir then
        w.add unc.code ((packageFiles q.evidence.snapshot dir).map fun file => (file, .file))
      else w
    | .workspace ws =>
      if affected.any fun id => id = ws || startsWith "workspace:" id then
        let w := w.add unc.code
          ((workspaceMembers q.evidence.snapshot ws).map fun member => (member, .package))
        let w := { w with uncertainties := w.uncertainties ++ inventoryReasons q.inventory }
        w.add unc.code (q.inventory.packageDirs.map fun dir => (dir, .package))
      else w
    | .config path =>
      if affected.any fun id => id = path || containsText id path || startsWith "config:" id then
        w.add unc.code [(configParent path, .config)]
      else w
    | .repository =>
      let w := w.add unc.code (repositoryTargets q.evidence.snapshot)
      let w := { w with uncertainties := w.uncertainties ++ inventoryReasons q.inventory }
      let w := w.add unc.code (q.inventory.packageDirs.map fun dir => (dir, .package))
      w.add unc.code (q.inventory.configDirs.map fun dir => (dir, .config))
    | .file _ | .buildTarget _ => w

def widen (q : Query) (t : Traversal) : Widening :=
  q.scopedBuildUncertainties.foldl (widenScope q t.affectedIdentities) ⟨t.impacted, t.uncertainties⟩

def isExactBound (unc : BuildUncertainty) : Bool :=
  unc.shouldWiden && (unc.code = "build_limit_reached" || unc.code = "provider_ingest_failed" ||
    unc.code = "provider_detection_failed")

def isFallbackIssue : UncertaintyReason → Bool
  | .buildLimitReached details =>
    containsText details "Fallback build inventory limit reached" ||
      containsText details "Fallback build inventory walker error"
  | _ => false

/-- Neither the exact topology nor the inventory is complete. -/
def terminalUnverified (q : Query) (w : Widening) : Bool :=
  q.scopedBuildUncertainties.any isExactBound && w.uncertainties.any isFallbackIssue

def unknownKindReason (kind : String) : UncertaintyReason :=
  .unknownGraphRelation ("Unknown graph relation kind '" ++ kind ++ "' skipped")

def limitReasons (policy : ImpactPolicy) (t : Traversal) : List UncertaintyReason :=
  (if t.depthLimitHit then [.depthLimitReached policy.maxDepth] else []) ++
    (if t.nodeLimitHit then [.nodeLimitReached policy.maxNodes] else []) ++
    (if t.edgeLimitHit then [.edgeLimitReached policy.maxEdges] else [])

def collectUncertainties (q : Query) (policy : ImpactPolicy) (t : Traversal) (w : Widening) :
    List UncertaintyReason :=
  w.uncertainties ++
    (if terminalUnverified q w then
      [.graphUnavailable ("Exact build topology and fallback build inventory are both incomplete; " ++
        "impacted set cannot be verified")]
    else []) ++
    t.unknownKinds.map unknownKindReason ++ limitReasons policy t

def sortUncertainties (debug : UncertaintyReason → String) (reasons : List UncertaintyReason) :
    List UncertaintyReason :=
  (KeyOrder.orderBy (fun reason : UncertaintyReason => toLex (reason.code, debug reason))
    reasons).destutter (· ≠ ·)

/-- The details of the reasons that are held against the scope they are about. -/
def scopedDetails? : UncertaintyReason → Option String
  | .buildProviderStale details | .buildProviderMissing details | .buildProviderFailed details
  | .malformedConfig details | .configCycleDetected details | .dynamicConfigExpression details
  | .buildLimitReached details | .unknownWorkspaceMembership details => some details
  | _ => none

def scopeAffected (affected : List String) : UncertaintyScope → Bool
  | .package p => affected.any fun id => id = p || startsWith (p ++ "/") id ||
      containsText id (":" ++ p) || containsText id (":npm:" ++ p) || containsText id (":cargo:" ++ p)
  | .config c => affected.any fun id => id = c || containsText id c || containsText id ("config:" ++ c)
  | .buildTarget t => affected.any fun id => id = t || containsText id t
  | .file f => affected.any fun id => id = f || containsText id f
  | .workspace _ | .repository => true

/-- Whether a reason bears on what the change affects. -/
def isRelevant (q : Query) (affected : List String) (reason : UncertaintyReason) : Bool :=
  match scopedDetails? reason with
  | none => true
  | some details =>
    (q.scopedBuildUncertainties.any fun unc =>
      scopeAffected affected unc.scope && containsText details unc.reason) ||
    details.toList.takeWhile (· ≠ ':') = "repository".toList ||
    details.toList.takeWhile (· ≠ ':') = "workspace".toList ||
    affected.any fun id => containsText details id

def limitingAssurance : UncertaintyReason → AssuranceLevel
  | .depthLimitReached _ | .nodeLimitReached _ | .edgeLimitReached _ | .providerStale _
  | .buildProviderStale _ | .buildProviderMissing _ | .buildProviderFailed _ | .fallbackUsed _
  | .unsupportedLanguage _ | .graphAbsent _ | .unknownGraphRelation _ | .malformedConfig _
  | .configCycleDetected _ | .unknownWorkspaceMembership _ | .dynamicConfigExpression _
  | .buildLimitReached _ => .degraded
  | .providerMissing _ | .providerFailed _ | .semanticChangeUnknown _ | .ambiguousSymbol _ =>
    .conservative
  | .missingBeforeEvidence _ | .missingAfterEvidence _ | .graphIncompatible _ | .graphCorrupt _
  | .graphUnavailable _ => .unverified

def computeResultAssurance (changeAssurance : AssuranceLevel) (reasons : List UncertaintyReason)
    (hasFallbackPath : Bool) : AssuranceLevel :=
  reasons.foldl (fun level reason => lesserAssurance level (limitingAssurance reason))
    (if hasFallbackPath then lesserAssurance changeAssurance .degraded else changeAssurance)

def kindDebug : NodeKind → String
  | .file => "File"
  | .module => "Module"
  | .package => "Package"
  | .symbol => "Symbol"
  | .test => "Test"
  | .config => "Config"
  | .generatedArtifact => "GeneratedArtifact"
  | .externalDependency => "ExternalDependency"
  | .workspace => "Workspace"
  | .buildTarget => "BuildTarget"

/-- By depth, then the stronger first, then by name. -/
def sortImpacted (targets : List ImpactedTarget) : List ImpactedTarget :=
  KeyOrder.orderBy (fun x : ImpactedTarget =>
    toLex (x.depth, toLex (rank .precise - rank x.strength, toLex (x.target, kindDebug x.targetKind))))
    targets

structure ImpactV2Result where
  assurance : AssuranceLevel
  impacted : List ImpactedTarget
  uncertainty : List UncertaintyReason

def run (q : Query) (policy : ImpactPolicy) : Traversal :=
  traverse q.evidence policy policy.maxNodes
    (start q.seeds q.uncertainties q.evidence.db.isNone)

def analyze (q : Query) (policy : ImpactPolicy) : ImpactV2Result :=
  let t := run q policy
  let w := widen q t
  let uncertainties := sortUncertainties q.debug (collectUncertainties q policy t w)
  { assurance := computeResultAssurance q.changeAssurance
      (uncertainties.filter (isRelevant q t.affectedIdentities)) t.hasFallbackPath
    impacted := sortImpacted w.impacted.values
    uncertainty := uncertainties }

def analyzeImpactV2 (q : Query) (depthLimit : Option Nat) : ImpactV2Result :=
  analyze q { maxDepth := depthLimit.getD 3 }

end ImpactReport
