import FlowDeck.Semantic.ProviderState
import FlowDeck.Verification.CheckResolution
import FlowDeck.Verification.RunArtifact

/-! The edges along which the impact of a change propagates. -/

namespace ImpactEdges

open EvidenceModel PolicyStore ProviderState RunArtifact

open CheckResolution (stripPrefix?)

inductive TraversalDirection
  | forward
  | reverse
  | both
  deriving DecidableEq

structure ImpactPolicy where
  maxDepth : Nat := 3
  maxNodes : Nat := 10000
  maxEdges : Nat := 50000
  maxPathsPerTarget : Nat := 3

/-- How impact propagates along an edge of a kind. -/
def edgeImpactDirection : EdgeKind → TraversalDirection
  | .configures | .generates => .forward
  | .contains => .both
  | _ => .reverse

def edgeKinds : List EdgeKind :=
  [.imports, .reExports, .calls, .defines, .exports, .extends, .implements, .references, .configures,
    .generates, .tests, .ordersBefore, .contains, .dependsOn, .belongsTo, .reads, .uses]

def parseEdgeKind (kind : String) : Option EdgeKind := edgeKinds.find? fun known => known.text = kind

def parseNodeKind : String → NodeKind
  | "module" => .module
  | "package" => .package
  | "symbol" => .symbol
  | "test" => .test
  | "config" => .config
  | "generated_artifact" => .generatedArtifact
  | "external_dependency" => .externalDependency
  | "workspace" => .workspace
  | "build_target" => .buildTarget
  | _ => .file

def parseStrength (value : Int) : EvidenceStrength :=
  if value = 4 then .precise
  else if value = 3 then .observed
  else if value = 2 then .structural
  else if value = 1 then .heuristic
  else .unknown

def rank : EvidenceStrength → Nat
  | .unknown => 0
  | .heuristic => 1
  | .structural => 2
  | .observed => 3
  | .precise => 4

def minStrength (a b : EvidenceStrength) : EvidenceStrength := if rank b < rank a then b else a

/-- A row of `edges`. -/
structure EdgeRecord where
  fromNode : String
  toNode : String
  kind : String
  provider : String
  providerId : Option String
  providerFingerprint : String
  strength : Int
  stale : Bool

/-- A row of `nodes`. -/
structure NodeRecord where
  stableId : String
  kind : String
  canonicalPath : Option String

structure Database where
  nodes : Table NodeRecord.stableId
  edges : List EdgeRecord

structure DbEdgeRow where
  fromNode : String
  toNode : String
  kind : EdgeKind
  provider : String
  providerId : Option String
  providerFingerprint : String
  strength : EvidenceStrength
  stale : Bool
  deriving DecidableEq

def toDbEdgeRow (row : EdgeRecord) (kind : EdgeKind) : DbEdgeRow where
  fromNode := row.fromNode
  toNode := row.toNode
  kind := kind
  provider := row.provider
  providerId := row.providerId
  providerFingerprint := row.providerFingerprint
  strength := parseStrength row.strength
  stale := row.stale

def startsWith (start text : String) : Bool := start.toList.isPrefixOf text.toList

/-- A package is impacted by a file it contains; a workspace is not by a package. -/
def reverseApplies (kind : EdgeKind) (toNode : String) : Bool :=
  if kind = .contains then startsWith "file:" toNode
  else edgeImpactDirection kind = .reverse || edgeImpactDirection kind = .both

/-- The member packages are impacted by their workspace. -/
def forwardApplies (kind : EdgeKind) (fromNode : String) : Bool :=
  if kind = .contains then startsWith "workspace:" fromNode
  else edgeImpactDirection kind = .forward || edgeImpactDirection kind = .both

def sameRelation (e other : DbEdgeRow) : Bool :=
  e.fromNode = other.fromNode && e.toNode = other.toNode && e.kind = other.kind

def reverseEdge? (row : EdgeRecord) : Option DbEdgeRow :=
  (parseEdgeKind row.kind).bind fun kind =>
    if reverseApplies kind row.toNode then some (toDbEdgeRow row kind) else none

def forwardEdge? (row : EdgeRecord) : Option DbEdgeRow :=
  (parseEdgeKind row.kind).bind fun kind =>
    if forwardApplies kind row.fromNode then some (toDbEdgeRow row kind) else none

def addRelation (edges : List DbEdgeRow) (e : DbEdgeRow) : List DbEdgeRow :=
  if edges.any fun other => sameRelation other e then edges else edges ++ [e]

def unknownKind? (row : EdgeRecord) : Option String :=
  if (parseEdgeKind row.kind).isNone then some row.kind else none

def queryRawIncomingImpactEdges (db : Database) (targetNode : String) :
    List DbEdgeRow × List String :=
  let incoming := db.edges.filter fun row => row.toNode = targetNode
  let outgoing := db.edges.filter fun row => row.fromNode = targetNode
  ((outgoing.filterMap forwardEdge?).foldl addRelation (incoming.filterMap reverseEdge?),
    incoming.filterMap unknownKind? ++ outgoing.filterMap unknownKind?)

structure BuildProviderState where
  health : ProviderHealth
  freshness : ProviderFreshness
  fingerprint : String

structure BuildNode where
  kind : NodeKind
  canonicalPath : Option String

structure BuildEdge where
  stableId : String
  fromNode : String
  toNode : String
  kind : EdgeKind
  provider : String
  providerId : String
  providerFingerprint : String
  strength : EvidenceStrength

/-- The build topology as it stands now. -/
structure CurrentBuildSnapshot where
  nodes : List (String × BuildNode)
  edges : List BuildEdge
  containsPackageToFiles : List (String × List String)
  packageToOwningWorkspace : List (String × String)

def snapshotApplies (targetNode : String) (edge : BuildEdge) : Bool :=
  match edge.kind with
  | .contains => edge.toNode = targetNode && startsWith "file:" targetNode
  | .dependsOn | .extends | .references | .belongsTo | .reads | .uses => edge.toNode = targetNode
  | .configures | .generates | .defines => edge.fromNode = targetNode
  | _ => false

def CurrentBuildSnapshot.findIncomingEdges (snapshot : CurrentBuildSnapshot) (targetNode : String) :
    List BuildEdge :=
  (snapshot.edges.filter (snapshotApplies targetNode)).foldl (fun found edge =>
    if found.any fun other => other.stableId = edge.stableId then found else found ++ [edge]) []

structure LexicalFallbackIndex where
  importedToImporters : String → List String
  symbolToReferencingFiles : String → List String

def manualEdge (file toNode : String) (kind : EdgeKind) (fingerprint : String) : DbEdgeRow where
  fromNode := "file:" ++ file
  toNode := toNode
  kind := kind
  provider := "manual_rule"
  providerId := none
  providerFingerprint := fingerprint
  strength := .heuristic
  stale := false

def unseenFiles (targetPath : String) (seen files : List String) : List String :=
  files.foldl (fun found file =>
    if file = targetPath || file ∈ seen || file ∈ found then found else found ++ [file]) []

def LexicalFallbackIndex.findIncomingEdges (index : LexicalFallbackIndex) (targetPath : String)
    (targetSymbol : Option String) : List DbEdgeRow :=
  let importers := unseenFiles targetPath [] (index.importedToImporters targetPath)
  let naming := unseenFiles targetPath importers (index.symbolToReferencingFiles targetPath)
  let referencing := unseenFiles targetPath (importers ++ naming)
    ((targetSymbol.map index.symbolToReferencingFiles).getD [])
  (importers.map fun file => manualEdge file ("file:" ++ targetPath) .imports "manual-import") ++
    (naming.map fun file => manualEdge file ("file:" ++ targetPath) .references "manual-token") ++
    (referencing.map fun file =>
      manualEdge file ("sym:" ++ targetPath ++ ":" ++ targetSymbol.getD "") .references
        "manual-token")

structure ImpactFallbackIndexes where
  current : LexicalFallbackIndex
  before : Option LexicalFallbackIndex

def sameEnds (e other : DbEdgeRow) : Bool :=
  e.fromNode = other.fromNode && e.toNode = other.toNode

def addEnds (edges : List DbEdgeRow) (e : DbEdgeRow) : List DbEdgeRow :=
  if edges.any fun other => sameEnds other e then edges else edges ++ [e]

def ImpactFallbackIndexes.findIncomingEdges (indexes : ImpactFallbackIndexes) (targetPath : String)
    (targetSymbol : Option String) : List DbEdgeRow :=
  match indexes.before with
  | none => indexes.current.findIncomingEdges targetPath targetSymbol
  | some before => (before.findIncomingEdges targetPath targetSymbol).foldl addEnds
      (indexes.current.findIncomingEdges targetPath targetSymbol)

/-- What a traversal reads. -/
structure Evidence where
  db : Option Database
  effectiveStates : String → Option State
  buildStates : String → Option BuildProviderState
  snapshot : CurrentBuildSnapshot
  fallback : ImpactFallbackIndexes

def healthDebug : ProviderHealth → String
  | .available => "Available"
  | .missing => "Missing"
  | .misconfigured => "Misconfigured"
  | .failed => "Failed"
  | .timedOut => "TimedOut"
  | .unsupported => "Unsupported"

def edgeScopeId (fromNode toNode : String) : String :=
  ((stripPrefix? "pkg:npm:" fromNode).or ((stripPrefix? "pkg:cargo:" fromNode).or
    ((stripPrefix? "config:" fromNode).or ((stripPrefix? "pkg:npm:" toNode).or
      (stripPrefix? "pkg:cargo:" toNode))))).getD fromNode

/-- Whether an edge is vouched for, and otherwise what is said of it, if anything is. -/
inductive Verdict
  | fresh
  | doubted (reason : Option UncertaintyReason)

def judgeScip (ev : Evidence) (edge : DbEdgeRow) : Verdict :=
  match edge.providerId with
  | none => .doubted (some (.fallbackUsed ("SCIP edge " ++ edge.fromNode ++ "->" ++ edge.toNode ++
      " has unknown provider ownership")))
  | some pid =>
    match ev.effectiveStates pid with
    | none => .doubted (some (.providerMissing ("Provider " ++ pid ++ " not found in registry")))
    | some st =>
      if st.health ≠ .available then
        .doubted (some (.providerMissing ("Provider " ++ pid ++ " unavailable (" ++
          healthDebug st.health ++ ")")))
      else if st.freshness ≠ .fresh then
        .doubted (some (.providerStale ("Provider " ++ pid ++ " is effectively stale")))
      else if edge.providerFingerprint ≠ st.fingerprint.digest then
        .doubted (some (.providerStale ("Provider " ++ pid ++ " fingerprint mismatch on edge")))
      else if edge.stale then
        .doubted (some (.providerStale "Edge is marked stale in database"))
      else .fresh

def judgeBuild (ev : Evidence) (currentNode : String) (edge : DbEdgeRow) : Verdict :=
  match edge.providerId with
  | none => .doubted (some (.buildProviderMissing ("repository: Build edge " ++ edge.fromNode ++ "->" ++
      edge.toNode ++ " has unknown provider ownership")))
  | some pid =>
    match ev.buildStates pid with
    | none => .doubted (some (.buildProviderMissing
        ("repository: Build provider " ++ pid ++ " not found in registry")))
    | some bst =>
      if bst.health ≠ .available then
        .doubted (some (.buildProviderMissing ("Build provider " ++ pid ++ " unavailable (" ++
          healthDebug bst.health ++ ")")))
      else if edge.stale then
        .doubted (some (.buildProviderStale "Build edge is marked stale in database"))
      else
        let scope := edgeScopeId edge.fromNode edge.toNode
        match (ev.snapshot.findIncomingEdges currentNode).find? fun e =>
          e.fromNode = edge.fromNode && e.toNode = edge.toNode && e.kind = edge.kind with
        | some current =>
          if current.providerFingerprint = edge.providerFingerprint then .fresh
          else
            .doubted (some (.buildProviderStale (scope ++ ": Build provider " ++ pid ++
              " scope fingerprint mismatch on edge")))
        | none =>
          if bst.freshness = .fresh && edge.providerFingerprint = bst.fingerprint then .fresh
          else
            .doubted (some (.buildProviderStale (scope ++ ": Build provider " ++ pid ++
              " is effectively stale")))

def judge (ev : Evidence) (currentNode : String) (edge : DbEdgeRow) : Verdict :=
  if edge.provider = "scip" then judgeScip ev edge
  else if edge.provider = "build_native" then judgeBuild ev currentNode edge
  else if edge.stale then .doubted none
  else .fresh

def Verdict.isFresh : Verdict → Bool
  | .fresh => true
  | .doubted _ => false

def Verdict.reason? : Verdict → Option UncertaintyReason
  | .fresh => none
  | .doubted reason => reason

/-- An edge that nothing vouches for is at best heuristic. -/
def doubtedEdge (edge : DbEdgeRow) : DbEdgeRow :=
  { edge with stale := true, strength := minStrength edge.strength .heuristic }

def isProviderStale (ev : Evidence) (edge : BuildEdge) : Bool :=
  ((ev.buildStates edge.providerId).map fun st => decide (st.freshness ≠ .fresh)).getD true

def snapshotEdge (ev : Evidence) (edge : BuildEdge) : DbEdgeRow where
  fromNode := edge.fromNode
  toNode := edge.toNode
  kind := edge.kind
  provider := edge.provider
  providerId := some edge.providerId
  providerFingerprint := edge.providerFingerprint
  strength := if isProviderStale ev edge then .heuristic else edge.strength
  stale := isProviderStale ev edge

/-- The edges that are current, with what is said of those taken from the snapshot. -/
structure CurrentEdges where
  edges : List DbEdgeRow
  uncertainties : List UncertaintyReason

def addSnapshotEdge (ev : Evidence) (doubted : List DbEdgeRow) (current : CurrentEdges)
    (edge : BuildEdge) : CurrentEdges :=
  let row := snapshotEdge ev edge
  if (current.edges ++ doubted).any fun other => sameRelation other row then current
  else
    { edges := current.edges ++ [row]
      uncertainties :=
        if isProviderStale ev edge then
          current.uncertainties ++
            [.buildProviderStale (edgeScopeId edge.fromNode edge.toNode ++ ": Build provider " ++
              edge.providerId ++ " ephemeral snapshot edge used")]
        else current.uncertainties }

/-- The path and the symbol a node is looked up by in the fallback index. -/
def lookupTarget (node : String) : String × Option String :=
  match stripPrefix? "file:" node with
  | some path => (path, none)
  | none =>
    match stripPrefix? "sym:" node with
    | some stripped =>
      if ':' ∈ stripped.toList then
        (String.ofList (stripped.toList.takeWhile (· ≠ ':')),
          some (String.ofList ((stripped.toList.dropWhile (· ≠ ':')).drop 1)))
      else (stripped, none)
    | none => (node, none)

/-- The edges at a node, and what is said on the way. -/
structure Expansion where
  outgoingEdges : List DbEdgeRow
  uncertainties : List UncertaintyReason
  unknownKinds : List String
  widened : Bool

def rawEdges (ev : Evidence) (node : String) : List DbEdgeRow × List String :=
  match ev.db with
  | some db => queryRawIncomingImpactEdges db node
  | none => ([], [])

def freshEdges (ev : Evidence) (node : String) : List DbEdgeRow :=
  (rawEdges ev node).1.filter fun edge => (judge ev node edge).isFresh

def staleEdges (ev : Evidence) (node : String) : List DbEdgeRow :=
  ((rawEdges ev node).1.filter fun edge => !(judge ev node edge).isFresh).map doubtedEdge

def currentEdges (ev : Evidence) (node : String) : CurrentEdges :=
  (ev.snapshot.findIncomingEdges node).foldl (addSnapshotEdge ev (staleEdges ev node))
    ⟨freshEdges ev node, (rawEdges ev node).1.filterMap fun edge => (judge ev node edge).reason?⟩

def expand (ev : Evidence) (node : String) : Expansion :=
  let current := currentEdges ev node
  let needsWidening := (rawEdges ev node).1.any fun edge => !(judge ev node edge).isFresh
  if !current.edges.isEmpty && !needsWidening then
    ⟨current.edges, current.uncertainties, (rawEdges ev node).2, false⟩
  else
    let (path, symbol) := lookupTarget node
    ⟨(ev.fallback.findIncomingEdges path symbol).foldl addEnds
        (current.edges ++ staleEdges ev node),
      current.uncertainties, (rawEdges ev node).2, true⟩

def nextNode (node : String) (edge : DbEdgeRow) : String :=
  if edge.toNode = node then edge.fromNode else edge.toNode

end ImpactEdges
