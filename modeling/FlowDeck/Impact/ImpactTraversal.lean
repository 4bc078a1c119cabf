import FlowDeck.Impact.ImpactEdges
import FlowDeck.Library.InsertionMap

/-! The breadth-first traversal from the seeds of a change. -/

namespace ImpactTraversal

open CheckResolution EvidenceModel ImpactEdges PolicyStore RunArtifact

structure ImpactSeed where
  seedNode : String
  canonicalPath : String
  changeId : String
  strength : EvidenceStrength
  wideningReason : Option UncertaintyReason

structure QueueItem where
  currentNodeId : String
  depth : Nat
  strength : EvidenceStrength
  steps : List EvidenceStep
  changeId : String
  seedNode : String

def edgeVerb : EdgeKind → String
  | .imports => "imports"
  | .reExports => "re-exports"
  | .calls => "calls"
  | .defines => "defines"
  | .exports => "exports"
  | .extends => "extends"
  | .implements => "implements"
  | .references => "references"
  | .configures => "configures"
  | .generates => "generates"
  | .tests => "tests"
  | .ordersBefore => "is ordered before"
  | .contains => "contains"
  | .dependsOn => "depends on"
  | .belongsTo => "belongs to"
  | .reads => "reads"
  | .uses => "uses"

def nodeLabel (nodeId : String) : String :=
  ((stripPrefix? "file:" nodeId).or (stripPrefix? "sym:" nodeId)).getD nodeId

def renderPathExplanation (targetNode seedNode : String) : List EvidenceStep → String
  | [] =>
    nodeLabel targetNode ++ " is directly affected by change at " ++ nodeLabel seedNode
  | first :: rest =>
    let opening := nodeLabel first.fromNode ++ " " ++ edgeVerb first.edgeKind ++ " " ++
      nodeLabel first.toNode
    let parts := rest.map fun step => "which " ++ edgeVerb step.edgeKind ++ " " ++ nodeLabel step.toNode
    nodeLabel targetNode ++ " is impacted because: " ++ ", ".intercalate (opening :: parts)

/-- The state of the traversal. -/
structure Traversal where
  queue : List QueueItem
  visitedNodes : InsertionMap String Nat
  impacted : InsertionMap String ImpactedTarget
  affectedIdentities : List String
  uncertainties : List UncertaintyReason
  unknownKinds : List String
  hasFallbackPath : Bool
  totalEdgesVisited : Nat
  depthLimitHit : Bool
  nodeLimitHit : Bool
  edgeLimitHit : Bool

def seedTarget (seed : ImpactSeed) : ImpactedTarget where
  target := seed.canonicalPath
  targetKind := .file
  depth := 0
  strength := seed.strength
  primaryPath := some
    { changeId := seed.changeId
      seedNode := seed.seedNode
      targetNode := seed.seedNode
      steps := [⟨seed.seedNode, .defines, "file:" ++ seed.canonicalPath, "change-delta", seed.strength,
        some "directly modified"⟩]
      pathStrength := seed.strength
      explanation := "Directly modified in change " ++ seed.changeId }
  alternatePaths := []
  alternatePathCount := 0
  wideningReason := seed.wideningReason.map UncertaintyReason.code

/-- A target is kept as it is where one of its name is there. -/
def insertAbsent (impacted : InsertionMap String ImpactedTarget) (target : ImpactedTarget) :
    InsertionMap String ImpactedTarget :=
  if (impacted.get? target.target).isSome then impacted else impacted.set target.target target

def enqueueSeed (t : Traversal) (seed : ImpactSeed) : Traversal :=
  { t with
    visitedNodes := t.visitedNodes.set seed.seedNode 0
    affectedIdentities := t.affectedIdentities ++ [seed.seedNode, seed.canonicalPath]
    uncertainties := t.uncertainties ++ seed.wideningReason.toList
    impacted := insertAbsent t.impacted (seedTarget seed)
    queue := t.queue ++
      [⟨seed.seedNode, 0, seed.strength, [], seed.changeId, seed.seedNode⟩] }

def start (seeds : List ImpactSeed) (uncertainties : List UncertaintyReason) (fallback : Bool) :
    Traversal :=
  seeds.foldl enqueueSeed
    { queue := []
      visitedNodes := InsertionMap.empty
      impacted := InsertionMap.empty
      affectedIdentities := []
      uncertainties := uncertainties
      unknownKinds := []
      hasFallbackPath := fallback
      totalEdgesVisited := 0
      depthLimitHit := false
      nodeLimitHit := false
      edgeLimitHit := false }

def kindOfPrefix (nodeId : String) : String × NodeKind :=
  match stripPrefix? "file:" nodeId with
  | some path => (path, .file)
  | none =>
    match stripPrefix? "sym:" nodeId with
    | some stripped => (String.ofList (stripped.toList.takeWhile (· ≠ ':')), .symbol)
    | none =>
      match stripPrefix? "config:" nodeId with
      | some stripped => (stripped, .config)
      | none =>
        match stripPrefix? "pkg:" nodeId with
        | some stripped => (stripped, .package)
        | none =>
          match stripPrefix? "build:" nodeId with
          | some stripped => (stripped, .buildTarget)
          | none =>
            match stripPrefix? "workspace:" nodeId with
            | some stripped => (stripped, .workspace)
            | none => (nodeId, .file)

def targetOf (ev : Evidence) (nodeId : String) : String × NodeKind :=
  match ev.db.bind fun db => db.nodes.get? nodeId with
  | some row => (row.canonicalPath.getD nodeId, parseNodeKind row.kind)
  | none =>
    match (ev.snapshot.nodes.lookup nodeId) with
    | some node => (node.canonicalPath.getD nodeId, node.kind)
    | none => kindOfPrefix nodeId

/-- A target that is there takes a path that is shorter, or as short and stronger, as its primary one;
the other path becomes an alternate while there is room. -/
def recordPath (policy : ImpactPolicy) (existing : ImpactedTarget) (depth : Nat)
    (strength : EvidenceStrength) (path : EvidencePath) : ImpactedTarget :=
  let addAlternate (alternates : List EvidencePath) (other : EvidencePath) : List EvidencePath :=
    if alternates.length < policy.maxPathsPerTarget then alternates ++ [other] else alternates
  if depth < existing.depth || depth = existing.depth && rank existing.strength < rank strength then
    { existing with
      depth := depth
      strength := strength
      primaryPath := some path
      alternatePaths := (existing.primaryPath.map (addAlternate existing.alternatePaths)).getD
        existing.alternatePaths
      alternatePathCount := existing.alternatePathCount +
        (if existing.primaryPath.isSome then 1 else 0) }
  else
    { existing with
      alternatePaths := addAlternate existing.alternatePaths path
      alternatePathCount := existing.alternatePathCount + 1 }

def recordImpact (policy : ImpactPolicy) (impacted : InsertionMap String ImpactedTarget)
    (target : String × NodeKind) (depth : Nat) (strength : EvidenceStrength) (path : EvidencePath) :
    InsertionMap String ImpactedTarget :=
  match impacted.get? target.1 with
  | some existing => impacted.set target.1 (recordPath policy existing depth strength path)
  | none =>
    impacted.set target.1
      { target := target.1
        targetKind := target.2
        depth := depth
        strength := strength
        primaryPath := some path
        alternatePaths := []
        alternatePathCount := 0
        wideningReason := none }

def staleEdgeReason (edge : DbEdgeRow) : UncertaintyReason :=
  .providerStale ("Edge " ++ edge.fromNode ++ "->" ++ edge.toNode ++
    " backed by stale provider evidence")

def stepOf (edge : DbEdgeRow) : EvidenceStep :=
  ⟨edge.fromNode, edge.kind, edge.toNode, edge.provider, edge.strength, none⟩

/-- A node is left out of the queue when it was reached by as short a chain. -/
def isKnown (t : Traversal) (nodeId : String) (depth : Nat) : Bool :=
  (t.visitedNodes.get? nodeId).any fun prior => prior ≤ depth

def followEdge (ev : Evidence) (policy : ImpactPolicy) (item : QueueItem) (t : Traversal)
    (edge : DbEdgeRow) : Traversal :=
  let nextNodeId := nextNode item.currentNodeId edge
  let nextStrength := minStrength item.strength edge.strength
  let nextDepth := item.depth + 1
  let newSteps := item.steps ++ [stepOf edge]
  let target := targetOf ev nextNodeId
  let path : EvidencePath :=
    { changeId := item.changeId
      seedNode := item.seedNode
      targetNode := nextNodeId
      steps := newSteps
      pathStrength := nextStrength
      explanation := renderPathExplanation nextNodeId item.seedNode newSteps }
  { t with
    uncertainties := t.uncertainties ++ (if edge.stale then [staleEdgeReason edge] else [])
    hasFallbackPath := t.hasFallbackPath || decide (rank edge.strength < rank .precise)
    affectedIdentities := t.affectedIdentities ++ [nextNodeId, target.1]
    impacted := recordImpact policy t.impacted target nextDepth nextStrength path
    visitedNodes :=
      if isKnown t nextNodeId nextDepth then t.visitedNodes
      else t.visitedNodes.set nextNodeId nextDepth
    queue :=
      if isKnown t nextNodeId nextDepth then t.queue
      else t.queue ++
        [⟨nextNodeId, nextDepth, nextStrength, newSteps, item.changeId, item.seedNode⟩] }

def followEdges (ev : Evidence) (policy : ImpactPolicy) (item : QueueItem) :
    List DbEdgeRow → Traversal → Traversal
  | [], t => t
  | edge :: edges, t =>
    let t := { t with totalEdgesVisited := t.totalEdgesVisited + 1 }
    if policy.maxEdges < t.totalEdgesVisited then { t with edgeLimitHit := true }
    else followEdges ev policy item edges (followEdge ev policy item t edge)

def visit (ev : Evidence) (policy : ImpactPolicy) (item : QueueItem) (t : Traversal) : Traversal :=
  let expansion := expand ev item.currentNodeId
  let t := { t with
    uncertainties := t.uncertainties ++ expansion.uncertainties
    unknownKinds := t.unknownKinds ++ expansion.unknownKinds
    hasFallbackPath := t.hasFallbackPath || expansion.widened }
  if policy.maxDepth ≤ item.depth then
    { t with depthLimitHit := t.depthLimitHit || !expansion.outgoingEdges.isEmpty }
  else followEdges ev policy item expansion.outgoingEdges t

/-- The loop, with what is left of the node limit. -/
def traverse (ev : Evidence) (policy : ImpactPolicy) : Nat → Traversal → Traversal
  | remaining, t =>
    match t.queue with
    | [] => t
    | item :: queue =>
      match remaining with
      | 0 => { t with nodeLimitHit := true }
      | remaining + 1 =>
        traverse ev policy remaining (visit ev policy item { t with queue := queue })

end ImpactTraversal
