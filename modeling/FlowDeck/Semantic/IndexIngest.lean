import FlowDeck.Library.InsertionMap
import FlowDeck.Library.Json
import FlowDeck.Semantic.EvidenceModel
import FlowDeck.Semantic.ScipDecoder
import FlowDeck.Verification.Paths

/-! The nodes and edges that are made of an index. -/

namespace IndexIngest

open Checked Paths ScipModel EvidenceModel

open PolicyStore (containsText isBlank)

inductive IngestError
  | pathJail (path : String)
  | unresolvablePath (path : String)
  | unknownLanguage (language : String)
  | io (message : String)
  deriving DecidableEq

/-- The repository as the file system has it: what paths resolve to, which are files, and the digests
of what these hold. -/
structure Workspace where
  root : String
  canonicalize : String → Option String
  isFile : String → Bool
  fileDigest : String → Except String String

structure DocPlan where
  canonical : String
  sourceHash : String
  language : LanguageId
  fileNode : String
  doc : ScipDocument
  deriving DecidableEq

/-- `Path::extension`. -/
def extension? (path : String) : Option String :=
  (fileName? path).bind fun name =>
    match (name.toList.splitOn '.').reverse with
    | last :: rest => if rest = [] || rest = [[]] then none else some (String.ofList last)
    | [] => none

def docLanguage (doc : ScipDocument) : Except IngestError LanguageId :=
  match LanguageId.fromText? doc.language with
  | some language => .ok language
  | none =>
    match if isBlank doc.language then (extension? doc.relativePath).bind LanguageId.fromText?
      else none with
    | some language => .ok language
    | none => .error (.unknownLanguage doc.language)

def jailDocumentPath (w : Workspace) (relativePath : String) : Except IngestError String :=
  if isAbsolute relativePath || containsText relativePath "://" || containsText relativePath ".." ||
      relativePath.toList.contains '\x5c' then
    .error (.pathJail relativePath)
  else
    match w.canonicalize (join w.root relativePath) with
    | none => .error (.pathJail relativePath)
    | some canonical =>
      (canonicalizeRepoPath canonical ((w.canonicalize w.root).getD w.root)).mapError fun e =>
        .pathJail (relativePath ++ ": " ++ e)

def planDocument (w : Workspace) (doc : ScipDocument) : Except IngestError DocPlan := do
  let language ← docLanguage doc
  let canonical ← jailDocumentPath w doc.relativePath
  refuseIf (w.isFile (join w.root canonical) = false) (.unresolvablePath canonical)
  let sourceHash ← (w.fileDigest (join w.root canonical)).mapError .io
  return ⟨canonical, sourceHash, language, fileNodePrefix ++ canonical, doc⟩

/-- Every path must jail inside the repository, and every document resolve to a file. -/
def planDocuments (w : Workspace) (index : ScipIndex) : Except IngestError (List DocPlan) :=
  index.documents.mapM (planDocument w)

structure Publisher where
  providerId : String
  fingerprint : ProviderFingerprint
  generation : Nat
  outputDigest : String

/-- The SCIP symbol, or a document-scoped id for a local one. -/
def semanticSymbolNodeId (docPath symbol : String) : String :=
  if isLocalSymbol symbol then "sem:local:" ++ docPath ++ ":" ++ symbol else "sem:" ++ symbol

def semanticEdgeId (fromNode toNode : String) (kind : EdgeKind) (providerId : String) : String :=
  "se:" ++ fromNode ++ ":" ++ toNode ++ ":" ++ kind.text ++ ":" ++ providerId

def jsonStrOrNull (s : Option String) : String :=
  String.ofList ((s.elim Json.null Json.string).stringify)

def parseSymbolParts (symbol : String) : Option (String × String × String × String) :=
  if isLocalSymbol symbol then none
  else
    match (symbol.toList.splitOn ' ').map String.ofList with
    | scheme :: manager :: name :: version :: _ =>
      if scheme = "" || scheme = "local" then none else some (scheme, manager, name, version)
    | _ => none

def packageIdOf (symbol : String) : Option String :=
  match parseSymbolParts symbol with
  | none => none
  | some (_, manager, name, version) =>
    if name = "" || name = "." || manager = "" || manager = "." then none
    else some (manager ++ ":" ++ name ++ ":" ++ version)

def packageNodeIdForSymbol (symbol : String) : Option String :=
  (packageIdOf symbol).map ("pkg:" ++ ·)

def makeSymbolEdge (p : Publisher) (fromNode toNode : String) (kind : EdgeKind) : SemanticEdge where
  stableId := semanticEdgeId fromNode toNode kind p.providerId
  fromNode := fromNode
  toNode := toNode
  kind := kind
  provider := .scip
  providerId := some p.providerId
  providerFingerprint := p.fingerprint.digest
  strength := .precise
  sourceIdentity := some ("scip-index:" ++ p.providerId ++ ":" ++ toString p.generation)
  sourceHash := some p.outputDigest
  generation := p.generation
  metadata := none

def relationshipEdges (p : Publisher) (seen : InsertionMap String String) (nodeId : String)
    (rel : ScipRelationship) : List SemanticEdge :=
  if rel.symbol = "" then []
  else
    match seen.get? rel.symbol with
    | none => []
    | some target =>
      (if rel.isImplementation then [makeSymbolEdge p nodeId target .implements] else []) ++
      (if rel.isDefinition && target ≠ nodeId then [makeSymbolEdge p nodeId target .defines]
        else []) ++
      (if rel.isReference && target ≠ nodeId then [makeSymbolEdge p nodeId target .references]
        else [])

/-- What has been made so far: an occurrence group has the file and digest it is of, and the
positions, under its file node, symbol node and kind. -/
structure Build where
  nodes : List SemanticNode := []
  edges : List SemanticEdge := []
  packageNodes : InsertionMap String String := .empty
  seenSymbolNodes : InsertionMap String String := .empty
  occurrenceGroups : InsertionMap (String × String × EdgeKind) (String × String × List Json) := .empty

def fileNode (p : Publisher) (plan : DocPlan) : SemanticNode where
  stableId := plan.fileNode
  kind := .file
  canonicalPath := some plan.canonical
  symbolIdentity := none
  packageIdentity := none
  metadata := some ("\x7b\x22language\x22:\x22" ++ plan.language.text ++ "\x22\x7d")
  provider := p.providerId
  providerFingerprint := p.fingerprint.digest
  generation := p.generation
  sourceIdentity := some plan.canonical
  sourceHash := some plan.sourceHash

def packageNode (p : Publisher) (pkg : String) : SemanticNode where
  stableId := "pkg:" ++ pkg
  kind := .package
  canonicalPath := none
  symbolIdentity := none
  packageIdentity := some pkg
  metadata := none
  provider := p.providerId
  providerFingerprint := p.fingerprint.digest
  generation := p.generation
  sourceIdentity := some ("provider-scope:" ++ p.providerId ++ ":" ++ pkg)
  sourceHash := some p.outputDigest

def ensurePackageNode (p : Publisher) (b : Build) : Option String → Build
  | none => b
  | some pkg =>
    if (b.packageNodes.get? pkg).isSome then b
    else
      { b with
        packageNodes := b.packageNodes.set pkg ("pkg:" ++ pkg)
        nodes := b.nodes ++ [packageNode p pkg] }

/-- A symbol node, with the file and digest it is attributed to. -/
def symbolNode (p : Publisher) (nodeId symbol : String) (metadata : Option String)
    (source : String × String) : SemanticNode where
  stableId := nodeId
  kind := .symbol
  canonicalPath := some source.1
  symbolIdentity := some symbol
  packageIdentity := packageNodeIdForSymbol symbol
  metadata := metadata
  provider := p.providerId
  providerFingerprint := p.fingerprint.digest
  generation := p.generation
  sourceIdentity := some source.1
  sourceHash := some source.2

def symbolMetadata (info : ScipSymbolInformation) : String :=
  "\x7b\x22display_name\x22:" ++ jsonStrOrNull info.displayName ++ ",\x22scip_kind\x22:" ++
    toString info.kind ++ "\x7d"

/-- A symbol record of a document: its node, and the edges of its relationships. -/
def recordSymbol (p : Publisher) (b : Build) (record : DocPlan × ScipSymbolInformation) : Build :=
  let (plan, info) := record
  if info.symbol = "" then b
  else
    let nodeId := semanticSymbolNodeId plan.canonical info.symbol
    let seen := b.seenSymbolNodes.set info.symbol nodeId
    let node :=
      symbolNode p nodeId info.symbol (some (symbolMetadata info)) (plan.canonical, plan.sourceHash)
    let b := { b with seenSymbolNodes := seen, nodes := b.nodes ++ [node] }
    let b := ensurePackageNode p b (packageNodeIdForSymbol info.symbol)
    { b with edges := b.edges ++ info.relationships.flatMap (relationshipEdges p seen nodeId) }

/-- The symbol records in the order of the documents and of the records inside each. -/
def symbolRecords (plans : List DocPlan) : List (DocPlan × ScipSymbolInformation) :=
  plans.flatMap fun plan => plan.doc.symbols.map fun info => (plan, info)

def occurrenceRecords (plans : List DocPlan) : List (DocPlan × ScipOccurrence) :=
  plans.flatMap fun plan => plan.doc.occurrences.map fun occ => (plan, occ)

/-- The file that first defines a global symbol, and its digest. -/
def symbolDefiningFile (plans : List DocPlan) (symbol : String) : Option (String × String) :=
  (occurrenceRecords plans).findSome? fun record =>
    if record.2.isDefinition && !isLocalSymbol record.2.symbol && record.2.symbol = symbol then
      some (record.1.canonical, record.1.sourceHash)
    else none

def occurrenceJson (occ : ScipOccurrence) : Json :=
  match occ.range with
  | some r =>
    .object [("end_character", .number (toString r.endCharacter)),
      ("end_line", .number (toString r.endLine)),
      ("start_character", .number (toString r.startCharacter)),
      ("start_line", .number (toString r.startLine))]
  | none => .object []

def occurrenceKind (occ : ScipOccurrence) : EdgeKind :=
  if occ.isDefinition then .defines else if occ.isImport then .imports else .references

/-- An occurrence of a document: the node of its symbol, unless there is one, and its position. -/
def recordOccurrence (p : Publisher) (definingFile : String → Option (String × String)) (b : Build)
    (record : DocPlan × ScipOccurrence) : Build :=
  let (plan, occ) := record
  if occ.symbol = "" || occ.isGenerated then b
  else
    let nodeId := semanticSymbolNodeId plan.canonical occ.symbol
    let b := { b with seenSymbolNodes := b.seenSymbolNodes.set occ.symbol nodeId }
    let b :=
      if b.nodes.any fun node => node.stableId = nodeId then b
      else
        let source := (definingFile occ.symbol).getD (plan.canonical, plan.sourceHash)
        let node := symbolNode p nodeId occ.symbol none source
        ensurePackageNode p { b with nodes := b.nodes ++ [node] } (packageNodeIdForSymbol occ.symbol)
    let key := (plan.fileNode, nodeId, occurrenceKind occ)
    let group := (b.occurrenceGroups.get? key).getD (plan.canonical, plan.sourceHash, [])
    { b with
      occurrenceGroups :=
        b.occurrenceGroups.set key (group.1, group.2.1, group.2.2 ++ [occurrenceJson occ]) }

def occurrenceEdge (p : Publisher)
    (group : (String × String × EdgeKind) × String × String × List Json) : SemanticEdge where
  stableId := semanticEdgeId group.1.1 group.1.2.1 group.1.2.2 p.providerId
  fromNode := group.1.1
  toNode := group.1.2.1
  kind := group.1.2.2
  provider := .scip
  providerId := some p.providerId
  providerFingerprint := p.fingerprint.digest
  strength := .precise
  sourceIdentity := some group.2.1
  sourceHash := some group.2.2.1
  generation := p.generation
  metadata := some (String.ofList (Json.array group.2.2.2).stringify)

def exportEdge? (p : Publisher) (definingFile : String → Option (String × String))
    (record : DocPlan × ScipOccurrence) : Option SemanticEdge :=
  let (plan, occ) := record
  if !occ.isImport || occ.symbol = "" then none
  else
    let importerPkg := (packageIdOf occ.symbol).getD ""
    match definingFile occ.symbol with
    | none => none
    | some (definer, definerHash) =>
      let definerPkg := (packageIdOf occ.symbol).getD ""
      if definer ≠ plan.canonical && importerPkg ≠ definerPkg && importerPkg ≠ "" then
        let fromNode := fileNodePrefix ++ definer
        let toNode := semanticSymbolNodeId definer occ.symbol
        some
          { stableId := semanticEdgeId fromNode toNode .exports p.providerId
            fromNode := fromNode
            toNode := toNode
            kind := .exports
            provider := .scip
            providerId := some p.providerId
            providerFingerprint := p.fingerprint.digest
            strength := .precise
            sourceIdentity := some definer
            sourceHash := some definerHash
            generation := p.generation
            metadata := none }
      else none

def firstUnder {α : Type} (key : α → String) : List α → List α
  | [] => []
  | a :: rest => a :: (firstUnder key rest).filter fun b => key b ≠ key a

/-- The nodes, the first under each id, and the edges that are published; the occurrence groups are
walked in an order that does not matter. -/
def semanticGraph (p : Publisher) (plans : List DocPlan) : List SemanticNode × List SemanticEdge :=
  let definingFile := symbolDefiningFile plans
  let b : Build := { nodes := plans.map (fileNode p) }
  let b := (symbolRecords plans).foldl (recordSymbol p) b
  let b := (occurrenceRecords plans).foldl (recordOccurrence p definingFile) b
  let exports :=
    firstUnder SemanticEdge.stableId ((occurrenceRecords plans).filterMap (exportEdge? p definingFile))
  (firstUnder SemanticNode.stableId b.nodes,
    b.edges ++ b.occurrenceGroups.entries.map (occurrenceEdge p) ++ exports)

end IndexIngest
