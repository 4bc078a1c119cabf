import FlowDeck.Policy.PolicyStore

/-! The nodes and edges of the evidence graph, and the providers that publish them. -/

namespace EvidenceModel

open PolicyStore (EvidenceStrength)

inductive LanguageId
  | typeScript
  | javaScript
  | rust
  deriving DecidableEq

namespace LanguageId

def text : LanguageId → String
  | .typeScript => "typescript"
  | .javaScript => "javascript"
  | .rust => "rust"

/-- A language identifier or the language of a SCIP document. -/
def fromText? (s : String) : Option LanguageId :=
  let lower := String.ofList (s.toList.map Char.toLower)
  if lower ∈ ["typescript", "ts", "tsx"] then some .typeScript
  else if lower ∈ ["javascript", "js", "jsx", "mjs", "cjs"] then some .javaScript
  else if lower ∈ ["rust", "rs"] then some .rust
  else none

end LanguageId

/-- What determines the semantics of a provider, with a digest over all of it. -/
structure ProviderFingerprint where
  providerVersion : String
  executableIdentity : String
  scipSchemaVersion : String
  compilerVersion : Option String
  configFingerprint : String
  digest : String
  deriving DecidableEq

inductive NodeKind
  | file
  | module
  | package
  | symbol
  | test
  | config
  | generatedArtifact
  | externalDependency
  | workspace
  | buildTarget
  deriving DecidableEq

inductive EdgeKind
  | imports
  | reExports
  | calls
  | defines
  | exports
  | extends
  | implements
  | references
  | configures
  | generates
  | tests
  | ordersBefore
  | contains
  | dependsOn
  | belongsTo
  | reads
  | uses
  deriving DecidableEq

def EdgeKind.text : EdgeKind → String
  | .imports => "imports"
  | .reExports => "re_exports"
  | .calls => "calls"
  | .defines => "defines"
  | .exports => "exports"
  | .extends => "extends"
  | .implements => "implements"
  | .references => "references"
  | .configures => "configures"
  | .generates => "generates"
  | .tests => "tests"
  | .ordersBefore => "orders_before"
  | .contains => "contains"
  | .dependsOn => "depends_on"
  | .belongsTo => "belongs_to"
  | .reads => "reads"
  | .uses => "uses"

inductive EvidenceProviderKind
  | scip
  | compilerNative
  | treeSitter
  | buildNative
  | runnerNative
  | runtimeObserved
  | historical
  | manualRule
  deriving DecidableEq

def fileNodePrefix : String := "file:"

structure SemanticNode where
  stableId : String
  kind : NodeKind
  canonicalPath : Option String
  symbolIdentity : Option String
  packageIdentity : Option String
  metadata : Option String
  provider : String
  providerFingerprint : String
  generation : Nat
  sourceIdentity : Option String
  sourceHash : Option String
  deriving DecidableEq

structure SemanticEdge where
  stableId : String
  fromNode : String
  toNode : String
  kind : EdgeKind
  provider : EvidenceProviderKind
  providerId : Option String
  providerFingerprint : String
  strength : EvidenceStrength
  sourceIdentity : Option String
  sourceHash : Option String
  generation : Nat
  metadata : Option String
  deriving DecidableEq

end EvidenceModel
