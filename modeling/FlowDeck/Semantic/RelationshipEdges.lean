import FlowDeck.Semantic.GraphEdges

/-! When every relationship is published as it asks, whatever order the records stand in. -/

namespace RelationshipEdges

open ScipModel EvidenceModel IndexIngest List

abbrev SymbolRecord := DocPlan × ScipSymbolInformation

/-- A symbol has a record; a local one, in a document of the path it is named in. -/
def Recorded (records : List SymbolRecord) (docPath symbol : String) : Prop :=
  ∃ record ∈ records, record.2.symbol = symbol ∧
    (isLocalSymbol symbol = true → record.1.canonical = docPath)

def askedKinds (rel : ScipRelationship) (nodeId target : String) : List EdgeKind :=
  (if rel.isImplementation then [.implements] else []) ++
  (if rel.isDefinition && target ≠ nodeId then [.defines] else []) ++
  (if rel.isReference && target ≠ nodeId then [.references] else [])

instance decidableRecorded (records : List SymbolRecord) (docPath symbol : String) :
    Decidable (Recorded records docPath symbol) :=
  inferInstanceAs (Decidable (∃ record ∈ records, record.2.symbol = symbol ∧
    (isLocalSymbol symbol = true → record.1.canonical = docPath)))

def askedOf (p : Publisher) (records : List SymbolRecord) (record : SymbolRecord)
    (rel : ScipRelationship) : List SemanticEdge :=
  if rel.symbol ≠ "" ∧ Recorded records record.1.canonical rel.symbol then
    let target := semanticSymbolNodeId record.1.canonical rel.symbol
    (askedKinds rel (recordNode record) target).map (makeSymbolEdge p (recordNode record) target)
  else []

def Exact (p : Publisher) (plans : List DocPlan) : Prop :=
  ∀ earlier record, StandsAfter (symbolRecords plans) earlier record →
    ∀ rel ∈ record.2.relationships,
      publishedFor p plans earlier record rel = askedOf p (symbolRecords plans) record rel

/-- The same document with its symbol records in some order. -/
def SameDocument (plan plan' : DocPlan) : Prop :=
  ∃ symbols, plan.doc.symbols.Perm symbols ∧
    plan' = { plan with doc := { plan.doc with symbols := symbols } }

/-- The record that the raw text of a symbol leads to so far is the one that is meant: of a local
symbol, one of the same document; and there is one as soon as there is one anywhere. -/
def FoundRight (records earlier : List SymbolRecord) (record : SymbolRecord) (symbol : String) :
    Prop :=
  match lastUnder symbol (earlier ++ [record]) with
  | some found => isLocalSymbol symbol = true → found.1.canonical = record.1.canonical
  | none => ¬Recorded records record.1.canonical symbol

/-- The node the raw text leads to so far, or the one that is meant, is one that the flags of the
relationship ask an edge to. -/
def AsksOf (records earlier : List SymbolRecord) (record : SymbolRecord) (rel : ScipRelationship) :
    Prop :=
  (∃ found, lastUnder rel.symbol (earlier ++ [record]) = some found ∧
      askedKinds rel (recordNode record) (recordNode found) ≠ []) ∨
    Recorded records record.1.canonical rel.symbol ∧
      askedKinds rel (recordNode record)
        (semanticSymbolNodeId record.1.canonical rel.symbol) ≠ []

/-- The related symbol of every relationship that asks for an edge is found right among the records
that stand before, or the record itself. -/
def Resolved (plans : List DocPlan) : Prop :=
  ∀ earlier record, StandsAfter (symbolRecords plans) earlier record →
    ∀ rel ∈ record.2.relationships, rel.symbol ≠ "" →
      AsksOf (symbolRecords plans) earlier record rel →
        FoundRight (symbolRecords plans) earlier record rel.symbol

section Ids

variable {symbol : String}

end Ids

variable {p : Publisher}

def edgesBetween (p : Publisher) (rel : ScipRelationship) (nodeId target : String) :
    List SemanticEdge :=
  (askedKinds rel nodeId target).map (makeSymbolEdge p nodeId target)

variable {rel : ScipRelationship} {records : List SymbolRecord} {record : SymbolRecord}
  {plans plans' : List DocPlan}

theorem relationshipEdges_eq (seen : InsertionMap String String) (nodeId : String)
    {rel : ScipRelationship} (h : rel.symbol ≠ "") :
    relationshipEdges p seen nodeId rel =
      (seen.get? rel.symbol).elim [] (edgesBetween p rel nodeId) := by
  rw [relationshipEdges, if_neg h]
  cases seen.get? rel.symbol with
  | none => rfl
  | some target =>
    simp only [Option.elim_some, edgesBetween, askedKinds, map_append]
    congr 2 <;> split_ifs <;> rfl

theorem StandsAfter.mem {earlier : List SymbolRecord} (h : StandsAfter records earlier record) :
    record ∈ records := by
  obtain ⟨-, later, rfl⟩ := h
  simp

theorem SameDocument.symm {plan plan' : DocPlan} (h : SameDocument plan plan') :
    SameDocument plan' plan := by
  obtain ⟨symbols, hperm, rfl⟩ := h
  exact ⟨plan.doc.symbols, hperm.symm, rfl⟩

/-- Every document of some plans is among others. -/
def Among (plans plans' : List DocPlan) : Prop :=
  ∀ plan ∈ plans, ∃ plan' ∈ plans', SameDocument plan plan'

/-- A record of some plans stands in a document of the same path among others. -/
theorem Among.exists_record (h : Among plans plans') {record : SymbolRecord}
    (hrecord : record ∈ symbolRecords plans) :
    ∃ record' ∈ symbolRecords plans',
      record'.1.canonical = record.1.canonical ∧ record'.2 = record.2 := by
  obtain ⟨hplan, hinfo⟩ := mem_symbolRecords.mp hrecord
  obtain ⟨plan', hplan', symbols, hperm, rfl⟩ := h record.1 hplan
  refine ⟨(_, record.2), mem_symbolRecords.mpr ⟨hplan', ?_⟩, rfl, rfl⟩
  exact hperm.mem_iff.mp hinfo

theorem Among.recorded (h : Among plans plans') {docPath symbol : String}
    (hrecorded : Recorded (symbolRecords plans) docPath symbol) :
    Recorded (symbolRecords plans') docPath symbol := by
  obtain ⟨record, hrecord, hsymbol, hlocal⟩ := hrecorded
  obtain ⟨record', hrecord', hpath, hinfo⟩ := h.exists_record hrecord
  exact ⟨record', hrecord', by rw [hinfo, hsymbol], fun hl => hpath.trans (hlocal hl)⟩

def samplePublisher : Publisher where
  providerId := "scip-typescript"
  fingerprint := ⟨"0.3", "tool", "scip-1", none, "config", "digest"⟩
  generation := 1
  outputDigest := "output"

def sampleDocument (path : String) (symbols : List ScipSymbolInformation) : DocPlan where
  canonical := path
  sourceHash := "hash"
  language := .typeScript
  fileNode := fileNodePrefix ++ path
  doc := { language := "typescript", relativePath := path, symbols := symbols }

end RelationshipEdges
