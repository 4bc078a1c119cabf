import FlowDeck.Semantic.RelationshipEdges

/-! What is published of imports across packages. -/

namespace ExportEdges

open IndexIngest ScipModel EvidenceModel RelationshipEdges

/-- An occurrence imports a global symbol that another one defines in a file of another package. -/
structure ImportsAcross (packageOf : DocPlan → String) (importer definer : DocPlan × ScipOccurrence) :
    Prop where
  isImport : importer.2.isImport = true
  isDefinition : definer.2.isDefinition = true
  symbol : definer.2.symbol = importer.2.symbol
  named : importer.2.symbol ≠ ""
  isGlobal : isLocalSymbol importer.2.symbol = false
  packages : packageOf importer.1 ≠ packageOf definer.1

def exportEnds (definer : DocPlan × ScipOccurrence) : String × String × EdgeKind :=
  (definer.1.fileNode, semanticSymbolNodeId definer.1.canonical definer.2.symbol, .exports)

structure ExportLaw (packageOf : DocPlan → String) (p : Publisher) (plans : List DocPlan) : Prop where
  published : ∀ importer ∈ occurrenceRecords plans, ∀ definer ∈ occurrenceRecords plans,
    ImportsAcross packageOf importer definer →
      ((semanticGraph p plans).2.filter fun e => edgeEnds e = exportEnds definer).length = 1
  onlyAcross : ∀ e ∈ (semanticGraph p plans).2, e.kind = .exports →
    ∃ importer ∈ occurrenceRecords plans, ∃ definer ∈ occurrenceRecords plans,
      ImportsAcross packageOf importer definer ∧ edgeEnds e = exportEnds definer

variable {p : Publisher} {plans : List DocPlan} {e : SemanticEdge}

theorem kind_of_relationshipEdges {seen : InsertionMap String String} {nodeId : String}
    {rel : ScipRelationship} (h : e ∈ relationshipEdges p seen nodeId rel) : e.kind ≠ .exports := by
  by_cases hsymbol : rel.symbol = ""
  · rw [relationshipEdges, if_pos hsymbol] at h
    cases h
  · rw [relationshipEdges_eq seen nodeId hsymbol] at h
    cases hseen : seen.get? rel.symbol with
    | none =>
      rw [hseen] at h
      cases h
    | some target =>
      rw [hseen] at h
      obtain ⟨kind, hkind, rfl⟩ := List.mem_map.mp h
      have hasked : kind = .implements ∨ kind = .defines ∨ kind = .references := by
        simp only [askedKinds, List.mem_append, List.mem_ite_nil_right, List.mem_singleton] at hkind
        tauto
      have hkindOf : (makeSymbolEdge p nodeId target kind).kind = kind := rfl
      rw [hkindOf]
      rcases hasked with rfl | rfl | rfl
      · decide
      · decide
      · decide

/-- The publication of an index holds no export. -/
theorem kind_ne_exports (h : e ∈ (semanticGraph p plans).2) : e.kind ≠ .exports := by
  rcases (mem_graph_edges p plans e).mp h with h | ⟨entry, hentry, rfl⟩
  · obtain ⟨earlier, record, -, rel, -, hrel⟩ := (mem_edges_afterRecords p plans _ e).mp h
    exact kind_of_relationshipEdges hrel
  · obtain ⟨record, -, -, hkey⟩ := (mem_groups_iff p plans entry.1).mp ⟨entry, hentry, rfl⟩
    have hkind : (occurrenceEdge p entry).kind = occurrenceKind record.2 :=
      congrArg (fun key => key.2.2) hkey.symm
    rw [hkind]
    unfold occurrenceKind
    split_ifs
    · decide
    · decide
    · decide

/-- The exports are as they should be exactly when no file imports what a file of another package
defines. -/
theorem exportLaw_iff (packageOf : DocPlan → String) (p : Publisher) (plans : List DocPlan) :
    ExportLaw packageOf p plans ↔ ∀ importer ∈ occurrenceRecords plans,
      ∀ definer ∈ occurrenceRecords plans, ¬ ImportsAcross packageOf importer definer := by
  constructor
  · intro hlaw importer himporter definer hdefiner hacross
    have hone := hlaw.published importer himporter definer hdefiner hacross
    have hsome : 0 < ((semanticGraph p plans).2.filter
        fun e => edgeEnds e = exportEnds definer).length := by omega
    obtain ⟨e, he⟩ := List.exists_mem_of_length_pos hsome
    obtain ⟨hmem, hends⟩ := List.mem_filter.mp he
    exact kind_ne_exports hmem (congrArg (fun key => key.2.2) (of_decide_eq_true hends))
  · intro hnone
    constructor
    · exact fun importer himporter definer hdefiner hacross =>
        absurd hacross (hnone importer himporter definer hdefiner)
    · exact fun e he hkind => absurd hkind (kind_ne_exports he)

/-- A function that one package defines and another imports. -/
def libDocument : DocPlan := { sampleDocument "lib/a.ts" [] with
  doc := { relativePath := "lib/a.ts", occurrences := [⟨"scip npm lib 1 f().", 1, none⟩] } }

def appDocument : DocPlan := { sampleDocument "app/b.ts" [] with
  doc := { relativePath := "app/b.ts", occurrences := [⟨"scip npm lib 1 f().", 2, none⟩] } }

/-- The directory a file is in. -/
def directoryOf (plan : DocPlan) : String := (Paths.parent? plan.canonical).getD ""

theorem import_across_unpublished :
    ¬ ExportLaw directoryOf samplePublisher [libDocument, appDocument] := by
  intro hlaw
  have hacross : ImportsAcross directoryOf
      (appDocument, ⟨"scip npm lib 1 f().", 2, none⟩) (libDocument, ⟨"scip npm lib 1 f().", 1, none⟩) :=
    ⟨by decide, by decide, rfl, by decide, by decide +kernel, by decide +kernel⟩
  have hone := hlaw.published _ (by decide) _ (by decide) hacross
  revert hone
  decide +kernel

end ExportEdges
