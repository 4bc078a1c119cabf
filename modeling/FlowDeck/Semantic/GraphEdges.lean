import FlowDeck.Semantic.IndexIngest

/-! Which edges are published, record by record and occurrence by occurrence. -/

namespace IndexIngest

open ScipModel EvidenceModel List

section Ensure

variable (p : Publisher) (b : Build) (pkg : Option String)

@[simp] theorem ensurePackageNode_edges : (ensurePackageNode p b pkg).edges = b.edges := by
  unfold ensurePackageNode
  split <;> try split_ifs
  all_goals rfl

@[simp] theorem ensurePackageNode_seen :
    (ensurePackageNode p b pkg).seenSymbolNodes = b.seenSymbolNodes := by
  unfold ensurePackageNode
  split <;> try split_ifs
  all_goals rfl

@[simp] theorem ensurePackageNode_groups :
    (ensurePackageNode p b pkg).occurrenceGroups = b.occurrenceGroups := by
  unfold ensurePackageNode
  split <;> try split_ifs
  all_goals rfl

end Ensure

variable (p : Publisher)

variable {plans : List DocPlan} {record : DocPlan × ScipSymbolInformation}

theorem mem_symbolRecords :
    record ∈ symbolRecords plans ↔ record.1 ∈ plans ∧ record.2 ∈ record.1.doc.symbols := by
  obtain ⟨plan, info⟩ := record
  simp only [symbolRecords, mem_flatMap, mem_map, Prod.mk.injEq]
  constructor
  · intro h
    obtain ⟨plan, hplan, info, hinfo, rfl, rfl⟩ := h
    exact ⟨hplan, hinfo⟩
  · exact fun h => ⟨plan, h.1, info, h.2, rfl, rfl⟩

theorem mem_occurrenceRecords {record : DocPlan × ScipOccurrence} :
    record ∈ occurrenceRecords plans ↔
      record.1 ∈ plans ∧ record.2 ∈ record.1.doc.occurrences := by
  obtain ⟨plan, occ⟩ := record
  simp only [occurrenceRecords, mem_flatMap, mem_map, Prod.mk.injEq]
  constructor
  · intro h
    obtain ⟨plan, hplan, occ, hocc, rfl, rfl⟩ := h
    exact ⟨hplan, hocc⟩
  · exact fun h => ⟨plan, h.1, occ, h.2, rfl, rfl⟩

def recordNode (record : DocPlan × ScipSymbolInformation) : String :=
  semanticSymbolNodeId record.1.canonical record.2.symbol

/-- The last of the records with the text of a symbol, whatever document it stands in. -/
def lastUnder (symbol : String) (records : List (DocPlan × ScipSymbolInformation)) :
    Option (DocPlan × ScipSymbolInformation) :=
  records.reverse.find? fun record => record.2.symbol = symbol

theorem recordSymbol_seen (b : Build) (record : DocPlan × ScipSymbolInformation) :
    (recordSymbol p b record).seenSymbolNodes =
      if record.2.symbol = "" then b.seenSymbolNodes
      else b.seenSymbolNodes.set record.2.symbol (recordNode record) := by
  unfold recordSymbol
  by_cases h : record.2.symbol = "" <;> simp [h, recordNode]

theorem recordSymbol_edges (b : Build) (record : DocPlan × ScipSymbolInformation) :
    (recordSymbol p b record).edges =
      b.edges ++
        if record.2.symbol = "" then []
        else
          record.2.relationships.flatMap
            (relationshipEdges p (recordSymbol p b record).seenSymbolNodes (recordNode record)) := by
  rw [recordSymbol_seen]
  unfold recordSymbol
  by_cases h : record.2.symbol = "" <;> simp [h, recordNode]

theorem recordSymbol_groups (b : Build) (record : DocPlan × ScipSymbolInformation) :
    (recordSymbol p b record).occurrenceGroups = b.occurrenceGroups := by
  unfold recordSymbol
  by_cases h : record.2.symbol = "" <;> simp [h]

/-- What has been made when the records of a prefix are through. -/
def afterRecords (plans : List DocPlan) (records : List (DocPlan × ScipSymbolInformation)) : Build :=
  records.foldl (recordSymbol p) { nodes := plans.map (fileNode p) }

theorem afterRecords_concat (plans : List DocPlan)
    (records : List (DocPlan × ScipSymbolInformation)) (record : DocPlan × ScipSymbolInformation) :
    afterRecords p plans (records ++ [record]) =
      recordSymbol p (afterRecords p plans records) record := by
  simp [afterRecords]

theorem afterRecords_groups (plans : List DocPlan)
    (records : List (DocPlan × ScipSymbolInformation)) :
    (afterRecords p plans records).occurrenceGroups = .empty := by
  induction records using reverseRecOn with
  | nil => rfl
  | append_singleton records record ih => rw [afterRecords_concat, recordSymbol_groups, ih]

def publishedFor (plans : List DocPlan) (earlier : List (DocPlan × ScipSymbolInformation))
    (record : DocPlan × ScipSymbolInformation) (rel : ScipRelationship) : List SemanticEdge :=
  relationshipEdges p (afterRecords p plans (earlier ++ [record])).seenSymbolNodes
    (recordNode record) rel

/-- A record and those before it. -/
def StandsAfter (records earlier : List (DocPlan × ScipSymbolInformation))
    (record : DocPlan × ScipSymbolInformation) : Prop :=
  record.2.symbol ≠ "" ∧ ∃ later, records = earlier ++ record :: later

theorem standsAfter_concat {records earlier : List (DocPlan × ScipSymbolInformation)}
    {last : DocPlan × ScipSymbolInformation} :
    StandsAfter (records ++ [last]) earlier record ↔
      StandsAfter records earlier record ∨ record.2.symbol ≠ "" ∧ records = earlier ∧ last = record := by
  constructor
  · intro h
    obtain ⟨hsymbol, later, heq⟩ := h
    cases later using reverseRecOn with
    | nil =>
      obtain ⟨hrecords, hlast⟩ := append_inj' heq rfl
      exact Or.inr ⟨hsymbol, hrecords, by simpa using hlast⟩
    | append_singleton later final =>
      rw [← cons_append, ← append_assoc] at heq
      obtain ⟨hrecords, -⟩ := append_inj' heq rfl
      exact Or.inl ⟨hsymbol, later, hrecords⟩
  · intro h
    cases h with
    | inl h =>
      obtain ⟨hsymbol, later, rfl⟩ := h
      exact ⟨hsymbol, later ++ [last], by simp⟩
    | inr h =>
      obtain ⟨hsymbol, rfl, rfl⟩ := h
      exact ⟨hsymbol, [], rfl⟩

theorem mem_edges_afterRecords (plans : List DocPlan)
    (records : List (DocPlan × ScipSymbolInformation)) (e : SemanticEdge) :
    e ∈ (afterRecords p plans records).edges ↔
      ∃ earlier record, StandsAfter records earlier record ∧
        ∃ rel ∈ record.2.relationships, e ∈ publishedFor p plans earlier record rel := by
  induction records using reverseRecOn with
  | nil =>
    have hnone : ¬∃ earlier record, StandsAfter [] earlier record ∧
        ∃ rel ∈ record.2.relationships, e ∈ publishedFor p plans earlier record rel := by
      intro h
      obtain ⟨earlier, record, ⟨-, later, heq⟩, -⟩ := h
      simp at heq
    exact iff_of_false not_mem_nil hnone
  | append_singleton records last ih =>
    rw [afterRecords_concat, recordSymbol_edges, mem_append, ih]
    simp only [standsAfter_concat]
    constructor
    · intro h
      cases h with
      | inl h =>
        obtain ⟨earlier, record, hstands, hrel⟩ := h
        exact ⟨earlier, record, Or.inl hstands, hrel⟩
      | inr h =>
        by_cases hsymbol : last.2.symbol = ""
        · simp [hsymbol] at h
        · rw [if_neg hsymbol] at h
          obtain ⟨rel, hrel, he⟩ := mem_flatMap.mp h
          refine ⟨records, last, Or.inr ⟨hsymbol, rfl, rfl⟩, rel, hrel, ?_⟩
          rw [publishedFor, afterRecords_concat]
          exact he
    · intro h
      obtain ⟨earlier, record, hstands, rel, hrel, he⟩ := h
      cases hstands with
      | inl hstands => exact Or.inl ⟨earlier, record, hstands, rel, hrel, he⟩
      | inr hlast =>
        obtain ⟨hsymbol, rfl, rfl⟩ := hlast
        right
        rw [if_neg hsymbol, ← afterRecords_concat]
        exact mem_flatMap.mpr ⟨rel, hrel, he⟩

def edgeEnds (e : SemanticEdge) : String × String × EdgeKind := (e.fromNode, e.toNode, e.kind)

def occurrenceKey (record : DocPlan × ScipOccurrence) : String × String × EdgeKind :=
  (record.1.fileNode, semanticSymbolNodeId record.1.canonical record.2.symbol,
    occurrenceKind record.2)

def Grouped (record : DocPlan × ScipOccurrence) : Prop :=
  record.2.symbol ≠ "" ∧ record.2.isGenerated = false

section Occurrences

variable (definingFile : String → Option (String × String))

theorem recordOccurrence_edges (b : Build) (record : DocPlan × ScipOccurrence) :
    (recordOccurrence p definingFile b record).edges = b.edges := by
  unfold recordOccurrence
  dsimp only
  split_ifs <;> simp

theorem recordOccurrence_groups (b : Build) (record : DocPlan × ScipOccurrence)
    (key : String × String × EdgeKind) :
    ((recordOccurrence p definingFile b record).occurrenceGroups.get? key).isSome ↔
      (b.occurrenceGroups.get? key).isSome ∨ Grouped record ∧ occurrenceKey record = key := by
  unfold recordOccurrence Grouped
  dsimp only
  by_cases hskip : (record.2.symbol = "" || record.2.isGenerated) = true
  · rw [if_pos hskip]
    have hnot : ¬(record.2.symbol ≠ "" ∧ record.2.isGenerated = false) := by
      intro h
      simp [h.1, h.2] at hskip
    simp [hnot]
  · rw [if_neg hskip]
    have hgrouped : record.2.symbol ≠ "" ∧ record.2.isGenerated = false := by simpa using hskip
    have hgroups : ∀ made : Build, made.occurrenceGroups = b.occurrenceGroups →
        ∀ group, ((made.occurrenceGroups.set (occurrenceKey record) group).get? key).isSome ↔
          (b.occurrenceGroups.get? key).isSome ∨ occurrenceKey record = key := by
      intro made hmade group
      rw [InsertionMap.get?_set, hmade]
      by_cases hkey : occurrenceKey record = key <;> simp [hkey]
    rw [and_iff_right hgrouped]
    apply hgroups
    split_ifs <;> simp

theorem foldl_recordOccurrence_edges (b : Build) (records : List (DocPlan × ScipOccurrence)) :
    (records.foldl (recordOccurrence p definingFile) b).edges = b.edges := by
  apply foldlRecOn records (recordOccurrence p definingFile)
    (motive := fun made : Build => made.edges = b.edges)
  · rfl
  · intro made hmade record _
    rw [recordOccurrence_edges, hmade]

theorem foldl_recordOccurrence_groups (b : Build) (records : List (DocPlan × ScipOccurrence))
    (key : String × String × EdgeKind) :
    ((records.foldl (recordOccurrence p definingFile) b).occurrenceGroups.get? key).isSome ↔
      (b.occurrenceGroups.get? key).isSome ∨
        ∃ record ∈ records, Grouped record ∧ occurrenceKey record = key := by
  induction records generalizing b with
  | nil => simp
  | cons record records ih =>
    rw [foldl_cons, ih, recordOccurrence_groups]
    simp [or_assoc]

end Occurrences

/-- The packages compared are both taken of one symbol, so no export is ever found. -/
theorem exportEdge?_eq_none (definingFile : String → Option (String × String))
    (record : DocPlan × ScipOccurrence) : exportEdge? p definingFile record = none := by
  unfold exportEdge?
  dsimp only
  split_ifs
  · rfl
  · split <;> simp

theorem mem_graph_edges (plans : List DocPlan) (e : SemanticEdge) :
    e ∈ (semanticGraph p plans).2 ↔
      e ∈ (afterRecords p plans (symbolRecords plans)).edges ∨
        ∃ entry ∈ ((occurrenceRecords plans).foldl (recordOccurrence p (symbolDefiningFile plans))
          (afterRecords p plans (symbolRecords plans))).occurrenceGroups.entries,
            occurrenceEdge p entry = e := by
  have hexports : (occurrenceRecords plans).filterMap (exportEdge? p (symbolDefiningFile plans)) = [] := by
    simp [exportEdge?_eq_none]
  simp only [semanticGraph, hexports, firstUnder, append_nil, mem_append, mem_map,
    foldl_recordOccurrence_edges]
  rfl

theorem mem_groups_iff (plans : List DocPlan) (key : String × String × EdgeKind) :
    (∃ entry ∈ ((occurrenceRecords plans).foldl (recordOccurrence p (symbolDefiningFile plans))
        (afterRecords p plans (symbolRecords plans))).occurrenceGroups.entries, entry.1 = key) ↔
      ∃ record ∈ occurrenceRecords plans, Grouped record ∧ occurrenceKey record = key := by
  rw [← InsertionMap.isSome_get?_iff, foldl_recordOccurrence_groups, afterRecords_groups]
  simp

end IndexIngest
