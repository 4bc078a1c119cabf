import FlowDeck.Semantic.GraphEdges

/-! The published nodes and edges carry their publisher, and no edge is without its nodes. -/

namespace IndexIngest

open ScipModel EvidenceModel List

def isFileNodeId (id : String) : Bool := fileNodePrefix.toList.isPrefixOf id.toList

def Named (nodes : List SemanticNode) (id : String) : Prop := ∃ node ∈ nodes, node.stableId = id

variable {id : String} {b : Build} {plans : List DocPlan}

theorem Named.append {nodes : List SemanticNode} (h : Named nodes id) (more : List SemanticNode) :
    Named (nodes ++ more) id := by
  obtain ⟨node, hmem, hid⟩ := h
  exact ⟨node, mem_append_left more hmem, hid⟩

/-- A node carries its publisher, and is under the id its path gives it when it is a file's. -/
structure SignedNode (p : Publisher) (node : SemanticNode) : Prop where
  provider : node.provider = p.providerId
  fingerprint : node.providerFingerprint = p.fingerprint.digest
  generation : node.generation = p.generation
  file : isFileNodeId node.stableId = true →
    node.stableId = fileNodePrefix ++ node.canonicalPath.getD ""

structure SignedEdge (p : Publisher) (edge : SemanticEdge) : Prop where
  provider : edge.providerId = some p.providerId
  fingerprint : edge.providerFingerprint = p.fingerprint.digest
  generation : edge.generation = p.generation

/-- The ends of an edge are nodes, and it leads to a symbol. -/
structure Joined (nodes : List SemanticNode) (fromNode toNode : String) : Prop where
  source : Named nodes fromNode
  target : Named nodes toNode
  symbol : isFileNodeId toNode = false

theorem Joined.append {nodes : List SemanticNode} {fromNode toNode : String}
    (h : Joined nodes fromNode toNode) (more : List SemanticNode) :
    Joined (nodes ++ more) fromNode toNode :=
  ⟨h.source.append more, h.target.append more, h.symbol⟩

structure WellBuilt (p : Publisher) (b : Build) : Prop where
  nodes : ∀ node ∈ b.nodes, SignedNode p node
  edges : ∀ edge ∈ b.edges, SignedEdge p edge ∧ Joined b.nodes edge.fromNode edge.toNode
  seen : ∀ symbol id, b.seenSymbolNodes.get? symbol = some id →
    Named b.nodes id ∧ isFileNodeId id = false
  groups : ∀ entry ∈ b.occurrenceGroups.entries, Joined b.nodes entry.1.1 entry.1.2.1

@[simp] theorem isFileNodeId_symbol (docPath symbol : String) :
    isFileNodeId (semanticSymbolNodeId docPath symbol) = false := by
  unfold isFileNodeId semanticSymbolNodeId
  split_ifs <;> simp [fileNodePrefix, isPrefixOf]

@[simp] theorem isFileNodeId_package (pkg : String) : isFileNodeId ("pkg:" ++ pkg) = false := by
  simp [isFileNodeId, fileNodePrefix, isPrefixOf]

variable {p : Publisher}

theorem WellBuilt.addNode {b : Build} (h : WellBuilt p b) {node : SemanticNode}
    (hnode : SignedNode p node) : WellBuilt p { b with nodes := b.nodes ++ [node] } where
  nodes := by
    intro candidate hmem
    cases mem_append.mp hmem with
    | inl hmem => exact h.nodes candidate hmem
    | inr hmem => exact mem_singleton.mp hmem ▸ hnode
  edges := fun edge hedge => ⟨(h.edges edge hedge).1, (h.edges edge hedge).2.append _⟩
  seen := fun symbol id hid => ⟨(h.seen symbol id hid).1.append _, (h.seen symbol id hid).2⟩
  groups := fun entry hentry => (h.groups entry hentry).append _

theorem WellBuilt.addSeen {b : Build} (h : WellBuilt p b) (symbol : String) {id : String}
    (hid : Named b.nodes id ∧ isFileNodeId id = false) :
    WellBuilt p { b with seenSymbolNodes := b.seenSymbolNodes.set symbol id } where
  nodes := h.nodes
  edges := h.edges
  seen := by
    intro candidate found hfound
    rw [InsertionMap.get?_set] at hfound
    split_ifs at hfound
    · exact Option.some.inj hfound ▸ hid
    · exact h.seen candidate found hfound
  groups := h.groups

theorem WellBuilt.addEdges {b : Build} (h : WellBuilt p b) {edges : List SemanticEdge}
    (hedges : ∀ edge ∈ edges, SignedEdge p edge ∧ Joined b.nodes edge.fromNode edge.toNode) :
    WellBuilt p { b with edges := b.edges ++ edges } where
  nodes := h.nodes
  edges := fun edge hmem => (mem_append.mp hmem).elim (h.edges edge) (hedges edge)
  seen := h.seen
  groups := h.groups

theorem WellBuilt.addGroup {b : Build} (h : WellBuilt p b) {key : String × String × EdgeKind}
    (hkey : Joined b.nodes key.1 key.2.1) (group : String × String × List Json) :
    WellBuilt p { b with occurrenceGroups := b.occurrenceGroups.set key group } where
  nodes := h.nodes
  edges := h.edges
  seen := h.seen
  groups := by
    intro entry hentry
    cases InsertionMap.mem_replace hentry with
    | inl heq => exact heq ▸ hkey
    | inr hmem => exact h.groups entry hmem

theorem signed_packageNode (pkg : String) : SignedNode p (packageNode p pkg) :=
  ⟨rfl, rfl, rfl, fun h => by simp [packageNode] at h⟩

theorem signed_symbolNode (docPath symbol text : String) (metadata : Option String)
    (source : String × String) :
    SignedNode p (symbolNode p (semanticSymbolNodeId docPath symbol) text metadata source) :=
  ⟨rfl, rfl, rfl, fun h => by simp [symbolNode] at h⟩

theorem signed_fileNode {plan : DocPlan} (h : plan.fileNode = fileNodePrefix ++ plan.canonical) :
    SignedNode p (fileNode p plan) :=
  ⟨rfl, rfl, rfl, fun _ => by simpa [fileNode] using h⟩

theorem WellBuilt.ensurePackageNode (h : WellBuilt p b) (pkg : Option String) :
    WellBuilt p (ensurePackageNode p b pkg) := by
  cases pkg with
  | none => exact h
  | some pkg =>
    simp only [IndexIngest.ensurePackageNode]
    split_ifs
    · exact h
    · have hnode := h.addNode (signed_packageNode pkg)
      exact ⟨hnode.nodes, hnode.edges, hnode.seen, hnode.groups⟩

theorem named_ensurePackageNode (h : Named b.nodes id) (pkg : Option String) :
    Named (ensurePackageNode p b pkg).nodes id := by
  cases pkg with
  | none => exact h
  | some pkg =>
    simp only [ensurePackageNode]
    split_ifs
    · exact h
    · exact h.append _

theorem relationshipEdges_joined (h : WellBuilt p b) {nodeId : String}
    (hnode : Named b.nodes nodeId) {rel : ScipRelationship} {edge : SemanticEdge}
    (hedge : edge ∈ relationshipEdges p b.seenSymbolNodes nodeId rel) :
    SignedEdge p edge ∧ Joined b.nodes edge.fromNode edge.toNode := by
  by_cases hempty : rel.symbol = ""
  · simp [relationshipEdges, hempty] at hedge
  · rw [relationshipEdges, if_neg hempty] at hedge
    cases htarget : b.seenSymbolNodes.get? rel.symbol with
    | none => simp [htarget] at hedge
    | some target =>
      obtain ⟨kind, rfl⟩ : ∃ kind, edge = makeSymbolEdge p nodeId target kind := by
        simp only [htarget, mem_append, mem_ite_nil_right, mem_singleton] at hedge
        obtain (⟨-, rfl⟩ | ⟨-, rfl⟩) | ⟨-, rfl⟩ := hedge <;> exact ⟨_, rfl⟩
      obtain ⟨hnamed, hsymbol⟩ := h.seen rel.symbol target htarget
      exact ⟨⟨rfl, rfl, rfl⟩, hnode, hnamed, hsymbol⟩

theorem WellBuilt.recordSymbol (h : WellBuilt p b) (record : DocPlan × ScipSymbolInformation) :
    WellBuilt p (recordSymbol p b record) := by
  unfold IndexIngest.recordSymbol
  dsimp only
  split_ifs
  · exact h
  · have hnode := (h.addNode (signed_symbolNode record.1.canonical record.2.symbol
      record.2.symbol (some (symbolMetadata record.2)) (record.1.canonical, record.1.sourceHash)))
    have hnamed : Named (b.nodes ++ [symbolNode p
        (semanticSymbolNodeId record.1.canonical record.2.symbol) record.2.symbol
        (some (symbolMetadata record.2)) (record.1.canonical, record.1.sourceHash)])
        (semanticSymbolNodeId record.1.canonical record.2.symbol) :=
      ⟨_, mem_append_right _ (mem_singleton_self _), rfl⟩
    have hseen := hnode.addSeen record.2.symbol ⟨hnamed, isFileNodeId_symbol _ _⟩
    have hpackage := hseen.ensurePackageNode (packageNodeIdForSymbol record.2.symbol)
    apply hpackage.addEdges
    intro edge hedge
    obtain ⟨rel, -, hrel⟩ := mem_flatMap.mp hedge
    refine relationshipEdges_joined hpackage (named_ensurePackageNode hnamed _)
      (?_ : edge ∈ relationshipEdges p _ _ rel)
    rw [ensurePackageNode_seen]
    exact hrel

/-- The node of an occurrence is there before it is grouped. -/
theorem WellBuilt.ensureSymbolNode (h : WellBuilt p b) (docPath symbol : String)
    (source : String × String) : let nodeId := semanticSymbolNodeId docPath symbol
    let seen := { b with seenSymbolNodes := b.seenSymbolNodes.set symbol nodeId }
    let made :=
      if seen.nodes.any fun node => node.stableId = nodeId then seen
      else
        IndexIngest.ensurePackageNode p
          { seen with nodes := seen.nodes ++ [symbolNode p nodeId symbol none source] }
          (packageNodeIdForSymbol symbol)
    WellBuilt p made ∧ Named made.nodes nodeId ∧ ∀ id, Named b.nodes id → Named made.nodes id := by
  intro nodeId seen made
  have hsymbol : isFileNodeId nodeId = false := isFileNodeId_symbol docPath symbol
  by_cases hany : (b.nodes.any fun node => node.stableId = nodeId) = true
  · have hmade : made = seen := if_pos hany
    have hnamed : Named b.nodes nodeId := by simpa [Named] using hany
    rw [hmade]
    exact ⟨h.addSeen symbol ⟨hnamed, hsymbol⟩, hnamed, fun _ hid => hid⟩
  · have hmade : made = IndexIngest.ensurePackageNode p
        { seen with nodes := seen.nodes ++ [symbolNode p nodeId symbol none source] }
        (packageNodeIdForSymbol symbol) := if_neg hany
    have hnode := h.addNode (signed_symbolNode docPath symbol symbol none source)
    have hnamed : Named (b.nodes ++ [symbolNode p nodeId symbol none source]) nodeId :=
      ⟨_, mem_append_right _ (mem_singleton_self _), rfl⟩
    rw [hmade]
    refine ⟨(hnode.addSeen symbol ⟨hnamed, hsymbol⟩).ensurePackageNode _, ?_, ?_⟩
    · exact named_ensurePackageNode hnamed _
    · exact fun id hid => named_ensurePackageNode (hid.append _) _

theorem WellBuilt.recordOccurrence (h : WellBuilt p b)
    (definingFile : String → Option (String × String)) (record : DocPlan × ScipOccurrence)
    (hfile : Named b.nodes record.1.fileNode) :
    WellBuilt p (recordOccurrence p definingFile b record) ∧
      ∀ id, Named b.nodes id → Named (recordOccurrence p definingFile b record).nodes id := by
  unfold IndexIngest.recordOccurrence
  dsimp only
  by_cases hskip : (record.2.symbol = "" || record.2.isGenerated) = true
  · rw [if_pos hskip]
    exact ⟨h, fun _ hid => hid⟩
  · rw [if_neg hskip]
    obtain ⟨hmade, hnamed, hkept⟩ := h.ensureSymbolNode record.1.canonical record.2.symbol
      ((definingFile record.2.symbol).getD (record.1.canonical, record.1.sourceHash))
    refine ⟨hmade.addGroup ?_ _, hkept⟩
    exact ⟨hkept _ hfile, hnamed, isFileNodeId_symbol _ _⟩

theorem wellBuilt_start {plans : List DocPlan}
    (hplans : ∀ plan ∈ plans, plan.fileNode = fileNodePrefix ++ plan.canonical) :
    WellBuilt p { nodes := plans.map (fileNode p) } where
  nodes := by
    intro node hnode
    obtain ⟨plan, hplan, rfl⟩ := mem_map.mp hnode
    exact signed_fileNode (hplans plan hplan)
  edges := fun _ hedge => absurd hedge not_mem_nil
  seen := fun _ _ hid => absurd hid (Option.some_ne_none _).symm
  groups := fun _ hentry => absurd hentry not_mem_nil

theorem recordSymbol_named (h : Named b.nodes id) (record : DocPlan × ScipSymbolInformation) :
    Named (recordSymbol p b record).nodes id := by
  unfold recordSymbol
  dsimp only
  split_ifs
  · exact h
  · exact named_ensurePackageNode (h.append _) _

theorem wellBuilt_afterRecords
    (hplans : ∀ plan ∈ plans, plan.fileNode = fileNodePrefix ++ plan.canonical)
    (records : List (DocPlan × ScipSymbolInformation)) :
    WellBuilt p (afterRecords p plans records) ∧
      ∀ plan ∈ plans, Named (afterRecords p plans records).nodes plan.fileNode := by
  induction records using reverseRecOn with
  | nil =>
    refine ⟨wellBuilt_start hplans, ?_⟩
    intro plan hplan
    exact ⟨fileNode p plan, mem_map_of_mem hplan, rfl⟩
  | append_singleton records record ih =>
    rw [afterRecords_concat]
    exact ⟨ih.1.recordSymbol record, fun plan hplan => recordSymbol_named (ih.2 plan hplan) record⟩

theorem wellBuilt_occurrences (definingFile : String → Option (String × String))
    (records : List (DocPlan × ScipOccurrence)) (hrecords : ∀ record ∈ records, record.1 ∈ plans)
    (h : WellBuilt p b) (hfiles : ∀ plan ∈ plans, Named b.nodes plan.fileNode) :
    WellBuilt p (records.foldl (recordOccurrence p definingFile) b) := by
  induction records generalizing b with
  | nil => exact h
  | cons record records ih =>
    have hplan : record.1 ∈ plans := hrecords record mem_cons_self
    obtain ⟨hnext, hkept⟩ := h.recordOccurrence definingFile record (hfiles record.1 hplan)
    apply ih
    · exact fun later hlater => hrecords later (mem_cons_of_mem _ hlater)
    · exact hnext
    · exact fun plan hmem => hkept _ (hfiles plan hmem)

theorem mem_firstUnder {α : Type} {key : α → String} {a : α} {items : List α}
    (h : a ∈ firstUnder key items) : a ∈ items := by
  induction items with
  | nil => exact h
  | cons first rest ih =>
    cases mem_cons.mp h with
    | inl heq => exact heq ▸ mem_cons_self
    | inr hmem => exact mem_cons_of_mem _ (ih (mem_filter.mp hmem).1)

theorem exists_mem_firstUnder {α : Type} {key : α → String} {a : α} {items : List α}
    (h : a ∈ items) : ∃ kept ∈ firstUnder key items, key kept = key a := by
  induction items with
  | nil => exact absurd h not_mem_nil
  | cons first rest ih =>
    by_cases hkey : key a = key first
    · exact ⟨first, mem_cons_self, hkey.symm⟩
    · have hrest : a ∈ rest := by
        apply (mem_cons.mp h).resolve_left
        intro heq
        exact hkey (congrArg key heq)
      obtain ⟨kept, hkept, hsame⟩ := ih hrest
      refine ⟨kept, mem_cons_of_mem _ (mem_filter.mpr ⟨hkept, ?_⟩), hsame⟩
      simpa [hsame] using hkey

theorem planDocument_fileNode {w : Workspace} {doc : ScipDocument} {plan : DocPlan}
    (h : planDocument w doc = .ok plan) : plan.fileNode = fileNodePrefix ++ plan.canonical := by
  simp only [planDocument, Checked.bind_eq_ok, Checked.pure_eq_ok] at h
  obtain ⟨language, -, canonical, -, -, -, sourceHash, -, rfl⟩ := h
  rfl

theorem planDocuments_fileNode {w : Workspace} {index : ScipIndex}
    (h : planDocuments w index = .ok plans) :
    ∀ plan ∈ plans, plan.fileNode = fileNodePrefix ++ plan.canonical := by
  intro plan hplan
  obtain ⟨doc, -, hdoc⟩ := (Checked.mem_of_mapM_eq_ok h).mp hplan
  exact planDocument_fileNode hdoc

/-- What is published carries its publisher, and every edge joins published nodes. -/
theorem semanticGraph_spec
    (hplans : ∀ plan ∈ plans, plan.fileNode = fileNodePrefix ++ plan.canonical) :
    (∀ node ∈ (semanticGraph p plans).1, SignedNode p node) ∧
      ∀ edge ∈ (semanticGraph p plans).2, SignedEdge p edge ∧
        Joined (semanticGraph p plans).1 edge.fromNode edge.toNode := by
  obtain ⟨hrecords, hfiles⟩ := wellBuilt_afterRecords (p := p) hplans (symbolRecords plans)
  have hbuilt := wellBuilt_occurrences (symbolDefiningFile plans) (occurrenceRecords plans)
    (fun record hrecord => (mem_occurrenceRecords.mp hrecord).1) hrecords hfiles
  constructor
  · exact fun node hnode => hbuilt.nodes node (mem_firstUnder hnode)
  · have hkept : ∀ id, Named ((occurrenceRecords plans).foldl
        (recordOccurrence p (symbolDefiningFile plans))
        (afterRecords p plans (symbolRecords plans))).nodes id →
          Named (semanticGraph p plans).1 id := by
      intro id hid
      obtain ⟨node, hnode, rfl⟩ := hid
      exact exists_mem_firstUnder hnode
    have hjoined : ∀ {fromNode toNode}, Joined _ fromNode toNode →
        Joined (semanticGraph p plans).1 fromNode toNode :=
      fun hends => ⟨hkept _ hends.source, hkept _ hends.target, hends.symbol⟩
    intro edge hedge
    cases (mem_graph_edges p plans edge).mp hedge with
    | inl hedge =>
      rw [← foldl_recordOccurrence_edges p (symbolDefiningFile plans)] at hedge
      exact ⟨(hbuilt.edges edge hedge).1, hjoined (hbuilt.edges edge hedge).2⟩
    | inr hentry =>
      obtain ⟨entry, hentry, rfl⟩ := hentry
      exact ⟨⟨rfl, rfl, rfl⟩, hjoined (hbuilt.groups entry hentry)⟩

end IndexIngest
