import FlowDeck.Semantic.PublishedGraph

/-! The tables of the evidence graph, and how the evidence of a provider is replaced in them. -/

namespace EvidenceStore

open EvidenceModel IndexIngest

structure NodeRow where
  stableId : String
  kind : NodeKind
  canonicalPath : Option String
  symbolIdentity : Option String
  packageIdentity : Option String
  metadata : Option String
  provider : Option String
  providerFingerprint : Option String
  generation : Option Nat
  sourceIdentity : Option String
  sourceHash : Option String
  deriving DecidableEq

structure EdgeRow extends SemanticEdge where
  createdRevision : Nat
  updatedRevision : Nat
  deriving DecidableEq

structure Graph where
  nodes : Table NodeRow.stableId
  edges : Table fun row : EdgeRow => row.stableId

namespace Graph

def empty : Graph := ⟨.empty, .empty⟩

def hasNode (g : Graph) (id : String) : Bool := (g.nodes.get? id).isSome

/-- A file node is of no provider, and is left as it stands. -/
def insertSharedFileNode (g : Graph) (canonical : String) (metadata : Option String) : Graph :=
  { g with
    nodes := g.nodes.insertOrIgnore
      { stableId := fileNodePrefix ++ canonical
        kind := .file
        canonicalPath := some canonical
        symbolIdentity := none
        packageIdentity := none
        metadata := metadata
        provider := none
        providerFingerprint := none
        generation := none
        sourceIdentity := none
        sourceHash := none } }

def insertSemanticNode (g : Graph) (node : SemanticNode) : Graph :=
  { g with
    nodes := g.nodes.upsert
      { stableId := node.stableId
        kind := node.kind
        canonicalPath := node.canonicalPath
        symbolIdentity := node.symbolIdentity
        packageIdentity := node.packageIdentity
        metadata := node.metadata
        provider := some node.provider
        providerFingerprint := some node.providerFingerprint
        generation := some node.generation
        sourceIdentity := node.sourceIdentity
        sourceHash := node.sourceHash } }

def insertNode (g : Graph) (node : SemanticNode) : Graph :=
  if isFileNodeId node.stableId then
    g.insertSharedFileNode (node.canonicalPath.getD "") node.metadata
  else g.insertSemanticNode node

/-- The ends of a new edge are foreign keys. -/
def insertSemanticEdge (g : Graph) (edge : SemanticEdge) : Option Graph :=
  match g.edges.get? edge.stableId with
  | some old =>
    some
      { g with
        edges := g.edges.upsert
          { old with
            providerId := edge.providerId
            providerFingerprint := edge.providerFingerprint
            updatedRevision := edge.generation
            sourceHash := edge.sourceHash
            strength := edge.strength
            generation := edge.generation
            metadata := edge.metadata } }
  | none =>
    if g.hasNode edge.fromNode && g.hasNode edge.toNode then
      some
        { g with
          edges := g.edges.upsert
            { toSemanticEdge := edge
              createdRevision := edge.generation
              updatedRevision := edge.generation } }
    else none

def replaceProviderEvidence (g : Graph) (providerId : String) : Graph :=
  let deleted := g.nodes.rows.filter fun row => row.provider = some providerId
  { nodes := g.nodes.deleteWhere fun row => row.provider = some providerId
    edges := g.edges.deleteWhere fun edge =>
      deleted.any fun row => row.stableId = edge.fromNode || row.stableId = edge.toNode }

def publishEvidence (g : Graph) (p : Publisher) (plans : List DocPlan) : Option Graph :=
  let (nodes, edges) := semanticGraph p plans
  edges.foldlM insertSemanticEdge (nodes.foldl insertNode (g.replaceProviderEvidence p.providerId))

/-- The evidence of one provider alone, its edges all leading to nodes of its own. -/
structure Owned (g : Graph) (providerId : String) : Prop where
  nodes : ∀ row ∈ g.nodes.rows,
    row.provider = none ∧ isFileNodeId row.stableId = true ∨ row.provider = some providerId
  edges : ∀ edge ∈ g.edges.rows, isFileNodeId edge.toNode = false ∧ g.hasNode edge.toNode = true

structure Carries (g : Graph) (providerId digest : String) (generation : Nat) : Prop where
  nodes : ∀ row ∈ g.nodes.rows, row.provider = some providerId →
    row.providerFingerprint = some digest ∧ row.generation = some generation
  edges : ∀ edge ∈ g.edges.rows, edge.providerId = some providerId →
    edge.providerFingerprint = digest ∧ edge.generation = generation

/-- All evidence is that of one publication. -/
structure Published (g : Graph) (p : Publisher) : Prop where
  nodes : ∀ row ∈ g.nodes.rows,
    row.provider = none ∧ isFileNodeId row.stableId = true ∨
      row.provider = some p.providerId ∧ row.providerFingerprint = some p.fingerprint.digest ∧
        row.generation = some p.generation
  edges : ∀ edge ∈ g.edges.rows, SignedEdge p edge.toSemanticEdge ∧
    isFileNodeId edge.toNode = false ∧ g.hasNode edge.toNode = true

variable {g g' : Graph} {p : Publisher}

theorem Published.owned (h : g.Published p) : g.Owned p.providerId where
  nodes := fun row hrow => (h.nodes row hrow).imp id fun howned => howned.1
  edges := fun edge hedge => (h.edges edge hedge).2

theorem Published.carries (h : g.Published p) :
    g.Carries p.providerId p.fingerprint.digest p.generation where
  nodes := by
    intro row hrow hprovider
    cases h.nodes row hrow with
    | inl hshared => simp [hshared.1] at hprovider
    | inr howned => exact howned.2
  edges := fun edge hedge _ =>
    ⟨(h.edges edge hedge).1.fingerprint, (h.edges edge hedge).1.generation⟩

theorem hasNode_iff {id : String} :
    g.hasNode id = true ↔ ∃ row ∈ g.nodes.rows, row.stableId = id := by
  simp only [hasNode, Option.isSome_iff_exists, Table.get?_eq_some_iff]

theorem replaceProviderEvidence_published (h : g.Owned p.providerId) :
    (g.replaceProviderEvidence p.providerId).Published p where
  nodes := by
    intro row hrow
    obtain ⟨hmem, hkept⟩ := Table.mem_rows_deleteWhere.mp hrow
    exact Or.inl ((h.nodes row hmem).resolve_right (by simpa using hkept))
  edges := by
    intro edge hedge
    obtain ⟨hmem, hkept⟩ := Table.mem_rows_deleteWhere.mp hedge
    obtain ⟨hsymbol, hnode⟩ := h.edges edge hmem
    obtain ⟨row, hrow, hid⟩ := hasNode_iff.mp hnode
    cases h.nodes row hrow with
    | inl hshared =>
      rw [hid, hsymbol] at hshared
      exact absurd hshared.2 Bool.false_ne_true
    | inr howned =>
      have hdeleted : row ∈ g.nodes.rows.filter fun row => row.provider = some p.providerId :=
        List.mem_filter.mpr ⟨hrow, by simpa using howned⟩
      have hany := List.any_eq_false.mp hkept row hdeleted
      simp [hid] at hany

theorem hasNode_insertNode {node : SemanticNode} (hnode : SignedNode p node) {id : String} :
    (g.insertNode node).hasNode id = true ↔ g.hasNode id = true ∨ node.stableId = id := by
  unfold insertNode hasNode
  split_ifs with hfile
  · have hname : fileNodePrefix ++ node.canonicalPath.getD "" = node.stableId :=
      (hnode.file hfile).symm
    simp only [insertSharedFileNode, Table.get?_insertOrIgnore, hname]
    by_cases hid : node.stableId = id <;> simp [hid]
  · simp only [insertSemanticNode, Table.get?_upsert]
    by_cases hid : node.stableId = id <;> simp [hid]

theorem insertNode_published (h : g.Published p) {node : SemanticNode} (hnode : SignedNode p node) :
    (g.insertNode node).Published p where
  nodes := by
    intro row hrow
    unfold insertNode at hrow
    split_ifs at hrow with hfile
    · cases Table.mem_rows_insertOrIgnore hrow with
      | inl hmem => exact h.nodes row hmem
      | inr heq =>
        left
        rw [heq]
        exact ⟨rfl, by simp [isFileNodeId]⟩
    · cases Table.mem_rows_upsert.mp hrow with
      | inl heq =>
        right
        simp [heq, hnode.provider, hnode.fingerprint, hnode.generation]
      | inr hmem => exact h.nodes row hmem.2
  edges := by
    intro edge hedge
    have hedges : (g.insertNode node).edges = g.edges := by
      unfold insertNode
      split_ifs <;> rfl
    rw [hedges] at hedge
    obtain ⟨hsigned, hsymbol, hpresent⟩ := h.edges edge hedge
    exact ⟨hsigned, hsymbol, (hasNode_insertNode hnode).mpr (Or.inl hpresent)⟩

theorem insertNodes_published (h : g.Published p) {nodes : List SemanticNode}
    (hnodes : ∀ node ∈ nodes, SignedNode p node) :
    (nodes.foldl insertNode g).Published p ∧
      ∀ id, g.hasNode id = true ∨ Named nodes id → (nodes.foldl insertNode g).hasNode id = true := by
  induction nodes generalizing g with
  | nil => exact ⟨h, fun id hid => hid.resolve_right fun hnamed => by simp [Named] at hnamed⟩
  | cons node nodes ih =>
    have hnode : SignedNode p node := hnodes node List.mem_cons_self
    have hrest : ∀ later ∈ nodes, SignedNode p later :=
      fun later hlater => hnodes later (List.mem_cons_of_mem _ hlater)
    obtain ⟨hpublished, hhas⟩ := ih (insertNode_published h hnode) hrest
    refine ⟨hpublished, ?_⟩
    intro id hid
    apply hhas id
    rw [hasNode_insertNode hnode]
    cases hid with
    | inl hpresent => exact Or.inl (Or.inl hpresent)
    | inr hnamed =>
      obtain ⟨named, hmem, hsame⟩ := hnamed
      cases List.mem_cons.mp hmem with
      | inl heq => exact Or.inl (Or.inr (heq ▸ hsame))
      | inr hmem => exact Or.inr ⟨named, hmem, hsame⟩

theorem insertSemanticEdge_published (h : g.Published p) {edge : SemanticEdge}
    (hsigned : SignedEdge p edge) (hfrom : g.hasNode edge.fromNode = true)
    (hto : g.hasNode edge.toNode = true) (hsymbol : isFileNodeId edge.toNode = false) :
    ∃ g', g.insertSemanticEdge edge = some g' ∧ g'.Published p ∧ g'.nodes = g.nodes := by
  unfold insertSemanticEdge
  cases hold : g.edges.get? edge.stableId with
  | some old =>
    obtain ⟨-, holdSymbol, holdTo⟩ := h.edges old (Table.mem_of_get? hold)
    refine ⟨_, rfl, ⟨h.nodes, ?_⟩, rfl⟩
    intro row hrow
    cases Table.mem_rows_upsert.mp hrow with
    | inl heq =>
      subst heq
      exact ⟨⟨hsigned.provider, hsigned.fingerprint, hsigned.generation⟩, holdSymbol, holdTo⟩
    | inr hmem => exact h.edges row hmem.2
  | none =>
    simp only [hfrom, hto, Bool.and_self, if_true]
    refine ⟨_, rfl, ⟨h.nodes, ?_⟩, rfl⟩
    intro row hrow
    cases Table.mem_rows_upsert.mp hrow with
    | inl heq =>
      subst heq
      exact ⟨hsigned, hsymbol, hto⟩
    | inr hmem => exact h.edges row hmem.2

theorem insertEdges_published (h : g.Published p) {nodes : List SemanticNode}
    (hnodes : ∀ id, Named nodes id → g.hasNode id = true) {edges : List SemanticEdge}
    (hedges : ∀ edge ∈ edges, SignedEdge p edge ∧ Joined nodes edge.fromNode edge.toNode) :
    ∃ g', edges.foldlM insertSemanticEdge g = some g' ∧ g'.Published p := by
  induction edges generalizing g with
  | nil => exact ⟨g, rfl, h⟩
  | cons edge edges ih =>
    obtain ⟨hsigned, hjoined⟩ := hedges edge List.mem_cons_self
    obtain ⟨next, hnext, hpublished, hsame⟩ := insertSemanticEdge_published h hsigned
      (hnodes _ hjoined.source) (hnodes _ hjoined.target) hjoined.symbol
    have hstill : ∀ id, Named nodes id → next.hasNode id = true := by
      intro id hid
      rw [hasNode, hsame]
      exact hnodes id hid
    obtain ⟨g', hg', hall⟩ :=
      ih hpublished hstill fun later hlater => hedges later (List.mem_cons_of_mem _ hlater)
    refine ⟨g', ?_, hall⟩
    rw [List.foldlM_cons, hnext]
    exact hg'

/-- No publication breaks a foreign key, and what it leaves is all its own. -/
theorem publishEvidence_spec (h : g.Owned p.providerId) {plans : List DocPlan}
    (hplans : ∀ plan ∈ plans, plan.fileNode = fileNodePrefix ++ plan.canonical) :
    ∃ g', g.publishEvidence p plans = some g' ∧ g'.Published p := by
  obtain ⟨hnodes, hedges⟩ := semanticGraph_spec (p := p) hplans
  obtain ⟨hpublished, hhas⟩ := insertNodes_published (replaceProviderEvidence_published h) hnodes
  exact insertEdges_published hpublished (fun id hid => hhas id (Or.inr hid)) hedges

end Graph

end EvidenceStore
