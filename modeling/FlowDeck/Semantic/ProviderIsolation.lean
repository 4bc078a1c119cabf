import FlowDeck.Library.Machine
import FlowDeck.Semantic.EvidenceStore

/-! When the ingests of one provider leave the evidence of the others as it is. -/

namespace ProviderIsolation

open EvidenceModel EvidenceStore IndexIngest ScipModel Graph

/-- The graph, and the ids of the nodes that each provider published last. -/
structure Store where
  graph : Graph
  latest : String → List String

/-- An ingest that comes to publish. -/
structure Ingest where
  publisher : Publisher
  workspace : Workspace
  index : ScipIndex

def publishedIds (p : Publisher) (plans : List DocPlan) : List String :=
  (semanticGraph p plans).1.map (·.stableId)

def publish (s : Store) (p : Publisher) (plans : List DocPlan) : Option Store :=
  (s.graph.publishEvidence p plans).map fun graph =>
    { graph := graph
      latest := fun id => if id = p.providerId then publishedIds p plans else s.latest id }

def ingest (s : Store) (a : Ingest) : Option Store :=
  match planDocuments a.workspace a.index with
  | .error _ => none
  | .ok plans => publish s a.publisher plans

def start : Store := ⟨.empty, fun _ => []⟩

/-- Every edge of a provider stands as it stood, and every node it published is there. -/
structure Keeps (s t : Store) (other : String) : Prop where
  edges : ∀ edge ∈ s.graph.edges.rows, edge.providerId = some other → edge ∈ t.graph.edges.rows
  nodes : ∀ id ∈ s.latest other, t.graph.hasNode id = true

def KeepsOthers (s : Store) (a : Ingest) : Prop :=
  ∀ t, ingest s a = some t → ∀ other, other ≠ a.publisher.providerId → Keeps s t other

/-- The nodes that a publisher owns are at no end of another provider's edges, and those that the other
one published are published anew. -/
structure Spares (s : Store) (p : Publisher) (plans : List DocPlan) (other : String) : Prop where
  ends : ∀ node ∈ s.graph.nodes.rows, node.provider = some p.providerId →
    ∀ edge ∈ s.graph.edges.rows, edge.providerId = some other →
      node.stableId ≠ edge.fromNode ∧ node.stableId ≠ edge.toNode
  nodes : ∀ node ∈ s.graph.nodes.rows, node.provider = some p.providerId →
    node.stableId ∈ s.latest other → node.stableId ∈ publishedIds p plans
  ids : ∀ edge ∈ s.graph.edges.rows, edge.providerId = some other →
    ∀ fresh ∈ (semanticGraph p plans).2, edge.stableId ≠ fresh.stableId

def SparesOthers (s : Store) (a : Ingest) : Prop :=
  ∀ plans, planDocuments a.workspace a.index = .ok plans →
    ∀ other, other ≠ a.publisher.providerId → Spares s a.publisher plans other

variable {g : Graph} {p : Publisher}

/-! ### What a publication makes of the graph -/

theorem hasNode_insertNodes {nodes : List SemanticNode} (hnodes : ∀ node ∈ nodes, SignedNode p node)
    (id : String) :
    (nodes.foldl insertNode g).hasNode id = true ↔ g.hasNode id = true ∨ Named nodes id := by
  induction nodes generalizing g with
  | nil => simp [Named]
  | cons node nodes ih =>
    have hnode : SignedNode p node := hnodes node List.mem_cons_self
    rw [List.foldl_cons, ih fun later hlater => hnodes later (List.mem_cons_of_mem _ hlater),
      hasNode_insertNode hnode, or_assoc]
    simp [Named]

theorem edges_insertNodes (nodes : List SemanticNode) :
    (nodes.foldl insertNode g).edges = g.edges := by
  apply List.foldlRecOn (motive := fun graph : Graph => graph.edges = g.edges)
  · rfl
  · intro graph hgraph node _
    rw [← hgraph]
    unfold insertNode
    split <;> rfl

/-- The rows of the other providers under other ids stand as they stood. -/
theorem insertSemanticEdge_rows {edge : SemanticEdge} (hfrom : g.hasNode edge.fromNode = true)
    (hto : g.hasNode edge.toNode = true) :
    ∃ g', g.insertSemanticEdge edge = some g' ∧ g'.nodes = g.nodes ∧
      ∀ row : EdgeRow, row.providerId ≠ edge.providerId →
        (row ∈ g'.edges.rows ↔ row ∈ g.edges.rows ∧ row.stableId ≠ edge.stableId) := by
  unfold insertSemanticEdge
  cases hold : g.edges.get? edge.stableId with
  | some old =>
    refine ⟨_, rfl, rfl, ?_⟩
    intro row hprovider
    have hid : old.stableId = edge.stableId := (Table.get?_eq_some_iff.mp hold).2
    rw [Table.mem_rows_upsert]
    constructor
    · rintro (rfl | ⟨hne, hrow⟩)
      · exact absurd rfl hprovider
      · exact ⟨hrow, hid ▸ hne⟩
    · rintro ⟨hrow, hne⟩
      exact Or.inr ⟨hid.symm ▸ hne, hrow⟩
  | none =>
    simp only [hfrom, hto, Bool.and_self, if_true]
    refine ⟨_, rfl, rfl, ?_⟩
    intro row hprovider
    rw [Table.mem_rows_upsert]
    constructor
    · rintro (rfl | ⟨hne, hrow⟩)
      · exact absurd rfl hprovider
      · exact ⟨hrow, hne⟩
    · rintro ⟨hrow, hne⟩
      exact Or.inr ⟨hne, hrow⟩

theorem insertEdges_rows {edges : List SemanticEdge} {providerId : String}
    (hprovider : ∀ edge ∈ edges, edge.providerId = some providerId)
    (hends : ∀ edge ∈ edges, g.hasNode edge.fromNode = true ∧ g.hasNode edge.toNode = true) :
    ∃ g', edges.foldlM insertSemanticEdge g = some g' ∧ g'.nodes = g.nodes ∧
      ∀ row : EdgeRow, row.providerId ≠ some providerId →
        (row ∈ g'.edges.rows ↔
          row ∈ g.edges.rows ∧ ∀ edge ∈ edges, row.stableId ≠ edge.stableId) := by
  induction edges generalizing g with
  | nil => exact ⟨g, rfl, rfl, by simp⟩
  | cons edge edges ih =>
    have hhead := hends edge List.mem_cons_self
    obtain ⟨next, hnext, hsame, hrows⟩ := insertSemanticEdge_rows hhead.1 hhead.2
    have hstill : ∀ later ∈ edges, next.hasNode later.fromNode = true ∧
        next.hasNode later.toNode = true := by
      intro later hlater
      unfold hasNode
      rw [hsame]
      exact hends later (List.mem_cons_of_mem _ hlater)
    obtain ⟨g', hg', hsame', hrows'⟩ :=
      ih (fun later hlater => hprovider later (List.mem_cons_of_mem _ hlater)) hstill
    refine ⟨g', ?_, hsame'.trans hsame, ?_⟩
    · rw [List.foldlM_cons, hnext]
      exact hg'
    · intro row hrow
      have hother : row.providerId ≠ edge.providerId := by
        rw [hprovider edge List.mem_cons_self]
        exact hrow
      rw [hrows' row hrow, hrows row hother, List.forall_mem_cons, and_assoc]

theorem hasNode_replaceProviderEvidence (g : Graph) (providerId id : String) :
    (g.replaceProviderEvidence providerId).hasNode id = true ↔
      ∃ row ∈ g.nodes.rows, row.stableId = id ∧ row.provider ≠ some providerId := by
  rw [hasNode_iff]
  unfold replaceProviderEvidence
  constructor
  · rintro ⟨row, hrow, hid⟩
    obtain ⟨hrow, hkept⟩ := Table.mem_rows_deleteWhere.mp hrow
    exact ⟨row, hrow, hid, by simpa using hkept⟩
  · rintro ⟨row, hrow, hid, hkept⟩
    exact ⟨row, Table.mem_rows_deleteWhere.mpr ⟨hrow, by simpa using hkept⟩, hid⟩

theorem edge_replaceProviderEvidence (g : Graph) (providerId : String) (edge : EdgeRow) :
    edge ∈ (g.replaceProviderEvidence providerId).edges.rows ↔ edge ∈ g.edges.rows ∧
      ∀ node ∈ g.nodes.rows, node.provider = some providerId →
        node.stableId ≠ edge.fromNode ∧ node.stableId ≠ edge.toNode := by
  unfold replaceProviderEvidence
  rw [Table.mem_rows_deleteWhere]
  apply and_congr_right
  intro _
  simp [List.any_eq_false]

/-- What a publication leaves of the nodes, and of the edges of the others. -/
theorem publishEvidence_rows (g : Graph) {plans : List DocPlan}
    (hplans : ∀ plan ∈ plans, plan.fileNode = fileNodePrefix ++ plan.canonical) :
    ∃ g', g.publishEvidence p plans = some g' ∧
      (∀ id, g'.hasNode id = true ↔
        (∃ row ∈ g.nodes.rows, row.stableId = id ∧ row.provider ≠ some p.providerId) ∨
          id ∈ publishedIds p plans) ∧
      ∀ row : EdgeRow, row.providerId ≠ some p.providerId →
        (row ∈ g'.edges.rows ↔ row ∈ g.edges.rows ∧
          (∀ node ∈ g.nodes.rows, node.provider = some p.providerId →
            node.stableId ≠ row.fromNode ∧ node.stableId ≠ row.toNode) ∧
          ∀ edge ∈ (semanticGraph p plans).2, row.stableId ≠ edge.stableId) := by
  obtain ⟨hnodes, hedges⟩ := semanticGraph_spec (p := p) hplans
  have hnamed : ∀ id, Named (semanticGraph p plans).1 id ↔ id ∈ publishedIds p plans := by
    intro id
    simp [Named, publishedIds]
  have hthere := hasNode_insertNodes (g := g.replaceProviderEvidence p.providerId) hnodes
  obtain ⟨g', hg', hsame, hrows⟩ := insertEdges_rows
    (g := (semanticGraph p plans).1.foldl insertNode (g.replaceProviderEvidence p.providerId))
    (fun edge hedge => (hedges edge hedge).1.provider)
    (fun edge hedge => ⟨(hthere _).mpr (Or.inr (hedges edge hedge).2.source),
      (hthere _).mpr (Or.inr (hedges edge hedge).2.target)⟩)
  refine ⟨g', hg', ?_, ?_⟩
  · intro id
    unfold hasNode at hthere ⊢
    rw [hsame, hthere id, hnamed]
    exact or_congr_left (hasNode_replaceProviderEvidence g p.providerId id)
  · intro row hrow
    rw [hrows row hrow, edges_insertNodes, edge_replaceProviderEvidence, and_assoc]

/-! ### One ingest -/

/-- What the providers published last is all there. -/
def Present (s : Store) : Prop := ∀ id, ∀ node ∈ s.latest id, s.graph.hasNode node = true

variable {s t : Store}

theorem keeps_iff_spares {plans : List DocPlan} {other : String} (hs : Present s)
    (hplans : ∀ plan ∈ plans, plan.fileNode = fileNodePrefix ++ plan.canonical)
    (hother : other ≠ p.providerId) (h : publish s p plans = some t) :
    Keeps s t other ↔ Spares s p plans other := by
  obtain ⟨g', hg', hnodes, hedges⟩ := publishEvidence_rows (p := p) s.graph hplans
  obtain ⟨graph, hgraph, rfl⟩ := Option.map_eq_some_iff.mp h
  obtain rfl : g' = graph := Option.some.inj (hg'.symm.trans hgraph)
  have hforeign : ∀ edge : EdgeRow, edge.providerId = some other →
      edge.providerId ≠ some p.providerId := by
    intro edge hedge heq
    rw [hedge] at heq
    exact hother (Option.some.inj heq)
  constructor
  · intro hkeeps
    constructor
    · intro node hnode howned edge hedge hprovider
      have hkept := (hedges edge (hforeign edge hprovider)).mp (hkeeps.edges edge hedge hprovider)
      exact hkept.2.1 node hnode howned
    · intro node hnode howned hlatest
      rcases (hnodes _).mp (hkeeps.nodes _ hlatest) with ⟨row, hrow, hid, hkept⟩ | hnew
      · have hrow' := Table.get?_of_mem hrow
        rw [hid, Table.get?_of_mem hnode] at hrow'
        rw [← Option.some.inj hrow'] at hkept
        exact absurd howned hkept
      · exact hnew
    · intro edge hedge hprovider
      have hkept := (hedges edge (hforeign edge hprovider)).mp (hkeeps.edges edge hedge hprovider)
      exact hkept.2.2
  · intro hspares
    constructor
    · intro edge hedge hprovider
      apply (hedges edge (hforeign edge hprovider)).mpr
      refine ⟨hedge, ?_, hspares.ids edge hedge hprovider⟩
      intro node hnode howned
      exact hspares.ends node hnode howned edge hedge hprovider
    · intro id hid
      obtain ⟨row, hrow, rfl⟩ := hasNode_iff.mp (hs other id hid)
      apply (hnodes _).mpr
      by_cases howned : row.provider = some p.providerId
      · exact Or.inr (hspares.nodes row hrow howned hid)
      · exact Or.inl ⟨row, hrow, rfl, howned⟩

theorem ingest_eq_some {a : Ingest} (h : ingest s a = some t) :
    ∃ plans, planDocuments a.workspace a.index = .ok plans ∧ publish s a.publisher plans = some t := by
  unfold ingest at h
  split at h
  · simp at h
  · next plans hplans => exact ⟨plans, hplans, h⟩

theorem keepsOthers_iff (hs : Present s) (a : Ingest) : KeepsOthers s a ↔ SparesOthers s a := by
  constructor
  · intro h plans hplans other hother
    have hfiles := planDocuments_fileNode hplans
    obtain ⟨g', hg', _⟩ := publishEvidence_rows (p := a.publisher) s.graph hfiles
    have hpublish : ∃ t, publish s a.publisher plans = some t := by
      unfold publish
      rw [hg']
      exact ⟨_, rfl⟩
    obtain ⟨t, ht⟩ := hpublish
    have hingest : ingest s a = some t := by
      unfold ingest
      rw [hplans]
      exact ht
    exact (keeps_iff_spares hs hfiles hother ht).mp (h t hingest other hother)
  · intro h t ht other hother
    obtain ⟨plans, hplans, hpublish⟩ := ingest_eq_some ht
    have hfiles := planDocuments_fileNode hplans
    exact (keeps_iff_spares hs hfiles hother hpublish).mpr (h plans hplans other hother)

theorem present_ingest {a : Ingest} (h : KeepsOthers s a) (ht : ingest s a = some t) :
    Present t := by
  intro id node hnode
  by_cases hid : id = a.publisher.providerId
  · obtain ⟨plans, hplans, hpublish⟩ := ingest_eq_some ht
    obtain ⟨g', hg', hnodes, _⟩ :=
      publishEvidence_rows (p := a.publisher) s.graph (planDocuments_fileNode hplans)
    unfold publish at hpublish
    rw [hg'] at hpublish
    obtain rfl := Option.some.inj hpublish
    have hnew : node ∈ publishedIds a.publisher plans := by simpa [hid] using hnode
    exact (hnodes node).mpr (Or.inr hnew)
  · have hlatest : t.latest id = s.latest id := by
      obtain ⟨plans, _, hpublish⟩ := ingest_eq_some ht
      obtain ⟨graph, _, rfl⟩ := Option.map_eq_some_iff.mp hpublish
      exact if_neg hid
    rw [hlatest] at hnode
    exact (h t ht id hid).nodes node hnode

theorem present_start : Present start := by
  intro id node hnode
  exact absurd hnode List.not_mem_nil

/-- In a run every ingest leaves the evidence of the other providers as it is exactly when each finds
none of it among the nodes that its own provider owns. -/
theorem isolated_iff (run : List Ingest) :
    Machine.Along ingest KeepsOthers start run ↔ Machine.Along ingest SparesOthers start run := by
  constructor
  · apply Machine.Along.imp (fun s a t _ h ht => present_ingest h ht)
    · exact fun s a hs h => (keepsOthers_iff hs a).mp h
    · exact present_start
  · apply Machine.Along.imp (fun s a t hs h ht => present_ingest ((keepsOthers_iff hs a).mpr h) ht)
    · exact fun s a hs h => (keepsOthers_iff hs a).mpr h
    · exact present_start

/-! ### A symbol of two providers -/

def sampleWorkspace : Workspace where
  root := "/repo"
  canonicalize := some
  isFile := fun _ => true
  fileDigest := fun _ => .ok "hash"

def sampleIndex : ScipIndex where
  documents :=
    [{ language := "typescript", relativePath := "a.ts",
       occurrences := [{ symbol := "Dog", symbolRoles := 1 }], symbols := [{ symbol := "Dog" }] }]

def ingestOf (providerId : String) (generation : Nat) : Ingest where
  publisher := ⟨providerId, ⟨"0.3", "tool", "scip-1", none, "config", "digest"⟩, generation, "output"⟩
  workspace := sampleWorkspace
  index := sampleIndex

def owners (s : Store) : List (Option String) := s.graph.edges.rows.map fun edge => edge.providerId

/-- The first provider's edge is gone once the second one has been refreshed. -/
theorem shared_symbol_unlinked :
    let before := [ingestOf "scip-typescript" 1, ingestOf "scip-rust" 1]
    (Machine.run ingest start before).map owners = some [some "scip-typescript", some "scip-rust"] ∧
      (Machine.run ingest start (before ++ [ingestOf "scip-rust" 2])).map owners = some [some "scip-rust"] ∧
      ¬ Machine.Along ingest KeepsOthers start (before ++ [ingestOf "scip-rust" 2]) := by
  intro before
  have hbefore : (Machine.run ingest start before).map owners =
      some [some "scip-typescript", some "scip-rust"] := by decide +kernel
  have hafter : (Machine.run ingest start (before ++ [ingestOf "scip-rust" 2])).map owners =
      some [some "scip-rust"] := by decide +kernel
  refine ⟨hbefore, hafter, ?_⟩
  intro halong
  obtain ⟨s, hs, howners⟩ := Option.map_eq_some_iff.mp hbefore
  obtain ⟨t, ht, howners'⟩ := Option.map_eq_some_iff.mp hafter
  obtain ⟨u, hu, hlast⟩ := Machine.run_append_eq_some.mp ht
  obtain rfl : s = u := Option.some.inj (hs.symm.trans hu)
  have hingest : ingest s (ingestOf "scip-rust" 2) = some t := by
    simpa [Machine.run_cons_eq_some] using hlast
  have hkeeps := (halong.append hs).1 t hingest "scip-typescript" (by decide)
  have hmem : some "scip-typescript" ∈ owners s := by
    rw [howners]
    exact List.mem_cons_self
  obtain ⟨edge, hedge, hprovider⟩ := List.mem_map.mp hmem
  have hkept : some "scip-typescript" ∈ owners t :=
    List.mem_map.mpr ⟨edge, hkeeps.edges edge hedge hprovider, hprovider⟩
  rw [howners'] at hkept
  exact absurd hkept (by decide)

end ProviderIsolation
