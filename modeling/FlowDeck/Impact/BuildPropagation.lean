import FlowDeck.Impact.ImpactExpansions

/-! Along which edges a change propagates, by the stored graph and by the build snapshot. -/

namespace BuildPropagation

open BoundedReach EvidenceModel ImpactEdges ImpactTraversal PolicyStore List

abbrev Relation := String × String × EdgeKind

def buildRelation (e : BuildEdge) : Relation := (e.fromNode, e.toNode, e.kind)

def dbRelation (e : DbEdgeRow) : Relation := (e.fromNode, e.toNode, e.kind)

/-- The edges of all build providers; an edge's stable id is made of its kind and its ends. -/
structure BuildEvidence where
  edges : List BuildEdge
  consistent : ∀ e ∈ edges, ∀ other ∈ edges, e.stableId = other.stableId →
    buildRelation e = buildRelation other

/-- A row of `edges` under its primary key. -/
structure StoredEdge where
  stableId : String
  record : EdgeRecord

def storedRecord (e : BuildEdge) : EdgeRecord where
  fromNode := e.fromNode
  toNode := e.toNode
  kind := e.kind.text
  provider := "build_native"
  providerId := some e.providerId
  providerFingerprint := e.providerFingerprint
  strength := rank e.strength
  stale := false

/-- On a conflict the ends and the kind of the row stay. -/
def insertEdge (rows : List StoredEdge) (e : BuildEdge) : List StoredEdge :=
  if rows.any fun row => row.stableId = e.stableId then
    rows.map fun row =>
      if row.stableId = e.stableId then
        { row with
          record := { row.record with
            providerId := some e.providerId
            providerFingerprint := e.providerFingerprint
            strength := rank e.strength
            stale := false } }
      else row
  else rows ++ [⟨e.stableId, storedRecord e⟩]

def publishProviderEvidence (edges : List BuildEdge) : List StoredEdge := edges.foldl insertEdge []

def BuildEvidence.database (b : BuildEvidence) : Database where
  nodes := Table.empty
  edges := (publishProviderEvidence b.edges).map (·.record)

/-- The snapshot of a working tree that is as it was when the providers published. -/
def BuildEvidence.snapshot (b : BuildEvidence) : CurrentBuildSnapshot where
  nodes := []
  edges := b.edges
  containsPackageToFiles := []
  packageToOwningWorkspace := []

def StoredPropagates (b : BuildEvidence) (node : String) (r : Relation) : Prop :=
  ∃ e ∈ (queryRawIncomingImpactEdges b.database node).1, dbRelation e = r

def SnapshotPropagates (b : BuildEvidence) (node : String) (r : Relation) : Prop :=
  ∃ e ∈ b.snapshot.findIncomingEdges node, buildRelation e = r

/-- The node that an edge leads to from one of its ends. -/
def otherEnd (node : String) (r : Relation) : String := if r.2.1 = node then r.1 else r.2.1

def StoredFollows (b : BuildEvidence) (node next : String) : Prop :=
  ∃ r, StoredPropagates b node r ∧ otherEnd node r = next

def SnapshotFollows (b : BuildEvidence) (node next : String) : Prop :=
  ∃ r, SnapshotPropagates b node r ∧ otherEnd node r = next

/-- The stored graph and the snapshot propagate every change alike. -/
structure Agrees (b : BuildEvidence) : Prop where
  edges : ∀ node r, StoredPropagates b node r ↔ SnapshotPropagates b node r
  reached : ∀ (start : String → Prop) n node,
    ReachesIn start (StoredFollows b) n node ↔ ReachesIn start (SnapshotFollows b) n node

/-! ### What is stored -/

def storedRelation (row : StoredEdge) : String × String × String :=
  (row.record.fromNode, row.record.toNode, row.record.kind)

def textRelation (e : BuildEdge) : String × String × String := (e.fromNode, e.toNode, e.kind.text)

def Backed (edges : List BuildEdge) (rows : List StoredEdge) : Prop :=
  ∀ row ∈ rows, ∃ e ∈ edges, e.stableId = row.stableId ∧ storedRelation row = textRelation e

variable {edges found : List BuildEdge} {rows : List StoredEdge} {e : BuildEdge} {id node : String}

theorem Backed.insertEdge (h : Backed edges rows) {e : BuildEdge} (he : e ∈ edges) :
    Backed edges (insertEdge rows e) := by
  intro row hrow
  unfold BuildPropagation.insertEdge at hrow
  split at hrow
  · obtain ⟨old, hold, rfl⟩ := mem_map.mp hrow
    obtain ⟨other, hother, hid, hrelation⟩ := h old hold
    refine ⟨other, hother, ?_, ?_⟩ <;> split <;> assumption
  · rcases mem_append.mp hrow with hrow | hrow
    · exact h row hrow
    · obtain rfl := mem_singleton.mp hrow
      exact ⟨e, he, rfl, rfl⟩

theorem backed_publish (edges : List BuildEdge) : Backed edges (publishProviderEvidence edges) := by
  apply foldlRecOn (motive := Backed edges)
  · intro row hrow
    exact absurd hrow not_mem_nil
  · intro rows hrows e he
    exact hrows.insertEdge he

theorem id_insertEdge (h : id = e.stableId ∨ ∃ row ∈ rows, row.stableId = id) :
    ∃ row ∈ insertEdge rows e, row.stableId = id := by
  unfold insertEdge
  split
  · next hany =>
    have hold : ∃ row ∈ rows, row.stableId = id := by
      rcases h with rfl | h
      · simpa using hany
      · exact h
    obtain ⟨row, hrow, hid⟩ := hold
    refine ⟨_, mem_map_of_mem hrow, ?_⟩
    split <;> exact hid
  · rcases h with rfl | ⟨row, hrow, hid⟩
    · exact ⟨_, mem_append_right _ mem_cons_self, rfl⟩
    · exact ⟨row, mem_append_left _ hrow, hid⟩

theorem id_foldl_insertEdge (h : (∃ e ∈ edges, e.stableId = id) ∨ ∃ row ∈ rows, row.stableId = id) :
    ∃ row ∈ edges.foldl insertEdge rows, row.stableId = id := by
  induction edges generalizing rows with
  | nil => simpa using h
  | cons e edges ih =>
    apply ih
    rcases h with ⟨other, hother, hid⟩ | h
    · rcases mem_cons.mp hother with rfl | hother
      · exact Or.inr (id_insertEdge (Or.inl hid.symm))
      · exact Or.inl ⟨other, hother, hid⟩
    · exact Or.inr (id_insertEdge (Or.inr h))

theorem stored_iff (b : BuildEvidence) (r : String × String × String) :
    (∃ row ∈ publishProviderEvidence b.edges, storedRelation row = r) ↔
      ∃ e ∈ b.edges, textRelation e = r := by
  constructor
  · rintro ⟨row, hrow, rfl⟩
    obtain ⟨e, he, _, hrelation⟩ := backed_publish b.edges row hrow
    exact ⟨e, he, hrelation.symm⟩
  · rintro ⟨e, he, rfl⟩
    have hid : ∃ row ∈ publishProviderEvidence b.edges, row.stableId = e.stableId :=
      id_foldl_insertEdge (Or.inl ⟨e, he, rfl⟩)
    obtain ⟨row, hrow, hid⟩ := hid
    obtain ⟨other, hother, hid', hrelation⟩ := backed_publish b.edges row hrow
    have hsame : buildRelation other = buildRelation e :=
      b.consistent other hother e he (hid'.trans hid)
    refine ⟨row, hrow, ?_⟩
    rw [hrelation]
    unfold buildRelation at hsame
    simp only [Prod.mk.injEq] at hsame
    simp [textRelation, hsame]

theorem parseEdgeKind_text (kind : EdgeKind) : parseEdgeKind kind.text = some kind := by
  cases kind <;> decide

theorem parseEdgeKind_eq_some {text : String} {kind : EdgeKind} :
    parseEdgeKind text = some kind ↔ text = kind.text := by
  constructor
  · intro h
    have htext := find?_some h
    simpa [eq_comm] using htext
  · rintro rfl
    exact parseEdgeKind_text kind

theorem text_injective {kind other : EdgeKind} (h : kind.text = other.text) : kind = other := by
  have hparse := parseEdgeKind_text kind
  rw [h, parseEdgeKind_text] at hparse
  exact (Option.some.inj hparse).symm

/-! ### Which edges propagate -/

def StoredApplies (r : Relation) (node : String) : Prop :=
  (r.2.1 = node ∧ reverseApplies r.2.2 r.2.1 = true) ∨ (r.1 = node ∧ forwardApplies r.2.2 r.1 = true)

theorem applies_iff {row : EdgeRecord} {edge : DbEdgeRow} :
    Applies row node edge ↔ ∃ kind, row.kind = kind.text ∧ edge = toDbEdgeRow row kind ∧
      StoredApplies (row.fromNode, row.toNode, kind) node := by
  constructor
  · rintro (⟨hnode, hedge⟩ | ⟨hnode, hedge⟩)
    · obtain ⟨kind, hkind, hedge⟩ := Option.bind_eq_some_iff.mp hedge
      split at hedge
      · next happlies =>
        exact ⟨kind, parseEdgeKind_eq_some.mp hkind, (Option.some.inj hedge).symm,
          Or.inl ⟨hnode, happlies⟩⟩
      · simp at hedge
    · obtain ⟨kind, hkind, hedge⟩ := Option.bind_eq_some_iff.mp hedge
      split at hedge
      · next happlies =>
        exact ⟨kind, parseEdgeKind_eq_some.mp hkind, (Option.some.inj hedge).symm,
          Or.inr ⟨hnode, happlies⟩⟩
      · simp at hedge
  · rintro ⟨kind, hkind, rfl, ⟨hnode, happlies⟩ | ⟨hnode, happlies⟩⟩
    · left
      refine ⟨hnode, Option.bind_eq_some_iff.mpr ⟨kind, parseEdgeKind_eq_some.mpr hkind, ?_⟩⟩
      exact if_pos happlies
    · right
      refine ⟨hnode, Option.bind_eq_some_iff.mpr ⟨kind, parseEdgeKind_eq_some.mpr hkind, ?_⟩⟩
      exact if_pos happlies

theorem storedPropagates_iff {b : BuildEvidence} {r : Relation} :
    StoredPropagates b node r ↔ (∃ e ∈ b.edges, buildRelation e = r) ∧ StoredApplies r node := by
  constructor
  · rintro ⟨edge, hedge, rfl⟩
    obtain ⟨record, hrecord, happlies⟩ := applies_of_mem_queryRaw hedge
    obtain ⟨row, hrow, rfl⟩ := mem_map.mp hrecord
    obtain ⟨kind, hkind, rfl, hstored⟩ := applies_iff.mp happlies
    obtain ⟨e, he, hrelation⟩ := (stored_iff b (storedRelation row)).mp ⟨row, hrow, rfl⟩
    refine ⟨⟨e, he, ?_⟩, hstored⟩
    simp only [textRelation, storedRelation, Prod.mk.injEq] at hrelation
    obtain ⟨hfrom, hto, htext⟩ := hrelation
    have hsame : e.kind = kind := text_injective (htext.trans hkind)
    simp [buildRelation, dbRelation, toDbEdgeRow, hfrom, hto, hsame]
  · rintro ⟨⟨e, he, rfl⟩, happlies⟩
    obtain ⟨row, hrow, hrelation⟩ := (stored_iff b (textRelation e)).mpr ⟨e, he, rfl⟩
    simp only [textRelation, storedRelation, Prod.mk.injEq] at hrelation
    obtain ⟨hfrom, hto, htext⟩ := hrelation
    have hrecord : row.record ∈ b.database.edges := mem_map_of_mem hrow
    have hrow' : Applies row.record node (toDbEdgeRow row.record e.kind) := by
      refine applies_iff.mpr ⟨e.kind, htext, rfl, ?_⟩
      rw [hfrom, hto]
      exact happlies
    obtain ⟨edge, hedge, hsame⟩ := relation_queryRaw hrecord hrow'
    refine ⟨edge, hedge, ?_⟩
    obtain ⟨hfrom', hto', hkind'⟩ := sameRelation_iff.mp hsame
    simp [dbRelation, buildRelation, hfrom', hto', hkind', toDbEdgeRow, hfrom, hto]

/-- Whether the snapshot holds an edge to apply depends on its relation alone. -/
def SnapshotApplies (r : Relation) (node : String) : Prop :=
  match r.2.2 with
  | .contains => r.2.1 = node ∧ startsWith "file:" node = true
  | .dependsOn | .extends | .references | .belongsTo | .reads | .uses => r.2.1 = node
  | .configures | .generates | .defines => r.1 = node
  | _ => False

theorem snapshotApplies_iff :
    snapshotApplies node e = true ↔ SnapshotApplies (buildRelation e) node := by
  unfold snapshotApplies SnapshotApplies buildRelation
  cases e.kind <;> simp

def firstOfId (found : List BuildEdge) (edge : BuildEdge) : List BuildEdge :=
  if found.any fun other => other.stableId = edge.stableId then found else found ++ [edge]

theorem mem_of_mem_firstOfId {first : BuildEdge} (h : e ∈ firstOfId found first) :
    e ∈ found ∨ e = first := by
  unfold firstOfId at h
  split at h
  · exact Or.inl h
  · simpa using h

theorem mem_foldl_firstOfId (h : e ∈ edges.foldl firstOfId found) : e ∈ found ∨ e ∈ edges :=
  Worklist.mem_of_mem_foldl (fun _ _ _ => mem_of_mem_firstOfId) h

theorem findIncomingEdges_eq (snapshot : CurrentBuildSnapshot) (node : String) :
    snapshot.findIncomingEdges node =
      (snapshot.edges.filter (snapshotApplies node)).foldl firstOfId [] := rfl

theorem id_foldl_firstOfId (h : (∃ e ∈ found, e.stableId = id) ∨ ∃ e ∈ edges, e.stableId = id) :
    ∃ e ∈ edges.foldl firstOfId found, e.stableId = id := by
  induction edges generalizing found with
  | nil => simpa using h
  | cons first edges ih =>
    apply ih
    unfold firstOfId
    rcases h with ⟨e, he, hid⟩ | ⟨e, he, hid⟩
    · left
      split
      · exact ⟨e, he, hid⟩
      · exact ⟨e, mem_append_left _ he, hid⟩
    · rcases mem_cons.mp he with rfl | he
      · left
        split
        · next hany =>
          obtain ⟨other, hother, hsame⟩ := any_eq_true.mp hany
          exact ⟨other, hother, (of_decide_eq_true hsame).trans hid⟩
        · exact ⟨e, mem_append_right _ mem_cons_self, hid⟩
      · exact Or.inr ⟨e, he, hid⟩

theorem snapshotPropagates_iff {b : BuildEvidence} {r : Relation} :
    SnapshotPropagates b node r ↔ (∃ e ∈ b.edges, buildRelation e = r) ∧ SnapshotApplies r node := by
  have hfind := findIncomingEdges_eq b.snapshot node
  unfold SnapshotPropagates
  rw [hfind]
  constructor
  · rintro ⟨e, he, rfl⟩
    rcases mem_foldl_firstOfId he with he | he
    · exact absurd he not_mem_nil
    · obtain ⟨he, happlies⟩ := mem_filter.mp he
      exact ⟨⟨e, he, rfl⟩, snapshotApplies_iff.mp happlies⟩
  · rintro ⟨⟨e, he, rfl⟩, happlies⟩
    have hmem : e ∈ b.edges.filter (snapshotApplies node) :=
      mem_filter.mpr ⟨he, snapshotApplies_iff.mpr happlies⟩
    have hid : ∃ other ∈ (b.edges.filter (snapshotApplies node)).foldl firstOfId [],
        other.stableId = e.stableId := id_foldl_firstOfId (Or.inr ⟨e, hmem, rfl⟩)
    obtain ⟨other, hother, hid⟩ := hid
    refine ⟨other, hother, ?_⟩
    rcases mem_foldl_firstOfId hother with hnone | hother
    · exact absurd hnone not_mem_nil
    · exact b.consistent other (mem_filter.mp hother).1 e he hid

/-- The kinds of edges that the two tables read in different ways. -/
def Contested (r : Relation) : Prop :=
  match r.2.2 with
  | .defines => r.1 ≠ r.2.1
  | .contains => startsWith "workspace:" r.1 = true
  | .imports | .reExports | .calls | .exports | .implements | .tests | .ordersBefore => True
  | _ => False

theorem not_workspace_of_file {text : String} (h : startsWith "file:" text = true) :
    startsWith "workspace:" text = false := by
  by_contra hnot
  have hworkspace : startsWith "workspace:" text = true := by simpa using hnot
  unfold startsWith at h hworkspace
  rw [List.isPrefixOf_iff_prefix] at h hworkspace
  rcases prefix_or_prefix_of_prefix h hworkspace with hprefix | hprefix
  · exact absurd hprefix (by decide)
  · exact absurd hprefix (by decide)

theorem applies_agree_iff (r : Relation) :
    (∀ node, StoredApplies r node ↔ SnapshotApplies r node) ↔ ¬ Contested r := by
  obtain ⟨fromNode, toNode, kind⟩ := r
  cases kind
  case contains =>
    constructor
    · intro h hworkspace
      have hstored : StoredApplies (fromNode, toNode, .contains) fromNode :=
        Or.inr ⟨rfl, hworkspace⟩
      obtain ⟨_, hfile⟩ := (h fromNode).mp hstored
      have hnot := not_workspace_of_file hfile
      rw [show startsWith "workspace:" fromNode = true from hworkspace] at hnot
      exact absurd hnot (by decide)
    · intro hcontested node
      have hnot : startsWith "workspace:" fromNode = false := by
        simpa [Contested] using hcontested
      constructor
      · rintro (⟨hto, hfile⟩ | ⟨_, hworkspace⟩)
        · exact ⟨hto, hto ▸ hfile⟩
        · rw [show startsWith "workspace:" fromNode = true from hworkspace] at hnot
          exact absurd hnot (by decide)
      · rintro ⟨hto, hfile⟩
        exact Or.inl ⟨hto, hto ▸ hfile⟩
  case defines =>
    have hstored : ∀ node, StoredApplies (fromNode, toNode, .defines) node ↔ toNode = node := by
      intro node
      simp [StoredApplies, reverseApplies, forwardApplies, edgeImpactDirection]
    simp only [hstored, SnapshotApplies, Contested, not_not]
    constructor
    · intro h
      exact (h toNode).mp rfl
    · intro h node
      rw [h]
  -- what is left goes back from its end alone, or on from its start alone, in both tables or in one
  all_goals
    simp [StoredApplies, SnapshotApplies, Contested, reverseApplies, forwardApplies,
      edgeImpactDirection]

theorem propagates_agree_iff (b : BuildEvidence) :
    (∀ node r, StoredPropagates b node r ↔ SnapshotPropagates b node r) ↔
      ∀ e ∈ b.edges, ¬ Contested (buildRelation e) := by
  constructor
  · intro h e he
    apply (applies_agree_iff _).mp
    intro node
    have hthere : ∃ other ∈ b.edges, buildRelation other = buildRelation e := ⟨e, he, rfl⟩
    have hsame := h node (buildRelation e)
    rw [storedPropagates_iff, snapshotPropagates_iff] at hsame
    simpa only [hthere, true_and] using hsame
  · intro h node r
    rw [storedPropagates_iff, snapshotPropagates_iff]
    apply and_congr_right
    rintro ⟨e, he, rfl⟩
    exact (applies_agree_iff _).mpr (h e he) node

/-- The stored graph and the snapshot agree exactly when no edge is of a kind they read differently. -/
theorem agrees_iff (b : BuildEvidence) :
    Agrees b ↔ ∀ e ∈ b.edges, ¬ Contested (buildRelation e) := by
  constructor
  · intro h
    exact (propagates_agree_iff b).mp h.edges
  · intro h
    have hedges := (propagates_agree_iff b).mpr h
    refine ⟨hedges, ?_⟩
    intro start n node
    have hfollows : StoredFollows b = SnapshotFollows b := by
      funext node next
      simp only [StoredFollows, SnapshotFollows, hedges]
    rw [hfollows]

/-! ### A workspace -/

def workspaceEdge : BuildEdge where
  stableId := "edge:contains:workspace:npm:.:pkg:npm:packages/a"
  fromNode := "workspace:npm:."
  toNode := "pkg:npm:packages/a"
  kind := .contains
  provider := "build_native"
  providerId := "builtin-package-json"
  providerFingerprint := "manifest"
  strength := .structural

def workspaceEvidence : BuildEvidence where
  edges := [workspaceEdge]
  consistent := by
    intro e he other hother _
    rw [mem_singleton.mp he, mem_singleton.mp hother]

/-- A change of the workspace reaches its package by the stored graph alone. -/
theorem workspace_members_forgotten :
    StoredPropagates workspaceEvidence "workspace:npm:." (buildRelation workspaceEdge) ∧
      ¬ SnapshotPropagates workspaceEvidence "workspace:npm:." (buildRelation workspaceEdge) ∧
      ¬ Agrees workspaceEvidence := by
  have hstored : StoredPropagates workspaceEvidence "workspace:npm:." (buildRelation workspaceEdge) :=
    storedPropagates_iff.mpr ⟨⟨workspaceEdge, mem_cons_self, rfl⟩, Or.inr ⟨rfl, by decide⟩⟩
  have hsnapshot :
      ¬ SnapshotPropagates workspaceEvidence "workspace:npm:." (buildRelation workspaceEdge) := by
    rintro ⟨e, he, _⟩
    have hnone : workspaceEvidence.snapshot.findIncomingEdges "workspace:npm:." = [] := by
      decide +kernel
    rw [hnone] at he
    exact absurd he not_mem_nil
  refine ⟨hstored, hsnapshot, ?_⟩
  intro h
  exact hsnapshot ((h.edges _ _).mp hstored)

end BuildPropagation
