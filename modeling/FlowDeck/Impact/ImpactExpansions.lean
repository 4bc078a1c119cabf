import FlowDeck.Impact.ImpactReport
import FlowDeck.Impact.ImpactRun

/-! The items that the traversal expands, and the stored edges that it follows at them. -/

namespace ImpactTraversal

open EvidenceModel ImpactEdges PolicyStore RunArtifact List

variable {ev : Evidence} {policy : ImpactPolicy}

/-! ### The edges at a node -/

/-- A stored edge applies to a node from one of its ends. -/
def Applies (row : EdgeRecord) (node : String) (edge : DbEdgeRow) : Prop :=
  (row.toNode = node ∧ reverseEdge? row = some edge) ∨
    (row.fromNode = node ∧ forwardEdge? row = some edge)

variable {e other edge : DbEdgeRow} {node : String} {edges added : List DbEdgeRow} {db : Database}
  {t : Traversal} {item : QueueItem}

theorem sameRelation_iff :
    sameRelation e other = true ↔
      e.fromNode = other.fromNode ∧ e.toNode = other.toNode ∧ e.kind = other.kind := by
  simp [sameRelation, and_assoc]

theorem sameRelation_refl (e : DbEdgeRow) : sameRelation e e = true :=
  sameRelation_iff.mpr ⟨rfl, rfl, rfl⟩

theorem mem_addRelation (h : other ∈ edges) : other ∈ addRelation edges e := by
  unfold addRelation
  split
  · exact h
  · exact mem_append_left _ h

theorem mem_foldl_addRelation (h : e ∈ edges) : e ∈ added.foldl addRelation edges := by
  induction added generalizing edges with
  | nil => exact h
  | cons first added ih => exact ih (mem_addRelation h)

theorem relation_foldl_addRelation (h : e ∈ added) :
    ∃ other ∈ added.foldl addRelation edges, sameRelation other e = true := by
  induction added generalizing edges with
  | nil => exact absurd h not_mem_nil
  | cons first added ih =>
    rcases mem_cons.mp h with rfl | h
    · have hnow : ∃ other ∈ addRelation edges e, sameRelation other e = true := by
        unfold addRelation
        split
        · next hany => exact any_eq_true.mp hany
        · exact ⟨e, mem_append_right _ mem_cons_self, sameRelation_refl e⟩
      obtain ⟨other, hother, hsame⟩ := hnow
      rw [foldl_cons]
      exact ⟨other, mem_foldl_addRelation hother, hsame⟩
    · exact ih h

theorem relation_queryRaw {row : EdgeRecord} (hrow : row ∈ db.edges) (h : Applies row node edge) :
    ∃ other ∈ (queryRawIncomingImpactEdges db node).1, sameRelation other edge = true := by
  unfold queryRawIncomingImpactEdges
  rcases h with ⟨hto, hedge⟩ | ⟨hfrom, hedge⟩
  · refine ⟨edge, mem_foldl_addRelation ?_, sameRelation_refl edge⟩
    exact mem_filterMap.mpr ⟨row, mem_filter.mpr ⟨hrow, by simpa using hto⟩, hedge⟩
  · apply relation_foldl_addRelation
    exact mem_filterMap.mpr ⟨row, mem_filter.mpr ⟨hrow, by simpa using hfrom⟩, hedge⟩

theorem mem_of_mem_addRelation (h : other ∈ addRelation edges e) : other ∈ edges ∨ other = e := by
  unfold addRelation at h
  split at h
  · exact Or.inl h
  · simpa using h

theorem applies_of_mem_queryRaw (h : edge ∈ (queryRawIncomingImpactEdges db node).1) :
    ∃ row ∈ db.edges, Applies row node edge := by
  rcases Worklist.mem_of_mem_foldl (fun _ _ _ => mem_of_mem_addRelation) h with hmem | hmem
  · obtain ⟨row, hrow, hedge⟩ := mem_filterMap.mp hmem
    obtain ⟨hrow, hto⟩ := mem_filter.mp hrow
    exact ⟨row, hrow, Or.inl ⟨by simpa using hto, hedge⟩⟩
  · obtain ⟨row, hrow, hedge⟩ := mem_filterMap.mp hmem
    obtain ⟨hrow, hfrom⟩ := mem_filter.mp hrow
    exact ⟨row, hrow, Or.inr ⟨by simpa using hfrom, hedge⟩⟩

/-- What has been recorded stays recorded, within its depth. -/
structure Noted (t t' : Traversal) : Prop where
  visited : ∀ node d, WithinVisited t node d → WithinVisited t' node d
  impacted : ∀ target d, WithinImpacted t target d → WithinImpacted t' target d
  fallback : t.hasFallbackPath = true → t'.hasFallbackPath = true

theorem Noted.refl (t : Traversal) : Noted t t := ⟨fun _ _ => id, fun _ _ => id, id⟩

theorem Noted.trans {t t' t'' : Traversal} (h : Noted t t') (h' : Noted t' t'') : Noted t t'' where
  visited node d hd := h'.visited node d (h.visited node d hd)
  impacted target d hd := h'.impacted target d (h.impacted target d hd)
  fallback hf := h'.fallback (h.fallback hf)

theorem Noted.covered {t' : Traversal} (h : Noted t t') {node : String} {d : Nat}
    (hcovered : Covered ev t node d) : Covered ev t' node d :=
  ⟨h.visited _ _ hcovered.1, h.impacted _ _ hcovered.2⟩

end ImpactTraversal
