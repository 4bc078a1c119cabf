import FlowDeck.Impact.BuildPropagation
import FlowDeck.Impact.ImpactCompleteness

/-! The paths by which a report explains its targets. -/

namespace ImpactPaths

open BuildPropagation CheckResolution EvidenceModel ImpactEdges ImpactReport ImpactTraversal List
open PolicyStore RunArtifact

variable {ev : Evidence} {policy : ImpactPolicy} {seeds : List ImpactSeed}

/-! ### The ends of an edge -/

/-- One end of an edge is the node it was found at. -/
def Touches (node : String) (edge : DbEdgeRow) : Prop := edge.fromNode = node ∨ edge.toNode = node

/-- The fallback index looked up a node that is no file, and names the file it took it for. -/
structure NamesFile (node : String) (edge : DbEdgeRow) : Prop where
  notFile : stripPrefix? "file:" node = none
  provider : edge.provider = "manual_rule"
  toNode : edge.toNode = "file:" ++ (lookupTarget node).1

variable {node : String} {edge : DbEdgeRow} {steps : List EvidenceStep} {t : Traversal}
  {item : QueueItem}

theorem touches_of_mem_queryRaw {db : Database} (h : edge ∈ (queryRawIncomingImpactEdges db node).1) :
    Touches node edge := by
  obtain ⟨row, _, happlies⟩ := applies_of_mem_queryRaw h
  obtain ⟨kind, _, rfl, hends⟩ := applies_iff.mp happlies
  rcases hends with ⟨hto, _⟩ | ⟨hfrom, _⟩
  · exact Or.inr hto
  · exact Or.inl hfrom

theorem touches_of_mem_rawEdges (h : edge ∈ (rawEdges ev node).1) : Touches node edge := by
  unfold rawEdges at h
  split at h
  · exact touches_of_mem_queryRaw h
  · simp at h

theorem touches_of_mem_staleEdges (h : edge ∈ staleEdges ev node) : Touches node edge := by
  obtain ⟨raw, hraw, rfl⟩ := mem_map.mp h
  have htouches : Touches node raw := touches_of_mem_rawEdges (mem_of_mem_filter hraw)
  exact htouches

theorem touches_of_snapshotApplies {edge : BuildEdge} (h : snapshotApplies node edge = true) :
    edge.fromNode = node ∨ edge.toNode = node := by
  have happlies := snapshotApplies_iff.mp h
  unfold SnapshotApplies buildRelation at happlies
  cases hkind : edge.kind <;> simp only [hkind] at happlies
  all_goals first
    | exact Or.inl happlies
    | exact Or.inr happlies
    | exact Or.inr happlies.1

theorem touches_of_mem_currentEdges (h : edge ∈ (currentEdges ev node).edges) :
    Touches node edge := by
  have hall : ∀ e ∈ (currentEdges ev node).edges, Touches node e := by
    apply foldlRecOn (motive := fun current : CurrentEdges => ∀ e ∈ current.edges, Touches node e)
    · intro e he
      exact touches_of_mem_rawEdges (mem_of_mem_filter he)
    · intro current hcurrent added hadded e he
      rw [findIncomingEdges_eq] at hadded
      have happlies : snapshotApplies node added = true := by
        rcases mem_foldl_firstOfId hadded with hmem | hmem
        · exact absurd hmem not_mem_nil
        · exact of_mem_filter hmem
      simp only [addSnapshotEdge] at he
      split at he
      · exact hcurrent e he
      · rcases mem_append.mp he with he | he
        · exact hcurrent e he
        · obtain rfl := mem_singleton.mp he
          exact touches_of_snapshotApplies happlies
  exact hall edge h

/-! ### The fallback index -/

theorem stripPrefix?_eq_some {start text rest : String} (h : stripPrefix? start text = some rest) :
    text = start ++ rest := by
  unfold stripPrefix? at h
  split at h
  · next hstart =>
    obtain ⟨tail, htail⟩ := isPrefixOf_iff_prefix.mp hstart
    obtain rfl := Option.some.inj h
    apply String.toList_inj.mp
    simp [← htail, ← String.length_toList]
  · simp at h

/-- `splitn` at the first place where a character stands. -/
theorem eq_takeWhile_append {c : Char} {text : List Char} (h : c ∈ text) :
    text = text.takeWhile (· ≠ c) ++ ([c] ++ (text.dropWhile (· ≠ c)).drop 1) := by
  induction text with
  | nil => exact absurd h not_mem_nil
  | cons first text ih =>
    by_cases hfirst : first = c
    · simp [hfirst]
    · have hrest : c ∈ text := by
        rcases mem_cons.mp h with heq | hrest
        · exact absurd heq.symm hfirst
        · exact hrest
      simp only [takeWhile_cons, dropWhile_cons, hfirst, ne_eq, not_false_eq_true,
        decide_true, if_true, cons_append]
      exact congrArg _ (ih hrest)

theorem lookupTarget_spec (node : String) :
    node = "file:" ++ (lookupTarget node).1 ∧ (lookupTarget node).2 = none ∨
      stripPrefix? "file:" node = none ∧
        ∀ symbol ∈ (lookupTarget node).2, node = "sym:" ++ (lookupTarget node).1 ++ ":" ++ symbol := by
  unfold lookupTarget
  split
  · next path hpath => exact Or.inl ⟨stripPrefix?_eq_some hpath, rfl⟩
  · next hfile =>
    right
    refine ⟨hfile, ?_⟩
    split
    · next stripped hstripped =>
      have hnode := stripPrefix?_eq_some hstripped
      split
      · next hcolon =>
        intro symbol hsymbol
        obtain rfl := Option.some.inj hsymbol
        rw [hnode]
        apply String.toList_inj.mp
        simp only [String.toList_append, String.toList_ofList, append_assoc]
        exact congrArg _ (eq_takeWhile_append hcolon)
      · intro symbol hsymbol
        simp at hsymbol
    · intro symbol hsymbol
      simp at hsymbol

theorem mem_index {index : LexicalFallbackIndex} {path : String} {symbol : Option String}
    (h : edge ∈ index.findIncomingEdges path symbol) :
    edge.provider = "manual_rule" ∧ (edge.toNode = "file:" ++ path ∨
      ∃ name, symbol = some name ∧ edge.toNode = "sym:" ++ path ++ ":" ++ name) := by
  simp only [LexicalFallbackIndex.findIncomingEdges, mem_append, mem_map] at h
  rcases h with (⟨file, _, rfl⟩ | ⟨file, _, rfl⟩) | ⟨file, hfile, rfl⟩
  · exact ⟨rfl, Or.inl rfl⟩
  · exact ⟨rfl, Or.inl rfl⟩
  · refine ⟨rfl, Or.inr ?_⟩
    cases symbol with
    | none => simp [unseenFiles] at hfile
    | some name => exact ⟨name, rfl, rfl⟩

theorem mem_of_mem_addEnds {edges : List DbEdgeRow} {e other : DbEdgeRow}
    (h : other ∈ addEnds edges e) : other ∈ edges ∨ other = e := by
  unfold addEnds at h
  split at h
  · exact Or.inl h
  · simpa using h

theorem mem_fallback {indexes : ImpactFallbackIndexes} {path : String} {symbol : Option String}
    (h : edge ∈ indexes.findIncomingEdges path symbol) :
    edge.provider = "manual_rule" ∧ (edge.toNode = "file:" ++ path ∨
      ∃ name, symbol = some name ∧ edge.toNode = "sym:" ++ path ++ ":" ++ name) := by
  unfold ImpactFallbackIndexes.findIncomingEdges at h
  split at h
  · exact mem_index h
  · rcases Worklist.mem_of_mem_foldl (fun _ _ _ => mem_of_mem_addEnds) h with hmem | hmem
    · exact mem_index hmem
    · exact mem_index hmem

theorem touches_of_mem_fallback
    (h : edge ∈ ev.fallback.findIncomingEdges (lookupTarget node).1 (lookupTarget node).2) :
    Touches node edge ∨ NamesFile node edge := by
  obtain ⟨hprovider, hto⟩ := mem_fallback h
  rcases lookupTarget_spec node with ⟨hnode, hsymbol⟩ | ⟨hfile, hsymbol⟩
  · rcases hto with hto | ⟨name, hname, _⟩
    · exact Or.inl (Or.inr (hto.trans hnode.symm))
    · rw [hsymbol] at hname
      simp at hname
  · rcases hto with hto | ⟨name, hname, hto⟩
    · exact Or.inr ⟨hfile, hprovider, hto⟩
    · exact Or.inl (Or.inr (hto.trans (hsymbol name hname).symm))

theorem touches_of_mem_expand (h : edge ∈ (expand ev node).outgoingEdges) :
    Touches node edge ∨ NamesFile node edge := by
  simp only [expand] at h
  split at h
  · exact Or.inl (touches_of_mem_currentEdges h)
  · rcases Worklist.mem_of_mem_foldl (fun _ _ _ => mem_of_mem_addEnds) h with hmem | hmem
    · rcases mem_append.mp hmem with hmem | hmem
      · exact Or.inl (touches_of_mem_currentEdges hmem)
      · exact Or.inl (touches_of_mem_staleEdges hmem)
    · exact touches_of_mem_fallback hmem

/-! ### Chains -/

def Joins (step : EvidenceStep) (node next : String) : Prop :=
  (step.fromNode = node ∧ step.toNode = next) ∨ (step.toNode = node ∧ step.fromNode = next)

/-- Steps that lead from a node to another one, each by an edge that the node reached so far was
expanded to. -/
inductive Chain (ev : Evidence) : String → List EvidenceStep → String → Prop
  | here {node : String} : Chain ev node [] node
  | step {node target : String} {edge : DbEdgeRow} {steps : List EvidenceStep}
      (hedge : edge ∈ (expand ev node).outgoingEdges)
      (hjoins : Joins (stepOf edge) node (nextNode node edge) ∨ NamesFile node edge)
      (hrest : Chain ev (nextNode node edge) steps target) : Chain ev node (stepOf edge :: steps) target

theorem joins_nextNode (h : Touches node edge) : Joins (stepOf edge) node (nextNode node edge) := by
  unfold nextNode
  split
  · next hto => exact Or.inr ⟨hto, rfl⟩
  · next hto =>
    rcases h with hfrom | heq
    · exact Or.inl ⟨hfrom, rfl⟩
    · exact absurd heq hto

theorem Chain.append {last : String} (h : Chain ev node steps last)
    (hedge : edge ∈ (expand ev last).outgoingEdges) :
    Chain ev node (steps ++ [stepOf edge]) (nextNode last edge) := by
  induction h with
  | @here node => exact .step hedge ((touches_of_mem_expand hedge).imp_left joins_nextNode) .here
  | step hfirst hjoins _ ih => exact .step hfirst hjoins (ih hedge)

/-- The least of some strengths. -/
structure IsWeakest (strength : EvidenceStrength) (strengths : List EvidenceStrength) : Prop where
  mem : strength ∈ strengths
  le : ∀ other ∈ strengths, rank strength ≤ rank other

theorem IsWeakest.append {strength : EvidenceStrength} {strengths : List EvidenceStrength}
    (h : IsWeakest strength strengths) (added : EvidenceStrength) :
    IsWeakest (minStrength strength added) (strengths ++ [added]) := by
  unfold minStrength
  split
  · next hlt =>
    refine ⟨mem_append_right _ mem_cons_self, ?_⟩
    intro other hother
    rcases mem_append.mp hother with hother | hother
    · exact hlt.le.trans (h.le other hother)
    · obtain rfl := mem_singleton.mp hother
      exact le_refl _
  · next hle =>
    refine ⟨mem_append_left _ h.mem, ?_⟩
    intro other hother
    rcases mem_append.mp hother with hother | hother
    · exact h.le other hother
    · obtain rfl := mem_singleton.mp hother
      omega

/-- A chain from a seed, as weak as its weakest part. -/
structure FromSeed (ev : Evidence) (seeds : List ImpactSeed) (changeId seedNode : String)
    (steps : List EvidenceStep) (node : String) (strength : EvidenceStrength) : Prop where
  chain : Chain ev seedNode steps node
  seeded : ∃ seed ∈ seeds, seed.seedNode = seedNode ∧ seed.changeId = changeId ∧
    IsWeakest strength (seed.strength :: steps.map (·.strength))

theorem FromSeed.append {changeId seedNode : String} {strength : EvidenceStrength}
    (h : FromSeed ev seeds changeId seedNode steps node strength)
    (hedge : edge ∈ (expand ev node).outgoingEdges) :
    FromSeed ev seeds changeId seedNode (steps ++ [stepOf edge]) (nextNode node edge)
      (minStrength strength edge.strength) := by
  refine ⟨h.chain.append hedge, ?_⟩
  obtain ⟨seed, hseed, hnode, hchange, hweakest⟩ := h.seeded
  refine ⟨seed, hseed, hnode, hchange, ?_⟩
  rw [map_append, ← cons_append]
  exact hweakest.append edge.strength

/-! ### What is reported -/

def directPath (seed : ImpactSeed) : EvidencePath where
  changeId := seed.changeId
  seedNode := seed.seedNode
  targetNode := seed.seedNode
  steps := [⟨seed.seedNode, .defines, "file:" ++ seed.canonicalPath, "change-delta", seed.strength,
    some "directly modified"⟩]
  pathStrength := seed.strength
  explanation := "Directly modified in change " ++ seed.changeId

/-- A path that stands for a depth. -/
inductive PathOf (ev : Evidence) (seeds : List ImpactSeed) : Nat → EvidencePath → Prop
  | direct {seed : ImpactSeed} (hseed : seed ∈ seeds) : PathOf ev seeds 0 (directPath seed)
  | propagated {d : Nat} {path : EvidencePath} (hdepth : d = path.steps.length)
      (hsteps : path.steps ≠ [])
      (h : FromSeed ev seeds path.changeId path.seedNode path.steps path.targetNode path.pathStrength) :
      PathOf ev seeds d path

structure Explained (ev : Evidence) (seeds : List ImpactSeed) (x : ImpactedTarget) : Prop where
  primary : ∀ path, x.primaryPath = some path →
    PathOf ev seeds x.depth path ∧ x.strength = path.pathStrength
  alternate : ∀ path ∈ x.alternatePaths, ∃ d, PathOf ev seeds d path

theorem explained_seedTarget {seed : ImpactSeed} (hseed : seed ∈ seeds) :
    Explained ev seeds (seedTarget seed) := by
  constructor
  · intro path hpath
    obtain rfl : directPath seed = path := Option.some.inj hpath
    exact ⟨.direct hseed, rfl⟩
  · intro path hpath
    exact absurd hpath not_mem_nil

theorem Explained.recordPath {x : ImpactedTarget} {d : Nat} {path : EvidencePath}
    (h : Explained ev seeds x) (hpath : PathOf ev seeds d path) :
    Explained ev seeds (recordPath policy x d path.pathStrength path) := by
  have hadd : ∀ (alternates : List EvidencePath) (other : EvidencePath),
      (∀ p ∈ alternates, ∃ d, PathOf ev seeds d p) → (∃ d, PathOf ev seeds d other) →
      ∀ p ∈ (if alternates.length < policy.maxPathsPerTarget then alternates ++ [other] else alternates),
        ∃ d, PathOf ev seeds d p := by
    intro alternates other halternates hother p hp
    split at hp
    · rcases mem_append.mp hp with hp | hp
      · exact halternates p hp
      · obtain rfl := mem_singleton.mp hp
        exact hother
    · exact halternates p hp
  simp only [ImpactTraversal.recordPath]
  split
  · constructor
    · intro p hp
      obtain rfl : path = p := Option.some.inj hp
      exact ⟨hpath, rfl⟩
    · cases hprimary : x.primaryPath with
      | none => exact h.alternate
      | some old => exact hadd _ old h.alternate ⟨_, (h.primary old hprimary).1⟩
  · exact ⟨h.primary, hadd _ path h.alternate ⟨d, hpath⟩⟩

theorem mem_values_insertAbsent {m : InsertionMap String ImpactedTarget} {x y : ImpactedTarget}
    (h : y ∈ (insertAbsent m x).values) : y ∈ m.values ∨ y = x := by
  unfold insertAbsent at h
  split at h
  · exact Or.inl h
  · exact (InsertionMap.mem_values_set h).symm

/-- What holds of the paths while the traversal goes on. -/
structure Traced (ev : Evidence) (seeds : List ImpactSeed) (t : Traversal) : Prop where
  queued : ∀ item ∈ t.queue, item.depth = item.steps.length ∧
    FromSeed ev seeds item.changeId item.seedNode item.steps item.currentNodeId item.strength
  impacted : ∀ x ∈ t.impacted.values, Explained ev seeds x

theorem Traced.of_same {t' : Traversal} (h : Traced ev seeds t) (hqueue : t'.queue = t.queue)
    (himpacted : t'.impacted = t.impacted) : Traced ev seeds t' := by
  constructor
  · rw [hqueue]
    exact h.queued
  · rw [himpacted]
    exact h.impacted

theorem Traced.followEdge (h : Traced ev seeds t) (hdepth : item.depth = item.steps.length)
    (hitem : FromSeed ev seeds item.changeId item.seedNode item.steps item.currentNodeId item.strength)
    (hedge : edge ∈ (expand ev item.currentNodeId).outgoingEdges) :
    Traced ev seeds (followEdge ev policy item t edge) := by
  have hnext := hitem.append hedge
  have hlength : item.depth + 1 = (item.steps ++ [stepOf edge]).length := by
    simp [hdepth]
  constructor
  · intro other hother
    simp only [ImpactTraversal.followEdge] at hother
    split at hother
    · exact h.queued other hother
    · rcases mem_append.mp hother with hother | hother
      · exact h.queued other hother
      · obtain rfl := mem_singleton.mp hother
        exact ⟨hlength, hnext⟩
  · intro x hx
    simp only [ImpactTraversal.followEdge, recordImpact] at hx
    have hpath : PathOf ev seeds (item.depth + 1)
        { changeId := item.changeId
          seedNode := item.seedNode
          targetNode := nextNode item.currentNodeId edge
          steps := item.steps ++ [stepOf edge]
          pathStrength := minStrength item.strength edge.strength
          explanation := renderPathExplanation (nextNode item.currentNodeId edge) item.seedNode
            (item.steps ++ [stepOf edge]) } := by
      apply PathOf.propagated
      · exact hlength
      · simp
      · exact hnext
    split at hx
    · next existing hexisting =>
      rcases InsertionMap.mem_values_set hx with rfl | hx
      · exact (h.impacted existing (InsertionMap.mem_values_of_get? hexisting)).recordPath hpath
      · exact h.impacted x hx
    · rcases InsertionMap.mem_values_set hx with rfl | hx
      · constructor
        · intro path hsome
          obtain rfl := Option.some.inj hsome
          exact ⟨hpath, rfl⟩
        · intro path hmem
          exact absurd hmem not_mem_nil
      · exact h.impacted x hx

theorem Traced.followEdges {edges : List DbEdgeRow} (h : Traced ev seeds t)
    (hdepth : item.depth = item.steps.length)
    (hitem : FromSeed ev seeds item.changeId item.seedNode item.steps item.currentNodeId item.strength)
    (hedges : ∀ edge ∈ edges, edge ∈ (expand ev item.currentNodeId).outgoingEdges) :
    Traced ev seeds (followEdges ev policy item edges t) := by
  induction edges generalizing t with
  | nil => exact h
  | cons edge edges ih =>
    simp only [ImpactTraversal.followEdges]
    split
    · exact h.of_same rfl rfl
    · have hcount : Traced ev seeds { t with totalEdgesVisited := t.totalEdgesVisited + 1 } :=
        h.of_same rfl rfl
      apply ih (hcount.followEdge hdepth hitem (hedges edge mem_cons_self))
      intro other hother
      exact hedges other (mem_cons_of_mem _ hother)

theorem Traced.visit {queue : List QueueItem} (h : Traced ev seeds t)
    (hqueue : t.queue = item :: queue) :
    Traced ev seeds (visit ev policy item { t with queue := queue }) := by
  obtain ⟨hdepth, hitem⟩ := h.queued item (by simp [hqueue])
  have hrest : Traced ev seeds { t with queue := queue } := by
    refine ⟨?_, h.impacted⟩
    intro other hother
    apply h.queued other
    rw [hqueue]
    exact mem_cons_of_mem _ hother
  simp only [ImpactTraversal.visit]
  split
  · exact hrest.of_same rfl rfl
  · apply Traced.followEdges _ hdepth hitem
    · intro edge hedge
      exact hedge
    · exact hrest.of_same rfl rfl

theorem Traced.traverse {remaining : Nat} (h : Traced ev seeds t) :
    Traced ev seeds (traverse ev policy remaining t) := by
  induction remaining generalizing t with
  | zero =>
    cases hqueue : t.queue with
    | nil =>
      rw [traverse_nil hqueue]
      exact h
    | cons item queue =>
      rw [traverse_zero hqueue]
      exact h.of_same rfl rfl
  | succ remaining ih =>
    cases hqueue : t.queue with
    | nil =>
      rw [traverse_nil hqueue]
      exact h
    | cons item queue =>
      rw [traverse_succ hqueue]
      exact ih (h.visit hqueue)

theorem Traced.enqueueSeed {seed : ImpactSeed} (h : Traced ev seeds t) (hseed : seed ∈ seeds) :
    Traced ev seeds (enqueueSeed t seed) := by
  constructor
  · intro item hitem
    rcases mem_append.mp hitem with hitem | hitem
    · exact h.queued item hitem
    · obtain rfl := mem_singleton.mp hitem
      refine ⟨rfl, .here, seed, hseed, rfl, rfl, ?_⟩
      exact ⟨mem_cons_self, by simp⟩
  · intro x hx
    rcases mem_values_insertAbsent hx with hx | rfl
    · exact h.impacted x hx
    · exact explained_seedTarget hseed

theorem traced_start (ev : Evidence) (seeds : List ImpactSeed) (uncertainties : List UncertaintyReason)
    (fallback : Bool) : Traced ev seeds (start seeds uncertainties fallback) := by
  apply foldlRecOn (motive := fun t => Traced ev seeds t)
  · constructor
    · intro item hitem
      exact absurd hitem not_mem_nil
    · intro x hx
      exact absurd hx not_mem_nil
  · intro t ht seed hseed
    exact ht.enqueueSeed hseed

/-! ### The report -/

theorem explained_widenedTarget (code : String) (target : String × NodeKind) :
    Explained ev seeds (widenedTarget code target) := by
  constructor
  · intro path hpath
    simp [widenedTarget] at hpath
  · intro path hpath
    exact absurd hpath not_mem_nil

theorem explained_add {w : Widening} (h : ∀ x ∈ w.impacted.values, Explained ev seeds x)
    (code : String) (targets : List (String × NodeKind)) :
    ∀ x ∈ (w.add code targets).impacted.values, Explained ev seeds x := by
  apply foldlRecOn (motive := fun m : InsertionMap String ImpactedTarget =>
    ∀ x ∈ m.values, Explained ev seeds x)
  · exact h
  · intro m hm target _ x hx
    rcases mem_values_insertAbsent hx with hx | rfl
    · exact hm x hx
    · exact explained_widenedTarget code target

theorem explained_widenScope {w : Widening} (h : ∀ x ∈ w.impacted.values, Explained ev seeds x)
    (q : Query) (affected : List String) (unc : BuildUncertainty) :
    ∀ x ∈ (widenScope q affected w unc).impacted.values, Explained ev seeds x := by
  unfold widenScope
  split
  · exact h
  split
  · split
    · exact explained_add h _ _
    · exact h
  · split
    · exact explained_add (explained_add h _ _) _ _
    · exact h
  · split
    · exact explained_add h _ _
    · exact h
  · exact explained_add (explained_add (explained_add h _ _) _ _) _ _
  · exact h
  · exact h

theorem explained_widen (h : ∀ x ∈ t.impacted.values, Explained ev seeds x) (q : Query) :
    ∀ x ∈ (widen q t).impacted.values, Explained ev seeds x := by
  apply foldlRecOn (motive := fun w : Widening => ∀ x ∈ w.impacted.values, Explained ev seeds x)
  · exact h
  · intro w hw unc _
    exact explained_widenScope hw q _ unc

/-- Every path of a report records a direct modification, or is a chain from its seed to its target. -/
theorem explained_of_mem_impacted (q : Query) (depthLimit : Option Nat) :
    ∀ x ∈ (analyzeImpactV2 q depthLimit).impacted, Explained q.evidence q.seeds x := by
  intro x hx
  have htraced : Traced q.evidence q.seeds (run q { maxDepth := depthLimit.getD 3 }) :=
    (traced_start q.evidence q.seeds _ _).traverse
  exact explained_widen htraced.impacted q x (KeyOrder.mem_orderBy.mp hx)

/-! ### A symbol whose file is imported -/

/-- Steps that lead from a node to another one, each joining the two by an edge that the first was
expanded to. -/
inductive Connected (ev : Evidence) : String → List EvidenceStep → String → Prop
  | here {node : String} : Connected ev node [] node
  | step {node next target : String} {edge : DbEdgeRow} {steps : List EvidenceStep}
      (hedge : edge ∈ (expand ev node).outgoingEdges) (hjoins : Joins (stepOf edge) node next)
      (hrest : Connected ev next steps target) : Connected ev node (stepOf edge :: steps) target

theorem Connected.joins {target : String} {step : EvidenceStep}
    (h : Connected ev node (step :: steps) target) :
    ∃ next, ∃ edge ∈ (expand ev node).outgoingEdges, step = stepOf edge ∧ Joins step node next := by
  cases h with
  | step hedge hjoins _ => exact ⟨_, _, hedge, rfl, hjoins⟩

def symbolSeed : ImpactSeed := ⟨"sym:a.ts:f", "a.ts", "chg:1", .precise, none⟩

def fileSeed : ImpactSeed := ⟨"file:a.ts", "a.ts", "chg:1", .precise, none⟩

/-- A change of the symbol `f` of `a.ts`, which `b.ts` imports; there is no graph. -/
def symbolChange : Query where
  changeAssurance := .exact
  seeds := [symbolSeed, fileSeed]
  uncertainties := []
  scopedBuildUncertainties := []
  evidence :=
    { db := none
      effectiveStates := fun _ => none
      buildStates := fun _ => none
      snapshot := ⟨[], [], [], []⟩
      fallback :=
        { current := ⟨fun path => if path = "a.ts" then ["b.ts"] else [], fun _ => []⟩
          before := none } }
  inventory := ⟨[], [], false, []⟩
  debug := UncertaintyReason.code

def importPath : EvidencePath where
  changeId := "chg:1"
  seedNode := "sym:a.ts:f"
  targetNode := "file:a.ts"
  steps := [⟨"file:b.ts", .imports, "file:a.ts", "manual_rule", .heuristic, none⟩]
  pathStrength := .heuristic
  explanation := "a.ts is impacted because: b.ts imports a.ts"

theorem run_symbolChange :
    (run symbolChange {}).impacted.get? "a.ts" = some
      { seedTarget symbolSeed with
        alternatePaths := [importPath]
        alternatePathCount := 1 } := by decide +kernel

theorem symbolChange_explained :
    Explained symbolChange.evidence symbolChange.seeds
      { seedTarget symbolSeed with
        alternatePaths := [importPath]
        alternatePathCount := 1 } :=
  explained_of_mem_impacted symbolChange none _ (mem_impacted run_symbolChange)

/-- The record of the change is no edge that was followed; and the import does not touch the symbol. -/
theorem symbolChange_unconnected :
    ∃ x ∈ (analyzeImpactV2 symbolChange none).impacted,
      (∃ path, x.primaryPath = some path ∧
        ¬ Connected symbolChange.evidence path.seedNode path.steps path.targetNode) ∧
      ∃ path ∈ x.alternatePaths,
        ¬ Connected symbolChange.evidence path.seedNode path.steps path.targetNode := by
  refine ⟨_, mem_impacted run_symbolChange, ⟨directPath symbolSeed, rfl, ?_⟩, importPath, ?_, ?_⟩
  · intro h
    obtain ⟨next, edge, hedge, hstep, _⟩ := h.joins
    have hall : ∀ e ∈ (expand symbolChange.evidence "sym:a.ts:f").outgoingEdges,
        e.provider = "manual_rule" := by decide +kernel
    have hprovider : "change-delta" = edge.provider := congrArg EvidenceStep.provider hstep
    rw [hall edge hedge] at hprovider
    exact absurd hprovider (by decide)
  · exact mem_cons_self
  · intro h
    obtain ⟨next, _, _, _, ⟨hfrom, _⟩ | ⟨hto, _⟩⟩ := h.joins
    · exact absurd hfrom (by decide)
    · exact absurd hto (by decide)

end ImpactPaths
