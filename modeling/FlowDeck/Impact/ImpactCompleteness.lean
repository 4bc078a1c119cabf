import FlowDeck.Impact.ImpactReport
import FlowDeck.Impact.ImpactRun

/-! Every target in reach is reported at its distance, or a limit is. -/

namespace ImpactReport

open BoundedReach EvidenceModel ImpactEdges ImpactTraversal PolicyStore RunArtifact List

variable {q : Query} {policy : ImpactPolicy}

/-! ### The uncertainties -/

variable {reason : UncertaintyReason}

theorem mem_sortUncertainties {debug : UncertaintyReason → String}
    {reasons : List UncertaintyReason} :
    reason ∈ sortUncertainties debug reasons ↔ reason ∈ reasons := by
  unfold sortUncertainties
  rw [KeyOrder.mem_destutter_ne, KeyOrder.mem_orderBy]

theorem mem_uncertainty :
    reason ∈ (analyze q policy).uncertainty ↔
      reason ∈ collectUncertainties q policy (run q policy) (widen q (run q policy)) :=
  mem_sortUncertainties

theorem limit_reported (h : reason ∈ limitReasons policy (run q policy)) :
    reason ∈ (analyze q policy).uncertainty :=
  mem_uncertainty.mpr (mem_append_right _ h)

theorem depthLimit_reported (h : (run q policy).depthLimitHit = true) :
    .depthLimitReached policy.maxDepth ∈ (analyze q policy).uncertainty := by
  apply limit_reported
  simp [limitReasons, h]

theorem nodeLimit_reported (h : (run q policy).nodeLimitHit = true) :
    .nodeLimitReached policy.maxNodes ∈ (analyze q policy).uncertainty := by
  apply limit_reported
  simp [limitReasons, h]

theorem edgeLimit_reported (h : (run q policy).edgeLimitHit = true) :
    .edgeLimitReached policy.maxEdges ∈ (analyze q policy).uncertainty := by
  apply limit_reported
  simp [limitReasons, h]

/-! ### The widening keeps what the traversal found -/

/-- Whatever a map holds another one holds too. -/
def Keeps (m m' : InsertionMap String ImpactedTarget) : Prop :=
  ∀ k x, m.get? k = some x → m'.get? k = some x

theorem keeps_insertAbsent (m : InsertionMap String ImpactedTarget) (x : ImpactedTarget) :
    Keeps m (insertAbsent m x) := by
  intro k y hy
  rw [get?_insertAbsent, hy, Option.some_or]

theorem keeps_add (w : Widening) (code : String) (targets : List (String × NodeKind)) :
    Keeps w.impacted (w.add code targets).impacted := by
  apply foldlRecOn (motive := fun m => Keeps w.impacted m)
  · intro k x hx
    exact hx
  · intro m hm target _ k x hx
    exact keeps_insertAbsent m _ k x (hm k x hx)

theorem keeps_widenScope (q : Query) (affected : List String) (w : Widening) (unc : BuildUncertainty) :
    Keeps w.impacted (widenScope q affected w unc).impacted := by
  have hsame : Keeps w.impacted w.impacted := fun _ _ hx => hx
  unfold widenScope
  split
  · exact hsame
  split
  · split
    · exact keeps_add w _ _
    · exact hsame
  · split
    · intro k x hx
      apply keeps_add
      exact keeps_add w _ _ k x hx
    · exact hsame
  · split
    · exact keeps_add w _ _
    · exact hsame
  · intro k x hx
    apply keeps_add
    apply keeps_add
    exact keeps_add w _ _ k x hx
  · exact hsame
  · exact hsame

theorem keeps_widen (q : Query) (t : Traversal) : Keeps t.impacted (widen q t).impacted := by
  apply foldlRecOn (motive := fun w : Widening => Keeps t.impacted w.impacted)
  · intro k x hx
    exact hx
  · intro w hw unc _ k x hx
    exact keeps_widenScope q _ w unc k x (hw k x hx)

theorem mem_impacted {k : String} {x : ImpactedTarget} (h : (run q policy).impacted.get? k = some x) :
    x ∈ (analyze q policy).impacted := by
  apply KeyOrder.mem_orderBy.mpr
  exact InsertionMap.mem_values_of_get? (keeps_widen q _ k x h)

/-! ### The end of a traversal that no limit cut short -/

variable {ev : Evidence} {seeds : List ImpactSeed} {t : Traversal}

/-- The loop ended, and no edge was left out. -/
structure Finished (ev : Evidence) (policy : ImpactPolicy) (seeds : List ImpactSeed) (t : Traversal) :
    Prop extends Invariant ev policy seeds t where
  emptied : t.queue = []
  uncut : t.edgeLimitHit = false

theorem Finished.settled (h : Finished ev policy seeds t) {node : String} {d : Nat}
    (hnode : t.visitedNodes.get? node = some d) : Settled ev policy t node d := by
  rcases h.pending h.uncut node d hnode with ⟨item, hitem, _⟩ | hsettled
  · rw [h.emptied] at hitem
    exact absurd hitem not_mem_nil
  · exact hsettled

theorem Finished.covered (h : Finished ev policy seeds t) {node : String} {d : Nat}
    (hnode : t.visitedNodes.get? node = some d)
    (hd : d < policy.maxDepth ∨ t.depthLimitHit = false) {edge : DbEdgeRow}
    (hedge : edge ∈ (expand ev node).outgoingEdges) :
    Covered ev t (nextNode node edge) (d + 1) := by
  have hsettled := h.settled hnode
  by_cases hlt : d < policy.maxDepth
  · exact hsettled.within hlt edge hedge
  · have hhit := hsettled.beyond (by omega) (ne_nil_of_mem hedge)
    rcases hd with hd | hd
    · exact absurd hd hlt
    · rw [hhit] at hd
      exact absurd hd (by decide)

theorem Finished.closed (h : Finished ev policy seeds t) {bound : Nat}
    (hbound : bound ≤ policy.maxDepth ∨ t.depthLimitHit = false) :
    Closed (IsSeed seeds) (Follows ev) t.visitedNodes.get? bound := by
  constructor
  · rintro node ⟨seed, hseed, rfl⟩
    exact h.seeded.visited seed hseed
  · rintro node next d hnode hd ⟨edge, hedge, rfl⟩
    exact (h.covered hnode (hbound.imp_left fun hle => by omega) hedge).1

theorem Finished.within (h : Finished ev policy seeds t) {bound : Nat}
    (hbound : bound ≤ policy.maxDepth ∨ t.depthLimitHit = false) {n : Nat} {target : String}
    (hreach : ReachesTarget ev seeds n target) (hn : n ≤ bound) : WithinImpacted t target n := by
  cases n with
  | zero =>
    obtain ⟨seed, hseed, rfl⟩ := hreach
    obtain ⟨x, hx, hdepth⟩ := h.seeded.impacted seed hseed
    exact ⟨x, hx, hdepth.le⟩
  | succ n =>
    obtain ⟨node, hnode, rfl⟩ := hreach
    obtain ⟨before, hbefore, edge, hedge, rfl⟩ := hnode.pred
    obtain ⟨d, hd, hvisited⟩ := (h.closed hbound).label_le hbefore (by omega)
    have hcovered := h.covered hvisited (hbound.imp_left fun hle => by omega) hedge
    obtain ⟨x, hx, hdepth⟩ := hcovered.2
    exact ⟨x, hx, by omega⟩

theorem Finished.isLeast (h : Finished ev policy seeds t) {n : Nat} {target : String}
    (hreach : ReachesTarget ev seeds n target) (hn : n ≤ policy.maxDepth) :
    ∃ x, t.impacted.get? target = some x ∧ x.target = target ∧
      IsLeast {m | ReachesTarget ev seeds m target} x.depth := by
  have hin : ∀ m ≤ policy.maxDepth, ReachesTarget ev seeds m target → WithinImpacted t target m :=
    fun m hm hreach => h.within (Or.inl (le_refl _)) hreach hm
  obtain ⟨x, hx, hdepth⟩ := hin n hn hreach
  obtain ⟨htarget, hsound⟩ := h.sound.impacted target x hx
  refine ⟨x, hx, htarget, hsound, ?_⟩
  intro m hm
  by_cases hle : m ≤ policy.maxDepth
  · obtain ⟨y, hy, hydepth⟩ := hin m hle hm
    obtain rfl : x = y := Option.some.inj (hx.symm.trans hy)
    exact hydepth
  · omega

theorem Finished.depthLimit (h : Finished ev policy seeds t) {node : String}
    (hleast : IsLeast {n | Reaches ev seeds n node} policy.maxDepth)
    (hedges : (expand ev node).outgoingEdges ≠ []) : t.depthLimitHit = true := by
  have hclosed : Closed (IsSeed seeds) (Follows ev) t.visitedNodes.get? policy.maxDepth :=
    h.closed (Or.inl (le_refl _))
  obtain ⟨d, hd, hnode⟩ := hclosed.label_le hleast.1 (le_refl _)
  have hge : policy.maxDepth ≤ d := hleast.2 (h.sound.visited node d hnode)
  exact (h.settled hnode).beyond hge hedges

theorem finished_run (hnodes : (run q policy).nodeLimitHit = false)
    (hedges : (run q policy).edgeLimitHit = false) :
    Finished q.evidence policy q.seeds (run q policy) := by
  have hinv : Invariant q.evidence policy q.seeds (run q policy) :=
    (invariant_start q.evidence policy q.seeds _ _).traverse
  rcases queue_traverse q.evidence policy policy.maxNodes (start q.seeds q.uncertainties _) with
    hempty | hhit
  · exact ⟨hinv, hempty, hedges⟩
  · rw [show (run q policy).nodeLimitHit = true from hhit] at hnodes
    exact absurd hnodes (by decide)

/-! ### The report -/

/-- No node was left unvisited and no edge unfollowed, as far as the report tells. -/
structure Uncut (q : Query) (policy : ImpactPolicy) : Prop where
  nodes : .nodeLimitReached policy.maxNodes ∉ (analyze q policy).uncertainty
  edges : .edgeLimitReached policy.maxEdges ∉ (analyze q policy).uncertainty

theorem Uncut.finished (h : Uncut q policy) :
    Finished q.evidence policy q.seeds (run q policy) := by
  apply finished_run
  · by_contra hhit
    exact h.nodes (nodeLimit_reported (by simpa using hhit))
  · by_contra hhit
    exact h.edges (edgeLimit_reported (by simpa using hhit))

structure ReportsReach (q : Query) (policy : ImpactPolicy) : Prop where
  reported : Uncut q policy → ∀ n target, n ≤ policy.maxDepth →
    ReachesTarget q.evidence q.seeds n target →
    ∃ x ∈ (analyze q policy).impacted, x.target = target ∧
      IsLeast {m | ReachesTarget q.evidence q.seeds m target} x.depth
  depthReported : Uncut q policy → ∀ node, ∀ edge ∈ (expand q.evidence node).outgoingEdges,
    IsLeast {n | Reaches q.evidence q.seeds n node} policy.maxDepth →
    .depthLimitReached policy.maxDepth ∈ (analyze q policy).uncertainty
  neverOmitted : ∀ n target, ReachesTarget q.evidence q.seeds n target →
    (∃ x ∈ (analyze q policy).impacted, x.target = target) ∨
    .depthLimitReached policy.maxDepth ∈ (analyze q policy).uncertainty ∨
    .nodeLimitReached policy.maxNodes ∈ (analyze q policy).uncertainty ∨
    .edgeLimitReached policy.maxEdges ∈ (analyze q policy).uncertainty

/-- Short of the node and the edge limit, a target within the depth is reported at its distance and a
node that leads beyond it is told of; and no target is left out without a limit being told. -/
theorem reportsReach (q : Query) (policy : ImpactPolicy) : ReportsReach q policy := by
  constructor
  case reported =>
    intro huncut n target hn hreach
    obtain ⟨x, hx, htarget, hleast⟩ := huncut.finished.isLeast hreach hn
    exact ⟨x, mem_impacted hx, htarget, hleast⟩
  case depthReported =>
    intro huncut node edge hedge hleast
    exact depthLimit_reported (huncut.finished.depthLimit hleast (ne_nil_of_mem hedge))
  case neverOmitted =>
    intro n target hreach
    by_cases hdepth : (run q policy).depthLimitHit = true
    · exact Or.inr (Or.inl (depthLimit_reported hdepth))
    by_cases hnodes : (run q policy).nodeLimitHit = true
    · exact Or.inr (Or.inr (Or.inl (nodeLimit_reported hnodes)))
    by_cases hedges : (run q policy).edgeLimitHit = true
    · exact Or.inr (Or.inr (Or.inr (edgeLimit_reported hedges)))
    have hfinished : Finished q.evidence policy q.seeds (run q policy) :=
      finished_run (by simpa using hnodes) (by simpa using hedges)
    obtain ⟨x, hx, _⟩ := hfinished.within (Or.inr (by simpa using hdepth)) hreach (le_refl n)
    have htarget := (hfinished.sound.impacted target x hx).1
    exact Or.inl ⟨x, mem_impacted hx, htarget⟩

/-! ### A crowd of seeds -/

def seedItem (seed : ImpactSeed) : QueueItem :=
  ⟨seed.seedNode, 0, seed.strength, [], seed.changeId, seed.seedNode⟩

theorem foldl_enqueueSeed (seeds : List ImpactSeed) (t : Traversal) :
    (seeds.foldl enqueueSeed t).queue = t.queue ++ seeds.map seedItem ∧
      (seeds.foldl enqueueSeed t).uncertainties =
        t.uncertainties ++ seeds.flatMap (fun seed => seed.wideningReason.toList) ∧
      (seeds.foldl enqueueSeed t).depthLimitHit = t.depthLimitHit := by
  induction seeds generalizing t with
  | nil => simp
  | cons seed seeds ih =>
    obtain ⟨hqueue, huncertain, hdepth⟩ := ih (enqueueSeed t seed)
    refine ⟨?_, ?_, hdepth⟩
    · rw [foldl_cons, hqueue]
      simp [enqueueSeed, seedItem]
    · rw [foldl_cons, huncertain]
      simp [enqueueSeed]

/-- Items at the last depth that lead nowhere use up the node limit and leave nothing behind. -/
theorem traverse_quiet {items rest : List QueueItem} {t : Traversal} (hqueue : t.queue = items ++ rest)
    (hquiet : ∀ item ∈ items, policy.maxDepth ≤ item.depth ∧
      expand ev item.currentNodeId = ⟨[], [], [], true⟩) :
    (traverse ev policy items.length t).depthLimitHit = t.depthLimitHit ∧
      (traverse ev policy items.length t).uncertainties = t.uncertainties := by
  induction items generalizing t with
  | nil =>
    cases rest with
    | nil =>
      rw [traverse_nil hqueue]
      exact ⟨rfl, rfl⟩
    | cons item rest =>
      rw [length_nil, traverse_zero hqueue]
      exact ⟨rfl, rfl⟩
  | cons item items ih =>
    obtain ⟨hdepth, hexpand⟩ := hquiet item mem_cons_self
    have hvisit : visit ev policy item { t with queue := items ++ rest } =
        { t with queue := items ++ rest, hasFallbackPath := true } := by
      simp [visit, hexpand, hdepth]
    rw [cons_append] at hqueue
    rw [length_cons, traverse_succ hqueue, hvisit]
    have hrest := ih (t := { t with queue := items ++ rest, hasFallbackPath := true }) rfl
      fun other hother => hquiet other (mem_cons_of_mem _ hother)
    exact hrest

def quietSeed (i : Nat) : ImpactSeed := ⟨"file:q.ts", "q.ts", "chg:" ++ toString i, .precise, none⟩

def busySeed : ImpactSeed := ⟨"file:a.ts", "a.ts", "chg:a", .precise, none⟩

def importOfA : EdgeRecord where
  fromNode := "file:b.ts"
  toNode := "file:a.ts"
  kind := "imports"
  provider := "tree-sitter"
  providerId := none
  providerFingerprint := ""
  strength := 2
  stale := false

/-- So many changes of a file that nothing depends on, then one of a file that another one imports. -/
def crowd (n : Nat) : Query where
  changeAssurance := .exact
  seeds := (range n).map quietSeed ++ [busySeed]
  uncertainties := []
  scopedBuildUncertainties := []
  evidence :=
    { db := some { nodes := Table.empty, edges := [importOfA] }
      effectiveStates := fun _ => none
      buildStates := fun _ => none
      snapshot := ⟨[], [], [], []⟩
      fallback := { current := ⟨fun _ => [], fun _ => []⟩, before := none } }
  inventory := ⟨[], [], false, []⟩
  debug := UncertaintyReason.code

theorem expand_quiet (n : Nat) : expand (crowd n).evidence "file:q.ts" = ⟨[], [], [], true⟩ := by rfl

theorem expand_busy (n : Nat) :
    toDbEdgeRow importOfA .imports ∈ (expand (crowd n).evidence "file:a.ts").outgoingEdges :=
  mem_cons_self

theorem reaches_busy (n : Nat) : Reaches (crowd n).evidence (crowd n).seeds 0 "file:a.ts" :=
  reaches_zero ⟨busySeed, mem_append_right _ mem_cons_self, rfl⟩

/-- The node limit is met before the last change is looked at. -/
theorem run_crowd {n : Nat} (hnodes : policy.maxNodes = n) (hdepth : policy.maxDepth = 0) :
    (run (crowd n) policy).depthLimitHit = false ∧ (run (crowd n) policy).uncertainties = [] := by
  subst hnodes
  obtain ⟨hqueue, huncertain, hlimit⟩ :=
    foldl_enqueueSeed (crowd policy.maxNodes).seeds (start [] [] false)
  have hstart : (start (crowd policy.maxNodes).seeds [] false).queue =
      ((range policy.maxNodes).map quietSeed).map seedItem ++ [seedItem busySeed] := by
    rw [← map_singleton, ← map_append]
    exact hqueue
  have hquiet : ∀ item ∈ ((range policy.maxNodes).map quietSeed).map seedItem,
      policy.maxDepth ≤ item.depth ∧
        expand (crowd policy.maxNodes).evidence item.currentNodeId = ⟨[], [], [], true⟩ := by
    intro item hitem
    simp only [mem_map] at hitem
    obtain ⟨_, ⟨i, _, rfl⟩, rfl⟩ := hitem
    exact ⟨hdepth.le, expand_quiet _⟩
  have hend := traverse_quiet hstart hquiet
  rw [length_map, length_map, length_range] at hend
  have hreasons : (crowd policy.maxNodes).seeds.flatMap (fun seed => seed.wideningReason.toList) = [] := by
    rw [flatMap_eq_nil_iff]
    intro seed hseed
    rcases mem_append.mp hseed with hseed | hseed
    · obtain ⟨i, _, rfl⟩ := mem_map.mp hseed
      rfl
    · obtain rfl := mem_singleton.mp hseed
      rfl
  rw [hreasons] at huncertain
  exact ⟨hend.1.trans hlimit, hend.2.trans huncertain⟩

theorem crowd_silent {n : Nat} (hnodes : policy.maxNodes = n) (hdepth : policy.maxDepth = 0) :
    .depthLimitReached policy.maxDepth ∉ (analyze (crowd n) policy).uncertainty := by
  obtain ⟨hlimit, huncertain⟩ := run_crowd hnodes hdepth
  intro hmem
  have hcollected := mem_uncertainty.mp hmem
  have hwiden : (widen (crowd n) (run (crowd n) policy)).uncertainties = [] := huncertain
  have hterminal : terminalUnverified (crowd n) (widen (crowd n) (run (crowd n) policy)) = false := rfl
  simp [collectUncertainties, hwiden, hterminal, limitReasons, hlimit, unknownKindReason] at hcollected

theorem busy_beyond_node_limit :
    (∃ edge, edge ∈ (expand (crowd 10000).evidence "file:a.ts").outgoingEdges) ∧
      IsLeast {n | Reaches (crowd 10000).evidence (crowd 10000).seeds n "file:a.ts"} 0 ∧
      .depthLimitReached 0 ∉ (analyzeImpactV2 (crowd 10000) (some 0)).uncertainty := by
  refine ⟨⟨_, expand_busy 10000⟩, ⟨reaches_busy 10000, fun _ _ => Nat.zero_le _⟩, ?_⟩
  apply crowd_silent
  · rfl
  · rfl

end ImpactReport
