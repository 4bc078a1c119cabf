import FlowDeck.Impact.ImpactTraversal
import FlowDeck.Library.Reachability

/-! What holds of the traversal whatever is in its queue. -/

namespace ImpactTraversal

open BoundedReach EvidenceModel ImpactEdges PolicyStore RunArtifact

variable {ev : Evidence} {policy : ImpactPolicy} {seeds : List ImpactSeed}

def IsSeed (seeds : List ImpactSeed) (node : String) : Prop := ∃ seed ∈ seeds, seed.seedNode = node

/-- One propagation step. -/
def Follows (ev : Evidence) (node next : String) : Prop :=
  ∃ edge ∈ (expand ev node).outgoingEdges, nextNode node edge = next

/-- A chain of so many propagation steps leads from the seeds to a node. -/
def Reaches (ev : Evidence) (seeds : List ImpactSeed) : Nat → String → Prop :=
  ReachesIn (IsSeed seeds) (Follows ev)

/-- A target is reached where its file is a seed's or the last node of a chain stands for it. -/
def ReachesTarget (ev : Evidence) (seeds : List ImpactSeed) : Nat → String → Prop
  | 0, target => ∃ seed ∈ seeds, seed.canonicalPath = target
  | n + 1, target => ∃ node, Reaches ev seeds (n + 1) node ∧ (targetOf ev node).1 = target

/-- Whatever has been reached was reached by a chain of its depth. -/
structure Sound (ev : Evidence) (seeds : List ImpactSeed) (t : Traversal) : Prop where
  queued : ∀ item ∈ t.queue, Reaches ev seeds item.depth item.currentNodeId
  visited : ∀ node d, t.visitedNodes.get? node = some d → Reaches ev seeds d node
  impacted : ∀ target x, t.impacted.get? target = some x →
    x.target = target ∧ ReachesTarget ev seeds x.depth target

/-- The seeds stand at depth 0. -/
structure Seeded (seeds : List ImpactSeed) (t : Traversal) : Prop where
  visited : ∀ seed ∈ seeds, t.visitedNodes.get? seed.seedNode = some 0
  impacted : ∀ seed ∈ seeds, ∃ x, t.impacted.get? seed.canonicalPath = some x ∧ x.depth = 0

def WithinVisited (t : Traversal) (node : String) (d : Nat) : Prop :=
  ∃ d' ≤ d, t.visitedNodes.get? node = some d'

def WithinImpacted (t : Traversal) (target : String) (d : Nat) : Prop :=
  ∃ x, t.impacted.get? target = some x ∧ x.depth ≤ d

/-- A node and its target are recorded within a depth. -/
def Covered (ev : Evidence) (t : Traversal) (node : String) (d : Nat) : Prop :=
  WithinVisited t node d ∧ WithinImpacted t (targetOf ev node).1 d

def Queued (t : Traversal) (node : String) (d : Nat) : Prop :=
  ∃ item ∈ t.queue, item.currentNodeId = node ∧ item.depth = d

/-- All that a node at a depth leads to is recorded, or the depth limit is. -/
structure Settled (ev : Evidence) (policy : ImpactPolicy) (t : Traversal) (node : String) (d : Nat) :
    Prop where
  within : d < policy.maxDepth →
    ∀ edge ∈ (expand ev node).outgoingEdges, Covered ev t (nextNode node edge) (d + 1)
  beyond : policy.maxDepth ≤ d → (expand ev node).outgoingEdges ≠ [] → t.depthLimitHit = true

/-- No node is forgotten while the edge limit holds. -/
def Pending (ev : Evidence) (policy : ImpactPolicy) (t : Traversal) : Prop :=
  t.edgeLimitHit = false →
    ∀ node d, t.visitedNodes.get? node = some d → Queued t node d ∨ Settled ev policy t node d

/-- How a traversal goes on. -/
structure Grows (t t' : Traversal) : Prop where
  visited : ∀ node d, WithinVisited t node d → WithinVisited t' node d
  impacted : ∀ target d, WithinImpacted t target d → WithinImpacted t' target d
  queued : ∀ item ∈ t.queue, item ∈ t'.queue
  fresh : ∀ node d, t'.visitedNodes.get? node = some d →
    t.visitedNodes.get? node = some d ∨ Queued t' node d
  depthLimit : t.depthLimitHit = true → t'.depthLimitHit = true
  edgeLimit : t.edgeLimitHit = true → t'.edgeLimitHit = true
  nodeLimit : t'.nodeLimitHit = t.nodeLimitHit

theorem Grows.refl (t : Traversal) : Grows t t where
  visited _ _ h := h
  impacted _ _ h := h
  queued _ h := h
  fresh _ _ h := Or.inl h
  depthLimit h := h
  edgeLimit h := h
  nodeLimit := rfl

variable {t t' : Traversal}

theorem Grows.trans {t t' t'' : Traversal} (h : Grows t t') (h' : Grows t' t'') : Grows t t'' where
  visited node d hd := h'.visited node d (h.visited node d hd)
  impacted target d hd := h'.impacted target d (h.impacted target d hd)
  queued item hitem := h'.queued item (h.queued item hitem)
  fresh := by
    intro node d hd
    rcases h'.fresh node d hd with hd | hd
    · rcases h.fresh node d hd with hd | ⟨item, hitem, hnode⟩
      · exact Or.inl hd
      · exact Or.inr ⟨item, h'.queued item hitem, hnode⟩
    · exact Or.inr hd
  depthLimit hd := h'.depthLimit (h.depthLimit hd)
  edgeLimit hd := h'.edgeLimit (h.edgeLimit hd)
  nodeLimit := h'.nodeLimit.trans h.nodeLimit

theorem Grows.covered (h : Grows t t') {node : String} {d : Nat} (hcovered : Covered ev t node d) :
    Covered ev t' node d :=
  ⟨h.visited _ _ hcovered.1, h.impacted _ _ hcovered.2⟩

theorem Grows.settled {t t' : Traversal} (h : Grows t t') {node : String} {d : Nat}
    (hsettled : Settled ev policy t node d) : Settled ev policy t' node d where
  within hd edge hedge := h.covered (hsettled.within hd edge hedge)
  beyond hd hedges := h.depthLimit (hsettled.beyond hd hedges)

/-! ### Recording an impact -/

theorem recordPath_target (policy : ImpactPolicy) (x : ImpactedTarget) (d : Nat)
    (strength : EvidenceStrength) (path : EvidencePath) :
    (recordPath policy x d strength path).target = x.target := by
  simp only [recordPath]
  split <;> rfl

theorem recordPath_depth (policy : ImpactPolicy) (x : ImpactedTarget) (d : Nat)
    (strength : EvidenceStrength) (path : EvidencePath) :
    (recordPath policy x d strength path).depth = min x.depth d := by
  simp only [recordPath]
  split
  · next h =>
    simp only [Bool.or_eq_true, Bool.and_eq_true, decide_eq_true_eq] at h
    show d = min x.depth d
    omega
  · next h =>
    simp only [Bool.or_eq_true, Bool.and_eq_true, decide_eq_true_eq] at h
    show x.depth = min x.depth d
    omega

/-- The target that is recorded is there, at the lesser depth; the others are as they were. -/
theorem get?_recordImpact (policy : ImpactPolicy) (m : InsertionMap String ImpactedTarget)
    (target : String × NodeKind) (d : Nat) (strength : EvidenceStrength) (path : EvidencePath)
    (k : String) :
    (k ≠ target.1 ∧ (recordImpact policy m target d strength path).get? k = m.get? k) ∨
    (k = target.1 ∧ m.get? k = none ∧
      ∃ x, (recordImpact policy m target d strength path).get? k = some x ∧
        x.target = k ∧ x.depth = d) ∨
    (k = target.1 ∧ ∃ y, m.get? k = some y ∧
      ∃ x, (recordImpact policy m target d strength path).get? k = some x ∧
        x.target = y.target ∧ x.depth = min y.depth d) := by
  by_cases hk : k = target.1
  · subst hk
    right
    cases hget : m.get? target.1 with
    | none =>
      left
      refine ⟨rfl, rfl, ?_⟩
      simp [recordImpact, hget]
    | some y =>
      right
      refine ⟨rfl, y, rfl, recordPath policy y d strength path, ?_, ?_, ?_⟩
      · simp [recordImpact, hget]
      · exact recordPath_target policy y d strength path
      · exact recordPath_depth policy y d strength path
  · left
    refine ⟨hk, ?_⟩
    unfold recordImpact
    split <;> rw [InsertionMap.get?_set, if_neg (Ne.symm hk)]

theorem within_recordImpact (policy : ImpactPolicy) (m : InsertionMap String ImpactedTarget)
    (target : String × NodeKind) (d : Nat) (strength : EvidenceStrength) (path : EvidencePath) :
    ∃ x, (recordImpact policy m target d strength path).get? target.1 = some x ∧ x.depth ≤ d := by
  rcases get?_recordImpact policy m target d strength path target.1 with ⟨h, _⟩ | ⟨_, _, x, hx, _, hd⟩ |
    ⟨_, _, _, x, hx, _, hd⟩
  · exact absurd rfl h
  · exact ⟨x, hx, hd.le⟩
  · exact ⟨x, hx, by omega⟩

/-! ### Following an edge -/

theorem isKnown_iff {node : String} {d : Nat} :
    isKnown t node d = true ↔ WithinVisited t node d := by
  unfold isKnown WithinVisited
  cases t.visitedNodes.get? node with
  | none => simp
  | some d' => simp

theorem followEdge_queue (ev : Evidence) (policy : ImpactPolicy) (item : QueueItem) (t : Traversal)
    (edge : DbEdgeRow) :
    ((followEdge ev policy item t edge).queue = t.queue ∧
      (followEdge ev policy item t edge).visitedNodes = t.visitedNodes ∧
      WithinVisited t (nextNode item.currentNodeId edge) (item.depth + 1)) ∨
    (¬ WithinVisited t (nextNode item.currentNodeId edge) (item.depth + 1) ∧
      (followEdge ev policy item t edge).visitedNodes =
        t.visitedNodes.set (nextNode item.currentNodeId edge) (item.depth + 1) ∧
      ∃ next, (followEdge ev policy item t edge).queue = t.queue ++ [next] ∧
        next.currentNodeId = nextNode item.currentNodeId edge ∧ next.depth = item.depth + 1) := by
  by_cases hknown : isKnown t (nextNode item.currentNodeId edge) (item.depth + 1) = true
  · left
    refine ⟨?_, ?_, isKnown_iff.mp hknown⟩ <;> simp [followEdge, hknown]
  · right
    refine ⟨fun h => hknown (isKnown_iff.mpr h), ?_, ?_⟩
    · simp [followEdge, hknown]
    · simp [followEdge, hknown]

theorem followEdge_grows (ev : Evidence) (policy : ImpactPolicy) (item : QueueItem) (t : Traversal)
    (edge : DbEdgeRow) : Grows t (followEdge ev policy item t edge) := by
  have hqueue := followEdge_queue ev policy item t edge
  constructor
  case visited =>
    rintro node d ⟨d', hd', hnode⟩
    rcases hqueue with ⟨_, hsame, _⟩ | ⟨hnot, hset, _⟩
    · exact ⟨d', hd', by rw [hsame, hnode]⟩
    · by_cases hk : nextNode item.currentNodeId edge = node
      · subst hk
        have hlt : item.depth + 1 < d' := by
          by_contra hle
          exact hnot ⟨d', by omega, hnode⟩
        exact ⟨item.depth + 1, by omega, by rw [hset, InsertionMap.get?_set_self]⟩
      · exact ⟨d', hd', by rw [hset, InsertionMap.get?_set, if_neg hk, hnode]⟩
  case impacted =>
    rintro target d ⟨y, hy, hd⟩
    rcases get?_recordImpact policy t.impacted (targetOf ev (nextNode item.currentNodeId edge))
        (item.depth + 1) _ _ target with ⟨_, hsame⟩ | ⟨_, hnone, _⟩ | ⟨_, y', hy', x, hx, _, hdepth⟩
    · exact ⟨y, hsame.trans hy, hd⟩
    · rw [hnone] at hy
      simp at hy
    · obtain rfl : y' = y := Option.some.inj (hy'.symm.trans hy)
      exact ⟨x, hx, by omega⟩
  case queued =>
    intro other hother
    rcases hqueue with ⟨hsame, _⟩ | ⟨_, _, next, happend, _⟩
    · rw [hsame]
      exact hother
    · rw [happend]
      exact List.mem_append_left _ hother
  case fresh =>
    intro node d hnode
    rcases hqueue with ⟨_, hsame, _⟩ | ⟨_, hset, next, happend, hnext, hdepth⟩
    · rw [hsame] at hnode
      exact Or.inl hnode
    · rw [hset, InsertionMap.get?_set] at hnode
      split at hnode
      · next hk =>
        refine Or.inr ⟨next, ?_, hnext.trans hk, hdepth.trans (Option.some.inj hnode)⟩
        simp [happend]
      · exact Or.inl hnode
  case depthLimit => exact id
  case edgeLimit => exact id
  case nodeLimit => rfl

theorem followEdge_covered (ev : Evidence) (policy : ImpactPolicy) (item : QueueItem) (t : Traversal)
    (edge : DbEdgeRow) :
    Covered ev (followEdge ev policy item t edge) (nextNode item.currentNodeId edge)
      (item.depth + 1) := by
  constructor
  · rcases followEdge_queue ev policy item t edge with ⟨_, hsame, d, hd, hnode⟩ | ⟨_, hset, _⟩
    · exact ⟨d, hd, by rw [hsame, hnode]⟩
    · exact ⟨item.depth + 1, le_refl _, by rw [hset, InsertionMap.get?_set_self]⟩
  · exact within_recordImpact policy t.impacted _ _ _ _

theorem followEdge_sound {item : QueueItem} {edge : DbEdgeRow} (h : Sound ev seeds t)
    (hitem : Reaches ev seeds item.depth item.currentNodeId)
    (hedge : edge ∈ (expand ev item.currentNodeId).outgoingEdges) :
    Sound ev seeds (followEdge ev policy item t edge) := by
  have hnext : Reaches ev seeds (item.depth + 1) (nextNode item.currentNodeId edge) :=
    .step hitem ⟨edge, hedge, rfl⟩
  have hqueue := followEdge_queue ev policy item t edge
  constructor
  case queued =>
    intro other hother
    rcases hqueue with ⟨hsame, _⟩ | ⟨_, _, next, happend, hnode, hdepth⟩
    · rw [hsame] at hother
      exact h.queued other hother
    · rw [happend, List.mem_append, List.mem_singleton] at hother
      rcases hother with hother | rfl
      · exact h.queued other hother
      · rw [hnode, hdepth]
        exact hnext
  case visited =>
    intro node d hnode
    rcases hqueue with ⟨_, hsame, _⟩ | ⟨_, hset, _⟩
    · rw [hsame] at hnode
      exact h.visited node d hnode
    · rw [hset, InsertionMap.get?_set] at hnode
      split at hnode
      · next hk =>
        rw [← hk, ← Option.some.inj hnode]
        exact hnext
      · exact h.visited node d hnode
  case impacted =>
    intro target x hx
    have hreach : ReachesTarget ev seeds (item.depth + 1)
        (targetOf ev (nextNode item.currentNodeId edge)).1 := ⟨_, hnext, rfl⟩
    rcases get?_recordImpact policy t.impacted (targetOf ev (nextNode item.currentNodeId edge))
        (item.depth + 1) _ _ target with ⟨_, hsame⟩ | ⟨hk, _, x', hx', htarget, hdepth⟩ |
        ⟨hk, y, hy, x', hx', htarget, hdepth⟩
    · exact h.impacted target x (hsame.symm.trans hx)
    · obtain rfl : x' = x := Option.some.inj (hx'.symm.trans hx)
      rw [hdepth, hk]
      exact ⟨htarget.trans hk, hreach⟩
    · obtain rfl : x' = x := Option.some.inj (hx'.symm.trans hx)
      obtain ⟨hsame, hold⟩ := h.impacted target y hy
      refine ⟨htarget.trans hsame, ?_⟩
      rcases Nat.le_total y.depth (item.depth + 1) with hle | hle
      · rw [hdepth, Nat.min_eq_left hle]
        exact hold
      · rw [hdepth, Nat.min_eq_right hle, hk]
        exact hreach

end ImpactTraversal

/-! The traversal's loop, from its seeds to its end. -/

namespace ImpactTraversal

open BoundedReach EvidenceModel ImpactEdges PolicyStore RunArtifact

variable {ev : Evidence} {policy : ImpactPolicy} {seeds : List ImpactSeed}

variable {t t' : Traversal} {item : QueueItem} {queue : List QueueItem}

/-- A step that neither queues nor records anything. -/
theorem Grows.of_same {t t' : Traversal} (hqueue : t'.queue = t.queue)
    (hvisited : t'.visitedNodes = t.visitedNodes) (himpacted : t'.impacted = t.impacted)
    (hdepth : t.depthLimitHit = true → t'.depthLimitHit = true)
    (hedge : t.edgeLimitHit = true → t'.edgeLimitHit = true)
    (hnode : t'.nodeLimitHit = t.nodeLimitHit) : Grows t t' where
  visited node d h := by
    unfold WithinVisited
    rw [hvisited]
    exact h
  impacted target d h := by
    unfold WithinImpacted
    rw [himpacted]
    exact h
  queued item h := by
    rw [hqueue]
    exact h
  fresh node d h := by
    rw [hvisited] at h
    exact Or.inl h
  depthLimit := hdepth
  edgeLimit := hedge
  nodeLimit := hnode

theorem Sound.of_same (h : Sound ev seeds t) (hqueue : t'.queue = t.queue)
    (hvisited : t'.visitedNodes = t.visitedNodes) (himpacted : t'.impacted = t.impacted) :
    Sound ev seeds t' := by
  constructor
  · rw [hqueue]
    exact h.queued
  · rw [hvisited]
    exact h.visited
  · rw [himpacted]
    exact h.impacted

/-! ### The edges of an item -/

theorem followEdges_grows (ev : Evidence) (policy : ImpactPolicy) (item : QueueItem)
    (edges : List DbEdgeRow) (t : Traversal) : Grows t (followEdges ev policy item edges t) := by
  induction edges generalizing t with
  | nil => exact Grows.refl t
  | cons edge edges ih =>
    have hcount : Grows t { t with totalEdgesVisited := t.totalEdgesVisited + 1 } :=
      Grows.of_same rfl rfl rfl id id rfl
    simp only [followEdges]
    split
    · exact Grows.of_same rfl rfl rfl id (fun _ => rfl) rfl
    · exact hcount.trans ((followEdge_grows ev policy item _ edge).trans (ih _))

theorem followEdges_covered {edges : List DbEdgeRow}
    (h : (followEdges ev policy item edges t).edgeLimitHit = false) :
    ∀ edge ∈ edges, Covered ev (followEdges ev policy item edges t)
      (nextNode item.currentNodeId edge) (item.depth + 1) := by
  induction edges generalizing t with
  | nil =>
    intro edge hedge
    exact absurd hedge List.not_mem_nil
  | cons first edges ih =>
    simp only [followEdges] at h ⊢
    split at h
    · simp at h
    · next hlimit =>
      rw [if_neg hlimit]
      intro edge hedge
      rcases List.mem_cons.mp hedge with rfl | hedge
      · exact (followEdges_grows ev policy item edges _).covered
          (followEdge_covered ev policy item _ edge)
      · exact ih h edge hedge

theorem followEdges_sound {edges : List DbEdgeRow} (h : Sound ev seeds t)
    (hitem : Reaches ev seeds item.depth item.currentNodeId)
    (hedges : ∀ edge ∈ edges, edge ∈ (expand ev item.currentNodeId).outgoingEdges) :
    Sound ev seeds (followEdges ev policy item edges t) := by
  induction edges generalizing t with
  | nil => exact h
  | cons edge edges ih =>
    simp only [followEdges]
    split
    · exact h.of_same rfl rfl rfl
    · apply ih
      · apply followEdge_sound _ hitem (hedges edge List.mem_cons_self)
        exact h.of_same rfl rfl rfl
      · intro other hother
        exact hedges other (List.mem_cons_of_mem _ hother)

/-! ### An item -/

theorem visit_grows (ev : Evidence) (policy : ImpactPolicy) (item : QueueItem) (t : Traversal) :
    Grows t (visit ev policy item t) := by
  simp only [visit]
  split
  · exact Grows.of_same rfl rfl rfl (fun h => by simp [h]) id rfl
  · apply Grows.trans _ (followEdges_grows ev policy item _ _)
    exact Grows.of_same rfl rfl rfl id id rfl

theorem visit_sound (h : Sound ev seeds t) (hitem : Reaches ev seeds item.depth item.currentNodeId) :
    Sound ev seeds (visit ev policy item t) := by
  simp only [visit]
  split
  · exact h.of_same rfl rfl rfl
  · apply followEdges_sound _ hitem
    · intro edge hedge
      exact hedge
    · exact h.of_same rfl rfl rfl

theorem visit_settled (h : (visit ev policy item t).edgeLimitHit = false) :
    Settled ev policy (visit ev policy item t) item.currentNodeId item.depth := by
  simp only [visit] at h ⊢
  split at h
  · next hdepth =>
    rw [if_pos hdepth]
    constructor
    · intro hlt
      omega
    · intro _ hedges
      have hsome : (expand ev item.currentNodeId).outgoingEdges.isEmpty = false := by
        simpa using hedges
      simp [hsome]
  · next hdepth =>
    rw [if_neg hdepth]
    constructor
    · intro _
      exact followEdges_covered h
    · intro hle
      exact absurd hle hdepth

/-- The item that is taken is settled; what was pending without it is queued still, or settled. -/
theorem visit_pending (h : Pending ev policy t) (hqueue : t.queue = item :: queue) :
    Pending ev policy (visit ev policy item { t with queue := queue }) := by
  intro hlimit node d hnode
  have hgrows := visit_grows ev policy item { t with queue := queue }
  have hbefore : t.edgeLimitHit = false := by
    by_contra hhit
    have hafter := hgrows.edgeLimit (by simpa using hhit)
    rw [hlimit] at hafter
    exact absurd hafter (by decide)
  rcases hgrows.fresh node d hnode with hold | hnew
  · rcases h hbefore node d hold with ⟨other, hother, hid, hdepth⟩ | hsettled
    · rw [hqueue] at hother
      rcases List.mem_cons.mp hother with rfl | hother
      · right
        rw [← hid, ← hdepth]
        exact visit_settled hlimit
      · exact Or.inl ⟨other, hgrows.queued other hother, hid, hdepth⟩
    · right
      apply hgrows.settled
      exact ⟨hsettled.within, hsettled.beyond⟩
  · exact Or.inl hnew

/-! ### The loop -/

/-- What the loop keeps. -/
structure Invariant (ev : Evidence) (policy : ImpactPolicy) (seeds : List ImpactSeed) (t : Traversal) :
    Prop where
  sound : Sound ev seeds t
  seeded : Seeded seeds t
  pending : Pending ev policy t

theorem Seeded.grows (h : Seeded seeds t) (hgrows : Grows t t') : Seeded seeds t' := by
  constructor
  · intro seed hseed
    obtain ⟨d, hd, hnode⟩ := hgrows.visited seed.seedNode 0 ⟨0, le_refl 0, h.visited seed hseed⟩
    obtain rfl : d = 0 := by omega
    exact hnode
  · intro seed hseed
    obtain ⟨x, hx, hdepth⟩ := h.impacted seed hseed
    obtain ⟨x', hx', hle⟩ := hgrows.impacted seed.canonicalPath 0 ⟨x, hx, hdepth.le⟩
    exact ⟨x', hx', by omega⟩

theorem Invariant.visit (h : Invariant ev policy seeds t) (hqueue : t.queue = item :: queue) :
    Invariant ev policy seeds (visit ev policy item { t with queue := queue }) := by
  have hitem : Reaches ev seeds item.depth item.currentNodeId := by
    apply h.sound.queued item
    rw [hqueue]
    exact List.mem_cons_self
  have hpopped : Sound ev seeds { t with queue := queue } := by
    refine ⟨?_, h.sound.visited, h.sound.impacted⟩
    intro other hother
    apply h.sound.queued other
    rw [hqueue]
    exact List.mem_cons_of_mem _ hother
  have hseeded : Seeded seeds { t with queue := queue } := ⟨h.seeded.visited, h.seeded.impacted⟩
  constructor
  · exact visit_sound hpopped hitem
  · exact hseeded.grows (visit_grows ev policy item _)
  · exact visit_pending h.pending hqueue

theorem traverse_nil {remaining : Nat} (h : t.queue = []) : traverse ev policy remaining t = t := by
  rw [traverse, h]

theorem traverse_zero (h : t.queue = item :: queue) :
    traverse ev policy 0 t = { t with nodeLimitHit := true } := by
  rw [traverse, h]

theorem traverse_succ (h : t.queue = item :: queue) (remaining : Nat) :
    traverse ev policy (remaining + 1) t =
      traverse ev policy remaining (visit ev policy item { t with queue := queue }) := by
  rw [traverse, h]

theorem Invariant.limited (h : Invariant ev policy seeds t) :
    Invariant ev policy seeds { t with nodeLimitHit := true } := by
  refine ⟨h.sound.of_same rfl rfl rfl, ⟨h.seeded.visited, h.seeded.impacted⟩, ?_⟩
  intro hlimit node d hnode
  rcases h.pending hlimit node d hnode with hqueued | hsettled
  · exact Or.inl hqueued
  · exact Or.inr ⟨hsettled.within, hsettled.beyond⟩

theorem Invariant.traverse {remaining : Nat} (h : Invariant ev policy seeds t) :
    Invariant ev policy seeds (traverse ev policy remaining t) := by
  induction remaining generalizing t with
  | zero =>
    cases hqueue : t.queue with
    | nil =>
      rw [traverse_nil hqueue]
      exact h
    | cons item queue =>
      rw [traverse_zero hqueue]
      exact h.limited
  | succ remaining ih =>
    cases hqueue : t.queue with
    | nil =>
      rw [traverse_nil hqueue]
      exact h
    | cons item queue =>
      rw [traverse_succ hqueue]
      exact ih (h.visit hqueue)

theorem queue_traverse (ev : Evidence) (policy : ImpactPolicy) (remaining : Nat) (t : Traversal) :
    (traverse ev policy remaining t).queue = [] ∨
      (traverse ev policy remaining t).nodeLimitHit = true := by
  induction remaining generalizing t with
  | zero =>
    cases hqueue : t.queue with
    | nil =>
      rw [traverse_nil hqueue]
      exact Or.inl hqueue
    | cons item queue =>
      rw [traverse_zero hqueue]
      exact Or.inr rfl
  | succ remaining ih =>
    cases hqueue : t.queue with
    | nil =>
      rw [traverse_nil hqueue]
      exact Or.inl hqueue
    | cons item queue =>
      rw [traverse_succ hqueue]
      exact ih _

/-! ### The seeds -/

theorem get?_insertAbsent (m : InsertionMap String ImpactedTarget) (x : ImpactedTarget) (k : String) :
    (insertAbsent m x).get? k = (m.get? k).or (if x.target = k then some x else none) := by
  unfold insertAbsent
  split
  · next h =>
    by_cases hk : x.target = k
    · subst hk
      obtain ⟨y, hy⟩ := Option.isSome_iff_exists.mp h
      simp [hy]
    · simp [hk]
  · next h =>
    rw [InsertionMap.get?_set]
    by_cases hk : x.target = k
    · subst hk
      have hnone : m.get? x.target = none := by simpa using h
      simp [hnone]
    · simp [hk]

theorem reaches_zero {node : String} (h : IsSeed seeds node) : Reaches ev seeds 0 node := .start h

/-- While the seeds are taken up, everything stands at depth 0 and is queued. -/
structure Starting (seeds before : List ImpactSeed) (t : Traversal) : Prop where
  queued : ∀ item ∈ t.queue, item.depth = 0 ∧ IsSeed seeds item.currentNodeId
  visited : ∀ node d, t.visitedNodes.get? node = some d → d = 0 ∧ Queued t node 0
  impacted : ∀ target x, t.impacted.get? target = some x →
    x.target = target ∧ x.depth = 0 ∧ ∃ seed ∈ seeds, seed.canonicalPath = target
  taken : Seeded before t

theorem Starting.enqueueSeed {before : List ImpactSeed} {seed : ImpactSeed}
    (h : Starting seeds before t) (hseed : seed ∈ seeds) :
    Starting seeds (before ++ [seed]) (enqueueSeed t seed) := by
  have hlast : Queued (ImpactTraversal.enqueueSeed t seed) seed.seedNode 0 :=
    ⟨_, List.mem_append_right _ List.mem_cons_self, rfl, rfl⟩
  constructor
  case queued =>
    intro item hitem
    rcases List.mem_append.mp hitem with hitem | hitem
    · exact h.queued item hitem
    · obtain rfl := List.mem_singleton.mp hitem
      exact ⟨rfl, seed, hseed, rfl⟩
  case visited =>
    intro node d hnode
    simp only [ImpactTraversal.enqueueSeed, InsertionMap.get?_set] at hnode
    split at hnode
    · next hk =>
      rw [← hk]
      exact ⟨(Option.some.inj hnode).symm, hlast⟩
    · obtain ⟨hd, item, hitem, hid⟩ := h.visited node d hnode
      exact ⟨hd, item, List.mem_append_left _ hitem, hid⟩
  case impacted =>
    intro target x hx
    simp only [ImpactTraversal.enqueueSeed, get?_insertAbsent, Option.or_eq_some_iff] at hx
    rcases hx with hx | ⟨_, hx⟩
    · exact h.impacted target x hx
    · split at hx
      · next hk =>
        obtain rfl := Option.some.inj hx
        exact ⟨hk, rfl, seed, hseed, hk⟩
      · simp at hx
  case taken =>
    constructor
    · intro other hother
      simp only [ImpactTraversal.enqueueSeed, InsertionMap.get?_set]
      split
      · rfl
      · next hk =>
        rcases List.mem_append.mp hother with hother | hother
        · exact h.taken.visited other hother
        · obtain rfl := List.mem_singleton.mp hother
          exact absurd rfl hk
    · intro other hother
      simp only [ImpactTraversal.enqueueSeed, get?_insertAbsent]
      rcases List.mem_append.mp hother with hother | hother
      · obtain ⟨x, hx, hdepth⟩ := h.taken.impacted other hother
        exact ⟨x, by simp [hx], hdepth⟩
      · obtain rfl := List.mem_singleton.mp hother
        cases hold : t.impacted.get? other.canonicalPath with
        | some x => exact ⟨x, by simp, (h.impacted _ x hold).2.1⟩
        | none => exact ⟨seedTarget other, by simp [seedTarget], rfl⟩

theorem Starting.foldl {before rest : List ImpactSeed} (h : Starting seeds before t)
    (hrest : ∀ seed ∈ rest, seed ∈ seeds) :
    Starting seeds (before ++ rest) (rest.foldl ImpactTraversal.enqueueSeed t) := by
  induction rest generalizing before t with
  | nil =>
    rw [List.append_nil]
    exact h
  | cons seed rest ih =>
    have hnext := h.enqueueSeed (hrest seed List.mem_cons_self)
    have hall := ih hnext fun other hother => hrest other (List.mem_cons_of_mem _ hother)
    rw [List.append_assoc, List.singleton_append] at hall
    exact hall

theorem starting_start (seeds : List ImpactSeed) (uncertainties : List UncertaintyReason)
    (fallback : Bool) : Starting seeds seeds (start seeds uncertainties fallback) := by
  have hempty : Starting seeds []
      { queue := []
        visitedNodes := InsertionMap.empty
        impacted := InsertionMap.empty
        affectedIdentities := []
        uncertainties := uncertainties
        unknownKinds := []
        hasFallbackPath := fallback
        totalEdgesVisited := 0
        depthLimitHit := false
        nodeLimitHit := false
        edgeLimitHit := false } := by
    constructor
    · simp
    · simp
    · simp
    · constructor <;> simp
  exact hempty.foldl fun _ h => h

theorem invariant_start (ev : Evidence) (policy : ImpactPolicy) (seeds : List ImpactSeed)
    (uncertainties : List UncertaintyReason) (fallback : Bool) :
    Invariant ev policy seeds (start seeds uncertainties fallback) := by
  have h := starting_start seeds uncertainties fallback
  constructor
  · constructor
    · intro item hitem
      obtain ⟨hdepth, hseed⟩ := h.queued item hitem
      rw [hdepth]
      exact reaches_zero hseed
    · intro node d hnode
      obtain ⟨rfl, item, hitem, rfl, _⟩ := h.visited node d hnode
      exact reaches_zero (h.queued item hitem).2
    · intro target x hx
      obtain ⟨htarget, hdepth, hseed⟩ := h.impacted target x hx
      rw [hdepth]
      exact ⟨htarget, hseed⟩
  · exact h.taken
  · intro _ node d hnode
    obtain ⟨rfl, hqueued⟩ := h.visited node d hnode
    exact Or.inl hqueued

end ImpactTraversal
