import FlowDeck.Library.DependencyGraph
import FlowDeck.Orchestration.ParallelEngine

namespace ParallelEngine

open Relation Halting Table

/-- Node `a` of the run names `b` as a dependency. -/
def needs (nodes : List NodeRow) (a b : String) : Prop :=
  ∃ node ∈ nodes, node.id = a ∧ b ∈ node.dependencies

/-- The dependencies of a run name its own nodes, and none leads back to its start. -/
structure WellFormed (nodes : List NodeRow) : Prop where
  closed : ∀ node ∈ nodes, ∀ dep ∈ node.dependencies, ∃ other ∈ nodes, other.id = dep
  acyclic : ∀ id, ¬TransGen (needs nodes) id id

/-- Queued nodes wait; failed, cancelled and blocked ones have halted. -/
def marks (nodes : List NodeRow) : Marks String where
  waiting := {id | ∃ node ∈ nodes, node.id = id ∧ node.status = .queued}
  halted := {id | ∃ node ∈ nodes, node.id = id ∧ node.status.isHalted = true}

theorem DelegationNodeStatus.isHalted_iff {s : DelegationNodeStatus} :
    s.isHalted = true ↔ s.isTerminal = true ∧ s ≠ .completed := by
  cases s <;> decide

/-- Neither queued nor at an end. -/
def DelegationNodeStatus.isActive (s : DelegationNodeStatus) : Bool :=
  !s.isTerminal && s != .queued

theorem DelegationNodeStatus.isActive_of_isRunning {s : DelegationNodeStatus}
    (h : s.isRunning = true) : s.isActive = true := by
  cases s <;> simp_all [isRunning, isActive, isTerminal]

/-! ### What a transition does to the nodes of its run -/

def writtenNodes (nodes : List NodeRow) (c : Transition) : List NodeRow :=
  nodes.map (setWhere (fun node => node.id = c.nodeId) (·.withStatus c))

def NodeRow.block (node : NodeRow) : NodeRow := { node with status := .blocked }

def blockedNodes (nodes : List NodeRow) : List NodeRow :=
  nodes.map (setWhere (fun node => node.status = .queued && hasHaltedDep nodes node)
    NodeRow.block)

variable {db : Database} {runId : String} {nodes : List NodeRow}

theorem mem_nodesOf {node : NodeRow} :
    node ∈ nodesOf db runId ↔ node ∈ db.nodes.rows ∧ node.runId = runId := by
  simp [nodesOf]

theorem eq_of_mem_nodesOf {a b : NodeRow} (ha : a ∈ nodesOf db runId) (hb : b ∈ nodesOf db runId)
    (h : a.id = b.id) : a = b := by
  have hrow : db.nodes.get? a.id = some a := get?_of_mem (mem_nodesOf.mp ha).1
  rw [h, get?_of_mem (mem_nodesOf.mp hb).1] at hrow
  exact (Option.some.inj hrow).symm

theorem nodesOf_update (db : Database) (p : NodeRow → Bool) (f : NodeRow → NodeRow)
    (hf : ∀ node, (f node).id = node.id) (hrun : ∀ node, (f node).runId = node.runId)
    (runId : String) :
    nodesOf { db with nodes := db.nodes.update p f hf } runId =
      (nodesOf db runId).map (setWhere p f) := by
  simp only [nodesOf, update, List.filter_map]
  congr 1
  apply List.filter_congr
  intro node _
  have hkey : (setWhere p f node).runId = node.runId := key_setWhere hrun node
  simp [hkey]

theorem nodesOf_writeStatus (db : Database) (c : Transition) (runId : String) :
    nodesOf (writeStatus db c) runId = writtenNodes (nodesOf db runId) c :=
  nodesOf_update db (fun node => node.id = c.nodeId) (·.withStatus c) (fun _ => rfl)
    (fun _ => rfl) runId

theorem nodesOf_blockDependents (db : Database) (runId : String) :
    nodesOf (blockDependents db runId) runId = blockedNodes (nodesOf db runId) := by
  have hmap := nodesOf_update db
    (fun node => node.runId = runId && node.status = .queued &&
      hasHaltedDep (nodesOf db runId) node)
    NodeRow.block (fun _ => rfl) (fun _ => rfl) runId
  refine hmap.trans (List.map_congr_left fun node hnode => ?_)
  have hrun : node.runId = runId := (mem_nodesOf.mp hnode).2
  simp [setWhere, hrun]

theorem nodesOf_blockDependents_of_ne (db : Database) {runId other : String} (h : other ≠ runId) :
    nodesOf (blockDependents db runId) other = nodesOf db other := by
  have hmap := nodesOf_update db
    (fun node => node.runId = runId && node.status = .queued &&
      hasHaltedDep (nodesOf db runId) node)
    NodeRow.block (fun _ => rfl) (fun _ => rfl) other
  refine hmap.trans ?_
  rw [List.map_congr_left (g := id), List.map_id]
  intro node hnode
  have hrun : node.runId = other := (mem_nodesOf.mp hnode).2
  have hne : node.runId ≠ runId := hrun ▸ h
  simp [setWhere, hne]

/-- An update that leaves ids and dependencies alone leaves the graph as it is. -/
theorem needs_map_setWhere {p : NodeRow → Bool} {f : NodeRow → NodeRow}
    (hid : ∀ node, (f node).id = node.id)
    (hdeps : ∀ node, (f node).dependencies = node.dependencies) :
    needs (nodes.map (setWhere p f)) = needs nodes := by
  have hkey (node : NodeRow) : (setWhere p f node).id = node.id :=
    key_setWhere hid node
  have hdep (node : NodeRow) : (setWhere p f node).dependencies = node.dependencies :=
    key_setWhere hdeps node
  funext a b
  simp [needs, hkey, hdep]

theorem ids_map_setWhere {p : NodeRow → Bool} {f : NodeRow → NodeRow}
    (hid : ∀ node, (f node).id = node.id) :
    (nodes.map (setWhere p f)).map (·.id) = nodes.map (·.id) := by
  rw [List.map_map]
  exact List.map_congr_left fun node _ => key_setWhere hid node

theorem needs_writtenNodes (nodes : List NodeRow) (c : Transition) :
    needs (writtenNodes nodes c) = needs nodes :=
  needs_map_setWhere (fun _ => rfl) fun _ => rfl

theorem needs_blockedNodes (nodes : List NodeRow) : needs (blockedNodes nodes) = needs nodes :=
  needs_map_setWhere (fun _ => rfl) fun _ => rfl

def Transition.statusOf (c : Transition) (node : NodeRow) : DelegationNodeStatus :=
  if node.id = c.nodeId then c.status else node.status

def blockedStatus (nodes : List NodeRow) (node : NodeRow) : DelegationNodeStatus :=
  if node.status = .queued ∧ hasHaltedDep nodes node = true then .blocked else node.status

theorem status_setWhere_withStatus (c : Transition) (node : NodeRow) :
    (setWhere (fun node => node.id = c.nodeId) (·.withStatus c) node).status =
      c.statusOf node := by
  by_cases hid : node.id = c.nodeId
  · simp [setWhere, Transition.statusOf, NodeRow.withStatus, hid]
  · simp [setWhere, Transition.statusOf, hid]

theorem status_setWhere_block (nodes : List NodeRow) (node : NodeRow) :
    (setWhere (fun node => node.status = .queued && hasHaltedDep nodes node) NodeRow.block
      node).status = blockedStatus nodes node := by
  by_cases hblock : node.status = .queued ∧ hasHaltedDep nodes node = true
  · simp [setWhere, blockedStatus, NodeRow.block, hblock]
  · simp [setWhere, blockedStatus, hblock]

variable {c : Transition}

theorem exists_writtenNodes_iff {id : String} {P : DelegationNodeStatus → Prop} :
    (∃ node ∈ writtenNodes nodes c, node.id = id ∧ P node.status) ↔
      ∃ node ∈ nodes, node.id = id ∧ P (c.statusOf node) := by
  have hwrite (node : NodeRow) : (node.withStatus c).id = node.id := rfl
  have hid := key_setWhere (p := fun node => node.id = c.nodeId) hwrite
  simp [writtenNodes, hid, status_setWhere_withStatus]

theorem exists_blockedNodes_iff {id : String} {P : DelegationNodeStatus → Prop} :
    (∃ node ∈ blockedNodes nodes, node.id = id ∧ P node.status) ↔
      ∃ node ∈ nodes, node.id = id ∧ P (blockedStatus nodes node) := by
  have hblock (node : NodeRow) : node.block.id = node.id := rfl
  have hid := key_setWhere
    (p := fun node => node.status = .queued && hasHaltedDep nodes node) hblock
  simp [blockedNodes, hid, status_setWhere_block]

theorem marks_writtenNodes (htarget : ∃ node ∈ nodes, node.id = c.nodeId) :
    marks (writtenNodes nodes c) =
      (marks nodes).assign c.nodeId (c.status = .queued) (c.status.isHalted = true) := by
  have key (P : DelegationNodeStatus → Prop) (id : String) :
      (∃ node ∈ writtenNodes nodes c, node.id = id ∧ P node.status) ↔
        id ≠ c.nodeId ∧ (∃ node ∈ nodes, node.id = id ∧ P node.status) ∨
          id = c.nodeId ∧ P c.status := by
    rw [exists_writtenNodes_iff]
    by_cases hid : id = c.nodeId
    · subst hid
      obtain ⟨target, htarget, heq⟩ := htarget
      constructor
      · intro ⟨node, _, hnode, hP⟩
        rw [Transition.statusOf, if_pos hnode] at hP
        exact .inr ⟨rfl, hP⟩
      · intro h
        refine ⟨target, htarget, heq, ?_⟩
        simpa [Transition.statusOf, heq] using h
    · simp only [hid, ne_eq, not_false_eq_true, true_and, false_and, or_false]
      refine exists_congr fun node => and_congr_right fun _ => and_congr_right fun hnode => ?_
      rw [Transition.statusOf, if_neg (hnode ▸ hid)]
  apply Marks.ext
  · ext id
    exact key (· = .queued) id
  · ext id
    exact key (·.isHalted = true) id

theorem hasHaltedDep_iff {node : NodeRow} :
    hasHaltedDep nodes node = true ↔ ∃ dep ∈ (marks nodes).halted, dep ∈ node.dependencies := by
  simp only [hasHaltedDep, List.any_eq_true, Bool.and_eq_true, List.contains_iff_mem, marks,
    Set.mem_ofPred_eq]
  constructor
  · intro ⟨other, hother, hdep, hhalted⟩
    exact ⟨other.id, ⟨other, hother, rfl, hhalted⟩, hdep⟩
  · intro ⟨dep, ⟨other, hother, hid, hhalted⟩, hdep⟩
    exact ⟨other, hother, hid ▸ hdep, hhalted⟩

theorem marks_blockedNodes (hinj : ∀ a ∈ nodes, ∀ b ∈ nodes, a.id = b.id → a = b) :
    marks (blockedNodes nodes) = (marks nodes).propagate (needs nodes) := by
  have hneed (node : NodeRow) (hnode : node ∈ nodes) :
      hasHaltedDep nodes node = true ↔
        ∃ dep ∈ (marks nodes).halted, needs nodes node.id dep := by
    rw [hasHaltedDep_iff]
    refine exists_congr fun dep => and_congr_right fun _ => ?_
    constructor
    · intro hdep
      exact ⟨node, hnode, rfl, hdep⟩
    · intro ⟨other, hother, hid, hdep⟩
      exact hinj other hother node hnode hid ▸ hdep
  apply Marks.ext
  · ext id
    refine (exists_blockedNodes_iff (P := (· = .queued))).trans ?_
    constructor
    · intro ⟨node, hnode, hid, hstatus⟩
      by_cases hblock : node.status = .queued ∧ hasHaltedDep nodes node = true
      · simp [blockedStatus, hblock] at hstatus
      · rw [blockedStatus, if_neg hblock] at hstatus
        subst hid
        exact ⟨⟨node, hnode, rfl, hstatus⟩, fun h => hblock ⟨hstatus, (hneed node hnode).mpr h⟩⟩
    · intro ⟨⟨node, hnode, hid, hstatus⟩, hnone⟩
      subst hid
      have hblock : ¬(node.status = .queued ∧ hasHaltedDep nodes node = true) :=
        fun h => hnone ((hneed node hnode).mp h.2)
      exact ⟨node, hnode, rfl, by rw [blockedStatus, if_neg hblock, hstatus]⟩
  · ext id
    refine (exists_blockedNodes_iff (P := (·.isHalted = true))).trans ?_
    constructor
    · intro ⟨node, hnode, hid, hstatus⟩
      subst hid
      by_cases hblock : node.status = .queued ∧ hasHaltedDep nodes node = true
      · exact .inr ⟨⟨node, hnode, rfl, hblock.1⟩, (hneed node hnode).mp hblock.2⟩
      · rw [blockedStatus, if_neg hblock] at hstatus
        exact .inl ⟨node, hnode, rfl, hstatus⟩
    · intro h
      rcases h with ⟨node, hnode, hid, hhalted⟩ | ⟨⟨node, hnode, hid, hqueued⟩, hdep⟩
      · have hblock : ¬(node.status = .queued ∧ hasHaltedDep nodes node = true) := by
          intro h
          simp [h.1, DelegationNodeStatus.isHalted] at hhalted
        exact ⟨node, hnode, hid, by rw [blockedStatus, if_neg hblock, hhalted]⟩
      · subst hid
        have hblock : node.status = .queued ∧ hasHaltedDep nodes node = true :=
          ⟨hqueued, (hneed node hnode).mpr hdep⟩
        exact ⟨node, hnode, rfl, by rw [blockedStatus, if_pos hblock]; rfl⟩

/-! ### A call on a run and a call elsewhere -/

/-- The call is about a node of the run. -/
def Hits (db : Database) (runId : String) (c : Transition) : Prop :=
  ∃ node ∈ nodesOf db runId, node.id = c.nodeId

/-- The tables after a call; one that throws has left them alone. -/
def after (db : Database) (c : Transition) : Database :=
  match transitionNode db c with
  | .ok db' => db'
  | .error _ => db

theorem after_of_hits (h : Hits db runId c) :
    after db c = settleRun (blockDependents (writeStatus db c) runId) runId c.now := by
  obtain ⟨node, hnode, hid⟩ := h
  obtain ⟨hrow, hrun⟩ := mem_nodesOf.mp hnode
  have hget : db.nodes.get? c.nodeId = some node := hid ▸ get?_of_mem hrow
  simp [after, transitionNode, hget, hrun]

theorem runs_settleRun (db : Database) (runId : String) (now : Nat) (other : String) :
    (settleRun db runId now).runs.get? other = (db.runs.get? other).map
      (setWhere (fun run => run.runId = runId) (RunRow.settled (nodesOf db runId) now)) :=
  get?_update db.runs (fun run => run.runId = runId)
    (RunRow.settled (nodesOf db runId) now) (fun _ => rfl) other

theorem nodesOf_after (h : Hits db runId c) :
    nodesOf (after db c) runId = blockedNodes (writtenNodes (nodesOf db runId) c) := by
  rw [after_of_hits h]
  have hsettle (db : Database) (now : Nat) :
      nodesOf (settleRun db runId now) runId = nodesOf db runId := rfl
  rw [hsettle, nodesOf_blockDependents, nodesOf_writeStatus]

theorem runs_after (h : Hits db runId c) {run : RunRow} (hrun : db.runs.get? runId = some run) :
    (after db c).runs.get? runId = some (run.settled (nodesOf (after db c) runId) c.now) := by
  rw [after_of_hits h]
  have hid : run.runId = runId := key_of_get? hrun
  have hget : (blockDependents (writeStatus db c) runId).runs.get? runId = some run := hrun
  rw [runs_settleRun, hget, Option.map_some, setWhere_pos (by simpa using hid)]
  rfl

/-- A call about a node of no run, or of another one, leaves a run alone. -/
theorem after_of_not_hits (h : ¬Hits db runId c) :
    nodesOf (after db c) runId = nodesOf db runId ∧
      (after db c).runs.get? runId = db.runs.get? runId := by
  cases hget : db.nodes.get? c.nodeId with
  | none =>
    have hafter : after db c = db := by simp [after, transitionNode, hget]
    rw [hafter]
    exact ⟨rfl, rfl⟩
  | some node =>
    have hne : runId ≠ node.runId := by
      intro heq
      exact h ⟨node, mem_nodesOf.mpr ⟨mem_of_get? hget, heq.symm⟩, key_of_get? hget⟩
    have hafter : after db c =
        settleRun (blockDependents (writeStatus db c) node.runId) node.runId c.now := by
      simp [after, transitionNode, hget]
    have hwrite : nodesOf (writeStatus db c) runId = nodesOf db runId := by
      rw [nodesOf_writeStatus, writtenNodes, List.map_congr_left (g := id), List.map_id]
      intro other hother
      have hid : other.id ≠ c.nodeId := fun hid => h ⟨other, hother, hid⟩
      exact setWhere_neg (by simpa using hid)
    rw [hafter]
    constructor
    · exact (nodesOf_blockDependents_of_ne _ hne).trans hwrite
    · have hruns : (blockDependents (writeStatus db c) node.runId).runs.get? runId =
          db.runs.get? runId := rfl
      rw [runs_settleRun, hruns]
      cases hrow : db.runs.get? runId with
      | none => rfl
      | some run =>
        have hid : run.runId = runId := key_of_get? hrow
        rw [Option.map_some, setWhere_neg (by simpa [hid] using hne)]

theorem needs_after (db : Database) (runId : String) (c : Transition) :
    needs (nodesOf (after db c) runId) = needs (nodesOf db runId) := by
  by_cases h : Hits db runId c
  · rw [nodesOf_after h, needs_blockedNodes, needs_writtenNodes]
  · rw [(after_of_not_hits h).1]

theorem ids_after (db : Database) (runId : String) (c : Transition) :
    (nodesOf (after db c) runId).map (·.id) = (nodesOf db runId).map (·.id) := by
  by_cases h : Hits db runId c
  · rw [nodesOf_after h]
    exact (ids_map_setWhere (f := NodeRow.block) fun _ => rfl).trans
      (ids_map_setWhere (f := NodeRow.withStatus c) fun _ => rfl)
  · rw [(after_of_not_hits h).1]

theorem wellFormed_iff : WellFormed nodes ↔
    (∀ a b, needs nodes a b → b ∈ nodes.map (·.id)) ∧ ∀ id, ¬TransGen (needs nodes) id id := by
  constructor
  · intro h
    refine ⟨fun a b ⟨node, hnode, _, hdep⟩ => ?_, h.acyclic⟩
    exact List.mem_map.mpr (h.closed node hnode b hdep)
  · intro ⟨hclosed, hacyclic⟩
    refine ⟨fun node hnode dep hdep => ?_, hacyclic⟩
    exact List.mem_map.mp (hclosed node.id dep ⟨node, hnode, rfl, hdep⟩)

/-- Calls leave the graph of a run as it was created. -/
theorem wellFormed_after (h : WellFormed (nodesOf db runId)) (c : Transition) :
    WellFormed (nodesOf (after db c) runId) := by
  rw [wellFormed_iff, needs_after, ids_after]
  exact wellFormed_iff.mp h

end ParallelEngine
