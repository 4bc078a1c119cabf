import FlowDeck.Orchestration.ParallelRuns
import Mathlib.Data.List.Perm.Subperm

/-! Which nodes of a run are active together when a node starts only after a search returned it. -/

namespace ParallelEngine

open List Machine

variable {db : Database} {runId : String} {nodes running l l' : List NodeRow} {maxWrite : Nat}
  {sel : Selection} {node : NodeRow} {limits : Limits} {c : Transition}

/-- Two nodes that write have no scopes of which one is a prefix of the other. -/
def Apart (a b : NodeRow) : Prop :=
  a.access = .write → b.access = .write → ∀ x ∈ a.fileScopes, ∀ y ∈ b.fileScopes,
    ¬x.toList <+: y.toList ∧ ¬y.toList <+: x.toList

def NodeRow.writes (node : NodeRow) : Bool := node.access = .write

structure Admissible (nodes : List NodeRow) (maxWrite : Nat) (l : List NodeRow) : Prop where
  apart : l.Pairwise Apart
  writes : l.countP NodeRow.writes ≤ maxWrite
  ready : ∀ node ∈ l, depsComplete nodes node = true

instance : Std.Symm Apart where
  symm _ _ h hb ha x hx y hy := (h ha hb y hy x hx).symm

theorem Admissible.of_subperm (h : Admissible nodes maxWrite l) (hsub : l' <+~ l) :
    Admissible nodes maxWrite l' where
  apart := by
    obtain ⟨m, hperm, hsub⟩ := hsub
    exact (hperm.pairwise_iff fun hab => Std.Symm.symm _ _ hab).mp (h.apart.sublist hsub)
  writes := (hsub.countP_le _).trans h.writes
  ready node hnode := h.ready node (hsub.subset hnode)

theorem not_scopesConflict {x y : String} :
    ¬scopesConflict x y = true ↔ ¬x.toList <+: y.toList ∧ ¬y.toList <+: x.toList := by
  have hself : x = y → x.toList <+: y.toList := fun h => h ▸ List.prefix_refl _
  simp only [scopesConflict, Bool.or_eq_true, decide_eq_true_eq, isPrefixOf_iff_prefix]
  tauto

/-! ### The search -/

structure Selects (nodes running : List NodeRow) (maxWrite : Nat) (sel : Selection) : Prop where
  admissible : Admissible nodes maxWrite (running ++ sel.candidates)
  count : sel.writeCount = sel.candidates.countP NodeRow.writes
  subset : sel.candidates ⊆ nodes

/-- A node that is taken needs a slot and a scope of its own only where it writes. -/
theorem Selects.take (h : Selects nodes running maxWrite sel) (hnode : node ∈ nodes)
    (hready : depsComplete nodes node = true)
    (hslot : node.writes = true → running.countP NodeRow.writes + sel.writeCount < maxWrite)
    (hapart : ∀ other ∈ running ++ sel.candidates, Apart other node) {count : Nat}
    (hcount : count = sel.writeCount + if node.writes then 1 else 0) :
    Selects nodes running maxWrite ⟨sel.candidates ++ [node], count⟩ where
  admissible := {
    apart := by
      rw [← append_assoc, pairwise_append]
      refine ⟨h.admissible.apart, pairwise_singleton _ _, fun a ha b hb => ?_⟩
      obtain rfl := mem_singleton.mp hb
      exact hapart a ha
    writes := by
      have hwrites := h.admissible.writes
      have hsame := h.count
      rw [← append_assoc, countP_append, countP_singleton]
      rw [countP_append] at hwrites ⊢
      split_ifs with hwrite
      · have := hslot hwrite
        omega
      · exact hwrites
    ready := by
      intro other hother
      rw [← append_assoc, mem_append, mem_singleton] at hother
      rcases hother with hother | rfl
      · exact h.admissible.ready other hother
      · exact hready }
  count := by rw [hcount, h.count, countP_append, countP_singleton]
  subset := append_subset.mpr ⟨h.subset, by simpa using hnode⟩

theorem Selects.consider (h : Selects nodes running maxWrite sel) (hnode : node ∈ nodes) :
    Selects nodes running maxWrite (ParallelEngine.consider nodes running maxWrite sel node) := by
  unfold ParallelEngine.consider
  split_ifs with hdeps hwrite hslot hconflict
  · exact h
  · exact h
  · exact h
  · have hwrites : node.writes = true := by simpa [NodeRow.writes] using hwrite
    refine h.take hnode (by simpa using hdeps) (fun _ => Nat.lt_of_not_le hslot) ?_
      (by simp [hwrites])
    intro other hother hwrite' _ x hx y hy
    refine not_scopesConflict.mp fun hxy => ?_
    refine hconflict (any_eq_true.mpr ⟨y, hy, any_eq_true.mpr ⟨x, ?_, hxy⟩⟩)
    rw [writeScopes, writeScopes, ← flatMap_append, ← filter_append]
    exact mem_flatMap.mpr ⟨other, mem_filter.mpr ⟨hother, by simpa using hwrite'⟩, hx⟩
  · have hreads : node.writes = false := by simpa [NodeRow.writes] using hwrite
    refine h.take hnode (by simpa using hdeps) (by simp [hreads]) ?_ (by simp [hreads])
    intro other _ _ hwrite'
    exact absurd hwrite' hwrite

theorem Selects.foldl (h : Selects nodes running maxWrite sel) (queue : List NodeRow)
    (hqueue : queue ⊆ nodes) :
    Selects nodes running maxWrite
      (queue.foldl (ParallelEngine.consider nodes running maxWrite) sel) := by
  induction queue generalizing sel with
  | nil => exact h
  | cons node queue ih =>
    rw [cons_subset] at hqueue
    exact ih (h.consider hqueue.1) hqueue.2

/-- What a search returns may join the active nodes. -/
theorem findRunnableNodes_admissible
    (hrunning : (listedNodes db runId).filter (fun node => node.status.isRunning) = running)
    (h : Admissible (listedNodes db runId) limits.maxWriteChildren running)
    (hlength : running.length ≤ limits.effectiveConcurrency) :
    Admissible (listedNodes db runId) limits.maxWriteChildren
        (running ++ findRunnableNodes db runId limits) ∧
      (running ++ findRunnableNodes db runId limits).length ≤ limits.effectiveConcurrency ∧
      findRunnableNodes db runId limits ⊆ listedNodes db runId := by
  unfold findRunnableNodes
  split
  · simpa using ⟨h, hlength⟩
  split_ifs
  · simpa using ⟨h, hlength⟩
  simp only [hrunning]
  have hstart : Selects (listedNodes db runId) running limits.maxWriteChildren {} :=
    ⟨by simpa using h, rfl, nil_subset _⟩
  have hselects := hstart.foldl (((listedNodes db runId).filter fun node => node.status = .queued)
    |>.insertionSort fun a b => startsBefore (listedNodes db runId) a b = true)
    fun node hnode => mem_of_mem_filter ((mem_insertionSort _).mp hnode)
  refine ⟨hselects.admissible.of_subperm ?_, ?_, fun node hnode => ?_⟩
  · exact ((take_sublist _ _).append_left _).subperm
  · rw [length_append, length_take]
    omega
  · exact hselects.subset (mem_of_mem_take hnode)

/-! ### Runs of searches and transitions -/

/-- The tables, and the nodes that the last search returned. -/
structure Schedule where
  db : Database
  returned : List String

inductive Call
  | findRunnableNodes
  | transitionNode (c : Transition)

def advance (runId : String) (limits : Limits) (s : Schedule) : Call → Option Schedule
  | .findRunnableNodes =>
    some { s with returned := (findRunnableNodes s.db runId limits).map (·.id) }
  | .transitionNode c => some { s with db := after s.db c }

/-- No completed node is moved, and none becomes active but one that the last search returned. -/
def Permitted (runId : String) (s : Schedule) : Call → Prop
  | .findRunnableNodes => True
  | .transitionNode c => ∀ node ∈ nodesOf s.db runId, node.id = c.nodeId →
      node.status ≠ .completed ∧
        (c.status.isRunning = true → node.status.isRunning = true ∨ node.id ∈ s.returned)

/-- A run as `createRun` inserts it. -/
structure Inserted (db : Database) (runId : String) : Prop where
  row : ∃ run, db.runs.get? runId = some run ∧ run.status = .queued
  queued : ∀ node ∈ nodesOf db runId, node.status = .queued

structure WithinLimits (limits : Limits) (db : Database) (runId : String) : Prop where
  apart : ∀ a ∈ nodesOf db runId, ∀ b ∈ nodesOf db runId, a ≠ b → a.status.isRunning = true →
    b.status.isRunning = true → a.access = .write → b.access = .write →
      ∀ x ∈ a.fileScopes, ∀ y ∈ b.fileScopes, ¬x.toList <+: y.toList
  writes : ((nodesOf db runId).countP fun node => node.status.isRunning && node.access = .write) ≤
    limits.maxWriteChildren
  active : ((nodesOf db runId).countP (·.status.isRunning)) ≤ limits.effectiveConcurrency
  ready : ∀ node ∈ nodesOf db runId, node.status.isRunning = true → ∀ dep ∈ node.dependencies,
    ∃ other ∈ nodesOf db runId, other.id = dep ∧ other.status = .completed

/-- With nothing active, a queued node that needs nothing more is found. -/
def Progresses (limits : Limits) (db : Database) (runId : String) : Prop :=
  (∀ node ∈ nodesOf db runId, node.status.isRunning = false) →
    0 < limits.effectiveConcurrency → 0 < limits.maxWriteChildren →
    (∃ node ∈ nodesOf db runId, node.status = .queued ∧ ∀ dep ∈ node.dependencies,
      ∃ other ∈ nodesOf db runId, other.id = dep ∧ other.status = .completed) →
    findRunnableNodes db runId limits ≠ []

/-- The nodes that are active, or may become so before the next search. -/
def Schedule.claimed (s : Schedule) (runId : String) : List NodeRow :=
  (nodesOf s.db runId).filter fun node => node.status.isRunning || s.returned.contains node.id

structure Scheduled (limits : Limits) (runId : String) (s : Schedule) : Prop where
  admissible : Admissible (nodesOf s.db runId) limits.maxWriteChildren (s.claimed runId)
  length : (s.claimed runId).length ≤ limits.effectiveConcurrency
  row : ∃ run, s.db.runs.get? runId = some run ∧ (run.status.isTerminal = true →
    ∀ node ∈ nodesOf s.db runId, node.status.isTerminal = true)

theorem nodup_nodesOf : (nodesOf db runId).Nodup := (Table.nodup_rows _).filter _

theorem depsComplete_iff : depsComplete nodes node = true ↔ ∀ dep ∈ node.dependencies,
    ∃ other ∈ nodes, other.id = dep ∧ other.status = .completed := by
  simp [depsComplete]

theorem depsComplete_mono {nodes' : List NodeRow} {node' : NodeRow}
    (hsame : node'.dependencies = node.dependencies)
    (h : ∀ other ∈ nodes, other.status = .completed →
      ∃ other' ∈ nodes', other'.id = other.id ∧ other'.status = .completed)
    (hready : depsComplete nodes node = true) : depsComplete nodes' node' = true := by
  rw [depsComplete_iff] at hready ⊢
  intro dep hdep
  obtain ⟨other, hother, hid, hstatus⟩ := hready dep (hsame ▸ hdep)
  obtain ⟨other', hother', hid', hstatus'⟩ := h other hother hstatus
  exact ⟨other', hother', hid'.trans hid, hstatus'⟩

theorem Admissible.congr {nodes' : List NodeRow} (hsub : nodes ⊆ nodes')
    (h : Admissible nodes maxWrite l) : Admissible nodes' maxWrite l where
  apart := h.apart
  writes := h.writes
  ready node hnode :=
    depsComplete_mono rfl (fun other hother hstatus => ⟨other, hsub hother, rfl, hstatus⟩)
      (h.ready node hnode)

theorem Scheduled.find {s : Schedule} (h : Scheduled limits runId s) :
    Scheduled limits runId
      { s with returned := (findRunnableNodes s.db runId limits).map (·.id) } := by
  have hactive : (listedNodes s.db runId).filter (fun node => node.status.isRunning) <+~
      s.claimed runId := by
    refine (((perm_insertionSort _ _).filter _).subperm).trans (Sublist.subperm ?_)
    exact monotone_filter_right _ fun node hnode => by simp [hnode]
  obtain ⟨hadmissible, hlength, hsub⟩ := findRunnableNodes_admissible rfl
    ((h.admissible.congr fun node hnode => mem_listedNodes.mpr hnode).of_subperm hactive)
    (hactive.length_le.trans h.length)
  have hclaimed :
      Schedule.claimed ⟨s.db, (findRunnableNodes s.db runId limits).map (·.id)⟩ runId <+~
      (listedNodes s.db runId).filter (fun node => node.status.isRunning) ++
        findRunnableNodes s.db runId limits := by
    apply subperm_of_subset (nodup_nodesOf.filter _)
    intro node hnode
    obtain ⟨hnode, hclaims⟩ := mem_filter.mp hnode
    rcases (Bool.or_eq_true _ _).mp hclaims with hrunning | hreturned
    · exact mem_append_left _ (mem_filter.mpr ⟨mem_listedNodes.mpr hnode, hrunning⟩)
    · obtain ⟨found, hfound, hid⟩ := mem_map.mp (contains_iff_mem.mp hreturned)
      have hsame := eq_of_mem_nodesOf (mem_listedNodes.mp (hsub hfound)) hnode hid
      exact mem_append_right _ (hsame ▸ hfound)
  refine ⟨(hadmissible.of_subperm hclaimed).congr ?_, hclaimed.length_le.trans hlength, h.row⟩
  exact fun node hnode => mem_listedNodes.mp hnode

/-- What stays of a node that is moved. -/
structure SameTask (node node' : NodeRow) : Prop where
  id : node'.id = node.id
  dependencies : node'.dependencies = node.dependencies
  access : node'.access = node.access
  fileScopes : node'.fileScopes = node.fileScopes

theorem SameTask.apart {a a' b b' : NodeRow} (ha : SameTask a a') (hb : SameTask b b')
    (h : Apart a b) : Apart a' b' := by
  simpa only [Apart, ha.access, ha.fileScopes, hb.access, hb.fileScopes] using h

/-- A call moves one node at most, and blocks queued ones. -/
theorem exists_nodesOf_after (db : Database) (runId : String) (c : Transition) :
    ∃ g : NodeRow → NodeRow, nodesOf (after db c) runId = (nodesOf db runId).map g ∧
      ∀ node ∈ nodesOf db runId, SameTask node (g node) ∧ ((g node).status = c.statusOf node ∨
        (g node).status = .blocked ∧ c.statusOf node = .queued) := by
  by_cases hhit : Hits db runId c
  · refine ⟨_, (nodesOf_after hhit).trans map_map, fun node _ => ⟨?_, ?_⟩⟩
    · simp only [Function.comp_apply, Table.setWhere]
      split_ifs <;> exact ⟨rfl, rfl, rfl, rfl⟩
    · rw [Function.comp_apply, status_setWhere_block, blockedStatus, status_setWhere_withStatus]
      split_ifs with hblock
      · exact Or.inr ⟨rfl, hblock.1⟩
      · exact Or.inl rfl
  · refine ⟨id, by rw [(after_of_not_hits hhit).1, map_id], fun node hnode => ?_⟩
    have hother : node.id ≠ c.nodeId := fun hid => hhit ⟨node, hnode, hid⟩
    exact ⟨⟨rfl, rfl, rfl, rfl⟩, Or.inl (by simp [Transition.statusOf, hother])⟩

theorem Scheduled.transition {s : Schedule} (h : Scheduled limits runId s)
    (hallowed : Permitted runId s (.transitionNode c)) :
    Scheduled limits runId { s with db := after s.db c } := by
  obtain ⟨g, hnodes, hg⟩ := exists_nodesOf_after s.db runId c
  have hcompleted : ∀ node ∈ nodesOf s.db runId, node.status = .completed →
      (g node).status = .completed := by
    intro node hnode hstatus
    have hother : node.id ≠ c.nodeId := fun hid => (hallowed node hnode hid).1 hstatus
    rcases (hg node hnode).2 with hsame | ⟨-, hqueued⟩
    · rw [hsame, Transition.statusOf, if_neg hother, hstatus]
    · rw [Transition.statusOf, if_neg hother, hstatus] at hqueued
      cases hqueued
  have hrunning : ∀ node ∈ nodesOf s.db runId, (g node).status.isRunning = true →
      node.status.isRunning = true ∨ node.id ∈ s.returned := by
    intro node hnode hactive
    rcases (hg node hnode).2 with hsame | ⟨hblocked, -⟩
    · rw [hsame, Transition.statusOf] at hactive
      split_ifs at hactive with hid
      · exact (hallowed node hnode hid).2 hactive
      · exact Or.inl hactive
    · rw [hblocked] at hactive
      cases hactive
  have hclaimed : Schedule.claimed ⟨after s.db c, s.returned⟩ runId <+~
      (s.claimed runId).map g := by
    apply subperm_of_subset (nodup_nodesOf.filter _)
    intro node' hnode'
    obtain ⟨hnode', hclaims⟩ := mem_filter.mp hnode'
    obtain ⟨node, hnode, rfl⟩ := mem_map.mp (hnodes ▸ hnode')
    refine mem_map_of_mem (mem_filter.mpr ⟨hnode, ?_⟩)
    rw [(hg node hnode).1.id, Bool.or_eq_true, contains_iff_mem] at hclaims
    rw [Bool.or_eq_true, contains_iff_mem]
    rcases hclaims with hactive | hreturned
    · exact hrunning node hnode hactive
    · exact Or.inr hreturned
  have hsame : ∀ node ∈ s.claimed runId, SameTask node (g node) :=
    fun node hnode => (hg node (mem_of_mem_filter hnode)).1
  have hadmissible : Admissible (nodesOf (after s.db c) runId) limits.maxWriteChildren
      ((s.claimed runId).map g) := {
    apart := pairwise_map.mpr (h.admissible.apart.imp_of_mem fun ha hb hab =>
      (hsame _ ha).apart (hsame _ hb) hab)
    writes := by
      rw [countP_map, countP_congr (q := NodeRow.writes)]
      · exact h.admissible.writes
      · intro node hnode
        simp [NodeRow.writes, (hsame node hnode).access]
    ready := by
      intro node' hnode'
      obtain ⟨node, hnode, rfl⟩ := mem_map.mp hnode'
      refine depsComplete_mono (hsame node hnode).dependencies ?_ (h.admissible.ready node hnode)
      intro other hother hstatus
      exact ⟨g other, hnodes ▸ mem_map_of_mem hother, (hg other hother).1.id,
        hcompleted other hother hstatus⟩ }
  refine ⟨hadmissible.of_subperm hclaimed, ?_, ?_⟩
  · have hlength := hclaimed.length_le
    rw [length_map] at hlength
    exact hlength.trans h.length
  · obtain ⟨run, hrun, hterminal⟩ := h.row
    by_cases hhit : Hits s.db runId c
    · exact ⟨_, runs_after hhit hrun, isTerminal_settled.mp⟩
    · refine ⟨run, (after_of_not_hits hhit).2.trans hrun, ?_⟩
      rwa [(after_of_not_hits hhit).1]

theorem Scheduled.advance {s t : Schedule} {call : Call} (h : Scheduled limits runId s)
    (hallowed : Permitted runId s call) (hstep : advance runId limits s call = some t) :
    Scheduled limits runId t := by
  cases call with
  | findRunnableNodes => exact Option.some.inj hstep ▸ h.find
  | transitionNode c => exact Option.some.inj hstep ▸ h.transition hallowed

theorem Inserted.scheduled (h : Inserted db runId) : Scheduled limits runId ⟨db, []⟩ := by
  have hnone : Schedule.claimed ⟨db, []⟩ runId = [] := by
    refine filter_eq_nil_iff.mpr fun node hnode => ?_
    simp [h.queued node hnode, DelegationNodeStatus.isRunning]
  obtain ⟨run, hrun, hstatus⟩ := h.row
  refine ⟨?_, ?_, run, hrun, ?_⟩
  · rw [hnone]
    exact ⟨Pairwise.nil, Nat.zero_le _, fun _ hnode => absurd hnode not_mem_nil⟩
  · rw [hnone]
    exact Nat.zero_le _
  · simp [hstatus, DelegationRunStatus.isTerminal]

theorem Scheduled.withinLimits {s : Schedule} (h : Scheduled limits runId s) :
    WithinLimits limits s.db runId := by
  have hactive : (nodesOf s.db runId).filter (fun node => node.status.isRunning) <+~
      s.claimed runId :=
    (monotone_filter_right _ fun node hnode => by simp [hnode]).subperm
  have hmem {node : NodeRow} (hnode : node ∈ nodesOf s.db runId)
      (hrunning : node.status.isRunning = true) : node ∈ s.claimed runId :=
    hactive.subset (mem_filter.mpr ⟨hnode, hrunning⟩)
  constructor
  · intro a ha b hb hne harunning hbrunning hawrite hbwrite x hx y hy
    exact (h.admissible.apart.forall (hmem ha harunning) (hmem hb hbrunning) hne hawrite hbwrite
      x hx y hy).1
  · have hwrites := (hactive.countP_le NodeRow.writes).trans h.admissible.writes
    simpa [countP_filter, NodeRow.writes, Bool.and_comm] using hwrites
  · rw [countP_eq_length_filter]
    exact hactive.length_le.trans h.length
  · intro node hnode hrunning
    exact depsComplete_iff.mp (h.admissible.ready node (hmem hnode hrunning))

theorem Scheduled.progresses {s : Schedule} (h : Scheduled limits runId s) :
    Progresses limits s.db runId := by
  intro hidle hslots hwrite ⟨node, hnode, hqueued, hdeps⟩
  obtain ⟨run, hrun, hterminal⟩ := h.row
  refine findRunnableNodes_ne_nil hrun ?_ hidle hnode hqueued hdeps hslots hwrite
  rw [← Bool.not_eq_true]
  intro hended
  have hnode := hterminal hended node hnode
  rw [hqueued] at hnode
  cases hnode

/-- In every run of searches and transitions in which nodes start only when a search has returned
them, the active nodes keep to the limits and a run that can go on does. -/
theorem schedule_withinLimits (hinserted : Inserted db runId) (calls : List Call) {s : Schedule}
    (hallowed : Along (advance runId limits) (Permitted runId) ⟨db, []⟩ calls)
    (hrun : run (advance runId limits) ⟨db, []⟩ calls = some s) :
    WithinLimits limits s.db runId ∧ Progresses limits s.db runId := by
  have hscheduled : Scheduled limits runId s :=
    hallowed.invariant (fun s call t h ha hstep => h.advance ha hstep) hinserted.scheduled hrun
  exact ⟨hscheduled.withinLimits, hscheduled.progresses⟩

def startFirst : Transition := ⟨"a", .running, {}, 1⟩

theorem chain_finds : (findRunnableNodes chain "r" ⟨2, 2, 2, 1⟩).map (·.id) = ["a"] := by
  decide +kernel

/-- The first node of the chain is found and started. -/
theorem chain_schedule : WithinLimits ⟨2, 2, 2, 1⟩ (after chain startFirst) "r" ∧
    Progresses ⟨2, 2, 2, 1⟩ (after chain startFirst) "r" := by
  have hinserted : Inserted chain "r" := ⟨⟨_, rfl, rfl⟩, chain_created.queued⟩
  have hfind : advance "r" ⟨2, 2, 2, 1⟩ ⟨chain, []⟩ .findRunnableNodes = some ⟨chain, ["a"]⟩ := by
    simp [advance, chain_finds]
  have hpermitted : Permitted "r" ⟨chain, ["a"]⟩ (.transitionNode startFirst) :=
    fun node hnode hid => ⟨by simp [chain_created.queued node hnode], fun _ => Or.inr (by
      simp [hid, startFirst])⟩
  exact schedule_withinLimits hinserted [.findRunnableNodes, .transitionNode startFirst]
    (Along.cons trivial hfind (Along.cons hpermitted rfl trivial))
    (run_cons_eq_some.mpr ⟨_, hfind, rfl⟩)

end ParallelEngine
