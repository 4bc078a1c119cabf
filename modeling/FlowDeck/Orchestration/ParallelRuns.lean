import FlowDeck.Orchestration.BlockedPropagation

/-! Runs of `transitionNode` calls: when they keep a run's queued nodes clear of halted ones, its
status true to its nodes, and the run alive. -/

namespace ParallelEngine

open Relation Halting DelegationNodeStatus List

/-! ### A queued node that can start -/

theorem mem_listedNodes {db : Database} {runId : String} {node : NodeRow} :
    node ∈ listedNodes db runId ↔ node ∈ nodesOf db runId := by
  simp [listedNodes]

variable {nodes : List NodeRow} {maxWrite : Nat} {run : RunRow}

theorem candidates_consider_ne_nil {running : List NodeRow} {selection : Selection}
    (h : selection.candidates ≠ []) (node : NodeRow) :
    (consider nodes running maxWrite selection node).candidates ≠ [] := by
  unfold consider
  split_ifs <;> simp [h]

theorem candidates_foldl_ne_nil {running queue : List NodeRow} {selection : Selection}
    (h : selection.candidates ≠ []) :
    (queue.foldl (consider nodes running maxWrite) selection).candidates ≠ [] := by
  induction queue generalizing selection with
  | nil => exact h
  | cons node queue ih => exact ih (candidates_consider_ne_nil h node)

/-- With no node running, the first node found whose dependencies are complete is taken. -/
theorem candidates_consider_first (hwrite : 0 < maxWrite) {node : NodeRow}
    (hdeps : depsComplete nodes node = true) :
    (consider nodes [] maxWrite {} node).candidates ≠ [] := by
  have hslot : ¬maxWrite ≤ 0 := by omega
  unfold consider
  simp only [hdeps, Bool.not_true, Bool.false_eq_true, if_false, countP_nil, Nat.add_zero,
    hslot, writeScopes, filter_nil, flatMap_nil, append_nil, any_nil]
  split_ifs <;> simp_all

theorem exists_candidate {queue : List NodeRow} (hwrite : 0 < maxWrite) {node : NodeRow}
    (hnode : node ∈ queue) (hdeps : depsComplete nodes node = true) :
    (queue.foldl (consider nodes [] maxWrite) {}).candidates ≠ [] := by
  induction queue with
  | nil => exact absurd hnode not_mem_nil
  | cons first queue ih =>
    rw [foldl_cons]
    by_cases hfirst : depsComplete nodes first = true
    · exact candidates_foldl_ne_nil (candidates_consider_first hwrite hfirst)
    · have hskip : consider nodes [] maxWrite {} first = {} := by simp [consider, hfirst]
      rw [hskip]
      rcases mem_cons.mp hnode with rfl | hmem
      · exact absurd hdeps hfirst
      · exact ih hmem

theorem findRunnableNodes_ne_nil {db : Database} {runId : String} {limits : Limits}
    (hrun : db.runs.get? runId = some run) (hopen : run.status.isTerminal = false)
    (hidle : ∀ node ∈ nodesOf db runId, node.status.isRunning = false) {node : NodeRow}
    (hnode : node ∈ nodesOf db runId) (hqueued : node.status = .queued)
    (hdeps : ∀ dep ∈ node.dependencies,
      ∃ other ∈ nodesOf db runId, other.id = dep ∧ other.status = .completed)
    (hslots : 0 < limits.effectiveConcurrency) (hwrite : 0 < limits.maxWriteChildren) :
    findRunnableNodes db runId limits ≠ [] := by
  have hrunning : (listedNodes db runId).filter (fun node => node.status.isRunning) = [] := by
    apply filter_eq_nil_iff.mpr
    intro other hother
    simp [hidle other (mem_listedNodes.mp hother)]
  have hcomplete : depsComplete (listedNodes db runId) node = true := by
    apply all_eq_true.mpr
    intro dep hdep
    obtain ⟨other, hother, hid, hstatus⟩ := hdeps dep hdep
    apply any_eq_true.mpr
    exact ⟨other, mem_listedNodes.mpr hother, by simp [hid, hstatus]⟩
  simp only [findRunnableNodes, hrun, hopen, Bool.false_eq_true, if_false, hrunning,
    length_nil, Nat.sub_zero]
  have hmem : node ∈ ((listedNodes db runId).filter fun node => node.status = .queued).insertionSort
      fun a b => startsBefore (listedNodes db runId) a b = true := by
    simpa [hqueued] using mem_listedNodes.mpr hnode
  have hsome := exists_candidate hwrite hmem hcomplete
  intro hnone
  rcases take_eq_nil_iff.mp hnone with hzero | hnil
  · omega
  · exact hsome hnil

/-! ### The row of a run -/

theorem isTerminal_settled {now : Nat} :
    (run.settled nodes now).status.isTerminal = true ↔
      ∀ node ∈ nodes, node.status.isTerminal = true := by
  simp only [RunRow.settled]
  split_ifs with hall hfailed
  · simpa [DelegationRunStatus.isTerminal] using hall
  · simpa [DelegationRunStatus.isTerminal] using hall
  · simpa [DelegationRunStatus.isTerminal] using hall

theorem settled_eq_completed {now : Nat} :
    (run.settled nodes now).status = .completed ↔
      ∀ node ∈ nodes, node.status = .completed ∨ node.status = .cancelled := by
  have hcases (s : DelegationNodeStatus) : s = .completed ∨ s = .cancelled ↔
      s.isTerminal = true ∧ ¬(s = .failed ∨ s = .blocked) := by
    cases s <;> simp [isTerminal]
  simp only [RunRow.settled, hcases]
  split_ifs with hall hfailed
  · simp only [any_eq_true, Bool.or_eq_true, decide_eq_true_eq] at hfailed
    obtain ⟨node, hnode, hstatus⟩ := hfailed
    simp only [false_iff]
    intro h
    exact (h node hnode).2 hstatus
  · simp only [any_eq_true, Bool.or_eq_true, decide_eq_true_eq, not_exists, not_and] at hfailed
    simp only [all_eq_true] at hall
    simp only [true_iff]
    intro node hnode
    exact ⟨hall node hnode, hfailed node hnode⟩
  · simp only [all_eq_true] at hall
    simp only [false_iff]
    intro h
    exact hall fun node hnode => (h node hnode).1

/-! ### What a call is to leave behind -/

/-- The run is as it should be after a call. -/
structure Lawful (db : Database) (runId : String) : Prop where
  clear : ∀ node ∈ nodesOf db runId, node.status = .queued →
    ∀ other ∈ nodesOf db runId, other.status.isHalted = true →
      ¬TransGen (needs (nodesOf db runId)) node.id other.id
  terminal_iff : ∀ run, db.runs.get? runId = some run →
    (run.status.isTerminal = true ↔ ∀ node ∈ nodesOf db runId, node.status.isTerminal = true)
  completed : ∀ run, db.runs.get? runId = some run → run.status = .completed →
    ∀ node ∈ nodesOf db runId, node.status = .completed
  live : ∀ run, db.runs.get? runId = some run → run.status.isTerminal = false →
    (∃ node ∈ nodesOf db runId, node.status.isActive = true) ∨
      ∀ limits : Limits, 0 < limits.effectiveConcurrency → 0 < limits.maxWriteChildren →
        findRunnableNodes db runId limits ≠ []

/-- What halts has no queued node behind it but those that name it, and what is queued again names
some halted node if there is one before it. -/
def Contained (db : Database) (runId : String) (c : Transition) : Prop :=
  (c.status.isHalted = true → ∀ node ∈ nodesOf db runId, node.status = .queued →
    node.id ≠ c.nodeId → TransGen (needs (nodesOf db runId)) node.id c.nodeId →
      needs (nodesOf db runId) node.id c.nodeId) ∧
  (c.status = .queued → ∀ other ∈ nodesOf db runId, other.status.isHalted = true →
    other.id ≠ c.nodeId → TransGen (needs (nodesOf db runId)) c.nodeId other.id →
      ∃ dep ∈ nodesOf db runId, dep.status.isHalted = true ∧ dep.id ≠ c.nodeId ∧
        needs (nodesOf db runId) c.nodeId dep.id)

/-- The call leaves nothing but completed nodes and cancelled ones, some of them cancelled. -/
def EndsCancelled (db : Database) (runId : String) (c : Transition) : Prop :=
  (∀ node ∈ nodesOf db runId, c.statusOf node = .completed ∨ c.statusOf node = .cancelled) ∧
    ∃ node ∈ nodesOf db runId, c.statusOf node = .cancelled

theorem clear_marks_iff :
    (marks nodes).Clear (needs nodes) ↔ ∀ node ∈ nodes, node.status = .queued →
      ∀ other ∈ nodes, other.status.isHalted = true →
        ¬TransGen (needs nodes) node.id other.id := by
  constructor
  · intro h node hnode hqueued other hother hhalted
    exact h node.id ⟨node, hnode, rfl, hqueued⟩ other.id ⟨other, hother, rfl, hhalted⟩
  · intro h a ⟨node, hnode, ha, hqueued⟩ b ⟨other, hother, hb, hhalted⟩
    subst ha hb
    exact h node hnode hqueued other hother hhalted

theorem contained_iff {db : Database} {runId : String} {c : Transition} :
    Contained db runId c ↔
      (c.status.isHalted = true → ∀ a ∈ (marks (nodesOf db runId)).waiting, a ≠ c.nodeId →
        TransGen (needs (nodesOf db runId)) a c.nodeId →
          needs (nodesOf db runId) a c.nodeId) ∧
      (c.status = .queued → ∀ b ∈ (marks (nodesOf db runId)).halted, b ≠ c.nodeId →
        TransGen (needs (nodesOf db runId)) c.nodeId b →
          ∃ d ∈ (marks (nodesOf db runId)).halted, d ≠ c.nodeId ∧
            needs (nodesOf db runId) c.nodeId d) := by
  refine and_congr ⟨?_, ?_⟩ ⟨?_, ?_⟩
  · intro h hhalts a ⟨node, hnode, ha, hqueued⟩
    subst ha
    exact h hhalts node hnode hqueued
  · intro h hhalts node hnode hqueued
    exact h hhalts node.id ⟨node, hnode, rfl, hqueued⟩
  · intro h hqueued b ⟨other, hother, hb, hhalted⟩ hne hreach
    subst hb
    obtain ⟨dep, hdep, hstatus, hself, hneed⟩ := h hqueued other hother hhalted hne hreach
    exact ⟨dep.id, ⟨dep, hdep, rfl, hstatus⟩, hself, hneed⟩
  · intro h hqueued other hother hhalted hne hreach
    obtain ⟨d, ⟨dep, hdep, hd, hstatus⟩, hself, hneed⟩ :=
      h hqueued other.id ⟨other, hother, rfl, hhalted⟩ hne hreach
    subst hd
    exact ⟨dep, hdep, hstatus, hself, hneed⟩

section Step

variable {db : Database} {runId : String} {c : Transition}

/-- Blocking the dependents of what a call halted is enough exactly when the call is contained. -/
theorem clear_after_iff (hclear : (marks (nodesOf db runId)).Clear (needs (nodesOf db runId)))
    (hhit : Hits db runId c) :
    (marks (nodesOf (after db c) runId)).Clear (needs (nodesOf db runId)) ↔
      Contained db runId c := by
  have hinj : ∀ a ∈ writtenNodes (nodesOf db runId) c, ∀ b ∈ writtenNodes (nodesOf db runId) c,
      a.id = b.id → a = b := by
    rw [← nodesOf_writeStatus]
    exact fun a ha b hb => eq_of_mem_nodesOf ha hb
  have hone : ¬(c.status = .queued ∧ c.status.isHalted = true) := by
    intro ⟨hqueued, hhalted⟩
    simp [hqueued, isHalted] at hhalted
  rw [nodesOf_after hhit, marks_blockedNodes hinj, needs_writtenNodes, marks_writtenNodes hhit,
    clear_propagate_assign_iff hclear hone, contained_iff]

/-- Of what neither queued nor blocked nodes satisfy, a call leaves what it wrote. -/
theorem forall_after_iff (hhit : Hits db runId c) {P : DelegationNodeStatus → Prop}
    (hqueued : ¬P .queued) (hblocked : ¬P .blocked) :
    (∀ node ∈ nodesOf (after db c) runId, P node.status) ↔
      ∀ node ∈ nodesOf db runId, P (c.statusOf node) := by
  have hstatus (node : NodeRow) :
      P (blockedStatus (writtenNodes (nodesOf db runId) c) node) ↔ P node.status := by
    unfold blockedStatus
    split_ifs with h
    · simp [h.1, hqueued, hblocked]
    · rfl
  rw [nodesOf_after hhit]
  simp only [blockedNodes, forall_mem_map, status_setWhere_block, hstatus]
  simp only [writtenNodes, forall_mem_map, status_setWhere_withStatus]

theorem completed_after_iff (hhit : Hits db runId c) {run : RunRow}
    (hrun : db.runs.get? runId = some run) :
    (∀ run, (after db c).runs.get? runId = some run → run.status = .completed →
      ∀ node ∈ nodesOf (after db c) runId, node.status = .completed) ↔
      ¬EndsCancelled db runId c := by
  have hends := forall_after_iff hhit (P := fun s => s = .completed ∨ s = .cancelled)
    (by simp) (by simp)
  have hdone := forall_after_iff hhit (P := (· = .completed)) (by simp) (by simp)
  simp only [runs_after hhit hrun, Option.some.injEq, forall_eq', settled_eq_completed, hends,
    hdone]
  constructor
  · intro h hcancels
    obtain ⟨hall, node, hnode, hcancelled⟩ := hcancels
    have hcompleted := h hall node hnode
    simp [hcompleted] at hcancelled
  · intro h hall node hnode
    rcases hall node hnode with hcompleted | hcancelled
    · exact hcompleted
    · exact absurd ⟨hall, node, hnode, hcancelled⟩ h

theorem live_of_clear (hwf : WellFormed (nodesOf db runId))
    (hclear : (marks (nodesOf db runId)).Clear (needs (nodesOf db runId))) {run : RunRow}
    (hrun : db.runs.get? runId = some run) (hopen : run.status.isTerminal = false)
    (hnode : ∃ node ∈ nodesOf db runId, node.status.isTerminal = false) :
    (∃ node ∈ nodesOf db runId, node.status.isActive = true) ∨
      ∀ limits : Limits, 0 < limits.effectiveConcurrency → 0 < limits.maxWriteChildren →
        findRunnableNodes db runId limits ≠ [] := by
  by_cases hactive : ∃ node ∈ nodesOf db runId, node.status.isActive = true
  · exact .inl hactive
  right
  simp only [not_exists, not_and, Bool.not_eq_true] at hactive
  have hqueued (node : NodeRow) (hmem : node ∈ nodesOf db runId)
      (hstatus : node.status.isTerminal = false) : node.status = .queued := by
    have hidle := hactive node hmem
    simpa [isActive, hstatus] using hidle
  have hfinite : (marks (nodesOf db runId)).waiting.Finite := by
    apply ((nodesOf db runId).map (·.id)).finite_toSet.subset
    intro id hwaiting
    obtain ⟨node, hmem, hid, _⟩ := hwaiting
    exact mem_map.mpr ⟨node, hmem, hid⟩
  obtain ⟨first, hfirst, hstatus⟩ := hnode
  have hwaits : (marks (nodesOf db runId)).waiting.Nonempty :=
    ⟨first.id, first, hfirst, rfl, hqueued first hfirst hstatus⟩
  have hmarked : ∀ a ∈ (marks (nodesOf db runId)).waiting, ∀ b, needs (nodesOf db runId) a b →
      b ∈ (marks (nodesOf db runId)).waiting ∨ b ∈ (marks (nodesOf db runId)).halted ∨
        b ∈ {id | ∃ node ∈ nodesOf db runId, node.id = id ∧ node.status = .completed} := by
    intro a _ b hneeds
    obtain ⟨node, hmem, _, hdep⟩ := hneeds
    obtain ⟨other, hother, hid⟩ := hwf.closed node hmem b hdep
    by_cases hterminal : other.status.isTerminal = true
    · by_cases hcompleted : other.status = .completed
      · exact .inr (.inr ⟨other, hother, hid, hcompleted⟩)
      · have hhalted := isHalted_iff.mpr ⟨hterminal, hcompleted⟩
        exact .inr (.inl ⟨other, hother, hid, hhalted⟩)
    · have hwaiting := hqueued other hother (by simpa using hterminal)
      exact .inl ⟨other, hother, hid, hwaiting⟩
  obtain ⟨id, ⟨node, hmem, hid, hstatus⟩, hready⟩ :=
    hclear.exists_ready hfinite hwaits hwf.acyclic hmarked
  have hidle : ∀ other ∈ nodesOf db runId, other.status.isRunning = false := by
    intro other hother
    by_contra hrunning
    have := isActive_of_isRunning (by simpa using hrunning)
    simp [hactive other hother] at this
  intro limits hslots hwrite
  apply findRunnableNodes_ne_nil hrun hopen hidle hmem hstatus _ hslots hwrite
  intro dep hdep
  exact hready dep ⟨node, hmem, hid, hdep⟩

theorem lawful_after_iff (hwf : WellFormed (nodesOf db runId))
    (hclear : (marks (nodesOf db runId)).Clear (needs (nodesOf db runId)))
    {run : RunRow} (hrun : db.runs.get? runId = some run) (hhit : Hits db runId c) :
    Lawful (after db c) runId ↔ Contained db runId c ∧ ¬EndsCancelled db runId c := by
  have hkept := clear_after_iff hclear hhit
  rw [← needs_after db runId c] at hkept
  have hends := completed_after_iff hhit hrun
  constructor
  · intro h
    exact ⟨hkept.mp (clear_marks_iff.mpr h.clear), hends.mp h.completed⟩
  · intro ⟨hcontained, hcancelled⟩
    have hafter := hkept.mpr hcontained
    have hrow := runs_after hhit hrun
    refine ⟨clear_marks_iff.mp hafter, ?_, hends.mpr hcancelled, ?_⟩
    · intro run hrun
      rw [hrow] at hrun
      obtain rfl := Option.some.inj hrun
      exact isTerminal_settled
    · intro run hrun hopen
      refine live_of_clear (wellFormed_after hwf c) hafter hrun hopen ?_
      rw [hrow] at hrun
      obtain rfl := Option.some.inj hrun
      rw [← Bool.not_eq_true, isTerminal_settled] at hopen
      simpa only [not_forall, exists_prop, Bool.not_eq_true] using hopen

end Step

/-! ### Whole runs of calls -/

/-- The run as `createRun` leaves it. -/
structure Created (db : Database) (runId : String) : Prop where
  row : ∃ run, db.runs.get? runId = some run
  queued : ∀ node ∈ nodesOf db runId, node.status = .queued
  wellFormed : WellFormed (nodesOf db runId)

/-- What calls keep of a run whose nodes are clear so far. -/
structure Sound (db : Database) (runId : String) : Prop where
  row : ∃ run, db.runs.get? runId = some run
  wellFormed : WellFormed (nodesOf db runId)
  clear : (marks (nodesOf db runId)).Clear (needs (nodesOf db runId))

theorem Created.sound {db : Database} {runId : String} (h : Created db runId) :
    Sound db runId where
  row := h.row
  wellFormed := h.wellFormed
  clear := by
    intro a _ b ⟨node, hnode, _, hhalted⟩
    simp [h.queued node hnode, isHalted] at hhalted

/-- A call, whether it returns or throws. -/
def step (db : Database) (c : Transition) : Option Database := some (after db c)

theorem Sound.after {db : Database} {runId : String} {c : Transition} (h : Sound db runId)
    (hcall : Hits db runId c → Lawful (after db c) runId) : Sound (after db c) runId := by
  refine ⟨?_, wellFormed_after h.wellFormed c, ?_⟩
  · obtain ⟨run, hrun⟩ := h.row
    by_cases hhit : Hits db runId c
    · exact ⟨_, runs_after hhit hrun⟩
    · exact ⟨run, (after_of_not_hits hhit).2.trans hrun⟩
  · by_cases hhit : Hits db runId c
    · exact clear_marks_iff.mpr (hcall hhit).clear
    · rw [(after_of_not_hits hhit).1]
      exact h.clear

/-- Over any sequence of calls, each call on the run leaves it as it should be exactly when each is
contained and none ends the run with cancelled nodes. -/
theorem lawful_along_iff {db : Database} {runId : String} (hcreated : Created db runId)
    (calls : List Transition) :
    Machine.Along step (fun db c => Hits db runId c → Lawful (after db c) runId) db calls ↔
      Machine.Along step
        (fun db c => Hits db runId c → Contained db runId c ∧ ¬EndsCancelled db runId c)
        db calls := by
  have hiff (db : Database) (c : Transition) (h : Sound db runId) :
      (Hits db runId c → Lawful (after db c) runId) ↔
        (Hits db runId c → Contained db runId c ∧ ¬EndsCancelled db runId c) := by
    obtain ⟨run, hrun⟩ := h.row
    exact forall_congr' fun hhit => lawful_after_iff h.wellFormed h.clear hrun hhit
  constructor
  · refine Machine.Along.imp (I := (Sound · runId)) ?_ (fun db c h => (hiff db c h).mp)
      hcreated.sound
    intro db c db' h hlawful hstep
    exact Option.some.inj hstep ▸ h.after hlawful
  · refine Machine.Along.imp (I := (Sound · runId)) ?_ (fun db c h => (hiff db c h).mpr)
      hcreated.sound
    intro db c db' h hcall hstep
    exact Option.some.inj hstep ▸ h.after ((hiff db c h).mpr hcall)

/-- A node of the chain below. -/
def link (id : String) (dependencies : List String) : NodeRow where
  id := id
  runId := "r"
  dependencies := dependencies
  access := .read
  fileScopes := []
  priority := 0
  status := .queued
  childSessionId := none
  createdAt := 0
  startedAt := none
  completedAt := none
  summary := none
  error := none
  result := none

theorem chain_unique : ([link "a" [], link "b" ["a"], link "c" ["b"]].map NodeRow.id).Nodup := by
  decide

theorem chain_runs_unique : ([⟨"r", .queued, none, none⟩].map RunRow.runId).Nodup := by
  decide

/-- Node `c` waits for `b`, which waits for `a`. -/
def chain : Database where
  runs := ⟨[⟨"r", .queued, none, none⟩], chain_runs_unique⟩
  nodes := ⟨[link "a" [], link "b" ["a"], link "c" ["b"]], chain_unique⟩

theorem nodesOf_chain :
    nodesOf chain "r" = [link "a" [], link "b" ["a"], link "c" ["b"]] := by decide +kernel

theorem chain_created : Created chain "r" where
  row := ⟨_, rfl⟩
  queued := by
    rw [nodesOf_chain]
    simp [link]
  wellFormed := by
    rw [nodesOf_chain]
    refine ⟨by simp [link], fun id hcycle => ?_⟩
    -- a node of the chain stands behind what it needs
    have hrank : ∀ a b, TransGen (needs [link "a" [], link "b" ["a"], link "c" ["b"]]) a b →
        b < a := by
      intro a b hreach
      refine TransGen.trans_induction_on hreach ?_ fun _ _ hab hbc => String.lt_trans hbc hab
      intro a b hneed
      simp only [needs, link, mem_cons, not_mem_nil, or_false] at hneed
      obtain ⟨node, rfl | rfl | rfl, rfl, hdep⟩ := hneed
      · simp at hdep
      · simp only [mem_cons, not_mem_nil, or_false] at hdep
        subst hdep
        decide
      · simp only [mem_cons, not_mem_nil, or_false] at hdep
        subst hdep
        decide
    exact String.lt_irrefl id (hrank id id hcycle)

def failFirst : Transition := ⟨"a", .failed, {}, 1⟩

theorem chain_call_lawful_iff :
    Machine.Along step (fun db c => Hits db "r" c → Lawful (after db c) "r") chain [failFirst] ↔
      Machine.Along step
        (fun db c => Hits db "r" c → Contained db "r" c ∧ ¬EndsCancelled db "r" c)
        chain [failFirst] :=
  lawful_along_iff chain_created [failFirst]

/-- The last node of the chain stays queued behind a blocked one. -/
theorem chain_waits_behind_blocked : Created chain "r" ∧
    ¬Machine.Along step (fun db c => Hits db "r" c → Lawful (after db c) "r") chain
      [failFirst] := by
  refine ⟨chain_created, fun h => ?_⟩
  have hhit : Hits chain "r" failFirst := ⟨link "a" [], by simp [nodesOf_chain], rfl⟩
  have hlast : link "c" ["b"] ∈ nodesOf (after chain failFirst) "r" := by decide +kernel
  obtain ⟨blocked, hblocked, hid, hhalted⟩ : ∃ node ∈ nodesOf (after chain failFirst) "r",
      node.id = "b" ∧ node.status.isHalted = true := by decide +kernel
  apply (h.1 hhit).clear _ hlast rfl blocked hblocked hhalted
  rw [hid]
  exact TransGen.single ⟨link "c" ["b"], hlast, rfl, by simp [link]⟩

end ParallelEngine
