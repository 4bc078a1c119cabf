import FlowDeck.Commands.CommandExecutor

namespace Commands

open CommandSecurity

/-- The calls that an error in their work sends to a `catch` block. -/
inductive Guarded : Call → Origin → CommandInvocation → Prop
  | compiling (r : Request) (i : CommandInvocation) : Guarded (.compiling r i) (.fresh r) i
  | working (origin : Origin) (d : CommandDefinition) (i : CommandInvocation) (stage : Stage) :
    Guarded (.working origin d i stage) origin i
  | loading (i : CommandInvocation) : Guarded (.loading i) .recovery i

/-- What a call can do in one step. -/
inductive Move (rt : Runtime) (s : CommandState) : Event → Call → Write → Call → Prop
  | refused {r : Request} {uuid : String} {e : CommandSecurityException}
      (hsecurity : enforceCommandSecurity r.input = .error e) :
      Move rt s (.insert uuid) (.inserting r) .nothing
        (.submitted r (.threw (.other none e.message)))
  | inserted {r : Request} {uuid : String} :
      Move rt s (.insert uuid) (.inserting r) (.save (newInvocation rt r uuid))
        (.compiling r (newInvocation rt r uuid))
  | clashed {r : Request} {uuid : String}
      (hrefused : saveInvocation s.invocations (newInvocation rt r uuid) = none) :
      Move rt s (.insert uuid) (.inserting r) .nothing (.rereading r (newInvocation rt r uuid))
  | reread {r : Request} {i : CommandInvocation} :
      Move rt s .reread (.rereading r i) .nothing (rereadKey rt s r i)
  | raced {r : Request} : Move rt s .reread (.racing r) .nothing (raceExisting rt s r)
  | compiled {r : Request} {i running : CommandInvocation} {taskRunId : String}
      (hrunning : running.status = .running) (hidentity : running.identity = i.identity) :
      Move rt s (.compiled taskRunId) (.compiling r i) (.save running)
        (.working (.fresh r) r.definition running .binding)
  | bound {r : Request} {d : CommandDefinition} {i : CommandInvocation} :
      Move rt s .bound (.working (.fresh r) d i .binding) .nothing
        (.working (.fresh r) d i .scheduling)
  | rebound {d : CommandDefinition} {i : CommandInvocation} :
      Move rt s .bound (.working .recovery d i .binding) (.save (withStatus i .running))
        (.working .recovery d (withStatus i .running) .entering)
  | entered {origin : Origin} {d : CommandDefinition} {i : CommandInvocation} :
      Move rt s .enter (.working origin d i .entering) .nothing (.working origin d i .scheduling)
  | dispatched {origin : Origin} {d : CommandDefinition} {i : CommandInvocation}
      {failedOrBlocked : Bool} :
      Move rt s (.scheduled failedOrBlocked) (.working origin d i .scheduling) .nothing
        (.working origin d i .dispatched)
  | verifying {origin : Origin} {d : CommandDefinition} {i : CommandInvocation} :
      Move rt s .verify (.working origin d i .dispatched) (.save (withStatus i .verifying))
        (.working origin d (withStatus i .verifying) .verifying)
  | completed {origin : Origin} {d : CommandDefinition} {i : CommandInvocation} {stage : Stage}
      (answer : Answer) :
      Move rt s .complete (.working origin d i stage) (.save (withStatus i .completed))
        (origin.finish i.invocationId answer)
  | stopped {e : Event} {call : Call} {origin : Origin} {i : CommandInvocation} (answer : Answer)
      (hguarded : Guarded call origin i) :
      Move rt s e call .nothing (origin.finish i.invocationId answer)
  | failed {e : Event} {call : Call} {origin : Origin} {i : CommandInvocation} (answer : Answer)
      (failure : Failure) (hguarded : Guarded call origin i) :
      Move rt s e call (.save (failedInvocation i failure)) (origin.finish i.invocationId answer)
  | gaveUp {failure : Failure} {i : CommandInvocation} {reason : String} :
      Move rt s (.throws failure) (.cancelling i reason) .nothing (.ended (.threw failure))
  | deferred {busy : Bool} {i : CommandInvocation} :
      Move rt s (.acquire busy) (.claiming i) .nothing (.awaiting i)
  | acquired {busy : Bool} {i : CommandInvocation} (hbusy : busy = false)
      (hlive : claimLive s.claims s.now i.invocationId = false) :
      Move rt s (.acquire busy) (.claiming i) (.acquire i.invocationId) (.loading i)
  | polled {last : Bool} {i : CommandInvocation} {next : Call}
      (hnext : next = .awaiting i ∨ ∃ answer, next = .ended answer) :
      Move rt s (.poll last) (.awaiting i) .nothing next
  | resumed {d : CommandDefinition} {i : CommandInvocation} {run : Option String}
      {plan : Option (String × String)} :
      Move rt s (.load run plan) (.loading i) .nothing (.working .recovery d i .binding)
  | replanned {d : CommandDefinition} {i replan : CommandInvocation} {run : Option String}
      {plan : Option (String × String)} (hstatus : replan.status = i.status)
      (hidentity : replan.identity = i.identity) :
      Move rt s (.load run plan) (.loading i) (.save replan) (.working .recovery d replan .binding)
  | released {invocationId : String} {answer : Answer} :
      Move rt s .release (.releasing invocationId answer) (.release invocationId) (.ended answer)
  | cancelled {i cancelled : CommandInvocation} {reason : String} (answer : Answer)
      (hstatus : cancelled.status = .cancelled) (hidentity : cancelled.identity = i.identity) :
      Move rt s .cancel (.cancelling i reason) (.save cancelled) (.ended answer)

section Moves

variable {rt : Runtime} {s : CommandState}

variable {e : Event} {i : CommandInvocation}

/-- A `catch` block ends the call, with or without a save. -/
theorem caught_move {call : Call} {origin : Origin} {copy : CommandInvocation}
    (hguarded : Guarded call origin i) (hcopy : copy.identity = i.identity)
    (hsame : copy.status ≠ .cancelled → copy = i) (failure : Failure) :
    Move rt s e call (caught origin copy failure).1 (caught origin copy failure).2 := by
  have hid : copy.invocationId = i.invocationId := congrArg Identity.invocationId hcopy
  have hstop : ∀ answer, Move rt s e call .nothing (origin.finish copy.invocationId answer) := by
    intro answer
    rw [hid]
    exact .stopped answer hguarded
  unfold caught
  split
  · exact hstop _
  · split_ifs with hcancelled
    · exact hstop _
    · rw [hsame hcancelled]
      exact .failed _ failure hguarded

theorem insertPending_move {r : Request} {uuid : String} :
    Move rt s (.insert uuid) (.inserting r) (insertPending rt s r uuid).1
      (insertPending rt s r uuid).2 := by
  unfold insertPending
  split
  · rename_i e he
    exact .refused he
  · split
    · exact .inserted
    · rename_i hrefused
      exact .clashed hrefused

theorem resumePoint_move {run : Option String} {plan : Option (String × String)} :
    Move rt s (.load run plan) (.loading i) (resumePoint rt i run plan).1
      (resumePoint rt i run plan).2 := by
  have hcaught : ∀ failure, Move rt s (.load run plan) (.loading i) (caught .recovery i failure).1
      (caught .recovery i failure).2 := by
    intro failure
    exact caught_move (.loading i) rfl (fun _ => rfl) failure
  unfold resumePoint
  split
  · exact hcaught _
  · simp only
    generalize (if i.taskRunId.isSome then run else none) = run'
    generalize (if i.planId.isSome then plan else none) = plan'
    split
    · exact hcaught _
    · split_ifs
      · exact .resumed
      · exact hcaught _
      · exact .replanned rfl rfl

theorem afterSchedule_move {origin : Origin} {d : CommandDefinition} {failedOrBlocked : Bool} :
    Move rt s (.scheduled failedOrBlocked) (.working origin d i .scheduling)
      (afterSchedule s origin d i failedOrBlocked).1
      (afterSchedule s origin d i failedOrBlocked).2 := by
  have hguarded : Guarded (.working origin d i .scheduling) origin i := .working origin d i _
  unfold afterSchedule
  split
  · split_ifs
    · refine caught_move hguarded ?_ ?_ _
      · rfl
      · intro hne
        exact absurd rfl hne
    · exact caught_move hguarded rfl (fun _ => rfl) _
    · exact .dispatched
  · split_ifs
    · exact caught_move hguarded rfl (fun _ => rfl) _
    · exact .dispatched

theorem awaitConcurrentRecovery_cases (i : CommandInvocation) (last : Bool) :
    awaitConcurrentRecovery s i last = .awaiting i ∨
      ∃ answer, awaitConcurrentRecovery s i last = .ended answer := by
  unfold awaitConcurrentRecovery
  split
  · split_ifs
    · exact Or.inr ⟨_, rfl⟩
    · exact Or.inr ⟨_, rfl⟩
    · exact Or.inl rfl
  · split_ifs
    · exact Or.inr ⟨_, rfl⟩
    · exact Or.inl rfl

theorem advance_move {call next : Call} {w : Write} (h : advance rt s e call = some (w, next)) :
    Move rt s e call w next := by
  have hpair : ∀ p : Write × Call, some p = some (w, next) → p.1 = w ∧ p.2 = next := by
    intro p hp
    rw [Option.some.inj hp]
    exact ⟨rfl, rfl⟩
  unfold advance at h
  split at h
  · obtain ⟨rfl, rfl⟩ := hpair _ h
    exact insertPending_move
  · obtain ⟨rfl, rfl⟩ := hpair _ h
    exact .reread
  · obtain ⟨rfl, rfl⟩ := hpair _ h
    exact .raced
  · obtain ⟨rfl, rfl⟩ := hpair _ h
    exact .compiled rfl rfl
  · obtain ⟨rfl, rfl⟩ := hpair _ h
    exact .bound
  · obtain ⟨rfl, rfl⟩ := hpair _ h
    exact .rebound
  · obtain ⟨rfl, rfl⟩ := hpair _ h
    exact .entered
  · obtain ⟨rfl, rfl⟩ := hpair _ h
    exact afterSchedule_move
  · split_ifs at h
    obtain ⟨rfl, rfl⟩ := hpair _ h
    exact .verifying
  · split_ifs at h
    obtain ⟨rfl, rfl⟩ := hpair _ h
    exact .completed _
  · obtain ⟨rfl, rfl⟩ := hpair _ h
    exact caught_move (.compiling _ _) rfl (fun _ => rfl) _
  · obtain ⟨rfl, rfl⟩ := hpair _ h
    exact caught_move (.working _ _ _ _) rfl (fun _ => rfl) _
  · obtain ⟨rfl, rfl⟩ := hpair _ h
    exact caught_move (.loading _) rfl (fun _ => rfl) _
  · obtain ⟨rfl, rfl⟩ := hpair _ h
    exact .gaveUp
  · split_ifs at h with hbusy
    · obtain ⟨rfl, rfl⟩ := hpair _ h
      exact .deferred
    · obtain ⟨rfl, rfl⟩ := hpair _ h
      rw [Bool.or_eq_true, not_or, Bool.not_eq_true, Bool.not_eq_true] at hbusy
      exact .acquired hbusy.1 hbusy.2
  · obtain ⟨rfl, rfl⟩ := hpair _ h
    exact .polled (awaitConcurrentRecovery_cases _ _)
  · obtain ⟨rfl, rfl⟩ := hpair _ h
    exact resumePoint_move
  · obtain ⟨rfl, rfl⟩ := hpair _ h
    exact .released
  · obtain ⟨rfl, rfl⟩ := hpair _ h
    exact .cancelled _ rfl rfl
  · cases h

end Moves

theorem step_event {rt : Runtime} {s t : CommandState} {caller : Nat} {e : Event}
    (h : step rt s (.event caller e) = some t) :
    ∃ call w next drawn written, s.calls caller = some call ∧
      advance rt s e call = some (w, next) ∧ s.draw e = some drawn ∧
        drawn.write caller w = some written ∧ t = written.setCall caller next := by
  simp only [step] at h
  split at h
  · cases h
  · rename_i call hcall
    split at h
    · cases h
    · rename_i w next hadvance
      obtain ⟨drawn, hdrawn, hwritten⟩ := Option.bind_eq_some_iff.mp h
      obtain ⟨written, hwrite, ht⟩ := Option.map_eq_some_iff.mp hwritten
      exact ⟨call, w, next, drawn, written, hcall, hadvance, hdrawn, hwrite, ht.symm⟩

end Commands
