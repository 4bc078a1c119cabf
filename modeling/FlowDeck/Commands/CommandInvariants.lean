import FlowDeck.Commands.CommandMoves

namespace Commands

open Machine Option

/-- The copy of the row that a call under way has. -/
def Call.copy : Call → Option CommandInvocation
  | .compiling _ i | .working _ _ i _ | .claiming i | .awaiting i | .loading i | .cancelling i _ =>
    some i
  | _ => none

/-- The table has a row of this identity. -/
def Known (t : Invocations) (x : Identity) : Prop := x ∈ t.rows.map CommandInvocation.identity

section Tables

variable {t t' : Invocations} {i : CommandInvocation} {x : Identity}

theorem Known.row (h : Known t x) : ∃ row ∈ t.rows, row.identity = x := List.mem_map.mp h

theorem known_of_mem {row : CommandInvocation} (h : row ∈ t.rows) : Known t row.identity :=
  List.mem_map_of_mem h

theorem Known.get? (h : Known t i.identity) : ∃ row, t.get? i.invocationId = some row := by
  obtain ⟨row, hrow, hsame⟩ := h.row
  have hid : row.invocationId = i.invocationId := congrArg Identity.invocationId hsame
  exact ⟨row, hid ▸ Table.get?_of_mem hrow⟩

theorem Known.save (h : Known t x) (hsave : saveInvocation t i = some t') : Known t' x := by
  unfold Known
  rcases identities_saveInvocation hsave with hsame | ⟨_, _, hadded⟩
  · rw [hsame]
    exact h
  · rw [hadded]
    exact List.mem_append_left _ h

theorem known_self (h : t.get? i.invocationId = none) (hsave : saveInvocation t i = some t') :
    Known t' i.identity := by
  unfold Known
  rcases saveInvocation_cases hsave with ⟨_, _, hrows⟩ | ⟨row, hrow, _⟩
  · rw [hrows, List.map_append]
    exact List.mem_append_right _ (List.mem_singleton_self _)
  · rw [h] at hrow
    cases hrow

end Tables

section Writes

variable {s t : CommandState} {caller : Nat} {w : Write}

theorem write_calls (h : s.write caller w = some t) : t.calls = s.calls := by
  cases w with
  | nothing => rw [← some.inj h]
  | save i =>
    obtain ⟨_, _, ht⟩ := map_eq_some_iff.mp h
    rw [← ht]
  | acquire invocationId =>
    obtain ⟨_, _, ht⟩ := map_eq_some_iff.mp h
    rw [← ht]
  | release invocationId => rw [← some.inj h]

theorem write_drawn (h : s.write caller w = some t) : t.drawn = s.drawn := by
  cases w with
  | nothing => rw [← some.inj h]
  | save i =>
    obtain ⟨_, _, ht⟩ := map_eq_some_iff.mp h
    rw [← ht]
  | acquire invocationId =>
    obtain ⟨_, _, ht⟩ := map_eq_some_iff.mp h
    rw [← ht]
  | release invocationId => rw [← some.inj h]

theorem write_invocations (h : s.write caller w = some t) :
    (∃ i, w = .save i ∧ saveInvocation s.invocations i = some t.invocations) ∨
      (∀ i, w ≠ .save i) ∧ t.invocations = s.invocations := by
  cases w with
  | nothing =>
    rw [← some.inj h]
    exact Or.inr ⟨fun _ => Write.noConfusion, rfl⟩
  | save i =>
    obtain ⟨invocations, hsave, ht⟩ := map_eq_some_iff.mp h
    rw [← ht]
    exact Or.inl ⟨i, rfl, hsave⟩
  | acquire invocationId =>
    obtain ⟨_, _, ht⟩ := map_eq_some_iff.mp h
    rw [← ht]
    exact Or.inr ⟨fun _ => Write.noConfusion, rfl⟩
  | release invocationId =>
    rw [← some.inj h]
    exact Or.inr ⟨fun _ => Write.noConfusion, rfl⟩

theorem draw_cases {e : Event} (h : s.draw e = some t) :
    (∃ uuid, e = .insert uuid ∧ uuid ∉ s.drawn ∧ t = { s with drawn := uuid :: s.drawn }) ∨
      (∀ uuid, e ≠ .insert uuid) ∧ t = s := by
  cases e with
  | insert uuid =>
    simp only [CommandState.draw] at h
    split_ifs at h with hfresh
    exact Or.inl ⟨uuid, rfl, hfresh, (some.inj h).symm⟩
  | reread | compiled taskRunId | bound | enter | scheduled failedOrBlocked | verify | complete
  | throws failure | acquire busy | poll last | load run plan | release | cancel =>
    exact Or.inr ⟨fun _ => Event.noConfusion, (some.inj h).symm⟩

end Writes

section Moves

variable {rt : Runtime} {s : CommandState} {e : Event} {call next : Call} {w : Write}

theorem copy_finish (origin : Origin) (invocationId : String) (answer : Answer) :
    (origin.finish invocationId answer).copy = none := by
  cases origin <;> rfl

theorem Guarded.copy {origin : Origin} {i : CommandInvocation} (h : Guarded call origin i) :
    call.copy = some i := by
  cases h with
  | compiling | working | loading => rfl

theorem copy_rereadKey (r : Request) (i : CommandInvocation) : (rereadKey rt s r i).copy = none := by
  unfold rereadKey
  split
  · split_ifs <;> rfl
  · rfl

theorem copy_raceExisting (r : Request) : (raceExisting rt s r).copy = none := by
  unfold raceExisting
  split
  · split_ifs <;> rfl
  · rfl

theorem Move.save {i : CommandInvocation} (h : Move rt s e call (.save i) next) :
    (∃ copy, call.copy = some copy ∧ i.identity = copy.identity) ∨
      ∃ r uuid, e = .insert uuid ∧ call = .inserting r ∧ i = newInvocation rt r uuid := by
  cases h with
  | inserted => exact Or.inr ⟨_, _, rfl, rfl, rfl⟩
  | compiled _ hidentity => exact Or.inl ⟨_, rfl, hidentity⟩
  | rebound => exact Or.inl ⟨_, rfl, rfl⟩
  | verifying => exact Or.inl ⟨_, rfl, rfl⟩
  | completed => exact Or.inl ⟨_, rfl, rfl⟩
  | failed _ failure hguarded => exact Or.inl ⟨_, hguarded.copy, rfl⟩
  | replanned _ hidentity => exact Or.inl ⟨_, rfl, hidentity⟩
  | cancelled _ _ hidentity => exact Or.inl ⟨_, rfl, hidentity⟩

/-- The copy that a call goes on with is its own, and no more ended than it was. -/
theorem Move.copy {i : CommandInvocation} (h : Move rt s e call w next)
    (hcopy : next.copy = some i) :
    (∃ copy, call.copy = some copy ∧ i.identity = copy.identity ∧
      (copy.status.isTerminal = false → i.status.isTerminal = false)) ∨
    ∃ r uuid, e = .insert uuid ∧ call = .inserting r ∧ i = newInvocation rt r uuid ∧ w = .save i := by
  cases h with
  | refused | clashed | gaveUp | released | cancelled => cases hcopy
  | inserted =>
    obtain rfl := some.inj hcopy
    exact Or.inr ⟨_, _, rfl, rfl, rfl, rfl⟩
  | reread =>
    rw [copy_rereadKey] at hcopy
    cases hcopy
  | raced =>
    rw [copy_raceExisting] at hcopy
    cases hcopy
  | compiled hrunning hidentity =>
    obtain rfl := some.inj hcopy
    refine Or.inl ⟨_, rfl, hidentity, ?_⟩
    intro _
    rw [hrunning]
    rfl
  | rebound | verifying =>
    obtain rfl := some.inj hcopy
    exact Or.inl ⟨_, rfl, rfl, fun _ => rfl⟩
  | bound | entered | dispatched | deferred | acquired | resumed =>
    obtain rfl := some.inj hcopy
    exact Or.inl ⟨_, rfl, rfl, id⟩
  | completed | stopped | failed =>
    rw [copy_finish] at hcopy
    cases hcopy
  | polled hnext =>
    rcases hnext with hnext | ⟨answer, hnext⟩
    · rw [hnext] at hcopy
      exact Or.inl ⟨_, rfl, by rw [some.inj hcopy], by rw [some.inj hcopy]; exact id⟩
    · rw [hnext] at hcopy
      cases hcopy
  | replanned hstatus hidentity =>
    obtain rfl := some.inj hcopy
    refine Or.inl ⟨_, rfl, hidentity, ?_⟩
    intro hcopy
    rw [hstatus]
    exact hcopy

end Moves

/-- What holds of the table and of the calls' copies in every state that can be reached. -/
structure Coherent (s : CommandState) : Prop where
  drawn : ∀ x, Known s.invocations x → ∃ uuid ∈ s.drawn, x.invocationId = "inv_" ++ uuid
  keys : (s.invocations.rows.map fun row => row.idempotencyKey).Nodup
  copies : ∀ c call i, s.calls c = some call → call.copy = some i →
    i.status.isTerminal = false ∧ Known s.invocations i.identity

theorem coherent_initial : Coherent initial := by
  constructor
  · intro x hx
    exact absurd hx List.not_mem_nil
  · exact List.nodup_nil
  · intro c call i hcall
    cases hcall

section Starts

variable {rt : Runtime} {s : CommandState}

theorem copy_executeCommand (commandIdOrAlias : String) (version : Option Nat) (key : String)
    (input : Json) : (executeCommand rt s commandIdOrAlias version key input).copy = none := by
  unfold executeCommand
  split
  · rfl
  · simp only
    split
    · rfl
    · split_ifs <;> rfl

theorem copy_cancelCommand {invocationId reason : String} {i : CommandInvocation}
    (h : (cancelCommand s invocationId reason).copy = some i) :
    i.status.isTerminal = false ∧ i ∈ s.invocations.rows := by
  unfold cancelCommand at h
  split at h
  · cases h
  · rename_i invocation hget
    split_ifs at h with hterminal
    · cases h
    · obtain rfl := some.inj h
      exact ⟨Bool.eq_false_iff.mpr hterminal, Table.mem_of_get? hget⟩

theorem copy_recoverCommand {invocationId : String} {i : CommandInvocation}
    (h : (recoverCommand s invocationId).copy = some i) :
    i.status.isTerminal = false ∧ i ∈ s.invocations.rows := by
  unfold recoverCommand at h
  split at h
  · cases h
  · rename_i invocation hget
    split_ifs at h with hterminal
    · cases h
    · obtain rfl := some.inj h
      exact ⟨Bool.eq_false_iff.mpr hterminal, Table.mem_of_get? hget⟩

theorem start_eq {t : CommandState} {caller : Nat} {call : Call}
    (h : s.start caller call = some t) : s.calls caller = none ∧ t = s.setCall caller call := by
  unfold CommandState.start at h
  split_ifs at h with hidle
  exact ⟨isNone_iff_eq_none.mp hidle, (some.inj h).symm⟩

theorem step_crash {t : CommandState} {caller : Nat} (h : step rt s (.crash caller) = some t) :
    ∃ call, s.calls caller = some call ∧ call.underWay = true ∧
      t = s.setCall caller (.crashed call) := by
  simp only [step] at h
  split at h
  · cases h
  · rename_i call hcall
    split_ifs at h with hway
    exact ⟨call, hcall, hway, (some.inj h).symm⟩

end Starts

section Steps

variable {rt : Runtime} {s t : CommandState}

theorem calls_setCall (caller c : Nat) (call : Call) :
    (s.setCall caller call).calls c = if c = caller then some call else s.calls c :=
  Function.update_apply s.calls caller (some call) c

theorem coherent_setCall (h : Coherent s) {caller : Nat} {call : Call}
    (hcall : ∀ i, call.copy = some i →
      i.status.isTerminal = false ∧ Known s.invocations i.identity) :
    Coherent (s.setCall caller call) := by
  refine ⟨h.drawn, h.keys, ?_⟩
  intro c call' i hc hcopy
  rw [calls_setCall] at hc
  split_ifs at hc
  · rw [← some.inj hc] at hcopy
    exact hcall i hcopy
  · exact h.copies c call' i hc hcopy

theorem Coherent.fresh (h : Coherent s) {r : Request} {uuid : String} (hfresh : uuid ∉ s.drawn) :
    s.invocations.get? (newInvocation rt r uuid).invocationId = none := by
  rw [Table.get?_eq_none_iff]
  intro row hrow hsame
  obtain ⟨other, hother, hid⟩ := h.drawn row.identity (known_of_mem hrow)
  have hprefix : "inv_" ++ other = "inv_" ++ uuid := hid.symm.trans hsame
  have hlist := congrArg String.toList hprefix
  rw [String.toList_append, String.toList_append] at hlist
  have hsame' : other = uuid := String.toList_inj.mp (List.append_cancel_left hlist)
  exact hfresh (hsame' ▸ hother)

theorem coherent_draw (h : Coherent s) {e : Event} (hdraw : s.draw e = some t) : Coherent t := by
  rcases draw_cases hdraw with ⟨uuid, _, _, ht⟩ | ⟨_, ht⟩
  · rw [ht]
    refine ⟨?_, h.keys, h.copies⟩
    intro x hx
    obtain ⟨other, hother, hid⟩ := h.drawn x hx
    exact ⟨other, List.mem_cons_of_mem _ hother, hid⟩
  · rw [ht]
    exact h

theorem coherent_save (h : Coherent s) {i : CommandInvocation}
    (hi : Known s.invocations i.identity ∨ ∃ uuid ∈ s.drawn, i.invocationId = "inv_" ++ uuid)
    (hsave : saveInvocation s.invocations i = some t.invocations) (hdrawn : t.drawn = s.drawn)
    (hcalls : t.calls = s.calls) : Coherent t := by
  have hkeys : ∀ rows : List CommandInvocation, rows.map (fun row => row.idempotencyKey) =
      (rows.map CommandInvocation.identity).map fun x => x.idempotencyKey := by
    intro rows
    rw [List.map_map]
    rfl
  refine ⟨?_, ?_, ?_⟩
  · intro x hx
    rw [hdrawn]
    unfold Known at hx
    rcases identities_saveInvocation hsave with hsame | ⟨hnone, _, hadded⟩
    · rw [hsame] at hx
      exact h.drawn x hx
    · rw [hadded] at hx
      rcases List.mem_append.mp hx with hold | hnew
      · exact h.drawn x hold
      · rw [List.mem_singleton.mp hnew]
        rcases hi with hknown | hid
        · exact h.drawn _ hknown
        · exact hid
  · rw [hkeys]
    rcases identities_saveInvocation hsave with hsame | ⟨_, hunused, hadded⟩
    · rw [hsame, ← hkeys]
      exact h.keys
    · rw [hadded, List.map_append, ← hkeys, List.nodup_append]
      refine ⟨h.keys, List.nodup_singleton _, ?_⟩
      intro key hkey key' hkey' hsame
      obtain ⟨row, hrow, hrowkey⟩ := List.mem_map.mp hkey
      rw [List.map_singleton, List.mem_singleton] at hkey'
      exact hunused row hrow (hrowkey.trans (hsame.trans hkey'))
  · intro c call copy hcall hcopy
    rw [hcalls] at hcall
    obtain ⟨hstatus, hknown⟩ := h.copies c call copy hcall hcopy
    exact ⟨hstatus, hknown.save hsave⟩

theorem step_coherent {a : Action} (h : Coherent s) (hstep : step rt s a = some t) :
    Coherent t := by
  cases a with
  | executeCommand caller commandIdOrAlias version key input =>
    obtain ⟨_, ht⟩ := start_eq hstep
    rw [ht]
    apply coherent_setCall h
    intro i hcopy
    rw [copy_executeCommand] at hcopy
    cases hcopy
  | cancelCommand caller invocationId reason =>
    obtain ⟨_, ht⟩ := start_eq hstep
    rw [ht]
    apply coherent_setCall h
    intro i hcopy
    obtain ⟨hstatus, hrow⟩ := copy_cancelCommand hcopy
    exact ⟨hstatus, known_of_mem hrow⟩
  | recoverCommand caller invocationId =>
    obtain ⟨_, ht⟩ := start_eq hstep
    rw [ht]
    apply coherent_setCall h
    intro i hcopy
    obtain ⟨hstatus, hrow⟩ := copy_recoverCommand hcopy
    exact ⟨hstatus, known_of_mem hrow⟩
  | event caller e =>
    obtain ⟨call, w, next, drawn, written, hcall, hadvance, hdraw, hwrite, ht⟩ := step_event hstep
    have hmove := advance_move hadvance
    have hdrawn : Coherent drawn := coherent_draw h hdraw
    have hinvocations : drawn.invocations = s.invocations ∧ drawn.calls = s.calls := by
      rcases draw_cases hdraw with ⟨_, _, _, hd⟩ | ⟨_, hd⟩
      · rw [hd]
        exact ⟨rfl, rfl⟩
      · rw [hd]
        exact ⟨rfl, rfl⟩
    have hcopy : ∀ copy, call.copy = some copy →
        copy.status.isTerminal = false ∧ Known drawn.invocations copy.identity := by
      intro copy hc
      rw [hinvocations.1]
      exact h.copies caller call copy hcall hc
    have hinsert : ∀ r uuid, e = .insert uuid → uuid ∈ drawn.drawn ∧
        drawn.invocations.get? (newInvocation rt r uuid).invocationId = none := by
      intro r uuid he
      rcases draw_cases hdraw with ⟨uuid', he', hfresh, hd⟩ | ⟨hne, _⟩
      · obtain rfl : uuid' = uuid := Event.insert.inj (he'.symm.trans he)
        rw [hinvocations.1, hd]
        exact ⟨List.mem_cons_self, h.fresh hfresh⟩
      · exact absurd he (hne uuid)
    have hsource : ∀ i, w = .save i → Known drawn.invocations i.identity ∨
        ∃ uuid ∈ drawn.drawn, i.invocationId = "inv_" ++ uuid := by
      intro i hw
      rw [hw] at hmove
      rcases hmove.save with ⟨copy, hc, hidentity⟩ | ⟨r, uuid, he, _, hi⟩
      · rw [hidentity]
        exact Or.inl (hcopy copy hc).2
      · rw [hi]
        exact Or.inr ⟨uuid, (hinsert r uuid he).1, rfl⟩
    have hkept : ∀ x, Known drawn.invocations x → Known written.invocations x := by
      intro x hx
      rcases write_invocations hwrite with ⟨i, _, hsave⟩ | ⟨_, hsame⟩
      · exact hx.save hsave
      · rw [hsame]
        exact hx
    have hwritten : Coherent written := by
      rcases write_invocations hwrite with ⟨i, hw, hsave⟩ | ⟨_, hsame⟩
      · exact coherent_save hdrawn (hsource i hw) hsave (write_drawn hwrite) (write_calls hwrite)
      · refine ⟨?_, ?_, ?_⟩
        · rw [hsame, write_drawn hwrite]
          exact hdrawn.drawn
        · rw [hsame]
          exact hdrawn.keys
        · rw [hsame, write_calls hwrite]
          exact hdrawn.copies
    rw [ht]
    apply coherent_setCall hwritten
    intro i hi
    rcases hmove.copy hi with ⟨copy, hc, hidentity, hstatus⟩ | ⟨r, uuid, he, _, hnew, hw⟩
    · obtain ⟨hterminal, hknown⟩ := hcopy copy hc
      rw [hidentity]
      exact ⟨hstatus hterminal, hkept _ hknown⟩
    · rw [hnew]
      rw [hnew] at hw
      refine ⟨rfl, ?_⟩
      rcases write_invocations hwrite with ⟨i', hw', hsave⟩ | ⟨hne, _⟩
      · obtain rfl : i' = newInvocation rt r uuid := Write.save.inj (hw'.symm.trans hw)
        exact known_self (hinsert r uuid he).2 hsave
      · exact absurd hw (hne _)
  | crash caller =>
    obtain ⟨call, _, _, ht⟩ := step_crash hstep
    rw [ht]
    apply coherent_setCall h
    intro i hcopy
    cases hcopy
  | clock now =>
    rw [← some.inj hstep]
    exact ⟨h.drawn, h.keys, h.copies⟩

def Action.caller? : Action → Option Nat
  | .executeCommand caller _ _ _ _ | .cancelCommand caller _ _ | .recoverCommand caller _
  | .event caller _ | .crash caller => some caller
  | .clock _ => none

theorem step_calls_of_ne {a : Action} {c : Nat} (hne : a.caller? ≠ some c)
    (hstep : step rt s a = some t) : t.calls c = s.calls c := by
  have hset : ∀ (u : CommandState) caller call, some caller ≠ some c →
      (u.setCall caller call).calls c = u.calls c := by
    intro u caller call hother
    rw [calls_setCall, if_neg fun hsame => hother (congrArg some hsame.symm)]
  cases a with
  | executeCommand caller commandIdOrAlias version key input =>
    rw [(start_eq hstep).2, hset _ _ _ hne]
  | cancelCommand caller invocationId reason => rw [(start_eq hstep).2, hset _ _ _ hne]
  | recoverCommand caller invocationId => rw [(start_eq hstep).2, hset _ _ _ hne]
  | event caller e =>
    obtain ⟨_, _, _, drawn, written, _, _, hdraw, hwrite, ht⟩ := step_event hstep
    rw [ht, hset _ _ _ hne, write_calls hwrite]
    rcases draw_cases hdraw with ⟨_, _, _, hd⟩ | ⟨_, hd⟩
    · rw [hd]
    · rw [hd]
  | crash caller =>
    obtain ⟨_, _, _, ht⟩ := step_crash hstep
    rw [ht, hset _ _ _ hne]
  | clock now => rw [← some.inj hstep]

theorem calls_of_run {as : List Action} {c : Nat} (hall : ∀ a ∈ as, a.caller? ≠ some c)
    (hr : run (step rt) initial as = some t) : t.calls c = none := by
  have hguard : Along (step rt) (fun _ a => a.caller? ≠ some c) initial as := Along.of_mem hall
  exact hguard.invariant (I := fun s => s.calls c = none)
    (fun _ _ _ hnone hne hstep => (step_calls_of_ne hne hstep).trans hnone) rfl hr

end Steps

end Commands
