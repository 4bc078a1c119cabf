import FlowDeck.Orchestration.DeferredReplacement

namespace DeferredStatus

open DeferredReplacement Machine Table.Settles Option

variable {t t' : Replacements}

abbrev Settles (t t' : Replacements) : Prop :=
  Table.Settles isUnresolved ReplacementRow.parentSessionId t t'

abbrev SoleUnresolved (t : Replacements) : Prop :=
  Table.SoleLive isUnresolved ReplacementRow.parentSessionId t

abbrev KeepsResolved (t t' : Replacements) : Prop := Table.KeepsSettled isUnresolved t t'

theorem updateWhere_settles {p : ReplacementRow → Bool} (a : Assignment)
    (h : ∀ row, p row = true → isUnresolved row = true) : Settles t (updateWhere t p a) :=
  Table.settles_update t h a.apply_parentSessionId

theorem mark_settles {statuses : List ReplacementStatus} (h : statuses ⊆ unresolved) (id : String)
    (a : Assignment) : Settles t (mark t id statuses a).1 := by
  apply updateWhere_settles a
  intro row hrow
  have hstatus : row.status ∈ statuses := (by simpa [isRecord] using hrow : _ ∧ _).2
  simpa [isUnresolved] using h hstatus

theorem cancelCurrentForSession_settles (parentSessionId : String) (now : Nat) :
    Settles t (cancelCurrentForSession t parentSessionId now).1 := by
  apply updateWhere_settles
  intro row hrow
  have hstatus : row.status ∈ unresolved := (by simpa [isOfSession] using hrow : _ ∧ _).2
  simpa [isUnresolved] using hstatus

theorem quarantineCorruptActiveRow_settles (id : String) (now : Nat) :
    Settles t (quarantineCorruptActiveRow t id now) := by
  unfold quarantineCorruptActiveRow
  split_ifs
  · exact refl t
  · exact mark_settles (by decide) id _

theorem mapRow_settles (row : ReplacementRow) (now : Nat) : Settles t (mapRow t row now).1 := by
  unfold mapRow
  cases corruption row with
  | none => exact refl t
  | some reason => exact quarantineCorruptActiveRow_settles row.id now

theorem mapRows_settles (rows : List ReplacementRow) (now : Nat) :
    Settles t (mapRows t now rows).1 := by
  induction rows generalizing t with
  | nil => exact refl t
  | cons row rows ih => exact (mapRow_settles row now).trans ih

theorem mapFound_settles (found : Option ReplacementRow) (now : Nat) :
    Settles t (mapFound t now found).1 := by
  cases found with
  | none => exact refl t
  | some row => exact mapRow_settles row now

theorem reconcileHandoff_settles (dispatches : List HandoffDispatch) (now : Nat)
    (acc : Replacements × Recovered) (id : String) :
    Settles acc.1 (reconcileHandoff dispatches now acc id).1 := by
  obtain ⟨t, recovered⟩ := acc
  simp only [reconcileHandoff]
  split
  · exact mark_settles (by decide) id _
  · exact mark_settles (by decide) id _
  · exact mark_settles (by decide) id _
  · split_ifs
    · exact mark_settles (by decide) id _
    · exact refl t
  · exact refl t

theorem reconcileFastDirect_settles (dispatches : List HandoffDispatch) (now : Nat)
    (acc : Replacements × Recovered) (id : String) :
    Settles acc.1 (reconcileFastDirect dispatches now acc id).1 := by
  obtain ⟨t, recovered⟩ := acc
  simp only [reconcileFastDirect]
  split
  · exact mark_settles (by decide) id _
  · exact mark_settles (by decide) id _
  · exact mark_settles (by decide) id _

theorem reconcileCreated_settles (dispatches : List HandoffDispatch) (now : Nat) (runId : String)
    (acc : Replacements × Recovered) (id : String) :
    Settles acc.1 (reconcileCreated dispatches now runId acc id).1 := by
  obtain ⟨t, recovered⟩ := acc
  simp only [reconcileCreated]
  split
  · exact mark_settles (by decide) id _
  · exact mark_settles (by decide) id _
  · exact mark_settles (by decide) id _
  · exact mark_settles (by decide) id _

theorem reconcileResuming_settles (db : RunStore.Database) (dispatches : List HandoffDispatch)
    (runLookup : Option (String → Option String)) (now : Nat) (acc : Replacements × Recovered)
    (record : ReplacementRow) :
    Settles acc.1 (reconcileResuming db dispatches runLookup now acc record).1 := by
  unfold reconcileResuming
  split_ifs
  · exact reconcileFastDirect_settles dispatches now acc record.id
  · cases existingRunId db runLookup record.correlationId with
    | none => exact mark_settles (by decide) record.id _
    | some runId => exact reconcileCreated_settles dispatches now runId acc record.id

/-- A loop settles what each of its rounds does. -/
theorem foldl_settles {β : Type} {f : Replacements × Recovered → β → Replacements × Recovered}
    (h : ∀ acc b, Settles acc.1 (f acc b).1) (bs : List β) (acc : Replacements × Recovered) :
    Settles acc.1 (bs.foldl f acc).1 := by
  induction bs generalizing acc with
  | nil => exact refl acc.1
  | cons b bs ih => exact (h acc b).trans (ih (f acc b))

theorem reconcileAfterRestart_settles (db : RunStore.Database) (dispatches : List HandoffDispatch)
    (runLookup : Option (String → Option String)) (now : Nat) :
    Settles t (reconcileAfterRestart t db dispatches runLookup now).1 := by
  have hlisted : Settles t (listResuming t now).1 := mapRows_settles _ now
  have hhanded := foldl_settles (reconcileHandoff_settles dispatches now)
    (((listResuming t now).1.rows.filter fun row => row.status = .handoffPending).map (·.id))
    ((listResuming t now).1, { resumed := 0, pending := 0, outcomeUnknown := 0 })
  exact (hlisted.trans hhanded).trans
    (foldl_settles (reconcileResuming_settles db dispatches runLookup now) _ _)

/-- A new record is saved once the session's current ones have given way, or nothing changes. -/
theorem savePending_cases (uuid : String) (input : SavePendingInput) (now : Nat) :
    (∃ u, Settles t u ∧
        (∀ row ∈ u.rows, isUnresolved row = true → row.parentSessionId ≠ input.parentSessionId) ∧
        u.insert? (pendingRow ("def-" ++ uuid) input now) = some (savePending t uuid input now).1) ∨
      (savePending t uuid input now).1 = t := by
  unfold savePending
  simp only
  set superseding : Assignment :=
    { Assignment.of .superseded now with supersededById := fun _ => some ("def-" ++ uuid) }
  cases hinsert : (updateWhere t (isOfSession input.parentSessionId unresolved)
      superseding).insert? (pendingRow ("def-" ++ uuid) input now) with
  | none => exact Or.inr rfl
  | some saved =>
    refine Or.inl ⟨_, ?_, ?_, hinsert⟩
    · apply updateWhere_settles
      intro row hrow
      have hstatus : row.status ∈ unresolved := (by simpa [isOfSession] using hrow : _ ∧ _).2
      simpa [isUnresolved] using hstatus
    · intro row hrow hlive hsession
      have hsettle : ∀ row, isUnresolved (superseding.apply row) = false := by
        intro row
        rfl
      obtain ⟨-, hother⟩ := Table.live_ne_of_update hsettle hrow hlive
      have hstatus : row.status ∈ unresolved := by simpa [isUnresolved] using hlive
      simp [isOfSession, hsession, hstatus] at hother

theorem savePending_keepsResolved (uuid : String) (input : SavePendingInput) (now : Nat) :
    KeepsResolved t (savePending t uuid input now).1 := by
  rcases savePending_cases (t := t) uuid input now with ⟨u, hu, -, hinsert⟩ | hsame
  · exact hu.kept.trans (Table.keepsSettled_insert? hinsert)
  · rw [hsame]
    exact Table.KeepsSettled.refl t

theorem savePending_soleUnresolved (uuid : String) (input : SavePendingInput) (now : Nat)
    (h : SoleUnresolved t) : SoleUnresolved (savePending t uuid input now).1 := by
  rcases savePending_cases (t := t) uuid input now with ⟨u, hu, hfree, hinsert⟩ | hsame
  · exact Table.soleLive_insert? hinsert (hu.soleLive h) hfree
  · rw [hsame]
    exact h

/-- Only a new record makes a session's record current; every other call settles at most. -/
theorem step_cases {a : Action} (h : step t a = some t') :
    (∃ uuid input now, t' = (savePending t uuid input now).1) ∨ Settles t t' := by
  cases a with
  | savePending uuid input now => exact Or.inl ⟨uuid, input, now, (some.inj h).symm⟩
  | findCurrentForSession parentSessionId now =>
    exact Or.inr (some.inj h ▸ mapFound_settles _ now)
  | findById id now => exact Or.inr (some.inj h ▸ mapFound_settles _ now)
  | claimForResume id now => exact Or.inr (some.inj h ▸ mark_settles (by decide) id _)
  | markHandoffPending id runId now =>
    exact Or.inr (some.inj h ▸ mark_settles (by decide) id _)
  | markHandoffOutcomeUnknown id now =>
    exact Or.inr (some.inj h ▸ mark_settles (by decide) id _)
  | markResumed id runId now => exact Or.inr (some.inj h ▸ mark_settles (by decide) id _)
  | markBlocked id now => exact Or.inr (some.inj h ▸ mark_settles (by decide) id _)
  | markSuperseded id supersededById now =>
    exact Or.inr (some.inj h ▸ mark_settles (List.Subset.refl _) id _)
  | markCancelled id now =>
    exact Or.inr (some.inj h ▸ mark_settles (List.Subset.refl _) id _)
  | cancelCurrentForSession parentSessionId now =>
    exact Or.inr (some.inj h ▸ cancelCurrentForSession_settles parentSessionId now)
  | listPendingReadyForResume dispatches now =>
    exact Or.inr (some.inj h ▸ mapRows_settles _ now)
  | reconcileAfterRestart db dispatches runLookup now =>
    exact Or.inr (some.inj h ▸ reconcileAfterRestart_settles db dispatches runLookup now)

theorem step_soleUnresolved {a : Action} (hsole : SoleUnresolved t) (h : step t a = some t') :
    SoleUnresolved t' := by
  rcases step_cases h with ⟨uuid, input, now, heq⟩ | hsettles
  · rw [heq]
    exact savePending_soleUnresolved uuid input now hsole
  · exact hsettles.soleLive hsole

theorem step_keepsResolved {a : Action} (h : step t a = some t') : KeepsResolved t t' := by
  rcases step_cases h with ⟨uuid, input, now, heq⟩ | hsettles
  · rw [heq]
    exact savePending_keepsResolved uuid input now
  · exact hsettles.kept

theorem run_keepsResolved {as : List Action} (h : run step t as = some t') :
    KeepsResolved t t' := by
  apply Along.relates (fun _ => Table.KeepsSettled.refl _) (fun _ _ _ => Table.KeepsSettled.trans) _ h
  exact Along.of_forall fun _ _ _ => step_keepsResolved

/-- The records of a session that are yet to be resolved. -/
def unresolvedOf (t : Replacements) (parentSessionId : String) : List ReplacementRow :=
  t.rows.filter fun row => decide (row.parentSessionId = parentSessionId) && isUnresolved row

/-- In every run: a session has one unresolved record at most, and a record that was resumed,
superseded or cancelled stays as it is through whatever follows. -/
theorem unresolved_alone_and_resolved_final {as bs : List Action} {s : Replacements}
    (hs : run step Table.empty as = some s) (ht : run step s bs = some t) :
    (∀ parentSessionId, (unresolvedOf s parentSessionId).length ≤ 1) ∧
      ∀ id row, s.get? id = some row →
        row.status = .resumed ∨ row.status = .superseded ∨ row.status = .cancelled →
        t.get? id = some row := by
  constructor
  · intro parentSessionId
    have hempty : SoleUnresolved Table.empty := by
      intro row hrow
      cases hrow
    have hsole : SoleUnresolved s :=
      run_invariant (fun _ _ _ => step_soleUnresolved) hempty hs
    exact hsole.length_filter_le parentSessionId
  · intro id row hrow hresolved
    have hsettled : isUnresolved row = false := by
      rcases hresolved with h | h | h
      · simp [isUnresolved, unresolved, h]
      · simp [isUnresolved, unresolved, h]
      · simp [isUnresolved, unresolved, h]
    exact Table.get?_of_keepsSettled (run_keepsResolved ht) hrow hsettled

def request : SavePendingInput where
  parentSessionId := "session"
  oldRunId := "run"
  sourceIntent := .replace
  agentId := "agent"
  effectiveGoal := "goal"
  messageHash := "hash"
  messageId := "message"
  correlationId := "correlation"
  routingDecision := {
    executionClass := "FAST_DIRECT"
    reason := "typo"
    reasonCode := "TYPO"
    confidence := some 1
    forcedByExplicitSignal := false }

def replacedThenResumed : List Action :=
  [.savePending "a" request 1, .savePending "b" request 2, .claimForResume "def-b" 3,
    .markResumed "def-b" none 4]

def later : List Action :=
  [.markSuperseded "def-b" "def-c" 5, .cancelCurrentForSession "session" 6,
    .savePending "c" request 7]

theorem resumed_final :
    ∃ s t row, run step Table.empty replacedThenResumed = some s ∧ run step s later = some t ∧
      s.get? "def-b" = some row ∧ row.status = .resumed ∧ t.get? "def-b" = some row := by
  have hrow : (run step Table.empty replacedThenResumed).any (fun s =>
      (s.get? "def-b").any fun row => decide (row.status = .resumed)) = true := by decide +kernel
  obtain ⟨s, hs, hfound⟩ := (any_eq_true _ _).mp hrow
  obtain ⟨row, hb, hresumed⟩ := (any_eq_true _ _).mp hfound
  have hstatus : row.status = .resumed := of_decide_eq_true hresumed
  have ht : run step s later = some _ := rfl
  have hfinal := (unresolved_alone_and_resolved_final hs ht).2 "def-b" row hb (Or.inl hstatus)
  exact ⟨s, _, row, hs, ht, hb, hstatus, hfinal⟩

end DeferredStatus
