import FlowDeck.Orchestration.VerificationService

/-! When the result of a verification is final. -/

namespace VerificationService

open Machine RunStore Option

def ResultRow.IsFinal (row : ResultRow) : Prop :=
  row.status = VerificationStatus.passed.text ∨ row.status = VerificationStatus.failed.text ∨
    row.isStale = 1

instance (row : ResultRow) : Decidable row.IsFinal :=
  inferInstanceAs (Decidable (_ ∨ _ ∨ _))

/-- A later row says the same: its verdict, the text of it and the evidence for it, and it does not
come back from being stale. -/
structure KeepsResult (row later : ResultRow) : Prop where
  status : later.status = row.status
  result : later.outputSummary = row.outputSummary
  evidence : later.evidence = row.evidence
  stale : row.isStale = 1 → later.isStale = 1

theorem KeepsResult.refl (row : ResultRow) : KeepsResult row row := ⟨rfl, rfl, rfl, id⟩

theorem KeepsResult.trans {row later last : ResultRow} (h : KeepsResult row later)
    (h' : KeepsResult later last) : KeepsResult row last where
  status := h'.status.trans h.status
  result := h'.result.trans h.result
  evidence := h'.evidence.trans h.evidence
  stale hstale := h'.stale (h.stale hstale)

theorem KeepsResult.isFinal {row later : ResultRow} (h : KeepsResult row later)
    (hfinal : row.IsFinal) : later.IsFinal := by
  rcases hfinal with hpassed | hfailed | hstale
  · exact .inl (h.status.trans hpassed)
  · exact .inr (.inl (h.status.trans hfailed))
  · exact .inr (.inr (h.stale hstale))

def FinalKept (results later : Results) : Prop :=
  ∀ id row, results.get? id = some row → row.IsFinal →
    ∃ row', later.get? id = some row' ∧ KeepsResult row row'

theorem FinalKept.refl (results : Results) : FinalKept results results := by
  intro id row hrow _
  exact ⟨row, hrow, .refl row⟩

theorem FinalKept.trans {results later last : Results} (h : FinalKept results later)
    (h' : FinalKept later last) : FinalKept results last := by
  intro id row hrow hfinal
  obtain ⟨row', hrow', hkept⟩ := h id row hrow hfinal
  obtain ⟨row'', hrow'', hkept'⟩ := h' id row' hrow' (hkept.isFinal hfinal)
  exact ⟨row'', hrow'', hkept.trans hkept'⟩

/-- The update says of the row what it says itself. -/
structure Repeats (row : ResultRow) (input : VerificationUpdate) : Prop where
  status : ∀ status ∈ input.status, status.text = row.status
  result : ∀ result ∈ input.result, row.outputSummary = some result
  evidence : ∀ ids ∈ input.evidenceIds, row.evidence = stored ids
  stale : row.isStale = 1 → input.isStale ≠ some false

theorem keepsResult_iff {row : ResultRow} {input : VerificationUpdate} {now : String} :
    KeepsResult row (input.row now row) ↔ Repeats row input := by
  have hstatus : ((input.status.map (·.text)).getD row.status = row.status) ↔
      ∀ status ∈ input.status, status.text = row.status := by
    cases input.status with
    | none => simp
    | some status => simp
  have hresult : (input.result.or row.outputSummary = row.outputSummary) ↔
      ∀ result ∈ input.result, row.outputSummary = some result := by
    cases input.result with
    | none => simp
    | some result => simp [eq_comm]
  have hevidence : ((input.evidenceIds.map stored).getD row.evidence = row.evidence) ↔
      ∀ ids ∈ input.evidenceIds, row.evidence = stored ids := by
    cases input.evidenceIds with
    | none => simp
    | some ids => simp [eq_comm]
  have hstale : (row.isStale = 1 →
      (input.isStale.map fun stale => if stale then 1 else 0).getD row.isStale = 1) ↔
        (row.isStale = 1 → input.isStale ≠ some false) := by
    rcases input.isStale with _ | _ | _
    · simp
    · simp
    · simp
  constructor
  · intro h
    exact ⟨hstatus.mp h.status, hresult.mp h.result, hevidence.mp h.evidence, hstale.mp h.stale⟩
  · intro h
    exact ⟨hstatus.mpr h.status, hresult.mpr h.result, hevidence.mpr h.evidence,
      hstale.mpr h.stale⟩

/-- The table or the repository refuses the row that the update makes. -/
def refused (results : Results) (input : VerificationUpdate) (now : String) (row : ResultRow) :
    Bool :=
  (constraintError results (input.row now row)).isSome ||
    (toVerification (input.row now row)).toOption.isNone

section Writes

variable {results later : Results} {id : String} {input : VerificationUpdate} {now : String}

theorem get?_putRow (other : String) : (putRow results id input now).get? other =
    (results.get? other).map fun row => if other = id then input.row now row else row := by
  refine (Table.get?_update results _ _ _ other).trans ?_
  cases hrow : results.get? other with
  | none => rfl
  | some row =>
    have hkey : row.key = other := Table.key_of_get? hrow
    simp [Table.setWhere, hkey]

theorem finalKept_putRow_iff : FinalKept results (putRow results id input now) ↔
    ∀ row, results.get? id = some row → row.IsFinal → Repeats row input := by
  constructor
  · intro h row hrow hfinal
    obtain ⟨row', hrow', hkept⟩ := h id row hrow hfinal
    rw [get?_putRow, hrow, map_some, if_pos rfl] at hrow'
    obtain rfl := some.inj hrow'
    exact keepsResult_iff.mp hkept
  · intro h other row hrow hfinal
    rw [get?_putRow, hrow, map_some]
    refine ⟨_, rfl, ?_⟩
    split_ifs with hsame
    · subst hsame
      exact keepsResult_iff.mpr (h row hrow hfinal)
    · exact .refl row

theorem finalKept_create {digest : String → String} {request : LiveVerificationRequest}
    {saved : VerificationResult} (h : create digest results request now = .ok (later, saved)) :
    FinalKept results later := by
  have hlater : later = results ∨ later = results.insertOrIgnore (pendingRow digest request now) := by
    simp only [create] at h
    split at h
    · cases h
    · next row hrow =>
      cases hread : toVerification row with
      | error error => simp [hread, bind, Except.bind] at h
      | ok value =>
        simp only [hread, bind, Except.bind, pure, Except.pure, Except.ok.injEq, Prod.mk.injEq] at h
        obtain ⟨rfl, -⟩ := h
        split_ifs
        · exact .inl rfl
        · exact .inr rfl
  rcases hlater with rfl | rfl
  · exact .refl _
  · intro id row hrow _
    refine ⟨row, ?_, .refl row⟩
    rw [Table.get?_insertOrIgnore, hrow, some_or]

theorem writeUpdate_cases (results : Results) (id : String) (input : VerificationUpdate)
    (now : String) :
    ((∃ row updated, results.get? id = some row ∧ refused results input now row = false ∧
        writeUpdate results id input now = .ok (some (putRow results id input now, updated))) ∨
      (∀ row, results.get? id = some row → refused results input now row = true) ∧
        ∀ out, writeUpdate results id input now ≠ .ok (some out)) := by
  unfold writeUpdate
  cases hrow : results.get? id with
  | none => simp
  | some row =>
    cases hconstraint : constraintError results (input.row now row) with
    | some error => simp [refused, hconstraint]
    | none =>
      cases hread : toVerification (input.row now row) with
      | error error => simp [refused, hconstraint, hread, Except.map, Except.toOption]
      | ok updated =>
        simp [refused, hconstraint, hread, Except.map, Except.toOption]

end Writes

section Runs

variable {digest : String → String}

theorem finalKept_advance_write {results : Results} {events : List VerificationEvent}
    {now id : String} {input : VerificationUpdate} {existing found : VerificationResult} :
    FinalKept results
        (advance digest results events now (.write id input existing found)).1 ↔
      ∀ row, results.get? id = some row → row.IsFinal → refused results input now row = false →
        Repeats row input := by
  by_cases hempty : input = {}
  · subst hempty
    simp only [advance, if_true]
    constructor
    · intro _ row _ _ _
      exact ⟨by simp, by simp, by simp, by simp⟩
    · intro _
      exact .refl results
  · rcases writeUpdate_cases results id input now with
      ⟨row, updated, hrow, haccepted, hwrite⟩ | ⟨hrefused, hnone⟩
    · have hresults : (advance digest results events now (.write id input existing found)).1 =
          putRow results id input now := by simp [advance, hempty, hwrite]
      rw [hresults, finalKept_putRow_iff]
      constructor
      · intro h other hother hfinal _
        exact h other hother hfinal
      · intro h other hother hfinal
        obtain rfl : row = other := some.inj (hrow.symm.trans hother)
        exact h row hother hfinal haccepted
    · have hresults : (advance digest results events now (.write id input existing found)).1 =
          results := by
        cases hwrite : writeUpdate results id input now with
        | error error => simp [advance, hempty, hwrite]
        | ok out =>
          cases out with
          | none => simp [advance, hempty, hwrite]
          | some out => exact absurd hwrite (hnone out)
      rw [hresults]
      constructor
      · intro _ row hrow _ haccepted
        rw [hrefused row hrow] at haccepted
        cases haccepted
      · intro _
        exact .refl results

/-- Only its last part changes the rows of an update; a request may insert one. -/
theorem finalKept_advance {results : Results} {events : List VerificationEvent} {now : String}
    {task : Task} (h : ∀ id input existing found, task ≠ .write id input existing found) :
    FinalKept results (advance digest results events now task).1 := by
  cases task with
  | write id input existing found => exact absurd rfl (h id input existing found)
  | create input fdx =>
    simp only [advance]
    split
    · exact .refl results
    · next later saved hcreate => exact finalKept_create hcreate
  | findIdentity input fdx =>
    simp only [advance]
    split <;> exact .refl results
  | native id => exact .refl results
  | readToEvaluate id evaluation =>
    simp only [advance]
    split <;> try split
    all_goals exact .refl results
  | readToMark id reason =>
    simp only [advance]
    split <;> try split
    all_goals exact .refl results
  | find id input =>
    simp only [advance]
    split <;> exact .refl results
  | findAgain id input existing =>
    simp only [advance]
    split <;> exact .refl results
  | done outcome => exact .refl results

def Respects (s : Service) : Action → Prop
  | .resume i now => ∀ id input existing found,
      s.tasks[i]? = some (.write id input existing found) → ∀ row, s.results.get? id = some row →
        row.IsFinal → refused s.results input now row = false → Repeats row input
  | _ => True

theorem finalKept_step_iff (s : Service) (action : Action) :
    (∀ t, step digest s action = some t → FinalKept s.results t.results) ↔ Respects s action := by
  cases action with
  | call call =>
    simp only [Respects, iff_true]
    intro t ht
    obtain rfl := some.inj ht
    exact .refl s.results
  | native i result =>
    simp only [Respects, iff_true]
    intro t ht
    simp only [step] at ht
    split at ht
    · obtain rfl := some.inj ht
      exact .refl s.results
    · cases ht
  | throws i error =>
    simp only [Respects, iff_true]
    intro t ht
    simp only [step] at ht
    split at ht
    · cases ht
    · cases ht
    · obtain rfl := some.inj ht
      exact .refl s.results
  | resume i now =>
    cases htask : s.tasks[i]? with
    | none => simp [step, Respects, htask]
    | some task =>
      have hstep (t : Service) : step digest s (.resume i now) = some t →
          t.results = (advance digest s.results s.events now task).1 := by
        intro ht
        simp only [step, htask, map_some, some.injEq] at ht
        rw [← ht]
      have hkept : (∀ t, step digest s (.resume i now) = some t →
          FinalKept s.results t.results) ↔
            FinalKept s.results (advance digest s.results s.events now task).1 := by
        constructor
        · intro h
          have hsome : ∃ t, step digest s (.resume i now) = some t := by simp [step, htask]
          obtain ⟨t, ht⟩ := hsome
          rw [← hstep t ht]
          exact h t ht
        · intro h t ht
          rw [hstep t ht]
          exact h
      rw [hkept]
      by_cases hwrite : ∃ id input existing found, task = .write id input existing found
      · obtain ⟨id, input, existing, found, rfl⟩ := hwrite
        rw [finalKept_advance_write]
        constructor
        · intro h id' input' existing' found' htask'
          obtain ⟨rfl, rfl, rfl, rfl⟩ := Task.write.inj (some.inj (htask.symm.trans htask'))
          exact h
        · intro h
          exact h id input existing found htask
      · have hother : ∀ id input existing found, task ≠ .write id input existing found := by
          intro id input existing found heq
          exact hwrite ⟨id, input, existing, found, heq⟩
        constructor
        · intro _ id input existing found htask'
          exact absurd (some.inj (htask.symm.trans htask')) (hother id input existing found)
        · intro _
          exact finalKept_advance hother

/-- Whatever calls are made and however their parts take turns: a row that has passed, failed or
become stale keeps its result to the end exactly when each write that reaches a row with a final
result is refused by the table or repeats what the row says. -/
theorem final_results_kept_iff (digest : String → String) (s : Service) (actions : List Action) :
    Throughout (step digest) (fun s t => FinalKept s.results t.results) s actions ↔
      Along (step digest) Respects s actions := by
  have hsteps : Throughout (step digest) (fun s t => FinalKept s.results t.results) s actions ↔
      Along (step digest) (fun s action => ∀ t, step digest s action = some t →
        FinalKept s.results t.results) s actions := by
    apply throughout_iff_along
    · intro s
      exact .refl s.results
    · intro s t u h h'
      exact h.trans h'
  rw [hsteps]
  apply Along.congr (I := fun _ => True)
  · intro s action t _ _
    trivial
  · intro s action _
    exact finalKept_step_iff s action
  · trivial

end Runs

def liveRequest : LiveVerificationRequest where
  runId := "r"
  stateVersion := 1
  stateFingerprint := "00000000000000000000000000000001"
  checkType := "live_orchestration"
  correlationId := "r"
  targetSha := some "0000000000000000000000000000000000000001"
  evidenceIds := ["e"]

def fdxRequest : FdxRequest where
  runId := "r"
  stateVersion := 1
  stateFingerprint := "00000000000000000000000000000001"
  headSha := some "0000000000000000000000000000000000000001"
  correlationId := "c"

def turns (i n : Nat) : List Action := List.replicate n (.resume i "t")

/-- A verification passes; then FDX is asked about the same state, and fails it. -/
def verifiedTwice : List Action :=
  .call (.requestLiveVerification liveRequest) :: turns 0 2 ++
    .call (.evaluateLiveVerification (liveIdentity id liveRequest) ⟨true, true, ["e"], []⟩) ::
      turns 1 4 ++
    .call (.requestFdxVerification fdxRequest) :: turns 2 1 ++
    .native 2 ⟨.failed, some "FDX VCI verification failed: test", some [], some ["test"]⟩ ::
      turns 2 3

/-- The row that had passed has failed. -/
theorem passed_row_fails : ¬Throughout (step id) (fun s t => FinalKept s.results t.results)
    ⟨Table.empty, [], []⟩ verifiedTwice := by
  intro h
  have hrun : ((run (step id) ⟨Table.empty, [], []⟩ (verifiedTwice.take 8)).bind fun s =>
      s.results.get? (liveIdentity id liveRequest)).map (·.status) = some "passed" := by
    decide +kernel
  have hlast : ((run (step id) ⟨Table.empty, [], []⟩ verifiedTwice).bind fun s =>
      s.results.get? (liveIdentity id liveRequest)).map (·.status) = some "failed" := by
    decide +kernel
  obtain ⟨row, hrow, hpassed⟩ := map_eq_some_iff.mp hrun
  obtain ⟨s, hs, hget⟩ := bind_eq_some_iff.mp hrow
  obtain ⟨row', hrow', hfailed⟩ := map_eq_some_iff.mp hlast
  obtain ⟨t, ht, hget'⟩ := bind_eq_some_iff.mp hrow'
  have hsplit : verifiedTwice = verifiedTwice.take 8 ++ verifiedTwice.drop 8 :=
    (List.take_append_drop 8 verifiedTwice).symm
  rw [hsplit] at ht
  obtain ⟨u, hu, hrest⟩ := run_append_eq_some.mp ht
  obtain rfl : s = u := some.inj (hs.symm.trans hu)
  have hkept := h (verifiedTwice.take 8) (verifiedTwice.drop 8) [] s t (by simp) hs hrest
  obtain ⟨last, hlastRow, hsame⟩ := hkept _ row hget (.inl hpassed)
  obtain rfl : row' = last := some.inj (hget'.symm.trans hlastRow)
  have hstatus := hsame.status
  rw [hfailed, hpassed] at hstatus
  exact absurd hstatus (by decide)

end VerificationService
