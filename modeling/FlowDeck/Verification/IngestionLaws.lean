import FlowDeck.Verification.RuntimeHistory

/-! The laws of the runtime history under any sequence of ingestions. -/

namespace RuntimeIngest

open CalibrationHistory Checked PolicyStore RunArtifact Statements

section Ingest

variable {r : Runtime} {t : Tables} {bytes : List UInt8} {now : Int}

theorem validRun_of_readArtifact {runId : String} {run : VerificationRun}
    (h : readArtifact r bytes = .ok (runId, run)) : ValidRun run := by
  unfold readArtifact at h
  split_ifs at h
  cases hparse : r.parseRun bytes with
  | error e => simp [hparse] at h
  | ok parsed =>
    simp only [hparse] at h
    split_ifs at h
    cases hvalidate : validateRun r parsed with
    | error reason => simp [hvalidate] at h
    | ok u =>
      have hsame : parsed = run := by
        have hpair : (trimmed parsed.runId, parsed) = (runId, run) := by
          simpa [hvalidate] using h
        exact congrArg Prod.snd hpair
      exact hsame ▸ validateRun_eq_ok.mp hvalidate

theorem readArtifact_failed {result : RuntimeIngestResult}
    (h : readArtifact r bytes = .error result) :
    ∃ runId reason, result = .failed runId reason := by
  unfold readArtifact at h
  split_ifs at h
  · exact ⟨_, _, (Except.error.inj h).symm⟩
  · cases hparse : r.parseRun bytes with
    | error e =>
      simp only [hparse] at h
      exact ⟨_, _, (Except.error.inj h).symm⟩
    | ok parsed =>
      simp only [hparse] at h
      split_ifs at h
      · exact ⟨_, _, (Except.error.inj h).symm⟩
      · cases hvalidate : validateRun r parsed with
        | error reason =>
          simp only [hvalidate] at h
          exact ⟨_, _, (Except.error.inj h).symm⟩
        | ok u => simp [hvalidate] at h

theorem ingest_of_invalid {result : RuntimeIngestResult}
    (h : readArtifact r bytes = .error result) :
    ingestVerificationArtifact r t bytes now = (.ok result, t) := by
  simp [ingestVerificationArtifact, h]

theorem ingest_of_existing (now : Int) {runId : String} {run : VerificationRun}
    {result : RuntimeIngestResult} (h : readArtifact r bytes = .ok (runId, run))
    (hold : existing? t runId (r.sha256 bytes) = some result) :
    ingestVerificationArtifact r t bytes now = (.ok result, t) := by
  simp [ingestVerificationArtifact, h, hold]

theorem ingest_of_free (now : Int) (hanchored : Anchored t) {runId : String} {run : VerificationRun}
    (h : readArtifact r bytes = .ok (runId, run))
    (hfree : existing? t runId (r.sha256 bytes) = none) :
    ∃ t', ingestVerificationArtifact r t bytes now =
        (.ok (.imported runId (r.sha256 bytes)), t') ∧
      Stored r t t' run runId (r.sha256 bytes) now := by
  obtain ⟨t', hinsert, hstored⟩ := insertRun_spec (r := r) hanchored (validRun_of_readArtifact h)
    runId (r.sha256 bytes) now
  exact ⟨t', by simp [ingestVerificationArtifact, h, hfree, hinsert], hstored⟩

theorem existing?_ne_imported {runId digest importedId : String} (importedDigest : String) :
    existing? t runId digest ≠ some (.imported importedId importedDigest) := by
  unfold existing?
  split
  · split_ifs <;> simp
  · simp

/-- A call leaves the tables as they are, or stores the run of its artifact. -/
theorem ingest_cases (bytes : List UInt8) (now : Int) (hanchored : Anchored t) :
    (∃ result, ingestVerificationArtifact r t bytes now = (.ok result, t) ∧
      ∀ runId digest, result ≠ .imported runId digest) ∨
    ∃ runId run t', readArtifact r bytes = .ok (runId, run) ∧
      existing? t runId (r.sha256 bytes) = none ∧
      ingestVerificationArtifact r t bytes now =
        (.ok (.imported runId (r.sha256 bytes)), t') ∧
      Stored r t t' run runId (r.sha256 bytes) now := by
  cases hread : readArtifact r bytes with
  | error result =>
    obtain ⟨runId, reason, rfl⟩ := readArtifact_failed hread
    exact Or.inl ⟨_, ingest_of_invalid hread, nofun⟩
  | ok artifact =>
    obtain ⟨runId, run⟩ := artifact
    cases hexisting : existing? t runId (r.sha256 bytes) with
    | some result =>
      refine Or.inl ⟨result, ingest_of_existing now hread hexisting, ?_⟩
      intro importedId digest heq
      exact existing?_ne_imported _ (hexisting.trans (congrArg some heq))
    | none =>
      obtain ⟨t', hingest, hstored⟩ := ingest_of_free now hanchored hread hexisting
      exact Or.inr ⟨runId, run, t', rfl, hexisting, hingest, hstored⟩

theorem Stored.anchored {t' : Tables} {run : VerificationRun} {runId artifactDigest : String}
    (hanchored : Anchored t) (h : Stored r t t' run runId artifactDigest now) : Anchored t' := by
  have hrun : ∃ row ∈ t'.runs.rows, row.runId = runId :=
    ⟨_, (h.runs _).mpr (Or.inr rfl), rfl⟩
  have hkept : ∀ id, id ≠ runId → (∃ row ∈ t.runs.rows, row.runId = id) →
      ∃ row ∈ t'.runs.rows, row.runId = id := by
    intro id hne hrow
    obtain ⟨row, hmem, rfl⟩ := hrow
    exact ⟨row, (h.runs row).mpr (Or.inl ⟨hmem, hne⟩), rfl⟩
  refine ⟨?_, ?_, ?_⟩
  · intro row hmem
    cases (h.executions row).mp hmem with
    | inl hold => exact hkept _ hold.2 (hanchored.executions row hold.1)
    | inr hnew => exact (runId_of_mem_executionRows hnew) ▸ hrun
  · intro row hmem
    cases (h.checks row).mp hmem with
    | inl hold => exact hkept _ hold.2 (hanchored.checks row hold.1)
    | inr hnew =>
      obtain ⟨check, -, rfl⟩ := List.mem_map.mp hnew
      exact hrun
  · intro row hmem
    cases (h.changes row).mp hmem with
    | inl hold => exact hkept _ hold.2 (hanchored.changes row hold.1)
    | inr hnew =>
      obtain ⟨change, -, rfl⟩ := List.mem_map.mp hnew
      exact hrun

theorem ingest_anchored (hanchored : Anchored t) :
    Anchored (ingestVerificationArtifact r t bytes now).2 := by
  cases ingest_cases (r := r) bytes now hanchored with
  | inl h =>
    obtain ⟨result, hingest, -⟩ := h
    rw [hingest]
    exact hanchored
  | inr h =>
    obtain ⟨runId, run, t', -, -, hingest, hstored⟩ := h
    rw [hingest]
    exact hstored.anchored hanchored

end Ingest

/-- The tables of the runtime history, whose foreign keys the database enforces. -/
structure History where
  tables : Tables
  anchored : Anchored tables

namespace History

def ingest (r : Runtime) (h : History) (bytes : List UInt8) (now : Int) :
    Except String RuntimeIngestResult × History :=
  ((ingestVerificationArtifact r h.tables bytes now).1,
    ⟨(ingestVerificationArtifact r h.tables bytes now).2, ingest_anchored h.anchored⟩)

/-- The history after a sequence of calls, each of an artifact at some time. -/
def after (r : Runtime) (h : History) (calls : List (List UInt8 × Int)) : History :=
  calls.foldl (fun h call => (h.ingest r call.1 call.2).2) h

def StoredAs (h : History) (runId artifactDigest : String) : Prop :=
  ∃ row ∈ h.tables.runs.rows, row.runId = runId ∧ row.artifactDigest = artifactDigest ∧
    row.ingestionContractVersion = ingestionContractVersionV2

/-- All that is stored of a run is the same. -/
structure SameRun (runId : String) (h h' : History) : Prop where
  runs : ∀ row, row.runId = runId → (row ∈ h.tables.runs.rows ↔ row ∈ h'.tables.runs.rows)
  executions : ∀ row, row.runId = runId →
    (row ∈ h.tables.executions.rows ↔ row ∈ h'.tables.executions.rows)
  checks : ∀ row, row.runId = runId → (row ∈ h.tables.checks.rows ↔ row ∈ h'.tables.checks.rows)
  changes : ∀ row, row.runId = runId →
    (row ∈ h.tables.changes.rows ↔ row ∈ h'.tables.changes.rows)

variable {r : Runtime}

theorem SameRun.refl (runId : String) (h : History) : SameRun runId h h :=
  ⟨fun _ _ => Iff.rfl, fun _ _ => Iff.rfl, fun _ _ => Iff.rfl, fun _ _ => Iff.rfl⟩

theorem SameRun.trans {runId : String} {h h' h'' : History} (hfirst : SameRun runId h h')
    (hsecond : SameRun runId h' h'') : SameRun runId h h'' :=
  ⟨fun row hid => (hfirst.runs row hid).trans (hsecond.runs row hid),
    fun row hid => (hfirst.executions row hid).trans (hsecond.executions row hid),
    fun row hid => (hfirst.checks row hid).trans (hsecond.checks row hid),
    fun row hid => (hfirst.changes row hid).trans (hsecond.changes row hid)⟩

theorem ingest_eq {h : History} {bytes : List UInt8} {now : Int}
    {result : Except String RuntimeIngestResult}
    (heq : ingestVerificationArtifact r h.tables bytes now = (result, h.tables)) :
    h.ingest r bytes now = (result, h) := by
  obtain ⟨tables, anchored⟩ := h
  simp only [ingest, heq]

/-- An artifact is of a run of this id, which may be stored. -/
def Reads (r : Runtime) (bytes : List UInt8) (runId : String) : Prop :=
  ∃ run, readArtifact r bytes = .ok (runId, run)

theorem SameRun.symm {runId : String} {h h' : History} (hsame : SameRun runId h h') :
    SameRun runId h' h :=
  ⟨fun row hid => (hsame.runs row hid).symm, fun row hid => (hsame.executions row hid).symm,
    fun row hid => (hsame.checks row hid).symm, fun row hid => (hsame.changes row hid).symm⟩

theorem SameRun.existing? {runId : String} {h h' : History} (hsame : SameRun runId h h')
    (digest : String) :
    RuntimeIngest.existing? h.tables runId digest =
      RuntimeIngest.existing? h'.tables runId digest := by
  have hget : h.tables.runs.get? runId = h'.tables.runs.get? runId := Table.get?_congr hsame.runs
  simp only [RuntimeIngest.existing?, hget]

/-- What a call does with an artifact that may be stored. -/
theorem ingest_reads (h : History) {bytes : List UInt8} (now : Int) {runId : String}
    {run : VerificationRun} (hread : readArtifact r bytes = .ok (runId, run)) :
    (∃ result, RuntimeIngest.existing? h.tables runId (r.sha256 bytes) = some result ∧
      h.ingest r bytes now = (.ok result, h)) ∨
    RuntimeIngest.existing? h.tables runId (r.sha256 bytes) = none ∧
      (h.ingest r bytes now).1 = .ok (.imported runId (r.sha256 bytes)) ∧
      Stored r h.tables (h.ingest r bytes now).2.tables run runId (r.sha256 bytes) now := by
  cases hexisting : RuntimeIngest.existing? h.tables runId (r.sha256 bytes) with
  | some result => exact Or.inl ⟨result, rfl, ingest_eq (ingest_of_existing now hread hexisting)⟩
  | none =>
    obtain ⟨t', heq, hstored⟩ := ingest_of_free now h.anchored hread hexisting
    have hresult : (h.ingest r bytes now).1 = .ok (.imported runId (r.sha256 bytes)) := by
      simp only [ingest, heq]
    have htables : (h.ingest r bytes now).2.tables = t' := by
      simp only [ingest, heq]
    exact Or.inr ⟨rfl, hresult, htables ▸ hstored⟩

theorem ingest_invalid (h : History) {bytes : List UInt8} (now : Int)
    {result : RuntimeIngestResult} (hread : readArtifact r bytes = .error result) :
    h.ingest r bytes now = (.ok result, h) := ingest_eq (ingest_of_invalid hread)

section HoldsRun

variable {h k : History} {run : VerificationRun} {runId artifactDigest : String} {now : Int}

end HoldsRun

/-- The digest tells the two artifacts apart. -/
def NoCollision (r : Runtime) (bytes bytes' : List UInt8) : Prop :=
  r.sha256 bytes = r.sha256 bytes' → bytes = bytes'

end History

open History

section Laws

variable {r : Runtime} {h : History}

theorem imports {bytes : List UInt8} {now : Int} {runId digest : String}
    (himport : (h.ingest r bytes now).1 = .ok (.imported runId digest)) :
    ∃ run, readArtifact r bytes = .ok (runId, run) ∧ digest = r.sha256 bytes ∧
      Stored r h.tables (h.ingest r bytes now).2.tables run runId digest now := by
  cases hread : readArtifact r bytes with
  | error result =>
    obtain ⟨failedId, reason, rfl⟩ := readArtifact_failed hread
    rw [ingest_invalid h now hread] at himport
    exact absurd (Except.ok.inj himport) nofun
  | ok artifact =>
    obtain ⟨readId, run⟩ := artifact
    cases ingest_reads h now hread with
    | inl hold =>
      obtain ⟨result, hsome, heq⟩ := hold
      rw [heq] at himport
      have hresult : result = .imported runId digest := Except.ok.inj himport
      rw [hresult] at hsome
      exact absurd hsome (existing?_ne_imported _)
    | inr hnew =>
      obtain ⟨-, hanswer, hstored⟩ := hnew
      rw [himport] at hanswer
      obtain ⟨rfl, rfl⟩ := RuntimeIngestResult.imported.inj (Except.ok.inj hanswer)
      exact ⟨run, rfl, rfl, hstored⟩

end Laws

end RuntimeIngest
