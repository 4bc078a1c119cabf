import FlowDeck.Library.Machine
import FlowDeck.Semantic.EvidenceStore
import FlowDeck.Semantic.ProviderState

/-! Refreshes of one provider, from the first reading of its state to what they write. -/

namespace ProviderRefresh

open EvidenceModel IndexIngest EvidenceStore ProviderState WireReader

def maxScipIndexBytes : Nat := 512 * 1024 * 1024

/-- The row of the provider and the evidence graph. -/
structure Database where
  provider : Option State
  graph : Graph

/-- What a call is about to write. -/
inductive Phase
  | running (persisted : State) (scope : ProviderScope) (fingerprint : ProviderFingerprint)
  | failing (persisted : State) (fingerprint : ProviderFingerprint) (err : SemanticProviderError)
  | unsupported (scope : ProviderScope) (fingerprint : ProviderFingerprint)
  | publishing (prior : Nat) (scope : ProviderScope) (fingerprint : ProviderFingerprint)
      (outputDigest : String) (plans : List DocPlan)

structure System where
  db : Database
  calls : Nat → Option Phase

/-- What a call finds at its start: the provider's scope, fingerprint and health, and whether the row
can be read. -/
structure Attempt where
  scope : ProviderScope
  fingerprint : Except SemanticProviderError ProviderFingerprint
  fallback : ProviderFingerprint
  health : ProviderHealth
  force : Bool
  readable : Bool

/-- How the provider ran: an error, no output to be read, or an index with the digest of it. -/
inductive Outcome
  | failed (err : SemanticProviderError)
  | unreadable
  | index (outputDigest : String) (bytes : Slice)

inductive Action
  | start (call : Nat) (attempt : Attempt)
  | finish (call : Nat) (workspace : Workspace) (outcome : Outcome) (readable : Bool)
  | write (call : Nat) (now : Nat)
  | abort (call : Nat)

/-- A row that is not there or cannot be read is taken for one of a provider that never ran. -/
def loadOrDefaultState (providerId : String) (db : Database) (readable : Bool)
    (scope : ProviderScope) (fingerprint : ProviderFingerprint) : State :=
  ((if readable then db.provider else none).map rowToState).getD
    (defaultState providerId scope fingerprint)

/-- Nothing has to be run. -/
def isCurrent (persisted : State) (fingerprint : ProviderFingerprint) : Bool :=
  persisted.fingerprint.digest = fingerprint.digest && persisted.freshness = .fresh &&
    persisted.lastSuccessfulRun.isSome

def startCall (providerId : String) (db : Database) (attempt : Attempt) : Option Phase :=
  match attempt.fingerprint with
  | .error err =>
    let persisted :=
      loadOrDefaultState providerId db attempt.readable attempt.scope attempt.fallback
    some (.failing persisted attempt.fallback err)
  | .ok fingerprint =>
    let persisted := loadOrDefaultState providerId db attempt.readable attempt.scope fingerprint
    if !attempt.force && isCurrent persisted fingerprint then none
    else
      match attempt.health with
      | .missing =>
        some (.failing persisted fingerprint
          (.missing (providerId ++ " not found on PATH (no auto-download; install manually)")))
      | .unsupported => some (.unsupported attempt.scope fingerprint)
      | _ => some (.running persisted attempt.scope fingerprint)

/-- The generation before is read once more when the index is there. -/
def finishCall (providerId : String) (db : Database) (workspace : Workspace) (persisted : State)
    (scope : ProviderScope) (fingerprint : ProviderFingerprint) (outcome : Outcome)
    (readable : Bool) : Option Phase :=
  match outcome with
  | .failed err => some (.failing persisted fingerprint err)
  | .unreadable => none
  | .index outputDigest bytes =>
    if maxScipIndexBytes < bytes.bytes.length then
      some (.failing persisted fingerprint
        (.sizeLimit ("index exceeds " ++ toString maxScipIndexBytes ++ " bytes")))
    else
      match ScipDecoder.decodeIndex bytes with
      | .error (.error e) =>
        some (.failing persisted fingerprint (.malformedScip (scipErrorText e)))
      | .error .fault => none
      | .ok index =>
        let prior := loadOrDefaultState providerId db readable scope fingerprint
        match planDocuments workspace index with
        | .error _ => none
        | .ok plans =>
          some (.publishing prior.semanticGeneration scope fingerprint outputDigest plans)

def publisher (providerId : String) (prior : Nat) (fingerprint : ProviderFingerprint)
    (outputDigest : String) : Publisher :=
  ⟨providerId, fingerprint, prior + 1, outputDigest⟩

/-- What a call writes in one transaction; a publication that fails leaves everything as it was. -/
def writeCall (providerId : String) (db : Database) (now : Nat) : Phase → Option Database
  | .running _ _ _ => none
  | .failing persisted fingerprint err =>
    some { db with provider := some (persistedWithFailure persisted fingerprint err now) }
  | .unsupported scope fingerprint =>
    some { db with provider := some (unsupportedState providerId scope fingerprint now) }
  | .publishing prior scope fingerprint outputDigest plans =>
    match db.graph.publishEvidence (publisher providerId prior fingerprint outputDigest) plans with
    | none => some db
    | some graph =>
      some
        { provider :=
            some (publishedState providerId scope fingerprint outputDigest (prior + 1) now)
          graph := graph }

def setCall (calls : Nat → Option Phase) (call : Nat) (phase : Option Phase) : Nat → Option Phase :=
  fun other => if other = call then phase else calls other

/-- One step of one call. Any call may end where it stands. -/
def step (providerId : String) (s : System) : Action → Option System
  | .start call attempt =>
    match s.calls call with
    | some _ => none
    | none => some { s with calls := setCall s.calls call (startCall providerId s.db attempt) }
  | .finish call workspace outcome readable =>
    match s.calls call with
    | some (.running persisted scope fingerprint) =>
      let phase := finishCall providerId s.db workspace persisted scope fingerprint outcome readable
      some { s with calls := setCall s.calls call phase }
    | _ => none
  | .write call now =>
    match s.calls call with
    | none => none
    | some phase =>
      (writeCall providerId s.db now phase).map fun db =>
        { db := db, calls := setCall s.calls call none }
  | .abort call =>
    match s.calls call with
    | none => none
    | some _ => some { s with calls := setCall s.calls call none }

def start : System := ⟨⟨none, .empty⟩, fun _ => none⟩

end ProviderRefresh

/-! When the recorded generation and fingerprint of a provider are those its evidence carries, and the
generation only grows. -/

namespace ProviderGenerations

open EvidenceModel IndexIngest EvidenceStore ProviderState ProviderRefresh

/-- A provider without a row is at generation 0, which is also what is read then. -/
def recordedGeneration (db : Database) : Nat := (db.provider.map State.semanticGeneration).getD 0

def recordedDigest (db : Database) : Option String :=
  db.provider.map fun row => row.fingerprint.digest

structure NoEvidence (graph : Graph) (providerId : String) : Prop where
  nodes : ∀ row ∈ graph.nodes.rows, row.provider ≠ some providerId
  edges : ∀ edge ∈ graph.edges.rows, edge.providerId ≠ some providerId

def RowAgrees (providerId : String) (db : Database) : Prop :=
  match db.provider with
  | some row => db.graph.Carries providerId row.fingerprint.digest row.semanticGeneration
  | none => NoEvidence db.graph providerId

def Publishes (s : System) : Action → Prop
  | .write call _ =>
    ∃ prior scope fingerprint outputDigest plans,
      s.calls call = some (.publishing prior scope fingerprint outputDigest plans)
  | _ => False

/-- After the step row and evidence agree, and the generation has not decreased; it has grown if the
step publishes. -/
def Lawful (providerId : String) (s : System) (a : Action) : Prop :=
  ∀ t, step providerId s a = some t →
    RowAgrees providerId t.db ∧ recordedGeneration s.db ≤ recordedGeneration t.db ∧
      (Publishes s a → recordedGeneration s.db < recordedGeneration t.db)

/-- The generation that was read before a failure or a publication is written is still the recorded
one, and what is written down as unsupported has no generation yet. -/
def Current (s : System) : Action → Prop
  | .write call _ =>
    match s.calls call with
    | some (.failing persisted _ _) => persisted.semanticGeneration = recordedGeneration s.db
    | some (.unsupported _ _) => recordedGeneration s.db = 0
    | some (.publishing prior _ _ _ _) => prior = recordedGeneration s.db
    | _ => True
  | _ => True

/-- A state that was read is none of later; one of the recorded generation has its fingerprint. -/
structure Remembers (db : Database) (persisted : State) : Prop where
  le : persisted.semanticGeneration ≤ recordedGeneration db
  digest : persisted.semanticGeneration = recordedGeneration db → recordedGeneration db ≠ 0 →
    recordedDigest db = some persisted.fingerprint.digest

def Fits (db : Database) : Phase → Prop
  | .running persisted _ _ => Remembers db persisted
  | .failing persisted _ _ => Remembers db persisted
  | .unsupported _ _ => True
  | .publishing prior _ _ _ plans =>
    prior ≤ recordedGeneration db ∧ ∀ plan ∈ plans, plan.fileNode = fileNodePrefix ++ plan.canonical

structure Inv (providerId : String) (s : System) : Prop where
  owned : s.db.graph.Owned providerId
  agrees : RowAgrees providerId s.db
  bare : recordedGeneration s.db = 0 → NoEvidence s.db.graph providerId
  calls : ∀ call phase, s.calls call = some phase → Fits s.db phase

theorem NoEvidence.carries {graph : Graph} {providerId : String} (h : NoEvidence graph providerId)
    (digest : String) (generation : Nat) : graph.Carries providerId digest generation where
  nodes := fun row hrow hprovider => absurd hprovider (h.nodes row hrow)
  edges := fun edge hedge hprovider => absurd hprovider (h.edges edge hedge)

theorem inv_start (providerId : String) : Inv providerId ProviderRefresh.start where
  owned := ⟨fun _ hrow => absurd hrow List.not_mem_nil, fun _ hedge => absurd hedge List.not_mem_nil⟩
  agrees := ⟨fun _ hrow => absurd hrow List.not_mem_nil, fun _ hedge => absurd hedge List.not_mem_nil⟩
  bare := fun _ =>
    ⟨fun _ hrow => absurd hrow List.not_mem_nil, fun _ hedge => absurd hedge List.not_mem_nil⟩
  calls := fun _ _ h => absurd h (Option.some_ne_none _).symm

/-- What is read of the row is remembered as it stands. -/
theorem remembers_load (providerId : String) (db : Database) (readable : Bool)
    (scope : ProviderScope) (fingerprint : ProviderFingerprint) :
    Remembers db (loadOrDefaultState providerId db readable scope fingerprint) := by
  unfold loadOrDefaultState
  cases readable with
  | false =>
    refine ⟨Nat.zero_le _, ?_⟩
    intro hzero hne
    exact absurd hzero.symm hne
  | true =>
    cases hrow : db.provider with
    | none =>
      refine ⟨Nat.zero_le _, ?_⟩
      intro hzero hne
      exact absurd hzero.symm hne
    | some row =>
      constructor
      · simp [recordedGeneration, hrow, rowToState]
      · intro _ _
        simp [recordedDigest, hrow, rowToState]

variable {db : Database} {phase : Phase} {a : Action}

theorem startCall_fits {providerId : String} {attempt : Attempt}
    (h : startCall providerId db attempt = some phase) : Fits db phase := by
  have hload := remembers_load providerId db attempt.readable attempt.scope
  unfold startCall at h
  split at h
  · rw [← Option.some.inj h]
    exact hload _
  · dsimp only at h
    split_ifs at h
    split at h
    · rw [← Option.some.inj h]
      exact hload _
    · rw [← Option.some.inj h]
      trivial
    · rw [← Option.some.inj h]
      exact hload _

theorem finishCall_fits {providerId : String} {workspace : Workspace} {persisted : State}
    {scope : ProviderScope} {fingerprint : ProviderFingerprint} {outcome : Outcome}
    {readable : Bool} (hpersisted : Remembers db persisted)
    (h : finishCall providerId db workspace persisted scope fingerprint outcome readable =
      some phase) : Fits db phase := by
  unfold finishCall at h
  cases outcome with
  | failed err =>
    rw [← Option.some.inj h]
    exact hpersisted
  | unreadable => exact absurd h (Option.some_ne_none phase).symm
  | index outputDigest bytes =>
    dsimp only at h
    split_ifs at h
    · rw [← Option.some.inj h]
      exact hpersisted
    · cases hdecode : ScipDecoder.decodeIndex bytes with
      | error stop =>
        rw [hdecode] at h
        cases stop with
        | error e =>
          rw [← Option.some.inj h]
          exact hpersisted
        | fault => exact absurd h (Option.some_ne_none phase).symm
      | ok index =>
        rw [hdecode] at h
        dsimp only at h
        cases hplans : planDocuments workspace index with
        | error e =>
          rw [hplans] at h
          exact absurd h (Option.some_ne_none phase).symm
        | ok plans =>
          rw [hplans] at h
          rw [← Option.some.inj h]
          exact ⟨(remembers_load providerId db readable scope fingerprint).le,
            planDocuments_fileNode hplans⟩

theorem calls_setCall {calls : Nat → Option Phase}
    (h : ∀ call phase, calls call = some phase → Fits db phase) {call : Nat} {phase : Option Phase}
    (hphase : ∀ entered, phase = some entered → Fits db entered) :
    ∀ other entered, setCall calls call phase other = some entered → Fits db entered := by
  intro other entered hentered
  unfold setCall at hentered
  split_ifs at hentered
  · exact hphase entered hentered
  · exact h other entered hentered

theorem fits_none (db : Database) :
    ∀ phase, (none : Option Phase) = some phase → Fits db phase :=
  fun _ h => absurd h (Option.some_ne_none _).symm

theorem step_cases {providerId : String} {s t : System}
    (hcalls : ∀ call phase, s.calls call = some phase → Fits s.db phase)
    (h : step providerId s a = some t) :
    ((∃ call phase, t = ⟨s.db, setCall s.calls call phase⟩ ∧
        ∀ entered, phase = some entered → Fits s.db entered) ∧ ∀ call now, a ≠ .write call now) ∨
      ∃ call now phase db, a = .write call now ∧ s.calls call = some phase ∧
        writeCall providerId s.db now phase = some db ∧ t = ⟨db, setCall s.calls call none⟩ := by
  cases a with
  | start call attempt =>
    left
    refine ⟨⟨call, startCall providerId s.db attempt, ?_, fun _ => startCall_fits⟩, nofun⟩
    cases hcall : s.calls call with
    | some phase => simp [step, hcall] at h
    | none => simpa [step, hcall] using h.symm
  | finish call workspace outcome readable =>
    left
    cases hcall : s.calls call with
    | none => simp [step, hcall] at h
    | some phase =>
      cases phase with
      | running persisted scope fingerprint =>
        have hpersisted : Remembers s.db persisted := hcalls call _ hcall
        refine ⟨⟨call, finishCall providerId s.db workspace persisted scope fingerprint outcome
          readable, ?_, fun _ => finishCall_fits hpersisted⟩, nofun⟩
        simpa [step, hcall] using h.symm
      | failing persisted fingerprint err => simp [step, hcall] at h
      | unsupported scope fingerprint => simp [step, hcall] at h
      | publishing prior scope fingerprint outputDigest plans => simp [step, hcall] at h
  | write call now =>
    right
    cases hcall : s.calls call with
    | none => simp [step, hcall] at h
    | some phase =>
      cases hwrite : writeCall providerId s.db now phase with
      | none => simp [step, hcall, hwrite] at h
      | some db => exact ⟨call, now, phase, db, rfl, hcall, hwrite, by
          simpa [step, hcall, hwrite] using h.symm⟩
  | abort call =>
    left
    refine ⟨⟨call, none, ?_, fits_none s.db⟩, nofun⟩
    cases hcall : s.calls call with
    | none => simp [step, hcall] at h
    | some phase => simpa [step, hcall] using h.symm

section Writes

variable {providerId : String} {s : System}

/-- A failure puts back what was read, which agrees with the evidence when it is still recorded. -/
theorem failing_agrees (hinv : Inv providerId s) {persisted : State}
    (hfits : Remembers s.db persisted)
    (hsame : persisted.semanticGeneration = recordedGeneration s.db) :
    s.db.graph.Carries providerId persisted.fingerprint.digest persisted.semanticGeneration := by
  by_cases hzero : recordedGeneration s.db = 0
  · exact (hinv.bare hzero).carries _ _
  · have hdigest := hfits.digest hsame hzero
    have hagrees := hinv.agrees
    cases hrow : s.db.provider with
    | none => simp [recordedDigest, hrow] at hdigest
    | some row =>
      have hrowDigest : row.fingerprint.digest = persisted.fingerprint.digest := by
        simpa [recordedDigest, hrow] using hdigest
      have hrowGeneration : row.semanticGeneration = persisted.semanticGeneration := by
        rw [hsame]
        simp [recordedGeneration, hrow]
      simp only [RowAgrees, hrow, hrowDigest, hrowGeneration] at hagrees
      exact hagrees

theorem inv_failing (hinv : Inv providerId s) {persisted : State}
    (hfits : Remembers s.db persisted)
    (hsame : persisted.semanticGeneration = recordedGeneration s.db)
    (fingerprint : ProviderFingerprint) (err : SemanticProviderError) (call now : Nat) :
    Inv providerId
      ⟨{ s.db with provider := some (persistedWithFailure persisted fingerprint err now) },
        setCall s.calls call none⟩ where
  owned := hinv.owned
  agrees := by
    have hcarries := failing_agrees hinv hfits hsame
    exact hcarries
  bare := fun hzero => hinv.bare (hsame.symm.trans hzero)
  calls := by
    have hremembers : ∀ earlier, Remembers s.db earlier →
        Remembers { s.db with
          provider := some (persistedWithFailure persisted fingerprint err now) } earlier := by
      intro earlier hearlier
      constructor
      · exact hearlier.le.trans hsame.ge
      · intro heq hne
        have hthen : earlier.semanticGeneration = recordedGeneration s.db := Eq.trans heq hsame
        have hpositive : recordedGeneration s.db ≠ 0 := fun hzero => hne (hsame.trans hzero)
        exact (hfits.digest hsame hpositive).symm.trans (hearlier.digest hthen hpositive)
    apply calls_setCall _ (fits_none _)
    intro other phase hphase
    have hfit := hinv.calls other phase hphase
    cases phase with
    | running earlier scope fp => exact hremembers earlier hfit
    | failing earlier fp e => exact hremembers earlier hfit
    | unsupported scope fp => trivial
    | publishing prior scope fp outputDigest plans => exact ⟨hfit.1.trans hsame.ge, hfit.2⟩

theorem inv_unsupported (hinv : Inv providerId s) (hzero : recordedGeneration s.db = 0)
    (scope : ProviderScope)
    (fingerprint : ProviderFingerprint) (call now : Nat) :
    Inv providerId
      ⟨{ s.db with provider := some (unsupportedState providerId scope fingerprint now) },
        setCall s.calls call none⟩ where
  owned := hinv.owned
  agrees := (hinv.bare hzero).carries _ _
  bare := fun _ => hinv.bare hzero
  calls := by
    have hremembers : ∀ earlier, Remembers s.db earlier →
        Remembers { s.db with
          provider := some (unsupportedState providerId scope fingerprint now) } earlier := by
      intro earlier hearlier
      refine ⟨hearlier.le.trans hzero.le, ?_⟩
      intro _ hne
      exact absurd rfl hne
    apply calls_setCall _ (fits_none _)
    intro other phase hphase
    have hfit := hinv.calls other phase hphase
    cases phase with
    | running earlier scope fp => exact hremembers earlier hfit
    | failing earlier fp e => exact hremembers earlier hfit
    | unsupported scope fp => trivial
    | publishing prior scope fp outputDigest plans => exact ⟨hfit.1.trans hzero.le, hfit.2⟩

theorem inv_published (hinv : Inv providerId s) {graph : Graph} {prior : Nat} {fingerprint : ProviderFingerprint}
    {outputDigest : String} (hprior : prior = recordedGeneration s.db)
    (hgraph : graph.Published (publisher providerId prior fingerprint outputDigest))
    (scope : ProviderScope) (call now : Nat) :
    Inv providerId
      ⟨⟨some (publishedState providerId scope fingerprint outputDigest (prior + 1) now), graph⟩,
        setCall s.calls call none⟩ where
  owned := hgraph.owned
  agrees := hgraph.carries
  bare := fun hzero => absurd hzero (Nat.succ_ne_zero prior)
  calls := by
    have hremembers : ∀ earlier, Remembers s.db earlier →
        Remembers ⟨some (publishedState providerId scope fingerprint outputDigest (prior + 1) now),
          graph⟩ earlier := by
      intro earlier hearlier
      have hle : earlier.semanticGeneration ≤ prior := hprior ▸ hearlier.le
      refine ⟨hle.trans (Nat.le_succ prior), ?_⟩
      intro heq _
      have hsucc : earlier.semanticGeneration = prior + 1 := heq
      omega
    apply calls_setCall _ (fits_none _)
    intro other phase hphase
    have hfit := hinv.calls other phase hphase
    cases phase with
    | running earlier scope fp => exact hremembers earlier hfit
    | failing earlier fp e => exact hremembers earlier hfit
    | unsupported scope fp => trivial
    | publishing earlier scope fp outputDigest plans =>
      have hle : earlier ≤ prior := hprior ▸ hfit.1
      exact ⟨hle.trans (Nat.le_succ prior), hfit.2⟩

end Writes

theorem write_spec {providerId : String} {s : System} {call now : Nat} (hinv : Inv providerId s)
    (hcall : s.calls call = some phase) (hwrite : writeCall providerId s.db now phase = some db) :
    ((RowAgrees providerId db ∧ recordedGeneration s.db ≤ recordedGeneration db ∧
        (Publishes s (.write call now) → recordedGeneration s.db < recordedGeneration db)) ↔
      Current s (.write call now)) ∧
    (Current s (.write call now) → Inv providerId ⟨db, setCall s.calls call none⟩) := by
  have hfits := hinv.calls call phase hcall
  cases phase with
  | running persisted scope fingerprint => simp [writeCall] at hwrite
  | failing persisted fingerprint err =>
    obtain rfl := Option.some.inj hwrite
    simp only [Current, Publishes, hcall]
    constructor
    · constructor
      · intro h
        exact Nat.le_antisymm hfits.le h.2.1
      · intro hsame
        have hcarries := failing_agrees hinv hfits hsame
        exact ⟨hcarries, hsame.ge, fun hpublishes => by simp at hpublishes⟩
    · exact fun hsame => inv_failing hinv hfits hsame fingerprint err call now
  | unsupported scope fingerprint =>
    obtain rfl := Option.some.inj hwrite
    simp only [Current, Publishes, hcall]
    constructor
    · constructor
      · exact fun h => Nat.le_zero.mp h.2.1
      · intro hzero
        exact ⟨(hinv.bare hzero).carries _ _, hzero.le, fun hpublishes => by simp at hpublishes⟩
    · exact fun hzero => inv_unsupported hinv hzero scope fingerprint call now
  | publishing prior scope fingerprint outputDigest plans =>
    obtain ⟨hprior, hplans⟩ := hfits
    obtain ⟨graph, hpublish, hgraph⟩ := Graph.publishEvidence_spec
      (p := publisher providerId prior fingerprint outputDigest) hinv.owned hplans
    simp only [writeCall, hpublish, Option.some.injEq] at hwrite
    obtain rfl := hwrite
    simp only [Current, hcall]
    constructor
    · constructor
      · intro h
        have hgrows : recordedGeneration s.db < prior + 1 :=
          h.2.2 ⟨prior, scope, fingerprint, outputDigest, plans, hcall⟩
        omega
      · intro hsame
        have hgrows : recordedGeneration s.db < prior + 1 := by omega
        exact ⟨hgraph.carries, hgrows.le, fun _ => hgrows⟩
    · exact fun hsame => inv_published hinv hsame hgraph scope call now

theorem inv_step {providerId : String} (s : System) (a : Action) (t : System)
    (hinv : Inv providerId s) (hcurrent : Current s a) (h : step providerId s a = some t) :
    Inv providerId t := by
  cases step_cases hinv.calls h with
  | inl hmove =>
    obtain ⟨⟨call, phase, rfl, hphase⟩, -⟩ := hmove
    exact ⟨hinv.owned, hinv.agrees, hinv.bare, calls_setCall hinv.calls hphase⟩
  | inr hwrite =>
    obtain ⟨call, now, phase, db, rfl, hcall, hdb, rfl⟩ := hwrite
    exact (write_spec hinv hcall hdb).2 hcurrent

theorem lawful_iff_current {providerId : String} {s t : System} (hinv : Inv providerId s)
    (h : step providerId s a = some t) : Lawful providerId s a ↔ Current s a := by
  have hlawful : Lawful providerId s a ↔
      RowAgrees providerId t.db ∧ recordedGeneration s.db ≤ recordedGeneration t.db ∧
        (Publishes s a → recordedGeneration s.db < recordedGeneration t.db) := by
    simp [Lawful, h]
  rw [hlawful]
  cases step_cases hinv.calls h with
  | inl hmove =>
    obtain ⟨⟨call, phase, rfl, -⟩, hother⟩ := hmove
    cases a with
    | write call now => exact absurd rfl (hother call now)
    | start call attempt => simp [Current, Publishes, hinv.agrees]
    | finish call workspace outcome readable => simp [Current, Publishes, hinv.agrees]
    | abort call => simp [Current, Publishes, hinv.agrees]
  | inr hwrite =>
    obtain ⟨call, now, phase, db, rfl, hcall, hdb, rfl⟩ := hwrite
    exact (write_spec hinv hcall hdb).1

/-- Only a call that runs or is not there has nothing to write. -/
theorem current_of_disabled {providerId : String} {s : System} (h : step providerId s a = none) :
    Current s a := by
  cases a with
  | start call attempt => trivial
  | finish call workspace outcome readable => trivial
  | abort call => trivial
  | write call now =>
    cases hcall : s.calls call with
    | none => simp [Current, hcall]
    | some phase =>
      have hnone : writeCall providerId s.db now phase = none := by simpa [step, hcall] using h
      cases phase with
      | running persisted scope fingerprint => simp [Current, hcall]
      | failing persisted fingerprint err => simp [writeCall] at hnone
      | unsupported scope fingerprint => simp [writeCall] at hnone
      | publishing prior scope fingerprint outputDigest plans =>
        simp only [writeCall] at hnone
        split at hnone <;> simp at hnone

theorem current_of_lawful {providerId : String} {s : System} (hinv : Inv providerId s)
    (h : Lawful providerId s a) : Current s a := by
  cases hstep : step providerId s a with
  | none => exact current_of_disabled hstep
  | some t => exact (lawful_iff_current hinv hstep).mp h

/-- In every run row and evidence agree and the generation grows as it should, exactly when every write
is current. -/
theorem generations_iff (providerId : String) (actions : List Action) :
    Machine.Along (step providerId) (Lawful providerId) ProviderRefresh.start actions ↔
      Machine.Along (step providerId) Current ProviderRefresh.start actions := by
  have hinv := inv_start providerId
  constructor
  · intro h
    apply Machine.Along.imp (I := Inv providerId) _ (fun s a => current_of_lawful) hinv h
    exact fun s a t hs hlawful => inv_step s a t hs (current_of_lawful hs hlawful)
  · intro h
    apply Machine.Along.imp inv_step _ hinv h
    exact fun s a hs hcurrent t ht => (lawful_iff_current hs ht).mpr hcurrent t ht

def sampleScope : ProviderScope := ⟨".", none, [.typeScript]⟩

def sampleFingerprint : ProviderFingerprint := ⟨"0.3", "tool", "scip-1", none, "config", "digest"⟩

def sampleAttempt (health : ProviderHealth) : Attempt where
  scope := sampleScope
  fingerprint := .ok sampleFingerprint
  fallback := sampleFingerprint
  health := health
  force := true
  readable := true

def sampleWorkspace : Workspace where
  root := "/repo"
  canonicalize := some
  isFile := fun _ => true
  fileDigest := fun _ => .ok "hash"

/-- An index of one document, `a.ts`, with one symbol. -/
def sampleIndex : WireReader.Slice where
  bytes := [18, 31, 10, 4, 97, 46, 116, 115, 26, 11, 10, 9, 115, 32, 112, 32, 110, 32, 118, 32, 120,
    34, 10, 116, 121, 112, 101, 115, 99, 114, 105, 112, 116]
  bounded := by decide

def publishing (call : Nat) : List Action :=
  [.finish call sampleWorkspace (.index "output" sampleIndex) true, .write call 1]

theorem not_lawful_of_decrease {providerId : String} {actions : List Action}
    (h : ((Machine.run (step providerId) ProviderRefresh.start actions).bind fun s =>
      (step providerId s a).map fun t =>
        decide (recordedGeneration t.db < recordedGeneration s.db)) = some true) :
    ¬Machine.Along (step providerId) (Lawful providerId) ProviderRefresh.start (actions ++ [a]) := by
  intro halong
  obtain ⟨s, hs, h⟩ := Option.bind_eq_some_iff.mp h
  obtain ⟨t, ht, h⟩ := Option.map_eq_some_iff.mp h
  have hlawful := (halong.append hs).1 t ht
  exact absurd hlawful.2.1 (Nat.not_le.mpr (of_decide_eq_true h))

/-- A provider found unsupported is put back to generation 0 under its evidence; and so is one whose
refresh fails after another, started later, has published. -/
theorem stale_writes_forget :
    ¬Machine.Along (step "scip-typescript") (Lawful "scip-typescript") ProviderRefresh.start
        ([.start 0 (sampleAttempt .available)] ++ publishing 0 ++
          [.start 1 (sampleAttempt .unsupported)] ++ [.write 1 2]) ∧
      ¬Machine.Along (step "scip-typescript") (Lawful "scip-typescript") ProviderRefresh.start
        ([.start 0 (sampleAttempt .available), .start 1 (sampleAttempt .available)] ++
          publishing 1 ++ [.finish 0 sampleWorkspace (.failed (.timedOut "600s")) true] ++
            [.write 0 2]) := by
  constructor
  · apply not_lawful_of_decrease
    decide +kernel
  · apply not_lawful_of_decrease
    decide +kernel

end ProviderGenerations
