import FlowDeck.Commands.CommandInvariants
import Mathlib.Data.Fintype.EquivFin

namespace Idempotency

open Commands CommandFingerprint CommandSecurity Machine Option

/-- The request that a call of `executeCommand` starts with. -/
def requestOf (rt : Runtime) : Action → Option Request
  | .executeCommand _ commandIdOrAlias version idempotencyKey input =>
    match rt.registry.resolve commandIdOrAlias version with
    | .ok definition => some { definition, idempotencyKey, input }
    | .error _ => none
  | _ => none

def text (rt : Runtime) (r : Request) : String :=
  canonical rt.platform r.definition.id r.definition.version r.input

/-- No two requests of the run have one digest for two texts. -/
def Collisionless (rt : Runtime) (as : List Action) : Prop :=
  ∀ r ∈ as.filterMap (requestOf rt), ∀ r' ∈ as.filterMap (requestOf rt),
    rt.platform.sha256 (text rt r) = rt.platform.sha256 (text rt r') → text rt r = text rt r'

def dispatched : Call → Option (Request × String)
  | .compiling r i | .working (.fresh r) _ i _ => some (r, i.invocationId)
  | .executed r invocationId _ => some (r, invocationId)
  | .crashed last => dispatched last
  | _ => none

def dispatchedAt (s : CommandState) (c : Nat) : Option (Request × String) :=
  (s.calls c).bind dispatched

/-- A call of `executeCommand` that has not dispatched anything. -/
def submits : Call → Bool
  | .inserting _ | .rereading _ _ | .racing _ | .submitted _ _ => true
  | _ => false

/-- The security check refuses the input, and the call throws that. -/
def Refused (r : Request) (answer : Answer) : Prop :=
  ∃ e, enforceCommandSecurity r.input = .error e ∧ answer = .threw (.other none e.message)

def Returns (x : Identity) (answer : Answer) : Prop :=
  ∃ result, answer = .returned result ∧ result.invocationId = x.invocationId ∧
    result.commandId = x.commandId ∧ result.commandVersion = x.commandVersion ∧
    result.error = none

def Conflicts (answer : Answer) : Prop :=
  ∃ result, answer = .returned result ∧ result.status = .failed ∧
    result.error = some {
      code := "COMMAND_IDEMPOTENCY_CONFLICT"
      message := "Idempotency key is already bound to an incompatible command request" }

/-- The identity is that of a request's invocation. -/
def Asks (rt : Runtime) (r : Request) (x : Identity) : Prop :=
  x.commandId = r.definition.id ∧ x.commandVersion = r.definition.version ∧
    x.requestFingerprint = r.fingerprint rt

/-- The answer is the one that the row under the call's key calls for. -/
def Answered (rt : Runtime) (t : Invocations) (r : Request) (answer : Answer) : Prop :=
  ∃ x, Known t x ∧ x.idempotencyKey = r.idempotencyKey ∧
    (Asks rt r x → Returns x answer) ∧ (¬Asks rt r x → Conflicts answer)

/-- The key of the request has a row. -/
def HasKey (t : Invocations) (r : Request) : Prop :=
  ∃ x, Known t x ∧ x.idempotencyKey = r.idempotencyKey

/-- What a call of `executeCommand` knows of the table. -/
def Fits (rt : Runtime) (issued : Request → Prop) (t : Invocations) : Call → Prop
  | .inserting r => issued r
  | .rereading r _ => issued r ∧ HasKey t r
  | .racing r => issued r ∧ HasKey t r
  | .submitted r answer => issued r ∧ (Refused r answer ∨ Answered rt t r answer)
  | .compiling r i | .working (.fresh r) _ i _ =>
    issued r ∧ Known t i.identity ∧ i.idempotencyKey = r.idempotencyKey
  | .executed r invocationId _ =>
    ∃ x, Known t x ∧ x.invocationId = invocationId ∧ x.idempotencyKey = r.idempotencyKey
  | .crashed last => Fits rt issued t last
  | _ => True

section Fits

variable {rt : Runtime} {issued : Request → Prop} {t t' : Invocations} {r : Request}

variable {existing : CommandInvocation}

theorem compatible_iff : compatible rt r existing = true ↔ Asks rt r existing.identity := by
  simp only [compatible, Bool.and_eq_true, decide_eq_true_eq, and_assoc]
  exact Iff.rfl

theorem HasKey.mono (h : HasKey t r) (hknown : ∀ x, Known t x → Known t' x) : HasKey t' r := by
  obtain ⟨x, hx, hkey⟩ := h
  exact ⟨x, hknown x hx, hkey⟩

theorem Answered.mono {answer : Answer} (h : Answered rt t r answer)
    (hknown : ∀ x, Known t x → Known t' x) : Answered rt t' r answer := by
  obtain ⟨x, hx, hanswer⟩ := h
  exact ⟨x, hknown x hx, hanswer⟩

theorem Fits.mono {call : Call} (h : Fits rt issued t call)
    (hknown : ∀ x, Known t x → Known t' x) : Fits rt issued t' call := by
  induction call with
  | inserting r => exact h
  | rereading r i => exact ⟨h.1, h.2.mono hknown⟩
  | racing r => exact ⟨h.1, h.2.mono hknown⟩
  | submitted r answer =>
    refine ⟨h.1, ?_⟩
    rcases h.2 with hrefused | hanswered
    · exact Or.inl hrefused
    · exact Or.inr (hanswered.mono hknown)
  | compiling r i => exact ⟨h.1, hknown _ h.2.1, h.2.2⟩
  | working origin d i stage =>
    cases origin with
    | fresh r => exact ⟨h.1, hknown _ h.2.1, h.2.2⟩
    | recovery => trivial
  | executed r invocationId answer =>
    obtain ⟨x, hx, hid, hkey⟩ := h
    exact ⟨x, hknown x hx, hid, hkey⟩
  | crashed last ih => exact ih h
  | claiming i | awaiting i | loading i | releasing id answer | cancelling i reason
  | ended answer => trivial

/-- Under the rules for a row that was found, the answer is right. -/
theorem answered_conflict {i : CommandInvocation} (hmem : existing ∈ t.rows)
    (hkey : existing.idempotencyKey = r.idempotencyKey)
    (hcompatible : compatible rt r existing = false) :
    Answered rt t r (.returned (idempotencyConflict i)) := by
  have hasks : ¬Asks rt r existing.identity := by
    rw [← compatible_iff, hcompatible]
    exact Bool.false_ne_true
  refine ⟨existing.identity, known_of_mem hmem, hkey, fun h => absurd h hasks, ?_⟩
  intro _
  exact ⟨_, rfl, rfl, rfl⟩

theorem answered_retrieved (hmem : existing ∈ t.rows)
    (hkey : existing.idempotencyKey = r.idempotencyKey)
    (hcompatible : ¬compatible rt r existing = false) :
    Answered rt t r (.returned (retrieved existing)) := by
  have hasks : Asks rt r existing.identity :=
    compatible_iff.mp (Bool.not_eq_false _ ▸ hcompatible)
  refine ⟨existing.identity, known_of_mem hmem, hkey, ?_, fun h => absurd hasks h⟩
  intro _
  exact ⟨_, rfl, rfl, rfl, rfl, rfl⟩

theorem not_hasKey_of_none (h : getByIdempotencyKey t r.idempotencyKey = none) : ¬HasKey t r := by
  intro hkey
  obtain ⟨x, hx, hsame⟩ := hkey
  obtain ⟨row, hrow, hidentity⟩ := hx.row
  have hne := getByIdempotencyKey_eq_none h row hrow
  apply hne
  rw [← hsame, ← hidentity]
  rfl

end Fits

section Moves

variable {rt : Runtime} {issued : Request → Prop} {s : CommandState} {r : Request}

variable {i : CommandInvocation} {call next : Call} {origin : Origin} {answer : Answer} {e : Event}
  {w : Write} {invocationId id : String}

theorem fits_rereadKey (hissued : issued r) (h : HasKey s.invocations r) :
    Fits rt issued s.invocations (rereadKey rt s r i) := by
  unfold rereadKey
  split
  · rename_i existing hget
    obtain ⟨hmem, hkey⟩ := getByIdempotencyKey_eq_some hget
    split_ifs with hcompatible
    · exact ⟨hissued, Or.inr (answered_conflict hmem hkey hcompatible)⟩
    · exact ⟨hissued, h⟩
  · exact ⟨hissued, h⟩

theorem fits_raceExisting (hissued : issued r) (h : HasKey s.invocations r) :
    Fits rt issued s.invocations (raceExisting rt s r) := by
  unfold raceExisting
  split
  · rename_i existing hget
    obtain ⟨hmem, hkey⟩ := getByIdempotencyKey_eq_some hget
    split_ifs with hcompatible
    · exact ⟨hissued, Or.inr (answered_conflict hmem hkey hcompatible)⟩
    · exact ⟨hissued, Or.inr (answered_retrieved hmem hkey hcompatible)⟩
  · rename_i hnone
    exact absurd h (not_hasKey_of_none hnone)

theorem retrievable_all (status : CommandInvocationStatus) : status ∈ retrievable := by
  cases status <;> decide

theorem fits_executeCommand {commandIdOrAlias : String} {version : Option Nat} {key : String}
    {input : Json} (hissued : ∀ definition,
      rt.registry.resolve commandIdOrAlias version = .ok definition →
        issued { definition, idempotencyKey := key, input }) :
    Fits rt issued s.invocations (executeCommand rt s commandIdOrAlias version key input) := by
  unfold executeCommand
  split
  · trivial
  · rename_i definition hresolve
    simp only
    split
    · exact hissued definition hresolve
    · rename_i existing hget
      obtain ⟨hmem, hkey⟩ := getByIdempotencyKey_eq_some hget
      split_ifs with hcompatible hstatus
      · exact ⟨hissued definition hresolve, Or.inr (answered_conflict hmem hkey hcompatible)⟩
      · exact ⟨hissued definition hresolve, Or.inr (answered_retrieved hmem hkey hcompatible)⟩
      · exact absurd (retrievable_all _) hstatus

theorem fits_guarded {t : Invocations} (hguarded : Guarded call origin i)
    (h : Fits rt issued t call) : Fits rt issued t (origin.finish i.invocationId answer) := by
  cases hguarded with
  | compiling r => exact ⟨i.identity, h.2.1, rfl, h.2.2⟩
  | working origin d i stage =>
    cases origin with
    | fresh r => exact ⟨i.identity, h.2.1, rfl, h.2.2⟩
    | recovery => trivial
  | loading => trivial

theorem fits_working {d d' : CommandDefinition} {i' : CommandInvocation} {stage stage' : Stage}
    {t : Invocations} (hidentity : i'.identity = i.identity)
    (h : Fits rt issued t (.working origin d i stage)) :
    Fits rt issued t (.working origin d' i' stage') := by
  cases origin with
  | fresh r =>
    have hkey : i'.idempotencyKey = i.idempotencyKey := congrArg Identity.idempotencyKey hidentity
    refine ⟨h.1, ?_, hkey.trans h.2.2⟩
    rw [hidentity]
    exact h.2.1
  | recovery => trivial

/-- A call keeps its knowledge of the table over a step. -/
theorem fits_move {t : Invocations} (hmove : Move rt s e call w next)
    (h : Fits rt issued s.invocations call) (hknown : ∀ x, Known s.invocations x → Known t x)
    (hinserted : ∀ r uuid, w = .save (newInvocation rt r uuid) → e = .insert uuid →
      Known t (newInvocation rt r uuid).identity) : Fits rt issued t next := by
  have ht : Fits rt issued t call := h.mono hknown
  cases hmove with
  | refused hsecurity => exact ⟨h, Or.inl ⟨_, hsecurity, rfl⟩⟩
  | inserted => exact ⟨h, hinserted _ _ rfl rfl, rfl⟩
  | clashed hrefused =>
    obtain ⟨row, hrow, hkey⟩ := saveInvocation_eq_none hrefused
    exact ⟨h, row.identity, hknown _ (known_of_mem hrow), hkey⟩
  | reread => exact (fits_rereadKey h.1 h.2).mono hknown
  | raced => exact (fits_raceExisting h.1 h.2).mono hknown
  | compiled _ hidentity =>
    have hkey := congrArg Identity.idempotencyKey hidentity
    refine ⟨ht.1, ?_, hkey.trans ht.2.2⟩
    rw [hidentity]
    exact ht.2.1
  | bound | entered | dispatched => exact fits_working rfl ht
  | verifying =>
    refine fits_working ?_ ht
    rfl
  | completed => exact fits_guarded (.working _ _ _ _) ht
  | stopped _ hguarded => exact fits_guarded hguarded ht
  | failed _ _ hguarded => exact fits_guarded hguarded ht
  | polled hnext =>
    rcases hnext with hnext | ⟨answer, hnext⟩
    · rw [hnext]
      trivial
    · rw [hnext]
      trivial
  | rebound | gaveUp | deferred | acquired | resumed | replanned | released | cancelled => trivial

theorem dispatched_finish (h : dispatched (origin.finish invocationId answer) = some (r, id)) :
    origin = .fresh r ∧ invocationId = id := by
  cases origin with
  | fresh r' =>
    obtain ⟨hr, hid⟩ := Prod.mk.inj (some.inj h)
    exact ⟨congrArg Origin.fresh hr, hid⟩
  | recovery => cases h

theorem dispatched_guarded (h : Guarded call (.fresh r) i) :
    dispatched call = some (r, i.invocationId) := by
  cases h with
  | compiling | working => rfl

theorem dispatched_rereadKey : dispatched (rereadKey rt s r i) = none := by
  unfold rereadKey
  split
  · split_ifs <;> rfl
  · rfl

theorem dispatched_raceExisting : dispatched (raceExisting rt s r) = none := by
  unfold raceExisting
  split
  · split_ifs <;> rfl
  · rfl

theorem dispatched_working {d d' : CommandDefinition} {i' : CommandInvocation}
    {stage stage' : Stage} (h : i.invocationId = i'.invocationId) :
    dispatched (.working origin d i stage) = dispatched (.working origin d' i' stage') := by
  cases origin with
  | fresh r =>
    show some (r, i.invocationId) = some (r, i'.invocationId)
    rw [h]
  | recovery => rfl

theorem dispatched_move (hmove : Move rt s e call w next) (h : dispatched next = some (r, id)) :
    dispatched call = some (r, id) ∨ ∃ uuid, e = .insert uuid ∧ id = "inv_" ++ uuid := by
  cases hmove with
  | refused | clashed | rebound | gaveUp | deferred | acquired | resumed | replanned | released
  | cancelled => cases h
  | inserted =>
    obtain ⟨_, hid⟩ := Prod.mk.inj (some.inj h)
    exact Or.inr ⟨_, rfl, hid.symm⟩
  | reread =>
    rw [dispatched_rereadKey] at h
    cases h
  | raced =>
    rw [dispatched_raceExisting] at h
    cases h
  | compiled _ hidentity =>
    obtain ⟨hr, hid⟩ := Prod.mk.inj (some.inj h)
    have hsame := congrArg Identity.invocationId hidentity
    left
    show some (_, _) = some (r, id)
    rw [← hid, hr]
    exact congrArg (fun x => some (r, x)) hsame.symm
  | bound => exact Or.inl h
  | entered | dispatched | verifying =>
    refine Or.inl (Eq.trans (dispatched_working ?_) h)
    rfl
  | completed =>
    obtain ⟨horigin, hid⟩ := dispatched_finish h
    rw [horigin, ← hid]
    exact Or.inl rfl
  | stopped _ hguarded =>
    obtain ⟨horigin, hid⟩ := dispatched_finish h
    rw [horigin] at hguarded
    rw [← hid]
    exact Or.inl (dispatched_guarded hguarded)
  | failed _ _ hguarded =>
    obtain ⟨horigin, hid⟩ := dispatched_finish h
    rw [horigin] at hguarded
    rw [← hid]
    exact Or.inl (dispatched_guarded hguarded)
  | polled hnext =>
    rcases hnext with hnext | ⟨answer, hnext⟩
    · rw [hnext] at h
      cases h
    · rw [hnext] at h
      cases h

theorem dispatched_executeCommand {commandIdOrAlias : String} {version : Option Nat}
    {key : String} {input : Json} :
    dispatched (executeCommand rt s commandIdOrAlias version key input) = none := by
  unfold executeCommand
  split
  · rfl
  · simp only
    split
    · rfl
    · split_ifs <;> rfl

theorem fits_cancelCommand {reason : String} {t : Invocations} :
    Fits rt issued t (cancelCommand s invocationId reason) := by
  unfold cancelCommand
  split
  · trivial
  · split_ifs <;> trivial

theorem dispatched_cancelCommand {reason : String} :
    dispatched (cancelCommand s invocationId reason) = none := by
  unfold cancelCommand
  split
  · rfl
  · split_ifs <;> rfl

theorem fits_recoverCommand {t : Invocations} :
    Fits rt issued t (recoverCommand s invocationId) := by
  unfold recoverCommand
  split
  · trivial
  · split_ifs <;> trivial

theorem dispatched_recoverCommand : dispatched (recoverCommand s invocationId) = none := by
  unfold recoverCommand
  split
  · rfl
  · split_ifs <;> rfl

end Moves

/-- What holds of the calls and of the rows' requests in every state that can be reached. -/
structure Bound (rt : Runtime) (issued : Request → Prop) (s : CommandState) : Prop where
  fits : ∀ c call, s.calls c = some call → Fits rt issued s.invocations call
  apart : ∀ c c' r r' id, dispatchedAt s c = some (r, id) → dispatchedAt s c' = some (r', id) →
    c = c'
  rows : ∀ x, Known s.invocations x → ∃ r, issued r ∧ Asks rt r x

theorem bound_initial {rt : Runtime} {issued : Request → Prop} : Bound rt issued initial := by
  constructor
  · intro c call hcall
    cases hcall
  · intro c c' r r' id h
    cases h
  · intro x hx
    exact absurd hx List.not_mem_nil

section Steps

variable {rt : Runtime} {issued : Request → Prop} {s t : CommandState}

theorem dispatchedAt_setCall (caller c : Nat) (call : Call) :
    dispatchedAt (s.setCall caller call) c =
      if c = caller then dispatched call else dispatchedAt s c := by
  unfold dispatchedAt
  rw [calls_setCall]
  by_cases hsame : c = caller
  · simp [hsame]
  · simp [hsame]

theorem bound_setCall (h : Bound rt issued s) {caller : Nat} {call : Call}
    (hfits : Fits rt issued s.invocations call)
    (hdispatched : ∀ r id, dispatched call = some (r, id) → dispatchedAt s caller = some (r, id)) :
    Bound rt issued (s.setCall caller call) := by
  have hkept : ∀ c r id, dispatchedAt (s.setCall caller call) c = some (r, id) →
      dispatchedAt s c = some (r, id) := by
    intro c r id hc
    rw [dispatchedAt_setCall] at hc
    split_ifs at hc with hsame
    · rw [hsame]
      exact hdispatched r id hc
    · exact hc
  refine ⟨?_, ?_, h.rows⟩
  · intro c call' hc
    rw [calls_setCall] at hc
    split_ifs at hc
    · rw [← some.inj hc]
      exact hfits
    · exact h.fits c call' hc
  · intro c c' r r' id hc hc'
    exact h.apart c c' r r' id (hkept c r id hc) (hkept c' r' id hc')

variable {call next : Call} {e : Event} {c : Nat}

theorem known_of_dispatched {t : Invocations} {r : Request} {id : String}
    (h : Fits rt issued t call) (hdispatched : dispatched call = some (r, id)) :
    ∃ x, Known t x ∧ x.invocationId = id ∧ x.idempotencyKey = r.idempotencyKey := by
  induction call with
  | compiling r' i =>
    obtain ⟨hr, hid⟩ := Prod.mk.inj (some.inj hdispatched)
    rw [← hr]
    exact ⟨i.identity, h.2.1, hid, h.2.2⟩
  | working origin d i stage =>
    cases origin with
    | fresh r' =>
      obtain ⟨hr, hid⟩ := Prod.mk.inj (some.inj hdispatched)
      rw [← hr]
      exact ⟨i.identity, h.2.1, hid, h.2.2⟩
    | recovery => cases hdispatched
  | executed r' invocationId answer =>
    obtain ⟨hr, hid⟩ := Prod.mk.inj (some.inj hdispatched)
    rw [← hr, ← hid]
    exact h
  | crashed last ih => exact ih h hdispatched
  | inserting r | rereading r i | racing r | submitted r answer | claiming i | awaiting i
  | loading i | releasing id answer | cancelling i reason | ended answer => cases hdispatched

/-- A request that starts is one of those that are issued. -/
def Issues (rt : Runtime) (issued : Request → Prop) (a : Action) : Prop :=
  ∀ r, requestOf rt a = some r → issued r

theorem bound_event (hcoherent : Coherent s) (h : Bound rt issued s) {caller : Nat} {e : Event}
    (hstep : step rt s (.event caller e) = some t) : Bound rt issued t := by
  obtain ⟨call, w, next, drawn, written, hcall, hadvance, hdraw, hwrite, ht⟩ := step_event hstep
  have hmove := advance_move hadvance
  have hfits := h.fits caller call hcall
  have hdrawn : drawn.invocations = s.invocations ∧ drawn.calls = s.calls := by
    rcases draw_cases hdraw with ⟨_, _, _, hd⟩ | ⟨_, hd⟩
    · rw [hd]
      exact ⟨rfl, rfl⟩
    · rw [hd]
      exact ⟨rfl, rfl⟩
  have hcalls : written.calls = s.calls := (write_calls hwrite).trans hdrawn.2
  have hfresh : ∀ uuid, e = .insert uuid → uuid ∉ s.drawn := by
    intro uuid he
    rcases draw_cases hdraw with ⟨uuid', he', hnew, _⟩ | ⟨hne, _⟩
    · rw [Event.insert.inj (he.symm.trans he')]
      exact hnew
    · exact absurd he (hne uuid)
  have hsaved : ∀ i, w = .save i → saveInvocation s.invocations i = some written.invocations := by
    intro i hw
    rcases write_invocations hwrite with ⟨i', hw', hsave⟩ | ⟨hne, _⟩
    · rw [hdrawn.1] at hsave
      rw [Write.save.inj (hw.symm.trans hw')]
      exact hsave
    · exact absurd hw (hne i)
  have hknown : ∀ x, Known s.invocations x → Known written.invocations x := by
    intro x hx
    rcases write_invocations hwrite with ⟨i, hw, _⟩ | ⟨_, hsame⟩
    · exact hx.save (hsaved i hw)
    · rw [hsame, hdrawn.1]
      exact hx
  have hinserted : ∀ r uuid, w = .save (newInvocation rt r uuid) → e = .insert uuid →
      Known written.invocations (newInvocation rt r uuid).identity :=
    fun r uuid hw he => known_self (hcoherent.fresh (hfresh uuid he)) (hsaved _ hw)
  -- An identifier that has just been drawn is nobody's.
  have hnobody : ∀ uuid, e = .insert uuid → ∀ c r, dispatchedAt s c ≠ some (r, "inv_" ++ uuid) := by
    intro uuid he c r hc
    obtain ⟨other, hother, hdispatched⟩ := bind_eq_some_iff.mp hc
    obtain ⟨x, hx, hid, _⟩ := known_of_dispatched (h.fits c other hother) hdispatched
    obtain ⟨row, hrow, hidentity⟩ := hx.row
    have hnone : s.invocations.get? (newInvocation rt r uuid).invocationId = none :=
      hcoherent.fresh (hfresh uuid he)
    rw [Table.get?_eq_none_iff] at hnone
    apply hnone row hrow
    rw [← hidentity] at hid
    exact hid
  have hold : ∀ c r id, c ≠ caller → dispatchedAt t c = some (r, id) →
      dispatchedAt s c = some (r, id) := by
    intro c r id hne hc
    rw [ht, dispatchedAt_setCall, if_neg hne] at hc
    unfold dispatchedAt at hc
    rw [hcalls] at hc
    exact hc
  have hown : ∀ r id, dispatchedAt t caller = some (r, id) →
      dispatchedAt s caller = some (r, id) ∨ ∃ uuid, e = .insert uuid ∧ id = "inv_" ++ uuid := by
    intro r id hc
    rw [ht, dispatchedAt_setCall, if_pos rfl] at hc
    rcases dispatched_move hmove hc with hsame | hnew
    · exact Or.inl (bind_eq_some_iff.mpr ⟨call, hcall, hsame⟩)
    · exact Or.inr hnew
  have hone : ∀ c r r' id, c ≠ caller → dispatchedAt t c = some (r, id) →
      dispatchedAt t caller = some (r', id) → c = caller := by
    intro c r r' id hne hc hcaller
    have hc' := hold c r id hne hc
    rcases hown r' id hcaller with hsame | ⟨uuid, he, hid⟩
    · exact h.apart c caller r r' id hc' hsame
    · rw [hid] at hc'
      exact absurd hc' (hnobody uuid he c r)
  refine ⟨?_, ?_, ?_⟩
  · intro c call' hc
    have hinvocations : t.invocations = written.invocations := by
      rw [ht]
      rfl
    rw [hinvocations]
    rw [ht, calls_setCall] at hc
    split_ifs at hc
    · rw [← some.inj hc]
      exact fits_move hmove hfits hknown hinserted
    · rw [hcalls] at hc
      exact (h.fits c call' hc).mono hknown
  · intro c c' r r' id hc hc'
    by_cases hsame : c = caller
    · by_cases hsame' : c' = caller
      · rw [hsame, hsame']
      · rw [hsame] at hc
        exact absurd (hone c' r' r id hsame' hc' hc) hsame'
    · by_cases hsame' : c' = caller
      · rw [hsame'] at hc'
        exact absurd (hone c r r' id hsame hc hc') hsame
      · exact h.apart c c' r r' id (hold c r id hsame hc) (hold c' r' id hsame' hc')
  · intro x hx
    have hinvocations : t.invocations = written.invocations := by
      rw [ht]
      rfl
    rw [hinvocations] at hx
    rcases write_invocations hwrite with ⟨i, hw, _⟩ | ⟨_, hsame⟩
    · unfold Known at hx
      rcases identities_saveInvocation (hsaved i hw) with hsame | ⟨hnone, _, hadded⟩
      · rw [hsame] at hx
        exact h.rows x hx
      · rw [hadded] at hx
        rcases List.mem_append.mp hx with hold' | hnew
        · exact h.rows x hold'
        · -- Only an insert adds a row, and it is that of its request.
          rw [hw] at hmove
          rcases hmove.save with ⟨copy, hcopy, hidentity⟩ | ⟨r, uuid, _, hinserting, hi⟩
          · have hthere := (hcoherent.copies caller call copy hcall hcopy).2
            rw [← hidentity] at hthere
            obtain ⟨row, hrow⟩ := hthere.get?
            rw [hnone] at hrow
            cases hrow
          · rw [hinserting] at hfits
            rw [List.mem_singleton.mp hnew, hi]
            exact ⟨r, hfits, rfl, rfl, rfl⟩
    · rw [hsame, hdrawn.1] at hx
      exact h.rows x hx

theorem step_bound {a : Action} (hcoherent : Coherent s) (h : Bound rt issued s)
    (hissues : Issues rt issued a) (hstep : step rt s a = some t) : Bound rt issued t := by
  cases a with
  | executeCommand caller commandIdOrAlias version key input =>
    rw [(start_eq hstep).2]
    apply bound_setCall h
    · apply fits_executeCommand
      intro definition hresolve
      apply hissues
      simp [requestOf, hresolve]
    · intro r id hdispatched
      rw [dispatched_executeCommand] at hdispatched
      cases hdispatched
  | cancelCommand caller invocationId reason =>
    rw [(start_eq hstep).2]
    apply bound_setCall h fits_cancelCommand
    intro r id hdispatched
    rw [dispatched_cancelCommand] at hdispatched
    cases hdispatched
  | recoverCommand caller invocationId =>
    rw [(start_eq hstep).2]
    apply bound_setCall h fits_recoverCommand
    intro r id hdispatched
    rw [dispatched_recoverCommand] at hdispatched
    cases hdispatched
  | event caller e => exact bound_event hcoherent h hstep
  | crash caller =>
    obtain ⟨call, hcall, _, ht⟩ := step_crash hstep
    rw [ht]
    apply bound_setCall h
    · exact h.fits caller call hcall
    · intro r id hdispatched
      exact bind_eq_some_iff.mpr ⟨call, hcall, hdispatched⟩
  | clock now =>
    rw [← some.inj hstep]
    exact ⟨h.fits, h.apart, h.rows⟩

theorem nothing_of_submits {w : Write} (hmove : Move rt s e call w next) (h : submits next = true) :
    w = .nothing := by
  cases hmove with
  | refused | clashed | reread | raced | bound | entered | dispatched | stopped | gaveUp | deferred
  | polled | resumed => rfl
  | inserted | compiled | rebound | verifying | acquired | replanned | released | cancelled =>
    cases h
  | @completed origin | @failed _ _ origin => cases origin <;> cases h

/-- A step that leaves its call without a dispatch leaves the invocations alone. -/
theorem invocations_of_submits {a : Action} (hcaller : a.caller? = some c)
    (hcall : t.calls c = some call) (h : submits call = true) (hstep : step rt s a = some t) :
    t.invocations = s.invocations := by
  cases a with
  | executeCommand caller commandIdOrAlias version key input =>
    rw [(start_eq hstep).2]
    rfl
  | cancelCommand caller invocationId reason =>
    rw [(start_eq hstep).2]
    rfl
  | recoverCommand caller invocationId =>
    rw [(start_eq hstep).2]
    rfl
  | event caller e =>
    obtain ⟨_, w, next, drawn, written, _, hadvance, hdraw, hwrite, ht⟩ := step_event hstep
    obtain rfl : caller = c := some.inj hcaller
    have hnext : next = call := by
      rw [ht, calls_setCall, if_pos rfl] at hcall
      exact some.inj hcall
    have hw : w = .nothing := nothing_of_submits (advance_move hadvance) (hnext ▸ h)
    have hinvocations : t.invocations = written.invocations := by
      rw [ht]
      rfl
    rw [hinvocations]
    rcases write_invocations hwrite with ⟨i, hsave, _⟩ | ⟨_, hsame⟩
    · rw [hw] at hsave
      cases hsave
    · rw [hsame]
      rcases draw_cases hdraw with ⟨_, _, _, hd⟩ | ⟨_, hd⟩
      · rw [hd]
      · rw [hd]
  | crash caller =>
    obtain ⟨_, _, _, ht⟩ := step_crash hstep
    rw [ht]
    rfl
  | clock now =>
    rw [← some.inj hstep]

def Through (s : CommandState) (c : Nat) : Prop :=
  (∃ r answer, s.calls c = some (.submitted r answer)) ∨ ∃ r id, dispatchedAt s c = some (r, id)

/-- By steps of its own alone, a call gets through. -/
def GetsThrough (rt : Runtime) (s : CommandState) (c : Nat) : Prop :=
  ∃ bs t, (∀ b ∈ bs, b.caller? = some c) ∧ run (step rt) s bs = some t ∧ Through t c

theorem GetsThrough.step {c : Nat} {e : Event} (hstep : step rt s (.event c e) = some t)
    (h : GetsThrough rt t c) : GetsThrough rt s c := by
  obtain ⟨bs, u, hbs, hrun, hthrough⟩ := h
  refine ⟨.event c e :: bs, u, ?_, run_cons_eq_some.mpr ⟨t, hstep, hrun⟩, hthrough⟩
  intro b hb
  rcases List.mem_cons.mp hb with hfirst | hrest
  · rw [hfirst]
    rfl
  · exact hbs b hrest

theorem getsThrough_of_through (h : Through s c) : GetsThrough rt s c :=
  ⟨[], s, fun _ hb => absurd hb List.not_mem_nil, rfl, h⟩

theorem step_of_nothing (hcall : s.calls c = some call)
    (hadvance : advance rt s e call = some (.nothing, next)) (hdraw : s.draw e = some t) :
    step rt s (.event c e) = some (t.setCall c next) := by
  simp [step, hcall, hadvance, hdraw, CommandState.write]

theorem calls_setCall_self (s : CommandState) (c : Nat) (call : Call) :
    (s.setCall c call).calls c = some call := by
  rw [calls_setCall, if_pos rfl]

theorem getsThrough_racing {r : Request} (hcall : s.calls c = some (.racing r)) :
    GetsThrough rt s c := by
  have hanswer : ∃ answer, raceExisting rt s r = .submitted r answer := by
    unfold raceExisting
    split
    · split_ifs
      · exact ⟨_, rfl⟩
      · exact ⟨_, rfl⟩
    · exact ⟨_, rfl⟩
  obtain ⟨answer, hnext⟩ := hanswer
  have hstep : step rt s (.event c .reread) = some (s.setCall c (.submitted r answer)) := by
    rw [← hnext]
    exact step_of_nothing hcall rfl rfl
  apply GetsThrough.step hstep
  exact getsThrough_of_through (Or.inl ⟨r, answer, calls_setCall_self s c _⟩)

theorem getsThrough_rereading {r : Request} {i : CommandInvocation}
    (hcall : s.calls c = some (.rereading r i)) : GetsThrough rt s c := by
  have hstep : step rt s (.event c .reread) = some (s.setCall c (rereadKey rt s r i)) :=
    step_of_nothing hcall rfl rfl
  have hnext : (∃ answer, rereadKey rt s r i = .submitted r answer) ∨
      rereadKey rt s r i = .racing r := by
    unfold rereadKey
    split
    · split_ifs
      · exact Or.inl ⟨_, rfl⟩
      · exact Or.inr rfl
    · exact Or.inr rfl
  apply GetsThrough.step hstep
  rcases hnext with ⟨answer, hnext⟩ | hnext
  · rw [hnext]
    exact getsThrough_of_through (Or.inl ⟨r, answer, calls_setCall_self s c _⟩)
  · rw [hnext]
    exact getsThrough_racing (calls_setCall_self s c _)

theorem exists_fresh (drawn : List String) : ∃ uuid, uuid ∉ drawn := by
  have hinjective : Function.Injective fun n => String.ofList (List.replicate n 'u') := by
    intro n m h
    have hlist := congrArg (fun text => text.toList.length) h
    simpa using hlist
  have hinfinite : Infinite String := Infinite.of_injective _ hinjective
  obtain ⟨uuid, huuid⟩ := Infinite.exists_notMem_finset drawn.toFinset
  exact ⟨uuid, fun h => huuid (List.mem_toFinset.mpr h)⟩

theorem getsThrough_inserting {r : Request} (hcall : s.calls c = some (.inserting r)) :
    GetsThrough rt s c := by
  obtain ⟨uuid, hfresh⟩ := exists_fresh s.drawn
  have hdraw : s.draw (.insert uuid) = some { s with drawn := uuid :: s.drawn } := by
    simp [CommandState.draw, hfresh]
  cases hsecurity : enforceCommandSecurity r.input with
  | error e =>
    have hadvance : advance rt s (.insert uuid) (.inserting r) =
        some (.nothing, .submitted r (.threw (.other none e.message))) := by
      simp [advance, insertPending, hsecurity]
    apply GetsThrough.step (step_of_nothing hcall hadvance hdraw)
    exact getsThrough_of_through (Or.inl ⟨r, _, calls_setCall_self _ c _⟩)
  | ok u =>
    cases hsave : saveInvocation s.invocations (newInvocation rt r uuid) with
    | none =>
      have hadvance : advance rt s (.insert uuid) (.inserting r) =
          some (.nothing, .rereading r (newInvocation rt r uuid)) := by
        simp [advance, insertPending, hsecurity, hsave]
      apply GetsThrough.step (step_of_nothing hcall hadvance hdraw)
      exact getsThrough_rereading (calls_setCall_self _ c _)
    | some invocations =>
      have hadvance : advance rt s (.insert uuid) (.inserting r) =
          some (.save (newInvocation rt r uuid), .compiling r (newInvocation rt r uuid)) := by
        simp [advance, insertPending, hsecurity, hsave]
      have hstep : step rt s (.event c (.insert uuid)) =
          some ({ s with drawn := uuid :: s.drawn, invocations }.setCall c
            (.compiling r (newInvocation rt r uuid))) := by
        simp [step, hcall, hadvance, hdraw, CommandState.write, hsave]
      apply GetsThrough.step hstep
      refine getsThrough_of_through (Or.inr ⟨r, (newInvocation rt r uuid).invocationId, ?_⟩)
      rw [dispatchedAt_setCall, if_pos rfl]
      rfl

theorem getsThrough (hcall : s.calls c = some call) (h : submits call = true) :
    GetsThrough rt s c := by
  cases call with
  | inserting r => exact getsThrough_inserting hcall
  | rereading r i => exact getsThrough_rereading hcall
  | racing r => exact getsThrough_racing hcall
  | submitted r answer => exact getsThrough_of_through (Or.inl ⟨r, answer, hcall⟩)
  | compiling r i | working origin d i stage | executed r id answer | claiming i | awaiting i
  | loading i | releasing id answer | cancelling i reason | ended answer | crashed last => cases h

theorem Coherent.row_of_key (h : Coherent s) {x : Identity} (hx : Known s.invocations x) :
    ∃ row, getByIdempotencyKey s.invocations x.idempotencyKey = some row ∧ row.identity = x := by
  obtain ⟨row, hrow, hidentity⟩ := hx.row
  have hkey : row.idempotencyKey = x.idempotencyKey := congrArg Identity.idempotencyKey hidentity
  cases hget : getByIdempotencyKey s.invocations x.idempotencyKey with
  | none => exact absurd hkey (getByIdempotencyKey_eq_none hget row hrow)
  | some found =>
    obtain ⟨hfound, hsame⟩ := getByIdempotencyKey_eq_some hget
    have heq : found = row :=
      List.inj_on_of_nodup_map h.keys hfound hrow (hsame.trans hkey.symm)
    exact ⟨found, rfl, heq ▸ hidentity⟩

theorem run_bound {as : List Action} (hr : run (step rt) initial as = some t) :
    Coherent t ∧ Bound rt (fun r => r ∈ as.filterMap (requestOf rt)) t := by
  have hissues : Along (step rt) (fun _ a => Issues rt (fun r => r ∈ as.filterMap (requestOf rt)) a)
      initial as :=
    Along.of_mem fun a ha r hr => List.mem_filterMap.mpr ⟨a, ha, hr⟩
  exact hissues.invariant
    (I := fun s => Coherent s ∧ Bound rt (fun r => r ∈ as.filterMap (requestOf rt)) s)
    (fun _ _ _ h hissue hstep =>
      ⟨step_coherent h.1 hstep, step_bound h.1 h.2 hissue hstep⟩)
    ⟨coherent_initial, bound_initial⟩ hr

/-- Two dispatchers under one key are one call. -/
theorem dispatched_unique {issued : Request → Prop} (hcoherent : Coherent s)
    (h : Bound rt issued s) {c c' : Nat} {r r' : Request} {id id' : String}
    (hc : dispatchedAt s c = some (r, id)) (hc' : dispatchedAt s c' = some (r', id'))
    (hkey : r.idempotencyKey = r'.idempotencyKey) : c = c' := by
  have hknown : ∀ d q i, dispatchedAt s d = some (q, i) →
      ∃ x, Known s.invocations x ∧ x.invocationId = i ∧ x.idempotencyKey = q.idempotencyKey := by
    intro d q i hd
    obtain ⟨call, hcall, hdispatched⟩ := bind_eq_some_iff.mp hd
    exact known_of_dispatched (h.fits d call hcall) hdispatched
  obtain ⟨x, hx, hxid, hxkey⟩ := hknown c r id hc
  obtain ⟨x', hx', hxid', hxkey'⟩ := hknown c' r' id' hc'
  obtain ⟨row, hget, hidentity⟩ := Coherent.row_of_key hcoherent hx
  obtain ⟨row', hget', hidentity'⟩ := Coherent.row_of_key hcoherent hx'
  have hsame : id = id' := by
    rw [hxkey, hkey, ← hxkey', hget'] at hget
    rw [← hxid, ← hxid', ← hidentity, ← hidentity', some.inj hget]
  rw [← hsame] at hc'
  exact h.apart c c' r r' id hc hc'

theorem asks_of_fingerprint {as : List Action} (hsha : Collisionless rt as)
    (h : Bound rt (fun r => r ∈ as.filterMap (requestOf rt)) s) {x : Identity} {r : Request}
    (hr : r ∈ as.filterMap (requestOf rt)) (hx : Known s.invocations x)
    (hfingerprint : x.requestFingerprint = r.fingerprint rt) : Asks rt r x := by
  obtain ⟨r₀, hr₀, hid, hversion, hfingerprint₀⟩ := h.rows x hx
  have htext : text rt r₀ = text rt r :=
    hsha r₀ hr₀ r hr (hfingerprint₀.symm.trans hfingerprint)
  obtain ⟨hsame, hsame'⟩ := canonical_inj htext
  exact ⟨hid.trans hsame, hversion.trans hsame', hfingerprint⟩

end Steps

/-- One call dispatches under a key; every other one gets through without touching the table, and
unless the security check has refused its input it has the stored invocation or a conflict, as the
fingerprints say. -/
structure Converges (rt : Runtime) (t : CommandState) : Prop where
  one : ∀ c c' r r' id id', dispatchedAt t c = some (r, id) → dispatchedAt t c' = some (r', id') →
    r.idempotencyKey = r'.idempotencyKey → c = c'
  answered : ∀ c r answer, t.calls c = some (.submitted r answer) → Refused r answer ∨
    ∃ row, getByIdempotencyKey t.invocations r.idempotencyKey = some row ∧
      (row.requestFingerprint = r.fingerprint rt → Returns row.identity answer) ∧
      (row.requestFingerprint ≠ r.fingerprint rt → Conflicts answer)
  kept : ∀ a c u call, step rt t a = some u → a.caller? = some c → u.calls c = some call →
    submits call = true → u.invocations = t.invocations
  through : ∀ c call, t.calls c = some call → submits call = true → GetsThrough rt t c

/-- Over every interleaving, recoveries, cancellations and crashes included. -/
theorem executeCommand_converges {rt : Runtime} {as : List Action} {t : CommandState}
    (hsha : Collisionless rt as) (hr : run (step rt) initial as = some t) : Converges rt t := by
  obtain ⟨hcoherent, hbound⟩ := run_bound hr
  constructor
  · intro c c' r r' id id' hc hc' hkey
    exact dispatched_unique hcoherent hbound hc hc' hkey
  · intro c r answer hcall
    obtain ⟨hissued, hrefused | hanswered⟩ := hbound.fits c _ hcall
    · exact Or.inl hrefused
    · obtain ⟨x, hx, hkey, hreturns, hconflicts⟩ := hanswered
      obtain ⟨row, hget, hidentity⟩ := Coherent.row_of_key hcoherent hx
      rw [hkey] at hget
      have hfingerprint : row.requestFingerprint = x.requestFingerprint :=
        congrArg Identity.requestFingerprint hidentity
      refine Or.inr ⟨row, hget, ?_, ?_⟩
      · intro hequal
        rw [hidentity]
        exact hreturns (asks_of_fingerprint hsha hbound hissued hx (hfingerprint.symm.trans hequal))
      · intro hdiffer
        apply hconflicts
        intro hasks
        exact hdiffer (hfingerprint.trans hasks.2.2)
  · intro a c u call hstep hcaller hcall h
    exact invocations_of_submits hcaller hcall h hstep
  · intro c call hcall h
    exact getsThrough hcall h

/-- Three calls under one key that all find it free: one inserts, one asks for the same, one for
something else. -/
def contended : List Action :=
  [.executeCommand 1 "plan" none "k" (.object []), .executeCommand 2 "plan" none "k" (.object []),
    .executeCommand 3 "plan" none "k" (.object [("a", .string "b")]), .event 1 (.insert "u1"),
    .event 2 (.insert "u2"), .event 2 .reread, .event 2 .reread, .event 3 (.insert "u3"),
    .event 3 .reread]

theorem contended_converges : ∃ t, run (step planOnly) initial contended = some t ∧
    Converges planOnly t := by
  have hruns : (run (step planOnly) initial contended).isSome = true := by decide +kernel
  obtain ⟨t, ht⟩ := isSome_iff_exists.mp hruns
  exact ⟨t, ht, executeCommand_converges (fun _ _ _ _ h => h) ht⟩

/-- A call that finds the key free, and whose input the security check refuses once it is taken. -/
def refusedInRace : List Action :=
  [.executeCommand 1 "plan" none "k" (.object []),
    .executeCommand 2 "plan" none "k" (.object [("a", .string "b;c")]), .event 1 (.insert "u1"),
    .event 2 (.insert "u2")]

/-- The call threw, and asked for something else than what its key has. -/
def threwOver (rt : Runtime) (t : CommandState) : Call → Bool
  | .submitted r (.threw _) =>
    (getByIdempotencyKey t.invocations r.idempotencyKey).any fun row =>
      decide (row.requestFingerprint ≠ r.fingerprint rt)
  | _ => false

/-- The second call asks for something else than what is stored, and is not told of a conflict. -/
theorem refused_in_race :
    ¬∀ rt as t c r answer, run (step rt) initial as = some t →
      t.calls c = some (.submitted r answer) →
        ∀ row, getByIdempotencyKey t.invocations r.idempotencyKey = some row →
          row.requestFingerprint ≠ r.fingerprint rt → Conflicts answer := by
  intro hall
  have hthrew : (run (step planOnly) initial refusedInRace).any (fun t =>
      (t.calls 2).any (threwOver planOnly t)) = true := by decide +kernel
  obtain ⟨t, ht, hcalls⟩ := (any_eq_true _ _).mp hthrew
  obtain ⟨call, hcall, hover⟩ := (any_eq_true _ _).mp hcalls
  unfold threwOver at hover
  split at hover
  · rename_i r failure
    obtain ⟨row, hrow, hdiffer⟩ := (any_eq_true _ _).mp hover
    obtain ⟨result, hresult, _⟩ :=
      hall planOnly refusedInRace t 2 r _ ht hcall row hrow (of_decide_eq_true hdiffer)
    cases hresult
  · cases hover

end Idempotency
