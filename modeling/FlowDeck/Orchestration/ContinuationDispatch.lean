import FlowDeck.Library.Machine
import FlowDeck.Orchestration.ContinuationPolicy
import Mathlib.Data.List.Count

namespace ContinuationDispatch

open ContinuationPolicy Machine Table Option

/-- The shared table, every call by number, and the prompts sent, newest first. -/
structure State where
  dispatches : Dispatches
  calls : Nat → CallState
  prompts : List Prompt

inductive Action
  | dispatch (c : Nat) (token : ContinuationToken) (options : DispatchOptions)
  | statement (c : Nat)
  | send (c : Nat) (authority : Bool)
  | promptResolved (c : Nat)
  | promptFailed (c : Nat) (error : String)
  | markDispatchedThrew (c : Nat) (error : String)
  | crash (c : Nat)
  | reconcilePendingDispatches

def State.setCall (s : State) (c : Nat) (call : CallState) : State :=
  { s with calls := Function.update s.calls c call }

def start (sha256 : String → String) (token : ContinuationToken) (options : DispatchOptions) :
    CallState :=
  let call : Call := {
    identity := computeTokenIdentity sha256 token
    token
    validatesAuthority := options.authority.isSome
    promptAsync := options.promptAsync
    promptText := options.promptText }
  match revalidate token options with
  | some reason => call.refuse reason
  | none => .running call .insertClaim

/-- The segment from a granted claim to its first wait: the claim is released or the prompt sent. -/
def sendClaimed (s : State) (c : Nat) (call : Call) (authority : Bool) : State :=
  if call.validatesAuthority && !authority then
    s.setCall c (.running call (.release .authorityRevoked))
  else if call.promptAsync then
    { s.setCall c (.running call .inFlight) with prompts := call.prompt :: s.prompts }
  else s.setCall c (.running call (.release .nativeDispatchUnavailable))

def step (sha256 : String → String) (s : State) : Action → Option State
  | .dispatch c token options =>
    match s.calls c with
    | .idle => some (s.setCall c (start sha256 token options))
    | _ => none
  | .statement c =>
    match s.calls c with
    | .running call stage =>
      (ContinuationPolicy.statement s.dispatches call stage).map fun (dispatches, after) =>
        { s.setCall c after with dispatches }
    | _ => none
  | .send c authority =>
    match s.calls c with
    | .running call .claimed => some (sendClaimed s c call authority)
    | _ => none
  | .promptResolved c =>
    match s.calls c with
    | .running call .inFlight => some (s.setCall c (.running call .markDispatched))
    | _ => none
  | .promptFailed c error =>
    match s.calls c with
    | .running call .inFlight => some (s.setCall c (.running call (.readAttempts error)))
    | _ => none
  | .markDispatchedThrew c error =>
    match s.calls c with
    | .running call .markDispatched => some (s.setCall c (.running call (.readAttempts error)))
    | _ => none
  | .crash c =>
    match s.calls c with
    | .running _ _ => some (s.setCall c .dead)
    | _ => none
  | .reconcilePendingDispatches =>
    some { s with dispatches := ContinuationPolicy.reconcilePendingDispatches s.dispatches }

/-- The part of a row the claim protocol turns on. -/
def cell (dispatches : Dispatches) (identity : String) : Option (DispatchStatus × Nat) :=
  (dispatches.get? identity).map fun row => (row.status, row.attemptCount)

def holdsClaim : Stage → Bool
  | .claimed => true
  | .release _ => true
  | .inFlight => true
  | .markDispatched => true
  | .readAttempts _ => true
  | .markFailed _ _ => true
  | _ => false

def claims (identity : String) : CallState → Bool
  | .running call stage => decide (call.identity = identity) && holdsClaim stage
  | _ => false

/-- The call has the claim and has yet to send its prompt. -/
def unsent (identity : String) : CallState → Bool
  | .running call .claimed => decide (call.identity = identity)
  | _ => false

def sending (identity : String) : CallState → Bool
  | .running call .inFlight => decide (call.identity = identity)
  | _ => false

/-- The call has returned `dispatched: true`. -/
def delivered (identity : String) : CallState → Bool
  | .returned result => result.dispatched && decide (result.identity = identity)
  | _ => false

variable {identity : String} {state : CallState} {dispatches dispatches' : Dispatches}
  {f : DispatchRow → DispatchRow} {condition : DispatchRow → Bool} {stage : Stage} {call : Call}
  {a : Action} {sha256 : String → String}

/-- A flag that is down implies anything. -/
theorem of_down {b : Bool} {p : Prop} (h : b = false) (hb : b = true) : p := by
  rw [h] at hb
  cases hb

theorem unsent_claims (h : unsent identity state = true) : claims identity state = true := by
  cases state with
  | running call stage =>
    cases stage with
    | claimed => simpa [unsent, claims, holdsClaim] using h
    | _ => simp [unsent] at h
  | _ => simp [unsent] at h

theorem sending_claims (h : sending identity state = true) : claims identity state = true := by
  cases state with
  | running call stage =>
    cases stage with
    | inFlight => simpa [sending, claims, holdsClaim] using h
    | _ => simp [sending] at h
  | _ => simp [sending] at h

theorem unsent_eq_false (h : claims identity state = false) : unsent identity state = false := by
  cases hunsent : unsent identity state with
  | false => rfl
  | true =>
    rw [unsent_claims hunsent] at h
    exact h

theorem sending_eq_false (h : claims identity state = false) : sending identity state = false := by
  cases hsending : sending identity state with
  | false => rfl
  | true =>
    rw [sending_claims hsending] at h
    exact h

theorem cell_update {p : DispatchRow → Bool} {hf : ∀ row, (f row).identity = row.identity}
    {k : String} :
    cell (dispatches.update p f hf) k =
      (dispatches.get? k).map fun row =>
        ((setWhere p f row).status, (setWhere p f row).attemptCount) := by
  rw [cell, get?_update, map_map]
  rfl

theorem cell_update_other {hf : ∀ row, (f row).identity = row.identity} {k : String}
    (hk : k ≠ identity) :
    cell (dispatches.update (isRow identity condition) f hf) k = cell dispatches k := by
  rw [cell_update, cell]
  cases hrow : dispatches.get? k with
  | none => rfl
  | some row =>
    have hid : row.identity = k := key_of_get? hrow
    simp [setWhere, isRow, hid, hk]

theorem cell_update_self {hf : ∀ row, (f row).identity = row.identity} {row : DispatchRow}
    (hrow : dispatches.get? identity = some row) :
    cell (dispatches.update (isRow identity condition) f hf) identity =
      if condition row then some ((f row).status, (f row).attemptCount)
      else some (row.status, row.attemptCount) := by
  have hid : row.identity = identity := key_of_get? hrow
  rw [cell_update, hrow]
  simp only [map_some, setWhere, isRow, hid, decide_true, Bool.true_and]
  split_ifs <;> rfl

theorem cell_update_missing {p : DispatchRow → Bool} {hf : ∀ row, (f row).identity = row.identity}
    (hrow : dispatches.get? identity = none) : cell (dispatches.update p f hf) identity = none := by
  rw [cell_update, hrow]
  rfl

theorem cell_of_get? {row : DispatchRow} (hrow : dispatches.get? identity = some row) :
    cell dispatches identity = some (row.status, row.attemptCount) := by
  rw [cell, hrow]
  rfl

theorem changes_isRow_pos :
    0 < dispatches.changes (isRow identity condition) ↔
      ∃ row, dispatches.get? identity = some row ∧ condition row = true :=
  changes_key_pos_iff

/-- What one statement of a call does to the row it names and to its hold on it. -/
inductive StatementEffect (identity : String) (stage : Stage)
    (before after : Option (DispatchStatus × Nat)) (state : CallState) : Prop
  | keep (hcell : after = before)
      (hclaim : claims identity state = true → holdsClaim stage = true)
      (hunsent : unsent identity state = false) (hsending : sending identity state = false)
      (hdelivered : delivered identity state = false)
  | acquire (hstage : holdsClaim stage = false)
      (hcell : (before = none ∧ after = some (.pending, 1)) ∨
        ∃ n, n < maxAttempts ∧ before = some (.failed, n) ∧ after = some (.pending, n + 1))
      (hunsent : unsent identity state = true)
  | block (status : DispatchStatus) (n : Nat) (hstatus : status ≠ .dispatched)
      (hbefore : before = some (status, n)) (hafter : after = some (.blocked, n))
      (hclaim : claims identity state = false) (hdelivered : delivered identity state = false)
      (hstage : status = .failed ∨ stage = .blockMismatched)
  | conclude (status : DispatchStatus) (n : Nat) (hstage : holdsClaim stage = true)
      (hbefore : before = some (.pending, n)) (hafter : after = some (status, n))
      (hstatus : status ≠ .pending ∧ status ≠ .outcomeUnknown)
      (hclaim : claims identity state = false)
      (hdelivered : delivered identity state = true ↔ status = .dispatched)

theorem keep_of_quiet {before after : Option (DispatchStatus × Nat)} (hcell : after = before)
    (hclaim : claims identity state = false) (hdelivered : delivered identity state = false) :
    StatementEffect identity stage before after state := by
  refine .keep hcell (fun h => ?_) (unsent_eq_false hclaim) (sending_eq_false hclaim) hdelivered
  exact of_down hclaim h

theorem concludeClaim_effect {status : DispatchStatus} {error : Option String} {result : CallState}
    (hstage : holdsClaim stage = true) (hstatus : status ≠ .pending ∧ status ≠ .outcomeUnknown)
    (hclaim : claims call.identity result = false)
    (hdelivered : delivered call.identity result = true ↔ status = .dispatched) :
    StatementEffect call.identity stage (cell dispatches call.identity)
      (cell (concludeClaim dispatches call status error result).1 call.identity)
      (concludeClaim dispatches call status error result).2 := by
  simp only [concludeClaim, changes_isRow_pos]
  cases hrow : dispatches.get? call.identity with
  | none =>
    have hcell : cell dispatches call.identity = none := by rw [cell, hrow]; rfl
    rw [cell_update_missing hrow, hcell, if_neg (by simp)]
    exact .keep rfl (fun _ => hstage) rfl rfl rfl
  | some row =>
    rw [cell_update_self hrow, cell_of_get? hrow]
    by_cases hpending : isPending row = true
    · have hp : row.status = .pending := by simpa [isPending] using hpending
      rw [if_pos hpending, if_pos ⟨row, rfl, hpending⟩, hp]
      exact .conclude status row.attemptCount hstage rfl rfl hstatus hclaim hdelivered
    · rw [if_neg hpending, if_neg]
      · exact .keep rfl (fun _ => hstage) rfl rfl rfl
      · rintro ⟨row', hrow', hpending'⟩
        exact hpending (some.inj hrow' ▸ hpending')

theorem insertClaim_effect (h : statement dispatches call .insertClaim = some (dispatches', state)) :
    StatementEffect call.identity .insertClaim (cell dispatches call.identity)
      (cell dispatches' call.identity) state := by
  simp only [statement] at h
  cases hinsert : dispatches.insert? (claimRow call.identity call.token) with
  | none =>
    rw [hinsert] at h
    obtain ⟨rfl, rfl⟩ := Prod.mk.inj (some.inj h)
    exact keep_of_quiet rfl (by simp [claims, holdsClaim]) rfl
  | some inserted =>
    rw [hinsert] at h
    obtain ⟨rfl, rfl⟩ := Prod.mk.inj (some.inj h)
    have hnone := (insert?_eq_some hinsert).1
    have hrow := get?_insert? hinsert call.identity
    refine .acquire rfl (Or.inl ⟨?_, ?_⟩) (by simp [unsent])
    · rw [cell]
      exact congrArg _ hnone
    · have hself : (claimRow call.identity call.token).identity = call.identity := rfl
      rw [cell, hrow, if_pos hself]
      rfl

/-- A call that has looked at its row gives up or goes on to a statement of its own. -/
theorem inspectRow_cases (call : Call) (row : DispatchRow) :
    (∃ reason, inspectRow call row = call.refuse reason) ∨
      ∃ stage, holdsClaim stage = false ∧ inspectRow call row = .running call stage := by
  unfold inspectRow
  by_cases hcompatible : isCompatibleDurableClaim row call.token = true
  · rw [if_pos hcompatible]
    cases row.status with
    | failed =>
      by_cases hexhausted : maxAttempts ≤ row.attemptCount
      · exact Or.inr ⟨.blockExhausted, rfl, if_pos hexhausted⟩
      · exact Or.inr ⟨.retryClaim, rfl, if_neg hexhausted⟩
    | _ => exact Or.inl ⟨_, rfl⟩
  · rw [if_neg hcompatible]
    exact Or.inr ⟨.blockMismatched, rfl, rfl⟩

theorem inspect_effect (h : statement dispatches call .inspect = some (dispatches', state)) :
    StatementEffect call.identity .inspect (cell dispatches call.identity)
      (cell dispatches' call.identity) state := by
  simp only [statement] at h
  cases hrow : dispatches.get? call.identity with
  | none =>
    rw [hrow] at h
    obtain ⟨rfl, rfl⟩ := Prod.mk.inj (some.inj h)
    exact keep_of_quiet rfl rfl rfl
  | some row =>
    rw [hrow] at h
    obtain ⟨rfl, rfl⟩ := Prod.mk.inj (some.inj h)
    rcases inspectRow_cases call row with ⟨reason, hstate⟩ | ⟨stage, hstage, hstate⟩
    · rw [hstate]
      exact keep_of_quiet rfl rfl rfl
    · rw [hstate]
      exact keep_of_quiet rfl (by simp [claims, hstage]) rfl

theorem blockMismatched_effect
    (h : statement dispatches call .blockMismatched = some (dispatches', state)) :
    StatementEffect call.identity .blockMismatched (cell dispatches call.identity)
      (cell dispatches' call.identity) state := by
  obtain ⟨rfl, rfl⟩ := Prod.mk.inj (some.inj h)
  cases hrow : dispatches.get? call.identity with
  | none =>
    have hcell : cell dispatches call.identity = none := by rw [cell, hrow]; rfl
    rw [cell_update_missing hrow, hcell]
    exact keep_of_quiet rfl rfl rfl
  | some row =>
    rw [cell_update_self hrow, cell_of_get? hrow]
    by_cases hstatus : row.status = .dispatched
    · rw [if_neg (by simp [notDispatched, hstatus])]
      exact keep_of_quiet rfl rfl rfl
    · rw [if_pos (by simpa [notDispatched] using hstatus)]
      exact .block row.status row.attemptCount hstatus rfl rfl rfl rfl (Or.inr rfl)

theorem blockExhausted_effect
    (h : statement dispatches call .blockExhausted = some (dispatches', state)) :
    StatementEffect call.identity .blockExhausted (cell dispatches call.identity)
      (cell dispatches' call.identity) state := by
  obtain ⟨rfl, rfl⟩ := Prod.mk.inj (some.inj h)
  cases hrow : dispatches.get? call.identity with
  | none =>
    have hcell : cell dispatches call.identity = none := by rw [cell, hrow]; rfl
    rw [cell_update_missing hrow, hcell]
    exact keep_of_quiet rfl rfl rfl
  | some row =>
    rw [cell_update_self hrow, cell_of_get? hrow]
    by_cases hstatus : row.status = .failed
    · rw [if_pos (by simpa [isFailed] using hstatus), hstatus]
      exact .block .failed row.attemptCount (by decide) rfl rfl rfl rfl (Or.inl rfl)
    · rw [if_neg (by simpa [isFailed] using hstatus)]
      exact keep_of_quiet rfl rfl rfl

theorem retryClaim_effect (h : statement dispatches call .retryClaim = some (dispatches', state)) :
    StatementEffect call.identity .retryClaim (cell dispatches call.identity)
      (cell dispatches' call.identity) state := by
  obtain ⟨rfl, rfl⟩ := Prod.mk.inj (some.inj h)
  simp only [changes_isRow_pos]
  cases hrow : dispatches.get? call.identity with
  | none =>
    have hcell : cell dispatches call.identity = none := by rw [cell, hrow]; rfl
    rw [cell_update_missing hrow, hcell, if_neg (by simp)]
    exact keep_of_quiet rfl rfl rfl
  | some row =>
    rw [cell_update_self hrow, cell_of_get? hrow]
    by_cases hretry : mayRetry row = true
    · have hboth : row.status = .failed ∧ row.attemptCount < maxAttempts := by
        simpa [mayRetry] using hretry
      rw [if_pos hretry, if_pos ⟨row, rfl, hretry⟩, hboth.1]
      exact .acquire rfl (Or.inr ⟨row.attemptCount, hboth.2, rfl, rfl⟩) (by simp [unsent])
    · rw [if_neg hretry, if_neg]
      · exact keep_of_quiet rfl rfl rfl
      · rintro ⟨row', hrow', hretry'⟩
        exact hretry (some.inj hrow' ▸ hretry')

theorem statement_effect (h : statement dispatches call stage = some (dispatches', state)) :
    StatementEffect call.identity stage (cell dispatches call.identity)
      (cell dispatches' call.identity) state := by
  cases stage with
  | insertClaim => exact insertClaim_effect h
  | inspect => exact inspect_effect h
  | blockMismatched => exact blockMismatched_effect h
  | blockExhausted => exact blockExhausted_effect h
  | retryClaim => exact retryClaim_effect h
  | claimed => cases h
  | inFlight => cases h
  | release reason =>
    obtain ⟨rfl, rfl⟩ := Prod.mk.inj (some.inj h)
    exact concludeClaim_effect rfl (by decide) rfl (by simp [delivered, Call.refuse])
  | markDispatched =>
    obtain ⟨rfl, rfl⟩ := Prod.mk.inj (some.inj h)
    exact concludeClaim_effect rfl (by decide) rfl (by simp [delivered, Call.succeed])
  | readAttempts error =>
    obtain ⟨rfl, rfl⟩ := Prod.mk.inj (some.inj h)
    exact .keep rfl (fun _ => rfl) rfl rfl rfl
  | markFailed exhausted error =>
    obtain ⟨rfl, rfl⟩ := Prod.mk.inj (some.inj h)
    refine concludeClaim_effect rfl ?_ rfl ?_
    · cases exhausted <;> decide
    · cases exhausted <;> simp [delivered, Call.refuse]

def sentCount (s : State) (k : String) : Nat := s.prompts.countP fun prompt => prompt.identity = k

/-- No restart reconciles, and no mismatched call blocks the record, while a call stands between
its claim and its send. -/
def Uninterrupted (k : String) (s : State) : Action → Prop
  | .reconcilePendingDispatches => ∀ c, unsent k (s.calls c) = false
  | .statement c =>
    ∀ call, s.calls c = .running call .blockMismatched → call.identity = k →
      ∀ c', unsent k (s.calls c') = false
  | _ => True

/-- What one step does to the record of an identity and to the acting call's hold on it. -/
inductive StepEffect (k : String) (s : State) (a : Action) (t : State) (c : Nat) : Prop
  | keep (hcell : cell t.dispatches k = cell s.dispatches k) (hsent : sentCount t k = sentCount s k)
      (hclaim : claims k (t.calls c) = true → claims k (s.calls c) = true)
      (hunsent : unsent k (t.calls c) = true → unsent k (s.calls c) = true)
      (hdelivered : delivered k (t.calls c) = true → delivered k (s.calls c) = true)
  | acquire
      (hcell : (cell s.dispatches k = none ∧ cell t.dispatches k = some (.pending, 1)) ∨
        ∃ n, n < maxAttempts ∧ cell s.dispatches k = some (.failed, n) ∧
          cell t.dispatches k = some (.pending, n + 1))
      (hsent : sentCount t k = sentCount s k) (hunsent : unsent k (t.calls c) = true)
  | send (hcell : cell t.dispatches k = cell s.dispatches k)
      (hsent : sentCount t k = sentCount s k + 1) (hbefore : unsent k (s.calls c) = true)
      (hafter : sending k (t.calls c) = true)
  | close (status sealed : DispatchStatus) (n : Nat) (hstatus : status ≠ .dispatched)
      (hsealed : sealed = .blocked ∨ sealed = .outcomeUnknown)
      (hbefore : cell s.dispatches k = some (status, n))
      (hafter : cell t.dispatches k = some (sealed, n)) (hsent : sentCount t k = sentCount s k)
      (hclaim : claims k (t.calls c) = true → claims k (s.calls c) = true)
      (hunsent : unsent k (t.calls c) = true → unsent k (s.calls c) = true)
      (hdelivered : delivered k (t.calls c) = true → delivered k (s.calls c) = true)
      (hquiet : Uninterrupted k s a → status = .failed ∨ ∀ c', unsent k (s.calls c') = false)
  | conclude (status : DispatchStatus) (n : Nat) (hbefore : cell s.dispatches k = some (.pending, n))
      (hafter : cell t.dispatches k = some (status, n))
      (hstatus : status ≠ .pending ∧ status ≠ .outcomeUnknown)
      (hsent : sentCount t k = sentCount s k) (hclaim : claims k (s.calls c) = true)
      (hreleased : claims k (t.calls c) = false)
      (hdelivered : delivered k (t.calls c) = true ↔ status = .dispatched)

theorem stepEffect_of_quiet {k : String} {s t : State} {c : Nat}
    (hcell : cell t.dispatches k = cell s.dispatches k) (hsent : sentCount t k = sentCount s k)
    (hclaim : claims k (t.calls c) = false) (hdelivered : delivered k (t.calls c) = false) :
    StepEffect k s a t c := by
  refine .keep hcell hsent ?_ ?_ ?_
  · exact of_down hclaim
  · exact of_down (unsent_eq_false hclaim)
  · exact of_down hdelivered

@[simp] theorem State.setCall_calls (s : State) (c : Nat) (call : CallState) :
    (s.setCall c call).calls c = call := by
  simp [State.setCall]

theorem State.setCall_calls_other (s : State) {c c' : Nat} (call : CallState) (h : c' ≠ c) :
    (s.setCall c call).calls c' = s.calls c' := by
  simp [State.setCall, h]

theorem claims_running_other {k : String} (hk : k ≠ call.identity) :
    claims k (.running call stage) = false := by
  simp [claims, Ne.symm hk]

/-- A statement leaves the other records alone, and its call ends or goes on. -/
theorem statement_frame (h : statement dispatches call stage = some (dispatches', state)) :
    (∀ k, k ≠ call.identity → cell dispatches' k = cell dispatches k) ∧
      ((∃ reason, state = call.refuse reason) ∨ state = call.succeed ∨
        ∃ stage', state = .running call stage') := by
  cases stage with
  | insertClaim =>
    simp only [statement] at h
    split at h
    · rename_i inserted hinsert
      obtain ⟨rfl, rfl⟩ := Prod.mk.inj (some.inj h)
      refine ⟨fun k hk => ?_, Or.inr (Or.inr ⟨_, rfl⟩)⟩
      have hne : (claimRow call.identity call.token).identity ≠ k := fun he => hk he.symm
      rw [cell, get?_insert? hinsert k, if_neg hne]
      rfl
    · obtain ⟨rfl, rfl⟩ := Prod.mk.inj (some.inj h)
      exact ⟨fun _ _ => rfl, Or.inr (Or.inr ⟨_, rfl⟩)⟩
  | inspect =>
    simp only [statement] at h
    split at h
    · rename_i row hrow
      obtain ⟨rfl, rfl⟩ := Prod.mk.inj (some.inj h)
      refine ⟨fun _ _ => rfl, ?_⟩
      rcases inspectRow_cases call row with hreason | ⟨stage', -, hstate⟩
      · exact Or.inl hreason
      · exact Or.inr (Or.inr ⟨stage', hstate⟩)
    · obtain ⟨rfl, rfl⟩ := Prod.mk.inj (some.inj h)
      exact ⟨fun _ _ => rfl, Or.inl ⟨_, rfl⟩⟩
  | claimed => cases h
  | inFlight => cases h
  | readAttempts error =>
    obtain ⟨rfl, rfl⟩ := Prod.mk.inj (some.inj h)
    exact ⟨fun _ _ => rfl, Or.inr (Or.inr ⟨_, rfl⟩)⟩
  | retryClaim =>
    obtain ⟨rfl, rfl⟩ := Prod.mk.inj (some.inj h)
    refine ⟨fun _ hk => cell_update_other hk, ?_⟩
    split_ifs
    · exact Or.inr (Or.inr ⟨_, rfl⟩)
    · exact Or.inl ⟨_, rfl⟩
  | markDispatched =>
    obtain ⟨rfl, rfl⟩ := Prod.mk.inj (some.inj h)
    refine ⟨fun _ hk => cell_update_other hk, ?_⟩
    split_ifs
    · exact Or.inr (Or.inl rfl)
    · exact Or.inl ⟨_, rfl⟩
  | blockMismatched =>
    obtain ⟨rfl, rfl⟩ := Prod.mk.inj (some.inj h)
    exact ⟨fun _ hk => cell_update_other hk, Or.inl ⟨_, rfl⟩⟩
  | blockExhausted =>
    obtain ⟨rfl, rfl⟩ := Prod.mk.inj (some.inj h)
    exact ⟨fun _ hk => cell_update_other hk, Or.inl ⟨_, rfl⟩⟩
  | _ =>
    obtain ⟨rfl, rfl⟩ := Prod.mk.inj (some.inj h)
    refine ⟨fun _ hk => cell_update_other hk, ?_⟩
    split_ifs <;> exact Or.inl ⟨_, rfl⟩

theorem statement_state_other (h : statement dispatches call stage = some (dispatches', state))
    {k : String} (hk : k ≠ call.identity) : claims k state = false ∧ delivered k state = false := by
  rcases (statement_frame h).2 with ⟨reason, rfl⟩ | rfl | ⟨stage', rfl⟩
  · exact ⟨rfl, rfl⟩
  · exact ⟨rfl, by simp [delivered, Call.succeed, Ne.symm hk]⟩
  · exact ⟨claims_running_other hk, rfl⟩

theorem statement_stepEffect {k : String} {s t : State} {c : Nat}
    (hcall : s.calls c = .running call stage) {dispatches : Dispatches} {state : CallState}
    (h : statement s.dispatches call stage = some (dispatches, state))
    (ht : t = { s.setCall c state with dispatches }) : StepEffect k s (.statement c) t c := by
  have hstate : t.calls c = state := by rw [ht]; exact s.setCall_calls c state
  have hdispatches : t.dispatches = dispatches := by rw [ht]
  have hsent : sentCount t k = sentCount s k := by rw [ht]; rfl
  by_cases hk : k = call.identity
  · subst hk
    have hbefore : claims call.identity (s.calls c) = holdsClaim stage := by
      simp [hcall, claims]
    have heffect := statement_effect h
    rw [← hstate, ← hdispatches] at heffect
    cases heffect with
    | keep hcell hclaim hunsent hsending hdelivered =>
      refine .keep hcell hsent (fun hc => hbefore.trans (hclaim hc)) ?_ ?_
      · exact of_down hunsent
      · exact of_down hdelivered
    | acquire hstage hcell hunsent => exact .acquire hcell hsent hunsent
    | block status n hstatus hbefore' hafter hclaim hdelivered hstage =>
      refine .close status .blocked n hstatus (Or.inl rfl) hbefore' hafter hsent ?_ ?_ ?_ ?_
      · exact of_down hclaim
      · exact of_down (unsent_eq_false hclaim)
      · exact of_down hdelivered
      · intro hquiet
        rcases hstage with hfailed | rfl
        · exact Or.inl hfailed
        · exact Or.inr (hquiet call hcall rfl)
    | conclude status n hstage hbefore' hafter hstatus hclaim hdelivered =>
      exact .conclude status n hbefore' hafter hstatus hsent (hbefore.trans hstage) hclaim
        hdelivered
  · obtain ⟨hclaim, hdelivered⟩ := statement_state_other h hk
    rw [← hstate] at hclaim hdelivered
    have hcell := (statement_frame h).1 k hk
    rw [← hdispatches] at hcell
    exact stepEffect_of_quiet hcell hsent hclaim hdelivered

theorem start_quiet (sha256 : String → String) (token : ContinuationToken)
    (options : DispatchOptions) (k : String) :
    claims k (start sha256 token options) = false ∧
      delivered k (start sha256 token options) = false := by
  unfold start
  extract_lets call
  cases revalidate token options with
  | some reason => exact ⟨rfl, rfl⟩
  | none => exact ⟨by simp [claims, holdsClaim], rfl⟩

theorem sendClaimed_stepEffect {k : String} {s : State} {c : Nat}
    (hcall : s.calls c = .running call .claimed) (authority : Bool) :
    StepEffect k s (.send c authority) (sendClaimed s c call authority) c := by
  have hrelease : ∀ reason, StepEffect k s (.send c authority)
      (s.setCall c (.running call (.release reason))) c := by
    intro reason
    refine .keep rfl rfl ?_ ?_ ?_
    · simp [hcall, claims, holdsClaim]
    · simp [unsent]
    · simp [delivered]
  unfold sendClaimed
  split_ifs
  · exact hrelease _
  · by_cases hk : k = call.identity
    · subst hk
      refine .send rfl ?_ ?_ ?_
      · simp [sentCount, Call.prompt]
      · simp [hcall, unsent]
      · simp [sending]
    · refine stepEffect_of_quiet rfl ?_ ?_ ?_
      · simp [sentCount, Call.prompt, Ne.symm hk]
      · simp [claims, Ne.symm hk]
      · simp [delivered]
  · exact hrelease _

theorem proceed_stepEffect {k : String} {s : State} {c : Nat} (a : Action) {call : Call}
    {stage stage' : Stage} (hcall : s.calls c = .running call stage)
    (hstage : holdsClaim stage = true) (hstage' : stage' ≠ .claimed) :
    StepEffect k s a (s.setCall c (.running call stage')) c := by
  have hunsent : unsent k (.running call stage') = false := by
    cases stage' with
    | claimed => exact absurd rfl hstage'
    | _ => rfl
  refine .keep rfl rfl ?_ ?_ ?_
  · intro h
    have hid : call.identity = k := by
      simp only [State.setCall_calls, claims, Bool.and_eq_true, decide_eq_true_eq] at h
      exact h.1
    simp [hcall, claims, hid, hstage]
  · simp [hunsent]
  · simp [delivered]

theorem reconcile_stepEffect (k : String) (s : State) (c : Nat) :
    StepEffect k s .reconcilePendingDispatches
      { s with dispatches := reconcilePendingDispatches s.dispatches } c := by
  cases hrow : s.dispatches.get? k with
  | none =>
    have hcell : cell s.dispatches k = none := by rw [cell, hrow]; rfl
    have hafter : cell (reconcilePendingDispatches s.dispatches) k = none := by
      rw [reconcilePendingDispatches, cell_update_missing hrow]
    exact .keep (hafter.trans hcell.symm) rfl id id id
  | some row =>
    have hcell := cell_of_get? hrow
    have hafter : cell (reconcilePendingDispatches s.dispatches) k =
        some ((setWhere isPending setOutcomeUnknown row).status,
          (setWhere isPending setOutcomeUnknown row).attemptCount) := by
      rw [reconcilePendingDispatches, cell_update, hrow]
      rfl
    by_cases hpending : isPending row = true
    · have hp : row.status = .pending := by simpa [isPending] using hpending
      rw [setWhere_pos hpending] at hafter
      rw [hp] at hcell
      exact .close .pending .outcomeUnknown row.attemptCount (by decide) (Or.inr rfl) hcell hafter
        rfl id id id fun hquiet => Or.inr hquiet
    · rw [setWhere_neg (Bool.eq_false_iff.mpr hpending)] at hafter
      exact .keep (hafter.trans hcell.symm) rfl id id id

/-- The call an action belongs to; reconciliation belongs to none. -/
def actor : Action → Nat
  | .dispatch c _ _ => c
  | .statement c => c
  | .send c _ => c
  | .promptResolved c => c
  | .promptFailed c _ => c
  | .markDispatchedThrew c _ => c
  | .crash c => c
  | .reconcilePendingDispatches => 0

/-- A step acts on the record through its own call and leaves every other call as it is. -/
theorem step_stepEffect {s t : State} (h : step sha256 s a = some t) (k : String) :
    (∀ c, c ≠ actor a → t.calls c = s.calls c) ∧ StepEffect k s a t (actor a) := by
  have hother : ∀ {c c' : Nat} {call : CallState}, c' ≠ c → (s.setCall c call).calls c' = s.calls c' :=
    fun hc => s.setCall_calls_other _ hc
  cases a with
  | reconcilePendingDispatches =>
    obtain rfl := some.inj h
    exact ⟨fun _ _ => rfl, reconcile_stepEffect k s 0⟩
  | dispatch c token options =>
    simp only [step] at h
    split at h
    · obtain rfl := some.inj h
      obtain ⟨hclaim, hdelivered⟩ := start_quiet sha256 token options k
      exact ⟨fun _ => hother, stepEffect_of_quiet rfl rfl (by simpa [actor] using hclaim)
        (by simpa [actor] using hdelivered)⟩
    · cases h
  | statement c =>
    simp only [step] at h
    split at h
    · rename_i call stage hcall
      obtain ⟨⟨dispatches, state⟩, hstatement, rfl⟩ := map_eq_some_iff.mp h
      exact ⟨fun _ => hother, statement_stepEffect hcall hstatement rfl⟩
    · cases h
  | send c authority =>
    simp only [step] at h
    split at h
    · rename_i call hcall
      obtain rfl := some.inj h
      refine ⟨fun _ hc => ?_, sendClaimed_stepEffect hcall authority⟩
      unfold sendClaimed
      split_ifs <;> exact hother hc
    · cases h
  | promptResolved c =>
    simp only [step] at h
    split at h
    · rename_i call hcall
      obtain rfl := some.inj h
      exact ⟨fun _ => hother, proceed_stepEffect _ hcall rfl (by simp)⟩
    · cases h
  | promptFailed c error =>
    simp only [step] at h
    split at h
    · rename_i call hcall
      obtain rfl := some.inj h
      exact ⟨fun _ => hother, proceed_stepEffect _ hcall rfl (by simp)⟩
    · cases h
  | markDispatchedThrew c error =>
    simp only [step] at h
    split at h
    · rename_i call hcall
      obtain rfl := some.inj h
      exact ⟨fun _ => hother, proceed_stepEffect _ hcall rfl (by simp)⟩
    · cases h
  | crash c =>
    simp only [step] at h
    split at h
    · obtain rfl := some.inj h
      exact ⟨fun _ => hother,
        stepEffect_of_quiet rfl rfl (by simp [actor, claims]) (by simp [actor, delivered])⟩
    · cases h

/-- The claim on an identity is held by one live call at a time, and every prompt was paid for by
an attempt. -/
structure Fenced (s : State) (k : String) : Prop where
  single : ∀ c c', claims k (s.calls c) = true → claims k (s.calls c') = true → c = c'
  owned : ∀ c, claims k (s.calls c) = true → ∃ status n,
    cell s.dispatches k = some (status, n) ∧ status ≠ .failed ∧ status ≠ .dispatched
  spent : ∀ n, (∃ status, cell s.dispatches k = some (status, n)) → sentCount s k ≤ n
  absent : cell s.dispatches k = none → sentCount s k = 0
  limit : sentCount s k ≤ maxAttempts
  reserved : ∀ c, unsent k (s.calls c) = true → sentCount s k < maxAttempts ∧
    ∃ status n, cell s.dispatches k = some (status, n) ∧ sentCount s k < n
  settled : ∀ c, delivered k (s.calls c) = true → ∃ n, cell s.dispatches k = some (.dispatched, n)
  once : ∀ c c', delivered k (s.calls c) = true → delivered k (s.calls c') = true → c = c'

theorem lift_calls {s t : State} {c : Nat} (hother : ∀ c', c' ≠ c → t.calls c' = s.calls c')
    {q : CallState → Bool} (hactor : q (t.calls c) = true → q (s.calls c) = true) (c' : Nat)
    (h : q (t.calls c') = true) : q (s.calls c') = true := by
  by_cases hc : c' = c
  · subst hc
    exact hactor h
  · rw [← hother c' hc]
    exact h

section Fenced

variable {k : String} {s t : State} {c : Nat}

theorem keep_fenced (hs : Fenced s k) (hother : ∀ c', c' ≠ c → t.calls c' = s.calls c')
    (hcell : cell t.dispatches k = cell s.dispatches k) (hsent : sentCount t k = sentCount s k)
    (hclaim : claims k (t.calls c) = true → claims k (s.calls c) = true)
    (hunsent : unsent k (t.calls c) = true → unsent k (s.calls c) = true)
    (hdelivered : delivered k (t.calls c) = true → delivered k (s.calls c) = true) :
    Fenced t k where
  single c₁ c₂ h₁ h₂ :=
    hs.single c₁ c₂ (lift_calls hother hclaim c₁ h₁) (lift_calls hother hclaim c₂ h₂)
  owned c₁ h₁ := hcell ▸ hs.owned c₁ (lift_calls hother hclaim c₁ h₁)
  spent n h := hsent ▸ hs.spent n (hcell ▸ h)
  absent h := hsent ▸ hs.absent (hcell ▸ h)
  limit := hsent ▸ hs.limit
  reserved c₁ h₁ := by
    rw [hsent, hcell]
    exact hs.reserved c₁ (lift_calls hother hunsent c₁ h₁)
  settled c₁ h₁ := hcell ▸ hs.settled c₁ (lift_calls hother hdelivered c₁ h₁)
  once c₁ c₂ h₁ h₂ :=
    hs.once c₁ c₂ (lift_calls hother hdelivered c₁ h₁) (lift_calls hother hdelivered c₂ h₂)

theorem close_fenced (hs : Fenced s k) (hother : ∀ c', c' ≠ c → t.calls c' = s.calls c')
    {status sealed : DispatchStatus} {n : Nat} (hstatus : status ≠ .dispatched)
    (hsealed : sealed = .blocked ∨ sealed = .outcomeUnknown)
    (hbefore : cell s.dispatches k = some (status, n))
    (hafter : cell t.dispatches k = some (sealed, n)) (hsent : sentCount t k = sentCount s k)
    (hclaim : claims k (t.calls c) = true → claims k (s.calls c) = true)
    (hunsent : unsent k (t.calls c) = true → unsent k (s.calls c) = true)
    (hdelivered : delivered k (t.calls c) = true → delivered k (s.calls c) = true) :
    Fenced t k where
  single c₁ c₂ h₁ h₂ :=
    hs.single c₁ c₂ (lift_calls hother hclaim c₁ h₁) (lift_calls hother hclaim c₂ h₂)
  owned _ _ := by
    refine ⟨sealed, n, hafter, ?_⟩
    rcases hsealed with rfl | rfl <;> decide
  spent m h := by
    obtain ⟨status', h⟩ := h
    rw [hafter] at h
    obtain ⟨-, rfl⟩ := Prod.mk.inj (some.inj h)
    rw [hsent]
    exact hs.spent n ⟨status, hbefore⟩
  absent h := by
    rw [hafter] at h
    exact absurd h (by simp)
  limit := hsent ▸ hs.limit
  reserved c₁ h₁ := by
    obtain ⟨hlimit, status', m, hcell, hlt⟩ := hs.reserved c₁ (lift_calls hother hunsent c₁ h₁)
    rw [hbefore] at hcell
    obtain ⟨-, rfl⟩ := Prod.mk.inj (some.inj hcell)
    rw [hsent]
    exact ⟨hlimit, sealed, n, hafter, hlt⟩
  settled c₁ h₁ := by
    obtain ⟨m, hcell⟩ := hs.settled c₁ (lift_calls hother hdelivered c₁ h₁)
    rw [hbefore] at hcell
    exact absurd (Prod.mk.inj (some.inj hcell)).1 hstatus
  once c₁ c₂ h₁ h₂ :=
    hs.once c₁ c₂ (lift_calls hother hdelivered c₁ h₁) (lift_calls hother hdelivered c₂ h₂)

theorem free_of_not_owned (hs : Fenced s k)
    (hcell : cell s.dispatches k = none ∨ ∃ n, cell s.dispatches k = some (.failed, n)) (c' : Nat) :
    claims k (s.calls c') = false := by
  cases hclaim : claims k (s.calls c') with
  | false => rfl
  | true =>
    obtain ⟨status, n, howned, hfailed, -⟩ := hs.owned c' hclaim
    rcases hcell with hnone | ⟨m, hsome⟩
    · rw [hnone] at howned
      exact absurd howned (by simp)
    · rw [hsome] at howned
      exact absurd (Prod.mk.inj (some.inj howned)).1.symm hfailed

variable {state : CallState}

theorem not_delivered_of_claims (h : claims k state = true) : delivered k state = false := by
  cases state with
  | running call stage => rfl
  | _ => exact absurd h (by simp [claims])

theorem acquire_fenced (hs : Fenced s k) (hother : ∀ c', c' ≠ c → t.calls c' = s.calls c')
    (hcell : (cell s.dispatches k = none ∧ cell t.dispatches k = some (.pending, 1)) ∨
      ∃ n, n < maxAttempts ∧ cell s.dispatches k = some (.failed, n) ∧
        cell t.dispatches k = some (.pending, n + 1))
    (hsent : sentCount t k = sentCount s k) (hunsent : unsent k (t.calls c) = true) :
    Fenced t k := by
  have hfree : ∀ c', claims k (s.calls c') = false := by
    intro c'
    refine free_of_not_owned hs ?_ c'
    rcases hcell with ⟨hnone, -⟩ | ⟨n, -, hfailed, -⟩
    · exact Or.inl hnone
    · exact Or.inr ⟨n, hfailed⟩
  have honly : ∀ c', claims k (t.calls c') = true → c' = c := by
    intro c' h
    by_contra hc
    rw [hother c' hc, hfree c'] at h
    exact absurd h (by decide)
  obtain ⟨n, hafter, hlt, hmax⟩ : ∃ n, cell t.dispatches k = some (.pending, n) ∧
      sentCount s k < n ∧ n ≤ maxAttempts := by
    rcases hcell with ⟨hnone, hafter⟩ | ⟨n, hn, hfailed, hafter⟩
    · exact ⟨1, hafter, by rw [hs.absent hnone]; decide, by decide⟩
    · have := hs.spent n ⟨_, hfailed⟩
      exact ⟨n + 1, hafter, by omega, by omega⟩
  have hnone : ∀ c', delivered k (t.calls c') = false := by
    intro c'
    cases hd : delivered k (t.calls c') with
    | false => rfl
    | true =>
      by_cases hc : c' = c
      · subst hc
        rw [not_delivered_of_claims (unsent_claims hunsent)] at hd
        exact hd.symm
      · rw [hother c' hc] at hd
        obtain ⟨m, hdispatched⟩ := hs.settled c' hd
        rcases hcell with ⟨hbefore, -⟩ | ⟨m', -, hbefore, -⟩
        · rw [hbefore] at hdispatched
          exact absurd hdispatched (by simp)
        · rw [hbefore] at hdispatched
          exact absurd (Prod.mk.inj (some.inj hdispatched)).1 (by decide)
  exact {
    single := fun c₁ c₂ h₁ h₂ => (honly c₁ h₁).trans (honly c₂ h₂).symm
    owned := fun c₁ _ => ⟨.pending, n, hafter, by decide, by decide⟩
    spent := by
      rintro m ⟨status, hm⟩
      rw [hafter] at hm
      obtain ⟨-, rfl⟩ := Prod.mk.inj (some.inj hm)
      rw [hsent]
      exact Nat.le_of_lt hlt
    absent := fun h => by
      rw [hafter] at h
      exact absurd h (by simp)
    limit := hsent ▸ hs.limit
    reserved := fun c₁ _ => by
      rw [hsent]
      exact ⟨Nat.lt_of_lt_of_le hlt hmax, .pending, n, hafter, hlt⟩
    settled := fun c₁ h => by
      exact of_down (hnone c₁) h
    once := fun c₁ _ h _ => by
      exact of_down (hnone c₁) h }

theorem not_unsent_of_sending (h : sending k state = true) : unsent k state = false := by
  cases state with
  | running call stage =>
    cases stage with
    | inFlight => rfl
    | _ => exact absurd h (by simp [sending])
  | _ => exact absurd h (by simp [sending])

theorem send_fenced (hs : Fenced s k) (hother : ∀ c', c' ≠ c → t.calls c' = s.calls c')
    (hcell : cell t.dispatches k = cell s.dispatches k)
    (hsent : sentCount t k = sentCount s k + 1) (hbefore : unsent k (s.calls c) = true)
    (hafter : sending k (t.calls c) = true) : Fenced t k := by
  obtain ⟨hlimit, status, n, hstatus, hlt⟩ := hs.reserved c hbefore
  have hclaim : claims k (t.calls c) = true → claims k (s.calls c) = true :=
    fun _ => unsent_claims hbefore
  have hdelivered : delivered k (t.calls c) = true → delivered k (s.calls c) = true := by
    exact of_down (not_delivered_of_claims (sending_claims hafter))
  exact {
    single := fun c₁ c₂ h₁ h₂ =>
      hs.single c₁ c₂ (lift_calls hother hclaim c₁ h₁) (lift_calls hother hclaim c₂ h₂)
    owned := fun c₁ h₁ => hcell ▸ hs.owned c₁ (lift_calls hother hclaim c₁ h₁)
    spent := by
      rintro m ⟨status', hm⟩
      rw [hcell, hstatus] at hm
      obtain ⟨-, rfl⟩ := Prod.mk.inj (some.inj hm)
      omega
    absent := fun h => by
      rw [hcell, hstatus] at h
      exact absurd h (by simp)
    limit := by omega
    reserved := fun c₁ h₁ => by
      have hc : c₁ = c := hs.single c₁ c
        (lift_calls hother hclaim c₁ (unsent_claims h₁)) (unsent_claims hbefore)
      subst hc
      exact of_down (not_unsent_of_sending hafter) h₁
    settled := fun c₁ h₁ => hcell ▸ hs.settled c₁ (lift_calls hother hdelivered c₁ h₁)
    once := fun c₁ c₂ h₁ h₂ =>
      hs.once c₁ c₂ (lift_calls hother hdelivered c₁ h₁) (lift_calls hother hdelivered c₂ h₂) }

theorem conclude_fenced (hs : Fenced s k) (hother : ∀ c', c' ≠ c → t.calls c' = s.calls c')
    {status : DispatchStatus} {n : Nat} (hbefore : cell s.dispatches k = some (.pending, n))
    (hafter : cell t.dispatches k = some (status, n)) (hsent : sentCount t k = sentCount s k)
    (hclaim : claims k (s.calls c) = true) (hreleased : claims k (t.calls c) = false)
    (hdelivered : delivered k (t.calls c) = true ↔ status = .dispatched) : Fenced t k := by
  have hfree : ∀ c', claims k (t.calls c') = false := by
    intro c'
    by_cases hc : c' = c
    · subst hc
      exact hreleased
    · cases h : claims k (t.calls c') with
      | false => rfl
      | true =>
        rw [hother c' hc] at h
        exact absurd (hs.single c' c h hclaim) hc
  have honly : ∀ c', delivered k (t.calls c') = true → c' = c := by
    intro c' h
    by_contra hc
    rw [hother c' hc] at h
    obtain ⟨m, hdispatched⟩ := hs.settled c' h
    rw [hbefore] at hdispatched
    exact absurd (Prod.mk.inj (some.inj hdispatched)).1 (by decide)
  exact {
    single := fun c₁ _ h₁ _ => by
      exact of_down (hfree c₁) h₁
    owned := fun c₁ h₁ => by
      exact of_down (hfree c₁) h₁
    spent := by
      rintro m ⟨status', hm⟩
      rw [hafter] at hm
      obtain ⟨-, rfl⟩ := Prod.mk.inj (some.inj hm)
      rw [hsent]
      exact hs.spent n ⟨_, hbefore⟩
    absent := fun h => by
      rw [hafter] at h
      exact absurd h (by simp)
    limit := hsent ▸ hs.limit
    reserved := fun c₁ h₁ => by
      exact of_down (unsent_eq_false (hfree c₁)) h₁
    settled := fun c₁ h₁ => by
      have hc := honly c₁ h₁
      subst hc
      exact ⟨n, hdelivered.mp h₁ ▸ hafter⟩
    once := fun c₁ c₂ h₁ h₂ => (honly c₁ h₁).trans (honly c₂ h₂).symm }

end Fenced

theorem step_fenced {k : String} (s : State) (a : Action) (t : State) (hs : Fenced s k)
    (h : step sha256 s a = some t) : Fenced t k := by
  obtain ⟨hother, heffect⟩ := step_stepEffect h k
  cases heffect with
  | keep hcell hsent hclaim hunsent hdelivered =>
    exact keep_fenced hs hother hcell hsent hclaim hunsent hdelivered
  | acquire hcell hsent hunsent => exact acquire_fenced hs hother hcell hsent hunsent
  | send hcell hsent hbefore hafter => exact send_fenced hs hother hcell hsent hbefore hafter
  | close status sealed n hstatus hsealed hbefore hafter hsent hclaim hunsent hdelivered _ =>
    exact close_fenced hs hother hstatus hsealed hbefore hafter hsent hclaim hunsent hdelivered
  | conclude status n hbefore hafter _ hsent hclaim hreleased hdelivered =>
    exact conclude_fenced hs hother hbefore hafter hsent hclaim hreleased hdelivered

def initial (dispatches : Dispatches) : State where
  dispatches := dispatches
  calls := fun _ => .idle
  prompts := []

theorem initial_fenced (dispatches : Dispatches) (k : String) : Fenced (initial dispatches) k where
  single _ _ h := absurd h (by simp [initial, claims])
  owned _ h := absurd h (by simp [initial, claims])
  spent n _ := Nat.zero_le n
  absent _ := rfl
  limit := Nat.zero_le maxAttempts
  reserved _ h := absurd h (by simp [initial, unsent])
  settled _ h := absurd h (by simp [initial, delivered])
  once _ _ h := absurd h (by simp [initial, delivered])

/-- The record has become dispatched, blocked or outcome-unknown. -/
def Sealed (s : State) (k : String) : Prop :=
  ∃ status n, cell s.dispatches k = some (status, n) ∧ status ≠ .pending ∧ status ≠ .failed

/-- A sealed record stays sealed, and no call that had no claim on it gets one. -/
def NoNewClaim (k : String) (s t : State) : Prop :=
  Sealed s k → Sealed t k ∧ ∀ c, claims k (t.calls c) = true → claims k (s.calls c) = true

theorem NoNewClaim.refl (k : String) (s : State) : NoNewClaim k s s := fun h => ⟨h, fun _ => id⟩

theorem NoNewClaim.trans {k : String} {s t u : State} (hst : NoNewClaim k s t)
    (htu : NoNewClaim k t u) : NoNewClaim k s u := by
  intro h
  obtain ⟨ht, hclaim⟩ := hst h
  obtain ⟨hu, hclaim'⟩ := htu ht
  exact ⟨hu, fun c hc => hclaim c (hclaim' c hc)⟩

theorem step_noNewClaim {k : String} {s t : State} (h : step sha256 s a = some t) :
    NoNewClaim k s t := by
  rintro ⟨status, n, hsealed, hpending, hfailed⟩
  obtain ⟨hother, heffect⟩ := step_stepEffect h k
  cases heffect with
  | keep hcell _ hclaim _ _ =>
    exact ⟨⟨status, n, hcell.trans hsealed, hpending, hfailed⟩, lift_calls hother hclaim⟩
  | acquire hcell _ _ =>
    rcases hcell with ⟨hbefore, -⟩ | ⟨m, -, hbefore, -⟩
    · rw [hbefore] at hsealed
      exact absurd hsealed (by simp)
    · rw [hbefore] at hsealed
      exact absurd (Prod.mk.inj (some.inj hsealed)).1.symm hfailed
  | send hcell _ hbefore _ =>
    exact ⟨⟨status, n, hcell.trans hsealed, hpending, hfailed⟩,
      lift_calls hother fun _ => unsent_claims hbefore⟩
  | close status' sealed m _ hsealed' _ hafter _ hclaim _ _ _ =>
    refine ⟨⟨sealed, m, hafter, ?_⟩, lift_calls hother hclaim⟩
    rcases hsealed' with rfl | rfl <;> decide
  | conclude status' m hbefore _ _ _ _ _ _ =>
    rw [hbefore] at hsealed
    exact absurd (Prod.mk.inj (some.inj hsealed)).1.symm hpending

/-- A prompt is sent only while the record is pending. -/
def SendsPending (sha256 : String → String) (k : String) (s : State) (a : Action) : Prop :=
  ∀ t, step sha256 s a = some t → sentCount s k < sentCount t k →
    ∃ n, cell s.dispatches k = some (.pending, n)

/-- A call between its claim and its send finds its record pending. -/
def UnsentPending (k : String) (s : State) : Prop :=
  ∀ c, unsent k (s.calls c) = true → ∃ n, cell s.dispatches k = some (.pending, n)

theorem step_unsentPending {k : String} {s t : State} (hs : Fenced s k) (hu : UnsentPending k s)
    (ha : Uninterrupted k s a) (h : step sha256 s a = some t) : UnsentPending k t := by
  obtain ⟨hother, heffect⟩ := step_stepEffect h k
  intro c hc
  cases heffect with
  | keep hcell _ _ hunsent _ =>
    rw [hcell]
    exact hu c (lift_calls hother hunsent c hc)
  | acquire hcell _ _ =>
    rcases hcell with ⟨-, hafter⟩ | ⟨m, -, -, hafter⟩
    · exact ⟨_, hafter⟩
    · exact ⟨_, hafter⟩
  | send hcell _ hbefore _ =>
    rw [hcell]
    exact hu _ hbefore
  | close status sealed m _ _ hbefore _ _ _ hunsent _ hquiet =>
    have hcs := lift_calls hother hunsent c hc
    rcases hquiet ha with hfailed | hnone
    · rw [free_of_not_owned hs (Or.inr ⟨m, hfailed ▸ hbefore⟩) c |> unsent_eq_false] at hcs
      exact absurd hcs (by decide)
    · exact of_down (hnone c) hcs
  | conclude status m _ _ _ _ hclaim hreleased _ =>
    by_cases hactor : c = actor a
    · subst hactor
      exact of_down (unsent_eq_false hreleased) hc
    · rw [hother c hactor] at hc
      exact absurd (hs.single c (actor a) (unsent_claims hc) hclaim) hactor

theorem unsentPending_sends {k : String} {s : State} (hu : UnsentPending k s) (a : Action) :
    SendsPending sha256 k s a := by
  intro t h hlt
  cases (step_stepEffect h k).2 with
  | send _ _ hbefore _ => exact hu _ hbefore
  | keep _ hsent _ _ _ => omega
  | acquire _ hsent _ => omega
  | close _ _ _ _ _ _ _ hsent _ _ _ _ => omega
  | conclude _ _ _ _ _ hsent _ _ _ => omega

theorem dispatch_exclusive (sha256 : String → String) (dispatches : Dispatches)
    (as : List Action) (t : State) (hrun : run (step sha256) (initial dispatches) as = some t)
    (k : String) :
    (∀ c c', delivered k (t.calls c) = true → delivered k (t.calls c') = true → c = c') ∧
    sentCount t k ≤ 2 ∧
    (∀ c c', sending k (t.calls c) = true → sending k (t.calls c') = true → c = c') ∧
    Throughout (step sha256) (NoNewClaim k) (initial dispatches) as ∧
    (Along (step sha256) (Uninterrupted k) (initial dispatches) as →
      Along (step sha256) (SendsPending sha256 k) (initial dispatches) as) := by
  have hfenced : Fenced t k := run_invariant step_fenced (initial_fenced dispatches k) hrun
  refine ⟨hfenced.once, hfenced.limit, ?_, ?_, ?_⟩
  · intro c c' h h'
    exact hfenced.single c c' (sending_claims h) (sending_claims h')
  · rw [throughout_iff_along (NoNewClaim.refl k) fun _ _ _ => NoNewClaim.trans]
    exact Along.of_forall (R := fun s _ t => NoNewClaim k s t) fun _ _ _ => step_noNewClaim
  · intro hquiet
    have hinitial : Fenced (initial dispatches) k ∧ UnsentPending k (initial dispatches) :=
      ⟨initial_fenced dispatches k, fun _ h => absurd h (by simp [initial, unsent])⟩
    refine Along.imp (I := fun s => Fenced s k ∧ UnsentPending k s) ?_ ?_ hinitial hquiet
    · intro s a u hs ha h
      exact ⟨step_fenced s a u hs.1 h, step_unsentPending hs.1 hs.2 ha h⟩
    · intro s a hs _
      exact unsentPending_sends hs.2 a

def retryToken : ContinuationToken where
  runId := "run-1"
  sessionId := "session-1"
  userTurnVersion := 1
  runAggregateVersion := 3
  transitionReason := .nextWorkItemReady
  currentWorkItemId := none
  stateFingerprint := "fp"
  identityKey := some "token-1"

def uncheckedOptions : DispatchOptions where
  authority := none
  statePort := none
  currentTurnVersion := none
  currentAggregateVersion := none
  promptAsync := true
  promptText := none

/-- A failed first send, a second call that retries, and a restart. -/
def retryRun : List Action :=
  [.dispatch 0 retryToken uncheckedOptions, .statement 0, .send 0 true,
    .promptFailed 0 "unreachable", .statement 0, .statement 0,
    .dispatch 1 retryToken uncheckedOptions, .statement 1, .statement 1, .statement 1,
    .send 1 true, .promptResolved 1, .statement 1, .reconcilePendingDispatches]

theorem dispatch_exclusive_retry : ∃ t, run (step id) (initial empty) retryRun = some t ∧
    sentCount t "token-1" ≤ 2 :=
  ⟨_, rfl, (dispatch_exclusive id empty retryRun _ rfl "token-1").2.1⟩

/-- Another process's start reconciles between a call's claim and its send. -/
theorem prompt_after_outcome_unknown : ∃ s t,
    run (step id) (initial empty)
      [.dispatch 0 retryToken uncheckedOptions, .statement 0, .reconcilePendingDispatches] =
        some s ∧
    step id s (.send 0 true) = some t ∧ Sealed s "token-1" ∧
    sentCount s "token-1" < sentCount t "token-1" :=
  ⟨_, _, rfl, rfl, ⟨.outcomeUnknown, 1, by decide⟩, by decide⟩

theorem record_accounts (k : String) (as : List Action) : Along (step sha256) (fun s _ =>
      (∀ status n, cell s.dispatches k = some (status, n) → sentCount s k ≤ n) ∧
      ∀ c, delivered k (s.calls c) = true → ∃ n, cell s.dispatches k = some (.dispatched, n))
    (initial dispatches) as := by
  have hany : Along (step sha256) (fun _ _ => True) (initial dispatches) as :=
    Along.of_mem fun _ _ => trivial
  apply hany.imp (fun s a t h _ => step_fenced s a t h) _ (initial_fenced dispatches k)
  intro s _ h _
  exact ⟨fun status n hrow => h.spent n ⟨status, hrow⟩, h.settled⟩

end ContinuationDispatch
