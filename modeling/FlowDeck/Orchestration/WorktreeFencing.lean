import FlowDeck.Library.Machine
import Mathlib.Logic.Function.Basic

/-! The runtime's worktree leases and the fencing tokens they are issued under. -/

namespace WorktreeFencing

open Machine Option

structure Lease where
  worktreeKey : String
  ownerId : String
  acquiredAt : Int
  expiresAt : Int
  fencingToken : Nat
  deriving DecidableEq

inductive LeasingErrorType
  | alreadyOwned
  | ownerMismatch
  | leaseExpired
  | fencingViolation
  deriving DecidableEq

structure LeasingError where
  type : LeasingErrorType
  message : String
  deriving DecidableEq

structure Repository where
  leases : String → Option Lease
  worktreeTokens : String → Option Nat

def empty : Repository where
  leases _ := none
  worktreeTokens _ := none

def defaultTtlMs : Int := 30000

def acquire (s : Repository) (worktreeKey ownerId : String) (ttlMs : Option Int) (now : Int) :
    Except LeasingError Lease × Repository :=
  match (s.leases worktreeKey).filter (·.ownerId ≠ ownerId) with
  | some existing =>
    (.error ⟨.alreadyOwned, "Already owned by " ++ existing.ownerId⟩, s)
  | none =>
    let newToken := (s.worktreeTokens worktreeKey).getD 0 + 1
    let lease : Lease := {
      worktreeKey
      ownerId
      acquiredAt := now
      expiresAt := now + ttlMs.getD defaultTtlMs
      fencingToken := newToken }
    (.ok lease, {
      leases := Function.update s.leases worktreeKey (some lease)
      worktreeTokens := Function.update s.worktreeTokens worktreeKey (some newToken) })

def renew (s : Repository) (worktreeKey ownerId : String) (ttlMs : Option Int) (now : Int) :
    Except LeasingError Lease × Repository :=
  match s.leases worktreeKey with
  | none => (.error ⟨.leaseExpired, "No active lease found"⟩, s)
  | some existing =>
    if existing.ownerId ≠ ownerId then
      (.error ⟨.ownerMismatch, "Owned by " ++ existing.ownerId ++ ", not " ++ ownerId⟩, s)
    else
      let renewed := { existing with expiresAt := now + ttlMs.getD defaultTtlMs }
      (.ok renewed, { s with leases := Function.update s.leases worktreeKey (some renewed) })

def Repository.drop (s : Repository) (worktreeKey : String) : Repository :=
  { s with leases := Function.update s.leases worktreeKey none }

def release (s : Repository) (worktreeKey ownerId : String) : Repository :=
  if (s.leases worktreeKey).any (·.ownerId = ownerId) then s.drop worktreeKey else s

/-- A look at a lease; one that has expired is dropped by it. -/
def getLease (s : Repository) (worktreeKey : String) (now : Int) : Option Lease × Repository :=
  match s.leases worktreeKey with
  | none => (none, s)
  | some lease => if lease.expiresAt < now then (none, s.drop worktreeKey) else (some lease, s)

def validateFencing (s : Repository) (worktreeKey ownerId : String) (providedToken : Option Nat) :
    Except LeasingError Unit :=
  match s.leases worktreeKey with
  | none => .error ⟨.leaseExpired, "No active lease found"⟩
  | some current =>
    if current.ownerId ≠ ownerId then
      .error ⟨.ownerMismatch, "Expected " ++ ownerId ++ ", got " ++ current.ownerId⟩
    else if providedToken.any (current.fencingToken ≠ ·) then
      .error ⟨.fencingViolation, "Stale token: expected " ++ toString current.fencingToken ++
        ", got " ++ toString (providedToken.getD 0)⟩
    else .ok ()

inductive Action
  | acquire (worktreeKey ownerId : String) (ttlMs : Option Int) (now : Int)
  | renew (worktreeKey ownerId : String) (ttlMs : Option Int) (now : Int)
  | release (worktreeKey ownerId : String)
  | getLease (worktreeKey : String) (now : Int)
  | validateFencing (worktreeKey ownerId : String) (providedToken : Option Nat) (now : Int)

def step (s : Repository) : Action → Option Repository
  | .acquire worktreeKey ownerId ttlMs now => some (acquire s worktreeKey ownerId ttlMs now).2
  | .renew worktreeKey ownerId ttlMs now => some (renew s worktreeKey ownerId ttlMs now).2
  | .release worktreeKey ownerId => some (release s worktreeKey ownerId)
  | .getLease worktreeKey now => some (getLease s worktreeKey now).2
  | .validateFencing .. => some s

/-- A validation succeeds only for the token of the lease that is there and has not expired. -/
def Fenced (s : Repository) : Action → Prop
  | .validateFencing worktreeKey ownerId providedToken now =>
    validateFencing s worktreeKey ownerId providedToken = .ok () →
      ∃ lease, (getLease s worktreeKey now).1 = some lease ∧ lease.ownerId = ownerId ∧
        providedToken = some lease.fencingToken
  | _ => True

def InTime (s : Repository) : Action → Prop
  | .validateFencing worktreeKey ownerId providedToken now =>
    ∀ lease, s.leases worktreeKey = some lease → lease.ownerId = ownerId →
      ∃ token, providedToken = some token ∧ (token = lease.fencingToken → now ≤ lease.expiresAt)
  | _ => True

variable {s t : Repository} {a : Action} {key ownerId : String} {lease : Lease} {ttlMs : Option Int}
  {now : Int}

theorem validateFencing_eq_ok {providedToken : Option Nat} :
    validateFencing s key ownerId providedToken = .ok () ↔
      ∃ lease, s.leases key = some lease ∧ lease.ownerId = ownerId ∧
        ∀ token, providedToken = some token → lease.fencingToken = token := by
  unfold validateFencing
  cases hlease : s.leases key with
  | none => simp
  | some lease =>
    by_cases howner : lease.ownerId = ownerId
    · cases providedToken <;> simp [howner]
    · simp [howner]

theorem getLease_eq_some :
    (getLease s key now).1 = some lease ↔ s.leases key = some lease ∧ now ≤ lease.expiresAt := by
  unfold getLease
  cases hlease : s.leases key with
  | none => simp
  | some found =>
    simp only [some.injEq]
    split_ifs with hexpired
    · simp only [false_iff]
      rintro ⟨rfl, hle⟩
      omega
    · simp only [some.injEq, iff_self_and]
      rintro rfl
      omega

theorem fenced_iff_inTime (s : Repository) (a : Action) : Fenced s a ↔ InTime s a := by
  cases a with
  | validateFencing key ownerId providedToken now =>
    simp only [Fenced, InTime, validateFencing_eq_ok, getLease_eq_some]
    constructor
    · intro h lease hlease howner
      cases providedToken with
      | none =>
        obtain ⟨_, _, _, htoken⟩ := h ⟨lease, hlease, howner, fun _ ht => nomatch ht⟩
        cases htoken
      | some token =>
        refine ⟨token, rfl, ?_⟩
        rintro rfl
        obtain ⟨found, ⟨hfound, hle⟩, -⟩ := h ⟨lease, hlease, howner, by simp⟩
        rw [hlease] at hfound
        exact some.inj hfound ▸ hle
    · rintro h ⟨lease, hlease, howner, hsame⟩
      obtain ⟨token, rfl, hle⟩ := h lease hlease howner
      have htoken : lease.fencingToken = token := hsame token rfl
      exact ⟨lease, ⟨hlease, hle htoken.symm⟩, howner, by rw [htoken]⟩
  | _ => exact Iff.rfl

/-! ### The tokens of a worktree -/

def lastToken (s : Repository) (key : String) : Nat := (s.worktreeTokens key).getD 0

/-- A lease has the last token that was issued for its worktree. -/
def Latest (s : Repository) : Prop :=
  ∀ key lease, s.leases key = some lease → lease.fencingToken = lastToken s key

def Acquires (s : Repository) (a : Action) (key : String) (lease : Lease) : Prop :=
  ∃ ownerId ttlMs now, a = .acquire key ownerId ttlMs now ∧
    (acquire s key ownerId ttlMs now).1 = .ok lease

theorem acquire_cases (s : Repository) (key ownerId : String) (ttlMs : Option Int) (now : Int) :
    (∃ error, acquire s key ownerId ttlMs now = (.error error, s)) ∨
    ∃ lease, lease.fencingToken = lastToken s key + 1 ∧
      acquire s key ownerId ttlMs now = (.ok lease, {
        leases := Function.update s.leases key (some lease)
        worktreeTokens := Function.update s.worktreeTokens key (some lease.fencingToken) }) := by
  unfold acquire
  split
  · exact Or.inl ⟨_, rfl⟩
  · exact Or.inr ⟨_, rfl, rfl⟩

/-- What a step does to a worktree: its lease is kept under its token or dropped, or acquired. -/
theorem step_effect (h : step s a = some t) (key : String) :
    (lastToken t key = lastToken s key ∧ ∀ lease, t.leases key = some lease →
      ∃ old, s.leases key = some old ∧ old.fencingToken = lease.fencingToken) ∨
    ∃ lease, Acquires s a key lease ∧ lease.fencingToken = lastToken s key + 1 ∧
      t.leases key = some lease ∧ lastToken t key = lease.fencingToken := by
  have hdrop : ∀ key', lastToken (s.drop key') key = lastToken s key ∧
      ∀ lease, (s.drop key').leases key = some lease →
        ∃ old, s.leases key = some old ∧ old.fencingToken = lease.fencingToken := by
    refine fun key' => ⟨rfl, fun lease hlease => ⟨lease, ?_, rfl⟩⟩
    by_cases hkey : key = key'
    · simp [Repository.drop, hkey] at hlease
    · simpa [Repository.drop, hkey] using hlease
  have hkeep : lastToken s key = lastToken s key ∧ ∀ lease, s.leases key = some lease →
      ∃ old, s.leases key = some old ∧ old.fencingToken = lease.fencingToken :=
    ⟨rfl, fun lease hlease => ⟨lease, hlease, rfl⟩⟩
  cases a with
  | acquire key' ownerId ttlMs now =>
    obtain rfl := some.inj h
    rcases acquire_cases s key' ownerId ttlMs now with ⟨error, hresult⟩ | ⟨lease, hnew, hresult⟩
    · rw [hresult]
      exact Or.inl hkeep
    · by_cases hkey : key = key'
      · subst hkey
        refine Or.inr ⟨lease, ⟨ownerId, ttlMs, now, rfl, by rw [hresult]⟩, hnew, ?_, ?_⟩
        · simp [hresult]
        · simp [hresult, lastToken]
      · left
        simpa [hresult, lastToken, hkey] using hkeep.2
  | renew key' ownerId ttlMs now =>
    obtain rfl := some.inj h
    left
    unfold renew
    split
    · exact hkeep
    · rename_i existing hexisting
      split_ifs
      · exact hkeep
      · refine ⟨rfl, fun lease hlease => ?_⟩
        by_cases hkey : key = key'
        · subst hkey
          obtain rfl : _ = lease := by simpa using hlease
          exact ⟨existing, hexisting, rfl⟩
        · exact ⟨lease, by simpa [hkey] using hlease, rfl⟩
  | release key' ownerId =>
    obtain rfl := some.inj h
    left
    unfold release
    split_ifs
    · exact hdrop key'
    · exact hkeep
  | getLease key' now =>
    obtain rfl := some.inj h
    left
    unfold getLease
    split
    · exact hkeep
    · split_ifs
      · exact hdrop key'
      · exact hkeep
  | validateFencing =>
    obtain rfl := some.inj h
    exact Or.inl hkeep

theorem step_latest (s : Repository) (a : Action) (t : Repository) (h : Latest s)
    (hstep : step s a = some t) : Latest t := by
  intro key lease hlease
  rcases step_effect hstep key with ⟨hlast, hkept⟩ | ⟨new, -, -, hnew, hlast⟩
  · obtain ⟨old, hold, hsame⟩ := hkept lease hlease
    rw [hlast, ← hsame]
    exact h key old hold
  · obtain rfl : new = lease := some.inj (hnew.symm.trans hlease)
    exact hlast.symm

theorem run_lastToken {as : List Action} (h : run step s as = some t) (key : String) :
    lastToken s key ≤ lastToken t key := by
  refine run_relates (R := fun s t => lastToken s key ≤ lastToken t key) (A := fun _ => True)
    (fun _ => Nat.le_refl _) (fun _ _ _ => Nat.le_trans) ?_ h fun _ _ _ _ _ => trivial
  intro s a t _ _ hstep
  rcases step_effect hstep key with ⟨hlast, -⟩ | ⟨lease, -, hnew, -, hlast⟩
  · exact Nat.le_of_eq hlast.symm
  · omega

theorem Acquires.lastToken (h : Acquires s a key lease) (hstep : step s a = some t) :
    lease.fencingToken = lastToken s key + 1 ∧ lastToken t key = lease.fencingToken := by
  obtain ⟨ownerId, ttlMs, now, rfl, hlease⟩ := h
  obtain rfl := some.inj hstep
  rcases acquire_cases s key ownerId ttlMs now with ⟨error, hresult⟩ | ⟨lease, hnew, hresult⟩
  · rw [hresult] at hlease
    cases hlease
  · rw [hresult] at hlease ⊢
    obtain rfl := Except.ok.inj hlease
    exact ⟨hnew, by simp [WorktreeFencing.lastToken]⟩

/-- Once a worktree is acquired again, no validation accepts the token it had before. -/
def RejectsSuperseded (as : List Action) : Prop :=
  ∀ pre a mid b post rest s t u key old new, as = pre ++ a :: mid ++ b :: post ++ rest →
    run step empty pre = some s → run step empty (pre ++ a :: mid) = some t →
    run step empty (pre ++ a :: mid ++ b :: post) = some u →
    Acquires s a key old → Acquires t b key new →
    ∀ ownerId, validateFencing u key ownerId (some old.fencingToken) ≠ .ok ()

theorem rejectsSuperseded (as : List Action) : RejectsSuperseded as := by
  intro pre a mid b post rest s t u key old new _ hs ht hu hold hnew ownerId hvalid
  have hempty : Latest empty := by
    intro key lease hlease
    cases hlease
  have hlatest : Latest u := run_invariant step_latest hempty hu
  obtain ⟨s₁, hs₁, hmid⟩ := run_append_eq_some.mp ht
  obtain rfl := some.inj (hs.symm.trans hs₁)
  obtain ⟨s₂, ha, hmid⟩ := run_cons_eq_some.mp hmid
  obtain ⟨t₁, ht₁, hpost⟩ := run_append_eq_some.mp hu
  obtain rfl := some.inj (ht.symm.trans ht₁)
  obtain ⟨t₂, hb, hpost⟩ := run_cons_eq_some.mp hpost
  obtain ⟨-, hissued⟩ := hold.lastToken ha
  obtain ⟨hnext, hlast⟩ := hnew.lastToken hb
  have hfirst := run_lastToken hmid key
  have hsecond := run_lastToken hpost key
  obtain ⟨lease, hlease, -, hsame⟩ := validateFencing_eq_ok.mp hvalid
  have hcurrent := hlatest key lease hlease
  have htoken := hsame old.fencingToken rfl
  omega

/-- Superseded tokens are rejected in every run; only current, unexpired leases are accepted exactly
in the runs whose validations pass a token in time. -/
theorem fencing_iff (as : List Action) :
    (Along step Fenced empty as ∧ RejectsSuperseded as) ↔ Along step InTime empty as := by
  rw [and_iff_left (rejectsSuperseded as)]
  exact Along.congr (I := fun _ => True) (fun _ _ _ _ _ => trivial)
    (fun s a _ => fenced_iff_inTime s a) trivial

/-- A worker validates a minute after its lease has expired, or with no token at all. -/
theorem expired_lease_validates :
    ¬Along step Fenced empty
      [.acquire "wt" "worker" none 0, .validateFencing "wt" "worker" (some 1) 90000] ∧
    ¬Along step Fenced empty
      [.acquire "wt" "worker" none 0, .validateFencing "wt" "worker" none 1] := by
  constructor
  · intro h
    have hfenced := (h.2 _ rfl).1
    obtain ⟨lease, hlease, -⟩ := hfenced (by rfl)
    cases hlease
  · intro h
    have hfenced := (h.2 _ rfl).1
    obtain ⟨lease, -, -, htoken⟩ := hfenced (by rfl)
    cases htoken

end WorktreeFencing
