import FlowDeck.Library.Machine
import Mathlib.Data.List.Nodup
import Mathlib.Data.List.Range
import Mathlib.Logic.Function.Basic

/-! The runtime's event store in memory, and appends that are split at their awaits. -/

namespace RuntimeEventStore

open Function List Machine

structure UncommittedRuntimeEvent (π : Type*) where
  eventId : Option String
  eventType : String
  payload : π
  commandId : Option String

structure PersistedRuntimeEvent (π : Type*) where
  eventId : String
  event : π
  eventType : String
  aggregateId : String
  aggregateVersion : Int
  globalSequence : Int
  commandId : Option String

/-- The streams by aggregate, the versions cached of them, and the indexes of ids. -/
structure Store (π : Type*) where
  eventStreams : String → List (PersistedRuntimeEvent π) := fun _ => []
  versionCache : String → Int := fun _ => 0
  eventIndex : String → Option (PersistedRuntimeEvent π) := fun _ => none
  commandIndex : String → Option String := fun _ => none
  nextSequence : Int := 1

def knownEventTypes : List String :=
  ["RunCreated", "RunStartedPlanning", "RunCompletedPlanning", "RunStartedAnalysis",
    "RunCompletedAnalysis", "RunStartedExecution", "RunCompletedExecution", "RunVerified",
    "RunCompleted", "RunFailed", "RunCancelled", "RunRecovered"]

/-- The arguments of an append. -/
structure AppendCall (π : Type*) where
  aggregateId : String
  events : List (UncommittedRuntimeEvent π)
  expectedVersion : Int
  startSequenceNumber : Int := 1

variable {π : Type*}

def validateAppend (s : Store π) (call : AppendCall π) : Except String Unit :=
  let actual := s.versionCache call.aggregateId
  if call.events = [] then .error "Cannot append empty event list"
  else if call.expectedVersion < actual then
    .error s!"Stale version: expected {actual}, got {call.expectedVersion}"
  else if actual < call.expectedVersion then
    .error s!"Future version: expected {actual}, got {call.expectedVersion}"
  else .ok ()

def duplicateCommand (s : Store π) (event : UncommittedRuntimeEvent π) : Option String :=
  event.commandId.filter fun id => id ≠ "" ∧ (s.commandIndex id).any (· ≠ "")

def duplicateEvent (s : Store π) (event : UncommittedRuntimeEvent π) : Option String :=
  event.eventId.filter fun id => id ≠ "" ∧ (s.eventIndex id).isSome

def checkEvent (s : Store π) (event : UncommittedRuntimeEvent π) : Except String Unit :=
  match duplicateCommand s event, duplicateEvent s event with
  | some id, _ => .error ("Duplicate detected: command " ++ id)
  | none, some id => .error ("Duplicate detected: event " ++ id)
  | none, none =>
    if event.eventType ∈ knownEventTypes then .ok ()
    else .error ("Unknown event type: " ++ event.eventType)

/-- The events as they are stored; `drawn` gives the ids of those that have none. -/
def AppendCall.persisted (call : AppendCall π) (drawn : Nat → String) :
    List (PersistedRuntimeEvent π) :=
  call.events.zipIdx.map fun (event, i) => {
    eventId := event.eventId.getD (drawn i)
    event := event.payload
    eventType := event.eventType
    aggregateId := call.aggregateId
    aggregateVersion := call.expectedVersion + i + 1
    globalSequence := call.startSequenceNumber + i
    commandId := event.commandId }

def indexCommand (index : String → Option String) (event : PersistedRuntimeEvent π) :
    String → Option String :=
  match event.commandId.filter (· ≠ "") with
  | some id => update index id (some event.eventId)
  | none => index

def Store.commit (s : Store π) (call : AppendCall π) (assigned : List (PersistedRuntimeEvent π)) :
    Store π :=
  { s with
    eventIndex := assigned.foldl (fun index event => update index event.eventId (some event))
      s.eventIndex
    commandIndex := assigned.foldl indexCommand s.commandIndex
    eventStreams := update s.eventStreams call.aggregateId
      (s.eventStreams call.aggregateId ++ assigned)
    versionCache := update s.versionCache call.aggregateId
      (call.expectedVersion + call.events.length) }

/-- An append under way, with the events it has still to check. -/
structure Pending (π : Type*) where
  call : AppendCall π
  unchecked : List (UncommittedRuntimeEvent π)
  nonempty : call.events ≠ []

/-- The store, the appends under way, and what was appended so far, in that order. -/
structure State (π : Type*) where
  store : Store π := {}
  pending : Nat → Option (Pending π) := fun _ => none
  accepted : List (PersistedRuntimeEvent π) := []

inductive Action (π : Type*)
  | append (id : Nat) (call : AppendCall π)
  | check (id : Nat)
  | commit (id : Nat) (drawn : Nat → String)

def State.close (s : State π) (id : Nat) : State π := { s with pending := update s.pending id none }

/-- An append validates its version, then checks one event after the other, then numbers the events
and stores them; what throws ends it. -/
def step (s : State π) : Action π → Option (State π)
  | .append id call =>
    if (s.pending id).isSome then none
    else if h : validateAppend s.store call = .ok () ∧ call.events ≠ [] then
      some { s with pending := update s.pending id (some ⟨call, call.events, h.2⟩) }
    else some s
  | .check id =>
    match s.pending id with
    | some ⟨call, event :: rest, h⟩ =>
      match checkEvent s.store event with
      | .ok _ => some { s with pending := update s.pending id (some ⟨call, rest, h⟩) }
      | .error _ => some (s.close id)
    | _ => none
  | .commit id drawn =>
    match s.pending id with
    | some ⟨call, [], _⟩ =>
      -- the first number is the least
      if call.startSequenceNumber < s.store.nextSequence then some (s.close id)
      else some { s.close id with
        store := s.store.commit call (call.persisted drawn)
        accepted := s.accepted ++ call.persisted drawn }
    | _ => none

/-! ### What the store is to hold -/

/-- The streams hold what was appended, under the versions from 1 on, with growing numbers and no id
twice. -/
structure Sound (s : State π) : Prop where
  streams : ∀ id, s.store.eventStreams id = s.accepted.filter (·.aggregateId = id)
  versions : ∀ id, (s.store.eventStreams id).map (·.aggregateVersion) =
    (range (s.store.eventStreams id).length).map fun i : Nat => (i : Int) + 1
  sequences : (s.accepted.map (·.globalSequence)).Pairwise (· < ·)
  eventIds : (s.accepted.map (·.eventId)).Nodup
  commandIds : (s.accepted.filterMap (·.commandId)).Nodup

/-- The version is the one at the time of the commit, the numbers are above those given, and the ids
are new. -/
structure Fits (s : State π) (call : AppendCall π) (drawn : Nat → String) : Prop where
  version : call.expectedVersion = (s.store.eventStreams call.aggregateId).length
  sequence : ∀ stored ∈ s.accepted, stored.globalSequence < call.startSequenceNumber
  eventIds : ((call.persisted drawn).map (·.eventId)).Nodup ∧
    ∀ id ∈ s.accepted.map (·.eventId), id ∉ (call.persisted drawn).map (·.eventId)
  commandIds : (call.events.filterMap (·.commandId)).Nodup ∧
    ∀ id ∈ s.accepted.filterMap (·.commandId), id ∉ call.events.filterMap (·.commandId)

/-- The step stores the events of the call. -/
def Stores (s : State π) (a : Action π) (call : AppendCall π) (drawn : Nat → String) : Prop :=
  ∃ id h, a = .commit id drawn ∧ s.pending id = some ⟨call, [], h⟩ ∧
    s.store.nextSequence ≤ call.startSequenceNumber

variable {s t : State π} {a : Action π} {call : AppendCall π} {drawn : Nat → String}

theorem step_cases (h : step s a = some t) :
    (t.store = s.store ∧ t.accepted = s.accepted ∧ ∀ call drawn, ¬Stores s a call drawn) ∨
    ∃ call drawn, Stores s a call drawn ∧
      t.store = s.store.commit call (call.persisted drawn) ∧
      t.accepted = s.accepted ++ call.persisted drawn := by
  have hother : (∀ id drawn, a ≠ .commit id drawn) → ∀ call drawn, ¬Stores s a call drawn :=
    fun hne call drawn ⟨id, _, ha, _⟩ => hne id drawn ha
  cases a with
  | append id call =>
    left
    simp only [step] at h
    split_ifs at h <;> exact Option.some.inj h ▸ ⟨rfl, rfl, hother (by simp)⟩
  | check id =>
    left
    simp only [step] at h
    split at h
    · split at h <;> exact Option.some.inj h ▸ ⟨rfl, rfl, hother (by simp)⟩
    · cases h
  | commit id drawn =>
    simp only [step] at h
    split at h
    · rename_i call hne hpending
      split_ifs at h with hlow
      · refine Or.inl (Option.some.inj h ▸ ⟨rfl, rfl, ?_⟩)
        rintro call' drawn' ⟨id', _, ha, hpending', hhigh⟩
        obtain ⟨rfl, rfl⟩ := Action.commit.inj ha
        rw [hpending] at hpending'
        obtain rfl := (Pending.mk.inj (Option.some.inj hpending')).1
        omega
      · exact Or.inr (Option.some.inj h ▸
          ⟨call, drawn, ⟨id, hne, rfl, hpending, Int.not_lt.mp hlow⟩, rfl, rfl⟩)
    · cases h

theorem map_persisted {β : Type*} (f : PersistedRuntimeEvent π → β) (g : Nat → β)
    (hf : ∀ event ∈ call.events.zipIdx, f ⟨event.1.eventId.getD (drawn event.2), event.1.payload,
      event.1.eventType, call.aggregateId, call.expectedVersion + event.2 + 1,
      call.startSequenceNumber + event.2, event.1.commandId⟩ = g event.2) :
    (call.persisted drawn).map f = (range call.events.length).map g := by
  rw [AppendCall.persisted, map_map, range_eq_range', ← zipIdx_map_snd 0 call.events, map_map]
  exact map_congr_left hf

theorem filterMap_persisted (call : AppendCall π) (drawn : Nat → String) :
    (call.persisted drawn).filterMap (·.commandId) = call.events.filterMap (·.commandId) := by
  rw [AppendCall.persisted, filterMap_map]
  conv_rhs => rw [← zipIdx_map_fst 0 call.events, filterMap_map]
  rfl

theorem aggregateId_persisted {event : PersistedRuntimeEvent π}
    (h : event ∈ call.persisted drawn) : event.aggregateId = call.aggregateId := by
  obtain ⟨_, _, rfl⟩ := mem_map.mp h
  rfl

theorem Sound.streams_commit (h : Sound s) (id : String) :
    (s.store.commit call (call.persisted drawn)).eventStreams id =
      (s.accepted ++ call.persisted drawn).filter (·.aggregateId = id) := by
  rw [filter_append, ← h.streams]
  by_cases hid : id = call.aggregateId
  · subst hid
    rw [filter_eq_self.mpr fun event he => by simpa using aggregateId_persisted he]
    simp [Store.commit]
  · rw [filter_eq_nil_iff.mpr fun event he => by
      simpa [aggregateId_persisted he] using Ne.symm hid]
    simp [Store.commit, hid]

/-- The versions stay those from 1 on exactly when the call expected the last of them. -/
theorem versions_append_iff (drawn : Nat → String) {stream : List (PersistedRuntimeEvent π)}
    (hne : call.events ≠ [])
    (h : stream.map (·.aggregateVersion) = (range stream.length).map fun i : Nat => (i : Int) + 1) :
    (stream ++ call.persisted drawn).map (·.aggregateVersion) =
        (range (stream ++ call.persisted drawn).length).map (fun i : Nat => (i : Int) + 1) ↔
      call.expectedVersion = stream.length := by
  have hlength : (call.persisted drawn).length = call.events.length := by
    simp [AppendCall.persisted]
  rw [length_append, hlength, range_add, map_append, map_append, h, append_right_inj, map_map,
    map_persisted _ (fun i : Nat => call.expectedVersion + i + 1) fun _ _ => rfl, map_inj_left]
  constructor
  · intro hall
    have hfirst := hall 0 (mem_range.mpr (length_pos_iff.mpr hne))
    simp only [comp_apply] at hfirst
    omega
  · intro hversion i _
    simp only [comp_apply]
    omega

theorem sequences_append_iff (hne : call.events ≠ []) {numbers : List Int}
    (h : numbers.Pairwise (· < ·)) :
    (numbers ++ (call.persisted drawn).map (·.globalSequence)).Pairwise (· < ·) ↔
      ∀ number ∈ numbers, number < call.startSequenceNumber := by
  rw [map_persisted _ (fun i : Nat => call.startSequenceNumber + i) fun _ _ => rfl, pairwise_append,
    and_iff_right h, and_iff_right]
  · simp only [mem_map, mem_range, forall_exists_index, and_imp, forall_apply_eq_imp_iff₂]
    refine forall₂_congr fun number _ => ⟨fun hall => ?_, fun hlow i _ => by omega⟩
    simpa using hall 0 (length_pos_iff.mpr hne)
  · refine pairwise_map.mpr (pairwise_lt_range.imp fun hij => ?_)
    omega

theorem Sound.commit_iff (h : Sound s) (hne : call.events ≠ [])
    (hstore : t.store = s.store.commit call (call.persisted drawn))
    (haccepted : t.accepted = s.accepted ++ call.persisted drawn) :
    Sound t ↔ Fits s call drawn := by
  have hversions : (∀ id, (t.store.eventStreams id).map (·.aggregateVersion) =
      (range (t.store.eventStreams id).length).map fun i : Nat => (i : Int) + 1) ↔
      call.expectedVersion = (s.store.eventStreams call.aggregateId).length := by
    rw [← versions_append_iff drawn hne (h.versions call.aggregateId), hstore]
    constructor
    · intro hall
      simpa [Store.commit] using hall call.aggregateId
    · intro hcall id
      by_cases hid : id = call.aggregateId
      · simpa [Store.commit, hid] using hcall
      · simpa [Store.commit, hid] using h.versions id
  have hsequences : (t.accepted.map (·.globalSequence)).Pairwise (· < ·) ↔
      ∀ stored ∈ s.accepted, stored.globalSequence < call.startSequenceNumber := by
    rw [haccepted, map_append, sequences_append_iff hne h.sequences]
    exact forall_mem_map
  have heventIds : (t.accepted.map (·.eventId)).Nodup ↔
      ((call.persisted drawn).map (·.eventId)).Nodup ∧
        ∀ id ∈ s.accepted.map (·.eventId), id ∉ (call.persisted drawn).map (·.eventId) := by
    rw [haccepted, map_append, nodup_append', and_iff_right h.eventIds]
    rfl
  have hcommandIds : (t.accepted.filterMap (·.commandId)).Nodup ↔
      (call.events.filterMap (·.commandId)).Nodup ∧
        ∀ id ∈ s.accepted.filterMap (·.commandId), id ∉ call.events.filterMap (·.commandId) := by
    rw [haccepted, filterMap_append, filterMap_persisted, nodup_append', and_iff_right h.commandIds]
    rfl
  constructor
  · intro ht
    exact ⟨hversions.mp ht.versions, hsequences.mp ht.sequences, heventIds.mp ht.eventIds,
      hcommandIds.mp ht.commandIds⟩
  · intro hfits
    refine ⟨fun id => ?_, hversions.mpr hfits.version, hsequences.mpr hfits.sequence,
      heventIds.mpr hfits.eventIds, hcommandIds.mpr hfits.commandIds⟩
    rw [hstore, haccepted, h.streams_commit]

/-- The step leaves a sound store, and stores nothing where the expected version is stale. -/
def KeepsSound (s : State π) (a : Action π) : Prop :=
  ∀ t, step s a = some t → Sound t ∧ ∀ call drawn,
    call.expectedVersion < ((s.store.eventStreams call.aggregateId).length : Int) →
      ¬Stores s a call drawn

def CommitsFit (s : State π) (a : Action π) : Prop :=
  ∀ call drawn, Stores s a call drawn → Fits s call drawn

theorem Sound.keepsSound_iff (h : Sound s) (a : Action π) : KeepsSound s a ↔ CommitsFit s a := by
  constructor
  · intro hkeeps call drawn hstores
    obtain ⟨id, hne, rfl, hpending, hhigh⟩ := hstores
    have hstep : step s (.commit id drawn) = some { s.close id with
        store := s.store.commit call (call.persisted drawn)
        accepted := s.accepted ++ call.persisted drawn } := by
      simp [step, hpending, Int.not_lt.mpr hhigh]
    exact (h.commit_iff hne rfl rfl).mp (hkeeps _ hstep).1
  · intro hfits t hstep
    refine ⟨?_, fun call drawn hstale hstores => ?_⟩
    · rcases step_cases hstep with
        ⟨hstore, haccepted, -⟩ | ⟨call, drawn, hstores, hstore, haccepted⟩
      · obtain ⟨hstreams, hversions, hsequences, heventIds, hcommandIds⟩ := h
        rw [← hstore] at hstreams hversions
        rw [← haccepted] at hstreams hsequences heventIds hcommandIds
        exact ⟨hstreams, hversions, hsequences, heventIds, hcommandIds⟩
      · obtain ⟨_, hne, _⟩ := id hstores
        exact (h.commit_iff hne hstore haccepted).mpr (hfits call drawn hstores)
    · exact absurd (hfits call drawn hstores).version (Int.ne_of_lt hstale)

/-- The store stays sound over a run of appends, split at their awaits, exactly when every commit fits
what is stored by then. -/
theorem appends_sound_iff (as : List (Action π)) :
    Along step KeepsSound ({} : State π) as ↔ Along step CommitsFit {} as := by
  have hempty : Sound ({} : State π) :=
    ⟨fun _ => rfl, fun _ => rfl, Pairwise.nil, nodup_nil, nodup_nil⟩
  constructor
  · exact Along.imp (fun s a t _ hkeeps hstep => (hkeeps t hstep).1)
      (fun s a h => (h.keepsSound_iff a).mp) hempty
  · exact Along.imp (fun s a t h hfits hstep => ((h.keepsSound_iff a).mpr hfits t hstep).1)
      (fun s a h => (h.keepsSound_iff a).mpr) hempty

def created (aggregateId : String) : AppendCall Unit where
  aggregateId := aggregateId
  events := [⟨none, "RunCreated", (), none⟩]
  expectedVersion := 0

/-- Both of two appends that leave their start number to the default number their events from 1. -/
theorem default_numbers_repeat : ¬Along step KeepsSound ({} : State Unit)
    [.append 0 (created "a"), .check 0, .commit 0 fun _ => "e0",
      .append 1 (created "b"), .check 1, .commit 1 fun _ => "e1"] := by
  intro h
  have hlast := (((((h.2 _ rfl).2 _ rfl).2 _ rfl).2 _ rfl).2 _ rfl).1 _ rfl
  exact absurd hlast.1.sequences (by decide)

end RuntimeEventStore
