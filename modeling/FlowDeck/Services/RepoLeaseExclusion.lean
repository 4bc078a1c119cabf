import FlowDeck.Services.RepoLeaseCoordinator

/-! When the lease of a repository has one owner at a time. -/

namespace RepoLeaseCoordinator

open Machine Option

/-! ### What is claimed -/

def Holds (leaseTtlMs : Int) (s : State) (owner : String) : Prop :=
  ∃ heartbeatAt, s.held owner = some heartbeatAt ∧ s.now - heartbeatAt ≤ leaseTtlMs

def Exclusive (leaseTtlMs : Int) (s : State) : Prop :=
  ∀ owner other, Holds leaseTtlMs s owner → Holds leaseTtlMs s other → owner = other

/-- The next operation replaces or removes the lease. -/
def Phase.writes : Phase → Bool
  | .renaming _ _ | .removing => true
  | _ => false

/-- A heartbeat or a release neither overwrites nor removes the lease of another owner. -/
def KeepsLeases (calls : Nat → Call) (s : State) (a : Action) : Prop :=
  ∀ c, a = .act c → (calls c).request ≠ .acquireMutatingLease → (s.phases c).writes = true →
    ∀ lease, s.file = some (.lease lease) → lease.owner = (calls c).owner

/-- The check that the call has made, made of the file as it is. -/
def passes (leaseTtlMs : Int) (call : Call) (s : State) : Bool :=
  match call.request with
  | .acquireMutatingLease =>
    decide (call.owner ≠ "") && mayAcquire leaseTtlMs s.now call.owner (readLease s.file)
  | _ => isOwner call.owner (readLease s.file)

/-- The check of a call still passes when it writes, no two calls stage their leases under one name,
and the clock does not go back. -/
def Rechecked (leaseTtlMs : Int) (calls : Nat → Call) (s : State) : Action → Prop
  | .begin _ => True
  | .act c => (s.phases c).writes = true → passes leaseTtlMs (calls c) s = true
  | .write c tmpFile | .fail c tmpFile =>
    ∀ lease, s.phases c = .writing lease → ∀ d other, s.phases d ≠ .renaming other tmpFile
  | .clock now => s.now ≤ now

/-! ### The invariant -/

def Phase.lease? : Phase → Option RepoLease
  | .making lease | .writing lease | .renaming lease _ => some lease
  | _ => none

structure Sound (leaseTtlMs : Int) (calls : Nat → Call) (s : State) : Prop where
  held : ∀ owner heartbeatAt, s.held owner = some heartbeatAt → s.now - heartbeatAt ≤ leaseTtlMs →
    ∃ lease, readLease s.file = some lease ∧ lease.owner = owner ∧ lease.heartbeatAt = heartbeatAt
  staged : ∀ c lease tmpFile content, s.phases c = .renaming lease tmpFile →
    s.tmp tmpFile = some content → content = .lease lease
  owned : ∀ c lease, (s.phases c).lease? = some lease → lease.owner = (calls c).owner

section

variable {leaseTtlMs : Int} {calls : Nat → Call} {s t : State}

theorem readLease_eq_some {file : Option Content} {lease : RepoLease} :
    readLease file = some lease ↔ file = some (.lease lease) ∧ lease.owner ≠ "" := by
  cases file with
  | none => simp [readLease]
  | some content =>
    cases content with
    | unreadable => simp [readLease, Content.parse]
    | lease other =>
      by_cases hempty : other.owner = ""
      · have hnone : readLease (some (.lease other)) = none := if_pos hempty
        rw [hnone]
        constructor
        · intro h
          cases h
        · intro h
          obtain ⟨heq, hne⟩ := h
          cases heq
          exact absurd hempty hne
      · have hsome : readLease (some (.lease other)) = some other := if_neg hempty
        rw [hsome]
        constructor
        · intro h
          obtain rfl := some.inj h
          exact ⟨rfl, hempty⟩
        · intro h
          obtain ⟨heq, -⟩ := h
          cases heq
          rfl

theorem isOwner_eq_true {owner : String} {existing : Option RepoLease} :
    isOwner owner existing = true ↔ ∃ lease, existing = some lease ∧ lease.owner = owner := by
  cases existing with
  | none => simp [isOwner]
  | some lease => simp [isOwner]

/-- A holder is the owner that the code reads. -/
theorem Sound.getMutatingOwner (h : Sound leaseTtlMs calls s) {owner : String}
    (hholds : Holds leaseTtlMs s owner) :
    getMutatingOwner leaseTtlMs s.now s.file = some owner := by
  obtain ⟨heartbeatAt, hheld, hlive⟩ := hholds
  obtain ⟨lease, hread, howner, hbeat⟩ := h.held owner heartbeatAt hheld hlive
  have hfresh : isStale leaseTtlMs s.now lease = false := by
    simp only [isStale, hbeat, decide_eq_false_iff_not]
    omega
  simp [RepoLeaseCoordinator.getMutatingOwner, hread, hfresh, howner]

theorem Sound.exclusive (h : Sound leaseTtlMs calls s) : Exclusive leaseTtlMs s := by
  intro owner other howner hother
  have heq := h.getMutatingOwner howner
  rw [h.getMutatingOwner hother] at heq
  exact (some.inj heq).symm

theorem Sound.holder_of_passes (h : Sound leaseTtlMs calls s) {call : Call}
    (hpasses : passes leaseTtlMs call s = true) {owner : String}
    (hholds : Holds leaseTtlMs s owner) : owner = call.owner := by
  obtain ⟨heartbeatAt, hheld, hlive⟩ := hholds
  obtain ⟨lease, hread, rfl, hbeat⟩ := h.held owner heartbeatAt hheld hlive
  have hfresh : isStale leaseTtlMs s.now lease = false := by
    simp only [isStale, hbeat, decide_eq_false_iff_not]
    omega
  unfold passes at hpasses
  rw [hread] at hpasses
  split at hpasses
  · simpa [mayAcquire, hfresh] using (Bool.and_eq_true_iff.mp hpasses).2
  · simpa [isOwner] using hpasses

/-- Fewer owners count as holders, and the file is the same. -/
theorem Sound.forget (h : Sound leaseTtlMs calls s) {owner : String} :
    Sound leaseTtlMs calls { s with held := Function.update s.held owner none } := by
  refine ⟨?_, h.staged, h.owned⟩
  intro other heartbeatAt hheld hlive
  have hne : other ≠ owner := by
    intro heq
    have hnone : Function.update s.held owner none other = some heartbeatAt := hheld
    rw [heq, Function.update_self] at hnone
    cases hnone
  have hheld' : Function.update s.held owner none other = some heartbeatAt := hheld
  rw [Function.update_of_ne hne] at hheld'
  exact h.held other heartbeatAt hheld' hlive

theorem Sound.goto (h : Sound leaseTtlMs calls s) {c : Nat} {phase : Phase}
    (howned : ∀ lease, phase.lease? = some lease → lease.owner = (calls c).owner)
    (hstaged : ∀ lease tmpFile content, phase = .renaming lease tmpFile →
      s.tmp tmpFile = some content → content = .lease lease) :
    Sound leaseTtlMs calls (s.goto c phase) := by
  have hat (d : Nat) : (s.goto c phase).phases d = phase ∧ d = c ∨
      (s.goto c phase).phases d = s.phases d := by
    by_cases hd : d = c
    · exact .inl ⟨by rw [hd]; exact Function.update_self c phase s.phases, hd⟩
    · right
      simp [State.goto, hd]
  refine ⟨h.held, ?_, ?_⟩
  · intro d lease tmpFile content hphase hcontent
    rcases hat d with ⟨heq, -⟩ | heq
    · exact hstaged lease tmpFile content (heq.symm.trans hphase) hcontent
    · exact h.staged d lease tmpFile content (heq.symm.trans hphase) hcontent
  · intro d lease hlease
    rcases hat d with ⟨heq, rfl⟩ | heq
    · exact howned lease (heq ▸ hlease)
    · exact h.owned d lease (heq ▸ hlease)

theorem Sound.goto_plain (h : Sound leaseTtlMs calls s) {c : Nat} {phase : Phase}
    (hlease : phase.lease? = none) : Sound leaseTtlMs calls (s.goto c phase) := by
  refine h.goto ?_ ?_
  · intro lease hsome
    rw [hlease] at hsome
    cases hsome
  · intro lease tmpFile content hphase
    rw [hphase] at hlease
    cases hlease

theorem Sound.goto_lease (h : Sound leaseTtlMs calls s) {c : Nat} {phase : Phase} {lease : RepoLease}
    (hlease : phase.lease? = some lease) (howner : lease.owner = (calls c).owner)
    (hbefore : ∀ lease tmpFile, phase ≠ .renaming lease tmpFile) :
    Sound leaseTtlMs calls (s.goto c phase) := by
  refine h.goto ?_ ?_
  · intro other hsome
    obtain rfl := some.inj (hlease.symm.trans hsome)
    exact howner
  · intro lease tmpFile content hphase
    exact absurd hphase (hbefore lease tmpFile)

theorem Sound.release (h : Sound leaseTtlMs calls s) (c : Nat) (owner : String) :
    Sound leaseTtlMs calls (s.release c owner) := by
  have hgoto : Sound leaseTtlMs calls (s.goto c .released) := h.goto_plain rfl
  exact hgoto.forget

theorem Sound.setTmp (h : Sound leaseTtlMs calls s) (tmpFile : String) (content : Option Content)
    (hfree : content = none ∨ ∀ d lease, s.phases d ≠ .renaming lease tmpFile) :
    Sound leaseTtlMs calls { s with tmp := Function.update s.tmp tmpFile content } := by
  refine ⟨h.held, ?_, h.owned⟩
  intro d lease name staged hphase hstaged
  have hat : Function.update s.tmp tmpFile content name = some staged := hstaged
  by_cases hname : name = tmpFile
  · rw [hname, Function.update_self] at hat
    rcases hfree with rfl | hfree
    · cases hat
    · exact absurd (hname ▸ hphase) (hfree d lease)
  · rw [Function.update_of_ne hname] at hat
    exact h.staged d lease name staged hphase hat

theorem Sound.decided (h : Sound leaseTtlMs calls s) (c : Nat) (deadline : Int)
    (existing : Option RepoLease) :
    Sound leaseTtlMs calls (decided leaseTtlMs (calls c) s c deadline existing) := by
  unfold RepoLeaseCoordinator.decided
  split
  · split_ifs
    · exact h.goto_lease rfl rfl (by simp)
    · exact h.goto_plain rfl
    · exact h.goto_plain rfl
  · split
    · next lease =>
      split_ifs with hown
      · have howner : lease.owner = (calls c).owner := by simpa [isOwner] using hown
        exact h.goto_lease rfl howner (by simp)
      · exact h.goto_plain rfl
    · exact h.goto_plain rfl
  · split_ifs
    · exact h.goto_plain rfl
    · exact h.release c (calls c).owner

/-- The lease of a call replaces one that its check lets it replace. -/
theorem Sound.written (h : Sound leaseTtlMs calls s) {c : Nat} {lease : RepoLease}
    (howner : lease.owner = (calls c).owner)
    (hpasses : passes leaseTtlMs (calls c) s = true) :
    Sound leaseTtlMs calls { s.written c (calls c) lease with file := some (.lease lease) } := by
  have hne : lease.owner ≠ "" := by
    rw [howner]
    unfold passes at hpasses
    split at hpasses
    · simpa using (Bool.and_eq_true_iff.mp hpasses).1
    · obtain ⟨read, hread, hown⟩ := isOwner_eq_true.mp hpasses
      rw [← hown]
      exact (readLease_eq_some.mp hread).2
  have hread : readLease (some (.lease lease)) = some lease := readLease_eq_some.mpr ⟨rfl, hne⟩
  -- whoever holds afterwards is the call's owner, with the time that its lease says
  have hheld : ∀ owner heartbeatAt,
      (s.written c (calls c) lease).held owner = some heartbeatAt →
        s.now - heartbeatAt ≤ leaseTtlMs →
          owner = (calls c).owner ∧ lease.heartbeatAt = heartbeatAt := by
    intro owner heartbeatAt hsome hlive
    have hold (hold : s.held owner = some heartbeatAt) : owner = (calls c).owner :=
      h.holder_of_passes hpasses ⟨heartbeatAt, hold, hlive⟩
    have hupdate : ∃ new : Option Int,
        (s.written c (calls c) lease).held = Function.update s.held (calls c).owner new ∧
          ∀ time, new = some time → time = lease.heartbeatAt := by
      unfold State.written
      split
      · refine ⟨_, rfl, ?_⟩
        intro time htime
        exact (some.inj htime).symm
      · refine ⟨_, rfl, ?_⟩
        intro time htime
        obtain ⟨_, -, heq⟩ := map_eq_some_iff.mp htime
        exact heq.symm
    obtain ⟨new, hnew, htime⟩ := hupdate
    rw [hnew] at hsome
    by_cases heq : owner = (calls c).owner
    · rw [heq, Function.update_self] at hsome
      exact ⟨heq, (htime heartbeatAt hsome).symm⟩
    · rw [Function.update_of_ne heq] at hsome
      exact absurd (hold hsome) heq
  have hphases : ∃ phase, phase.lease? = none ∧
      (s.written c (calls c) lease).phases = (s.goto c phase).phases := by
    unfold State.written
    split
    · exact ⟨.acquired lease, rfl, rfl⟩
    · exact ⟨.answered true, rfl, rfl⟩
  have hsame : (s.written c (calls c) lease).now = s.now ∧
      (s.written c (calls c) lease).tmp = s.tmp := by
    unfold State.written
    split
    · exact ⟨rfl, rfl⟩
    · exact ⟨rfl, rfl⟩
  obtain ⟨phase, hplain, hphase⟩ := hphases
  have hgoto : Sound leaseTtlMs calls (s.goto c phase) := h.goto_plain hplain
  refine ⟨?_, ?_, ?_⟩
  · intro owner heartbeatAt hsome hlive
    obtain ⟨heq, hbeat⟩ := hheld owner heartbeatAt hsome (hsame.1 ▸ hlive)
    exact ⟨lease, hread, howner.trans heq.symm, hbeat⟩
  · intro d other tmpFile content hrenaming hcontent
    exact hgoto.staged d other tmpFile content (hphase ▸ hrenaming) (hsame.2 ▸ hcontent)
  · intro d other hother
    exact hgoto.owned d other (hphase ▸ hother)

theorem Sound.removed (h : Sound leaseTtlMs calls s) {c : Nat}
    (hpasses : passes leaseTtlMs (calls c) s = true) :
    Sound leaseTtlMs calls { s.release c (calls c).owner with file := none } := by
  have hreleased := h.release c (calls c).owner
  refine ⟨?_, hreleased.staged, hreleased.owned⟩
  intro owner heartbeatAt hheld hlive
  have hat : Function.update s.held (calls c).owner none owner = some heartbeatAt := hheld
  by_cases heq : owner = (calls c).owner
  · rw [heq, Function.update_self] at hat
    cases hat
  · rw [Function.update_of_ne heq] at hat
    exact absurd (h.holder_of_passes hpasses ⟨heartbeatAt, hat, hlive⟩) heq

theorem Sound.act (h : Sound leaseTtlMs calls s) {c : Nat}
    (hguard : (s.phases c).writes = true → passes leaseTtlMs (calls c) s = true)
    (hstep : act leaseTtlMs calls s c = some t) : Sound leaseTtlMs calls t := by
  unfold RepoLeaseCoordinator.act at hstep
  split at hstep
  · next deadline hphase =>
    split at hstep
    · obtain rfl := some.inj hstep
      exact h.decided c deadline none
    · obtain rfl := some.inj hstep
      exact h.goto_plain rfl
  · next deadline hphase =>
    obtain rfl := some.inj hstep
    exact h.decided c deadline _
  · obtain rfl := some.inj hstep
    exact h.goto_plain rfl
  · next lease hphase =>
    obtain rfl := some.inj hstep
    have howner := h.owned c lease (by rw [hphase]; rfl)
    exact h.goto_lease rfl howner (by simp)
  · next lease tmpFile hphase =>
    split at hstep
    · obtain rfl := some.inj hstep
      exact h.goto_plain rfl
    · next content hcontent =>
      obtain rfl := some.inj hstep
      obtain rfl := h.staged c lease tmpFile content hphase hcontent
      have howner := h.owned c lease (by rw [hphase]; rfl)
      have hwritten := h.written howner (hguard (by rw [hphase]; rfl))
      have htmp : (s.written c (calls c) lease).tmp = s.tmp := by
        unfold State.written
        split
        · rfl
        · rfl
      have hset := hwritten.setTmp tmpFile none (.inl rfl)
      rwa [htmp] at hset
  · next tmpFile hphase =>
    obtain rfl := some.inj hstep
    have hgoto : Sound leaseTtlMs calls (s.goto c .failed) := h.goto_plain rfl
    exact hgoto.setTmp tmpFile none (.inl rfl)
  · next hphase =>
    obtain rfl := some.inj hstep
    exact h.removed (hguard (by rw [hphase]; rfl))
  · cases hstep

theorem Sound.fail (h : Sound leaseTtlMs calls s) {c : Nat} {tmpFile : String}
    (hguard : ∀ lease, s.phases c = .writing lease →
      ∀ d other, s.phases d ≠ .renaming other tmpFile)
    (hstep : fail leaseTtlMs calls s c tmpFile = some t) : Sound leaseTtlMs calls t := by
  unfold RepoLeaseCoordinator.fail at hstep
  split at hstep
  · next deadline hphase =>
    obtain rfl := some.inj hstep
    exact h.decided c deadline none
  · next deadline hphase =>
    obtain rfl := some.inj hstep
    exact h.decided c deadline none
  · obtain rfl := some.inj hstep
    exact h.goto_plain rfl
  · next lease hphase =>
    obtain rfl := some.inj hstep
    have hset : Sound leaseTtlMs calls
        { s with tmp := Function.update s.tmp tmpFile (some .unreadable) } :=
      h.setTmp tmpFile _ (.inr (hguard lease hphase))
    exact hset.goto_plain rfl
  · obtain rfl := some.inj hstep
    exact h.goto_plain rfl
  · obtain rfl := some.inj hstep
    exact h.goto_plain rfl
  · obtain rfl := some.inj hstep
    exact h.release c (calls c).owner
  · cases hstep

theorem Sound.step {a : Action} (h : Sound leaseTtlMs calls s)
    (hguard : Rechecked leaseTtlMs calls s a) (hstep : step leaseTtlMs calls s a = some t) :
    Sound leaseTtlMs calls t := by
  cases a with
  | begin c =>
    simp only [RepoLeaseCoordinator.step] at hstep
    split_ifs at hstep
    obtain rfl := some.inj hstep
    exact h.goto_plain rfl
  | act c => exact h.act hguard hstep
  | write c tmpFile =>
    simp only [RepoLeaseCoordinator.step] at hstep
    split at hstep
    · next lease hphase =>
      obtain rfl := some.inj hstep
      have hset : Sound leaseTtlMs calls
          { s with tmp := Function.update s.tmp tmpFile (some (.lease lease)) } :=
        h.setTmp tmpFile _ (.inr (hguard lease hphase))
      have howner := h.owned c lease (by rw [hphase]; rfl)
      refine hset.goto ?_ ?_
      · intro other hother
        obtain rfl := some.inj hother
        exact howner
      · intro other name content heq hcontent
        obtain ⟨rfl, rfl⟩ := Phase.renaming.inj heq
        have hat : Function.update s.tmp tmpFile (some (.lease lease)) tmpFile = some content :=
          hcontent
        rw [Function.update_self] at hat
        exact (some.inj hat).symm
    · cases hstep
  | fail c tmpFile => exact h.fail hguard hstep
  | clock now =>
    obtain rfl := some.inj hstep
    refine ⟨?_, h.staged, h.owned⟩
    intro owner heartbeatAt hheld hlive
    have hlater : s.now ≤ now := hguard
    have hlive' : now - heartbeatAt ≤ leaseTtlMs := hlive
    exact h.held owner heartbeatAt hheld (by omega)

theorem Sound.start (now : Int) (file : Option Content) (tmp : String → Option Content) :
    Sound leaseTtlMs calls (start now file tmp) := by
  refine ⟨?_, ?_, ?_⟩
  · intro owner heartbeatAt hheld
    cases hheld
  · intro c lease tmpFile content hphase
    cases hphase
  · intro c lease hlease
    cases hlease

theorem keepsLeases_of_rechecked {a : Action} (hguard : Rechecked leaseTtlMs calls s a) :
    KeepsLeases calls s a := by
  intro c ha hrequest hwrites lease hfile
  subst ha
  have hpasses := hguard hwrites
  unfold passes at hpasses
  split at hpasses
  · next heq => exact absurd heq hrequest
  · obtain ⟨read, hread, howner⟩ := isOwner_eq_true.mp hpasses
    obtain ⟨hsome, -⟩ := readLease_eq_some.mp hread
    rw [hfile] at hsome
    cases hsome
    exact howner

/-- In every state of the run one owner holds the lease at most, and no heartbeat and no release
touches another's. -/
def OneOwner (leaseTtlMs : Int) (calls : Nat → Call) (s : State) (as : List Action) : Prop :=
  (∀ pre post t, as = pre ++ post → run (step leaseTtlMs calls) s pre = some t →
    Exclusive leaseTtlMs t) ∧
    Along (step leaseTtlMs calls) (KeepsLeases calls) s as

/-- Where the check of each call still passes when it writes, the lease has one owner. -/
theorem oneOwner_of_rechecked (now : Int) (file : Option Content) (tmp : String → Option Content)
    {as : List Action}
    (h : Along (step leaseTtlMs calls) (Rechecked leaseTtlMs calls)
      (RepoLeaseCoordinator.start now file tmp) as) :
    OneOwner leaseTtlMs calls (RepoLeaseCoordinator.start now file tmp) as := by
  have hsteps : ∀ s a t, Sound leaseTtlMs calls s → Rechecked leaseTtlMs calls s a →
      step leaseTtlMs calls s a = some t → Sound leaseTtlMs calls t :=
    fun s a t hs hguard hstep => hs.step hguard hstep
  have hstart : Sound leaseTtlMs calls (RepoLeaseCoordinator.start now file tmp) :=
    Sound.start now file tmp
  constructor
  · intro pre post s has hr
    rw [has] at h
    have hsound := h.take.invariant hsteps hstart hr
    exact hsound.exclusive
  · exact Along.imp hsteps (fun s a _ hguard => keepsLeases_of_rechecked hguard) hstart h

end

/-! ### A heartbeat that comes late -/

def twoOwners : Nat → Call
  | 0 => { request := .acquireMutatingLease, owner := "a" }
  | 1 => { request := .heartbeat, owner := "a" }
  | 2 => { request := .releaseMutatingLease, owner := "a" }
  | _ => { request := .acquireMutatingLease, owner := "b" }

def emptyDir : State := start 0 none fun _ => none

/-- One owner acquires and releases, then the other acquires. -/
def inTurn : List Action :=
  [.begin 0, .act 0, .act 0, .write 0 "t0", .act 0, .clock 1000,
    .begin 2, .act 2, .act 2, .act 2, .begin 3, .act 3, .act 3, .write 3 "t3", .act 3]

theorem inTurn_oneOwner : OneOwner 300000 twoOwners emptyDir inTurn := by
  apply oneOwner_of_rechecked 0 none fun _ => none
  have hact (c : Nat) (s t : State) {as : List Action}
      (hcheck : (!(s.phases c).writes || passes 300000 (twoOwners c) s) = true)
      (hstep : step 300000 twoOwners s (.act c) = some t)
      (hrest : Along (step 300000 twoOwners) (Rechecked 300000 twoOwners) t as) :
      Along (step 300000 twoOwners) (Rechecked 300000 twoOwners) s (.act c :: as) := by
    refine .cons (fun hwrites => ?_) hstep hrest
    simpa [hwrites] using hcheck
  have hlater : (0 : Int) ≤ 1000 := by decide
  refine .cons trivial rfl (hact 0 _ _ rfl rfl (hact 0 _ _ rfl rfl (.cons ?_ rfl ?_)))
  · intro lease _ d other heq
    rcases d with _ | n
    · cases heq
    · cases heq
  refine hact 0 _ _ rfl rfl (.cons hlater rfl (.cons trivial rfl ?_))
  refine hact 2 _ _ rfl rfl (hact 2 _ _ rfl rfl (hact 2 _ _ rfl rfl ?_))
  refine .cons trivial rfl (hact 3 _ _ rfl rfl (hact 3 _ _ rfl rfl (.cons ?_ rfl ?_)))
  · intro lease _ d other heq
    rcases d with _ | _ | _ | _ | n
    · cases heq
    · cases heq
    · cases heq
    · cases heq
    · cases heq
  exact hact 3 _ _ rfl rfl trivial

/-- The heartbeat reads a lease that is stale, and writes after another owner has acquired it. -/
def lateHeartbeat : List Action :=
  [.begin 0, .act 0, .act 0, .write 0 "t0", .act 0, .clock 300001,
    .begin 1, .act 1, .act 1, .begin 3, .act 3, .act 3, .act 3, .write 3 "t3", .act 3,
    .act 1, .write 1 "t1"]

def beforeHeartbeat : State :=
  (run (step 300000 twoOwners) emptyDir lateHeartbeat).getD emptyDir

def afterHeartbeat : State :=
  (run (step 300000 twoOwners) emptyDir (lateHeartbeat ++ [.act 1])).getD emptyDir

theorem late_heartbeat_overwrites :
    ¬(∀ pre post t, lateHeartbeat ++ [.act 1] = pre ++ post →
      run (step 300000 twoOwners) emptyDir pre = some t → Exclusive 300000 t) ∧
    ¬Along (step 300000 twoOwners) (KeepsLeases twoOwners) emptyDir
      (lateHeartbeat ++ [.act 1]) := by
  constructor
  · intro h
    have hexclusive : Exclusive 300000 afterHeartbeat :=
      h (lateHeartbeat ++ [.act 1]) [] afterHeartbeat (by simp) rfl
    have heq := hexclusive "a" "b" ⟨300001, rfl, by decide⟩ ⟨300001, rfl, by decide⟩
    revert heq
    decide
  · intro h
    have hrun : run (step 300000 twoOwners) emptyDir lateHeartbeat = some beforeHeartbeat := rfl
    have hlast := (h.append hrun).1 1 rfl (by decide) (by decide) ⟨"b", 300001, 300001⟩ rfl
    revert hlast
    decide

end RepoLeaseCoordinator
