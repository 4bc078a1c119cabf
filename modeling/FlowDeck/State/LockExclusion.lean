import FlowDeck.State.AsyncLock

/-! When the lock file keeps the calls apart, and with them the updates under it. -/

namespace AsyncLock

open Machine Option

/-! ### What is claimed -/

/-- The lock file of the call exists, or is being made: from its creation to its release. -/
def Phase.owns : Phase → Bool
  | .filling _ | .holding | .updating _ | .releasing => true
  | _ => false

/-- The call has returned from `acquireLock` and has not yet released. -/
def Phase.holds : Phase → Bool
  | .holding | .updating _ | .releasing => true
  | _ => false

/-- The next operation is an unlink. -/
def Phase.unlinks : Phase → Bool
  | .unlinking _ | .releasing => true
  | _ => false

section

variable (calls : Nat → Call)

def Owns (s : State) (c : Nat) : Prop :=
  s.running (calls c).pid = true ∧ (s.phases c).owns = true

def Holds (s : State) (c : Nat) : Prop :=
  s.running (calls c).pid = true ∧ (s.phases c).holds = true

def Exclusive (s : State) : Prop := ∀ c d, Holds calls s c → Holds calls s d → c = d

/-- An unlink of a running call removes no other live holder's lock file. -/
def KeepsFiles (s : State) (a : Action) : Prop :=
  ∀ c, a = .act c → s.running (calls c).pid = true → (s.phases c).unlinks = true →
    ∀ file d, s.file = some file → file.creator = some d → d ≠ c → ¬Holds calls s d

/-- An unlink of a stealer meets no file, or the one that the stealer has read; if that named no
process, it is not one that a running process made. -/
def Undisturbed (s : State) (a : Action) : Prop :=
  ∀ c read, a = .act c → s.phases c = .unlinking read → ∀ file, s.file = some file →
    ∃ judged, read = some judged ∧ judged.creator = file.creator ∧
      (holderPid judged.content = none →
        ∀ d, file.creator = some d → s.running (calls d).pid = false)

/-! ### The invariant -/

/-- If the file names a process, it is that of its creator. -/
def Honest (file : LockFile) : Prop :=
  ∀ d pid, file.creator = some d → holderPid file.content = some pid → pid = (calls d).pid

/-- What a stealer has read. -/
def Phase.read? : Phase → Option LockFile
  | .probing _ read | .unlinking read => read
  | _ => none

structure Sound (data : String) (s : State) : Prop where
  owned : ∀ c, Owns calls s c → ∃ file, s.file = some file ∧ file.creator = some c
  honest : ∀ file, s.file = some file → Honest calls file
  read : ∀ c file, (s.phases c).read? = some file → Honest calls file
  dead : ∀ c file pid, s.phases c = .unlinking (some file) → holderPid file.content = some pid →
    s.running pid = false
  named : ∀ c content, s.phases c = .filling content →
    ∀ pid, holderPid content = some pid → pid = (calls c).pid
  current : ∀ c read, s.phases c = .updating read → s.running (calls c).pid = true → read = s.data
  written : s.data = s.updates.foldl Update.apply data

end

section Steps

variable {calls : Nat → Call} {data : String} {s t : State}

theorem Holds.owns {c : Nat} (h : Holds calls s c) : Owns calls s c := by
  refine ⟨h.1, ?_⟩
  have hholds := h.2
  cases hphase : s.phases c <;> simp_all [Phase.holds, Phase.owns]

theorem Sound.exclusive (h : Sound calls data s) {c d : Nat} (hc : Owns calls s c)
    (hd : Owns calls s d) : c = d := by
  obtain ⟨file, hfile, hcreator⟩ := h.owned c hc
  obtain ⟨file', hfile', hcreator'⟩ := h.owned d hd
  obtain rfl := some.inj (hfile.symm.trans hfile')
  exact some.inj (hcreator.symm.trans hcreator')

theorem Sound.unowned (h : Sound calls data s) (hfile : s.file = none) (c : Nat) :
    ¬Owns calls s c := by
  intro hc
  obtain ⟨file, hsome, -⟩ := h.owned c hc
  rw [hfile] at hsome
  cases hsome

/-- A call goes to a phase that owes nothing more than the file says. -/
theorem Sound.goto (h : Sound calls data s) {c : Nat} {phase : Phase}
    (howned : phase.owns = true → ∃ file, s.file = some file ∧ file.creator = some c)
    (hread : ∀ file, phase.read? = some file → Honest calls file)
    (hdead : ∀ file pid, phase = .unlinking (some file) → holderPid file.content = some pid →
      s.running pid = false)
    (hnamed : ∀ content, phase = .filling content →
      ∀ pid, holderPid content = some pid → pid = (calls c).pid)
    (hcurrent : ∀ read, phase = .updating read → read = s.data) :
    Sound calls data (s.goto c phase) := by
  have hat (d : Nat) : (s.goto c phase).phases d = phase ∧ d = c ∨
      (s.goto c phase).phases d = s.phases d ∧ d ≠ c := by
    rw [phases_goto]
    by_cases hd : d = c
    · exact .inl ⟨if_pos hd, hd⟩
    · exact .inr ⟨if_neg hd, hd⟩
  refine ⟨?_, h.honest, ?_, ?_, ?_, ?_, h.written⟩
  · intro d hd
    rcases hat d with ⟨heq, rfl⟩ | ⟨heq, -⟩
    · exact howned (heq ▸ hd.2)
    · exact h.owned d ⟨hd.1, heq ▸ hd.2⟩
  · intro d file hfile
    rcases hat d with ⟨heq, rfl⟩ | ⟨heq, -⟩
    · exact hread file (heq ▸ hfile)
    · exact h.read d file (heq ▸ hfile)
  · intro d file pid hphase hpid
    rcases hat d with ⟨heq, rfl⟩ | ⟨heq, -⟩
    · exact hdead file pid (heq.symm.trans hphase) hpid
    · exact h.dead d file pid (heq.symm.trans hphase) hpid
  · intro d content hphase
    rcases hat d with ⟨heq, rfl⟩ | ⟨heq, -⟩
    · exact hnamed content (heq.symm.trans hphase)
    · exact h.named d content (heq.symm.trans hphase)
  · intro d read hphase hrunning
    rcases hat d with ⟨heq, rfl⟩ | ⟨heq, -⟩
    · exact hcurrent read (heq.symm.trans hphase)
    · exact h.current d read (heq.symm.trans hphase) hrunning

theorem Sound.goto_free (h : Sound calls data s) {c : Nat} {phase : Phase}
    (howns : phase.owns = false) (hread : phase.read? = none) :
    Sound calls data (s.goto c phase) := by
  refine h.goto ?_ ?_ ?_ ?_ ?_
  · intro hphase
    rw [howns] at hphase
    cases hphase
  · intro file hfile
    rw [hread] at hfile
    cases hfile
  · intro file pid hphase
    rw [hphase] at hread
    cases hread
  · intro content hphase
    rw [hphase] at howns
    cases howns
  · intro read hphase
    rw [hphase] at howns
    cases howns

/-- The lock file changes, but no owner loses it. -/
theorem Sound.setFile (h : Sound calls data s) {file : Option LockFile}
    (howned : ∀ c, Owns calls s c → ∃ f, file = some f ∧ f.creator = some c)
    (hhonest : ∀ f, file = some f → Honest calls f) : Sound calls data { s with file } :=
  ⟨howned, hhonest, h.read, h.dead, h.named, h.current, h.written⟩

theorem honest_created (c : Nat) (now : Int) : Honest calls ⟨some c, "", now⟩ := by
  intro d pid _ hpid
  rw [holderPid_empty] at hpid
  cases hpid

theorem Sound.create (h : Sound calls data s) {c : Nat} (hfile : s.file = none) :
    Sound calls data { s.goto c (.filling (lockContent (calls c).pid s.now)) with
      file := some ⟨some c, "", s.now⟩ } := by
  have hset : Sound calls data { s with file := some ⟨some c, "", s.now⟩ } := by
    apply h.setFile
    · intro d hd
      exact absurd hd (h.unowned hfile d)
    · intro f hf
      obtain rfl := some.inj hf
      exact honest_created c s.now
  refine hset.goto ?_ ?_ ?_ ?_ ?_
  · intro _
    exact ⟨_, rfl, rfl⟩
  · intro file hread
    cases hread
  · intro file pid hphase
    cases hphase
  · intro content hphase pid hpid
    obtain rfl := Phase.filling.inj hphase
    exact (holderPid_lockContent_eq hpid).symm
  · intro read hphase
    cases hphase

theorem Sound.fill (h : Sound calls data s) {c : Nat} {content : String}
    (hrunning : s.running (calls c).pid = true) (hphase : s.phases c = .filling content) :
    Sound calls data { s.goto c .holding with
      file := s.file.map fun file =>
        if file.creator = some c then { file with content, mtime := s.now } else file } := by
  let fill : LockFile → LockFile := fun file =>
    if file.creator = some c then { file with content, mtime := s.now } else file
  have hcreator (file : LockFile) : (fill file).creator = file.creator := by
    simp only [fill]
    split_ifs <;> rfl
  have hset : Sound calls data { s with file := s.file.map fill } := by
    apply h.setFile
    · intro d hd
      obtain ⟨file, hfile, hd'⟩ := h.owned d hd
      exact ⟨fill file, by rw [hfile]; rfl, (hcreator file).trans hd'⟩
    · intro f hf
      obtain ⟨file, hfile, rfl⟩ := map_eq_some_iff.mp hf
      intro d pid hd hpid
      rw [hcreator] at hd
      simp only [fill] at hpid
      split_ifs at hpid with hown
      · obtain rfl := some.inj (hown.symm.trans hd)
        exact h.named c content hphase pid hpid
      · exact h.honest file hfile d pid hd hpid
  refine hset.goto ?_ ?_ ?_ ?_ ?_
  · intro _
    have howns : Owns calls s c := ⟨hrunning, by rw [hphase]; rfl⟩
    obtain ⟨file, hfile, hc⟩ := h.owned c howns
    exact ⟨fill file, by rw [hfile]; rfl, (hcreator file).trans hc⟩
  · intro file hread
    cases hread
  · intro file pid hphase'
    cases hphase'
  · intro content' hphase'
    cases hphase'
  · intro read hphase'
    cases hphase'

theorem Sound.unowned_of_undisturbed (h : Sound calls data s) {c : Nat} {read : Option LockFile}
    (hphase : s.phases c = .unlinking read) (hguard : Undisturbed calls s (.act c)) (d : Nat) :
    ¬Owns calls s d := by
  intro hd
  obtain ⟨file, hfile, hcreator⟩ := h.owned d hd
  obtain ⟨judged, rfl, hsame, hunnamed⟩ := hguard c read rfl hphase file hfile
  cases hpid : holderPid judged.content with
  | none =>
    have hdead := hunnamed hpid d hcreator
    rw [hd.1] at hdead
    cases hdead
  | some pid =>
    have hdead := h.dead c judged pid hphase hpid
    have hhonest : Honest calls judged := h.read c judged (by rw [hphase]; rfl)
    rw [hhonest d pid (hsame.trans hcreator) hpid, hd.1] at hdead
    cases hdead

theorem Sound.steal (h : Sound calls data s) {c : Nat} {read : Option LockFile}
    (hphase : s.phases c = .unlinking read) (hguard : Undisturbed calls s (.act c)) :
    Sound calls data { s.goto c (.creating true) with file := none } := by
  have hset : Sound calls data { s with file := none } := by
    apply h.setFile
    · intro d hd
      exact absurd hd (h.unowned_of_undisturbed hphase hguard d)
    · intro f hf
      cases hf
  exact hset.goto_free rfl rfl

theorem Sound.release (h : Sound calls data s) {c : Nat}
    (hrunning : s.running (calls c).pid = true) (hphase : s.phases c = .releasing) :
    Sound calls data { s.goto c .released with file := none } := by
  have hgoto : Sound calls data (s.goto c .released) := h.goto_free rfl rfl
  apply hgoto.setFile
  · intro d hd
    have hne : d ≠ c := by
      intro heq
      have howns := hd.2
      rw [phases_goto, if_pos heq] at howns
      cases howns
    have hold : Owns calls s d := ⟨hd.1, by simpa [hne] using hd.2⟩
    have hown : Owns calls s c := ⟨hrunning, by rw [hphase]; rfl⟩
    exact absurd (h.exclusive hold hown) hne
  · intro f hf
    cases hf

/-- The writer writes what it makes of the text as it still is. -/
theorem Sound.update (h : Sound calls data s) {c : Nat} {read : String} {update : Update}
    (hrunning : s.running (calls c).pid = true) (hphase : s.phases c = .updating read) :
    Sound calls data { s.goto c .releasing with
      data := update.apply read, updates := s.updates ++ [update] } := by
  have hown : Owns calls s c := ⟨hrunning, by rw [hphase]; rfl⟩
  have hgoto : Sound calls data (s.goto c .releasing) := by
    refine h.goto (fun _ => h.owned c hown) ?_ ?_ ?_ ?_
    · intro file hread
      cases hread
    · intro file pid hphase'
      cases hphase'
    · intro content hphase'
      cases hphase'
    · intro read hphase'
      cases hphase'
  refine ⟨hgoto.owned, hgoto.honest, hgoto.read, hgoto.dead, hgoto.named, ?_, ?_⟩
  · intro d read' hphase' hrunning'
    have hat : (s.goto c .releasing).phases d = .updating read' := hphase'
    rw [phases_goto] at hat
    split_ifs at hat with hd
    have hold : Owns calls s d := ⟨hrunning', by rw [hat]; rfl⟩
    exact absurd (h.exclusive hold hown) hd
  · have hread : read = s.data := h.current c read hphase hrunning
    rw [List.foldl_append, ← h.written, hread]
    rfl

theorem Sound.die (h : Sound calls data s) (pid : Nat) :
    Sound calls data { s with running := Function.update s.running pid false } := by
  have hold {p : Nat} (hp : Function.update s.running pid false p = true) :
      s.running p = true := by
    by_cases heq : p = pid
    · rw [heq, Function.update_self] at hp
      cases hp
    · rwa [Function.update_of_ne heq] at hp
  refine ⟨?_, h.honest, h.read, ?_, h.named, ?_, h.written⟩
  · intro c hc
    exact h.owned c ⟨hold hc.1, hc.2⟩
  · intro c file p hphase hp
    have hdead := h.dead c file p hphase hp
    by_contra hne
    rw [hold (Bool.not_eq_false _ ▸ hne)] at hdead
    cases hdead
  · intro c read hphase hrunning
    exact h.current c read hphase (hold hrunning)

theorem Sound.goto_owning (h : Sound calls data s) {c : Nat} {phase : Phase}
    (hown : Owns calls s c) (hread : phase.read? = none)
    (hnamed : ∀ content, phase ≠ .filling content)
    (hcurrent : ∀ read, phase = .updating read → read = s.data) :
    Sound calls data (s.goto c phase) := by
  refine h.goto (fun _ => h.owned c hown) ?_ ?_ ?_ hcurrent
  · intro file hfile
    rw [hread] at hfile
    cases hfile
  · intro file pid hphase
    rw [hphase] at hread
    cases hread
  · intro content hphase
    exact absurd hphase (hnamed content)

theorem Sound.act (h : Sound calls data s) {c : Nat}
    (hrunning : s.running (calls c).pid = true) (hguard : Undisturbed calls s (.act c))
    (hstep : AsyncLock.act calls s c = some t) : Sound calls data t := by
  unfold AsyncLock.act at hstep
  split at hstep
  · next stealing hphase =>
    split at hstep
    · next hfile =>
      obtain rfl := some.inj hstep
      exact h.create hfile
    · obtain rfl := some.inj hstep
      split_ifs
      · exact h.goto_free rfl rfl
      · exact h.goto_free rfl rfl
  · next content hphase =>
    obtain rfl := some.inj hstep
    exact h.fill hrunning hphase
  · split at hstep
    · obtain rfl := some.inj hstep
      exact h.goto_free rfl rfl
    · obtain rfl := some.inj hstep
      exact h.goto_free rfl rfl
  · next age hphase =>
    obtain rfl := some.inj hstep
    refine h.goto ?_ (fun file hfile => h.honest file hfile) ?_ ?_ ?_
    · intro howns
      cases howns
    · intro file pid heq
      cases heq
    · intro content heq
      cases heq
    · intro read heq
      cases heq
  · next age read hphase =>
    obtain rfl := some.inj hstep
    split_ifs with hstale
    · refine h.goto ?_ ?_ ?_ ?_ ?_
      · intro howns
        cases howns
      · intro file hfile
        exact h.read c file (by rw [hphase]; exact hfile)
      · intro file pid heq hpid
        obtain rfl := Phase.unlinking.inj heq
        simp only [isStale, bind_some, hpid, Bool.not_eq_true'] at hstale
        exact hstale
      · intro content heq
        cases heq
      · intro read heq
        cases heq
    · exact h.goto_free rfl rfl
  · next read hphase =>
    obtain rfl := some.inj hstep
    exact h.steal hphase hguard
  · obtain rfl := some.inj hstep
    split_ifs
    · exact h.goto_free rfl rfl
    · exact h.goto_free rfl rfl
  · next hphase =>
    have hown : Owns calls s c := ⟨hrunning, by rw [hphase]; rfl⟩
    split at hstep
    · obtain rfl := some.inj hstep
      exact h.goto_owning hown rfl (by simp) (by simp)
    · obtain rfl := some.inj hstep
      refine h.goto_owning hown rfl (by simp) fun read heq => ?_
      exact (Phase.updating.inj heq).symm
  · next read hphase =>
    obtain ⟨update, -, rfl⟩ := map_eq_some_iff.mp hstep
    exact h.update hrunning hphase
  · next hphase =>
    obtain rfl := some.inj hstep
    exact h.release hrunning hphase
  · cases hstep
  · cases hstep
  · cases hstep

theorem Sound.step {a : Action} (h : Sound calls data s) (hguard : Undisturbed calls s a)
    (hstep : AsyncLock.step calls s a = some t) : Sound calls data t := by
  cases a with
  | begin c =>
    simp only [AsyncLock.step] at hstep
    split_ifs at hstep
    obtain rfl := some.inj hstep
    have hgoto : Sound calls data (s.goto c (.creating false)) := h.goto_free rfl rfl
    exact ⟨hgoto.owned, hgoto.honest, hgoto.read, hgoto.dead, hgoto.named, hgoto.current,
      hgoto.written⟩
  | act c =>
    simp only [AsyncLock.step] at hstep
    split_ifs at hstep with hrunning
    exact h.act hrunning hguard hstep
  | leave c =>
    simp only [AsyncLock.step] at hstep
    split_ifs at hstep with hmay
    obtain rfl := some.inj hstep
    obtain ⟨hrunning, hlocked⟩ := Bool.and_eq_true_iff.mp hmay
    have hown : Owns calls s c := by
      refine ⟨hrunning, ?_⟩
      cases hphase : s.phases c <;> simp_all [Phase.locked, Phase.owns]
    exact h.goto_owning hown rfl (by simp) (by simp)
  | tick elapsed =>
    obtain rfl := some.inj hstep
    exact ⟨h.owned, h.honest, h.read, h.dead, h.named, h.current, h.written⟩
  | die pid =>
    obtain rfl := some.inj hstep
    exact h.die pid

theorem Sound.keepsFiles {a : Action} (h : Sound calls data s) (hguard : Undisturbed calls s a) :
    KeepsFiles calls s a := by
  intro c ha hrunning hunlinks file d hfile hcreator hne hd
  cases hphase : s.phases c with
  | unlinking read =>
    rw [ha] at hguard
    exact h.unowned_of_undisturbed hphase hguard d hd.owns
  | releasing =>
    have hown : Owns calls s c := ⟨hrunning, by rw [hphase]; rfl⟩
    exact hne (h.exclusive hd.owns hown)
  | _ =>
    rw [hphase] at hunlinks
    cases hunlinks

theorem Sound.start (now : Int) (running : Nat → Bool) (left : Option (String × Int))
    (data : String) : Sound calls data (AsyncLock.start now running left data) := by
  refine ⟨?_, ?_, ?_, ?_, ?_, ?_, rfl⟩
  · intro c hc
    cases hc.2
  · intro file hfile d pid hd
    obtain ⟨found, -, rfl⟩ := map_eq_some_iff.mp hfile
    cases hd
  · intro c file hread
    cases hread
  · intro c file pid hphase
    cases hphase
  · intro c content hphase
    cases hphase
  · intro c read hphase
    cases hphase

/-- In every run whose stealers' unlinks meet the files they have judged, one call at most holds the
lock, no unlink removes the file of another that does, and the file under the lock is what the
updates make of it one after the other. -/
theorem lock_guards {now : Int} {running : Nat → Bool} {left : Option (String × Int)}
    {as : List Action}
    (h : Along (AsyncLock.step calls) (Undisturbed calls) (AsyncLock.start now running left data) as)
    (hrun : run (AsyncLock.step calls) (AsyncLock.start now running left data) as = some s) :
    Exclusive calls s ∧
      Along (AsyncLock.step calls) (KeepsFiles calls) (AsyncLock.start now running left data) as ∧
        s.data = s.updates.foldl Update.apply data := by
  have hstart : Sound calls data (AsyncLock.start now running left data) :=
    Sound.start now running left data
  have hkept : ∀ s a t, Sound calls data s → Undisturbed calls s a →
      AsyncLock.step calls s a = some t → Sound calls data t :=
    fun s a t hs hguard hstep => hs.step hguard hstep
  have hend : Sound calls data s := h.invariant hkept hstart hrun
  refine ⟨?_, ?_, hend.written⟩
  · intro c d hc hd
    exact hend.exclusive hc.owns hd.owns
  · exact Along.imp hkept (fun s a hs hguard => hs.keepsFiles hguard) hstart h

end Steps

/-- Two processes that each append a line. -/
def twoWriters : Nat → Call
  | 0 => ⟨1, {}, some (.append "x")⟩
  | n => ⟨n + 1, {}, some (.append "y")⟩

/-- The lock file of the dead process 9. -/
def leftByDead : State := start 0 (fun pid => pid < 9) (some ("9:0", 0)) ""

def acts (c n : Nat) : List Action := List.replicate n (.act c)

/-- One writer steals the lock, appends and releases. -/
def oneSteals : List Action := .begin 0 :: acts 0 10

/-- A stealer finds the very file that it has read, and that names a process. -/
def findsJudged (s : State) : Action → Bool
  | .act c =>
    match s.phases c with
    | .unlinking read =>
      decide (read = s.file) && (read.bind fun file => holderPid file.content).isSome
    | _ => true
  | _ => true

theorem undisturbed_of_findsJudged {calls : Nat → Call} {s : State} {a : Action}
    (h : findsJudged s a = true) : Undisturbed calls s a := by
  intro c read ha hphase file hfile
  rw [ha] at h
  simp only [findsJudged, hphase, Bool.and_eq_true, decide_eq_true_eq] at h
  obtain ⟨hread, hnamed⟩ := h
  rw [hread, hfile] at hnamed
  refine ⟨file, hread.trans hfile, rfl, fun hnone => ?_⟩
  rw [bind_some, hnone] at hnamed
  cases hnamed

theorem one_steals_guards : ∃ s, run (step twoWriters) leftByDead oneSteals = some s ∧
    Exclusive twoWriters s ∧ Along (step twoWriters) (KeepsFiles twoWriters) leftByDead oneSteals ∧
      s.data = s.updates.foldl Update.apply "" := by
  refine ⟨_, rfl, lock_guards ?_ rfl⟩
  refine .cons (undisturbed_of_findsJudged rfl) rfl ?_
  have h (s : State) (t : State) (hs : findsJudged s (.act 0) = true)
      (hstep : step twoWriters s (.act 0) = some t) {as : List Action}
      (hrest : Along (step twoWriters) (Undisturbed twoWriters) t as) :
      Along (step twoWriters) (Undisturbed twoWriters) s (.act 0 :: as) :=
    .cons (undisturbed_of_findsJudged hs) hstep hrest
  refine h _ _ rfl rfl (h _ _ rfl rfl (h _ _ rfl rfl (h _ _ rfl rfl ?_)))
  refine h _ _ (by decide +kernel) rfl (h _ _ rfl rfl (h _ _ rfl rfl ?_))
  exact h _ _ rfl rfl (h _ _ rfl rfl (h _ _ rfl rfl trivial))

/-- Two writers find the dead holder's file; the second unlinks the file that the first has made. -/
def bothSteal : List Action :=
  .begin 0 :: acts 0 4 ++ .begin 1 :: acts 1 4 ++ acts 0 3 ++ acts 1 3

theorem both_steal_hold : ∃ s, run (step twoWriters) leftByDead bothSteal = some s ∧
    Holds twoWriters s 0 ∧ Holds twoWriters s 1 := by
  exact ⟨_, rfl, ⟨rfl, rfl⟩, rfl, rfl⟩

end AsyncLock
