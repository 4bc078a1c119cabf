import FlowDeck.Library.Machine
import FlowDeck.State.StateCalls

/-! The two readers of the confirmation of a plan, over runs of the calls that write `STATE.md`. -/

namespace PlanningState

open StateText TextLines List

variable {H : Host} {content : Text} {front : List (Text × Text)} {middle : List Text}

/-! ### What `planningWorkspaceStatus` finds -/

variable {c : Char} {lower s : Text} {b : Bool}

theorem toLower_eq_newline (h : '\n'.toLower = c) : c = '\n' := by
  rw [← h]
  decide

theorem beginsAnyCase_head {d : Char} (h : d.toLower ≠ c) :
    beginsAnyCase (c :: lower) (d :: s) = false := by
  simp [beginsAnyCase, h]

theorem beginsAnyCase_line (s rest : Text) (hlower : '\n' ∉ lower) :
    beginsAnyCase lower (s ++ '\n' :: rest) = beginsAnyCase lower s := by
  induction lower generalizing s with
  | nil => rfl
  | cons c lower ih =>
    have hc : '\n'.toLower ≠ c := fun heq => hlower (toLower_eq_newline heq ▸ mem_cons_self)
    cases s with
    | nil =>
      rw [nil_append, beginsAnyCase_head hc]
      rfl
    | cons d s =>
      have hrest := ih s fun hmem => hlower (mem_cons_of_mem _ hmem)
      rw [beginsAnyCase, beginsAnyCase] at hrest ⊢
      simp only [cons_append, length_cons, take_succ_cons, map_cons,
        cons.injEq, Nat.add_le_add_iff_right, Bool.decide_and] at hrest ⊢
      rw [Bool.and_left_comm, hrest, Bool.and_left_comm]

theorem beginsAnyCase_append (rest : Text) (h : lower.length ≤ s.length) :
    beginsAnyCase lower (s ++ rest) = beginsAnyCase lower s := by
  rw [beginsAnyCase, beginsAnyCase, take_append_of_le_length h, length_append,
    decide_eq_true h, decide_eq_true (h.trans (Nat.le_add_right _ _))]

/-- A character that begins none of the values and that the search does not pass over. -/
def Bars (c : Char) : Prop := isSpace c = false ∧ c.toLower ≠ 't' ∧ c.toLower ≠ 'f'

/-- A match does not run over the end of its line, where the next one begins with such a
character. -/
theorem confirmedHere_line (s rest : Text) (hc : Bars c) (h : confirmedHere s = none) :
    confirmedHere (s ++ '\n' :: c :: rest) = none := by
  rw [confirmedHere] at h ⊢
  simp only at h ⊢
  rw [beginsAnyCase_line _ _ (by decide)]
  by_cases hkey : beginsAnyCase "plan_confirmed:".toList s = true
  · rw [if_pos hkey] at h ⊢
    have hlength : "plan_confirmed:".toList.length ≤ s.length := by
      rw [beginsAnyCase, Bool.and_eq_true, decide_eq_true_iff] at hkey
      exact hkey.1
    rw [drop_append_of_le_length hlength]
    generalize s.drop "plan_confirmed:".toList.length = tail at h ⊢
    by_cases hall : ∀ d ∈ tail, isSpace d = true
    · have hdrop : (tail ++ '\n' :: c :: rest).dropWhile isSpace = c :: rest := by
        rw [dropWhile_append_of_pos hall, dropWhile_cons_of_pos (by decide),
          dropWhile_cons_of_neg (by rw [hc.1]; decide)]
      have htrue : beginsAnyCase "true".toList (c :: rest) = false := beginsAnyCase_head hc.2.1
      have hfalse : beginsAnyCase "false".toList (c :: rest) = false := beginsAnyCase_head hc.2.2
      rw [hdrop, htrue, hfalse]
      rfl
    · have hne : tail.dropWhile isSpace ≠ [] := by
        intro hnil
        exact hall (dropWhile_eq_nil_iff.mp hnil)
      have hdrop : (tail ++ '\n' :: c :: rest).dropWhile isSpace =
          tail.dropWhile isSpace ++ '\n' :: c :: rest := by
        rw [dropWhile_append, if_neg]
        simpa using hne
      rw [hdrop, beginsAnyCase_line _ _ (by decide), beginsAnyCase_line _ _ (by decide)]
      exact h
  · rw [if_neg hkey]

theorem confirmedHere_head (h : c.toLower ≠ 'p') : confirmedHere (c :: s) = none := by
  have hkey : beginsAnyCase "plan_confirmed:".toList (c :: s) = false := beginsAnyCase_head h
  rw [confirmedHere]
  simp only
  rw [hkey]
  rfl

/-- The search goes on in the next line. -/
theorem firstConfirmed_line (s rest : Text) (hc : Bars c) (h : firstConfirmed s = none) :
    firstConfirmed (s ++ '\n' :: c :: rest) = firstConfirmed (c :: rest) := by
  induction s with
  | nil =>
    have hfeed : confirmedHere ('\n' :: c :: rest) = none := confirmedHere_head (by decide)
    rw [nil_append, firstConfirmed, hfeed]
  | cons d s ih =>
    rw [firstConfirmed] at h
    cases hhere : confirmedHere (d :: s) with
    | some b =>
      rw [hhere] at h
      cases h
    | none =>
      rw [hhere] at h
      have hnone : confirmedHere (d :: (s ++ '\n' :: c :: rest)) = none :=
        confirmedHere_line (d :: s) rest hc hhere
      rw [cons_append, firstConfirmed, hnone]
      exact ih h

theorem firstConfirmed_join {l m : Text} (ls : List Text)
    (hm : ∃ c rest, Bars c ∧ m = c :: rest) (h : firstConfirmed l = none) :
    firstConfirmed (join '\n' (l :: m :: ls)) = firstConfirmed (join '\n' (m :: ls)) := by
  obtain ⟨c, rest, hc, rfl⟩ := hm
  rw [join_cons_cons, join_cons_eq, cons_append]
  exact firstConfirmed_line l _ hc h

/-- No match begins where no `p` stands. -/
theorem firstConfirmed_skip {before : Text} (s : Text) (h : ∀ c ∈ before, c.toLower ≠ 'p') :
    firstConfirmed (before ++ s) = firstConfirmed s := by
  induction before with
  | nil => rfl
  | cons c before ih =>
    have hhere : confirmedHere (c :: (before ++ s)) = none :=
      confirmedHere_head (h c mem_cons_self)
    rw [cons_append, firstConfirmed, hhere]
    exact ih fun d hd => h d (mem_cons_of_mem _ hd)

theorem confirmedHere_boolText (b : Bool) (rest : Text) :
    confirmedHere ("plan_confirmed: ".toList ++ boolText b ++ rest) = some b := by
  have hkey : beginsAnyCase "plan_confirmed:".toList
      ("plan_confirmed: ".toList ++ boolText b ++ rest) = true := by
    rw [append_assoc, beginsAnyCase_append _ (by decide)]
    decide
  have hvalue : (("plan_confirmed: ".toList ++ boolText b ++ rest).drop
      "plan_confirmed:".toList.length).dropWhile isSpace = boolText b ++ rest := by
    cases b with
    | true => rfl
    | false => rfl
  rw [confirmedHere]
  simp only
  rw [if_pos hkey, hvalue]
  cases b with
  | true =>
    have htrue : beginsAnyCase "true".toList (boolText true ++ rest) = true := by
      rw [beginsAnyCase_append _ (by decide)]
      decide
    rw [htrue]
    rfl
  | false =>
    have htrue : beginsAnyCase "true".toList (boolText false ++ rest) = false := by
      rw [beginsAnyCase_append _ (by decide)]
      decide
    have hfalse : beginsAnyCase "false".toList (boolText false ++ rest) = true := by
      rw [beginsAnyCase_append _ (by decide)]
      decide
    rw [htrue, hfalse]
    rfl

theorem toLower_underscore (h : c.toLower = '_') : c = '_' := by
  by_cases hupper : c.val ≥ 'A'.val ∧ c.val ≤ 'Z'.val
  · rw [show c.toLower = _ from dif_pos hupper] at h
    have hge := UInt32.le_iff_toNat_le.mp hupper.1
    have hle := UInt32.le_iff_toNat_le.mp hupper.2
    have hval := congrArg (fun d : Char => d.val.toNat) h
    simp only [UInt32.toNat_add] at hval
    have hA : 'A'.val.toNat = 65 := rfl
    have hZ : 'Z'.val.toNat = 90 := rfl
    have hshift : ('a'.val - 'A'.val).toNat = 32 := rfl
    have hunder : '_'.val.toNat = 95 := rfl
    omega
  · exact (show c.toLower = c from dif_neg hupper).symm.trans h

/-- No match stands where there is no underscore. -/
theorem firstConfirmed_plain (h : '_' ∉ s) : firstConfirmed s = none := by
  induction s with
  | nil => rfl
  | cons c s ih =>
    have hkey : ¬ beginsAnyCase "plan_confirmed:".toList (c :: s) = true := by
      intro hbegin
      rw [beginsAnyCase, Bool.and_eq_true, decide_eq_true_iff, decide_eq_true_iff] at hbegin
      have hmem : '_' ∈ ((c :: s).take "plan_confirmed:".toList.length).map Char.toLower := by
        rw [hbegin.2]
        decide
      obtain ⟨d, hd, hlower⟩ := mem_map.mp hmem
      exact h (toLower_underscore hlower ▸ mem_of_mem_take hd)
    have hhere : confirmedHere (c :: s) = none := by
      rw [confirmedHere]
      simp only
      rw [if_neg hkey]
    rw [firstConfirmed, hhere]
    exact ih fun hmem => h (mem_cons_of_mem _ hmem)

/-! ### The readers on a layout -/

/-- The front values on the way to the confirmation hide no match, and its own value is a
boolean. -/
structure Confirmed (front : List (Text × Text)) (b : Bool) : Prop where
  phase : '_' ∉ valueOf front "phase".toList
  status : firstConfirmed (valueOf front "status".toList) = none
  confirmed : valueOf front "plan_confirmed".toList = boolText b

theorem Confirmed.of_watched {front' : List (Text × Text)} (h : Confirmed front b)
    (hsame : ∀ key ∈ watchedKeys, valueOf front' key = valueOf front key) : Confirmed front' b := by
  have hphase := hsame "phase".toList (by decide +kernel)
  have hstatus := hsame "status".toList (by decide +kernel)
  have hconfirmed := hsame "plan_confirmed".toList (by decide +kernel)
  refine ⟨?_, ?_, ?_⟩
  · rw [hphase]
    exact h.phase
  · rw [hstatus]
    exact h.status
  · rw [hconfirmed]
    exact h.confirmed

theorem LaidOut.opens (h : LaidOut content front middle) :
    ∃ rest, content = join '\n' (dashes :: keyLine "phase".toList (valueOf front "phase".toList) ::
      keyLine "status".toList (valueOf front "status".toList) ::
        keyLine "plan_confirmed".toList (valueOf front "plan_confirmed".toList) :: rest) := by
  obtain ⟨body, hlayout, rfl⟩ := h
  have hkeys := hlayout.keys
  have hsplit : frontKeys = "phase".toList :: "status".toList :: "plan_confirmed".toList ::
      frontKeys.drop 3 := rfl
  rw [hsplit] at hkeys
  match front, hkeys with
  | (phaseKey, phase) :: (statusKey, status) :: (confirmedKey, confirmed) :: later, hkeys =>
    simp only [map_cons, cons.injEq] at hkeys
    obtain ⟨hphase, hstatus, hconfirmed, -⟩ := hkeys
    subst hphase hstatus hconfirmed
    exact ⟨entryLines later ++ (middle ++ body), rfl⟩

/-- The text's reader finds the value of the front matter. -/
theorem LaidOut.firstConfirmed (h : LaidOut content front middle) (hfront : Confirmed front b) :
    firstConfirmed content = some b := by
  obtain ⟨rest, hcontent⟩ := h.opens
  have hdashes : PlanningState.firstConfirmed dashes = none := firstConfirmed_plain (by decide)
  have hphase : PlanningState.firstConfirmed
      (keyLine "phase".toList (valueOf front "phase".toList)) = none := by
    apply firstConfirmed_plain
    rw [keyLine_eq]
    simp only [mem_append, mem_cons, not_or]
    exact ⟨by decide, by decide, by decide, hfront.phase⟩
  have hstatus : PlanningState.firstConfirmed
      (keyLine "status".toList (valueOf front "status".toList)) = none := by
    have hkey : keyLine "status".toList (valueOf front "status".toList) =
        "status: ".toList ++ valueOf front "status".toList := by
      rw [keyLine_eq]
      rfl
    rw [hkey, firstConfirmed_skip _ (by simp), hfront.status]
  have hconfirmed : keyLine "plan_confirmed".toList (valueOf front "plan_confirmed".toList) =
      "plan_confirmed: ".toList ++ boolText b := by
    rw [hfront.confirmed, keyLine_eq]
    rfl
  have hbars : Bars 'p' ∧ Bars 's' := by
    unfold Bars
    decide
  have hphaseOpens : ∃ c rest, Bars c ∧
      keyLine "phase".toList (valueOf front "phase".toList) = c :: rest :=
    ⟨'p', _, hbars.1, rfl⟩
  have hstatusOpens : ∃ c rest, Bars c ∧
      keyLine "status".toList (valueOf front "status".toList) = c :: rest :=
    ⟨'s', _, hbars.2, rfl⟩
  have hconfirmedOpens : ∃ c rest, Bars c ∧
      keyLine "plan_confirmed".toList (valueOf front "plan_confirmed".toList) = c :: rest :=
    ⟨'p', _, hbars.1, rfl⟩
  rw [hcontent, firstConfirmed_join _ hphaseOpens hdashes,
    firstConfirmed_join _ hstatusOpens hphase, firstConfirmed_join _ hconfirmedOpens hstatus,
    join_cons_eq, hconfirmed]
  have hhere := confirmedHere_boolText b (behind rest)
  have hopen : "plan_confirmed: ".toList ++ boolText b ++ behind rest =
      'p' :: ("lan_confirmed: ".toList ++ boolText b ++ behind rest) := rfl
  rw [hopen] at hhere ⊢
  rw [PlanningState.firstConfirmed, hhere]

theorem LaidOut.visible (h : LaidOut content front middle) : trim content ≠ [] := by
  obtain ⟨rest, hcontent⟩ := h.opens
  have hopens : Opens content := by
    rw [hcontent]
    exact ⟨'-', _, rfl, by decide, by decide⟩
  obtain ⟨⟨c, tail, htrim, -⟩, -⟩ := trim_opens hopens
  rw [htrim]
  exact cons_ne_nil _ _

theorem LaidOut.workspaceStatus (h : LaidOut content front middle) (hfront : Confirmed front b) :
    planningWorkspaceStatus (some ⟨some (some content)⟩) =
      if b then .activeConfirmed else .activeUnconfirmed := by
  rw [planningWorkspaceStatus, if_neg h.visible, h.firstConfirmed hfront]

/-- Behind closing dashes the value is a text, which reads as true; without them it is coerced. -/
theorem LaidOut.readConfirmed (H : Host) {b : Bool} (h : LaidOut content front middle)
    (hfront : Confirmed front b) :
    readPlanningState H (some content) .planConfirmed = .bool (b || ¬ HasTDDLine content) := by
  have hread : readPlanningState H (some content) .planConfirmed =
      .bool (truthy (parseState H content "plan_confirmed".toList)) := rfl
  have hkey : "plan_confirmed".toList ∈ frontKeys := by decide +kernel
  have hmiddle : Middle middle := by
    obtain ⟨body, hlayout, -⟩ := h
    exact hlayout.middle
  cases hmiddle with
  | closed =>
    have hcoerced : "plan_confirmed".toList ∈ coercedKeys := by decide +kernel
    have hline : ¬ HasTDDLine content := fun hheld => h.hasTDDLine_iff.mp hheld rfl
    rw [hread, (h.shaped.readAsText H hcoerced).truthy]
    simp [hline]
  | @opened tdd hplain hvisible hend =>
    have hline : HasTDDLine content := h.hasTDDLine_iff.mpr (by simp [dashes])
    have htrim : trim (boolText b) = boolText b := by
      cases b with
      | true => decide
      | false => decide
    have hvalue : bodyValue H "plan_confirmed".toList (boolText b) = .bool b := by
      cases b with
      | true => rfl
      | false => rfl
    rw [hread, h.read_opened H hkey, hfront.confirmed, htrim, hvalue, truthy]
    simp [hline]

/-! ### Runs -/

/-- A call that writes `STATE.md`, with the times it reads. -/
inductive StateCall
  | updatePlanningState (updates : Updates) (clock : Nat → Stamp)
  | publishStateUpdate (agent : Text) (phase : Num) (now later : Stamp)
  | markStateStale (now : Stamp)
  | updateTDDState (updates : TDDUpdates) (now : Stamp)

def StateCall.apply (H : Host) (content : Text) : StateCall → Text
  | .updatePlanningState updates clock => PlanningState.updatePlanningState H clock content updates
  | .publishStateUpdate agent phase now later =>
    PlanningState.publishStateUpdate H now later content agent phase
  | .markStateStale now => PlanningState.markStateStale now content
  | .updateTDDState updates now => PlanningState.updateTDDState H now content updates

/-- The confirmation that was written last, once a call is done. -/
def StateCall.confirmation (last : Bool) : StateCall → Bool
  | .updatePlanningState updates _ => updates.planConfirmed.getD last
  | _ => last

/-- The file, and the confirmation that was written last. -/
structure Written where
  content : Text
  confirmed : Bool

def created (phase : Num) (now : Stamp) : Written := ⟨createDefaultState phase now, false⟩

def writeState (H : Host) (s : Written) (call : StateCall) : Option Written :=
  some ⟨call.apply H s.content, call.confirmation s.confirmed⟩

/-- The two readers agree, and they say what was written last. -/
def ConfirmationAgrees (H : Host) (s : Written) : Prop :=
  (planningWorkspaceStatus (some ⟨some (some s.content)⟩) = .activeConfirmed ↔
    readPlanningState H (some s.content) .planConfirmed = .bool true) ∧
  (planningWorkspaceStatus (some ⟨some (some s.content)⟩) = .activeConfirmed ↔
    s.confirmed = true) ∧
  (readPlanningState H (some s.content) .planConfirmed = .bool true ↔ s.confirmed = true)

def StateCall.InPlainTexts (H : Host) (s : Written) : StateCall → Prop
  | .updatePlanningState updates _ =>
    updates.PlainTexts ∧ ∀ status ∈ updates.status, firstConfirmed status = none
  | .publishStateUpdate agent _ _ _ => Plain agent
  | .markStateStale _ => True
  | .updateTDDState updates _ => TDDPlain H s.content updates.fields

/-- The file is laid out, and its confirmation is the one that was written last. -/
def Settled (s : Written) : Prop :=
  ∃ front middle, LaidOut s.content front middle ∧ Confirmed front s.confirmed

theorem isNumberChar_underscore : isNumberChar '_' = false := by decide

theorem Num.noUnderscore (n : Num) : '_' ∉ n.text := by
  intro hmem
  have hchar := n.chars '_' hmem
  rw [isNumberChar_underscore] at hchar
  cases hchar

theorem settled_created (phase : Num) (now : Stamp) : Settled (created phase now) := by
  refine ⟨createdFront phase now, [dashes], LaidOut.created phase now, ?_, ?_, ?_⟩
  · exact phase.noUnderscore
  · exact firstConfirmed_plain (s := "ready".toList) (by decide)
  · rfl

theorem Settled.step (H : Host) {s t : Written} {call : StateCall} (h : Settled s)
    (hcall : call.InPlainTexts H s) (hstep : writeState H s call = some t) : Settled t := by
  obtain ⟨front, middle, hlaid, hfront⟩ := h
  obtain rfl : (⟨call.apply H s.content, call.confirmation s.confirmed⟩ : Written) = t :=
    Option.some.inj hstep
  cases call with
  | updatePlanningState updates clock =>
    obtain ⟨front', hlaid', hvalues⟩ := hlaid.updatePlanningState H clock hcall.1
    refine ⟨front', middle, hlaid', ?_, ?_, ?_⟩
    · rw [hvalues _ (by decide +kernel), updates.phase_written]
      cases updates.phase with
      | none => exact hfront.phase
      | some n => exact n.noUnderscore
    · have hstatus := hcall.2
      rw [hvalues _ (by decide +kernel), updates.status_written]
      cases hgiven : updates.status with
      | none => exact hfront.status
      | some status => exact hstatus status hgiven
    · rw [hvalues _ (by decide +kernel), updates.confirmed_written]
      cases hgiven : updates.planConfirmed with
      | none =>
        rw [StateCall.confirmation, hgiven]
        exact hfront.confirmed
      | some b =>
        rw [StateCall.confirmation, hgiven]
        rfl
  | publishStateUpdate agent phase now later =>
    obtain ⟨front', hlaid', hvalues⟩ := hlaid.publishStateUpdate H now later phase hcall
    exact ⟨front', middle, hlaid', hfront.of_watched hvalues⟩
  | markStateStale now =>
    obtain ⟨front', hlaid', hvalues⟩ := hlaid.markStateStale now
    exact ⟨front', middle, hlaid', hfront.of_watched hvalues⟩
  | updateTDDState updates now =>
    obtain ⟨middle', hlaid', -⟩ := hlaid.updateTDDFields now hcall
    exact ⟨front, middle', hlaid', hfront⟩

/-- The text's reader says what was written last; the reader of the fields says it only where it was
true, or where a line of the TDD state keeps the front matter from being one. -/
theorem Settled.readers (H : Host) {s : Written} (h : Settled s) :
    (planningWorkspaceStatus (some ⟨some (some s.content)⟩) = .activeConfirmed ↔
      s.confirmed = true) ∧
    (readPlanningState H (some s.content) .planConfirmed = .bool true ↔
      s.confirmed = true ∨ ¬ HasTDDLine s.content) := by
  obtain ⟨front, middle, hlaid, hfront⟩ := h
  constructor
  · rw [hlaid.workspaceStatus hfront]
    cases s.confirmed with
    | true => simp
    | false => simp
  · rw [hlaid.readConfirmed H hfront]
    simp

theorem Settled.confirmationAgrees_iff (H : Host) {s : Written} (h : Settled s) :
    ConfirmationAgrees H s ↔ s.confirmed = true ∨ HasTDDLine s.content := by
  obtain ⟨hstatus, hread⟩ := h.readers H
  rw [ConfirmationAgrees, hstatus, hread]
  tauto

theorem created_disagrees (H : Host) (phase : Num) (now : Stamp) :
    ¬ ConfirmationAgrees H (created phase now) := by
  have hlaid : LaidOut (created phase now).content (createdFront phase now) [dashes] :=
    LaidOut.created phase now
  rw [(settled_created phase now).confirmationAgrees_iff H, hlaid.hasTDDLine_iff]
  intro hagrees
  rcases hagrees with hconfirmed | hopen
  · cases hconfirmed
  · exact hopen rfl

/-- No run agrees in each of its states, since the first one already reads as confirmed; and a state
that calls in plain texts reach agrees exactly where `true` was written last or a line begins with
`tdd:`. -/
theorem confirmation_of_run (H : Host) (phase : Num) (now : Stamp) (calls : List StateCall) :
    (¬ ∀ done rest s, calls = done ++ rest →
      Machine.run (writeState H) (created phase now) done = some s → ConfirmationAgrees H s) ∧
    (Machine.Along (writeState H) (fun s call => call.InPlainTexts H s) (created phase now) calls →
      ∀ s, Machine.run (writeState H) (created phase now) calls = some s →
        (planningWorkspaceStatus (some ⟨some (some s.content)⟩) = .activeConfirmed ↔
          s.confirmed = true) ∧
        (readPlanningState H (some s.content) .planConfirmed = .bool true ↔
          s.confirmed = true ∨ ¬ HasTDDLine s.content) ∧
        (ConfirmationAgrees H s ↔ s.confirmed = true ∨ HasTDDLine s.content)) := by
  constructor
  · intro hall
    exact created_disagrees H phase now (hall [] calls _ rfl rfl)
  · intro hplain s hrun
    have hsettled : Settled s := hplain.invariant (fun s call t h hcall hstep => h.step H hcall hstep)
      (settled_created phase now) hrun
    obtain ⟨hstatus, hread⟩ := hsettled.readers H
    exact ⟨hstatus, hread, hsettled.confirmationAgrees_iff H⟩

def refuse : StateCall :=
  .updatePlanningState { planConfirmed := some false } fun _ => newYear

def redUpdate : TDDUpdates := { stage := some .red }

/-- The state after the refusal. -/
def refused : Written :=
  ⟨refuse.apply plainHost (created .one newYear).content, refuse.confirmation false⟩

/-- The state after its TDD state was written as well. -/
def reddened : Written := ⟨updateTDDState plainHost newYear refused.content redUpdate, false⟩

theorem refuse_plain : refuse.InPlainTexts plainHost (created .one newYear) := by
  refine ⟨⟨?_, ?_⟩, ?_⟩
  · intro s hs
    cases hs
  · intro s hs
    cases hs
  · intro s hs
    cases hs

theorem redUpdate_plain : TDDPlain plainHost refused.content redUpdate.fields := by
  have hcontent : refused.content = updatePlanningState plainHost (fun _ => newYear)
      (createDefaultState .one newYear) { planConfirmed := some false } := by
    simp only [refused, refuse, StateCall.apply, created]
  obtain ⟨front', hlaid, -⟩ := (LaidOut.created .one newYear).updatePlanningState plainHost
    (fun _ => newYear) refuse_plain.1
  rw [← hcontent] at hlaid
  have hcurrent := hlaid.currentTDD_closed plainHost
  refine ⟨?_, ?_, ?_, ?_⟩
  · rw [hcurrent]
    decide +kernel
  · rw [hcurrent]
    decide +kernel
  · rw [hcurrent]
    decide +kernel
  · intro front body hfront
    have hundashed : ((frontMatter refused.content).map fun parts => decide (dashes <:+: parts.1)) =
        some false := by
      decide +kernel
    rw [hfront] at hundashed
    simpa using hundashed

theorem writeState_eq_some {s t : Written} {call : StateCall} (h : writeState H s call = some t) :
    t = ⟨call.apply H s.content, call.confirmation s.confirmed⟩ :=
  (Option.some.inj h).symm

/-- Once the TDD state is written the refusal reads as one. -/
theorem refused_readers :
    (¬ ∀ done rest s, [refuse, .updateTDDState redUpdate newYear] = done ++ rest →
      Machine.run (writeState plainHost) (created .one newYear) done = some s →
        ConfirmationAgrees plainHost s) ∧
    ∃ s, Machine.run (writeState plainHost) (created .one newYear)
        [refuse, .updateTDDState redUpdate newYear] = some s ∧ ConfirmationAgrees plainHost s := by
  have h := confirmation_of_run plainHost .one newYear [refuse, .updateTDDState redUpdate newYear]
  have hplain : Machine.Along (writeState plainHost)
      (fun s call => call.InPlainTexts plainHost s) (created .one newYear)
      [refuse, .updateTDDState redUpdate newYear] := by
    refine ⟨refuse_plain, ?_⟩
    intro t ht
    have hfirst : t = refused := writeState_eq_some ht
    rw [hfirst]
    exact ⟨redUpdate_plain, fun _ _ => trivial⟩
  have hrun : Machine.run (writeState plainHost) (created .one newYear)
      [refuse, .updateTDDState redUpdate newYear] = some reddened := rfl
  have hline : HasTDDLine reddened.content := by decide +kernel
  have hagrees := (h.2 hplain reddened hrun).2.2
  exact ⟨h.1, reddened, hrun, hagrees.mpr (Or.inr hline)⟩

/-- A plan that was refused reads as confirmed, and not by its status. -/
theorem refused_reads_confirmed :
    ¬ ∀ H phase now calls s, Machine.run (writeState H) (created phase now) calls = some s →
      ConfirmationAgrees H s := by
  intro hall
  have hrun : Machine.run (writeState plainHost) (created .one newYear) [refuse] = some refused :=
    rfl
  have hagrees := hall plainHost .one newYear [refuse] refused hrun
  have hread : readPlanningState plainHost (some refused.content) .planConfirmed = .bool true := by
    have htruthy : truthy (parseState plainHost refused.content "plan_confirmed".toList) = true := by
      decide +kernel
    exact congrArg Json.bool htruthy
  have hstatus : planningWorkspaceStatus (some ⟨some (some refused.content)⟩) =
      .activeUnconfirmed := by
    decide +kernel
  have hconfirmed := hagrees.1.mpr hread
  rw [hstatus] at hconfirmed
  cases hconfirmed

end PlanningState
