import FlowDeck.State.TDDLayout

/-! What the calls that write `STATE.md` make of its layout. -/

namespace PlanningState

open StateText TextLines Edit List

variable {H : Host} {content key value : Text} {front : List (Text × Text)}
  {middle body : List Text}

/-! ### The line of the TDD state -/

/-- A line of the file begins with `tdd:`. -/
def HasTDDLine (content : Text) : Prop := ∃ l ∈ content.splitOn '\n', HasKey tddKey l

instance (content : Text) : Decidable (HasTDDLine content) :=
  decidableBEx (fun l => HasKey tddKey l) (content.splitOn '\n')

theorem LaidOut.hasTDDLine_iff (h : LaidOut content front middle) :
    HasTDDLine content ↔ middle ≠ [dashes] := by
  obtain ⟨body, hlayout, rfl⟩ := h
  have hne : layoutLines front middle body ≠ [] := cons_ne_nil _ _
  rw [HasTDDLine, splitOn_join hne hlayout.noFeed]
  constructor
  · intro hline hmiddle
    obtain ⟨l, hl, hhas⟩ := hline
    simp only [layoutLines, hmiddle, mem_cons, mem_append, not_mem_nil, or_false] at hl
    rcases hl with rfl | hl | rfl | hl
    · exact not_hasKey_dashes tddKey hhas
    · exact hlayout.entries_hasKey tddKey_isKey tddKey_notMem l hl hhas
    · exact not_hasKey_dashes tddKey hhas
    · exact (hlayout.lines l hl).other hhas
  · intro hopen
    cases hlayout.middle with
    | closed => exact absurd rfl hopen
    | @opened tdd hplain hvisible hend =>
      refine ⟨keyLine tddKey tdd, ?_, (hasKey_keyLine tddKey_isKey tddKey_isKey).mpr rfl⟩
      simp [layoutLines]

theorem tddLine_none {l : Text} (rest : List Text) (h : ¬ HasKey tddKey l) :
    tddLine (join '\n' (l :: rest)) = none := by
  have hnot : ¬ tddKey ++ [':'] <+: join '\n' (l :: rest) :=
    fun hpre => h ((prefix_join rest (by decide)).mp hpre)
  rw [tddLine, if_neg hnot]

theorem tddLine_some {old : Text} (rest : List Text) (hold : OneLine old) :
    tddLine (join '\n' ((tddKey ++ ':' :: old) :: rest)) =
      some ⟨[], tddKey ++ ':' :: old, none, behind rest⟩ := by
  have hpre : tddKey ++ [':'] <+: join '\n' ((tddKey ++ ':' :: old) :: rest) := by
    rw [join_cons_eq]
    exact ⟨old ++ behind rest, by simp⟩
  have hline : ∀ c ∈ tddKey ++ ':' :: old, (!isTerminator c) = true := by
    intro c hc
    have hplain : OneLine (tddKey ++ [':']) := by decide
    have hmem : c ∈ tddKey ++ [':'] ∨ c ∈ old := by
      simp only [mem_append, mem_cons, not_mem_nil, or_false] at hc ⊢
      tauto
    rcases hmem with hmem | hmem
    · simp [hplain c hmem]
    · simp [hold c hmem]
  obtain ⟨hword, hafter⟩ := dropWhile_line (!isTerminator ·) rest hline (by decide)
  rw [tddLine, if_pos hpre, join_cons_eq, hword, hafter]

theorem Layout.writeTDD_opened {tdd json : Text} (h : Layout front [[], keyLine tddKey tdd] body)
    (hjson : Plain json) :
    writeTDD (join '\n' (layoutLines front [[], keyLine tddKey tdd] body)) json =
      join '\n' (layoutLines front [[], keyLine tddKey ('\x27' :: (json ++ ['\x27']))] body) := by
  have hline : keyLine tddKey tdd ∈ layoutLines front [[], keyLine tddKey tdd] body := by
    simp [layoutLines]
  have hhas : ∃ l ∈ layoutLines front [[], keyLine tddKey tdd] body, HasKey tddKey l :=
    ⟨_, hline, (hasKey_keyLine tddKey_isKey tddKey_isKey).mpr rfl⟩
  have hheld : tddKey ++ [':'] <:+:
      join '\n' (layoutLines front [[], keyLine tddKey tdd] body) := by
    have hne : [] :: ([keyLine tddKey tdd] ++ body) ≠ [] := cons_ne_nil _ _
    rw [layoutLines, join_cons _ (by simp), cons_append, singleton_append]
    have hjoin : join '\n' (entryLines front ++ [] :: keyLine tddKey tdd :: body) =
        join '\n' (entryLines front ++ [[]]) ++ '\n' :: join '\n' (keyLine tddKey tdd :: body) := by
      rw [append_cons, join_append (by simp) (cons_ne_nil _ _)]
    rw [hjoin, join_cons_eq, keyLine_eq]
    refine ⟨dashes ++ '\n' :: (join '\n' (entryLines front ++ [[]]) ++ ['\n']),
      ' ' :: tdd ++ behind body, ?_⟩
    simp
  obtain ⟨m, hm, hset⟩ := firstAtLine_keyed (fun l rest => tddLine_none rest)
    (fun old rest hold _ => tddLine_some rest hold) h.oneLine
    (fun _ hold => h.visible tddKey_isKey hold) hhas
  have hdollar : '$' ∉ tddKey ++ ": ".toList ++ ('\x27' :: (json ++ ['\x27'])) := by
    simp [hjson.noDollar, tddKey]
  have htext : tddKey ++ ": '".toList ++ json ++ ['\x27'] =
      tddKey ++ ": ".toList ++ ('\x27' :: (json ++ ['\x27'])) := by
    simp
  have hskip : ∀ l ∈ dashes :: (entryLines front ++ [[]]), ¬ HasKey tddKey l := by
    intro l hl
    rcases mem_cons.mp hl with rfl | hl
    · exact not_hasKey_dashes tddKey
    · rcases mem_append.mp hl with hl | hl
      · exact h.entries_hasKey tddKey_isKey tddKey_notMem l hl
      · rw [mem_singleton.mp hl]
        decide
  have hlines : ∀ x, layoutLines front [[], x] body =
      (dashes :: (entryLines front ++ [[]])) ++ x :: body := by
    intro x
    simp [layoutLines]
  rw [writeTDD, if_pos hheld, hm]
  simp only
  rw [htext, m.replace_of_noDollar hdollar, hset, hlines, setLine_skip _ _ hskip, setLine,
    if_pos ((hasKey_keyLine tddKey_isKey tddKey_isKey).mpr rfl), hlines]
  rfl

/-- Where the text holds `tdd:` but no line begins with it, nothing is written. -/
theorem Layout.writeTDD_elsewhere {json : Text} (h : Layout front [dashes] body)
    (hheld : tddKey ++ [':'] <:+: join '\n' (layoutLines front [dashes] body)) :
    writeTDD (join '\n' (layoutLines front [dashes] body)) json =
      join '\n' (layoutLines front [dashes] body) := by
  have hnone : firstAtLine tddLine true (join '\n' (layoutLines front [dashes] body)) = none := by
    apply firstAtLine_join_none h.oneLine
    intro l hl rest
    apply tddLine_none rest
    intro hhas
    have hlaid : LaidOut (join '\n' (layoutLines front [dashes] body)) front [dashes] :=
      ⟨body, h, rfl⟩
    have hne : layoutLines front [dashes] body ≠ [] := cons_ne_nil _ _
    apply hlaid.hasTDDLine_iff.mp _ rfl
    rw [HasTDDLine, splitOn_join hne h.noFeed]
    exact ⟨l, hl, hhas⟩
  rw [writeTDD, if_pos hheld, hnone]

/-- Else the line is written in front of the closing dashes, which end up behind its quote. -/
theorem Layout.writeTDD_closed {json : Text} (h : Layout front [dashes] body)
    (hheld : ¬ tddKey ++ [':'] <:+: join '\n' (layoutLines front [dashes] body))
    (hdashes : ¬ dashes <:+: join '\n' (entryLines front)) :
    writeTDD (join '\n' (layoutLines front [dashes] body)) json =
      join '\n' (layoutLines front
        [[], keyLine tddKey ('\x27' :: (doubled json ++ '\x27' :: dashes))] body) := by
  have hfront : entryLines front ≠ [] := by
    intro hnil
    have hkeys := h.keys
    rw [entryLines, map_eq_nil_iff] at hnil
    rw [hnil] at hkeys
    cases hkeys
  have hfile : join '\n' (layoutLines front [dashes] body) =
      dashes ++ '\n' :: (join '\n' (entryLines front) ++ '\n' :: (dashes ++ behind body)) := by
    rw [layoutLines, join_cons _ (by simp), join_append hfront (by simp), singleton_append,
      join_cons_eq]
  have hopen : "---".toList <+: join '\n' (layoutLines front [dashes] body) := by
    rw [hfile]
    exact ⟨_, rfl⟩
  have hdrop : (join '\n' (layoutLines front [dashes] body)).drop 3 =
      [] ++ '\n' :: (join '\n' (entryLines front) ++ '\n' :: (dashes ++ behind body)) := by
    rw [hfile]
    rfl
  have htake : (join '\n' (layoutLines front [dashes] body)).take 3 = dashes := by
    rw [hfile]
    rfl
  have hhere : splitAtFirst dashes (dashes ++ behind body) = some ([], behind body) := by
    have hpre : dashes <+: dashes ++ behind body := prefix_append _ _
    rw [dashes] at hpre ⊢
    simp only [String.toList] at hpre ⊢
    exact if_pos hpre
  have hsplit : splitAtFirst "---".toList ((join '\n' (layoutLines front [dashes] body)).drop 3) =
      some ('\n' :: (join '\n' (entryLines front) ++ ['\n']), behind body) := by
    rw [hdrop]
    change splitAtFirst dashes _ = _
    rw [splitAtFirst_within _ (by decide) (by decide) (by decide),
      splitAtFirst_within _ (by decide) (by decide) hdashes, hhere]
    rfl
  have hwritten : join '\n' (layoutLines front
      [[], keyLine tddKey ('\x27' :: (doubled json ++ '\x27' :: dashes))] body) =
      dashes ++ '\n' :: (join '\n' (entryLines front) ++ '\n' :: ([] ++ '\n' ::
        (keyLine tddKey ('\x27' :: (doubled json ++ '\x27' :: dashes)) ++ behind body))) := by
    rw [layoutLines, join_cons _ (by simp), join_append hfront (by simp), cons_append,
      singleton_append, join_cons _ (cons_ne_nil _ _), join_cons_eq]
  rw [writeTDD, if_neg hheld, if_pos hopen, hsplit, hwritten]
  simp only [htake]
  simp [keyLine, dashes]

theorem LaidOut.tdd_closed (H : Host) (h : LaidOut content front [dashes]) :
    parseState H content tddKey = .undefined := by
  obtain ⟨body, hlayout, rfl⟩ := h
  have hexists : tddKey ≠ "exists".toList := by decide
  have hentries : entryLines front ≠ [] := by
    intro hnil
    have hkeys := hlayout.keys
    rw [entryLines, map_eq_nil_iff] at hnil
    rw [hnil] at hkeys
    cases hkeys
  have hfrontFeed : ∀ l ∈ entryLines front, '\n' ∉ l := by
    intro l hl
    apply hlayout.noFeed l
    simp [layoutLines, hl]
  have hbodyFeed : ∀ l ∈ body, '\n' ∉ l := by
    intro l hl
    apply hlayout.noFeed l
    simp [layoutLines, hl]
  have hfront : ∀ l ∈ entryLines front, ∀ read, frontEntry l ≠ some (tddKey, read) := by
    intro l hl read hentry
    obtain ⟨e, he, rfl⟩ := mem_map.mp hl
    have hown : tddKey = e.1 := frontEntry_key (hlayout.isKey e he) hentry
    exact tddKey_notMem (hown ▸ (hlayout.values e he).key)
  have hbody : ∀ l ∈ body, ∀ read, bodyEntry H l ≠ some (tddKey, read) :=
    fun l hl => not_bodyEntry (hlayout.lines l hl).other
  have hparts : frontMatter (join '\n' (layoutLines front [dashes] body)) =
      some (join '\n' (entryLines front), join '\n' body) := frontMatter_fileLines hlayout.shape
  rw [parseState, Function.update_of_ne hexists]
  simp only [hparts, splitOn_join hentries hfrontFeed, splitOn_join hlayout.nonempty hbodyFeed]
  rw [setLines_other _ hbody, setLines_other _ hfront]

theorem read_of_undefined (h : parseState H content tddKey = .undefined) :
    readPlanningState H (some content) .tdd = .undefined := by
  have hread : readPlanningState H (some content) .tdd = parseTDDState H (parseState H content) :=
    rfl
  have hkey : parseState H content "tdd".toList = .undefined := h
  rw [hread, parseTDDState]
  simp only [hkey]
  rfl

theorem currentTDD_of_undefined (h : readPlanningState H (some content) .tdd = .undefined) :
    currentTDD H content = initialTDDState := by
  rw [currentTDD, h]

theorem LaidOut.currentTDD_closed (H : Host) (h : LaidOut content front [dashes]) :
    currentTDD H content = initialTDDState :=
  currentTDD_of_undefined (read_of_undefined (h.tdd_closed H))

/-! ### Edits of an update -/

def Edit.Other : Edit → Prop
  | .line key _ _ => key ≠ tddKey
  | .blockers _ _ => True

theorem Edit.other_line {note : Text} (h : key ≠ tddKey) : (line key value note).Other := h

theorem Updates.edits_other (H : Host) (u : Updates) : ∀ e ∈ u.edits H, e.Other := by
  rw [Updates.edits, forall_mem_reduceOption]
  simp only [forall_mem_cons, forall_mem_map]
  refine ⟨?_, ?_, ?_, ?_, ?_, ?_, ?_, ?_, ?_, ?_, ?_, ?_, ?_, ?_, ?_, ?_, ?_, ?_, ?_, ?_, ?_,
    forall_mem_nil _⟩
  all_goals
    intro x _
    first
      | trivial
      | exact other_line (by decide)

def editFront (front : List (Text × Text)) : Edit → List (Text × Text)
  | .line key value _ => setValue key value front
  | .blockers _ _ => front

theorem LaidOut.applyEdit {e : Edit} (now : Stamp) (h : LaidOut content front middle)
    (he : e.Admissible) (hother : e.Other) :
    LaidOut (applyEdit now content e) (editFront front e) middle := by
  cases e with
  | line key value action =>
    have hwritten : LaidOut (StateText.upsertLine content key value) (setValue key value front)
        middle := h.upsertLine he.1 hother
    exact hwritten.appendHistory now.plain he.2
  | blockers items action =>
    have hsame : StateText.replaceBlockers content items = content := h.replaceBlockers items
    rw [PlanningState.applyEdit, hsame]
    exact h.appendHistory now.plain he

theorem LaidOut.applyEdits (clock : Nat → Stamp) (edits : List (Edit × Nat))
    (h : LaidOut content front middle) (hedits : ∀ e ∈ edits, e.1.Admissible ∧ e.1.Other) :
    LaidOut (edits.foldl (fun content e => PlanningState.applyEdit (clock e.2) content e.1) content)
      ((edits.map Prod.fst).foldl editFront front) middle := by
  induction edits generalizing content front with
  | nil => exact h
  | cons e edits ih =>
    obtain ⟨hadmissible, hother⟩ := hedits e mem_cons_self
    have hfirst := h.applyEdit (clock e.2) hadmissible hother
    exact ih hfirst fun d hd => hedits d (mem_cons_of_mem _ hd)

theorem LaidOut.upsertLines (lines : List (Text × Text)) (h : LaidOut content front middle)
    (hlines : ∀ line ∈ lines, LineEdit line.1 line.2 ∧ line.1 ≠ tddKey) :
    LaidOut (lines.foldl (fun content line => StateText.upsertLine content line.1 line.2) content)
      (lines.foldl (fun front line => setValue line.1 line.2 front) front) middle := by
  induction lines generalizing content front with
  | nil => exact h
  | cons line lines ih =>
    obtain ⟨hline, hother⟩ := hlines line mem_cons_self
    have hfirst : LaidOut (StateText.upsertLine content line.1 line.2)
        (setValue line.1 line.2 front) middle := h.upsertLine hline hother
    exact ih hfirst fun d hd => hlines d (mem_cons_of_mem _ hd)

def Edit.valueAt (key : Text) : Edit → Option Text
  | .line own value _ => if own = key then some value else none
  | .blockers _ _ => none

theorem editFront_keys (front : List (Text × Text)) (e : Edit) :
    (editFront front e).map Prod.fst = front.map Prod.fst := by
  cases e with
  | line key value action => exact setValue_keys key value front
  | blockers items action => rfl

theorem valueOf_editFront (hkey : key ∈ front.map Prod.fst) (e : Edit) :
    valueOf (editFront front e) key = (e.valueAt key).getD (valueOf front key) := by
  cases e with
  | line own value action =>
    by_cases hsame : own = key
    · rw [hsame, editFront, valueOf_setValue hkey, valueAt, if_pos rfl, if_pos rfl]
      rfl
    · rw [editFront, valueAt, if_neg hsame]
      by_cases hown : own ∈ front.map Prod.fst
      · rw [valueOf_setValue hown, if_neg (Ne.symm hsame)]
        rfl
      · rw [setValue_of_notMem hown]
        rfl
  | blockers items action => rfl

theorem valueOf_edits (hkey : key ∈ front.map Prod.fst) (edits : List Edit) :
    valueOf (edits.foldl editFront front) key =
      (edits.filterMap (valueAt key)).getLast?.getD (valueOf front key) := by
  induction edits using reverseRecOn with
  | nil => rfl
  | append_singleton edits e ih =>
    have hkeys : ∀ done : List Edit, (done.foldl editFront front).map Prod.fst = front.map Prod.fst := by
      intro done
      induction done using reverseRecOn with
      | nil => rfl
      | append_singleton done d hdone =>
        rw [foldl_append, foldl_cons, foldl_nil, editFront_keys, hdone]
    have hmem : key ∈ (edits.foldl editFront front).map Prod.fst := by
      rw [hkeys]
      exact hkey
    rw [foldl_append, foldl_cons, foldl_nil, valueOf_editFront hmem, ih, filterMap_append]
    cases hvalue : e.valueAt key with
    | none => simp [hvalue]
    | some value => simp [hvalue]

theorem valueOf_lines {lines : List (Text × Text)} (hkeys : ∀ line ∈ lines, line.1 ≠ key)
    (hfront : front.map Prod.fst = frontKeys) :
    valueOf (lines.foldl (fun front line => setValue line.1 line.2 front) front) key =
      valueOf front key := by
  induction lines generalizing front with
  | nil => rfl
  | cons line lines ih =>
    rw [foldl_cons, ih (fun l hl => hkeys l (mem_cons_of_mem _ hl))
      ((setValue_keys _ _ _).trans hfront)]
    by_cases hown : line.1 ∈ front.map Prod.fst
    · rw [valueOf_setValue hown, if_neg (Ne.symm (hkeys line mem_cons_self))]
    · rw [setValue_of_notMem hown]

theorem valueAt_line_own {α : Type} (o : Option α) (value note : α → Text) :
    (o.map fun x => line key (value x) (note x)).bind (valueAt key) = o.map value := by
  cases o with
  | none => rfl
  | some x => simp [valueAt]

theorem valueAt_line_other {α : Type} {own : Text} (o : Option α) (value note : α → Text)
    (h : own ≠ key) :
    (o.map fun x => line own (value x) (note x)).bind (valueAt key) = none := by
  cases o with
  | none => rfl
  | some x => simp [valueAt, h]

theorem valueAt_blockers {α : Type} (o : Option α) (items : α → List Text) (note : α → Text) :
    (o.map fun x => blockers (items x) (note x)).bind (valueAt key) = none := by
  cases o with
  | none => rfl
  | some x => rfl

theorem filterMap_reduceOption {α β : Type} (os : List (Option α)) (g : α → Option β) :
    os.reduceOption.filterMap g = os.filterMap fun o => o.bind g := by
  rw [reduceOption, filterMap_filterMap]
  rfl

theorem Updates.confirmed_written (H : Host) (u : Updates) :
    ((u.edits H).filterMap (valueAt "plan_confirmed".toList)).getLast? =
      u.planConfirmed.map boolText := by
  rw [Updates.edits, filterMap_reduceOption]
  simp (disch := decide) only [filterMap_cons, filterMap_nil, valueAt_line_other,
    valueAt_blockers, valueAt_line_own]
  cases u.planConfirmed with
  | none => rfl
  | some b => rfl

theorem Updates.status_written (H : Host) (u : Updates) :
    ((u.edits H).filterMap (valueAt "status".toList)).getLast? = u.status := by
  rw [Updates.edits, filterMap_reduceOption]
  simp (disch := decide) only [filterMap_cons, filterMap_nil, valueAt_line_other,
    valueAt_blockers, valueAt_line_own]
  cases u.status with
  | none => rfl
  | some b => rfl

theorem Updates.phase_written (H : Host) (u : Updates) :
    ((u.edits H).filterMap (valueAt "phase".toList)).getLast? = u.phase.map Num.text := by
  rw [Updates.edits, filterMap_reduceOption]
  simp (disch := decide) only [filterMap_cons, filterMap_nil, valueAt_line_other,
    valueAt_blockers, valueAt_line_own]
  cases u.phase with
  | none => rfl
  | some b => rfl

/-! ### Calls -/

theorem KeptLine.initialized (now : Stamp) : KeptLine ("Initialized at ".toList ++ now.text) where
  line := .initialized now
  undashed := by
    intro hpre
    have hdash : '-' = 'I' := (cons_prefix_cons.mp hpre).1
    cases hdash
  other := by
    intro hhas
    obtain ⟨old, heq⟩ := hasKey_iff.mp hhas
    have hletter : 'I' = 't' := (cons.inj heq).1
    cases hletter

theorem LaidOut.created (phase : Num) (now : Stamp) :
    LaidOut (createDefaultState phase now) (createdFront phase now) [dashes] := by
  refine ⟨createdBody now, ⟨rfl, createdFront_values phase now, .closed, ?_,
    cons_ne_nil _ _⟩, createDefaultState_eq phase now⟩
  intro l hl
  simp only [createdBody, mem_cons, not_mem_nil, or_false] at hl
  rcases hl with rfl | rfl | rfl | rfl
  · exact KeptLine.blank
  · exact KeptLine.of_head (BodyLine.of_head (by decide) (by decide) (by decide)) (by decide)
      (by decide)
  · exact KeptLine.blank
  · exact KeptLine.initialized now

theorem LaidOut.keys (h : LaidOut content front middle) : front.map Prod.fst = frontKeys := by
  obtain ⟨body, hlayout, -⟩ := h
  exact hlayout.keys

theorem LaidOut.frontValue (h : LaidOut content front middle) (hkey : key ∈ frontKeys) :
    FrontValue (key, valueOf front key) := by
  have hkeys := h.keys
  obtain ⟨body, hlayout, -⟩ := h
  unfold valueOf
  cases hlookup : front.lookup key with
  | none =>
    obtain ⟨e, he, hsame⟩ := mem_map.mp (hkeys ▸ hkey)
    have hne := lookup_eq_none_iff.mp hlookup e he
    simp [hsame] at hne
  | some value =>
    obtain ⟨before, after, hfront, -⟩ := lookup_eq_some_iff.mp hlookup
    exact hlayout.values (key, value) (by rw [hfront]; simp)

/-- The phase that an update prints: the text of the front matter, or what the body's reader makes
of it. -/
theorem LaidOut.printedPhase (H : Host) (h : LaidOut content front middle) :
    Plain (printed (orElse (parseState H content "phase".toList) (.number "1"))) ∧
      Opens (printed (orElse (parseState H content "phase".toList) (.number "1"))) := by
  have hmiddle : Middle middle := by
    obtain ⟨body, hlayout, -⟩ := h
    exact hlayout.middle
  cases hmiddle with
  | closed => exact h.shaped.printedPhase H
  | opened hplain hvisible hend =>
    have hkey : "phase".toList ∈ frontKeys := by decide +kernel
    have hvalue := h.frontValue hkey
    have hcoerced : "phase".toList ∈ coercedKeys := by decide +kernel
    have hopens : Opens (valueOf front "phase".toList) := hvalue.opens hcoerced
    have hline : Plain (valueOf front "phase".toList) := hvalue.plain
    obtain ⟨htrim, htrimSub⟩ := trim_opens hopens
    obtain ⟨hunquote, hunquoteSub⟩ := unquote_opens htrim
    have hne : trim (valueOf front "phase".toList) ≠ [] := by
      obtain ⟨c, rest, heq, -⟩ := htrim
      rw [heq]
      exact cons_ne_nil _ _
    have hread : parseState H content "phase".toList =
        bodyValue H "phase".toList (trim (valueOf front "phase".toList)) := h.read_opened H hkey
    have hplainText : Plain (unquote (trim (valueOf front "phase".toList))) :=
      plain_of_subset (Subset.trans hunquoteSub htrimSub) hline
    rw [bodyValue, if_neg (by decide), if_neg (by decide), if_neg (by decide),
      if_neg (by decide), if_neg (by decide), if_pos ⟨hne, by decide⟩] at hread
    rw [hread]
    cases H.number? (trim (valueOf front "phase".toList)) with
    | some n =>
      simp only [orElse]
      split_ifs
      · simp only [Num.value, printed, String.toList_ofList]
        exact ⟨n.plain, n.opens⟩
      · exact ⟨Num.one.plain, Num.one.opens⟩
    | none =>
      have htext : ReadAsText (textValue (unquote (trim (valueOf front "phase".toList)))) :=
        ⟨_, rfl, hplainText, hunquote⟩
      have hsame := htext.orElse (.number "1")
      rw [textValue] at hsame
      simp only [textValue, hsame, printed, String.toList_ofList]
      exact ⟨hplainText, hunquote⟩

/-- The keys that every update and every publication write. -/
def freshnessKeys : List Text :=
  ["lastUpdatedAt", "lastUpdatedBy", "lastUpdatedPhase", "summaryVersion", "freshnessStatus"].map
    String.toList

/-- The keys that the two readers of the confirmation look at, or pass on their way. -/
def watchedKeys : List Text := ["phase", "status", "plan_confirmed"].map String.toList

theorem watchedKeys_front : ∀ key ∈ watchedKeys, key ∈ frontKeys := by decide +kernel

theorem freshnessKeys_other : ∀ key ∈ freshnessKeys, key ≠ tddKey ∧ key ∉ watchedKeys := by
  decide +kernel

theorem lines_other {lines : List (Text × Text)} (h : lines.map Prod.fst = freshnessKeys) :
    ∀ line ∈ lines, line.1 ≠ tddKey ∧ line.1 ∉ watchedKeys :=
  fun _ hline => freshnessKeys_other _ (h ▸ mem_map_of_mem hline)

theorem LaidOut.updatePlanningState (H : Host) (clock : Nat → Stamp) {updates : Updates}
    (h : LaidOut content front middle) (hupdates : updates.PlainTexts) :
    ∃ front', LaidOut (updatePlanningState H clock content updates) front' middle ∧
      ∀ key ∈ watchedKeys, valueOf front' key =
        ((updates.edits H).filterMap (valueAt key)).getLast?.getD (valueOf front key) := by
  have hedits := hupdates.edits H
  have hedited := h.applyEdits clock (updates.edits H).zipIdx fun e he =>
    ⟨hedits e.1 (fst_mem_of_mem_zipIdx he),
      updates.edits_other H e.1 (fst_mem_of_mem_zipIdx he)⟩
  rw [zipIdx_map_fst] at hedited
  have hphase := h.printedPhase H
  unfold PlanningState.updatePlanningState
  dsimp only
  generalize (updates.edits H).zipIdx.foldl
    (fun content e => PlanningState.applyEdit (clock e.2) content e.1) content = edited at hedited ⊢
  generalize printed (orElse (parseState H content "phase".toList) (.number "1")) = phase
    at hphase ⊢
  have hversion : Plain (newVersion H edited).text ∧ Opens (newVersion H edited).text :=
    ⟨(newVersion H edited).plain, (newVersion H edited).opens⟩
  have hnow : Plain (clock (updates.edits H).length).text := (clock _).plain
  have hlines := freshness_lineEdit hnow hphase hversion
  have hkeys : (freshness (clock (updates.edits H).length).text phase
      (newVersion H edited).text).map Prod.fst = freshnessKeys := rfl
  have hother := lines_other hkeys
  have hfresh := hedited.upsertLines _ fun line hline => ⟨hlines line hline, (hother line hline).1⟩
  refine ⟨_, hfresh.appendHistory (clock _).plain (plain_freshnessNote hphase.1 hversion.1), ?_⟩
  intro key hkey
  have hmem : key ∈ front.map Prod.fst := h.keys ▸ watchedKeys_front key hkey
  rw [valueOf_lines (fun line hline heq => (hother line hline).2 (heq ▸ hkey)) hedited.keys,
    valueOf_edits hmem]

theorem published_lineEdit {now agent version : Text} (phase : Num) (hnow : Plain now)
    (hagent : Plain agent) (hversion : Plain version ∧ Opens version) :
    ∀ line ∈ published now agent phase.text version, LineEdit line.1 line.2 :=
  written_lineEdit hnow hagent ⟨phase.plain, phase.opens⟩ hversion

theorem LaidOut.publishStateUpdate (H : Host) (now later : Stamp) {agent : Text} (phase : Num)
    (h : LaidOut content front middle) (hagent : Plain agent) :
    ∃ front', LaidOut (publishStateUpdate H now later content agent phase) front' middle ∧
      ∀ key ∈ watchedKeys, valueOf front' key = valueOf front key := by
  have hversion : Plain (newVersion H content).text ∧ Opens (newVersion H content).text :=
    ⟨(newVersion H content).plain, (newVersion H content).opens⟩
  have hlines := published_lineEdit phase now.plain hagent hversion
  have hkeys : (published now.text agent phase.text (newVersion H content).text).map Prod.fst =
      freshnessKeys := rfl
  have hother := lines_other hkeys
  have hfresh := h.upsertLines _ fun line hline => ⟨hlines line hline, (hother line hline).1⟩
  have hnote : Plain ("State published by ".toList ++ agent ++ " at phase ".toList ++ phase.text ++
      " (v".toList ++ (newVersion H content).text ++ [')']) := by
    have hbegin : Plain "State published by ".toList := by decide
    have hat : Plain " at phase ".toList := by decide
    have hmiddle : Plain " (v".toList := by decide
    have hend : Plain [')'] := by decide
    exact plain_append.mpr ⟨plain_append.mpr ⟨plain_append.mpr ⟨plain_append.mpr
      ⟨plain_append.mpr ⟨plain_append.mpr ⟨hbegin, hagent⟩, hat⟩, phase.plain⟩, hmiddle⟩,
        hversion.1⟩, hend⟩
  refine ⟨_, hfresh.appendHistory later.plain hnote, ?_⟩
  intro key hkey
  exact valueOf_lines (fun line hline heq => (hother line hline).2 (heq ▸ hkey)) h.keys

theorem LaidOut.markStateStale (now : Stamp) (h : LaidOut content front middle) :
    ∃ front', LaidOut (markStateStale now content) front' middle ∧
      ∀ key ∈ watchedKeys, valueOf front' key = valueOf front key := by
  have hedit : LineEdit "freshnessStatus".toList "stale".toList :=
    ⟨by decide, by decide, by decide, fun hmem => absurd hmem (by decide)⟩
  have hwritten := h.upsertLine hedit (by decide)
  refine ⟨_, hwritten.appendHistory now.plain (by decide), ?_⟩
  intro key hkey
  have hne : key ≠ "freshnessStatus".toList := by
    rintro rfl
    revert hkey
    decide +kernel
  have hmem : "freshnessStatus".toList ∈ front.map Prod.fst := by
    rw [h.keys]
    decide +kernel
  rw [valueOf_setValue hmem, if_neg hne]

/-- An update of the TDD state that goes into the file as it is: no text of it holds a line
terminator or a dollar sign, and no value of the front matter holds three dashes. -/
structure TDDPlain (H : Host) (content : Text) (fields : TDDField → Option Json) : Prop where
  json : Plain (mergeTDD (currentTDD H content) fields).json.stringify
  stage : Plain (printed (mergeTDD (currentTDD H content) fields .stage))
  cycle : Plain (printed (mergeTDD (currentTDD H content) fields .cycle))
  undashed : ∀ front body, frontMatter content = some (front, body) → ¬ dashes <:+: front

theorem plain_doubled {s : Text} (h : Plain s) : Plain (doubled s) := by
  have hquoted := plain_singleQuoted h
  rw [singleQuoted, plain_cons, plain_append] at hquoted
  exact hquoted.2.1

/-- What an update of the TDD state makes of the line in the middle. -/
inductive TDDWritten (json : Text) : List Text → List Text → Prop
  | again (tdd : Text) :
    TDDWritten json [[], keyLine tddKey tdd] [[], keyLine tddKey ('\x27' :: (json ++ ['\x27']))]
  | first : TDDWritten json [dashes]
    [[], keyLine tddKey ('\x27' :: (doubled json ++ '\x27' :: dashes))]
  | elsewhere : TDDWritten json [dashes] [dashes]

theorem LaidOut.updateTDDFields (now : Stamp) {fields : TDDField → Option Json}
    (h : LaidOut content front middle) (hplain : TDDPlain H content fields) :
    ∃ middle', LaidOut (updateTDDFields H now content fields) front middle' ∧
      TDDWritten (mergeTDD (currentTDD H content) fields).json.stringify middle middle' := by
  have hnote : Plain ("TDD state updated: stage=".toList ++
      printed (mergeTDD (currentTDD H content) fields .stage) ++ ", cycle=".toList ++
        printed (mergeTDD (currentTDD H content) fields .cycle)) := by
    have hbegin : Plain "TDD state updated: stage=".toList := by decide
    have hmiddle : Plain ", cycle=".toList := by decide
    exact plain_append.mpr ⟨plain_append.mpr ⟨plain_append.mpr
      ⟨hbegin, hplain.stage⟩, hmiddle⟩, hplain.cycle⟩
  unfold PlanningState.updateTDDFields
  dsimp only
  generalize hjson : (mergeTDD (currentTDD H content) fields).json.stringify = json
  have hline : Plain json := hjson ▸ hplain.json
  have hwritten : ∃ middle', LaidOut (writeTDD content json) front middle' ∧
      TDDWritten json middle middle' := by
    have hundashed := hplain.undashed
    obtain ⟨body, hlayout, rfl⟩ := h
    cases hlayout.middle with
    | @opened tdd hold hvisible hend =>
      have hmiddle : Middle [[], keyLine tddKey ('\x27' :: (json ++ ['\x27']))] := by
        apply Middle.opened
        · rw [plain_cons, plain_append]
          exact ⟨by decide, hline, by decide⟩
        · exact ⟨'\x27', mem_cons_self, by decide⟩
        · rw [← cons_append, trimEnd, rdropWhile_append]
          rfl
      refine ⟨_, ⟨body, ⟨hlayout.keys, hlayout.values, hmiddle, hlayout.lines, hlayout.nonempty⟩,
        hlayout.writeTDD_opened hline⟩, .again tdd⟩
    | closed =>
      by_cases hheld : tddKey ++ [':'] <:+: join '\n' (layoutLines front [dashes] body)
      · exact ⟨_, ⟨body, hlayout, hlayout.writeTDD_elsewhere hheld⟩, .elsewhere⟩
      · have hmiddle : Middle
            [[], keyLine tddKey ('\x27' :: (doubled json ++ '\x27' :: dashes))] := by
          apply Middle.opened
          · rw [plain_cons, plain_append, plain_cons]
            exact ⟨by decide, plain_doubled hline, by decide, by decide⟩
          · exact ⟨'\x27', mem_cons_self, by decide⟩
          · rw [← cons_append, trimEnd, rdropWhile_append]
            rfl
        have hfront : ¬ dashes <:+: join '\n' (entryLines front) :=
          hundashed _ _ (frontMatter_fileLines hlayout.shape)
        exact ⟨_, ⟨body, ⟨hlayout.keys, hlayout.values, hmiddle, hlayout.lines, hlayout.nonempty⟩,
          hlayout.writeTDD_closed hheld hfront⟩, .first⟩
  obtain ⟨middle', hlaid, hkind⟩ := hwritten
  exact ⟨middle', hlaid.appendHistory now.plain hnote, hkind⟩

end PlanningState
