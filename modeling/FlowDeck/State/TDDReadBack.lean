import FlowDeck.State.Confirmation

/-! The TDD state over runs of the calls that write it: when it reads back, and which overrides its
log keeps. -/

namespace PlanningState

open StateText TextLines Json TDDUpdates List

variable {H : Host} {content : Text} {front : List (Text × Text)} {middle : List Text}

/-! ### JSON in a line -/

/-- A text that a finite number prints as, and that gives the number back. -/
def FiniteText (H : Host) (text : String) : Prop :=
  (∃ n, H.number? text.toList = some n ∧ n.text = text.toList) ∧
    text.toList.head?.any (fun c => c.isDigit || c = '-') = true ∧ text ≠ "-Infinity"

/-- What the language reads: JSON gives back what it printed, no JSON ends in a dash, no number
begins with a quote, and the digits of the first numbers are numbers. -/
structure ReadsJson (H : Host) : Prop where
  parses : ∀ v, Stored (FiniteText H) v → H.parseJson? v.stringify = some v
  dash : ∀ s, H.parseJson? (s ++ ['-']) = none
  quote : ∀ s, H.number? ('\x27' :: s) = none
  zero : FiniteText H "0"
  one : FiniteText H "1"

theorem tddOf_json (tdd : TDDState) : tddOf tdd.json = tdd := by
  funext f
  cases f <;> rfl

theorem TDDState.json_inj {s t : TDDState} (h : s.json = t.json) : s = t := by
  rw [← tddOf_json s, h, tddOf_json]

/-- A TDD state with the defaults that reading it fills in. -/
def filled (tdd : TDDState) : TDDState := fun f => orElse (tdd f) (initialTDDState f)

def StoredTDD (H : Host) (tdd : TDDState) : Prop := ∀ f, Stored (FiniteText H) (tdd f)

variable {tdd : TDDState} {s : Text}

theorem StoredTDD.json (h : StoredTDD H tdd) : Stored (FiniteText H) tdd.json := by
  have hnames : (tddFields.map TDDField.name).Nodup := by decide
  have hindex : ∀ f ∈ tddFields, f.name.toList.head?.any Char.isDigit = false := by decide
  refine .object ?_ ?_ ?_
  · rw [map_map]
    exact hnames
  · intro m hm
    obtain ⟨f, hf, rfl⟩ := mem_map.mp hm
    exact hindex f hf
  · intro m hm
    obtain ⟨f, -, rfl⟩ := mem_map.mp hm
    exact h f

theorem storedTDD_initial (hH : ReadsJson H) : StoredTDD H initialTDDState := by
  intro f
  have hnone : ∀ v ∈ ([] : List Json), Stored (FiniteText H) v :=
    fun v hv => absurd hv not_mem_nil
  cases f with
  | stage => exact .string _
  | cycle => exact .number hH.one
  | behaviors => exact .array hnone
  | regressionTestLinks => exact .array hnone
  | overrideLog => exact .array hnone
  | failingTests => exact .number hH.zero
  | passingTests => exact .number hH.zero

theorem StoredTDD.filled (hH : ReadsJson H) {tdd : TDDState} (h : StoredTDD H tdd) :
    StoredTDD H (filled tdd) := by
  intro f
  unfold PlanningState.filled orElse
  split_ifs
  · exact h f
  · exact storedTDD_initial hH f

/-! ### What is read of the line -/

theorem LaidOut.tdd_opened (H : Host) {tdd : Text}
    (h : LaidOut content front [[], keyLine tddKey tdd]) :
    parseState H content tddKey = bodyValue H tddKey (trim tdd) := by
  obtain ⟨body, hlayout, rfl⟩ := h
  have hlines : layoutLines front [[], keyLine tddKey tdd] body =
      (dashes :: (entryLines front ++ [[]])) ++ keyLine tddKey tdd :: body := by
    simp [layoutLines]
  have honeLine : OneLine tdd := by
    cases hlayout.middle with
    | opened hplain hvisible hend => exact hplain.oneLine
  have hread : bodyEntry H (keyLine tddKey tdd) = some (tddKey, bodyValue H tddKey (trim tdd)) :=
    bodyEntry_keyLine H (c := 't') (by decide)
      (fun d hd => tddKey_isKey.chars d (mem_cons_of_mem _ hd)) honeLine
  rw [hlayout.parse_opened H (by decide), hlines]
  exact setLines_last _ hread fun l hl => not_bodyEntry (hlayout.lines l hl).other

theorem trim_quoted (c : Char) (hc : isSpace c = false) :
    trim ('\x27' :: (s ++ [c])) = '\x27' :: (s ++ [c]) := by
  rw [trim, dropWhile_cons_of_neg (by decide), ← cons_append, trimEnd,
    rdropWhile_concat_neg _ _ _ (by simp [hc])]

theorem bodyValue_tdd (hH : ReadsJson H) (s : Text) :
    bodyValue H tddKey ('\x27' :: s) = textValue (unquote ('\x27' :: s)) := by
  rw [bodyValue, if_neg (by decide), if_neg (by decide), if_neg (by decide), if_neg (by decide),
    if_neg (by decide), if_pos ⟨cons_ne_nil _ _, by decide⟩, hH.quote]

/-- What the line of the TDD state holds in a run: the JSON of a state, or a text that the dashes
behind its quote break. -/
inductive TDDText (H : Host) : Text → Prop
  | broken (s : Text) : TDDText H ('\x27' :: (s ++ '\x27' :: dashes))
  | whole {tdd : TDDState} (htdd : StoredTDD H tdd) :
    TDDText H ('\x27' :: (tdd.json.stringify ++ ['\x27']))

theorem unquote_broken (s : Text) :
    unquote ('\x27' :: (s ++ '\x27' :: dashes)) = (s ++ ['\x27', '-', '-']) ++ ['-'] := by
  have hsplit : s ++ '\x27' :: dashes = (s ++ ['\x27', '-', '-']) ++ ['-'] := by
    simp [dashes]
  have hopen : ('\x27' :: (s ++ '\x27' :: dashes)).head?.any isQuote = true := rfl
  rw [unquote]
  rw [if_pos hopen, tail_cons, hsplit, getLast?_concat, if_neg (by decide)]

theorem unquote_whole (s : Text) : unquote ('\x27' :: (s ++ ['\x27'])) = s := by
  have hopen : ('\x27' :: (s ++ ['\x27'])).head?.any isQuote = true := rfl
  rw [unquote]
  rw [if_pos hopen, tail_cons, getLast?_concat, if_pos (by decide), dropLast_concat]

theorem read_text (hne : s ≠ []) (h : parseState H content tddKey = textValue s) :
    readPlanningState H (some content) .tdd =
      match H.parseJson? s with
      | none | some .null => .undefined
      | some obj => (filled (tddOf obj)).json := by
  have hread : readPlanningState H (some content) .tdd = parseTDDState H (parseState H content) :=
    rfl
  have hkey : parseState H content "tdd".toList = textValue s := h
  have htruthy : truthy (textValue s) = true := by
    simp [truthy, textValue, hne]
  have hprinted : printed (textValue s) = s := by
    simp [printed, textValue]
  rw [hread, parseTDDState]
  simp only [hkey, htruthy, if_true, hprinted]
  rfl

theorem LaidOut.read_broken (hH : ReadsJson H) {s : Text}
    (h : LaidOut content front [[], keyLine tddKey ('\x27' :: (s ++ '\x27' :: dashes))]) :
    readPlanningState H (some content) .tdd = .undefined := by
  have hparse : parseState H content tddKey =
      textValue ((s ++ ['\x27', '-', '-']) ++ ['-']) := by
    have hsplit : '\x27' :: (s ++ '\x27' :: dashes) = '\x27' :: ((s ++ ['\x27', '-', '-']) ++ ['-']) := by
      simp [dashes]
    have htrim : trim ('\x27' :: (s ++ '\x27' :: dashes)) = '\x27' :: (s ++ '\x27' :: dashes) := by
      rw [hsplit]
      exact trim_quoted '-' (by decide)
    rw [h.tdd_opened H, htrim, bodyValue_tdd hH, unquote_broken]
  rw [read_text (by simp) hparse, hH.dash]

theorem LaidOut.read_whole (hH : ReadsJson H) {tdd : TDDState} (htdd : StoredTDD H tdd)
    (h : LaidOut content front
      [[], keyLine tddKey ('\x27' :: (tdd.json.stringify ++ ['\x27']))]) :
    readPlanningState H (some content) .tdd = (filled tdd).json := by
  have hparse : parseState H content tddKey = textValue tdd.json.stringify := by
    rw [h.tdd_opened H, trim_quoted '\x27' (by decide), bodyValue_tdd hH, unquote_whole]
  have hne : tdd.json.stringify ≠ [] := by
    rw [TDDState.json, stringify]
    exact cons_ne_nil _ _
  rw [read_text hne hparse, hH.parses _ htdd.json, ← tddOf_json tdd]
  rfl

/-! ### Runs -/

/-- The file is laid out, and the line of the TDD state, where there is one, is as an update leaves
it. -/
inductive TDDSettled (H : Host) (content : Text) : Prop
  | closed {front : List (Text × Text)} (hlaid : LaidOut content front [dashes])
  | opened {front : List (Text × Text)} {tdd : Text}
    (hlaid : LaidOut content front [[], keyLine tddKey tdd]) (htext : TDDText H tdd)

/-- A line begins with `tdd:` and no dashes ended up behind its quote. -/
def HasWholeTDDLine (content : Text) : Prop :=
  ∃ l ∈ content.splitOn '\n', HasKey tddKey l ∧ ¬ dashes <:+ l

instance (content : Text) : Decidable (HasWholeTDDLine content) :=
  decidableBEx (fun l => HasKey tddKey l ∧ ¬ dashes <:+ l) (content.splitOn '\n')

theorem LaidOut.tddLines {tdd l : Text} (h : LaidOut content front [[], keyLine tddKey tdd]) :
    (l ∈ content.splitOn '\n' ∧ HasKey tddKey l) ↔ l = keyLine tddKey tdd := by
  obtain ⟨body, hlayout, rfl⟩ := h
  have hne : layoutLines front [[], keyLine tddKey tdd] body ≠ [] := cons_ne_nil _ _
  rw [splitOn_join hne hlayout.noFeed]
  constructor
  · intro hline
    obtain ⟨hl, hhas⟩ := hline
    simp only [layoutLines, mem_cons, mem_append, not_mem_nil, or_false] at hl
    rcases hl with rfl | hl | (rfl | rfl) | hl
    · exact absurd hhas (not_hasKey_dashes tddKey)
    · exact absurd hhas (hlayout.entries_hasKey tddKey_isKey tddKey_notMem l hl)
    · exact absurd hhas (by decide)
    · rfl
    · exact absurd hhas (hlayout.lines l hl).other
  · intro hl
    rw [hl]
    refine ⟨?_, (hasKey_keyLine tddKey_isKey tddKey_isKey).mpr rfl⟩
    simp [layoutLines]

theorem LaidOut.hasWholeTDDLine_iff {tdd : Text}
    (h : LaidOut content front [[], keyLine tddKey tdd]) :
    HasWholeTDDLine content ↔ ¬ dashes <:+ keyLine tddKey tdd := by
  constructor
  · intro hwhole
    obtain ⟨l, hl, hhas, hdashes⟩ := hwhole
    rw [h.tddLines.mp ⟨hl, hhas⟩] at hdashes
    exact hdashes
  · intro hdashes
    obtain ⟨hl, hhas⟩ := h.tddLines.mpr (rfl : keyLine tddKey tdd = keyLine tddKey tdd)
    exact ⟨_, hl, hhas, hdashes⟩

theorem LaidOut.not_wholeTDDLine (h : LaidOut content front [dashes]) :
    ¬ HasWholeTDDLine content := by
  intro hwhole
  obtain ⟨l, hl, hhas, -⟩ := hwhole
  exact h.hasTDDLine_iff.mp ⟨l, hl, hhas⟩ rfl

/-- What an update begins with. -/
inductive Current (H : Host) (content : Text) : TDDState → Prop
  | none (hread : readPlanningState H (some content) .tdd = .undefined)
    (hwhole : ¬ HasWholeTDDLine content) : Current H content initialTDDState
  | some {tdd : TDDState} (htdd : StoredTDD H tdd)
    (hread : readPlanningState H (some content) .tdd = (filled tdd).json)
    (hwhole : HasWholeTDDLine content) : Current H content (filled tdd)

/-- A settled file has a TDD state where its line is whole, and none otherwise. -/
theorem TDDSettled.current (hH : ReadsJson H) (h : TDDSettled H content) :
    Current H content (currentTDD H content) := by
  cases h with
  | closed hlaid =>
    have hread := read_of_undefined (hlaid.tdd_closed H)
    rw [currentTDD_of_undefined hread]
    exact .none hread hlaid.not_wholeTDDLine
  | opened hlaid htext =>
    cases htext with
    | broken s =>
      have hread := hlaid.read_broken hH
      have hcurrent := currentTDD_of_undefined hread
      have hends : dashes <:+ keyLine tddKey ('\x27' :: (s ++ '\x27' :: dashes)) := by
        rw [keyLine_eq]
        exact ⟨tddKey ++ ':' :: ' ' :: '\x27' :: (s ++ ['\x27']), by simp⟩
      rw [hcurrent]
      exact .none hread fun hwhole => hlaid.hasWholeTDDLine_iff.mp hwhole hends
    | @whole tdd htdd =>
      have hread := hlaid.read_whole hH htdd
      have hcurrent : currentTDD H content = filled tdd := by
        rw [currentTDD, hread]
        exact tddOf_json (filled tdd)
      have hends : ¬ dashes <:+ keyLine tddKey ('\x27' :: (tdd.json.stringify ++ ['\x27'])) := by
        intro hsuffix
        obtain ⟨t, ht⟩ := hsuffix
        have hline : keyLine tddKey ('\x27' :: (tdd.json.stringify ++ ['\x27'])) =
            (tddKey ++ ':' :: ' ' :: '\x27' :: tdd.json.stringify) ++ ['\x27'] := by
          rw [keyLine_eq]
          simp
        have hdashes : t ++ dashes = (t ++ ['-', '-']) ++ ['-'] := by
          simp [dashes]
        rw [hline, hdashes] at ht
        have hlast := congrArg getLast? ht
        rw [getLast?_concat, getLast?_concat] at hlast
        revert hlast
        decide
      rw [hcurrent]
      exact .some htdd hread (hlaid.hasWholeTDDLine_iff.mpr hends)

theorem Current.stored (hH : ReadsJson H) {tdd : TDDState} (h : Current H content tdd) :
    StoredTDD H tdd := by
  cases h with
  | none hread hwhole => exact storedTDD_initial hH
  | some htdd hread hwhole => exact htdd.filled hH

theorem filled_initial : filled initialTDDState = initialTDDState := by
  funext f
  cases f <;> rfl

theorem filled_filled (tdd : TDDState) : filled (filled tdd) = filled tdd := by
  funext f
  unfold filled orElse
  split_ifs <;> rfl

theorem Current.filled (h : Current H content tdd) : PlanningState.filled tdd = tdd := by
  cases h with
  | none hread hwhole => exact filled_initial
  | some htdd hread hwhole => exact filled_filled _

/-! ### Updates -/

def Num.Finite (n : Num) : Prop :=
  n.text ≠ "NaN".toList ∧ n.text ≠ "Infinity".toList ∧ n.text ≠ "-Infinity".toList

instance (n : Num) : Decidable n.Finite := inferInstanceAs (Decidable (_ ∧ _ ∧ _))

def TDDUpdates.numbers (u : TDDUpdates) : List Num :=
  u.cycle.toList ++ u.failingTests.toList ++ u.passingTests.toList

/-- The numbers are ones the language prints. -/
def TDDUpdates.Printed (H : Host) (u : TDDUpdates) : Prop :=
  ∀ n ∈ u.numbers, n.Finite → FiniteText H (String.ofList n.text)

def TDDUpdates.Keepable (u : TDDUpdates) : Prop :=
  (∀ n ∈ u.numbers, n.Finite) ∧ ∀ n ∈ u.cycle, n.text ≠ ['0']

theorem storedTDD_merge {fields : TDDField → Option Json} (h : StoredTDD H tdd)
    (hfields : ∀ f v, fields f = some v → Stored (FiniteText H) v) :
    StoredTDD H (mergeTDD tdd fields) := by
  intro f
  unfold mergeTDD
  cases hfield : fields f with
  | none => exact h f
  | some v => exact hfields f v hfield

theorem stored_jsonNumber {n : Num} (h : n.Finite → FiniteText H (String.ofList n.text)) :
    Stored (FiniteText H) (jsonNumber n) := by
  unfold jsonNumber
  split_ifs with hinfinite
  · exact .null
  · refine .number (h ?_)
    simpa [Num.Finite, not_or] using hinfinite

theorem stored_textValue (s : Text) : Stored (FiniteText H) (textValue s) := .string _

theorem stored_texts (members : List (String × Text)) (names : List String)
    (hnames : members.map Prod.fst = names) (hnodup : names.Nodup)
    (hindex : ∀ name ∈ names, name.toList.head?.any Char.isDigit = false) :
    Stored (FiniteText H) (.object (members.map fun m => (m.1, textValue m.2))) := by
  refine .object ?_ ?_ ?_
  · rw [map_map]
    exact hnames ▸ hnodup
  · intro m hm
    obtain ⟨d, hd, rfl⟩ := mem_map.mp hm
    exact hindex d.1 (hnames ▸ mem_map_of_mem hd)
  · intro m hm
    obtain ⟨d, -, rfl⟩ := mem_map.mp hm
    exact stored_textValue d.2

theorem TDDBehavior.stored (b : TDDBehavior) : Stored (FiniteText H) b.json := by
  unfold TDDBehavior.json
  cases b.testFile with
  | none =>
    exact stored_texts ([("id", b.id), ("description", b.description),
      ("status", b.status.text)]) ["id", "description", "status"] rfl (by decide) (by decide)
  | some file =>
    exact stored_texts ([("id", b.id), ("description", b.description),
      ("status", b.status.text), ("test_file", file)])
      ["id", "description", "status", "test_file"] rfl (by decide) (by decide)

theorem TDDOverride.stored (o : TDDOverride) : Stored (FiniteText H) o.json :=
  stored_texts ([("timestamp", o.timestamp), ("stage", o.stage), ("reason", o.reason),
    ("override_by", o.overrideBy)]) ["timestamp", "stage", "reason", "override_by"] rfl
    (by decide) (by decide)

theorem TDDUpdates.Printed.stored {u : TDDUpdates} (h : u.Printed H) (f : TDDField) (v : Json)
    (hf : u.fields f = some v) : Stored (FiniteText H) v := by
  have hnumbers := h
  simp only [Printed, numbers, mem_append, Option.mem_toList] at hnumbers
  cases f with
  | stage =>
    obtain ⟨stage, -, rfl⟩ := Option.map_eq_some_iff.mp hf
    exact stored_textValue _
  | cycle =>
    obtain ⟨n, hn, rfl⟩ := Option.map_eq_some_iff.mp hf
    exact stored_jsonNumber (hnumbers n (Or.inl (Or.inl hn)))
  | behaviors =>
    obtain ⟨behaviors, -, rfl⟩ := Option.map_eq_some_iff.mp hf
    refine .array ?_
    intro v hv
    obtain ⟨b, -, rfl⟩ := mem_map.mp hv
    exact b.stored
  | regressionTestLinks =>
    obtain ⟨links, -, rfl⟩ := Option.map_eq_some_iff.mp hf
    refine .array ?_
    intro v hv
    obtain ⟨s, -, rfl⟩ := mem_map.mp hv
    exact stored_textValue s
  | overrideLog =>
    obtain ⟨log, -, rfl⟩ := Option.map_eq_some_iff.mp hf
    refine .array ?_
    intro v hv
    obtain ⟨o, -, rfl⟩ := mem_map.mp hv
    exact o.stored
  | failingTests =>
    obtain ⟨n, hn, rfl⟩ := Option.map_eq_some_iff.mp hf
    exact stored_jsonNumber (hnumbers n (Or.inl (Or.inr hn)))
  | passingTests =>
    obtain ⟨n, hn, rfl⟩ := Option.map_eq_some_iff.mp hf
    exact stored_jsonNumber (hnumbers n (Or.inr hn))

/-- A number that is given is kept where it is finite, and zero only where it is the default. -/
theorem orElse_jsonNumber (n : Num) (otherwise : String) :
    orElse (jsonNumber n) (.number otherwise) = jsonNumber n ↔
      n.Finite ∧ (n.text = ['0'] → otherwise = "0") := by
  by_cases hfinite : n.Finite
  · have hvalue : jsonNumber n = .number (String.ofList n.text) := by
      obtain ⟨hnan, hinf, hneg⟩ := hfinite
      rw [jsonNumber, if_neg (by simp only [hnan, hinf, hneg, or_self, not_false_eq_true])]
      rfl
    have htruthy : truthy (.number (String.ofList n.text)) = true ↔ n.text ≠ ['0'] := by
      have hnan : String.ofList n.text ≠ "NaN" := by
        intro heq
        exact hfinite.1 (by rw [← heq, String.toList_ofList])
      have hzero : String.ofList n.text = "0" ↔ n.text = ['0'] := by
        rw [← String.toList_inj, String.toList_ofList]
        rfl
      simp [truthy, hnan, hzero]
    rw [hvalue, orElse]
    split_ifs with hkept
    · simp [hfinite, htruthy.mp hkept]
    · have hzero : n.text = ['0'] := not_not.mp fun hne => hkept (htruthy.mpr hne)
      rw [hzero]
      simp [hfinite]
  · have hvalue : jsonNumber n = .null := by
      rw [jsonNumber, if_pos]
      simp only [Num.Finite, not_and_or, not_not] at hfinite
      exact hfinite
    rw [hvalue]
    simp [hfinite, orElse, truthy]

theorem orElse_of_truthy {v otherwise : Json} (h : truthy v = true) : orElse v otherwise = v := by
  rw [orElse, if_pos h]

/-- A merged state keeps its values exactly where the given ones are kept. -/
theorem filled_merge_iff (u : TDDUpdates) (htdd : filled tdd = tdd) :
    filled (mergeTDD tdd u.fields) = mergeTDD tdd u.fields ↔ u.Keepable := by
  have hgiven : ∀ f, filled (mergeTDD tdd u.fields) f = mergeTDD tdd u.fields f ↔
      ∀ v, u.fields f = some v → orElse v (initialTDDState f) = v := by
    intro f
    unfold filled mergeTDD
    cases hfield : u.fields f with
    | none =>
      have hsame : orElse (tdd f) (initialTDDState f) = tdd f := congrFun htdd f
      simp [hsame]
    | some v => simp
  have hcycle : (∀ v, u.fields .cycle = some v → orElse v (initialTDDState .cycle) = v) ↔
      ∀ n ∈ u.cycle, n.Finite ∧ n.text ≠ ['0'] := by
    simp [fields, initialTDDState, orElse_jsonNumber]
  have hfailing : (∀ v, u.fields .failingTests = some v →
      orElse v (initialTDDState .failingTests) = v) ↔ ∀ n ∈ u.failingTests, n.Finite := by
    simp [fields, initialTDDState, orElse_jsonNumber]
  have hpassing : (∀ v, u.fields .passingTests = some v →
      orElse v (initialTDDState .passingTests) = v) ↔ ∀ n ∈ u.passingTests, n.Finite := by
    simp [fields, initialTDDState, orElse_jsonNumber]
  have hkeepable : u.Keepable ↔ (∀ n ∈ u.cycle, n.Finite ∧ n.text ≠ ['0']) ∧
      (∀ n ∈ u.failingTests, n.Finite) ∧ ∀ n ∈ u.passingTests, n.Finite := by
    simp only [Keepable, numbers, forall_mem_append, Option.mem_toList]
    constructor
    · intro h
      exact ⟨fun n hn => ⟨h.1.1.1 n hn, h.2 n hn⟩, h.1.1.2, h.1.2⟩
    · intro h
      exact ⟨⟨⟨fun n hn => (h.1 n hn).1, h.2.1⟩, h.2.2⟩, fun n hn => (h.1 n hn).2⟩
  rw [hkeepable, ← hcycle, ← hfailing, ← hpassing]
  constructor
  · intro h
    exact ⟨(hgiven .cycle).mp (congrFun h _), (hgiven .failingTests).mp (congrFun h _),
      (hgiven .passingTests).mp (congrFun h _)⟩
  · intro h
    funext f
    apply (hgiven f).mpr
    intro v hv
    cases f with
    | stage =>
      obtain ⟨stage, -, rfl⟩ := Option.map_eq_some_iff.mp hv
      apply orElse_of_truthy
      cases stage <;> rfl
    | cycle => exact h.1 v hv
    | behaviors =>
      obtain ⟨behaviors, -, rfl⟩ := Option.map_eq_some_iff.mp hv
      exact orElse_of_truthy rfl
    | regressionTestLinks =>
      obtain ⟨links, -, rfl⟩ := Option.map_eq_some_iff.mp hv
      exact orElse_of_truthy rfl
    | overrideLog =>
      obtain ⟨log, -, rfl⟩ := Option.map_eq_some_iff.mp hv
      exact orElse_of_truthy rfl
    | failingTests => exact h.2.1 v hv
    | passingTests => exact h.2.2 v hv

theorem TDDSettled.updateTDDFields (hH : ReadsJson H) (now : Stamp)
    {fields : TDDField → Option Json} (h : TDDSettled H content) (hplain : TDDPlain H content fields)
    (hfields : ∀ f v, fields f = some v → Stored (FiniteText H) v) :
    TDDSettled H (updateTDDFields H now content fields) ∧
    ((HasTDDLine content ∧ readPlanningState H (some (updateTDDFields H now content fields)) .tdd =
        (filled (mergeTDD (currentTDD H content) fields)).json) ∨
      (¬ HasTDDLine content ∧
        readPlanningState H (some (updateTDDFields H now content fields)) .tdd = .undefined)) := by
  have hmerged : StoredTDD H (mergeTDD (currentTDD H content) fields) :=
    storedTDD_merge ((h.current hH).stored hH) hfields
  cases h with
  | closed hlaid =>
    have hline : ¬ HasTDDLine content := fun hheld => hlaid.hasTDDLine_iff.mp hheld rfl
    obtain ⟨middle', hlaid', hwritten⟩ := hlaid.updateTDDFields now hplain
    cases hwritten with
    | first =>
      exact ⟨.opened hlaid' (.broken _), Or.inr ⟨hline, hlaid'.read_broken hH⟩⟩
    | elsewhere =>
      exact ⟨.closed hlaid', Or.inr ⟨hline, read_of_undefined (hlaid'.tdd_closed H)⟩⟩
  | opened hlaid htext =>
    have hline : HasTDDLine content := hlaid.hasTDDLine_iff.mpr (by simp [dashes])
    obtain ⟨middle', hlaid', hwritten⟩ := hlaid.updateTDDFields now hplain
    cases hwritten with
    | again tdd =>
      exact ⟨.opened hlaid' (.whole hmerged), Or.inl ⟨hline, hlaid'.read_whole hH hmerged⟩⟩

/-- The TDD state reads back as the one before, overridden by the given fields. -/
def TDDReadsBack (H : Host) (now : Stamp) (content : Text) (u : TDDUpdates) : Prop :=
  readPlanningState H (some (updateTDDState H now content u)) .tdd =
    (mergeTDD (currentTDD H content) u.fields).json

theorem TDDSettled.readsBack_iff (hH : ReadsJson H) (now : Stamp) {u : TDDUpdates}
    (h : TDDSettled H content) (hplain : TDDPlain H content u.fields) (hprinted : u.Printed H) :
    TDDReadsBack H now content u ↔ HasTDDLine content ∧ u.Keepable := by
  obtain ⟨-, hread⟩ := h.updateTDDFields hH now hplain hprinted.stored
  have hfilled := filled_merge_iff u (h.current hH).filled
  rw [TDDReadsBack, updateTDDState]
  rcases hread with ⟨hline, hread⟩ | ⟨hline, hread⟩
  · rw [hread, ← hfilled]
    constructor
    · intro hsame
      exact ⟨hline, TDDState.json_inj hsame⟩
    · intro hsame
      rw [hsame.2]
  · rw [hread]
    constructor
    · intro hsame
      cases hsame
    · intro hheld
      exact absurd hheld.1 hline

/-! ### Runs -/

/-- A call that writes the planning state or the TDD state, with the times it reads. -/
inductive TDDCall
  | updatePlanningState (updates : Updates) (clock : Nat → Stamp)
  | updateTDDState (updates : TDDUpdates) (now : Stamp)
  | logTDDOverride (stage reason overrideBy : Text) (timed now : Stamp)

def TDDCall.apply (H : Host) (content : Text) : TDDCall → Text
  | .updatePlanningState updates clock => PlanningState.updatePlanningState H clock content updates
  | .updateTDDState updates now => PlanningState.updateTDDState H now content updates
  | .logTDDOverride stage reason overrideBy timed now =>
    PlanningState.logTDDOverride H timed now content stage reason overrideBy

def TDDCall.overrides : TDDCall → List Json
  | .logTDDOverride stage reason overrideBy timed _ =>
    [TDDOverride.json ⟨timed.text, stage, reason, overrideBy⟩]
  | _ => []

/-- The file, and the overrides that were to be logged. -/
structure Logged where
  content : Text
  overrides : List Json

def writeTDDCall (H : Host) (s : Logged) (call : TDDCall) : Option Logged :=
  some ⟨call.apply H s.content, s.overrides ++ call.overrides⟩

/-- The texts of a call go into the file as they are, and its numbers are ones the language
prints. -/
def TDDCall.InPlainTexts (H : Host) (s : Logged) : TDDCall → Prop
  | .updatePlanningState updates _ => updates.PlainTexts
  | .updateTDDState updates _ => TDDPlain H s.content updates.fields ∧ updates.Printed H
  | .logTDDOverride stage reason overrideBy timed _ =>
    TDDPlain H s.content (withOverride (currentTDD H s.content)
      (TDDOverride.json ⟨timed.text, stage, reason, overrideBy⟩))

/-- The call does not replace the log. -/
def TDDCall.KeepsLog : TDDCall → Prop
  | .updateTDDState updates _ => updates.overrideLog = none
  | _ => True

def TDDCall.LogsWhole (s : Logged) : TDDCall → Prop
  | .logTDDOverride _ _ _ _ _ => HasWholeTDDLine s.content
  | _ => True

def KeepsOverrides (H : Host) (s : Logged) : Prop :=
  overrideLog (currentTDD H s.content) = s.overrides

theorem currentTDD_of_json (h : readPlanningState H (some content) .tdd = tdd.json) :
    currentTDD H content = tdd := by
  rw [currentTDD, h]
  exact tddOf_json tdd

theorem TDDSettled.updatePlanningState (hH : ReadsJson H) (clock : Nat → Stamp) {updates : Updates}
    (h : TDDSettled H content) (hupdates : updates.PlainTexts) :
    TDDSettled H (updatePlanningState H clock content updates) ∧
      currentTDD H (PlanningState.updatePlanningState H clock content updates) =
        currentTDD H content := by
  cases h with
  | closed hlaid =>
    obtain ⟨front', hlaid', -⟩ := hlaid.updatePlanningState H clock hupdates
    rw [currentTDD_of_undefined (read_of_undefined (hlaid'.tdd_closed H)),
      currentTDD_of_undefined (read_of_undefined (hlaid.tdd_closed H))]
    exact ⟨.closed hlaid', rfl⟩
  | opened hlaid htext =>
    obtain ⟨front', hlaid', -⟩ := hlaid.updatePlanningState H clock hupdates
    refine ⟨.opened hlaid' htext, ?_⟩
    cases htext with
    | broken s =>
      rw [currentTDD_of_undefined (hlaid'.read_broken hH),
        currentTDD_of_undefined (hlaid.read_broken hH)]
    | whole htdd =>
      rw [currentTDD_of_json (hlaid'.read_whole hH htdd),
        currentTDD_of_json (hlaid.read_whole hH htdd)]

theorem overrideLog_filled (tdd : TDDState) : overrideLog (filled tdd) = overrideLog tdd := by
  unfold overrideLog filled orElse
  cases htdd : tdd .overrideLog with
  | undefined => simp [truthy, initialTDDState]
  | null => simp [truthy, initialTDDState]
  | bool b => cases b <;> simp [truthy, initialTDDState]
  | number text => split_ifs <;> simp [initialTDDState]
  | string text => split_ifs <;> simp [initialTDDState]
  | array items => simp [truthy]
  | object members => simp [truthy]

theorem TDDSettled.overrideLog_updated (hH : ReadsJson H) (now : Stamp)
    {fields : TDDField → Option Json} (h : TDDSettled H content) (hplain : TDDPlain H content fields)
    (hfields : ∀ f v, fields f = some v → Stored (FiniteText H) v) :
    overrideLog (currentTDD H (PlanningState.updateTDDFields H now content fields)) =
      if HasTDDLine content then overrideLog (mergeTDD (currentTDD H content) fields) else [] := by
  obtain ⟨-, hread⟩ := h.updateTDDFields hH now hplain hfields
  rcases hread with ⟨hline, hread⟩ | ⟨hline, hread⟩
  · rw [if_pos hline, currentTDD_of_json hread, overrideLog_filled]
  · rw [if_neg hline, currentTDD_of_undefined hread]
    rfl

theorem HasWholeTDDLine.line (h : HasWholeTDDLine content) : HasTDDLine content := by
  obtain ⟨l, hl, hhas, -⟩ := h
  exact ⟨l, hl, hhas⟩

theorem Current.overrideLog_of_noLine (h : Current H content tdd) (hline : ¬ HasTDDLine content) :
    overrideLog tdd = [] := by
  cases h with
  | none hread hwhole => rfl
  | some htdd hread hwhole => exact absurd hwhole.line hline

theorem StoredTDD.overrideLog (h : StoredTDD H tdd) :
    ∀ v ∈ overrideLog tdd, Stored (FiniteText H) v := by
  have hlog := h .overrideLog
  unfold PlanningState.overrideLog
  generalize tdd .overrideLog = log at hlog ⊢
  cases hlog with
  | array hitems => exact hitems
  | _ => exact fun v hv => absurd hv not_mem_nil

theorem withOverride_stored (o : TDDOverride) (h : StoredTDD H tdd) (f : TDDField) (v : Json)
    (hf : withOverride tdd o.json f = some v) : Stored (FiniteText H) v := by
  cases f with
  | overrideLog =>
    obtain rfl : array (PlanningState.overrideLog tdd ++ [o.json]) = v := Option.some.inj hf
    refine .array ?_
    intro w hw
    rcases mem_append.mp hw with hw | hw
    · exact h.overrideLog w hw
    · rw [mem_singleton.mp hw]
      exact o.stored
  | _ => cases hf

theorem logTDDOverride_eq (timed now : Stamp) (stage reason overrideBy : Text) {tdd : TDDState}
    (hread : readPlanningState H (some content) .tdd = tdd.json) :
    logTDDOverride H timed now content stage reason overrideBy =
      updateTDDFields H now content
        (withOverride tdd (TDDOverride.json ⟨timed.text, stage, reason, overrideBy⟩)) := by
  have htdd : tddOf tdd.json = tdd := tddOf_json tdd
  rw [logTDDOverride, hread]
  exact congrArg (fun tdd => updateTDDFields H now content
    (withOverride tdd (TDDOverride.json ⟨timed.text, stage, reason, overrideBy⟩))) htdd

/-- Where there is no TDD state an override is not logged; else it is added to the log. -/
theorem TDDSettled.logTDDOverride (hH : ReadsJson H) (timed now : Stamp)
    {stage reason overrideBy : Text} (h : TDDSettled H content)
    (hplain : TDDPlain H content (withOverride (currentTDD H content)
      (TDDOverride.json ⟨timed.text, stage, reason, overrideBy⟩))) :
    TDDSettled H (logTDDOverride H timed now content stage reason overrideBy) ∧
      overrideLog (currentTDD H
        (PlanningState.logTDDOverride H timed now content stage reason overrideBy)) =
          if HasWholeTDDLine content then overrideLog (currentTDD H content) ++
            [TDDOverride.json ⟨timed.text, stage, reason, overrideBy⟩] else [] := by
  have hcurrent := h.current hH
  have hstored := hcurrent.stored hH
  generalize htdd : currentTDD H content = tdd at hcurrent hplain hstored ⊢
  cases hcurrent with
  | none hread hwhole =>
    have hsame : PlanningState.logTDDOverride H timed now content stage reason overrideBy =
        content := by
      rw [PlanningState.logTDDOverride, hread]
    rw [hsame, if_neg hwhole, htdd]
    exact ⟨h, rfl⟩
  | @some tdd hstoredTdd hread hwhole =>
    have hsame := logTDDOverride_eq timed now stage reason overrideBy hread
    have hfields := withOverride_stored ⟨timed.text, stage, reason, overrideBy⟩ hstored
    rw [hsame, if_pos hwhole, h.overrideLog_updated hH now hplain hfields, if_pos hwhole.line]
    exact ⟨(h.updateTDDFields hH now hplain hfields).1, rfl⟩

theorem TDDSettled.step (hH : ReadsJson H) {s t : Logged} {call : TDDCall}
    (h : TDDSettled H s.content) (hcall : call.InPlainTexts H s)
    (hstep : writeTDDCall H s call = some t) : TDDSettled H t.content := by
  obtain rfl : (⟨call.apply H s.content, s.overrides ++ call.overrides⟩ : Logged) = t :=
    Option.some.inj hstep
  cases call with
  | updatePlanningState updates clock => exact (h.updatePlanningState hH clock hcall).1
  | updateTDDState updates now =>
    exact (h.updateTDDFields hH now hcall.1 hcall.2.stored).1
  | logTDDOverride stage reason overrideBy timed now =>
    exact (h.logTDDOverride hH timed now hcall).1

theorem TDDSettled.keeps_iff (hH : ReadsJson H) {s t : Logged} {call : TDDCall}
    (h : TDDSettled H s.content) (hcall : call.InPlainTexts H s) (hkeeps : call.KeepsLog)
    (hstep : writeTDDCall H s call = some t) :
    KeepsOverrides H t ↔ KeepsOverrides H s ∧ call.LogsWhole s := by
  obtain rfl : (⟨call.apply H s.content, s.overrides ++ call.overrides⟩ : Logged) = t :=
    Option.some.inj hstep
  cases call with
  | updatePlanningState updates clock =>
    have hsame := (h.updatePlanningState hH clock hcall).2
    simp only [KeepsOverrides, TDDCall.apply, TDDCall.overrides, TDDCall.LogsWhole, hsame,
      append_nil, and_true]
  | updateTDDState updates now =>
    have hafter := h.overrideLog_updated hH now hcall.1 hcall.2.stored
    have hmerged : overrideLog (mergeTDD (currentTDD H s.content) updates.fields) =
        overrideLog (currentTDD H s.content) := by
      have hnone : updates.fields .overrideLog = none := congrArg (Option.map _) hkeeps
      unfold overrideLog mergeTDD
      rw [hnone]
      rfl
    have hsame : overrideLog (currentTDD H (PlanningState.updateTDDState H now s.content updates)) =
        overrideLog (currentTDD H s.content) := by
      rw [PlanningState.updateTDDState, hafter, hmerged]
      split_ifs with hline
      · rfl
      · rw [(h.current hH).overrideLog_of_noLine hline]
    simp only [KeepsOverrides, TDDCall.apply, TDDCall.overrides, TDDCall.LogsWhole, hsame,
      append_nil, and_true]
  | logTDDOverride stage reason overrideBy timed now =>
    have hafter := (h.logTDDOverride hH timed now hcall).2
    simp only [KeepsOverrides, TDDCall.apply, TDDCall.overrides, TDDCall.LogsWhole, hafter]
    split_ifs with hwhole
    · simp [hwhole]
    · simp [hwhole]

def createdLog (phase : Num) (now : Stamp) : Logged := ⟨createDefaultState phase now, []⟩

/-- In a run of plain texts an update of the TDD state reads back exactly where a line begins with
`tdd:` and the numbers it gives are kept, and the log holds the overrides that were to be logged
exactly where each of them was logged into a whole line. -/
theorem tdd_of_run (hH : ReadsJson H) (phase : Num) (now : Stamp) {calls : List TDDCall} {s : Logged}
    (hcalls : Machine.Along (writeTDDCall H) (fun s call => call.InPlainTexts H s)
      (createdLog phase now) calls)
    (hrun : Machine.run (writeTDDCall H) (createdLog phase now) calls = some s) :
    (∀ u later, TDDPlain H s.content u.fields → u.Printed H →
      (TDDReadsBack H later s.content u ↔ HasTDDLine s.content ∧ u.Keepable)) ∧
    ((∀ call ∈ calls, call.KeepsLog) →
      (KeepsOverrides H s ↔ Machine.Along (writeTDDCall H) (fun s call => call.LogsWhole s)
        (createdLog phase now) calls)) := by
  have hcreated : TDDSettled H (createdLog phase now).content :=
    .closed (LaidOut.created phase now)
  constructor
  · intro u later hplain hprinted
    have hsettled : TDDSettled H s.content :=
      hcalls.invariant (fun s call t h hcall hstep => TDDSettled.step hH h hcall hstep) hcreated hrun
    exact hsettled.readsBack_iff hH later hplain hprinted
  · intro hkeeps
    have hfirst : KeepsOverrides H (createdLog phase now) := by
      have hread := read_of_undefined ((LaidOut.created phase now).tdd_closed H)
      rw [KeepsOverrides, createdLog, currentTDD_of_undefined hread]
      rfl
    have hguard := Machine.Along.and_mem hkeeps hcalls
    have hiff := hguard.run_iff
      (fun s call t h hcall hstep => TDDSettled.step hH h hcall.2 hstep)
      (fun s call t h hcall hstep => TDDSettled.keeps_iff hH h hcall.2 hcall.1 hstep) hcreated hrun
    rw [hiff]
    exact and_iff_right hfirst

/-! ### A host that reads JSON -/

theorem isNumeral_of_finiteText {text : String} (h : FiniteText plainHost text) :
    IsNumeral text.toList := by
  obtain ⟨⟨n, hn, -⟩, -⟩ := h
  by_contra hnot
  have hnone : plainHost.number? text.toList = none := dif_neg hnot
  rw [hnone] at hn
  cases hn

theorem kindOf_digit {c : Char} (h : c.isDigit = true) :
    kindOf c = 7 ∧ isCloser c = false ∧ c ≠ '-' := by
  have hne : ∀ d : Char, d.isDigit = false → c ≠ d := by
    intro d hd heq
    rw [heq, hd] at h
    cases h
  have hcloser : isCloser c = false := by
    simp [isCloser, hne ',' rfl, hne ']' rfl, hne '\x7d' rfl]
  refine ⟨?_, hcloser, hne '-' rfl⟩
  simp [kindOf, hcloser, hne 'n' rfl, hne 't' rfl, hne 'f' rfl, hne '\x22' rfl, hne '[' rfl,
    hne '\x7b' rfl]

theorem numberTexts_plainHost : NumberTexts (FiniteText plainHost) where
  begins text h := by
    obtain ⟨hne, hdigits⟩ := isNumeral_of_finiteText h
    obtain ⟨c, rest, hparts⟩ := exists_cons_of_ne_nil hne
    have hc : c ∈ text.toList := by
      rw [hparts]
      exact mem_cons_self
    exact ⟨c, rest, hparts, (kindOf_digit (hdigits c hc).2).1⟩
  open_ text h c hc := (kindOf_digit ((isNumeral_of_finiteText h).2 c hc).2).2.1
  ends text h hlast := by
    have hmem : '-' ∈ text.toList := mem_of_getLast? hlast
    exact (kindOf_digit ((isNumeral_of_finiteText h).2 '-' hmem).2).2.2 rfl

open Classical in
/-- The natural numbers, and the JSON of values made of them. -/
noncomputable def jsonHost : Host :=
  { plainHost with
    parseJson? := fun s =>
      if h : ∃ v, Stored (FiniteText plainHost) v ∧ v.stringify = s then some h.choose
      else none }

theorem number_jsonHost : jsonHost.number? = numberOf? := rfl

theorem numberOf_numeral (h : IsNumeral s) : ∃ n, numberOf? s = some n ∧ n.text = s :=
  ⟨⟨s, h.1, fun c hc => (h.2 c hc).1⟩, dif_pos h, rfl⟩

theorem readsJson_jsonHost : ReadsJson jsonHost where
  parses v hv := by
    have hstored : Stored (FiniteText plainHost) v := hv
    have hsome : ∃ w, Stored (FiniteText plainHost) w ∧ w.stringify = v.stringify :=
      ⟨v, hstored, rfl⟩
    have hparse : jsonHost.parseJson? v.stringify = some hsome.choose := dif_pos hsome
    obtain ⟨hchosen, htext⟩ := hsome.choose_spec
    rw [hparse, hchosen.stringify_inj numberTexts_plainHost hstored htext]
  dash s := by
    apply dif_neg
    intro hsome
    obtain ⟨v, hv, htext⟩ := hsome
    have hends := hv.ends numberTexts_plainHost
    rw [htext, getLast?_concat] at hends
    exact hends rfl
  quote s := by
    have hnot : ¬ IsNumeral ('\x27' :: s) := by
      intro hnumeral
      have hdigit := (hnumeral.2 '\x27' mem_cons_self).2
      revert hdigit
      decide
    rw [number_jsonHost]
    exact dif_neg hnot
  zero := by
    have hzero := numberOf_numeral (s := "0".toList) (by decide)
    exact ⟨number_jsonHost ▸ hzero, by decide, by decide⟩
  one := by
    have hone := numberOf_numeral (s := "1".toList) (by decide)
    exact ⟨number_jsonHost ▸ hone, by decide, by decide⟩

/-! ### Three calls -/

theorem TDDSettled.noFrontMatter (h : TDDSettled H content) (hline : HasTDDLine content) :
    frontMatter content = none := by
  cases h with
  | closed hlaid => exact absurd rfl (hlaid.hasTDDLine_iff.mp hline)
  | opened hlaid htext =>
    obtain ⟨body, hlayout, rfl⟩ := hlaid
    exact hlayout.noFrontMatter

/-- An update of a file that has the line goes into it where its JSON does. -/
theorem TDDSettled.plain (h : TDDSettled H content) (hline : HasTDDLine content) {tdd : TDDState}
    {fields : TDDField → Option Json} (hcurrent : currentTDD H content = tdd)
    (hjson : Plain (mergeTDD tdd fields).json.stringify)
    (hstage : Plain (printed (mergeTDD tdd fields .stage)))
    (hcycle : Plain (printed (mergeTDD tdd fields .cycle))) : TDDPlain H content fields := by
  refine ⟨hcurrent ▸ hjson, hcurrent ▸ hstage, hcurrent ▸ hcycle, ?_⟩
  intro front body hfront
  rw [h.noFrontMatter hline] at hfront
  cases hfront

def greenUpdate : TDDUpdates := { stage := some .green }

def greenOverride : TDDOverride :=
  ⟨newYear.text, "green".toList, "no test runner".toList, "user".toList⟩

noncomputable def redFile : Text :=
  updateTDDState jsonHost newYear (createDefaultState .one newYear) redUpdate

noncomputable def greenFile : Text := updateTDDState jsonHost newYear redFile greenUpdate

noncomputable def overriddenFile : Text :=
  logTDDOverride jsonHost newYear newYear greenFile greenOverride.stage greenOverride.reason
    greenOverride.overrideBy

/-- The TDD state once the second update is done. -/
def greenTDD : TDDState := filled (mergeTDD initialTDDState greenUpdate.fields)

def overriddenTDD : TDDState :=
  filled (mergeTDD greenTDD (withOverride greenTDD greenOverride.json))

theorem created_plain : TDDPlain jsonHost (createDefaultState .one newYear) redUpdate.fields := by
  have hcurrent := (LaidOut.created .one newYear).currentTDD_closed jsonHost
  refine ⟨?_, ?_, ?_, ?_⟩
  · rw [hcurrent]
    decide +kernel
  · rw [hcurrent]
    decide +kernel
  · rw [hcurrent]
    decide +kernel
  · intro front body hfront
    have hundashed : ((frontMatter (createDefaultState .one newYear)).map fun parts =>
        decide (dashes <:+: parts.1)) = some false := by
      decide +kernel
    rw [hfront] at hundashed
    simpa using hundashed

theorem printed_stage (stage : TDDStage) : Printed jsonHost { stage := some stage } :=
  fun _ hn => absurd hn not_mem_nil

theorem redFile_settled : TDDSettled jsonHost redFile ∧ HasTDDLine redFile ∧
    currentTDD jsonHost redFile = initialTDDState := by
  have hcreated := LaidOut.created .one newYear
  have hcurrent := hcreated.currentTDD_closed jsonHost
  have hline : HasTDDLine redFile := by
    have hfile : redFile = appendHistory newYear.text
        (writeTDD (createDefaultState .one newYear)
          (mergeTDD initialTDDState redUpdate.fields).json.stringify)
        "TDD state updated: stage=red, cycle=1".toList := by
      rw [redFile, updateTDDState, updateTDDFields, hcurrent]
      rfl
    rw [hfile]
    decide +kernel
  have hsettled : TDDSettled jsonHost (createDefaultState .one newYear) := .closed hcreated
  obtain ⟨hred, hread⟩ := hsettled.updateTDDFields readsJson_jsonHost newYear created_plain
    (printed_stage .red).stored
  rcases hread with ⟨hheld, -⟩ | ⟨-, hread⟩
  · exact absurd rfl (hcreated.hasTDDLine_iff.mp hheld)
  · exact ⟨hred, hline, currentTDD_of_undefined hread⟩

theorem TDDSettled.whole (hH : ReadsJson H) {tdd : TDDState} (h : TDDSettled H content)
    (hread : readPlanningState H (some content) .tdd = tdd.json) : HasWholeTDDLine content := by
  have hcurrent := h.current hH
  generalize currentTDD H content = current at hcurrent
  cases hcurrent with
  | none hnone hwhole =>
    rw [hnone] at hread
    cases hread
  | some htdd hsome hwhole => exact hwhole

theorem redFile_plain : TDDPlain jsonHost redFile greenUpdate.fields := by
  obtain ⟨hred, hline, hcurrent⟩ := redFile_settled
  exact hred.plain hline hcurrent (by decide +kernel) (by decide +kernel) (by decide +kernel)

theorem greenFile_settled : TDDSettled jsonHost greenFile ∧
    readPlanningState jsonHost (some greenFile) .tdd = greenTDD.json := by
  obtain ⟨hred, hline, hcurrent⟩ := redFile_settled
  obtain ⟨hgreen, hread⟩ := hred.updateTDDFields readsJson_jsonHost newYear redFile_plain
    (printed_stage .green).stored
  rw [hcurrent] at hread
  rcases hread with ⟨-, hread⟩ | ⟨hnone, -⟩
  · exact ⟨hgreen, hread⟩
  · exact absurd hline hnone

theorem greenFile_plain : TDDPlain jsonHost greenFile
    (withOverride (currentTDD jsonHost greenFile) greenOverride.json) := by
  obtain ⟨hgreen, hread⟩ := greenFile_settled
  have hcurrent := currentTDD_of_json hread
  have hline := (hgreen.whole readsJson_jsonHost hread).line
  rw [hcurrent]
  exact hgreen.plain hline hcurrent (by decide +kernel) (by decide +kernel) (by decide +kernel)

theorem overriddenFile_settled : TDDSettled jsonHost overriddenFile ∧
    readPlanningState jsonHost (some overriddenFile) .tdd = overriddenTDD.json := by
  obtain ⟨hgreen, hread⟩ := greenFile_settled
  have hcurrent := currentTDD_of_json hread
  have hplain := greenFile_plain
  have hstored : StoredTDD jsonHost greenTDD := by
    have hcurrentStored := (hgreen.current readsJson_jsonHost).stored readsJson_jsonHost
    rwa [hcurrent] at hcurrentStored
  have hfile : overriddenFile = updateTDDFields jsonHost newYear greenFile
      (withOverride greenTDD greenOverride.json) :=
    logTDDOverride_eq newYear newYear greenOverride.stage greenOverride.reason
      greenOverride.overrideBy hread
  rw [hcurrent] at hplain
  obtain ⟨hsettled, hafter⟩ := hgreen.updateTDDFields readsJson_jsonHost newYear hplain
    (withOverride_stored greenOverride hstored)
  rw [hcurrent] at hafter
  rw [hfile]
  rcases hafter with ⟨-, hafter⟩ | ⟨hnone, -⟩
  · exact ⟨hsettled, hafter⟩
  · exact absurd (hgreen.whole readsJson_jsonHost hread).line hnone

def redCall : TDDCall := .updateTDDState redUpdate newYear

def greenCall : TDDCall := .updateTDDState greenUpdate newYear

def overrideCall : TDDCall :=
  .logTDDOverride greenOverride.stage greenOverride.reason greenOverride.overrideBy newYear newYear

theorem redCall_writes :
    writeTDDCall jsonHost (createdLog .one newYear) redCall = some ⟨redFile, []⟩ := by
  simp only [writeTDDCall, redCall, TDDCall.apply, TDDCall.overrides, createdLog, redFile,
    append_nil]

theorem greenCall_writes : writeTDDCall jsonHost ⟨redFile, []⟩ greenCall = some ⟨greenFile, []⟩ := by
  simp only [writeTDDCall, greenCall, TDDCall.apply, TDDCall.overrides, greenFile, append_nil]

theorem overrideCall_writes : writeTDDCall jsonHost ⟨greenFile, []⟩ overrideCall =
    some ⟨overriddenFile, [greenOverride.json]⟩ := by
  simp only [writeTDDCall, overrideCall, TDDCall.apply, TDDCall.overrides, overriddenFile,
    nil_append, greenOverride]

theorem threeCalls_plain : Machine.Along (writeTDDCall jsonHost)
    (fun s call => call.InPlainTexts jsonHost s) (createdLog .one newYear)
    [redCall, greenCall, overrideCall] := by
  have hred : redCall.InPlainTexts jsonHost (createdLog .one newYear) :=
    ⟨created_plain, printed_stage .red⟩
  have hprinted : greenUpdate.Printed jsonHost := printed_stage .green
  have hgreen : greenCall.InPlainTexts jsonHost ⟨redFile, []⟩ := by
    dsimp only [greenCall, TDDCall.InPlainTexts]
    exact ⟨redFile_plain, hprinted⟩
  have hoverride : overrideCall.InPlainTexts jsonHost ⟨greenFile, []⟩ := by
    dsimp only [overrideCall, TDDCall.InPlainTexts]
    exact greenFile_plain
  exact .cons hred redCall_writes (.cons hgreen greenCall_writes ⟨hoverride, fun _ _ => trivial⟩)

/-- From the second update on the TDD state reads back, and the log has the override. -/
theorem threeCalls_read_back :
    TDDReadsBack jsonHost newYear overriddenFile redUpdate ∧
      KeepsOverrides jsonHost ⟨overriddenFile, [greenOverride.json]⟩ := by
  obtain ⟨hsettled, hread⟩ := overriddenFile_settled
  have hcurrent := currentTDD_of_json hread
  have hline := (hsettled.whole readsJson_jsonHost hread).line
  have hplain : TDDPlain jsonHost overriddenFile redUpdate.fields :=
    hsettled.plain hline hcurrent (by decide +kernel) (by decide +kernel) (by decide +kernel)
  have hrun : Machine.run (writeTDDCall jsonHost) (createdLog .one newYear)
      [redCall, greenCall, overrideCall] = some ⟨overriddenFile, [greenOverride.json]⟩ := by
    simp only [Machine.run_cons, redCall_writes, greenCall_writes, overrideCall_writes,
      Option.bind_some, Machine.run_nil]
  have h := tdd_of_run readsJson_jsonHost .one newYear threeCalls_plain hrun
  dsimp only at h
  have hkeepable : redUpdate.Keepable :=
    ⟨fun _ hn => absurd hn not_mem_nil, fun _ hn => by cases hn⟩
  have hkeeps : ∀ call ∈ [redCall, greenCall, overrideCall], call.KeepsLog := by
    intro call hcall
    simp only [mem_cons, not_mem_nil, or_false] at hcall
    rcases hcall with rfl | rfl | rfl
    · rfl
    · rfl
    · trivial
  obtain ⟨hgreen, hgreenRead⟩ := greenFile_settled
  have hwhole : overrideCall.LogsWhole ⟨greenFile, []⟩ := by
    dsimp only [overrideCall, TDDCall.LogsWhole]
    exact hgreen.whole readsJson_jsonHost hgreenRead
  refine ⟨(h.1 redUpdate newYear hplain (printed_stage .red)).mpr ⟨hline, hkeepable⟩, ?_⟩
  exact (h.2 hkeeps).mpr (.cons trivial redCall_writes (.cons trivial greenCall_writes
    ⟨hwhole, fun _ _ => trivial⟩))

/-- The first update does not read back: the closing dashes stand behind the quote of its line. -/
theorem first_update_lost :
    ¬ TDDReadsBack jsonHost newYear (createDefaultState .one newYear) redUpdate := by
  intro hreads
  have hcreated := LaidOut.created .one newYear
  have hsettled : TDDSettled jsonHost (createDefaultState .one newYear) := .closed hcreated
  have hline := ((hsettled.readsBack_iff readsJson_jsonHost newYear created_plain
    (printed_stage .red)).mp hreads).1
  exact hcreated.hasTDDLine_iff.mp hline rfl

end PlanningState
