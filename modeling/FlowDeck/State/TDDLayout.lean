import FlowDeck.State.StateReadBack
import FlowDeck.State.TDDState

/-! The layouts that `STATE.md` goes through: as it was created, and with the line of the TDD state
in the place of the dashes that closed its front matter. -/

namespace PlanningState

open StateText TextLines List

variable {content key value : Text} {front : List (Text × Text)} {middle body : List Text}

/-! ### Values of the front lines -/

def valueOf (front : List (Text × Text)) (key : Text) : Text := (front.lookup key).getD []

theorem valueOf_setValue {key' : Text} (h : key ∈ front.map Prod.fst) :
    valueOf (setValue key value front) key' = if key' = key then value else valueOf front key' := by
  unfold valueOf
  induction front with
  | nil => cases h
  | cons e front ih =>
    have hcons : setValue key value (e :: front) =
        (if e.1 = key then (e.1, value) else e) :: setValue key value front := rfl
    have hfst : (if e.1 = key then (e.1, value) else e).1 = e.1 := by
      split_ifs
      · rfl
      · rfl
    rw [hcons, lookup_cons, lookup_cons, hfst]
    by_cases hown : key' = e.1
    · rw [hown]
      simp only [BEq.rfl]
      split_ifs with hkey
      · rfl
      · rfl
    · have hbeq : (key' == e.1) = false := by simpa using hown
      rw [hbeq]
      dsimp only
      by_cases hmore : key ∈ front.map Prod.fst
      · exact ih hmore
      · have hkey : key = e.1 := by
          rcases mem_cons.mp h with heq | hmem
          · exact heq
          · exact absurd hmem hmore
        rw [setValue_of_notMem hmore, if_neg (by rw [hkey]; exact hown)]

/-! ### The layouts -/

/-- A line behind the front matter that neither closes it nor holds the TDD state. -/
structure KeptLine (l : Text) : Prop where
  line : BodyLine l
  undashed : ¬ dashes <+: l
  other : ¬ HasKey tddKey l

/-- What stands between the front lines and the body. -/
inductive Middle : List Text → Prop
  | closed : Middle [dashes]
  | opened {tdd : Text} (hplain : Plain tdd) (hvisible : Visible tdd) (hend : trimEnd tdd = tdd) :
    Middle [[], keyLine tddKey tdd]

def layoutLines (front : List (Text × Text)) (middle body : List Text) : List Text :=
  dashes :: (entryLines front ++ (middle ++ body))

structure Layout (front : List (Text × Text)) (middle body : List Text) : Prop where
  keys : front.map Prod.fst = frontKeys
  values : ∀ e ∈ front, FrontValue e
  middle : Middle middle
  lines : ∀ l ∈ body, KeptLine l
  nonempty : body ≠ []

/-- The file is laid out with these front lines and these lines in the middle. -/
def LaidOut (content : Text) (front : List (Text × Text)) (middle : List Text) : Prop :=
  ∃ body, Layout front middle body ∧ content = join '\n' (layoutLines front middle body)

theorem tddKey_isKey : IsKey tddKey := by decide

theorem tddKey_notMem : tddKey ∉ frontKeys := by decide +kernel

theorem Middle.plain (h : Middle middle) : ∀ l ∈ middle, Plain l := by
  intro l hl
  cases h with
  | closed => exact mem_singleton.mp hl ▸ by decide
  | opened hplain hvisible hend =>
    rcases mem_cons.mp hl with rfl | hl
    · exact plain_nil
    · rw [mem_singleton.mp hl, keyLine_eq]
      simp only [plain_append, plain_cons]
      exact ⟨by decide, by decide, by decide, hplain⟩

theorem Middle.hasKey (h : Middle middle) (hkey : IsKey key) (hother : key ≠ tddKey) :
    ∀ l ∈ middle, ¬ HasKey key l := by
  intro l hl hhas
  cases h with
  | closed => exact not_hasKey_dashes key (mem_singleton.mp hl ▸ hhas)
  | opened hplain hvisible hend =>
    rcases mem_cons.mp hl with rfl | hl
    · obtain ⟨old, heq⟩ := hasKey_iff.mp hhas
      simp at heq
    · rw [mem_singleton.mp hl] at hhas
      exact hother ((hasKey_keyLine hkey tddKey_isKey).mp hhas)

theorem Middle.last (h : Middle middle) :
    ∃ before x, middle = before ++ [x] ∧ x ≠ [] ∧ trimEnd x = x := by
  cases h with
  | closed => exact ⟨[], dashes, rfl, by decide, by decide⟩
  | @opened tdd hplain hvisible hend =>
    refine ⟨[[]], keyLine tddKey tdd, rfl, ?_, ?_⟩
    · rw [keyLine_eq]
      simp
    · obtain ⟨c, hc, _⟩ := hvisible
      have hne : trimEnd tdd ≠ [] := by
        rw [hend]
        exact ne_nil_of_mem hc
      have hdrop : tdd.rdropWhile isSpace ≠ [] := hne
      rw [trimEnd, keyLine, rdropWhile_append, if_neg hdrop]
      exact congrArg _ hend

theorem Layout.isKey (h : Layout front middle body) : ∀ e ∈ front, IsKey e.1 :=
  fun e he => frontKeys_isKey _ (h.values e he).key

theorem Layout.plain (h : Layout front middle body) :
    ∀ l ∈ layoutLines front middle body, Plain l := by
  intro l hl
  simp only [layoutLines, entryLines, mem_cons, mem_append, mem_map] at hl
  rcases hl with rfl | ⟨e, he, rfl⟩ | hl | hl
  · decide
  · exact (h.values e he).plainLine
  · exact h.middle.plain l hl
  · exact (h.lines l hl).line.plain

theorem Layout.oneLine (h : Layout front middle body) :
    ∀ l ∈ layoutLines front middle body, OneLine l :=
  fun l hl => (h.plain l hl).oneLine

theorem Layout.noFeed (h : Layout front middle body) :
    ∀ l ∈ layoutLines front middle body, '\n' ∉ l :=
  fun l hl => (h.oneLine l hl).noFeed

theorem Layout.visible (h : Layout front middle body) {old : Text} (hkey : IsKey key)
    (hold : key ++ ':' :: old ∈ layoutLines front middle body) : Visible old := by
  have hhas : HasKey key (key ++ ':' :: old) := hasKey_iff.mpr ⟨old, rfl⟩
  simp only [layoutLines, entryLines, mem_cons, mem_append, mem_map] at hold
  rcases hold with heq | ⟨e, he, heq⟩ | hmem | hmem
  · exact absurd (heq ▸ hhas) (not_hasKey_dashes key)
  · have hvalue := h.values e he
    rw [keyLine_eq] at heq
    obtain ⟨-, hsame⟩ := key_unique (frontKeys_isKey _ hvalue.key) hkey heq
    obtain ⟨c, hc, hspace⟩ := hvalue.visible
    exact ⟨c, hsame ▸ mem_cons_of_mem _ hc, hspace⟩
  · cases h.middle with
    | closed => exact absurd (mem_singleton.mp hmem ▸ hhas) (not_hasKey_dashes key)
    | @opened tdd hplain hvisible hend =>
      rcases mem_cons.mp hmem with heq | hmem
      · simp at heq
      · have heq := mem_singleton.mp hmem
        rw [keyLine_eq] at heq
        obtain ⟨-, hsame⟩ := key_unique hkey tddKey_isKey heq
        obtain ⟨c, hc, hspace⟩ := hvisible
        exact ⟨c, hsame ▸ mem_cons_of_mem _ hc, hspace⟩
  · exact ((h.lines _ hmem).line.keyed key old hkey rfl).2

theorem Layout.entries_hasKey (h : Layout front middle body) (hkey : IsKey key)
    (hfront : key ∉ frontKeys) : ∀ l ∈ entryLines front, ¬ HasKey key l := by
  intro l hl hhas
  obtain ⟨e, he, rfl⟩ := mem_map.mp hl
  have hsame : key = e.1 := (hasKey_keyLine hkey (h.isKey e he)).mp hhas
  exact hfront (hsame ▸ (h.values e he).key)

/-! ### Lines that are kept -/

theorem KeptLine.of_head {c : Char} {rest : Text} (hline : BodyLine (c :: rest))
    (hdash : ¬ dashes <+: c :: rest) (hkey : isKeyChar c = false) : KeptLine (c :: rest) where
  line := hline
  undashed := hdash
  other := by
    intro hhas
    obtain ⟨old, heq⟩ := hasKey_iff.mp hhas
    have hc : c = 't' := (cons.inj heq).1
    rw [hc] at hkey
    revert hkey
    decide

theorem KeptLine.blank : KeptLine [] where
  line := .blank
  undashed := by decide
  other := by decide

theorem KeptLine.history : KeptLine historyHeading :=
  .of_head .history (by decide) (by decide)

theorem KeptLine.entry {now action : Text} (hnow : Plain now) (haction : Plain action) :
    KeptLine ("- ".toList ++ now ++ " — ".toList ++ action) := by
  refine .of_head (.entry hnow haction) ?_ (by decide)
  intro hpre
  have hspace : '-' = ' ' := (cons_prefix_cons.mp (cons_prefix_cons.mp hpre).2).1
  cases hspace

theorem KeptLine.keyLine (hkey : IsKey key) (hother : key ≠ tddKey) (hfront : key ∉ frontKeys)
    (hplain : Plain value) (hvisible : Visible value) : KeptLine (keyLine key value) where
  line := .keyLine hkey hfront hplain hvisible
  undashed := by
    intro hpre
    obtain ⟨c, more, rfl⟩ := exists_cons_of_ne_nil hkey.nonempty
    have hc : isKeyChar c = true := hkey.chars c mem_cons_self
    rw [keyLine_eq] at hpre
    have hdash : '-' = c := (cons_prefix_cons.mp hpre).1
    rw [← hdash] at hc
    revert hc
    decide
  other := fun hhas => hother ((hasKey_keyLine tddKey_isKey hkey).mp hhas).symm

theorem KeptLine.trimEnd {l : Text} (h : KeptLine l) : KeptLine (trimEnd l) where
  line := h.line.trimEnd
  undashed := fun hpre => h.undashed (hpre.trans (List.rdropWhile_prefix _ _))
  other := fun hpre => h.other (hpre.trans (List.rdropWhile_prefix _ _))

/-! ### Edits -/

theorem layoutLines_eq (front : List (Text × Text)) (middle body : List Text) :
    layoutLines front middle body = dashes :: (entryLines front ++ middle) ++ body := by
  simp [layoutLines]

theorem Layout.upsertLine (h : Layout front middle body) (he : LineEdit key value)
    (hother : key ≠ tddKey) :
    LaidOut (upsertLine (join '\n' (layoutLines front middle body)) key value)
      (setValue key value front) middle := by
  have hvisible : ∀ old, key ++ ':' :: old ∈ layoutLines front middle body → Visible old :=
    fun _ hold => h.visible he.isKey hold
  by_cases hfront : key ∈ frontKeys
  · refine ⟨body, ⟨(setValue_keys key value front).trans h.keys,
      frontValue_setValue h.values he hfront, h.middle, h.lines, h.nonempty⟩, ?_⟩
    exact upsertLine_entries he h.isKey h.keys hfront h.oneLine hvisible
  · have houtside : ∀ l ∈ dashes :: (entryLines front ++ middle), ¬ HasKey key l := by
      intro l hl
      rcases mem_cons.mp hl with rfl | hl
      · exact not_hasKey_dashes key
      · rcases mem_append.mp hl with hl | hl
        · exact h.entries_hasKey he.isKey hfront l hl
        · exact h.middle.hasKey he.isKey hother l hl
    obtain ⟨before, x, hmiddle, hx, hend⟩ := h.middle.last
    obtain ⟨body', hadded, hlines, hnonempty⟩ := upsertLine_behind
      (layoutLines_eq front middle body ▸ h.oneLine) h.lines .blank he
      (layoutLines_eq front middle body ▸ hvisible) houtside
      ⟨dashes :: (entryLines front ++ before), x, by simp [hmiddle], hx, hend⟩ h.nonempty
      (.keyLine he.isKey hother hfront he.plain he.visible) fun _ hl => hl.trimEnd
    rw [setValue_of_notMem (h.keys ▸ hfront)]
    refine ⟨body', ⟨h.keys, h.values, h.middle, hlines, hnonempty⟩, ?_⟩
    rw [layoutLines_eq, layoutLines_eq, hadded]

theorem LaidOut.upsertLine (h : LaidOut content front middle) (he : LineEdit key value)
    (hother : key ≠ tddKey) :
    LaidOut (upsertLine content key value) (setValue key value front) middle := by
  obtain ⟨body, hlayout, rfl⟩ := h
  exact hlayout.upsertLine he hother

theorem Middle.heading_notMem (h : Middle middle) {heading : Text} (hcolon : ':' ∉ heading)
    (hdashes : heading ≠ dashes) (hne : heading ≠ []) : heading ∉ middle := by
  intro hmem
  cases h with
  | closed => exact hdashes (mem_singleton.mp hmem)
  | opened hplain hvisible hend =>
    rcases mem_cons.mp hmem with heq | hmem
    · exact hne heq
    · apply hcolon
      rw [mem_singleton.mp hmem, keyLine_eq]
      simp

theorem LaidOut.appendHistory {now action : Text} (h : LaidOut content front middle)
    (hnow : Plain now) (haction : Plain action) :
    LaidOut (appendHistory now content action) front middle := by
  obtain ⟨body, hlayout, rfl⟩ := h
  have hheading : historyHeading ∉ dashes :: (entryLines front ++ middle) :=
    heading_notMem (by decide) (by decide)
      (hlayout.middle.heading_notMem (by decide) (by decide) (by decide))
  obtain ⟨body', hadded, hlines, hnonempty⟩ := appendHistory_behind
    (layoutLines_eq front middle body ▸ hlayout.oneLine) hlayout.lines .blank
    (cons_ne_nil _ _) hheading hnow haction hlayout.nonempty .history (.entry hnow haction)
  refine ⟨body', ⟨hlayout.keys, hlayout.values, hlayout.middle, hlines, hnonempty⟩, ?_⟩
  rw [layoutLines_eq, layoutLines_eq, hadded]

theorem LaidOut.replaceBlockers (h : LaidOut content front middle) (blockers : List Text) :
    replaceBlockers content blockers = content := by
  obtain ⟨body, hlayout, rfl⟩ := h
  refine replaceBlockers_join blockers hlayout.oneLine (heading_notMem (by decide) (by decide) ?_)
  intro hmem
  rcases mem_append.mp hmem with hmem | hmem
  · exact hlayout.middle.heading_notMem (by decide) (by decide) (by decide) hmem
  · exact (hlayout.lines _ hmem).line.heading (prefix_refl _)

/-! ### Reading -/

theorem setLines_append (entry : Text → Option (Text × Json)) (ls ms : List Text) (result : Parsed) :
    setLines entry (ls ++ ms) result = setLines entry ms (setLines entry ls result) :=
  foldl_append

theorem setLines_other {entry : Text → Option (Text × Json)} {ls : List Text} (result : Parsed)
    (h : ∀ l ∈ ls, ∀ read, entry l ≠ some (key, read)) :
    setLines entry ls result key = result key := by
  induction ls generalizing result with
  | nil => rfl
  | cons l ls ih =>
    have hrest : ∀ m ∈ ls, ∀ read, entry m ≠ some (key, read) :=
      fun m hm => h m (mem_cons_of_mem _ hm)
    cases hentry : entry l with
    | none => simpa [setLines, hentry] using ih result hrest
    | some found =>
      obtain ⟨own, read⟩ := found
      have hne : key ≠ own := by
        intro heq
        rw [← heq] at hentry
        exact h l mem_cons_self read hentry
      have hmore := ih (Function.update result own read) hrest
      rw [Function.update_of_ne hne] at hmore
      simpa [setLines, hentry] using hmore

theorem setLines_last {entry : Text → Option (Text × Json)} {before after : List Text} {l : Text}
    {read : Json} (result : Parsed) (hl : entry l = some (key, read))
    (hafter : ∀ m ∈ after, ∀ other, entry m ≠ some (key, other)) :
    setLines entry (before ++ l :: after) result key = read := by
  have hcons : setLines entry (l :: after) (setLines entry before result) =
      setLines entry after (Function.update (setLines entry before result) key read) := by
    simp [setLines, hl]
  rw [setLines_append, hcons, setLines_other _ hafter, Function.update_self]

theorem not_bodyEntry {H : Host} {l : Text} (h : ¬ HasKey key l) (read : Json) :
    bodyEntry H l ≠ some (key, read) := by
  intro hentry
  obtain ⟨-, value, hline⟩ := bodyEntry_key hentry
  exact h (hasKey_iff.mpr ⟨value, hline⟩)

theorem bodyEntry_keyLine (H : Host) {c : Char} (hstart : isKeyStart c = true)
    (hchars : ∀ d ∈ key, isKeyChar d = true) (hvalue : OneLine value) :
    bodyEntry H (keyLine (c :: key) value) =
      some (c :: key, bodyValue H (c :: key) (trim value)) := by
  have hhash : c ≠ '#' := by
    rintro rfl
    revert hstart
    decide
  have hsplit : splitKey isKeyStart isKeyChar (keyLine (c :: key) value) =
      some (c :: key, ' ' :: value) := by
    rw [keyLine_eq, cons_append]
    exact splitKey_line hstart hchars (by decide)
  have hhead : (keyLine (c :: key) value).head? = some c := by
    rw [keyLine_eq]
    rfl
  have hdrop : (' ' :: value).dropWhile isSpace = value.dropWhile isSpace :=
    dropWhile_cons_of_pos (by decide)
  have htake : (value.dropWhile isSpace).takeWhile (!isTerminator ·) = value.dropWhile isSpace := by
    apply takeWhile_eq_self_iff.mpr
    intro d hd
    simp [hvalue d ((dropWhile_sublist _).subset hd)]
  have htrim : trim (value.dropWhile isSpace) = trim value := by
    rw [trim, trim, dropWhile_idempotent]
  rw [bodyEntry, hhead, if_neg (by simpa using hhash), hsplit]
  simp only [hdrop, htake, htrim]

theorem Layout.noFrontMatter {tdd : Text} (h : Layout front [[], keyLine tddKey tdd] body) :
    frontMatter (join '\n' (layoutLines front [[], keyLine tddKey tdd] body)) = none := by
  have hrest : entryLines front ++ ([[], keyLine tddKey tdd] ++ body) ≠ [] := by simp
  have hdashed : dashes ∉ entryLines front ++ ([[], keyLine tddKey tdd] ++ body) := by
    intro hmem
    have hcolon : ':' ∉ dashes := by decide
    simp only [entryLines, mem_append, mem_map, mem_cons, not_mem_nil, or_false] at hmem
    rcases hmem with ⟨e, -, heq⟩ | (heq | heq) | hmem
    · apply hcolon
      rw [← heq, keyLine_eq]
      simp
    · cases heq
    · apply hcolon
      rw [heq, keyLine_eq]
      simp
    · exact (h.lines _ hmem).undashed (prefix_refl _)
  have hsearch := splitAtFirst_join (h := dashes) (by decide)
    (fun l hl => h.noFeed l (mem_cons_of_mem _ hl))
  have hnone : splitAtLine dashes (entryLines front ++ ([[], keyLine tddKey tdd] ++ body)) = none := by
    cases hsplit : splitAtLine dashes (entryLines front ++ ([[], keyLine tddKey tdd] ++ body)) with
    | none => rfl
    | some parts =>
      refine absurd ?_ hdashed
      rw [(splitAtLine_parts hsplit).1]
      simp
  have hopen : "---\n".toList <+: join '\n' (layoutLines front [[], keyLine tddKey tdd] body) := by
    rw [layoutLines, join_cons _ hrest]
    exact ⟨_, rfl⟩
  have hdrop : (join '\n' (layoutLines front [[], keyLine tddKey tdd] body)).drop 4 =
      join '\n' (entryLines front ++ ([[], keyLine tddKey tdd] ++ body)) := by
    rw [layoutLines, join_cons _ hrest]
    rfl
  rw [frontMatter, if_pos hopen, hdrop]
  rw [hnone] at hsearch
  exact hsearch

theorem Layout.parse_opened (H : Host) {tdd : Text} (h : Layout front [[], keyLine tddKey tdd] body)
    (hexists : key ≠ "exists".toList) :
    parseState H (join '\n' (layoutLines front [[], keyLine tddKey tdd] body)) key =
      setLines (bodyEntry H) (layoutLines front [[], keyLine tddKey tdd] body)
        (fun _ => .undefined) key := by
  have hne : layoutLines front [[], keyLine tddKey tdd] body ≠ [] := cons_ne_nil _ _
  rw [parseState, Function.update_of_ne hexists]
  simp only [h.noFrontMatter, splitOn_join hne h.noFeed]

theorem isKeyStart_frontKeys : ∀ key ∈ frontKeys, key.head?.any isKeyStart = true := by
  decide +kernel

/-- Without its front matter a file is read with the coercions of the body. -/
theorem LaidOut.read_opened (H : Host) {tdd : Text}
    (h : LaidOut content front [[], keyLine tddKey tdd]) (hkey : key ∈ frontKeys) :
    parseState H content key = bodyValue H key (trim (valueOf front key)) := by
  obtain ⟨body, hlayout, rfl⟩ := h
  have hexists : key ≠ "exists".toList := by
    have hall : ∀ key ∈ frontKeys, key ≠ "exists".toList := by decide +kernel
    exact hall key hkey
  rw [hlayout.parse_opened H hexists]
  obtain ⟨e, hentry, rfl⟩ := mem_map.mp (hlayout.keys ▸ hkey)
  obtain ⟨before, after, hfront⟩ := append_of_mem hentry
  have hnodup : (front.map Prod.fst).Nodup := hlayout.keys ▸ frontKeys_nodup
  have hlookup : valueOf front e.1 = e.2 := by
    rw [hfront, map_append, map_cons, nodup_append] at hnodup
    have hbefore : before.lookup e.1 = none := by
      apply lookup_eq_none_iff.mpr
      intro d hd
      have hne := hnodup.2.2 d.1 (mem_map_of_mem hd) e.1 mem_cons_self
      simpa using Ne.symm hne
    rw [valueOf, hfront, lookup_append, hbefore, lookup_cons_self]
    rfl
  have hafter : ∀ m ∈ entryLines after ++ ([[], keyLine tddKey tdd] ++ body), ∀ other,
      bodyEntry H m ≠ some (e.1, other) := by
    intro m hm other
    apply not_bodyEntry
    rcases mem_append.mp hm with hm | hm
    · obtain ⟨d, hd, rfl⟩ := mem_map.mp hm
      intro hhas
      have hdfront : d ∈ front := by
        rw [hfront]
        simp [hd]
      have hsame : e.1 = d.1 :=
        (hasKey_keyLine (hlayout.isKey e hentry) (hlayout.isKey d hdfront)).mp hhas
      rw [hfront, map_append, map_cons, nodup_append, nodup_cons] at hnodup
      exact hnodup.2.1.1 (hsame ▸ mem_map_of_mem hd)
    · rcases mem_append.mp hm with hm | hm
      · have hother : e.1 ≠ tddKey := fun heq => tddKey_notMem (heq ▸ hkey)
        exact hlayout.middle.hasKey (hlayout.isKey e hentry) hother m hm
      · intro hhas
        obtain ⟨old, hline⟩ := hasKey_iff.mp hhas
        exact ((hlayout.lines m hm).line.keyed e.1 old (hlayout.isKey e hentry) hline).1 hkey
  have hlines : layoutLines front [[], keyLine tddKey tdd] body =
      (dashes :: entryLines before) ++ keyLine e.1 e.2 ::
        (entryLines after ++ ([[], keyLine tddKey tdd] ++ body)) := by
    rw [layoutLines, hfront]
    simp [entryLines]
  obtain ⟨c, rest, hparts⟩ := exists_cons_of_ne_nil (hlayout.isKey e hentry).nonempty
  have hstart : isKeyStart c = true := by
    have hall := isKeyStart_frontKeys e.1 hkey
    rw [hparts] at hall
    simpa using hall
  have hchars : ∀ d ∈ rest, isKeyChar d = true := fun d hd =>
    (hlayout.isKey e hentry).chars d (hparts ▸ mem_cons_of_mem _ hd)
  have hread : bodyEntry H (keyLine e.1 e.2) = some (e.1, bodyValue H e.1 (trim e.2)) := by
    rw [hparts]
    exact bodyEntry_keyLine H hstart hchars (hlayout.values e hentry).plain.oneLine
  rw [hlines, setLines_last _ hread hafter, hlookup]

theorem Layout.shape (h : Layout front [dashes] body) : Shape front body :=
  ⟨h.keys, h.values, fun l hl => (h.lines l hl).line, h.nonempty⟩

theorem LaidOut.shaped (h : LaidOut content front [dashes]) : Shaped content := by
  obtain ⟨body, hlayout, rfl⟩ := h
  exact ⟨front, body, hlayout.shape, rfl⟩

end PlanningState
