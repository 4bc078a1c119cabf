import FlowDeck.State.StateFile

/-! Every edit of an update in plain texts keeps the shape of `STATE.md`. -/

namespace PlanningState

open StateText TextLines List

variable {content key value : Text} {front : List (Text × Text)} {body : List Text}

/-! ### Lines of the body -/

theorem BodyLine.of_head {c : Char} {rest : Text} (hplain : Plain (c :: rest))
    (hkey : isKeyChar c = false) (hheading : ¬ blockersHeading <+: c :: rest) :
    BodyLine (c :: rest) where
  plain := hplain
  heading := hheading
  keyed := by
    intro key value hk heq
    obtain ⟨d, more, rfl⟩ := exists_cons_of_ne_nil hk.nonempty
    have hd : isKeyChar d = true := hk.chars d mem_cons_self
    rw [← (cons.inj heq).1, hkey] at hd
    cases hd

theorem BodyLine.blank : BodyLine [] where
  plain := plain_nil
  heading := by decide
  keyed := by
    intro key value hk heq
    simp at heq

theorem BodyLine.history : BodyLine historyHeading :=
  BodyLine.of_head (by decide) (by decide) (by decide)

theorem BodyLine.entry {now action : Text} (hnow : Plain now) (haction : Plain action) :
    BodyLine ("- ".toList ++ now ++ " — ".toList ++ action) := by
  have hheading : ¬ blockersHeading <+: "- ".toList ++ now ++ " — ".toList ++ action := by
    intro hpre
    have hhash : '#' = '-' := (cons_prefix_cons.mp hpre).1
    cases hhash
  refine BodyLine.of_head ?_ (by decide) hheading
  have hbegin : Plain "- ".toList := by decide
  have hdash : Plain " — ".toList := by decide
  exact plain_append.mpr ⟨plain_append.mpr ⟨plain_append.mpr ⟨hbegin, hnow⟩, hdash⟩, haction⟩

theorem BodyLine.keyLine (hkey : IsKey key) (hfront : key ∉ frontKeys) (hplain : Plain value)
    (hvisible : Visible value) : BodyLine (keyLine key value) where
  plain := by
    rw [keyLine_eq]
    simp only [plain_append, plain_cons]
    exact ⟨hkey.plain, by decide, by decide, hplain⟩
  heading := by
    intro hpre
    obtain ⟨c, more, rfl⟩ := exists_cons_of_ne_nil hkey.nonempty
    have hc : isKeyChar c = true := hkey.chars c mem_cons_self
    rw [keyLine_eq] at hpre
    have hhash : '#' = c := (cons_prefix_cons.mp hpre).1
    rw [← hhash] at hc
    revert hc
    decide
  keyed := by
    intro key' value' hkey' heq
    rw [keyLine_eq] at heq
    obtain ⟨rfl, rfl⟩ := key_unique hkey hkey' heq
    obtain ⟨c, hc, hspace⟩ := hvisible
    exact ⟨hfront, c, mem_cons_of_mem _ hc, hspace⟩

theorem BodyLine.trimEnd {l : Text} (h : BodyLine l) : BodyLine (trimEnd l) where
  plain := plain_of_subset (List.rdropWhile_prefix _ _).sublist.subset h.plain
  heading := fun hpre => h.heading (hpre.trans (List.rdropWhile_prefix _ _))
  keyed := by
    intro key value hkey heq
    have hline : l = key ++ ':' :: (value ++ l.rtakeWhile isSpace) := by
      have hsplit := rdropWhile_append_rtakeWhile (p := isSpace) (l := l)
      have hdropped : l.rdropWhile isSpace = key ++ ':' :: value := heq
      rw [hdropped] at hsplit
      rw [← cons_append, ← append_assoc, hsplit]
    obtain ⟨hfront, c, hc, hspace⟩ := h.keyed key _ hkey hline
    refine ⟨hfront, c, ?_, hspace⟩
    rcases mem_append.mp hc with hc | hc
    · exact hc
    · have hblank := mem_rtakeWhile_imp hc
      rw [hspace] at hblank
      cases hblank

/-! ### Writing a line -/

theorem setLine_skip (value : Text) {ls : List Text} (rest : List Text) (h : ∀ l ∈ ls, ¬ HasKey key l) :
    setLine key value (ls ++ rest) = ls ++ setLine key value rest := by
  induction ls with
  | nil => rfl
  | cons l ls ih =>
    have hl : ¬ HasKey key l := h l mem_cons_self
    rw [cons_append, setLine, if_neg hl, ih fun k hk => h k (mem_cons_of_mem _ hk), cons_append]

theorem mem_setLine {ls : List Text} {l : Text} (h : l ∈ setLine key value ls) :
    l ∈ ls ∨ l = keyLine key value := by
  induction ls with
  | nil => exact Or.inl h
  | cons k ls ih =>
    rw [setLine] at h
    split at h
    · rcases mem_cons.mp h with heq | hmem
      · exact Or.inr heq
      · exact Or.inl (mem_cons_of_mem _ hmem)
    · rcases mem_cons.mp h with heq | hmem
      · exact Or.inl (heq ▸ mem_cons_self)
      · rcases ih hmem with hold | hnew
        · exact Or.inl (mem_cons_of_mem _ hold)
        · exact Or.inr hnew

/-! ### Values of the front lines -/

def setValue (key value : Text) (front : List (Text × Text)) : List (Text × Text) :=
  front.map fun e => if e.1 = key then (e.1, value) else e

def entryLines (front : List (Text × Text)) : List Text := front.map fun e => keyLine e.1 e.2

theorem setValue_keys (key value : Text) (front : List (Text × Text)) :
    (setValue key value front).map Prod.fst = front.map Prod.fst := by
  rw [setValue, map_map]
  apply map_congr_left
  intro e _
  simp only [Function.comp_apply]
  split_ifs
  · rfl
  · rfl

theorem mem_setValue {e : Text × Text} (h : e ∈ setValue key value front) :
    e ∈ front ∨ e = (key, value) := by
  obtain ⟨old, hold, rfl⟩ := mem_map.mp h
  split_ifs with hkey
  · exact Or.inr (by rw [hkey])
  · exact Or.inl hold

theorem setValue_of_notMem (h : key ∉ front.map Prod.fst) : setValue key value front = front := by
  have hall : ∀ e ∈ front, (if e.1 = key then (e.1, value) else e) = e := by
    intro e he
    have hne : e.1 ≠ key := fun heq => h (heq ▸ mem_map_of_mem he)
    rw [if_neg hne]
  rw [setValue, map_congr_left hall, map_id']

theorem setLine_entries (rest : List Text) (hkey : IsKey key) (hkeys : ∀ e ∈ front, IsKey e.1)
    (hnodup : (front.map Prod.fst).Nodup) (hmem : key ∈ front.map Prod.fst) :
    setLine key value (entryLines front ++ rest) =
      entryLines (setValue key value front) ++ rest := by
  induction front with
  | nil => cases hmem
  | cons e front ih =>
    have he : IsKey e.1 := hkeys e mem_cons_self
    have hcons : entryLines (e :: front) = keyLine e.1 e.2 :: entryLines front := rfl
    rw [hcons, cons_append, setLine]
    simp only [hasKey_keyLine hkey he]
    rw [map_cons, nodup_cons] at hnodup
    by_cases hsame : key = e.1
    · have hothers : setValue key value front = front :=
        setValue_of_notMem (hsame ▸ hnodup.1)
      have hset : setValue key value (e :: front) = (e.1, value) :: front := by
        rw [setValue, map_cons, if_pos hsame.symm]
        exact congrArg _ hothers
      rw [if_pos hsame, hset, hsame]
      rfl
    · have hmore : key ∈ front.map Prod.fst := (mem_cons.mp hmem).resolve_left hsame
      have hset : setValue key value (e :: front) = e :: setValue key value front := by
        rw [setValue, map_cons, if_neg (Ne.symm hsame)]
        rfl
      rw [if_neg hsame, hset, ih (fun d hd => hkeys d (mem_cons_of_mem _ hd)) hnodup.2 hmore]
      rfl

theorem frontKeys_nodup : frontKeys.Nodup := by decide +kernel

/-- What a line is written with. -/
structure LineEdit (key value : Text) : Prop where
  isKey : IsKey key
  plain : Plain value
  visible : Visible value
  opens : key ∈ coercedKeys → Opens value

theorem Shape.isKey (h : Shape front body) : ∀ e ∈ front, IsKey e.1 :=
  fun e he => frontKeys_isKey _ (h.values e he).key

theorem Shape.oneLines (h : Shape front body) : ∀ l ∈ fileLines front body, OneLine l :=
  fun l hl => (h.plainLines l hl).oneLine

theorem Shape.not_hasKey (h : Shape front body) (hkey : IsKey key) (hfront : key ∉ frontKeys) :
    ∀ l ∈ front.map (fun e => keyLine e.1 e.2), ¬ HasKey key l := by
  intro l hl hhas
  obtain ⟨e, he, rfl⟩ := mem_map.mp hl
  have hsame : key = e.1 := (hasKey_keyLine hkey (h.isKey e he)).mp hhas
  exact hfront (hsame ▸ (h.values e he).key)

/-! ### Edits in the front lines and behind them -/

theorem heading_notMem {heading : Text} {rest : List Text} (hcolon : ':' ∉ heading)
    (hdashes : heading ≠ dashes) (hrest : heading ∉ rest) :
    heading ∉ dashes :: (entryLines front ++ rest) := by
  intro hmem
  simp only [entryLines, mem_cons, mem_append, mem_map] at hmem
  rcases hmem with heq | ⟨e, -, heq⟩ | hmem
  · exact hdashes heq
  · apply hcolon
    rw [← heq, keyLine_eq]
    simp
  · exact hrest hmem

theorem frontValue_setValue (h : ∀ e ∈ front, FrontValue e) (he : LineEdit key value)
    (hfront : key ∈ frontKeys) : ∀ e ∈ setValue key value front, FrontValue e := by
  intro e hmem
  rcases mem_setValue hmem with hold | rfl
  · exact h e hold
  · exact ⟨hfront, he.plain, he.visible, he.opens⟩

theorem upsertLine_entries {rest : List Text} (he : LineEdit key value)
    (hkeys : ∀ e ∈ front, IsKey e.1) (hfront : front.map Prod.fst = frontKeys)
    (hmem : key ∈ frontKeys) (hone : ∀ l ∈ dashes :: (entryLines front ++ rest), OneLine l)
    (hvisible : ∀ old, key ++ ':' :: old ∈ dashes :: (entryLines front ++ rest) → Visible old) :
    upsertLine (join '\n' (dashes :: (entryLines front ++ rest))) key value =
      join '\n' (dashes :: (entryLines (setValue key value front) ++ rest)) := by
  rw [← hfront] at hmem
  have hhas : ∃ l ∈ dashes :: (entryLines front ++ rest), HasKey key l := by
    obtain ⟨e, hentry, rfl⟩ := mem_map.mp hmem
    refine ⟨keyLine e.1 e.2, ?_, (hasKey_keyLine he.isKey he.isKey).mpr rfl⟩
    simp only [entryLines, mem_cons, mem_append, mem_map]
    exact Or.inr (Or.inl ⟨e, hentry, rfl⟩)
  rw [upsertLine_join he.isKey.plain he.plain hone hvisible hhas, setLine,
    if_neg (not_hasKey_dashes key),
    setLine_entries _ he.isKey hkeys (hfront ▸ frontKeys_nodup) hmem]

section Behind

variable {head : List Text} {P : Text → Prop} (hone : ∀ l ∈ head ++ body, OneLine l)
  (hlines : ∀ l ∈ body, P l) (hblank : P [])

include hone hlines hblank

theorem upsertLine_behind (he : LineEdit key value)
    (hvisible : ∀ old, key ++ ':' :: old ∈ head ++ body → Visible old)
    (houtside : ∀ l ∈ head, ¬ HasKey key l)
    (hlast : ∃ before x, head = before ++ [x] ∧ x ≠ [] ∧ trimEnd x = x) (hnonempty : body ≠ [])
    (hline : P (keyLine key value)) (htrim : ∀ l, P l → P (trimEnd l)) :
    ∃ body', upsertLine (join '\n' (head ++ body)) key value = join '\n' (head ++ body') ∧
      (∀ l ∈ body', P l) ∧ body' ≠ [] := by
  by_cases hhas : ∃ l ∈ body, HasKey key l
  · obtain ⟨l, hl, hlKey⟩ := hhas
    have hsome : ∃ l ∈ head ++ body, HasKey key l := ⟨l, mem_append_right _ hl, hlKey⟩
    refine ⟨setLine key value body, ?_, ?_, setLine_ne_nil hnonempty⟩
    · rw [upsertLine_join he.isKey.plain he.plain hone hvisible hsome,
        setLine_skip value body houtside]
    · intro k hk
      rcases mem_setLine hk with hold | rfl
      · exact hlines k hold
      · exact hline
  · have hnone : ∀ l ∈ head ++ body, ¬ HasKey key l := by
      intro l hl hlKey
      rcases mem_append.mp hl with hout | hbody
      · exact houtside l hout hlKey
      · exact hhas ⟨l, hbody, hlKey⟩
    obtain ⟨before, x, rfl, hx, hend⟩ := hlast
    have hsplit : ∀ rest, before ++ [x] ++ rest = before ++ x :: rest := by simp
    obtain ⟨kept, hkept, hfrom⟩ := trimEnd_join hx hend before body
    refine ⟨kept ++ [keyLine key value, []], ?_, ?_, by simp⟩
    · have hne : before ++ x :: kept ≠ [] := by simp
      rw [upsertLine_join_new he.isKey.plain.oneLine.noFeed hone hnone, hsplit, hkept,
        ← append_assoc, hsplit, join_append hne (cons_ne_nil _ _)]
      rfl
    · intro l hl
      rcases mem_append.mp hl with hl | hl
      · obtain ⟨m, hm, rfl | rfl⟩ := hfrom l hl
        · exact hlines l hm
        · exact htrim m (hlines m hm)
      · rcases mem_cons.mp hl with rfl | hl
        · exact hline
        · exact mem_singleton.mp hl ▸ hblank

theorem appendHistory_behind {now action : Text} (hhead : head ≠ [])
    (hheading : historyHeading ∉ head) (hnow : Plain now) (haction : Plain action)
    (hnonempty : body ≠ []) (hhistory : P historyHeading)
    (hentry : P ("- ".toList ++ now ++ " — ".toList ++ action)) :
    ∃ body', appendHistory now (join '\n' (head ++ body)) action = join '\n' (head ++ body') ∧
      (∀ l ∈ body', P l) ∧ body' ≠ [] := by
  have hne : head ++ body ≠ [] := append_ne_nil_of_left_ne_nil hhead body
  rcases appendHistory_join hne hone hnow haction with
    ⟨before, after, -, hparts, hadded⟩ | hsame | hadded
  · have hmore : ∃ more, before = head ++ more ∧ body = more ++ historyHeading :: after := by
      rcases append_eq_append_iff.mp hparts with ⟨more, hbefore, hbody⟩ | ⟨more, hhead, hrest⟩
      · exact ⟨more, hbefore, hbody⟩
      · cases more with
        | nil => exact ⟨[], by simpa using hhead.symm, by simpa using hrest.symm⟩
        | cons l more =>
          have hl : historyHeading = l := by simpa using (cons.inj hrest).1
          refine absurd ?_ hheading
          rw [hhead, hl]
          simp
    obtain ⟨more, rfl, rfl⟩ := hmore
    refine ⟨more ++ historyHeading :: ("- ".toList ++ now ++ " — ".toList ++ action) :: after,
      ?_, ?_, by simp⟩
    · rw [hadded, append_assoc]
    · intro l hl
      have hold : l ∈ more ++ historyHeading :: after ∨
          l = "- ".toList ++ now ++ " — ".toList ++ action := by
        simp only [mem_append, mem_cons] at hl ⊢
        tauto
      rcases hold with hold | rfl
      · exact hlines l hold
      · exact hentry
  · exact ⟨body, hsame, hlines, hnonempty⟩
  · refine ⟨body ++ [historyHeading, "- ".toList ++ now ++ " — ".toList ++ action, []],
      ?_, ?_, by simp⟩
    · rw [hadded, append_assoc]
    · intro l hl
      simp only [mem_append, mem_cons, not_mem_nil, or_false] at hl
      rcases hl with hl | rfl | rfl | rfl
      · exact hlines l hl
      · exact hhistory
      · exact hentry
      · exact hblank

end Behind

theorem fileLines_eq (front : List (Text × Text)) (body : List Text) :
    fileLines front body = dashes :: (entryLines front ++ [dashes]) ++ body := by
  simp [fileLines, entryLines]

theorem Shaped.upsertLine (h : Shaped content) (he : LineEdit key value) :
    Shaped (upsertLine content key value) := by
  obtain ⟨front, body, hshape, rfl⟩ := h
  have hvisible : ∀ old, key ++ ':' :: old ∈ fileLines front body → Visible old :=
    fun _ hold => hshape.visible he.isKey hold
  by_cases hfront : key ∈ frontKeys
  · refine ⟨setValue key value front, body, ⟨(setValue_keys key value front).trans hshape.keys,
      frontValue_setValue hshape.values he hfront, hshape.lines, hshape.nonempty⟩, ?_⟩
    exact upsertLine_entries he hshape.isKey hshape.keys hfront hshape.oneLines hvisible
  · have houtside : ∀ l ∈ dashes :: (entryLines front ++ [dashes]), ¬ HasKey key l := by
      intro l hl
      simp only [mem_cons, mem_append, not_mem_nil, or_false] at hl
      rcases hl with rfl | hl | rfl
      · exact not_hasKey_dashes key
      · exact hshape.not_hasKey he.isKey hfront l hl
      · exact not_hasKey_dashes key
    obtain ⟨body', hadded, hlines, hnonempty⟩ := upsertLine_behind
      (fileLines_eq front body ▸ hshape.oneLines) hshape.lines .blank he
      (fileLines_eq front body ▸ hvisible) houtside
      ⟨dashes :: entryLines front, dashes, rfl, by decide, by decide⟩ hshape.nonempty
      (.keyLine he.isKey hfront he.plain he.visible) fun _ hl => hl.trimEnd
    refine ⟨front, body', ⟨hshape.keys, hshape.values, hlines, hnonempty⟩, ?_⟩
    rw [fileLines_eq, fileLines_eq, hadded]

/-! ### The history and the blockers -/

theorem Shaped.appendHistory {now action : Text} (h : Shaped content) (hnow : Plain now)
    (haction : Plain action) : Shaped (appendHistory now content action) := by
  obtain ⟨front, body, hshape, rfl⟩ := h
  have hheading : historyHeading ∉ dashes :: (entryLines front ++ [dashes]) :=
    heading_notMem (by decide) (by decide) (by decide)
  obtain ⟨body', hadded, hlines, hnonempty⟩ := appendHistory_behind
    (fileLines_eq front body ▸ hshape.oneLines) hshape.lines .blank (cons_ne_nil _ _) hheading
    hnow haction hshape.nonempty .history (.entry hnow haction)
  refine ⟨front, body', ⟨hshape.keys, hshape.values, hlines, hnonempty⟩, ?_⟩
  rw [fileLines_eq, fileLines_eq, hadded]

theorem Shaped.replaceBlockers (h : Shaped content) (blockers : List Text) :
    replaceBlockers content blockers = content := by
  obtain ⟨front, body, hshape, rfl⟩ := h
  refine replaceBlockers_join blockers hshape.oneLines (heading_notMem (by decide) (by decide) ?_)
  intro hmem
  rcases mem_cons.mp hmem with heq | hmem
  · revert heq
    decide
  · exact (hshape.lines _ hmem).heading (prefix_refl _)

/-! ### Updates in plain texts -/

/-- The texts of an update that go into the file as they are. -/
def Updates.texts (u : Updates) : List Text :=
  u.status.toList ++ u.lastAction.toList ++ u.nextAction.toList ++ u.taskType.toList ++
    u.designOverrideReason.toList ++ u.designArtifact.toList ++ u.workflowClass.toList ++
    u.skippedStages.getD [] ++ u.routingReason.toList ++
    (u.escalationHistory.map fun events => (escalationJson events).stringify).toList ++
    (u.routingScores.map fun scores => scores.json.stringify).toList

/-- No text of the update holds a line terminator or a dollar sign, and the status is not blank. -/
structure Updates.PlainTexts (u : Updates) : Prop where
  texts : ∀ s ∈ u.texts, Plain s
  status : ∀ s ∈ u.status, Visible s

/-- An edit that keeps the shape of the file. -/
def Edit.Admissible : Edit → Prop
  | .line key value action => LineEdit key value ∧ Plain action
  | .blockers _ action => Plain action

theorem plain_quoted {s : Text} (h : Plain s) : Plain (quoted s) := by
  rw [quoted, plain_cons, plain_append]
  exact ⟨by decide, h, by decide⟩

theorem plain_singleQuoted {s : Text} (h : Plain s) : Plain (singleQuoted s) := by
  rw [singleQuoted, plain_cons, plain_append]
  refine ⟨by decide, ?_, by decide⟩
  intro c hc
  obtain ⟨d, hd, hcd⟩ := mem_flatMap.mp hc
  split at hcd
  · next hquote =>
      have heq : c = d := by
        rw [hquote]
        simpa using hcd
      exact heq ▸ h d hd
  · exact (mem_singleton.mp hcd) ▸ h d hd

theorem plain_intercalate {sep : Text} {items : List Text} (hsep : Plain sep)
    (h : ∀ s ∈ items, Plain s) : Plain (sep.intercalate items) := by
  induction items with
  | nil => exact plain_nil
  | cons s items ih =>
    have hs : Plain s := h s mem_cons_self
    have hrest : Plain (sep.intercalate items) := ih fun t ht => h t (mem_cons_of_mem _ ht)
    cases items with
    | nil => simpa using hs
    | cons t items =>
      rw [intercalate_cons_cons]
      exact plain_append.mpr ⟨plain_append.mpr ⟨hs, hsep⟩, hrest⟩

theorem plain_bracketed {items : List Text} (h : ∀ s ∈ items, Plain s) : Plain (bracketed items) := by
  rw [bracketed, plain_cons, plain_append]
  exact ⟨by decide, plain_intercalate (by decide) h, by decide⟩

theorem opens_bracketed (items : List Text) : Opens (bracketed items) :=
  ⟨'[', _, rfl, by decide, by decide⟩

theorem plain_numbers (steps : List Num) : ∀ s ∈ steps.map Num.text, Plain s := by
  intro s hs
  obtain ⟨n, -, rfl⟩ := mem_map.mp hs
  exact n.plain

theorem plain_natText (n : Nat) : Plain (natText n) := by
  apply plain_number
  intro c hc
  have hmem : c ∈ Nat.toDigits 10 n := by simpa [natText] using hc
  have hdigit : c.isDigit = true := Nat.isDigit_of_mem_toDigits (by decide) (by decide) hmem
  simp [isNumberChar, Char.isAlphanum, hdigit]

theorem plain_boolText (b : Bool) : Plain (boolText b) := by
  cases b with
  | false => decide
  | true => decide

/-! Each kind of edit, with a text noted in the history behind what kind of change it was. -/

section Kinds

variable {note s : Text} {items : List Text}

theorem Num.admissible (n : Num) (hkey : IsKey key) (hnote : Plain note) :
    (Edit.line key n.text (note ++ n.text)).Admissible :=
  ⟨⟨hkey, n.plain, n.opens.visible, fun _ => n.opens⟩, plain_append.mpr ⟨hnote, n.plain⟩⟩

theorem boolText_admissible (b : Bool) (hkey : IsKey key) (hnote : Plain note) :
    (Edit.line key (boolText b) (note ++ boolText b)).Admissible := by
  have hopens : Opens (boolText b) := by
    cases b with
    | false => exact ⟨'f', _, rfl, by decide, by decide⟩
    | true => exact ⟨'t', _, rfl, by decide, by decide⟩
  exact ⟨⟨hkey, plain_boolText b, hopens.visible, fun _ => hopens⟩,
    plain_append.mpr ⟨hnote, plain_boolText b⟩⟩

theorem quoted_lineEdit (hkey : IsKey key) (hcoerced : key ∉ coercedKeys) (h : Plain s) :
    LineEdit key (quoted s) :=
  ⟨hkey, plain_quoted h, ⟨'\x22', mem_cons_self, by decide⟩, fun hmem => absurd hmem hcoerced⟩

theorem quoted_admissible (hkey : IsKey key) (hcoerced : key ∉ coercedKeys) (hnote : Plain note)
    (h : Plain s) : (Edit.line key (quoted s) (note ++ s)).Admissible :=
  ⟨quoted_lineEdit hkey hcoerced h, plain_append.mpr ⟨hnote, h⟩⟩

theorem bracketed_admissible (hkey : IsKey key) (hnote : Plain note)
    (h : ∀ s ∈ items, Plain s) :
    (Edit.line key (bracketed items) (note ++ bracketed items)).Admissible := by
  have hplain : Plain (bracketed items) := plain_bracketed h
  exact ⟨⟨hkey, hplain, (opens_bracketed items).visible, fun _ => opens_bracketed items⟩,
    plain_append.mpr ⟨hnote, hplain⟩⟩

end Kinds

theorem forall_mem_reduceOption {α : Type} {os : List (Option α)} {p : α → Prop} :
    (∀ x ∈ os.reduceOption, p x) ↔ ∀ o ∈ os, ∀ x ∈ o, p x := by
  simp only [reduceOption_mem_iff]
  constructor
  · intro h o ho x hx
    exact h x (hx ▸ ho)
  · intro h x hx
    exact h (some x) hx x rfl

theorem forall_mem_map {α : Type} {o : Option α} {f : α → Edit} {p : Edit → Prop} :
    (∀ e ∈ o.map f, p e) ↔ ∀ x ∈ o, p (f x) := by
  cases o with
  | none => simp
  | some x => simp

theorem DesignStage.plain (stage : DesignStage) : Plain stage.text := by
  cases stage with
  | pending => decide
  | discovery => decide
  | uxPlanning => decide
  | wireframeLayout => decide
  | visualSystemDefinition => decide
  | designApproval => decide
  | handoffComplete => decide

theorem Updates.PlainTexts.edits (H : Host) {u : Updates} (h : u.PlainTexts) :
    ∀ e ∈ u.edits H, e.Admissible := by
  have htexts := h.texts
  simp only [Updates.texts, forall_mem_append, Option.mem_toList] at htexts
  obtain ⟨⟨⟨⟨⟨⟨⟨⟨⟨⟨hstatus, haction⟩, hnext⟩, htask⟩, hreason⟩, hartifact⟩, hclass⟩, hstages⟩,
    hrouting⟩, hevents⟩, hscores⟩ := htexts
  rw [Updates.edits, forall_mem_reduceOption]
  simp only [forall_mem_cons, forall_mem_map]
  refine ⟨?_, ?_, ?_, ?_, ?_, ?_, ?_, ?_, ?_, ?_, ?_, ?_, ?_, ?_, ?_, ?_, ?_, ?_, ?_, ?_, ?_,
    forall_mem_nil _⟩
  · exact fun n _ => n.admissible (by decide) (by decide)
  · exact fun topic _ =>
      quoted_admissible (by decide) (by decide) (by decide) (plain_slugifyTopic H topic)
  · intro s hs
    have hplain : Plain s := hstatus s hs
    have hedit : LineEdit "status".toList s :=
      ⟨by decide, hplain, h.status s hs, fun hmem => absurd hmem (by decide)⟩
    exact ⟨hedit, plain_append.mpr ⟨by decide, hplain⟩⟩
  · exact fun s hs => ⟨quoted_lineEdit (by decide) (by decide) (haction s hs), haction s hs⟩
  · exact fun s hs => quoted_admissible (by decide) (by decide) (by decide) (hnext s hs)
  · intro items _
    have hcount : Plain (natText items.length) := plain_natText items.length
    exact plain_append.mpr ⟨plain_append.mpr ⟨by decide, hcount⟩, by decide⟩
  · exact fun b _ => boolText_admissible b (by decide) (by decide)
  · exact fun s hs => quoted_admissible (by decide) (by decide) (by decide) (htask s hs)
  · exact fun b _ => boolText_admissible b (by decide) (by decide)
  · exact fun stage _ => quoted_admissible (by decide) (by decide) (by decide) stage.plain
  · exact fun b _ => boolText_admissible b (by decide) (by decide)
  · exact fun b _ => boolText_admissible b (by decide) (by decide)
  · exact fun s hs => ⟨quoted_lineEdit (by decide) (by decide) (hreason s hs), by decide⟩
  · intro s hs
    have hedit : LineEdit "design_artifact".toList (singleQuoted s) :=
      ⟨by decide, plain_singleQuoted (hartifact s hs), ⟨'\x27', mem_cons_self, by decide⟩,
        fun hmem => absurd hmem (by decide)⟩
    exact ⟨hedit, by decide⟩
  · exact fun steps _ => bracketed_admissible (by decide) (by decide) (plain_numbers steps)
  · exact fun steps _ => bracketed_admissible (by decide) (by decide) (plain_numbers steps)
  · exact fun s hs => quoted_admissible (by decide) (by decide) (by decide) (hclass s hs)
  · intro stages hs
    have hplain : ∀ s ∈ stages, Plain s := by
      rw [Option.mem_def.mp hs] at hstages
      exact hstages
    exact bracketed_admissible (by decide) (by decide) hplain
  · exact fun s hs => quoted_admissible (by decide) (by decide) (by decide) (hrouting s hs)
  · intro events hs
    have hplain : Plain (escalationJson events).stringify := hevents _ (Option.mem_map_of_mem _ hs)
    have hvisible : Visible (escalationJson events).stringify :=
      ⟨'[', by simp [escalationJson, Json.stringify], by decide⟩
    have hcount : Plain (natText events.length) := plain_natText events.length
    exact ⟨⟨by decide, hplain, hvisible, fun hmem => absurd hmem (by decide)⟩,
      plain_append.mpr ⟨plain_append.mpr ⟨by decide, hcount⟩, by decide⟩⟩
  · intro scores hs
    have hplain : Plain scores.json.stringify := hscores _ (Option.mem_map_of_mem _ hs)
    have hvisible : Visible scores.json.stringify :=
      ⟨'\x7b', by simp [RoutingScores.json, Json.stringify], by decide⟩
    exact ⟨⟨by decide, hplain, hvisible, fun hmem => absurd hmem (by decide)⟩,
      plain_append.mpr ⟨by decide, (H.toFixed scores.total).plain⟩⟩

end PlanningState
