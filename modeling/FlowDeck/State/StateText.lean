import FlowDeck.Library.TextLines

/-! The texts of `STATE.md`: the patterns its lines are searched with and what a replacement puts in
place of a match. -/

namespace StateText

open TextLines

abbrev Text := List Char

/-! ### Characters -/

/-- A line terminator of the language: `^` and `$` with the m flag stand beside one, and `.`
matches none. -/
def isTerminator (c : Char) : Bool :=
  c = '\n' || c = '\r' || c = '\u2028' || c = '\u2029'

/-- A character of `\s`, and of what `trim` takes off. -/
def isSpace (c : Char) : Bool :=
  isTerminator c || c = ' ' || c = '\t' || c = '\u000b' || c = '\u000c' || c = '\u00a0' ||
    c = '\u1680' || ('\u2000' ≤ c && c ≤ '\u200a') || c = '\u202f' || c = '\u205f' ||
    c = '\u3000' || c = '\ufeff'

def trimEnd (s : Text) : Text := s.rdropWhile isSpace

def trim (s : Text) : Text := trimEnd (s.dropWhile isSpace)

/-! ### Matches and replacements -/

/-- A match in a text: what stands before it, the match, its group, and what follows. -/
structure Match where
  before : Text
  matched : Text
  group : Option Text
  after : Text

/-- What a replacement text stands for. -/
def expand (m : Match) : Text → Text
  | '$' :: '$' :: rest => '$' :: expand m rest
  | '$' :: '&' :: rest => m.matched ++ expand m rest
  | '$' :: '\x60' :: rest => m.before ++ expand m rest
  | '$' :: '\x27' :: rest => m.after ++ expand m rest
  | '$' :: '1' :: rest =>
    match m.group with
    | some group => group ++ expand m rest
    | none => '$' :: '1' :: expand m rest
  | '$' :: '0' :: '1' :: rest =>
    match m.group with
    | some group => group ++ expand m rest
    | none => '$' :: '0' :: '1' :: expand m rest
  | c :: rest => c :: expand m rest
  | [] => []

def Match.replace (m : Match) (replacement : Text) : Text :=
  m.before ++ expand m replacement ++ m.after

/-- The first match of a pattern that begins with `^` and has the m flag; `start` says whether a
line begins here. -/
def firstAtLine (here : Text → Option Match) : Bool → Text → Option Match
  | _, [] => none
  | start, c :: rest =>
    match if start then here (c :: rest) else none with
    | some m => some m
    | none =>
      (firstAtLine here (isTerminator c) rest).map fun m => { m with before := c :: m.before }

/-! ### `upsertLine` -/

/-- `key:\s*.*$` at the beginning of a text. -/
def lineOf (key s : Text) : Option Match :=
  if key ++ [':'] <+: s then
    let tail := s.drop (key.length + 1)
    let line := tail.dropWhile isSpace
    some {
      before := []
      matched := key ++ ':' :: (tail.takeWhile isSpace ++ line.takeWhile (!isTerminator ·))
      group := none
      after := line.dropWhile (!isTerminator ·) }
  else none

def upsertLine (current key value : Text) : Text :=
  match firstAtLine (lineOf key) true current with
  | some m => m.replace (key ++ ": ".toList ++ value)
  | none => trimEnd current ++ '\n' :: (key ++ ": ".toList ++ value ++ ['\n'])

/-! ### `appendHistory` -/

def historyHeading : Text := "## Session History".toList

def appendHistory (now stateContent action : Text) : Text :=
  let entry := "- ".toList ++ now ++ " — ".toList ++ action
  if historyHeading <:+: stateContent then
    let heading := '\n' :: (historyHeading ++ ['\n'])
    match splitAtFirst heading stateContent with
    | some (before, after) =>
      Match.replace ⟨before, heading, some heading, after⟩ ("$1".toList ++ entry ++ ['\n'])
    | none => stateContent
  else stateContent ++ '\n' :: (historyHeading ++ '\n' :: (entry ++ ['\n']))

/-! ### The section of blockers -/

def blockersHeading : Text := "## Blockers".toList

/-- `(?=\n##|\n#$)` -/
def headingAhead (s : Text) : Bool :=
  "\n##".toList.isPrefixOf s ||
    ("\n#".toList.isPrefixOf s && ((s.drop 2).head?.all isTerminator))

/-- What stands before the next heading. -/
def untilHeading : Text → Option (Text × Text)
  | [] => none
  | c :: rest =>
    if headingAhead (c :: rest) then some ([], c :: rest)
    else (untilHeading rest).map fun p => (c :: p.1, p.2)

/-- `## Blockers\n[\s\S]*?` up to the next heading, at the beginning of a text. -/
def blockersSection (s : Text) : Option Match :=
  if blockersHeading ++ ['\n'] <+: s then
    (untilHeading (s.drop (blockersHeading.length + 1))).map fun p =>
      ⟨[], blockersHeading ++ '\n' :: p.1, none, p.2⟩
  else none

def replaceBlockers (content : Text) (blockers : List Text) : Text :=
  let blockersMd :=
    if blockers.isEmpty then "- none".toList
    else join '\n' (blockers.map ("- ".toList ++ ·))
  match firstAtLine blockersSection true content with
  | some m => m.replace (blockersHeading ++ '\n' :: (blockersMd ++ ['\n']))
  | none => content

/-! ### Texts of one line -/

/-- No line terminator, and nothing a replacement reads as a pattern. -/
def Plain (s : Text) : Prop := ∀ c ∈ s, isTerminator c = false ∧ c ≠ '$'

instance (s : Text) : Decidable (Plain s) :=
  List.decidableBAll (fun c => isTerminator c = false ∧ c ≠ '$') s

/-- Something in the text is not a space. -/
def Visible (s : Text) : Prop := ∃ c ∈ s, isSpace c = false

instance (s : Text) : Decidable (Visible s) :=
  List.decidableBEx (fun c => isSpace c = false) s

end StateText

/-! What a search through the lines of `STATE.md` finds, line by line, and what the edits of the
file do to its lines. -/

namespace StateText

open TextLines

def OneLine (s : Text) : Prop := ∀ c ∈ s, isTerminator c = false

instance (s : Text) : Decidable (OneLine s) :=
  List.decidableBAll (fun c => isTerminator c = false) s

variable {s key l value : Text} {ls : List Text}

theorem Plain.oneLine (h : Plain s) : OneLine s := fun c hc => (h c hc).1

theorem Plain.noDollar (h : Plain s) : '$' ∉ s := fun hmem => (h '$' hmem).2 rfl

@[simp] theorem plain_nil : Plain [] := by simp [Plain]

theorem plain_cons {c : Char} : Plain (c :: s) ↔ (isTerminator c = false ∧ c ≠ '$') ∧ Plain s :=
  List.forall_mem_cons

theorem plain_append {t : Text} : Plain (s ++ t) ↔ Plain s ∧ Plain t :=
  List.forall_mem_append

theorem OneLine.noFeed (h : OneLine s) : '\n' ∉ s := by
  intro hmem
  have hterminator := h '\n' hmem
  simp [isTerminator] at hterminator

/-! ### Replacements -/

/-- A text without a dollar sign stands for itself. -/
theorem expand_of_noDollar (m : Match) {s : Text} (h : '$' ∉ s) : expand m s = s := by
  induction s with
  | nil => rfl
  | cons c rest ih =>
    have hc : c ≠ '$' := fun heq => h (heq ▸ List.mem_cons_self)
    have hrest : '$' ∉ rest := fun hmem => h (List.mem_cons_of_mem _ hmem)
    rw [expand]
    · rw [ih hrest]
    all_goals
      intros
      exact absurd ‹c = '$'› hc

theorem Match.replace_of_noDollar (m : Match) {s : Text} (h : '$' ∉ s) :
    m.replace s = m.before ++ s ++ m.after := by
  rw [Match.replace, expand_of_noDollar m h]

/-- `$1` stands for the group. -/
theorem Match.replace_group (before matched group after : Text) {s : Text} (h : '$' ∉ s) :
    Match.replace ⟨before, matched, some group, after⟩ ("$1".toList ++ s) =
      before ++ (group ++ s) ++ after := by
  have hgroup : expand ⟨before, matched, some group, after⟩ ("$1".toList ++ s) =
      group ++ expand ⟨before, matched, some group, after⟩ s := rfl
  rw [Match.replace, hgroup, expand_of_noDollar _ h]

/-! ### Searches line by line -/

section Lines

variable {here : Text → Option Match}

variable {l : Text}

theorem firstAtLine_within (rest : Text) (hl : OneLine l) :
    firstAtLine here false (l ++ '\n' :: rest) =
      (firstAtLine here true rest).map fun m => { m with before := l ++ '\n' :: m.before } := by
  induction l with
  | nil => rfl
  | cons c l ih =>
    have hc : isTerminator c = false := hl c List.mem_cons_self
    have hrest : OneLine l := fun d hd => hl d (List.mem_cons_of_mem _ hd)
    rw [List.cons_append, firstAtLine, hc, ih hrest]
    cases firstAtLine here true rest with
    | none => rfl
    | some m => rfl

theorem firstAtLine_skip (rest : Text) (hl : OneLine l) (hnone : here (l ++ '\n' :: rest) = none) :
    firstAtLine here true (l ++ '\n' :: rest) =
      (firstAtLine here true rest).map fun m => { m with before := l ++ '\n' :: m.before } := by
  cases l with
  | nil =>
    have hfirst : here ('\n' :: rest) = none := hnone
    simp only [List.nil_append, firstAtLine, if_true, hfirst]
    rfl
  | cons c l =>
    have hc : isTerminator c = false := hl c List.mem_cons_self
    have hrest : OneLine l := fun d hd => hl d (List.mem_cons_of_mem _ hd)
    have hfirst : here (c :: (l ++ '\n' :: rest)) = none := hnone
    simp only [List.cons_append, firstAtLine, if_true, hfirst, hc]
    rw [firstAtLine_within rest hrest]
    cases firstAtLine here true rest with
    | none => rfl
    | some m => rfl

theorem firstAtLine_last (hl : OneLine l) : firstAtLine here false l = none := by
  induction l with
  | nil => rfl
  | cons c l ih =>
    have hc : isTerminator c = false := hl c List.mem_cons_self
    have hrest : OneLine l := fun d hd => hl d (List.mem_cons_of_mem _ hd)
    simp [firstAtLine, hc, ih hrest]

/-- Nothing is found where nothing is found at any line. -/
theorem firstAtLine_join_none {ls : List Text} (hls : ∀ l ∈ ls, OneLine l)
    (hnone : ∀ l ∈ ls, ∀ rest, here (join '\n' (l :: rest)) = none) :
    firstAtLine here true (join '\n' ls) = none := by
  induction ls with
  | nil => rfl
  | cons l ls ih =>
    have hl : OneLine l := hls l List.mem_cons_self
    cases ls with
    | nil =>
      have hhere : here l = none := hnone l List.mem_cons_self []
      cases l with
      | nil => rfl
      | cons c l =>
        have hc : isTerminator c = false := hl c List.mem_cons_self
        have hrest : OneLine l := fun d hd => hl d (List.mem_cons_of_mem _ hd)
        simp [firstAtLine, hhere, hc, firstAtLine_last hrest]
    | cons m ls =>
      have hhere : here (l ++ '\n' :: join '\n' (m :: ls)) = none :=
        hnone l List.mem_cons_self (m :: ls)
      have hrest : firstAtLine here true (join '\n' (m :: ls)) = none :=
        ih (fun k hk => hls k (List.mem_cons_of_mem _ hk))
          (fun k hk => hnone k (List.mem_cons_of_mem _ hk))
      rw [join_cons_cons, firstAtLine_skip _ hl hhere, hrest]
      rfl

end Lines

/-! ### The line of a key -/

/-- The line begins with the key and a colon. -/
def HasKey (key l : Text) : Prop := key ++ [':'] <+: l

instance (key l : Text) : Decidable (HasKey key l) :=
  inferInstanceAs (Decidable (key ++ [':'] <+: l))

theorem hasKey_iff : HasKey key l ↔ ∃ value, l = key ++ ':' :: value := by
  constructor
  · intro h
    obtain ⟨value, rfl⟩ := h
    exact ⟨value, by simp⟩
  · intro h
    obtain ⟨value, rfl⟩ := h
    exact ⟨value, by simp⟩

/-- What is left of the text behind its first line. -/
def behind : List Text → Text
  | [] => []
  | ls => '\n' :: join '\n' ls

theorem join_cons_eq (l : Text) (ls : List Text) : join '\n' (l :: ls) = l ++ behind ls := by
  cases ls with
  | nil => simp [behind]
  | cons m ls => rfl

theorem lineOf_none (hkey : '\n' ∉ key) (h : ¬ HasKey key l) :
    lineOf key (join '\n' (l :: ls)) = none := by
  have hfeed : '\n' ∉ key ++ [':'] := by simpa using hkey
  have hnot : ¬ key ++ [':'] <+: join '\n' (l :: ls) := fun hpre => h ((prefix_join ls hfeed).mp hpre)
  rw [lineOf, if_neg hnot]

theorem dropWhile_line (p : Char → Bool) {s : Text} (ls : List Text) (h : ∀ c ∈ s, p c = true)
    (hfeed : p '\n' = false) :
    (s ++ behind ls).takeWhile p = s ∧ (s ++ behind ls).dropWhile p = behind ls := by
  rw [List.takeWhile_append_of_pos h, List.dropWhile_append_of_pos h]
  cases ls with
  | nil => simp [behind]
  | cons m ls => simp [behind, hfeed]

theorem lineOf_some (ls : List Text) (hline : OneLine value) (hvisible : Visible value) :
    lineOf key (join '\n' ((key ++ ':' :: value) :: ls)) =
      some ⟨[], key ++ ':' :: value, none, behind ls⟩ := by
  have hpre : key ++ [':'] <+: join '\n' ((key ++ ':' :: value) :: ls) := by
    rw [join_cons_eq]
    exact ⟨value ++ behind ls, by simp⟩
  have htail : (join '\n' ((key ++ ':' :: value) :: ls)).drop (key.length + 1) =
      value ++ behind ls := by
    rw [join_cons_eq, List.append_assoc, List.drop_append]
    simp
  have hblank : value.dropWhile isSpace ≠ [] := by
    obtain ⟨c, hc, hspace⟩ := hvisible
    intro hnil
    have hall := List.dropWhile_eq_nil_iff.mp hnil c hc
    rw [hspace] at hall
    cases hall
  have hdrop : (value ++ behind ls).dropWhile isSpace = value.dropWhile isSpace ++ behind ls := by
    rw [List.dropWhile_append, if_neg (by simpa using hblank)]
  have htake : (value ++ behind ls).takeWhile isSpace = value.takeWhile isSpace := by
    have hlt : (value.takeWhile isSpace).length ≠ value.length := by
      intro heq
      have hsplit := congrArg List.length (List.takeWhile_append_dropWhile (p := isSpace) (l := value))
      rw [List.length_append, heq] at hsplit
      have hzero : (value.dropWhile isSpace).length = 0 := by omega
      exact hblank (List.length_eq_zero_iff.mp hzero)
    rw [List.takeWhile_append, if_neg hlt]
  have hrest : ∀ c ∈ value.dropWhile isSpace, (!isTerminator c) = true := by
    intro c hc
    have hmem : c ∈ value := (List.dropWhile_sublist _).subset hc
    simp [hline c hmem]
  obtain ⟨hword, hafter⟩ := dropWhile_line (!isTerminator ·) ls hrest (by decide)
  rw [lineOf, if_pos hpre]
  simp only [htail, hdrop, htake, hword, hafter, List.takeWhile_append_dropWhile]

/-- The lines with the first one of a key written anew. -/
def setLine (key value : Text) : List Text → List Text
  | [] => []
  | l :: ls =>
    if HasKey key l then (key ++ ": ".toList ++ value) :: ls else l :: setLine key value ls

theorem setLine_ne_nil (h : ls ≠ []) : setLine key value ls ≠ [] := by
  cases ls with
  | nil => exact absurd rfl h
  | cons l ls =>
    rw [setLine]
    split
    · simp
    · simp

theorem firstAtLine_keyed {here : Text → Option Match}
    (hnone : ∀ l rest, ¬ HasKey key l → here (join '\n' (l :: rest)) = none)
    (hsome : ∀ old rest, OneLine old → Visible old → here (join '\n' ((key ++ ':' :: old) :: rest)) =
      some ⟨[], key ++ ':' :: old, none, behind rest⟩) (hls : ∀ l ∈ ls, OneLine l)
    (hvisible : ∀ value, key ++ ':' :: value ∈ ls → Visible value) (hhas : ∃ l ∈ ls, HasKey key l) :
    ∃ m, firstAtLine here true (join '\n' ls) = some m ∧
      ∀ value, m.before ++ (key ++ ": ".toList ++ value) ++ m.after =
        join '\n' (setLine key value ls) := by
  induction ls with
  | nil =>
    obtain ⟨l, hl, -⟩ := hhas
    cases hl
  | cons l ls ih =>
    have hl : OneLine l := hls l List.mem_cons_self
    by_cases hfirst : HasKey key l
    · obtain ⟨old, rfl⟩ := hasKey_iff.mp hfirst
      have hold : OneLine old := fun c hc => hl c (by simp [hc])
      have hfound : here (join '\n' ((key ++ ':' :: old) :: ls)) =
          some ⟨[], key ++ ':' :: old, none, behind ls⟩ :=
        hsome old ls hold (hvisible old List.mem_cons_self)
      refine ⟨⟨[], key ++ ':' :: old, none, behind ls⟩, ?_, ?_⟩
      · have hne : join '\n' ((key ++ ':' :: old) :: ls) ≠ [] := by
          rw [join_cons_eq]
          simp
        obtain ⟨c, rest, htext⟩ := List.exists_cons_of_ne_nil hne
        rw [htext] at hfound ⊢
        simp only [firstAtLine, if_true, hfound]
      · intro value
        rw [setLine, if_pos hfirst, join_cons_eq]
        rfl
    · obtain ⟨k, hk, hkHas⟩ := hhas
      have hmore : k ∈ ls := by
        rcases List.mem_cons.mp hk with heq | hmem
        · exact absurd (heq ▸ hkHas) hfirst
        · exact hmem
      have hls' : ls ≠ [] := List.ne_nil_of_mem hmore
      obtain ⟨m, hm, hset⟩ := ih (fun d hd => hls d (List.mem_cons_of_mem _ hd))
        (fun value hv => hvisible value (List.mem_cons_of_mem _ hv)) ⟨k, hmore, hkHas⟩
      refine ⟨{ m with before := l ++ '\n' :: m.before }, ?_, ?_⟩
      · have hrest : here (l ++ '\n' :: join '\n' ls) = none := by
          rw [← join_cons l hls']
          exact hnone l ls hfirst
        rw [join_cons l hls', firstAtLine_skip _ hl hrest, hm]
        rfl
      · intro value
        rw [setLine, if_neg hfirst, join_cons l (setLine_ne_nil hls'), ← hset value]
        simp

/-- Where a line has the key, that line is written anew and the others stay. -/
theorem upsertLine_join (hkey : Plain key) (hvalue : Plain value) (hls : ∀ l ∈ ls, OneLine l)
    (hvisible : ∀ old, key ++ ':' :: old ∈ ls → Visible old) (hhas : ∃ l ∈ ls, HasKey key l) :
    upsertLine (join '\n' ls) key value = join '\n' (setLine key value ls) := by
  obtain ⟨m, hm, hset⟩ := firstAtLine_keyed (fun l rest => lineOf_none hkey.oneLine.noFeed)
    (fun old rest => lineOf_some rest) hls hvisible hhas
  have hdollar : '$' ∉ key ++ ": ".toList ++ value := by
    simp [hkey.noDollar, hvalue.noDollar]
  rw [upsertLine, hm]
  exact (m.replace_of_noDollar hdollar).trans (hset value)

theorem upsertLine_join_new (hkey : '\n' ∉ key) (hls : ∀ l ∈ ls, OneLine l)
    (hnone : ∀ l ∈ ls, ¬ HasKey key l) :
    upsertLine (join '\n' ls) key value =
      trimEnd (join '\n' ls) ++ '\n' :: (key ++ ": ".toList ++ value ++ ['\n']) := by
  have hfind : firstAtLine (lineOf key) true (join '\n' ls) = none :=
    firstAtLine_join_none hls fun l hl rest => lineOf_none hkey (hnone l hl)
  rw [upsertLine, hfind]

/-- The lines up to one that ends in no space stay, those behind it lose at most spaces. -/
theorem trimEnd_join {x : Text} (hx : x ≠ []) (hend : trimEnd x = x) (before after : List Text) :
    ∃ kept, trimEnd (join '\n' (before ++ x :: after)) = join '\n' (before ++ x :: kept) ∧
      ∀ l ∈ kept, ∃ m ∈ after, l = m ∨ l = trimEnd m :=
  rdropWhile_join isSpace (by decide) hx hend before after

/-! ### The history and the blockers -/

theorem historyHeading_oneLine : OneLine historyHeading := by decide

/-- An entry goes below the heading, or the heading and the entry are added at the end; a heading
that is not a line of its own takes no entry. -/
theorem appendHistory_join {now action : Text} (hne : ls ≠ []) (hls : ∀ l ∈ ls, OneLine l)
    (hnow : Plain now) (haction : Plain action) :
    (∃ before after, before ≠ [] ∧ ls = before ++ historyHeading :: after ∧
      appendHistory now (join '\n' ls) action = join '\n' (before ++ historyHeading ::
        ("- ".toList ++ now ++ " — ".toList ++ action) :: after)) ∨
    appendHistory now (join '\n' ls) action = join '\n' ls ∨
    appendHistory now (join '\n' ls) action = join '\n' (ls ++ [historyHeading,
      "- ".toList ++ now ++ " — ".toList ++ action, []]) := by
  have hfeed : ∀ l ∈ ls, '\n' ∉ l := fun l hl => (hls l hl).noFeed
  have hsearch := splitAtFirst_join historyHeading_oneLine.noFeed hfeed
  by_cases hheading : historyHeading <:+: join '\n' ls
  · cases hsplit : splitAtLine historyHeading ls with
    | none =>
      refine Or.inr (Or.inl ?_)
      rw [appendHistory]
      simp only [if_pos hheading, hsearch, hsplit, Option.map_none]
    | some parts =>
      obtain ⟨hparts, hbefore, hafter⟩ := splitAtLine_parts hsplit
      refine Or.inl ⟨parts.1, parts.2, hbefore, hparts, ?_⟩
      have hdollar : '$' ∉ "- ".toList ++ now ++ " — ".toList ++ action ++ ['\n'] := by
        simp [hnow.noDollar, haction.noDollar]
      rw [appendHistory]
      simp only [if_pos hheading, hsearch, hsplit, Option.map_some]
      rw [List.append_assoc "$1".toList, Match.replace_group _ _ _ _ hdollar,
        join_append hbefore (List.cons_ne_nil _ _), join_cons _ (List.cons_ne_nil _ _),
        join_cons _ hafter]
      simp
  · refine Or.inr (Or.inr ?_)
    rw [appendHistory]
    simp only [if_neg hheading]
    rw [join_append hne (List.cons_ne_nil _ _)]
    simp [join]

theorem blockersHeading_oneLine : OneLine blockersHeading := by decide

theorem replaceBlockers_join (blockers : List Text) (hls : ∀ l ∈ ls, OneLine l)
    (hnone : blockersHeading ∉ ls) : replaceBlockers (join '\n' ls) blockers = join '\n' ls := by
  have hfind : firstAtLine blockersSection true (join '\n' ls) = none := by
    refine firstAtLine_join_none hls ?_
    intro l hl rest
    have hnot : ¬ blockersHeading ++ ['\n'] <+: join '\n' (l :: rest) := by
      intro hpre
      have hline := (line_prefix_join rest blockersHeading_oneLine.noFeed (hls l hl).noFeed).mp hpre
      exact hnone (hline.1 ▸ hl)
    rw [blockersSection, if_neg hnot]
  rw [replaceBlockers, hfind]

end StateText
