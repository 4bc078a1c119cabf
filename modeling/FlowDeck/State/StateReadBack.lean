import FlowDeck.State.StateUpdates

/-! What `readPlanningState` gives back of what was written: the values of the front matter come
back as texts, whatever type their field has. -/

namespace PlanningState

open StateText TextLines List

/-! ### Reading a file of the shape -/

def IsLowerKey : Text → Prop
  | [] => False
  | c :: rest => isLowerStart c = true ∧ ∀ d ∈ rest, isLowerChar d = true

instance : DecidablePred IsLowerKey
  | [] => inferInstanceAs (Decidable False)
  | _ :: rest => @instDecidableAnd _ _ _ (decidableBAll (fun d => isLowerChar d = true) rest)

theorem coercedKeys_lower : ∀ key ∈ coercedKeys, IsLowerKey key := by decide +kernel

theorem coercedKeys_front : ∀ key ∈ coercedKeys, key ∈ frontKeys := by decide +kernel

theorem frontValue_opens {value : Text} (hplain : Plain value) (hopens : Opens value) :
    frontValue (' ' :: value) = some value := by
  obtain ⟨c, rest, rfl, hspace, -⟩ := hopens
  have hdrop : (' ' :: c :: rest).dropWhile isSpace = c :: rest := by
    rw [dropWhile_cons_of_pos (by decide), dropWhile_cons_of_neg (by simp [hspace])]
  have htake : (c :: rest).takeWhile (!isTerminator ·) = c :: rest := by
    apply takeWhile_eq_self_iff.mpr
    intro d hd
    simp [(hplain d hd).1]
  simp only [frontValue, hdrop, htake]

theorem frontEntry_opens {key value : Text} (hkey : IsLowerKey key) (hplain : Plain value)
    (hopens : Opens value) : ∃ read, frontEntry (keyLine key value) = some (key, read) ∧
      ReadAsText read := by
  cases key with
  | nil => exact absurd hkey id
  | cons c key =>
    have hsplit : splitKey isLowerStart isLowerChar (keyLine (c :: key) value) =
        some (c :: key, ' ' :: value) := by
      rw [keyLine_eq, cons_append]
      exact splitKey_line hkey.1 hkey.2 (by decide)
    obtain ⟨htrim, htrimSub⟩ := trim_opens hopens
    obtain ⟨hunquote, hunquoteSub⟩ := unquote_opens htrim
    refine ⟨textValue (unquote (trim value)), ?_, unquote (trim value), rfl, ?_, hunquote⟩
    · simp only [frontEntry, hsplit, frontValue_opens hplain hopens, Option.map_some]
    · exact plain_of_subset (Subset.trans hunquoteSub htrimSub) hplain

theorem isKeyChar_lower {c : Char} (h : isLowerStart c = true ∨ isLowerChar c = true) :
    isKeyChar c = true := by
  simp only [isLowerStart, isLowerChar, Bool.or_eq_true, decide_eq_true_eq] at h
  have halpha : c.isAlpha = (c.isUpper || c.isLower) := rfl
  simp only [isKeyChar, Char.isAlphanum, halpha, Bool.or_eq_true, decide_eq_true_eq]
  tauto

theorem frontEntry_key {key value key' : Text} {read : Json} (hkey : IsKey key)
    (h : frontEntry (keyLine key value) = some (key', read)) : key' = key := by
  unfold frontEntry at h
  split at h
  · next k rest hsplit =>
      obtain ⟨hline, hne, hchars⟩ := splitKey_parts hsplit
      obtain ⟨v, -, heq⟩ := Option.map_eq_some_iff.mp h
      have hk : IsKey k := ⟨hne, fun c hc => isKeyChar_lower (hchars c hc)⟩
      rw [keyLine_eq] at hline
      have hsame : key = k := (key_unique hkey hk hline).1
      rw [hsame]
      exact ((Prod.mk.inj heq).1).symm
  · cases h

theorem setLines_front {front : List (Text × Text)} {key : Text} (result : Parsed)
    (hvalues : ∀ e ∈ front, FrontValue e) (hkey : key ∈ coercedKeys)
    (h : key ∈ front.map Prod.fst ∨ ReadAsText (result key)) :
    ReadAsText (setLines frontEntry (front.map fun e => keyLine e.1 e.2) result key) := by
  induction front generalizing result with
  | nil =>
    rcases h with hmem | hread
    · cases hmem
    · exact hread
  | cons e front ih =>
    have he : FrontValue e := hvalues e mem_cons_self
    have hrest : ∀ d ∈ front, FrontValue d := fun d hd => hvalues d (mem_cons_of_mem _ hd)
    by_cases hsame : e.1 = key
    · have hlower : IsLowerKey e.1 := coercedKeys_lower _ (hsame ▸ hkey)
      obtain ⟨read, hentry, hread⟩ := frontEntry_opens hlower he.plain (he.opens (hsame ▸ hkey))
      have hset : ReadAsText (Function.update result e.1 read key) := by
        rw [hsame, Function.update_self]
        exact hread
      have hmore := ih (Function.update result e.1 read) hrest (Or.inr hset)
      simpa [setLines, hentry] using hmore
    · cases hentry : frontEntry (keyLine e.1 e.2) with
      | none =>
        have hmore := ih result hrest (by
          rcases h with hmem | hread
          · exact Or.inl ((mem_cons.mp hmem).resolve_left (Ne.symm hsame))
          · exact Or.inr hread)
        simpa [setLines, hentry] using hmore
      | some entry =>
        have hown : entry.1 = e.1 := frontEntry_key (frontKeys_isKey _ he.key) hentry
        have hother : Function.update result entry.1 entry.2 key = result key :=
          Function.update_of_ne (hown ▸ Ne.symm hsame) _ _
        have hmore := ih (Function.update result entry.1 entry.2) hrest (by
          rcases h with hmem | hread
          · exact Or.inl ((mem_cons.mp hmem).resolve_left (Ne.symm hsame))
          · exact Or.inr (hother ▸ hread))
        simpa [setLines, hentry] using hmore

theorem bodyEntry_key {H : Host} {l key : Text} {read : Json} (h : bodyEntry H l = some (key, read)) :
    IsKey key ∧ ∃ value, l = key ++ ':' :: value := by
  unfold bodyEntry at h
  split at h
  · cases h
  · split at h
    · next k rest hsplit =>
        obtain ⟨hline, hne, hchars⟩ := splitKey_parts hsplit
        have hkey : k = key := by
          simp only [Option.some.injEq, Prod.mk.injEq] at h
          exact h.1
        have hk : IsKey k := by
          refine ⟨hne, ?_⟩
          intro c hc
          rcases hchars c hc with hstart | hchar
          · simp only [isKeyStart, Bool.or_eq_true] at hstart
            simp only [isKeyChar, Char.isAlphanum, Bool.or_eq_true]
            tauto
          · exact hchar
        exact ⟨hkey ▸ hk, rest, hkey ▸ hline⟩
    · cases h

theorem setLines_body (H : Host) {body : List Text} {key : Text} (result : Parsed)
    (hbody : ∀ l ∈ body, BodyLine l) (hkey : key ∈ frontKeys) :
    setLines (bodyEntry H) body result key = result key := by
  induction body generalizing result with
  | nil => rfl
  | cons l body ih =>
    have hl : BodyLine l := hbody l mem_cons_self
    have hrest : ∀ k ∈ body, BodyLine k := fun k hk => hbody k (mem_cons_of_mem _ hk)
    cases hentry : bodyEntry H l with
    | none => simpa [setLines, hentry] using ih result hrest
    | some entry =>
      obtain ⟨own, read⟩ := entry
      obtain ⟨hown, value, hline⟩ := bodyEntry_key hentry
      have hother : key ≠ own := fun heq => (hl.keyed own value hown hline).1 (heq ▸ hkey)
      have hmore := ih (Function.update result own read) hrest
      rw [Function.update_of_ne hother] at hmore
      simpa [setLines, hentry] using hmore

theorem frontMatter_fileLines {front : List (Text × Text)} {body : List Text}
    (h : Shape front body) : frontMatter (join '\n' (fileLines front body)) =
      some (join '\n' (front.map fun e => keyLine e.1 e.2), join '\n' body) := by
  have hfront : front ≠ [] := by
    intro hnil
    have hkeys := h.keys
    rw [hnil] at hkeys
    cases hkeys
  obtain ⟨e, front', rfl⟩ := exists_cons_of_ne_nil hfront
  have hrest : (e :: front').map (fun e => keyLine e.1 e.2) ++ dashes :: body ≠ [] := by simp
  have hdashes : dashes ∉ front'.map fun e => keyLine e.1 e.2 := by
    intro hmem
    obtain ⟨d, -, heq⟩ := mem_map.mp hmem
    have hcolon : ':' ∈ dashes := by
      rw [← heq, keyLine_eq]
      simp
    revert hcolon
    decide
  have hlines : ∀ l ∈ (e :: front').map (fun e => keyLine e.1 e.2) ++ dashes :: body, '\n' ∉ l :=
    fun l hl => (h.oneLines l (mem_cons_of_mem _ hl)).noFeed
  have hsearch := splitAtFirst_join (h := dashes) (by decide) hlines
  rw [map_cons, cons_append, splitAtLine_first hdashes h.nonempty] at hsearch
  have hopen : "---\n".toList <+: join '\n' (fileLines (e :: front') body) := by
    rw [fileLines, join_cons _ hrest]
    exact ⟨_, rfl⟩
  have hdrop : (join '\n' (fileLines (e :: front') body)).drop 4 =
      join '\n' ((e :: front').map (fun e => keyLine e.1 e.2) ++ dashes :: body) := by
    rw [fileLines, join_cons _ hrest]
    rfl
  rw [frontMatter, if_pos hopen, hdrop]
  exact hsearch

theorem Shaped.readAsText (H : Host) {content key : Text} (h : Shaped content)
    (hkey : key ∈ coercedKeys) : ReadAsText (parseState H content key) := by
  obtain ⟨front, body, hshape, rfl⟩ := h
  have hexists : key ≠ "exists".toList := by
    have hall : ∀ key ∈ coercedKeys, key ≠ "exists".toList := by decide +kernel
    exact hall key hkey
  have hmem : key ∈ front.map Prod.fst := hshape.keys ▸ coercedKeys_front key hkey
  have hfront : (front.map fun e => keyLine e.1 e.2) ≠ [] := by
    intro hnil
    rw [map_eq_nil_iff] at hnil
    rw [hnil] at hmem
    cases hmem
  have hfrontFeed : ∀ l ∈ front.map (fun e => keyLine e.1 e.2), '\n' ∉ l := fun l hl =>
    (hshape.oneLines l (by simp only [fileLines, mem_cons, mem_append]; tauto)).noFeed
  have hbodyFeed : ∀ l ∈ body, '\n' ∉ l := fun l hl => ((hshape.lines l hl).plain.oneLine).noFeed
  rw [parseState, Function.update_of_ne hexists]
  simp only [frontMatter_fileLines hshape, splitOn_join hfront hfrontFeed,
    splitOn_join hshape.nonempty hbodyFeed]
  rw [setLines_body H _ hshape.lines (coercedKeys_front key hkey)]
  exact setLines_front _ hshape.values hkey (Or.inl hmem)

/-! ### Runs of updates -/

/-- The front matter that a file is created with. -/
def createdFront (phase : Num) (now : Stamp) : List (Text × Text) :=
  [("phase".toList, phase.text), ("status".toList, "ready".toList),
    ("plan_confirmed".toList, "false".toList), ("requires_design_first".toList, "false".toList),
    ("design_stage".toList, "pending".toList), ("design_approved".toList, "false".toList),
    ("design_override".toList, "false".toList), ("steps_complete".toList, "[]".toList),
    ("steps_pending".toList, "[]".toList), ("last_action".toList, "\"initialized\"".toList),
    ("next_action".toList, "\"run /fd-task\"".toList), ("blockers".toList, "[]".toList),
    ("freshnessStatus".toList, "\"fresh\"".toList), ("lastUpdatedAt".toList, quoted now.text),
    ("lastUpdatedBy".toList, "\"system\"".toList), ("lastUpdatedPhase".toList, phase.text),
    ("summaryVersion".toList, "1".toList)]

instance (s : Text) : Decidable (Opens s) :=
  decidable_of_iff (s.head?.any fun c => !isSpace c && !isQuote c) (by
    cases s with
    | nil => simp [Opens]
    | cons c rest => simp [Opens])

instance (e : Text × Text) : Decidable (FrontValue e) :=
  decidable_of_iff (e.1 ∈ frontKeys ∧ Plain e.2 ∧ Visible e.2 ∧ (e.1 ∈ coercedKeys → Opens e.2))
    ⟨fun h => ⟨h.1, h.2.1, h.2.2.1, h.2.2.2⟩, fun h => ⟨h.key, h.plain, h.visible, h.opens⟩⟩

theorem frontValue_number (key : Text) (n : Num) (hkey : key ∈ frontKeys) :
    FrontValue (key, n.text) :=
  ⟨hkey, n.plain, n.opens.visible, fun _ => n.opens⟩

theorem frontValue_quoted (key : Text) {s : Text} (hs : Plain s) (hkey : key ∈ frontKeys)
    (hcoerced : key ∉ coercedKeys) : FrontValue (key, quoted s) :=
  ⟨hkey, plain_quoted hs, ⟨'\x22', mem_cons_self, by decide⟩,
    fun hmem => absurd hmem hcoerced⟩

theorem createdFront_values (phase : Num) (now : Stamp) :
    ∀ e ∈ createdFront phase now, FrontValue e := by
  have hphase := frontValue_number "phase".toList phase (by decide +kernel)
  have hlast := frontValue_number "lastUpdatedPhase".toList phase (by decide +kernel)
  have hnow := frontValue_quoted "lastUpdatedAt".toList now.plain (by decide +kernel)
    (by decide +kernel)
  intro e he
  simp only [createdFront, mem_cons, not_mem_nil, or_false] at he
  rcases he with rfl | rfl | rfl | rfl | rfl | rfl | rfl | rfl | rfl | rfl | rfl | rfl | rfl | rfl |
    rfl | rfl | rfl
  · exact hphase
  · decide +kernel
  · decide +kernel
  · decide +kernel
  · decide +kernel
  · decide +kernel
  · decide +kernel
  · decide +kernel
  · decide +kernel
  · decide +kernel
  · decide +kernel
  · decide +kernel
  · decide +kernel
  · exact hnow
  · decide +kernel
  · exact hlast
  · decide +kernel

theorem BodyLine.initialized (now : Stamp) : BodyLine ("Initialized at ".toList ++ now.text) where
  plain := plain_append.mpr ⟨by decide, now.plain⟩
  heading := by
    intro hpre
    have hhash : '#' = 'I' := (cons_prefix_cons.mp hpre).1
    cases hhash
  keyed := by
    intro key value hkey heq
    have hafter : (key ++ ':' :: value).dropWhile isKeyChar = ':' :: value := by
      rw [dropWhile_append_of_pos hkey.chars, dropWhile_cons_of_neg (by decide)]
    rw [← heq] at hafter
    have hblank : ' ' = ':' := (cons.inj hafter).1
    cases hblank

def createdBody (now : Stamp) : List Text :=
  [[], "# Planning State".toList, [], "Initialized at ".toList ++ now.text]

theorem createDefaultState_eq (phase : Num) (now : Stamp) : createDefaultState phase now =
    join '\n' (fileLines (createdFront phase now) (createdBody now)) := by
  refine congrArg (join '\n') ?_
  simp only [fileLines, createdFront, map_cons, map_nil, cons_append, nil_append, cons.injEq]
  refine ⟨?_, ?_, ?_, ?_, ?_, ?_, ?_, ?_, ?_, ?_, ?_, ?_, ?_, ?_, ?_, ?_, ?_, ?_, ?_, ?_⟩
  all_goals rfl

theorem Shaped.created (phase : Num) (now : Stamp) : Shaped (createDefaultState phase now) := by
  refine ⟨createdFront phase now, createdBody now,
    ⟨rfl, createdFront_values phase now, ?_, cons_ne_nil _ _⟩, createDefaultState_eq phase now⟩
  intro l hl
  simp only [createdBody, mem_cons, not_mem_nil, or_false] at hl
  rcases hl with rfl | rfl | rfl | rfl
  · exact BodyLine.blank
  · exact BodyLine.of_head (by decide) (by decide) (by decide)
  · exact BodyLine.blank
  · exact BodyLine.initialized now

theorem Shaped.applyEdit {content : Text} {e : Edit} (now : Stamp) (h : Shaped content)
    (he : e.Admissible) : Shaped (applyEdit now content e) := by
  cases e with
  | line key value action =>
    have hwritten : Shaped (StateText.upsertLine content key value) := h.upsertLine he.1
    exact hwritten.appendHistory now.plain he.2
  | blockers items action =>
    have hsame : StateText.replaceBlockers content items = content := h.replaceBlockers items
    rw [PlanningState.applyEdit, hsame]
    exact h.appendHistory now.plain he

theorem Shaped.applyEdits {content : Text} (clock : Nat → Stamp) (edits : List (Edit × Nat))
    (h : Shaped content) (hedits : ∀ e ∈ edits, e.1.Admissible) :
    Shaped (edits.foldl (fun content e => PlanningState.applyEdit (clock e.2) content e.1)
      content) := by
  induction edits generalizing content with
  | nil => exact h
  | cons e edits ih =>
    have hfirst : Shaped (PlanningState.applyEdit (clock e.2) content e.1) :=
      h.applyEdit (clock e.2) (hedits e mem_cons_self)
    exact ih hfirst fun d hd => hedits d (mem_cons_of_mem _ hd)

theorem Shaped.upsertLines {content : Text} (lines : List (Text × Text)) (h : Shaped content)
    (hlines : ∀ line ∈ lines, LineEdit line.1 line.2) :
    Shaped (lines.foldl (fun content line => StateText.upsertLine content line.1 line.2)
      content) := by
  induction lines generalizing content with
  | nil => exact h
  | cons line lines ih =>
    have hfirst : Shaped (StateText.upsertLine content line.1 line.2) :=
      h.upsertLine (hlines line mem_cons_self)
    exact ih hfirst fun d hd => hlines d (mem_cons_of_mem _ hd)

theorem ReadAsText.truthy {value : Json} (h : ReadAsText value) : truthy value = true := by
  obtain ⟨s, rfl, -, c, rest, rfl, -, -⟩ := h
  simp [textValue, PlanningState.truthy]

theorem ReadAsText.orElse {value : Json} (h : ReadAsText value) (otherwise : Json) :
    orElse value otherwise = value := by
  rw [PlanningState.orElse, if_pos h.truthy]

/-- The phase that an update prints is the one of the front matter. -/
theorem Shaped.printedPhase (H : Host) {content : Text} (h : Shaped content) :
    Plain (printed (orElse (parseState H content "phase".toList) (.number "1"))) ∧
      Opens (printed (orElse (parseState H content "phase".toList) (.number "1"))) := by
  have hread : ReadAsText (parseState H content "phase".toList) :=
    h.readAsText H (by decide +kernel)
  rw [hread.orElse]
  obtain ⟨s, hs, hplain, hopens⟩ := hread
  rw [hs, textValue, printed, String.toList_ofList]
  exact ⟨hplain, hopens⟩

theorem written_lineEdit {now agent phase version : Text} (hnow : Plain now) (hagent : Plain agent)
    (hphase : Plain phase ∧ Opens phase) (hversion : Plain version ∧ Opens version) :
    ∀ line ∈ [("lastUpdatedAt".toList, quoted now), ("lastUpdatedBy".toList, quoted agent),
      ("lastUpdatedPhase".toList, phase), ("summaryVersion".toList, version),
      ("freshnessStatus".toList, "fresh".toList)], LineEdit line.1 line.2 := by
  intro line hline
  simp only [mem_cons, not_mem_nil, or_false] at hline
  rcases hline with rfl | rfl | rfl | rfl | rfl
  all_goals dsimp only
  · exact quoted_lineEdit (by decide) (by decide) hnow
  · exact quoted_lineEdit (by decide) (by decide) hagent
  · exact ⟨by decide, hphase.1, hphase.2.visible, fun _ => hphase.2⟩
  · exact ⟨by decide, hversion.1, hversion.2.visible, fun _ => hversion.2⟩
  · exact ⟨by decide, by decide, by decide, fun hmem => absurd hmem (by decide)⟩

theorem freshness_lineEdit {now phase version : Text} (hnow : Plain now)
    (hphase : Plain phase ∧ Opens phase) (hversion : Plain version ∧ Opens version) :
    ∀ line ∈ freshness now phase version, LineEdit line.1 line.2 := by
  have hsystem : Plain "system".toList := by decide
  exact written_lineEdit hnow hsystem hphase hversion

theorem plain_freshnessNote {phase version : Text} (hphase : Plain phase) (hversion : Plain version) :
    Plain ("Freshness updated by system at phase ".toList ++ phase ++ " (v".toList ++ version ++
      [')']) := by
  have hbegin : Plain "Freshness updated by system at phase ".toList := by decide
  have hmiddle : Plain " (v".toList := by decide
  have hend : Plain [')'] := by decide
  exact plain_append.mpr ⟨plain_append.mpr ⟨plain_append.mpr ⟨plain_append.mpr ⟨hbegin, hphase⟩,
    hmiddle⟩, hversion⟩, hend⟩

theorem Shaped.updatePlanningState (H : Host) (clock : Nat → Stamp) {content : Text}
    {updates : Updates} (h : Shaped content) (hupdates : updates.PlainTexts) :
    Shaped (updatePlanningState H clock content updates) := by
  have hedits := hupdates.edits H
  have hedited := h.applyEdits clock (updates.edits H).zipIdx
    (fun e he => hedits e.1 (fst_mem_of_mem_zipIdx he))
  have hphase := h.printedPhase H
  unfold PlanningState.updatePlanningState
  dsimp only
  generalize (updates.edits H).zipIdx.foldl
    (fun content e => PlanningState.applyEdit (clock e.2) content e.1) content = edited at hedited ⊢
  generalize printed (orElse (parseState H content "phase".toList) (.number "1")) = phase
    at hphase ⊢
  have hversion : Plain (newVersion H edited).text ∧ Opens (newVersion H edited).text :=
    ⟨(newVersion H edited).plain, (newVersion H edited).opens⟩
  have hnow : Plain (clock (updates.edits H).length).text := (clock _).plain
  have hfresh := hedited.upsertLines _ (freshness_lineEdit hnow hphase hversion)
  exact hfresh.appendHistory (clock _).plain (plain_freshnessNote hphase.1 hversion.1)

/-! ### The fields and what was last written to them -/

/-- A call of `updatePlanningState`, with the times it reads. -/
structure Call where
  updates : Updates
  clock : Nat → Stamp

/-- The file after a run of calls on the one `createDefaultState` wrote. -/
def stateAfter (H : Host) (phase : Num) (now : Stamp) (calls : List Call) : Text :=
  calls.foldl (fun content call => updatePlanningState H call.clock content call.updates)
    (createDefaultState phase now)

def Updates.value (H : Host) (u : Updates) : Field → Option Json
  | .phase => u.phase.map Num.value
  | .topic => u.topic.map fun topic => textValue (slugifyTopic H topic)
  | .status => u.status.map textValue
  | .planConfirmed => u.planConfirmed.map .bool
  | .taskType => u.taskType.map textValue
  | .requiresDesignFirst => u.requiresDesignFirst.map .bool
  | .designStage => u.designStage.map fun stage => textValue stage.text
  | .designApproved => u.designApproved.map .bool
  | .designOverride => u.designOverride.map .bool
  | .designOverrideReason => u.designOverrideReason.map textValue
  | .designArtifact => u.designArtifact.map textValue
  | .stepsComplete => u.stepsComplete.map fun steps => .array (steps.map Num.value)
  | .stepsPending => u.stepsPending.map fun steps => .array (steps.map Num.value)
  | .lastAction => u.lastAction.map textValue
  | .nextAction => u.nextAction.map textValue
  | .blockers => u.blockers.map fun items => .array (items.map textValue)
  | .workflowClass => u.workflowClass.map textValue
  | .skippedStages => u.skippedStages.map fun stages => .array (stages.map textValue)
  | .escalationHistory => u.escalationHistory.map escalationJson
  | .routingScores => u.routingScores.map fun scores =>
    .object (scores.members.map fun m => (m.1, m.2.value))
  | .routingReason => u.routingReason.map textValue
  | .tdd | .planFile | .lastUpdatedAt | .lastUpdatedBy | .lastUpdatedPhase | .summaryVersion
  | .freshnessStatus => none

/-- The value that `createDefaultState` means a field to have. -/
def defaultValue (phase : Num) : Field → Json
  | .phase => phase.value
  | .status => .string "ready"
  | .designStage => .string "pending"
  | .planConfirmed | .requiresDesignFirst | .designApproved | .designOverride => .bool false
  | .stepsComplete | .stepsPending | .blockers => .array []
  | .lastAction => .string "initialized"
  | .nextAction => .string "run /fd-task"
  | _ => .undefined

def lastWritten (H : Host) (phase : Num) (calls : List Call) (f : Field) : Json :=
  calls.foldl (fun value call => (call.updates.value H f).getD value) (defaultValue phase f)

/-- Every field but the freshness metadata reads as it was last written. -/
def ReadsBack (H : Host) (phase : Num) (now : Stamp) (calls : List Call) : Prop :=
  ∀ f : Field, f.isFreshness = false →
    readPlanningState H (some (stateAfter H phase now calls)) f = lastWritten H phase calls f

def LeavesOthers (H : Host) (phase : Num) (now : Stamp) (calls : List Call) (call : Call) : Prop :=
  ∀ f : Field, f.isFreshness = false → call.updates.value H f = none →
    readPlanningState H (some (stateAfter H phase now (calls ++ [call]))) f =
      readPlanningState H (some (stateAfter H phase now calls)) f

/-- Every state of a run reads back, and every call leaves the other fields. -/
def KeepsFields (H : Host) (phase : Num) (now : Stamp) (calls : List Call) : Prop :=
  (∀ done, done <+: calls → ReadsBack H phase now done) ∧
    ∀ done call, done ++ [call] <+: calls → LeavesOthers H phase now done call

theorem Shaped.run (H : Host) (phase : Num) (now : Stamp) {calls : List Call}
    (hcalls : ∀ call ∈ calls, call.updates.PlainTexts) : Shaped (stateAfter H phase now calls) := by
  induction calls using reverseRecOn with
  | nil => exact Shaped.created phase now
  | append_singleton calls call ih =>
    have hbefore : Shaped (stateAfter H phase now calls) :=
      ih fun c hc => hcalls c (mem_append_left _ hc)
    have hcall : call.updates.PlainTexts := hcalls call (by simp)
    rw [stateAfter, foldl_append, foldl_cons, foldl_nil]
    exact hbefore.updatePlanningState H call.clock hcall

theorem lastWritten_of (H : Host) (phase : Num) (calls : List Call) (f : Field) {p : Json → Prop}
    (hdefault : p (defaultValue phase f))
    (hwritten : ∀ u : Updates, ∀ v ∈ u.value H f, p v) : p (lastWritten H phase calls f) := by
  induction calls using reverseRecOn with
  | nil => exact hdefault
  | append_singleton calls call ih =>
    rw [lastWritten, foldl_append, foldl_cons, foldl_nil]
    cases hvalue : call.updates.value H f with
    | none => exact ih
    | some v => exact hwritten call.updates v hvalue

def IsText : Json → Prop
  | .string _ => True
  | _ => False

def Field.isListOrNumber : Field → Bool
  | .phase | .stepsComplete | .stepsPending | .blockers => true
  | _ => false

def Field.isBoolean : Field → Bool
  | .planConfirmed | .requiresDesignFirst | .designApproved | .designOverride => true
  | _ => false

theorem lastWritten_not_text (H : Host) (phase : Num) (calls : List Call) {f : Field}
    (hf : f.isListOrNumber = true) : ¬ IsText (lastWritten H phase calls f) := by
  have hdefault : ¬ IsText (defaultValue phase f) :=
    match f, hf with
    | .phase, _ => id
    | .stepsComplete, _ => id
    | .stepsPending, _ => id
    | .blockers, _ => id
  have hwritten : ∀ u : Updates, ∀ v ∈ u.value H f, ¬ IsText v := by
    intro u v hv
    match f, hf with
    | .phase, _ =>
      obtain ⟨n, -, rfl⟩ := Option.map_eq_some_iff.mp hv
      exact id
    | .stepsComplete, _ =>
      obtain ⟨steps, -, rfl⟩ := Option.map_eq_some_iff.mp hv
      exact id
    | .stepsPending, _ =>
      obtain ⟨steps, -, rfl⟩ := Option.map_eq_some_iff.mp hv
      exact id
    | .blockers, _ =>
      obtain ⟨items, -, rfl⟩ := Option.map_eq_some_iff.mp hv
      exact id
  exact lastWritten_of H phase calls f hdefault hwritten

theorem read_is_text (H : Host) {content : Text} (h : Shaped content) {f : Field}
    (hf : f.isListOrNumber = true) : IsText (readPlanningState H (some content) f) := by
  have hread : ∀ key ∈ coercedKeys, ∀ otherwise,
      IsText (orElse (parseState H content key) otherwise) := by
    intro key hkey otherwise
    have htext : ReadAsText (parseState H content key) := h.readAsText H hkey
    rw [htext.orElse]
    obtain ⟨s, hs, -, -⟩ := htext
    rw [hs]
    trivial
  match f, hf with
  | .phase, _ => exact hread _ (by decide +kernel) _
  | .stepsComplete, _ => exact hread _ (by decide +kernel) _
  | .stepsPending, _ => exact hread _ (by decide +kernel) _
  | .blockers, _ => exact hread _ (by decide +kernel) _

theorem read_in_run (H : Host) (phase : Num) (now : Stamp) {calls : List Call}
    (hcalls : ∀ call ∈ calls, call.updates.PlainTexts) :
    (∀ f : Field, f.isListOrNumber = true →
      readPlanningState H (some (stateAfter H phase now calls)) f ≠ lastWritten H phase calls f) ∧
    ∀ f : Field, f.isBoolean = true →
      readPlanningState H (some (stateAfter H phase now calls)) f = .bool true := by
  have hshape : Shaped (stateAfter H phase now calls) := Shaped.run H phase now hcalls
  constructor
  · intro f hf heq
    have htext := read_is_text H hshape hf
    rw [heq] at htext
    exact lastWritten_not_text H phase calls hf htext
  · intro f hf
    have hread : ∀ key ∈ coercedKeys,
        Json.bool (truthy (parseState H (stateAfter H phase now calls) key)) = .bool true :=
      fun key hkey => congrArg Json.bool (hshape.readAsText H hkey).truthy
    match f, hf with
    | .planConfirmed, _ => exact hread _ (by decide +kernel)
    | .requiresDesignFirst, _ => exact hread _ (by decide +kernel)
    | .designApproved, _ => exact hread _ (by decide +kernel)
    | .designOverride, _ => exact hread _ (by decide +kernel)

/-- No run keeps its fields, since the file it begins with already reads back no number and no
list; and no state that updates in plain texts reach reads one back, or a boolean as false. -/
theorem updates_never_read_back (H : Host) (phase : Num) (now : Stamp) (calls : List Call) :
    ¬ KeepsFields H phase now calls ∧
    ((∀ call ∈ calls, call.updates.PlainTexts) →
      ¬ ReadsBack H phase now calls ∧
      (∀ f : Field, f.isListOrNumber = true →
        readPlanningState H (some (stateAfter H phase now calls)) f ≠
          lastWritten H phase calls f) ∧
      ∀ f : Field, f.isBoolean = true →
        readPlanningState H (some (stateAfter H phase now calls)) f = .bool true) := by
  have hplain : ∀ done : List Call, (∀ call ∈ done, call.updates.PlainTexts) →
      ¬ ReadsBack H phase now done := by
    intro done hdone hreads
    exact (read_in_run H phase now hdone).1 .phase rfl (hreads .phase rfl)
  constructor
  · intro hkeeps
    exact hplain [] (fun call hcall => absurd hcall not_mem_nil)
      (hkeeps.1 [] (List.nil_prefix))
  · intro hcalls
    exact ⟨hplain calls hcalls, read_in_run H phase now hcalls⟩

/-! ### A refusal that reads as a confirmation -/

def IsNumeral (s : Text) : Prop :=
  s ≠ [] ∧ ∀ c ∈ s, isNumberChar c = true ∧ c.isDigit = true

instance (s : Text) : Decidable (IsNumeral s) :=
  @instDecidableAnd _ _ _ (decidableBAll (fun c => isNumberChar c = true ∧ c.isDigit = true) s)

def numberOf? (s : Text) : Option Num :=
  if h : IsNumeral s then
    some ⟨s, h.1, fun c hc => (h.2 c hc).1⟩
  else none

def digitsValue (digits : Text) : Nat :=
  digits.foldl (fun n c => 10 * n + (c.toNat - 48)) 0

def plainHost : Host where
  number? := numberOf?
  versionAfter digits := (numberOf? (Nat.toDigits 10 (digitsValue digits + 1))).getD .one
  toFixed n := n
  parseJson? _ := none
  lowerCase s := s.map Char.toLower

theorem plain_newYear : Plain "2026-01-01T00:00:00.000Z".toList := by decide

def newYear : Stamp := ⟨"2026-01-01T00:00:00.000Z".toList, plain_newYear⟩

def refusal : Call := ⟨{ planConfirmed := some false }, fun _ => newYear⟩

theorem refusal_plain : ∀ call ∈ [refusal], call.updates.PlainTexts := by
  intro call hcall
  rw [mem_singleton.mp hcall]
  refine ⟨?_, ?_⟩
  · intro s hs
    cases hs
  · intro s hs
    cases hs

theorem refusal_never_reads_back :
    (∀ call ∈ [refusal], call.updates.PlainTexts) ∧
    ¬ KeepsFields plainHost .one newYear [refusal] ∧
    ¬ ReadsBack plainHost .one newYear [refusal] := by
  have h := updates_never_read_back plainHost .one newYear [refusal]
  exact ⟨refusal_plain, h.1, (h.2 refusal_plain).1⟩

/-- After the refusal the plan reads as confirmed. -/
theorem refusal_reads_confirmed : ¬ KeepsFields plainHost .one newYear [refusal] := by
  intro hkeeps
  have hread : readPlanningState plainHost (some (stateAfter plainHost .one newYear [refusal]))
      .planConfirmed = .bool false :=
    hkeeps.1 [refusal] (prefix_refl _) .planConfirmed rfl
  have htruthy : truthy (readPlanningState plainHost
      (some (stateAfter plainHost .one newYear [refusal])) .planConfirmed) = true := by
    decide +kernel
  rw [hread] at htruthy
  cases htruthy

end PlanningState
