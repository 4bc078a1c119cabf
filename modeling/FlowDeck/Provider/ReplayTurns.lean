import FlowDeck.Provider.ReplayShape

/-! The turns of a replayed history, and the histories that are replayed as they are. -/

namespace ProviderHistory

open Part

/-! ### The turns that are replayed -/

/-- The parts of an assistant turn that did not fail. -/
def liveParts : Option Message → List Part
  | none => []
  | some msg => if msg.info.role = .assistant ∧ msg.info.error = false then msg.parts else []

def hasContent (parts : List Part) : Bool :=
  parts.any isVisibleText || parts.any isCompletedTool

/-- The message as it is replayed after the given calls. -/
def replayed (seen : List String) (msg : Message) : Option Message :=
  if msg.info.error then none
  else if msg.info.role = .assistant then
    if hasContent msg.parts then some ⟨msg.info, keptParts seen msg.parts⟩ else none
  else if msg.parts.isEmpty then none
  else some msg

theorem filter_isReasoning_facts (seen : List String) (parts : List Part) :
    (parts.filter fun part => !part.isReasoning).foldl note seen = parts.foldl note seen ∧
      keptParts seen (parts.filter fun part => !part.isReasoning) = keptParts seen parts ∧
      hasContent (parts.filter fun part => !part.isReasoning) = hasContent parts := by
  induction parts generalizing seen with
  | nil => exact ⟨rfl, rfl, rfl⟩
  | cons part parts ih =>
    obtain ⟨hnote, hkept, hcontent⟩ := ih (note seen part)
    by_cases hr : part.isReasoning = true
    · cases part with
      | reasoning id words =>
        have hskip (seen : List String) : note seen (.reasoning id words) = seen := rfl
        rw [hskip] at hnote hkept
        refine ⟨?_, ?_, ?_⟩
        · simpa [hr, hskip] using hnote
        · simpa [hr, keptParts, keeps, isTidy, hskip] using hkept
        · simpa [hr, hasContent, isVisibleText, isCompletedTool] using hcontent
      | text => simp [isReasoning] at hr
      | tool => simp [isReasoning] at hr
      | other => simp [isReasoning] at hr
    · refine ⟨?_, ?_, ?_⟩
      · simpa [hr] using hnote
      · simp [hr, keptParts, hkept]
      · simp only [hasContent] at hcontent
        simp only [hasContent, hr, Bool.not_false, List.filter_cons_of_pos, List.any_cons]
        grind

/-- Dropping on no content is keeping on some. -/
theorem ite_dropped {β : Type*} (vis comp : Bool) (x y : β) :
    (if (!vis && !comp) = true then x else y) = if (vis || comp) = true then y else x := by
  cases vis <;> cases comp <;> rfl

theorem sanitizeReplayMessage_eq (msg : Option Message) (seen : List String) :
    sanitizeReplayMessage msg seen =
      (msg.bind (replayed seen), (liveParts msg).foldl note seen) := by
  cases msg with
  | none => rfl
  | some msg =>
    by_cases hrole : msg.info.role = .assistant
    · cases herror : msg.info.error with
      | true => simp [sanitizeReplayMessage, replayed, liveParts, hrole, herror]
      | false =>
        by_cases hparts : msg.parts = []
        · simp [sanitizeReplayMessage, replayed, liveParts, hrole, herror, hparts, hasContent]
        · obtain ⟨hnote, hkept, hcontent⟩ := filter_isReasoning_facts seen msg.parts
          have hnone : ∀ part ∈ msg.parts.filter fun part => !part.isReasoning,
              part.isReasoning = false := by simp
          have hfold := foldl_cleanPart { seenCallIds := seen } hnone
          simp only [hnote, hkept, Bool.false_or, List.nil_append] at hfold
          simp only [sanitizeReplayMessage, ne_eq, hrole, not_true_eq_false, if_false, herror,
            Bool.false_or, List.isEmpty_iff, hparts, hfold, ite_dropped]
          rw [← hasContent, hcontent]
          simp only [replayed, liveParts, hrole, herror, Option.bind_some, and_self, if_true,
            Bool.false_eq_true, if_false]
          by_cases hc : hasContent msg.parts = true
          · simp [hc]
          · simp [hc]
    · cases herror : msg.info.error with
      | true => simp [sanitizeReplayMessage, replayed, liveParts, hrole, herror]
      | false =>
        by_cases hparts : msg.parts = []
        · simp [sanitizeReplayMessage, replayed, liveParts, hrole, herror, hparts]
        · simp [sanitizeReplayMessage, replayed, liveParts, hrole, herror, hparts]

/-- The turns replayed of a history, before users' turns are merged. -/
def replayTurns : List String → List (Option Message) → List Message
  | _, [] => []
  | seen, msg :: msgs =>
    (msg.bind (replayed seen)).toList ++ replayTurns ((liveParts msg).foldl note seen) msgs

theorem foldl_replayMessage (r : Replay) (msgs : List (Option Message)) :
    (msgs.foldl replayMessage r).out = r.out ++ replayTurns r.seenCallIds msgs := by
  induction msgs generalizing r with
  | nil => simp [replayTurns]
  | cons msg msgs ih =>
    rw [List.foldl_cons, ih]
    simp [replayMessage, sanitizeReplayMessage_eq, replayTurns]

theorem sanitizeReplayHistory_eq (msgs : List (Option Message)) :
    sanitizeReplayHistory msgs = mergeAdjacentUserTurns (replayTurns [] msgs) := by
  simp [sanitizeReplayHistory, foldl_replayMessage]

def callsBefore (pre : List (Option Message)) : List Part := pre.flatMap liveParts

variable {seen : List String} {m : Message} {msgs : List Message} {v : Validation}

theorem mem_replayTurns {msgs : List (Option Message)} :
    m ∈ replayTurns seen msgs ↔ ∃ pre msg post, msgs = pre ++ some msg :: post ∧
      replayed ((callsBefore pre).foldl note seen) msg = some m := by
  induction msgs generalizing seen with
  | nil => simp [replayTurns]
  | cons first msgs ih =>
    simp only [replayTurns, List.mem_append, Option.mem_toList, ih]
    constructor
    · intro h
      rcases h with hfirst | ⟨pre, msg, post, rfl, hm⟩
      · obtain ⟨msg, rfl, hm⟩ := Option.bind_eq_some_iff.mp hfirst
        exact ⟨[], msg, msgs, rfl, hm⟩
      · refine ⟨first :: pre, msg, post, rfl, ?_⟩
        simpa [callsBefore] using hm
    · intro ⟨pre, msg, post, heq, hm⟩
      cases pre with
      | nil =>
        obtain ⟨rfl, rfl⟩ := List.cons.inj heq
        exact .inl hm
      | cons head pre =>
        obtain ⟨rfl, rfl⟩ := List.cons.inj heq
        exact .inr ⟨pre, msg, post, rfl, by simpa [callsBefore] using hm⟩

/-! ### Histories that are replayed as they are -/

/-- The turn can be replayed as it is. -/
structure Replayable (m : Message) : Prop where
  error : m.info.error = false
  parts : m.parts ≠ []
  tidy : m.info.role = .assistant → ∀ part ∈ m.parts, part.isTidy = true
  content : m.info.role = .assistant → hasContent m.parts = true

/-- The tool calls of a turn. -/
def callIds (m : Message) : List String :=
  if m.info.role = .assistant then settledIds m.parts else []

/-- Every turn can be replayed and no call is made twice. -/
structure Clean (msgs : List Message) : Prop where
  turns : ∀ m ∈ msgs, Replayable m
  calls : (msgs.flatMap callIds).Nodup

theorem callIds_eq (h : m.info.error = false) : settledIds (liveParts (some m)) = callIds m := by
  by_cases hrole : m.info.role = .assistant
  · simp [liveParts, callIds, h, hrole]
  · simp [liveParts, callIds, hrole, settledIds]

theorem replayed_eq_self (h : Replayable m) (hnodup : (callIds m).Nodup)
    (hfresh : ∀ key ∈ callIds m, key ∉ seen) : replayed seen m = some m := by
  by_cases hrole : m.info.role = .assistant
  · simp only [callIds, hrole, if_true] at hnodup hfresh
    have hkept := keptParts_eq_self (h.tidy hrole) hnodup hfresh
    simp [replayed, h.error, hrole, h.content hrole, hkept]
  · simp [replayed, h.error, hrole, h.parts]

theorem replayTurns_eq_self (h : Clean msgs) (hfresh : ∀ key ∈ msgs.flatMap callIds, key ∉ seen) :
    replayTurns seen (msgs.map some) = msgs := by
  induction msgs generalizing seen with
  | nil => rfl
  | cons m msgs ih =>
    have hm := h.turns m List.mem_cons_self
    have hcalls := h.calls
    rw [List.flatMap_cons, List.nodup_append] at hcalls
    obtain ⟨hfirst, hrest, hdisjoint⟩ := hcalls
    have hhead : replayed seen m = some m := by
      apply replayed_eq_self hm hfirst
      exact fun key hkey => hfresh key (by simp [hkey])
    have htail : replayTurns ((liveParts (some m)).foldl note seen) (msgs.map some) = msgs := by
      apply ih ⟨fun m hm => h.turns m (List.mem_cons_of_mem _ hm), hrest⟩
      intro key hkey hmem
      rw [mem_foldl_note, callIds_eq hm.error] at hmem
      rcases hmem with hseen | hcall
      · exact hfresh key (List.flatMap_cons ▸ List.mem_append_right _ hkey) hseen
      · exact hdisjoint key hcall key hkey rfl
    simp [replayTurns, hhead, htail]

/-! ### A clean history is safe -/

/-- The validator has found nothing, and the calls it has seen are these. -/
structure Unharmed (v : Validation) (seen : List String) : Prop where
  safe : v.diagnostics.safe = true
  calls : ∀ key ∈ v.seenCallIds, key ∈ seen

theorem validatePart_unharmed {part : Part} (h : Unharmed v seen) (htidy : part.isTidy = true)
    (hfresh : ∀ key, part.settledId = some key → key ∉ seen) :
    Unharmed (validatePart v part) (seen ++ settledIds [part]) ∧
      (validatePart v part).content.hasVisibleText =
        (v.content.hasVisibleText || part.isVisibleText) ∧
      ((v.content.hasToolCall || part.isCompletedTool) = true →
        (validatePart v part).content.hasToolCall = true) := by
  cases part with
  | text id words =>
    have hvisible : isVisible words = true := htidy
    refine ⟨⟨?_, ?_⟩, ?_, ?_⟩
    · simpa [validatePart, hvisible] using h.safe
    · simpa [validatePart, hvisible, settledIds, settledId] using h.calls
    · simp [validatePart, hvisible, isVisibleText]
    · simp [validatePart, hvisible, isCompletedTool]
  | reasoning id words => simp [isTidy] at htidy
  | other id type =>
    refine ⟨⟨h.safe, ?_⟩, ?_, ?_⟩
    · simpa [validatePart, settledIds, settledId] using h.calls
    · simp [validatePart, isVisibleText]
    · simp [validatePart, isCompletedTool]
  | tool id callID state =>
    have hopen : state.isUnresolved = false := by simpa [isTidy] using htidy
    cases hkey : callKey callID with
    | none =>
      refine ⟨⟨?_, ?_⟩, ?_, ?_⟩
      · simpa [validatePart, validateCallId, hopen, hkey] using h.safe
      · simpa [validatePart, validateCallId, hopen, hkey, settledIds, settledId] using h.calls
      · simp [validatePart, validateCallId, hopen, hkey, isVisibleText]
      · simp [validatePart, validateCallId, hopen, hkey]
    | some key =>
      have hnew : key ∉ v.seenCallIds :=
        fun hmem => hfresh key (by simp [settledId, hopen, hkey]) (h.calls key hmem)
      refine ⟨⟨?_, ?_⟩, ?_, ?_⟩
      · simpa [validatePart, validateCallId, hopen, hkey, hnew] using h.safe
      · have hcalls : ∀ k ∈ key :: v.seenCallIds, k ∈ seen ++ [key] := by
          intro k hk
          rcases List.mem_cons.mp hk with rfl | hk
          · simp
          · exact List.mem_append_left _ (h.calls k hk)
        simpa [validatePart, validateCallId, hopen, hkey, hnew, settledIds, settledId]
          using hcalls
      · simp [validatePart, validateCallId, hopen, hkey, hnew, isVisibleText]
      · simp [validatePart, validateCallId, hopen, hkey, hnew]

theorem foldl_validatePart_unharmed {parts : List Part} (h : Unharmed v seen)
    (htidy : ∀ part ∈ parts, part.isTidy = true) (hnodup : (settledIds parts).Nodup)
    (hfresh : ∀ key ∈ settledIds parts, key ∉ seen) :
    Unharmed (parts.foldl validatePart v) (seen ++ settledIds parts) ∧
      (parts.foldl validatePart v).content.hasVisibleText =
        (v.content.hasVisibleText || parts.any isVisibleText) ∧
      ((v.content.hasToolCall || parts.any isCompletedTool) = true →
        (parts.foldl validatePart v).content.hasToolCall = true) := by
  induction parts generalizing v seen with
  | nil => simpa [settledIds] using h
  | cons part parts ih =>
    have hids : settledIds (part :: parts) = settledIds [part] ++ settledIds parts := by
      simp only [settledIds, ← List.filterMap_append, List.singleton_append]
    rw [hids] at hnodup hfresh
    obtain ⟨-, hrest, hdisjoint⟩ := List.nodup_append.mp hnodup
    have hnew (key : String) (hkey : part.settledId = some key) : key ∈ settledIds [part] :=
      mem_settledIds_cons.mpr (.inl hkey)
    obtain ⟨hharm, hvis, htool⟩ := validatePart_unharmed h (htidy part List.mem_cons_self)
      fun key hkey => hfresh key (List.mem_append_left _ (hnew key hkey))
    have hfresh' : ∀ key ∈ settledIds parts, key ∉ seen ++ settledIds [part] := by
      intro key hkey hmem
      rcases List.mem_append.mp hmem with hseen | hpart
      · exact hfresh key (List.mem_append_right _ hkey) hseen
      · exact hdisjoint key hpart key hkey rfl
    obtain ⟨hharm', hvis', htool'⟩ := ih hharm (fun p hp => htidy p (List.mem_cons_of_mem _ hp))
      hrest hfresh'
    rw [List.foldl_cons, hids, ← List.append_assoc]
    refine ⟨hharm', ?_, fun hany => htool' ?_⟩
    · rw [hvis', hvis, List.any_cons, Bool.or_assoc]
    · rw [List.any_cons, ← Bool.or_assoc, Bool.or_eq_true] at hany
      rcases hany with hpart | hrest
      · simp [htool hpart]
      · simp [hrest]

theorem validateMessage_unharmed (h : Unharmed v seen) (hm : Replayable m)
    (hnodup : (callIds m).Nodup) (hfresh : ∀ key ∈ callIds m, key ∉ seen) :
    Unharmed (validateMessage v (some m)) (seen ++ callIds m) := by
  have hparts : m.parts.isEmpty = false := by simpa using hm.parts
  by_cases hrole : m.info.role = .assistant
  · simp only [callIds, hrole, if_true] at hnodup hfresh ⊢
    have hstart : Unharmed { v with content := {} } seen := ⟨h.safe, h.calls⟩
    obtain ⟨hharm, hvis, htool⟩ :=
      foldl_validatePart_unharmed hstart (hm.tidy hrole) hnodup hfresh
    have hcontent := hm.content hrole
    have hkept : validateContent (m.parts.foldl validatePart { v with content := {} }) =
        m.parts.foldl validatePart { v with content := {} } := by
      rcases Bool.or_eq_true _ _ ▸ hcontent with htext | hdone
      · simp [validateContent, hvis, htext]
      · simp [validateContent, htool (by simpa using hdone)]
    simpa [validateMessage, hparts, hm.error, hrole, hkept] using hharm
  · simpa [validateMessage, hparts, hm.error, hrole, callIds] using h

theorem foldl_validateMessage_unharmed (h : Unharmed v seen) (hclean : Clean msgs)
    (hfresh : ∀ key ∈ msgs.flatMap callIds, key ∉ seen) :
    ((msgs.map some).foldl validateMessage v).diagnostics.safe = true := by
  induction msgs generalizing v seen with
  | nil => exact h.safe
  | cons m msgs ih =>
    have hcalls := hclean.calls
    rw [List.flatMap_cons, List.nodup_append] at hcalls
    obtain ⟨hfirst, hrest, hdisjoint⟩ := hcalls
    rw [List.flatMap_cons] at hfresh
    have hnext := validateMessage_unharmed h (hclean.turns m List.mem_cons_self) hfirst
      fun key hkey => hfresh key (List.mem_append_left _ hkey)
    apply ih hnext ⟨fun m hm => hclean.turns m (List.mem_cons_of_mem _ hm), hrest⟩
    intro key hkey hmem
    rcases List.mem_append.mp hmem with hseen | hcall
    · exact hfresh key (List.mem_append_right _ hkey) hseen
    · exact hdisjoint key hcall key hkey rfl

theorem validateHistorySafety_clean (h : Clean msgs) :
    (validateHistorySafety (msgs.map some)).safe = true :=
  foldl_validateMessage_unharmed ⟨rfl, fun _ hkey => hkey⟩ h (by simp)

/-! ### What the sanitizer always gives -/

theorem replayed_facts {msg : Message} (h : replayed seen msg = some m) :
    m.info = msg.info ∧ msg.info.error = false ∧
      (msg.info.role ≠ .assistant → m = msg ∧ msg.parts ≠ []) ∧
      (msg.info.role = .assistant → m.parts = keptParts seen msg.parts) := by
  cases herror : msg.info.error with
  | true => simp [replayed, herror] at h
  | false =>
    by_cases hrole : msg.info.role = .assistant
    · simp only [replayed, herror, hrole, Bool.false_eq_true, if_false, if_true] at h
      split_ifs at h
      obtain rfl := Option.some.inj h
      exact ⟨rfl, rfl, fun hne => absurd hrole hne, fun _ => rfl⟩
    · simp only [replayed, herror, hrole, Bool.false_eq_true, if_false] at h
      split_ifs at h with hparts
      obtain rfl := Option.some.inj h
      exact ⟨rfl, rfl, fun _ => ⟨rfl, by simpa using hparts⟩, fun hr => absurd hr hrole⟩

theorem callIds_replayed {msg : Message} (h : replayed seen msg = some m) :
    (callIds m).Nodup ∧ (∀ key ∈ callIds m, key ∉ seen) ∧
      ∀ key ∈ callIds m, key ∈ settledIds (liveParts (some msg)) := by
  obtain ⟨hinfo, herror, -, hkept⟩ := replayed_facts h
  by_cases hrole : msg.info.role = .assistant
  · obtain ⟨hnodup, hfresh⟩ := settledIds_keptParts seen msg.parts
    have hids : callIds m = settledIds (keptParts seen msg.parts) := by
      simp [callIds, hinfo, hrole, hkept hrole]
    rw [hids]
    refine ⟨hnodup, hfresh, fun key hkey => ?_⟩
    obtain ⟨part, hpart, hid⟩ := List.mem_filterMap.mp hkey
    have hlive : liveParts (some msg) = msg.parts := by simp [liveParts, hrole, herror]
    rw [hlive]
    exact List.mem_filterMap.mpr ⟨part, (mem_of_mem_keptParts hpart).1, hid⟩
  · have hids : callIds m = [] := by simp [callIds, hinfo, hrole]
    simp [hids]

theorem calls_replayTurns (seen : List String) (msgs : List (Option Message)) :
    ((replayTurns seen msgs).flatMap callIds).Nodup ∧
      ∀ key ∈ (replayTurns seen msgs).flatMap callIds, key ∉ seen := by
  induction msgs generalizing seen with
  | nil => simp [replayTurns]
  | cons msg msgs ih =>
    obtain ⟨hnodup, hfresh⟩ := ih ((liveParts msg).foldl note seen)
    have hseen : ∀ key ∈ (replayTurns ((liveParts msg).foldl note seen) msgs).flatMap callIds,
        key ∉ seen := fun key hkey hmem => hfresh key hkey (mem_foldl_note.mpr (.inl hmem))
    cases hm : msg.bind (replayed seen) with
    | none =>
      have hturns : replayTurns seen (msg :: msgs) =
          replayTurns ((liveParts msg).foldl note seen) msgs := by simp [replayTurns, hm]
      rw [hturns]
      exact ⟨hnodup, hseen⟩
    | some m =>
      have hturns : replayTurns seen (msg :: msgs) =
          m :: replayTurns ((liveParts msg).foldl note seen) msgs := by simp [replayTurns, hm]
      obtain ⟨turn, rfl, hturn⟩ := Option.bind_eq_some_iff.mp hm
      obtain ⟨hfirst, hnew, hlive⟩ := callIds_replayed hturn
      rw [hturns, List.flatMap_cons]
      constructor
      · refine List.nodup_append.mpr ⟨hfirst, hnodup, fun key hkey other hother heq => ?_⟩
        exact hfresh other hother (mem_foldl_note.mpr (.inr (heq ▸ hlive key hkey)))
      · intro key hkey
        rcases List.mem_append.mp hkey with hkey | hkey
        · exact hnew key hkey
        · exact hseen key hkey

theorem replayable_of_content {msgs : List (Option Message)} (h : m ∈ replayTurns seen msgs)
    (hcontent : m.info.role = .assistant → hasContent m.parts = true) : Replayable m := by
  obtain ⟨pre, msg, post, -, hm⟩ := mem_replayTurns.mp h
  obtain ⟨hinfo, herror, hother, hkept⟩ := replayed_facts hm
  refine ⟨hinfo ▸ herror, ?_, ?_, hcontent⟩
  · by_cases hrole : m.info.role = .assistant
    · intro hnil
      simp [hnil, hasContent] at hcontent
      exact hcontent hrole
    · obtain ⟨rfl, hparts⟩ := hother (hinfo ▸ hrole)
      exact hparts
  · intro hrole part hpart
    rw [hkept (hinfo ▸ hrole)] at hpart
    exact (mem_of_mem_keptParts hpart).2

end ProviderHistory
