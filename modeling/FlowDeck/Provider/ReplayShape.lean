import FlowDeck.Provider.HistorySafety

/-! The shape of a replayed history: what the sanitizer always gives it, what makes it a fixed point,
and when the two agree. -/

namespace ProviderHistory

open Part List

/-! ### The parts that are kept -/

/-- The identity of a tool call that is no longer pending or running. -/
def Part.settledId : Part → Option String
  | .tool _ callID state => if state.isUnresolved then none else callKey callID
  | _ => none

def settledIds (parts : List Part) : List String := parts.filterMap settledId

def Part.isVisibleText : Part → Bool
  | .text _ words => isVisible words
  | _ => false

def Part.isCompletedTool : Part → Bool
  | .tool _ _ state => state.isCompleted
  | _ => false

/-- What a replayed turn may hold: no reasoning, no empty text, no open tool call. -/
def Part.isTidy : Part → Bool
  | .text _ words => isVisible words
  | .reasoning _ _ => false
  | .tool _ _ state => !state.isUnresolved
  | .other _ _ => true

/-- The call ids seen once a part is behind. -/
def note (seen : List String) (part : Part) : List String :=
  match part.settledId with
  | none => seen
  | some key => if seen.contains key then seen else key :: seen

/-- The part is tidy and repeats no call. -/
def keeps (seen : List String) (part : Part) : Bool :=
  part.isTidy && part.settledId.all fun key => !seen.contains key

def keptParts : List String → List Part → List Part
  | _, [] => []
  | seen, part :: parts =>
    if keeps seen part then part :: keptParts (note seen part) parts
    else keptParts (note seen part) parts

theorem ToolState.not_unresolved_of_completed {state : ToolState} (h : state.isCompleted = true) :
    state.isUnresolved = false := by
  cases hs : state.status with
  | none => simp [isUnresolved, hs]
  | some s =>
    simp only [isCompleted, hs, Bool.or_eq_true, decide_eq_true_eq, Option.some.injEq,
      reduceCtorEq, or_false] at h
    rcases h with rfl | rfl
    · simp [isUnresolved, hs]
    · simp [isUnresolved, hs]

variable {seen : List String} {part : Part} {key : String} {parts : List Part}

theorem mem_note : key ∈ note seen part ↔ key ∈ seen ∨ part.settledId = some key := by
  unfold note
  cases part.settledId with
  | none => simp
  | some k =>
    simp only [contains_iff_mem, Option.some.injEq]
    split_ifs with h
    · constructor
      · exact .inl
      · intro hk
        rcases hk with hk | rfl
        · exact hk
        · exact h
    · simp [or_comm, eq_comm]

theorem cleanPart_eq (c : Cleaning) {part : Part} (h : part.isReasoning = false) :
    cleanPart c part = {
      seenCallIds := note c.seenCallIds part
      hasVisibleText := c.hasVisibleText || part.isVisibleText
      hasCompletedTool := c.hasCompletedTool || part.isCompletedTool
      cleaned := c.cleaned ++ if keeps c.seenCallIds part then [part] else [] } := by
  cases part with
  | text id text =>
    by_cases hv : isVisible text = true
    · simp [cleanPart, Cleaning.keep, note, keeps, settledId, isVisibleText,
        isCompletedTool, isTidy, hv]
    · simp [cleanPart, note, keeps, settledId, isVisibleText, isCompletedTool, isTidy, hv]
  | reasoning id text => simp [isReasoning] at h
  | other id type =>
    simp [cleanPart, Cleaning.keep, note, keeps, settledId, isVisibleText, isCompletedTool, isTidy]
  | tool id callID state =>
    by_cases hu : state.isUnresolved = true
    · have hc : state.isCompleted = false := by
        by_contra hc
        simp [ToolState.not_unresolved_of_completed (by simpa using hc)] at hu
      simp [cleanPart, note, keeps, settledId, isVisibleText, isCompletedTool, isTidy, hu, hc]
    · cases hk : callKey callID with
      | none =>
        cases hc : state.isCompleted <;>
          simp [cleanPart, Cleaning.keep, note, keeps, settledId, isVisibleText,
            isCompletedTool, isTidy, hu, hk, hc]
      | some key =>
        by_cases hseen : key ∈ c.seenCallIds
        · cases hc : state.isCompleted <;>
            simp [cleanPart, note, keeps, settledId, isVisibleText,
              isCompletedTool, isTidy, hu, hk, hc, hseen]
        · cases hc : state.isCompleted <;>
            simp [cleanPart, Cleaning.keep, note, keeps, settledId, isVisibleText,
              isCompletedTool, isTidy, hu, hk, hc, hseen]

theorem foldl_cleanPart (c : Cleaning) {parts : List Part}
    (h : ∀ part ∈ parts, part.isReasoning = false) :
    parts.foldl cleanPart c = {
      seenCallIds := parts.foldl note c.seenCallIds
      hasVisibleText := c.hasVisibleText || parts.any isVisibleText
      hasCompletedTool := c.hasCompletedTool || parts.any isCompletedTool
      cleaned := c.cleaned ++ keptParts c.seenCallIds parts } := by
  induction parts generalizing c with
  | nil => simp [keptParts]
  | cons part parts ih =>
    have hrest : ∀ part ∈ parts, part.isReasoning = false :=
      fun p hp => h p (mem_cons_of_mem _ hp)
    rw [foldl_cons, cleanPart_eq c (h part mem_cons_self), ih _ hrest]
    by_cases hkeep : keeps c.seenCallIds part = true
    · simp [keptParts, hkeep, Bool.or_assoc]
    · simp [keptParts, hkeep, Bool.or_assoc]

theorem mem_settledIds_cons :
    key ∈ settledIds (part :: parts) ↔ part.settledId = some key ∨ key ∈ settledIds parts := by
  simp only [settledIds, mem_filterMap, mem_cons, exists_eq_or_imp]

theorem mem_foldl_note : key ∈ parts.foldl note seen ↔ key ∈ seen ∨ key ∈ settledIds parts := by
  induction parts generalizing seen with
  | nil => simp [settledIds]
  | cons part parts ih =>
    rw [foldl_cons, ih, mem_note, mem_settledIds_cons, or_assoc]

theorem mem_of_mem_keptParts (h : part ∈ keptParts seen parts) :
    part ∈ parts ∧ part.isTidy = true := by
  induction parts generalizing seen with
  | nil => exact absurd h not_mem_nil
  | cons first parts ih =>
    unfold keptParts at h
    split_ifs at h with hkeep
    · rcases mem_cons.mp h with rfl | hmem
      · exact ⟨mem_cons_self, (Bool.and_eq_true _ _ ▸ hkeep).1⟩
      · exact ⟨mem_cons_of_mem _ (ih hmem).1, (ih hmem).2⟩
    · exact ⟨mem_cons_of_mem _ (ih h).1, (ih h).2⟩

theorem keeps_iff :
    keeps seen part = true ↔
      part.isTidy = true ∧ ∀ key, part.settledId = some key → key ∉ seen := by
  unfold keeps
  cases part.settledId <;> simp

/-- The calls that are kept were not seen before, and none is kept twice. -/
theorem settledIds_keptParts (seen : List String) (parts : List Part) :
    (settledIds (keptParts seen parts)).Nodup ∧
      ∀ key ∈ settledIds (keptParts seen parts), key ∉ seen := by
  induction parts generalizing seen with
  | nil => simp [keptParts, settledIds]
  | cons part parts ih =>
    obtain ⟨hnodup, hfresh⟩ := ih (note seen part)
    have hseen : ∀ key ∈ settledIds (keptParts (note seen part) parts), key ∉ seen :=
      fun key hkey hmem => hfresh key hkey (mem_note.mpr (.inl hmem))
    unfold keptParts
    split_ifs with hkeep
    · have hnew := (keeps_iff.mp hkeep).2
      cases hid : part.settledId with
      | none =>
        have hids : settledIds (part :: keptParts (note seen part) parts) =
            settledIds (keptParts (note seen part) parts) := by simp [settledIds, hid]
        rw [hids]
        exact ⟨hnodup, hseen⟩
      | some key =>
        have hids : settledIds (part :: keptParts (note seen part) parts) =
            key :: settledIds (keptParts (note seen part) parts) := by simp [settledIds, hid]
        rw [hids]
        constructor
        · apply nodup_cons.mpr ⟨_, hnodup⟩
          intro hmem
          exact hfresh key hmem (mem_note.mpr (.inr hid))
        · intro k hk
          rcases mem_cons.mp hk with rfl | hk
          · exact hnew k hid
          · exact hseen k hk
    · exact ⟨hnodup, hseen⟩

theorem keptParts_eq_self (htidy : ∀ part ∈ parts, part.isTidy = true)
    (hnodup : (settledIds parts).Nodup) (hfresh : ∀ key ∈ settledIds parts, key ∉ seen) :
    keptParts seen parts = parts := by
  induction parts generalizing seen with
  | nil => rfl
  | cons part parts ih =>
    have hkeep : keeps seen part = true := by
      apply keeps_iff.mpr ⟨htidy part mem_cons_self, _⟩
      intro key hid
      exact hfresh key (mem_settledIds_cons.mpr (.inl hid))
    have htail : keptParts (note seen part) parts = parts := by
      apply ih fun p hp => htidy p (mem_cons_of_mem _ hp)
      · exact hnodup.sublist ((sublist_cons_self part parts).filterMap _)
      · intro key hkey hmem
        rcases mem_note.mp hmem with hseen | hid
        · exact hfresh key (mem_settledIds_cons.mpr (.inr hkey)) hseen
        · have hids : settledIds (part :: parts) = key :: settledIds parts := by
            simp [settledIds, hid]
          rw [hids] at hnodup
          exact (nodup_cons.mp hnodup).1 hkey
    rw [keptParts, if_pos hkeep, htail]

/-- A completed call of the turn is kept exactly when it is not one of the calls before it. -/
theorem any_completed_keptParts :
    (keptParts seen parts).any isCompletedTool = true ↔
      ∃ before part after, parts = before ++ part :: after ∧ part.isCompletedTool = true ∧
        ∀ key, part.settledId = some key → key ∉ seen ∧ key ∉ settledIds before := by
  have htidy (part : Part) (h : part.isCompletedTool = true) : part.isTidy = true := by
    cases part with
    | tool id callID state => simpa [isTidy] using ToolState.not_unresolved_of_completed h
    | text => simp [isCompletedTool] at h
    | reasoning => simp [isCompletedTool] at h
    | other => simp [isCompletedTool] at h
  induction parts generalizing seen with
  | nil => simp [keptParts]
  | cons first parts ih =>
    have hsplit : (keptParts seen (first :: parts)).any isCompletedTool = true ↔
        (first.isCompletedTool = true ∧ keeps seen first = true) ∨
          (keptParts (note seen first) parts).any isCompletedTool = true := by
      by_cases hkeep : keeps seen first = true
      · simp [keptParts, hkeep]
      · simp [keptParts, hkeep]
    refine hsplit.trans ((or_congr_right ih).trans ?_)
    constructor
    · intro h
      rcases h with ⟨hdone, hkeep⟩ | ⟨before, part, after, rfl, hdone, hnew⟩
      · refine ⟨[], first, parts, rfl, hdone, fun key hid => ?_⟩
        exact ⟨(keeps_iff.mp hkeep).2 key hid, by simp [settledIds]⟩
      · refine ⟨first :: before, part, after, rfl, hdone, fun key hid => ?_⟩
        obtain ⟨hseen, hbefore⟩ := hnew key hid
        rw [mem_note, not_or] at hseen
        exact ⟨hseen.1, fun h => (mem_settledIds_cons.mp h).elim hseen.2 hbefore⟩
    · intro ⟨before, part, after, heq, hdone, hnew⟩
      cases before with
      | nil =>
        obtain ⟨rfl, rfl⟩ := cons.inj heq
        have hkeep : keeps seen first = true :=
          keeps_iff.mpr ⟨htidy first hdone, fun key hid => (hnew key hid).1⟩
        exact .inl ⟨hdone, hkeep⟩
      | cons head before =>
        obtain ⟨rfl, rfl⟩ := cons.inj heq
        refine .inr ⟨before, part, after, rfl, hdone, fun key hid => ?_⟩
        obtain ⟨hseen, hbefore⟩ := hnew key hid
        rw [mem_settledIds_cons, not_or] at hbefore
        exact ⟨fun h => (mem_note.mp h).elim hseen hbefore.1, hbefore.2⟩

theorem any_visible_keptParts :
    (keptParts seen parts).any isVisibleText = parts.any isVisibleText := by
  induction parts generalizing seen with
  | nil => rfl
  | cons part parts ih =>
    have hkeep (h : part.isVisibleText = true) : keeps seen part = true := by
      cases part with
      | text id text => simpa [keeps, isTidy, settledId, isVisibleText] using h
      | reasoning => simp [isVisibleText] at h
      | tool => simp [isVisibleText] at h
      | other => simp [isVisibleText] at h
    unfold keptParts
    split_ifs with hk
    · simp [ih]
    · have hnot : part.isVisibleText = false := by
        by_contra h
        exact hk (hkeep (by simpa using h))
      simp [ih, hnot]

end ProviderHistory
