import FlowDeck.Provider.ReplayTurns
import Mathlib.Data.List.Chain

/-! When a sanitized history is safe and a fixed point of the sanitizer. -/

namespace ProviderHistory

open List

/-! ### Merging users' turns -/

/-- No two turns of users stand next to each other. -/
abbrev Alternating (msgs : List Message) : Prop :=
  msgs.IsChain fun a b => ¬(a.info.role = .user ∧ b.info.role = .user)

theorem mergeTurn_cases (result : List Message) (msg : Message) :
    (mergeTurn result msg = result ++ [msg] ∧
      ∀ last, result.getLast? = some last →
        ¬(last.info.role = .user ∧ msg.info.role = .user)) ∨
    ∃ front last, result = front ++ [last] ∧ last.info.role = .user ∧ msg.info.role = .user ∧
      mergeTurn result msg = front ++ [mergeTurns last msg] := by
  unfold mergeTurn
  cases hlast : result.getLast? with
  | none => exact .inl ⟨rfl, by simp⟩
  | some last =>
    obtain ⟨front, rfl⟩ := getLast?_eq_some_iff.mp hlast
    simp only
    split_ifs with huser
    · exact .inr ⟨front, last, rfl, huser.2, huser.1, by simp⟩
    · refine .inl ⟨rfl, fun other hother => ?_⟩
      obtain rfl := Option.some.inj hother
      exact fun h => huser ⟨h.2, h.1⟩

theorem mergeTurn_facts (result : List Message) (msg : Message) :
    (mergeTurn result msg).flatMap callIds = result.flatMap callIds ++ callIds msg ∧
      (∀ m, m.info.role = .assistant → (m ∈ mergeTurn result msg ↔ m ∈ result ++ [msg])) ∧
      ((∀ m ∈ result ++ [msg], Replayable m) → ∀ m ∈ mergeTurn result msg, Replayable m) ∧
      (mergeTurn result msg).length ≤ result.length + 1 := by
  rcases mergeTurn_cases result msg with ⟨heq, -⟩ | ⟨front, last, rfl, hlast, hmsg, heq⟩
  · rw [heq]
    exact ⟨by simp, fun m _ => Iff.rfl, id, by simp⟩
  · have hmerged : (mergeTurns last msg).info.role = .user := hlast
    rw [heq]
    refine ⟨?_, ?_, ?_, ?_⟩
    · simp [callIds, hlast, hmsg, hmerged]
    · intro m hm
      have hne (other : Message) (h : other.info.role = .user) : m ≠ other := by
        intro heq
        simp [← heq, hm] at h
      simp [hne last hlast, hne msg hmsg, hne _ hmerged]
    · intro hall m hm
      rcases mem_append.mp hm with hfront | hm
      · exact hall m (by simp [hfront])
      · obtain rfl := mem_singleton.mp hm
        refine ⟨(hall last (by simp)).error, by simp [mergeTurns], ?_, ?_⟩
        · simp [hmerged]
        · simp [hmerged]
    · simp

theorem mergeTurn_alternating {result : List Message} (h : Alternating result) (msg : Message) :
    Alternating (mergeTurn result msg) := by
  rcases mergeTurn_cases result msg with ⟨heq, hlast⟩ | ⟨front, last, rfl, hlast, hmsg, heq⟩
  · rw [heq]
    apply isChain_append.mpr ⟨h, isChain_singleton _, _⟩
    intro a ha b hb
    simp only [head?_cons, Option.mem_some_iff] at hb
    exact hb ▸ hlast a ha
  · rw [heq]
    obtain ⟨hfront, -, hjoin⟩ := isChain_append.mp h
    apply isChain_append.mpr ⟨hfront, isChain_singleton _, _⟩
    intro a ha b hb
    simp only [head?_cons, Option.mem_some_iff] at hb
    have hold := hjoin a ha last (by simp)
    intro hboth
    exact hold ⟨hboth.1, hlast⟩

theorem foldl_mergeTurn_facts (result msgs : List Message) :
    (msgs.foldl mergeTurn result).flatMap callIds = (result ++ msgs).flatMap callIds ∧
      (∀ m, m.info.role = .assistant →
        (m ∈ msgs.foldl mergeTurn result ↔ m ∈ result ++ msgs)) ∧
      ((∀ m ∈ result ++ msgs, Replayable m) →
        ∀ m ∈ msgs.foldl mergeTurn result, Replayable m) ∧
      (msgs.foldl mergeTurn result).length ≤ result.length + msgs.length ∧
      (Alternating result → Alternating (msgs.foldl mergeTurn result)) := by
  induction msgs generalizing result with
  | nil => simp
  | cons msg msgs ih =>
    obtain ⟨hcalls, hmem, hturns, hlength⟩ := mergeTurn_facts result msg
    obtain ⟨hcalls', hmem', hturns', hlength', halt'⟩ := ih (mergeTurn result msg)
    rw [foldl_cons]
    refine ⟨?_, ?_, ?_, ?_, ?_⟩
    · rw [hcalls', flatMap_append, hcalls]
      simp
    · intro m hm
      rw [hmem' m hm, mem_append, hmem m hm]
      simp [or_assoc]
    · intro hall
      apply hturns'
      intro m hm
      rcases mem_append.mp hm with hm | hm
      · apply hturns _ m hm
        intro m hm
        apply hall
        rcases mem_append.mp hm with hm | hm
        · simp [hm]
        · simp [mem_singleton.mp hm]
      · exact hall m (by simp [hm])
    · simp only [length_cons]
      omega
    · exact fun halt => halt' (mergeTurn_alternating halt msg)

theorem foldl_mergeTurn_eq_self {result msgs : List Message} (h : Alternating (result ++ msgs)) :
    msgs.foldl mergeTurn result = result ++ msgs := by
  induction msgs generalizing result with
  | nil => simp
  | cons msg msgs ih =>
    have hstep : mergeTurn result msg = result ++ [msg] := by
      rcases mergeTurn_cases result msg with ⟨heq, -⟩ | ⟨front, last, rfl, hlast, hmsg, -⟩
      · exact heq
      · have hjoin := (isChain_append.mp h).2.2
        exact absurd ⟨hlast, hmsg⟩ (hjoin last (by simp) msg (by simp))
    have halt : Alternating (result ++ [msg] ++ msgs) := by simpa using h
    rw [foldl_cons, hstep, ih halt, append_assoc, singleton_append]

theorem mergeAdjacentUserTurns_idem (msgs : List Message) :
    mergeAdjacentUserTurns (mergeAdjacentUserTurns msgs) = mergeAdjacentUserTurns msgs := by
  have halt : Alternating (mergeAdjacentUserTurns msgs) :=
    (foldl_mergeTurn_facts [] msgs).2.2.2.2 isChain_nil
  exact foldl_mergeTurn_eq_self halt

theorem clean_merge {msgs : List Message} (h : Clean msgs) :
    Clean (mergeAdjacentUserTurns msgs) := by
  obtain ⟨hcalls, -, hturns, -⟩ := foldl_mergeTurn_facts [] msgs
  refine ⟨hturns h.turns, ?_⟩
  rw [mergeAdjacentUserTurns, hcalls]
  exact h.calls

/-! ### Fixed points -/

/-- A history shrinks when one of its turns can never be replayed. -/
theorem length_replayTurns_le {p : Option Message → Bool}
    (hp : ∀ msg seen m, msg.bind (replayed seen) = some m → p msg = true)
    (seen : List String) (msgs : List (Option Message)) :
    (replayTurns seen msgs).length ≤ msgs.countP p := by
  induction msgs generalizing seen with
  | nil => simp [replayTurns]
  | cons msg msgs ih =>
    have hrest := ih ((liveParts msg).foldl note seen)
    rw [replayTurns, length_append, countP_cons]
    cases hm : msg.bind (replayed seen) with
    | none =>
      simp only [Option.toList_none, length_nil]
      omega
    | some m =>
      simp only [Option.toList_some, length_singleton, hp msg seen m hm, if_true]
      omega

theorem hasContent_of_fixed {msgs : List Message}
    (hfixed : sanitizeReplayHistory (msgs.map some) = msgs) {m : Message} (hm : m ∈ msgs)
    (hrole : m.info.role = .assistant) : hasContent m.parts = true := by
  by_contra hnone
  have hp : ∀ msg seen out, Option.bind msg (replayed seen) = some out →
      decide (msg ≠ some m) = true := by
    intro msg seen out hout
    simp only [decide_eq_true_eq]
    rintro rfl
    cases herror : m.info.error <;> simp [replayed, hrole, hnone, herror] at hout
  have hturns := length_replayTurns_le hp [] (msgs.map some)
  have hmerge := (foldl_mergeTurn_facts [] (replayTurns [] (msgs.map some))).2.2.2.1
  have hlength : msgs.length = (mergeAdjacentUserTurns (replayTurns [] (msgs.map some))).length := by
    rw [← sanitizeReplayHistory_eq, hfixed]
  have hless : (msgs.map some).countP (fun msg => decide (msg ≠ some m)) < msgs.length := by
    have hle : (msgs.map some).countP (fun msg => decide (msg ≠ some m)) ≤ (msgs.map some).length :=
      countP_le_length
    have hne : (msgs.map some).countP (fun msg => decide (msg ≠ some m)) ≠ (msgs.map some).length := by
      intro heq
      simpa using countP_eq_length.mp heq (some m) (mem_map_of_mem hm)
    rw [length_map] at hle hne
    omega
  rw [mergeAdjacentUserTurns] at hlength
  simp only [length_nil, Nat.zero_add] at hmerge
  omega

/-- An assistant's turn whose only content is completed calls has one that is not made earlier in the
history or in the turn itself. -/
def KeepsCompletedCall (pre : List (Option Message)) (msg : Message) : Prop :=
  msg.info.role = .assistant → msg.info.error = false →
    msg.parts.any Part.isVisibleText = false → msg.parts.any Part.isCompletedTool = true →
      ∃ before part after, msg.parts = before ++ part :: after ∧ part.isCompletedTool = true ∧
        ∀ key, part.settledId = some key →
          key ∉ settledIds (callsBefore pre) ∧ key ∉ settledIds before

/-- What `sanitizeReplayHistory` returns is reported as safe and is a fixed point of it exactly when
every turn that it keeps for a completed call keeps such a call. -/
theorem sanitize_safe_and_fixed_iff (msgs : List (Option Message)) :
    ((validateHistorySafety ((sanitizeReplayHistory msgs).map some)).safe = true ∧
      sanitizeReplayHistory ((sanitizeReplayHistory msgs).map some) =
        sanitizeReplayHistory msgs) ↔
      ∀ pre msg post, msgs = pre ++ some msg :: post → KeepsCompletedCall pre msg := by
  constructor
  · intro ⟨_, hfixed⟩ pre msg post heq hrole herror htext hdone
    have hcontent : hasContent msg.parts = true := by simp [hasContent, hdone]
    have hturn : replayed ((callsBefore pre).foldl note []) msg =
        some ⟨msg.info, keptParts ((callsBefore pre).foldl note []) msg.parts⟩ := by
      simp [replayed, herror, hrole, hcontent]
    have hmem := mem_replayTurns.mpr ⟨pre, msg, post, heq, hturn⟩
    have hout (m : Message) (hm : m ∈ replayTurns [] msgs) (hrole : m.info.role = .assistant) :
        m ∈ sanitizeReplayHistory msgs := by
      rw [sanitizeReplayHistory_eq]
      exact ((foldl_mergeTurn_facts [] (replayTurns [] msgs)).2.1 m hrole).mpr hm
    have hkept := hasContent_of_fixed hfixed (hout _ hmem hrole) hrole
    rw [hasContent, any_visible_keptParts, htext, Bool.false_or] at hkept
    obtain ⟨before, part, after, hparts, hpart, hnew⟩ := any_completed_keptParts.mp hkept
    refine ⟨before, part, after, hparts, hpart, fun key hkey => ?_⟩
    obtain ⟨hseen, hbefore⟩ := hnew key hkey
    exact ⟨fun h => hseen (mem_foldl_note.mpr (.inr h)), hbefore⟩
  · intro hkeeps
    have hclean : Clean (replayTurns [] msgs) := by
      refine ⟨fun m hm => replayable_of_content hm fun hrole => ?_, (calls_replayTurns [] msgs).1⟩
      obtain ⟨pre, msg, post, heq, hturn⟩ := mem_replayTurns.mp hm
      obtain ⟨hinfo, herror, -, hkept⟩ := replayed_facts hturn
      rw [hinfo] at hrole
      rw [hkept hrole, hasContent, any_visible_keptParts]
      cases htext : msg.parts.any Part.isVisibleText with
      | true => rfl
      | false =>
        have hcontent : hasContent msg.parts = true := by
          by_contra hnone
          simp [replayed, herror, hrole, hnone] at hturn
        have hdone : msg.parts.any Part.isCompletedTool = true := by
          simpa only [hasContent, htext, Bool.false_or] using hcontent
        obtain ⟨before, part, after, hparts, hpart, hnew⟩ :=
          hkeeps pre msg post heq hrole herror htext hdone
        rw [Bool.false_or]
        apply any_completed_keptParts.mpr
        refine ⟨before, part, after, hparts, hpart, fun key hkey => ?_⟩
        obtain ⟨hcalls, hbefore⟩ := hnew key hkey
        refine ⟨fun h => ?_, hbefore⟩
        rcases mem_foldl_note.mp h with h | h
        · exact absurd h not_mem_nil
        · exact hcalls h
    rw [sanitizeReplayHistory_eq msgs]
    have hmerged := clean_merge hclean
    refine ⟨validateHistorySafety_clean hmerged, ?_⟩
    rw [sanitizeReplayHistory_eq, replayTurns_eq_self hmerged (by simp),
      mergeAdjacentUserTurns_idem]

def repeatingHistory : List (Option Message) :=
  [some ⟨⟨"m1", .assistant, false⟩, [.tool (some "p1") (some "call-1") (.text "completed")]⟩,
    some ⟨⟨"m2", .assistant, false⟩, [.tool (some "p2") (some "call-1") (.text "completed")]⟩]

/-- The turn is replayed without parts, reported as unsafe and dropped by a second pass. -/
theorem repeated_call_replayed_empty :
    sanitizeReplayHistory repeatingHistory =
        [⟨⟨"m1", .assistant, false⟩, [.tool (some "p1") (some "call-1") (.text "completed")]⟩,
          ⟨⟨"m2", .assistant, false⟩, []⟩] ∧
      (validateHistorySafety ((sanitizeReplayHistory repeatingHistory).map some)).safe = false ∧
      sanitizeReplayHistory ((sanitizeReplayHistory repeatingHistory).map some) ≠
        sanitizeReplayHistory repeatingHistory := by
  decide +kernel

end ProviderHistory
