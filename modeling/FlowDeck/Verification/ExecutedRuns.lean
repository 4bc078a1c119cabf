import FlowDeck.Library.Numerals
import FlowDeck.Verification.PlanExecutor
import FlowDeck.Verification.RunValidity

/-! The results of a plan's checks, grouped by the execution they share. -/

namespace PlanExecutor

open CalibrationHistory CheckResolution Paths PolicyStore RunArtifact RuntimeIngest

theorem trimmed_ne_empty {text : String} {mark : Char} {rest : List Char}
    (h : text.toList = mark :: rest) (hmark : isWhitespace mark = false) : trimmed text ≠ "" := by
  intro hempty
  have hnil : trim text.toList = [] := by
    have htext := congrArg String.toList hempty
    simpa [trimmed] using htext
  rw [h, trim, List.dropWhile_cons_of_neg (by simp [hmark])] at hnil
  have hall := List.dropWhile_eq_nil_iff.mp (List.reverse_eq_nil_iff.mp hnil)
  have hwhite := hall mark (List.mem_reverse.mpr List.mem_cons_self)
  rw [hmark] at hwhite
  exact Bool.false_ne_true hwhite

/-- An execution is told by its count, the part after the last underscore. -/
theorem generateExecutionId_inj {program program' : String} {ms ms' n n' : Nat}
    (h : generateExecutionId program ms n = generateExecutionId program' ms' n') : n = n' := by
  have hsegment : ∀ (k : Nat) (before : List Char),
      ((before ++ '_' :: (toString k).toList).splitOn '_').getLast? = some (toString k).toList := by
    intro k before
    have hdigits : '_' ∉ (toString k).toList := Decimal.notMem_toString (by decide) k
    rw [List.splitOn_append_cons_self, List.splitOn_eq_singleton hdigits, List.getLast?_concat]
  have hlist := congrArg (fun text : String => (text.toList.splitOn '_').getLast?) h
  have hid : ∀ (name : String) (ms k : Nat), (generateExecutionId name ms k).toList =
      ("exec_" ++ toString ms ++ "_" ++ (fileStem? name).getD "proc").toList ++
        '_' :: (toString k).toList := by
    intro name ms k
    simp [generateExecutionId]
  simp only [hid, hsegment] at hlist
  exact Decimal.toString_inj (Option.some.inj hlist)

/-- The checks of each execution are one it was run for and others that reuse its evidence. -/
structure Grouped (results : List CheckExecutionResult) : Prop where
  named : ∀ r ∈ results, trimmed r.executionId ≠ ""
  primary : ∀ r ∈ results, ((results.filter fun member => member.executionId = r.executionId).filter
    fun member => !member.reusedExecution).length = 1
  evidence : ∀ a ∈ results, ∀ b ∈ results, a.executionId = b.executionId → SameEvidence a b

theorem grouped_nil : Grouped [] := by
  refine ⟨?_, ?_, ?_⟩
  · intro r hr
    exact absurd hr List.not_mem_nil
  · intro r hr
    exact absurd hr List.not_mem_nil
  · intro a ha
    exact absurd ha List.not_mem_nil

section Grouped

variable {results : List CheckExecutionResult} {r : CheckExecutionResult}

/-- A check that an execution was run for begins a group. -/
theorem Grouped.fresh (h : Grouped results) (hnamed : trimmed r.executionId ≠ "")
    (hfresh : ∀ s ∈ results, s.executionId ≠ r.executionId) (hprimary : r.reusedExecution = false) :
    Grouped (results ++ [r]) := by
  have hnone : (results.filter fun member => member.executionId = r.executionId) = [] := by
    apply List.filter_eq_nil_iff.mpr
    intro s hs
    simpa using hfresh s hs
  refine ⟨?_, ?_, ?_⟩
  · intro s hs
    cases List.mem_append.mp hs with
    | inl hold => exact h.named s hold
    | inr hnew => exact (List.mem_singleton.mp hnew) ▸ hnamed
  · intro s hs
    cases List.mem_append.mp hs with
    | inl hold =>
      have hother : r.executionId ≠ s.executionId := fun heq => hfresh s hold heq.symm
      have hlength := h.primary s hold
      simpa [List.filter_append, List.filter_cons, hother] using hlength
    | inr hnew =>
      obtain rfl := List.mem_singleton.mp hnew
      simp only [List.filter_append, hnone]
      simp [hprimary]
  · intro a ha b hb hid
    cases List.mem_append.mp ha with
    | inl holdA =>
      cases List.mem_append.mp hb with
      | inl holdB => exact h.evidence a holdA b holdB hid
      | inr hnewB =>
        obtain rfl := List.mem_singleton.mp hnewB
        exact absurd hid (hfresh a holdA)
    | inr hnewA =>
      obtain rfl := List.mem_singleton.mp hnewA
      cases List.mem_append.mp hb with
      | inl holdB => exact absurd hid.symm (hfresh b holdB)
      | inr hnewB =>
        obtain rfl := List.mem_singleton.mp hnewB
        exact SameEvidence.refl b

theorem Grouped.reuse (h : Grouped results) {first : CheckExecutionResult}
    (hfirst : first ∈ results) (hid : first.executionId = r.executionId)
    (hsame : SameEvidence first r) (hreused : r.reusedExecution = true) :
    Grouped (results ++ [r]) := by
  refine ⟨?_, ?_, ?_⟩
  · intro s hs
    cases List.mem_append.mp hs with
    | inl hold => exact h.named s hold
    | inr hnew =>
      obtain rfl := List.mem_singleton.mp hnew
      exact hid ▸ h.named first hfirst
  · intro s hs
    have hgroup : ∃ t ∈ results, t.executionId = s.executionId := by
      cases List.mem_append.mp hs with
      | inl hold => exact ⟨s, hold, rfl⟩
      | inr hnew =>
        obtain rfl := List.mem_singleton.mp hnew
        exact ⟨first, hfirst, hid⟩
    obtain ⟨t, ht, htid⟩ := hgroup
    have hlength := h.primary t ht
    rw [htid] at hlength
    by_cases hmember : r.executionId = s.executionId
    · simpa [List.filter_append, List.filter_cons, hmember, hreused] using hlength
    · simpa [List.filter_append, List.filter_cons, hmember] using hlength
  · intro a ha b hb haid
    cases List.mem_append.mp ha with
    | inl holdA =>
      cases List.mem_append.mp hb with
      | inl holdB => exact h.evidence a holdA b holdB haid
      | inr hnewB =>
        obtain rfl := List.mem_singleton.mp hnewB
        exact (h.evidence a holdA first hfirst (haid.trans hid.symm)).trans hsame
    | inr hnewA =>
      obtain rfl := List.mem_singleton.mp hnewA
      cases List.mem_append.mp hb with
      | inl holdB => exact hsame.symm.trans (h.evidence first hfirst b holdB (hid.trans haid))
      | inr hnewB =>
        obtain rfl := List.mem_singleton.mp hnewB
        exact SameEvidence.refl b

end Grouped

end PlanExecutor

/-! The runs of the executor: their checks are distinct, planned and grouped by execution. -/

namespace PlanExecutor

open CalibrationHistory CheckDiscovery CheckResolution Paths PolicyStore RunArtifact RuntimeIngest

section Deduplicate

/-- What the deduplication keeps of the plan's checks. -/
structure Distinct (d : Deduplication) (checks : List PlannedCheck) : Prop where
  distinct : (d.uniqueChecks.map PlannedCheck.checkId).Nodup
  planned : ∀ check ∈ d.uniqueChecks, check ∈ checks

theorem deduplicateStep_distinct {d : Deduplication} {checks : List PlannedCheck}
    (h : Distinct d checks) (check : PlannedCheck) :
    Distinct (deduplicateStep d check) (checks ++ [check]) := by
  have hplanned : ∀ kept ∈ d.uniqueChecks, kept ∈ checks ++ [check] := fun kept hkept =>
    List.mem_append_left _ (h.planned kept hkept)
  cases hfind : d.uniqueChecks.find? fun existing => existing.checkId = check.checkId with
  | some existing =>
    have hsame : (deduplicateStep d check).uniqueChecks = d.uniqueChecks := by
      simp only [deduplicateStep, hfind]
      split_ifs <;> rfl
    exact ⟨hsame ▸ h.distinct, hsame ▸ hplanned⟩
  | none =>
    have hnew : (deduplicateStep d check).uniqueChecks = d.uniqueChecks ++ [check] := by
      simp only [deduplicateStep, hfind]
    have hfresh : check.checkId ∉ d.uniqueChecks.map PlannedCheck.checkId := by
      intro hmem
      obtain ⟨kept, hkept, hid⟩ := List.mem_map.mp hmem
      have hnot := List.find?_eq_none.mp hfind kept hkept
      exact hnot (decide_eq_true hid)
    refine ⟨?_, ?_⟩
    · rw [hnew, List.map_append, List.map_singleton, List.nodup_append]
      refine ⟨h.distinct, List.nodup_singleton _, ?_⟩
      intro a ha b hb heq
      rw [List.mem_singleton.mp hb] at heq
      exact hfresh (heq ▸ ha)
    · intro kept hkept
      rw [hnew] at hkept
      cases List.mem_append.mp hkept with
      | inl hold => exact hplanned kept hold
      | inr hlast => exact List.mem_append_right _ hlast

theorem deduplicate_distinct (plan : VerificationPlan) :
    Distinct (deduplicate plan) plan.selectedChecks := by
  have hfold : ∀ (before rest : List PlannedCheck) (d : Deduplication), Distinct d before →
      Distinct (rest.foldl deduplicateStep d) (before ++ rest) := by
    intro before rest
    induction rest generalizing before with
    | nil =>
      intro d h
      simpa using h
    | cons check rest ih =>
      intro d h
      have hstep := ih (before ++ [check]) _ (deduplicateStep_distinct h check)
      simpa using hstep
  have hempty : Distinct {} [] := ⟨List.nodup_nil, fun check hcheck => hcheck⟩
  simpa [deduplicate] using hfold [] plan.selectedChecks {} hempty

end Deduplicate

/-- A check is performed where the run does not stop before it: it is in conflict with no other, and
has something to run. -/
def Performs (c : Checkout) (conflicting : List (String × String)) (i : Nat) (check : PlannedCheck)
    (inv : ConcreteInvocation) : Prop :=
  conflicting.lookup check.checkId = none ∧ resolve c i check = .ok inv

/-- A process may pass: some of its output may be read. -/
def Passable (bounds : ProcessBounds) : Prop := 0 < bounds.maxStdoutBytes ∧ 0 < bounds.maxStderrBytes

/-- Under fail-fast, a run comes to a check where each one before it is performed and may pass. -/
def ComesTo (c : Checkout) (options : VerificationExecutorOptions)
    (conflicting : List (String × String)) (checks : List PlannedCheck) (j : Nat) : Prop :=
  options.failFast = true → ∀ k < j, ∀ e, checks[k]? = some e →
    (∃ inv, Performs c conflicting k e inv) ∧ Passable options.bounds

def WrittenAlike (c : Checkout) (options : VerificationExecutorOptions) (plan : VerificationPlan) :
    Prop :=
  ∀ i j, i < j → ∀ a b, (deduplicate plan).uniqueChecks[i]? = some a →
    (deduplicate plan).uniqueChecks[j]? = some b →
    ComesTo c options (deduplicate plan).conflicting (deduplicate plan).uniqueChecks j →
    ∀ inv inv', Performs c (deduplicate plan).conflicting i a inv →
      Performs c (deduplicate plan).conflicting j b inv' → inv.cacheKey = inv'.cacheKey →
      displayCwd c.root inv.cwd = displayCwd c.root inv'.cwd

/-- The labels of the ids that are made up for checks that are not run. -/
def labels : List String := ["skipped:", "conflict:", "unsupported:"]

section Steps

variable {x : Services} {c : Checkout} {options : VerificationExecutorOptions}
  {conflicting : List (String × String)} {w : World} {done : List PlannedCheck} {p : Progress}

/-- What holds of a run after the checks `done`. -/
structure Inv (c : Checkout) (options : VerificationExecutorOptions)
    (conflicting : List (String × String)) (w : World) (done : List PlannedCheck) (p : Progress) :
    Prop where
  checks : p.results.map CheckExecutionResult.checkId = done.map PlannedCheck.checkId
  grouped : Grouped p.results
  ids : ∀ r ∈ p.results, (∃ label ∈ labels, r.executionId = label ++ r.checkId) ∨
    ∃ j < done.length, ∃ program ms, r.executionId = generateExecutionId program ms (w.execCount j)
  cached : ∀ key outcome, p.invocationCache.lookup key = some outcome →
    ∃ j a inv, done[j]? = some a ∧ Performs c conflicting j a inv ∧ inv.cacheKey = key ∧
      runResult c.root a inv outcome false ∈ p.results
  counted : ∀ key outcome, p.invocationCache.lookup key = some outcome →
    ∃ j < done.length, ∃ program ms,
      outcome.executionId = generateExecutionId program ms (w.execCount j)
  clear : p.failFastTriggered = false → ComesTo c options conflicting done done.length

theorem inv_start : Inv c options conflicting w [] {} := by
  refine ⟨rfl, grouped_nil, ?_, ?_, ?_, ?_⟩
  · intro r hr
    exact absurd hr List.not_mem_nil
  · intro key outcome h
    exact absurd h.symm (Option.some_ne_none outcome)
  · intro key outcome h
    exact absurd h.symm (Option.some_ne_none outcome)
  · intro _ _ k hk
    exact absurd hk (Nat.not_lt_zero k)

theorem label_append_inj {label label' a b : String} (h : label ∈ labels) (h' : label' ∈ labels)
    (heq : label ++ a = label' ++ b) : a = b := by
  have hlist := congrArg String.toList heq
  simp only [labels, List.mem_cons, List.not_mem_nil, or_false] at h h'
  rcases h with rfl | rfl | rfl <;> rcases h' with rfl | rfl | rfl <;>
    simp [String.toList_inj] at hlist <;> exact hlist

theorem label_ne_execution {label : String} (h : label ∈ labels) (a program : String) (ms n : Nat) :
    label ++ a ≠ generateExecutionId program ms n := by
  intro heq
  have hlist := congrArg String.toList heq
  simp only [labels, List.mem_cons, List.not_mem_nil, or_false] at h
  rcases h with rfl | rfl | rfl <;> simp [generateExecutionId] at hlist

theorem label_named {label : String} (h : label ∈ labels) (a : String) :
    trimmed (label ++ a) ≠ "" := by
  simp only [labels, List.mem_cons, List.not_mem_nil, or_false] at h
  rcases h with rfl | rfl | rfl <;>
    exact trimmed_ne_empty (String.toList_append ..) (by decide)

theorem execution_named (program : String) (ms n : Nat) :
    trimmed (generateExecutionId program ms n) ≠ "" := by
  have hlist : (generateExecutionId program ms n).toList = 'e' :: ("xec_".toList ++
      (toString ms).toList ++ "_".toList ++ ((fileStem? program).getD "proc").toList ++
      "_".toList ++ (toString n).toList) := by
    simp [generateExecutionId]
  exact trimmed_ne_empty hlist (by decide)

theorem executionId_executeBoundedCommand (bounds : ProcessBounds) (program : String) (count : Nat)
    (process : Process) :
    (executeBoundedCommand x bounds program count process).executionId =
      generateExecutionId program process.startedAtMs count := by
  unfold executeBoundedCommand
  cases process.ending <;> rfl

theorem not_exceeded (bounds : ProcessBounds) (timedOut exceeded : Bool)
    (exitCode : Option Int) (signal : Option String)
    (hincomplete : isIncomplete (endStatus bounds timedOut exceeded exitCode signal).1 = false) :
    exceeded = false := by
  unfold endStatus at hincomplete
  split_ifs at hincomplete with htimed hexceeded
  · simp [isIncomplete] at hincomplete
  · simp [isIncomplete] at hincomplete
  · simpa using hexceeded

/-- A process that is not cut short has written less than the bounds allow. -/
theorem passable_of_complete {bounds : ProcessBounds} {program : String} {count : Nat}
    {process : Process}
    (hincomplete : isIncomplete (executeBoundedCommand x bounds program count process).status =
      false) : Passable bounds := by
  unfold executeBoundedCommand at hincomplete
  cases hending : process.ending with
  | ended timedOut overflowed exitCode signal stdout stderr =>
    simp only [hending] at hincomplete
    have hread := not_exceeded _ _ _ _ _ hincomplete
    simp only [Bool.or_eq_false_iff, decide_eq_false_iff_not, not_le] at hread
    exact ⟨by omega, by omega⟩
  | unsupportedPlatform => simp [hending, unreadOutcome, isIncomplete] at hincomplete
  | spawnError e => simp [hending, unreadOutcome, isIncomplete] at hincomplete
  | waitError e => simp [hending, unreadOutcome, isIncomplete] at hincomplete

theorem Inv.mem_ids (h : Inv c options conflicting w done p) {r : CheckExecutionResult}
    (hr : r ∈ p.results) : r.checkId ∈ done.map PlannedCheck.checkId := by
  rw [← h.checks]
  exact List.mem_map_of_mem hr

theorem getElem?_concat_lt {check e : PlannedCheck} {k : Nat} (h : (done ++ [check])[k]? = some e) :
    done[k]? = some e ∨ k = done.length ∧ e = check := by
  rw [List.getElem?_append] at h
  split_ifs at h with hlt
  · exact Or.inl h
  · obtain ⟨hzero, hsame⟩ := List.getElem?_eq_some_iff.mp h
    simp only [List.length_singleton] at hzero
    have hk : k = done.length := by omega
    subst hk
    simp only [Nat.sub_self, List.getElem_cons_zero] at hsame
    exact Or.inr ⟨rfl, hsame.symm⟩

theorem getElem?_concat_of {check e : PlannedCheck} {k : Nat} (h : done[k]? = some e) :
    (done ++ [check])[k]? = some e := by
  obtain ⟨hlt, -⟩ := List.getElem?_eq_some_iff.mp h
  rw [List.getElem?_append_left hlt, h]

theorem inv_notRun (h : Inv c options conflicting w done p) {check : PlannedCheck}
    (hfresh : check.checkId ∉ done.map PlannedCheck.checkId) {status : CheckExecutionStatus}
    {label reason : String} {now : Nat} (hlabel : label ∈ labels) {p' : Progress}
    (hresults : p'.results = p.results ++ [notRun check status label now reason])
    (hcache : p'.invocationCache = p.invocationCache)
    (hstops : options.failFast = true → p'.failFastTriggered = true) :
    Inv c options conflicting w (done ++ [check]) p' := by
  refine ⟨?_, ?_, ?_, ?_, ?_, ?_⟩
  · rw [hresults, List.map_append, List.map_append, h.checks]
    rfl
  · rw [hresults]
    refine h.grouped.fresh (label_named hlabel check.checkId) ?_ rfl
    intro s hs heq
    have hid : s.executionId = label ++ check.checkId := heq
    cases h.ids s hs with
    | inl hmade =>
      obtain ⟨label', hlabel', hmade⟩ := hmade
      have hsame := label_append_inj hlabel' hlabel (hmade.symm.trans hid)
      exact hfresh (hsame ▸ h.mem_ids hs)
    | inr hrun =>
      obtain ⟨j, -, program, ms, hrun⟩ := hrun
      exact label_ne_execution hlabel _ _ _ _ (hid.symm.trans hrun)
  · intro r hr
    rw [hresults] at hr
    cases List.mem_append.mp hr with
    | inl hold =>
      refine (h.ids r hold).imp id ?_
      intro hrun
      obtain ⟨j, hj, hrun⟩ := hrun
      exact ⟨j, by simp; omega, hrun⟩
    | inr hnew =>
      obtain rfl := List.mem_singleton.mp hnew
      exact Or.inl ⟨label, hlabel, rfl⟩
  · intro key outcome hlookup
    rw [hcache] at hlookup
    obtain ⟨j, a, inv, hj, hperforms, hkey, hmem⟩ := h.cached key outcome hlookup
    exact ⟨j, a, inv, getElem?_concat_of hj, hperforms, hkey,
      hresults ▸ List.mem_append_left _ hmem⟩
  · intro key outcome hlookup
    rw [hcache] at hlookup
    obtain ⟨j, hj, hcount⟩ := h.counted key outcome hlookup
    exact ⟨j, by simp; omega, hcount⟩
  · intro hflag hfast
    rw [hstops hfast] at hflag
    exact absurd hflag (Bool.false_ne_true ∘ Eq.symm)

/-- What the cache answers was stored for a check of the run, or has just been. -/
theorem lookup_concat {key key' : InvocationKey} {outcome outcome' : RawProcessOutcome}
    {cache : List (InvocationKey × RawProcessOutcome)}
    (h : (cache ++ [(key', outcome')]).lookup key = some outcome) :
    cache.lookup key = some outcome ∨ key = key' ∧ outcome = outcome' := by
  induction cache with
  | nil =>
    by_cases hkey : key = key'
    · simp only [List.nil_append, hkey, List.lookup_cons_self, Option.some.injEq] at h
      exact Or.inr ⟨hkey, h.symm⟩
    · have hne : (key == key') = false := beq_eq_false_iff_ne.mpr hkey
      simp [List.lookup_cons, hne] at h
  | cons entry cache ih =>
    obtain ⟨other, stored⟩ := entry
    rw [List.cons_append, List.lookup_cons] at h
    rw [List.lookup_cons]
    cases hhead : key == other with
    | true =>
      simp only [hhead] at h ⊢
      exact Or.inl h
    | false =>
      simp only [hhead] at h ⊢
      exact ih h

section Invoke

variable {check : PlannedCheck} {inv : ConcreteInvocation}

/-- The checks so far and this one are performed, where none before it stopped the run. -/
theorem Inv.clear_concat (h : Inv c options conflicting w done p)
    (hperforms : Performs c conflicting done.length check inv) (hgoes : p.failFastTriggered = false)
    (hpass : options.failFast = true → Passable options.bounds) :
    ComesTo c options conflicting (done ++ [check]) (done ++ [check]).length := by
  intro hfast k hk e he
  cases getElem?_concat_lt he with
  | inl hold =>
    obtain ⟨hlt, -⟩ := List.getElem?_eq_some_iff.mp hold
    exact h.clear hgoes hfast k hlt e hold
  | inr hlast =>
    obtain ⟨rfl, rfl⟩ := hlast
    exact ⟨⟨inv, hperforms⟩, hpass hfast⟩

theorem Inv.ids_concat (h : Inv c options conflicting w done p) (check : PlannedCheck)
    {r : CheckExecutionResult} (hr : r ∈ p.results) :
    (∃ label ∈ labels, r.executionId = label ++ r.checkId) ∨
      ∃ j < (done ++ [check]).length, ∃ program ms,
        r.executionId = generateExecutionId program ms (w.execCount j) := by
  refine (h.ids r hr).imp id ?_
  intro hrun
  obtain ⟨j, hj, hrun⟩ := hrun
  exact ⟨j, by simp; omega, hrun⟩

theorem inv_cached (h : Inv c options conflicting w done p)
    (hperforms : Performs c conflicting done.length check inv)
    (hgoes : p.failFastTriggered = false) {cached : RawProcessOutcome}
    (hlookup : p.invocationCache.lookup inv.cacheKey = some cached)
    (halike : ∀ j a first, done[j]? = some a → Performs c conflicting j a first →
      first.cacheKey = inv.cacheKey → displayCwd c.root first.cwd = displayCwd c.root inv.cwd)
    {p' : Progress} (hresults : p'.results = p.results ++ [runResult c.root check inv cached true])
    (hcache : p'.invocationCache = p.invocationCache) :
    Inv c options conflicting w (done ++ [check]) p' := by
  obtain ⟨j, a, first, hj, hfirst, hkey, hmem⟩ := h.cached _ _ hlookup
  have hcommand : first.program = inv.program ∧ first.argv = inv.argv :=
    ⟨congrArg Prod.fst hkey, congrArg (fun key => key.2.1) hkey⟩
  have hsame : SameEvidence (runResult c.root a first cached false)
      (runResult c.root check inv cached true) := by
    refine ⟨rfl, ?_, (halike j a first hj hfirst hkey).symm, rfl, rfl, rfl, rfl, rfl, rfl, rfl, rfl,
      rfl, rfl⟩
    simp only [runResult, hcommand.1, hcommand.2]
  refine ⟨?_, ?_, ?_, ?_, ?_, ?_⟩
  · rw [hresults, List.map_append, List.map_append, h.checks]
    rfl
  · rw [hresults]
    exact h.grouped.reuse hmem rfl hsame rfl
  · intro r hr
    rw [hresults] at hr
    cases List.mem_append.mp hr with
    | inl hold => exact h.ids_concat check hold
    | inr hnew =>
      obtain rfl := List.mem_singleton.mp hnew
      obtain ⟨i, hi, hcount⟩ := h.counted _ _ hlookup
      exact Or.inr ⟨i, by simp; omega, hcount⟩
  · intro key outcome hcached
    rw [hcache] at hcached
    obtain ⟨j, a, first, hj, hfirst, hkey, hmem⟩ := h.cached key outcome hcached
    exact ⟨j, a, first, getElem?_concat_of hj, hfirst, hkey,
      hresults ▸ List.mem_append_left _ hmem⟩
  · intro key outcome hcached
    rw [hcache] at hcached
    obtain ⟨i, hi, hcount⟩ := h.counted key outcome hcached
    exact ⟨i, by simp; omega, hcount⟩
  · intro _
    refine h.clear_concat hperforms hgoes ?_
    intro hfast
    obtain ⟨hlt, -⟩ := List.getElem?_eq_some_iff.mp hj
    exact (h.clear hgoes hfast j hlt a hj).2

theorem inv_executed (h : Inv c options conflicting w done p)
    (hperforms : Performs c conflicting done.length check inv)
    (hgoes : p.failFastTriggered = false) {outcome : RawProcessOutcome} {ms : Nat}
    (hid : outcome.executionId =
      generateExecutionId inv.program ms (w.execCount done.length))
    (hpass : isIncomplete outcome.status = false → Passable options.bounds)
    {p' : Progress} (hresults : p'.results = p.results ++ [runResult c.root check inv outcome false])
    (hcache : p'.invocationCache = p.invocationCache ++ [(inv.cacheKey, outcome)])
    (hflag : p'.failFastTriggered = (p.failFastTriggered ||
      options.failFast && (isFailure outcome.status || isIncomplete outcome.status))) :
    Inv c options conflicting w (done ++ [check]) p' := by
  have hnew : runResult c.root check inv outcome false ∈ p'.results := by
    rw [hresults]
    exact List.mem_append_right _ List.mem_cons_self
  refine ⟨?_, ?_, ?_, ?_, ?_, ?_⟩
  · rw [hresults, List.map_append, List.map_append, h.checks]
    rfl
  · rw [hresults]
    refine h.grouped.fresh ?_ ?_ rfl
    · have hnamed := execution_named inv.program ms (w.execCount done.length)
      rw [← hid] at hnamed
      exact hnamed
    · intro s hs heq
      have hsame : s.executionId = generateExecutionId inv.program ms (w.execCount done.length) :=
        heq.trans hid
      cases h.ids s hs with
      | inl hmade =>
        obtain ⟨label, hlabel, hmade⟩ := hmade
        exact label_ne_execution hlabel _ _ _ _ (hmade.symm.trans hsame)
      | inr hrun =>
        obtain ⟨j, hj, program, ms', hrun⟩ := hrun
        have hcount := w.counted (generateExecutionId_inj (hrun.symm.trans hsame))
        omega
  · intro r hr
    rw [hresults] at hr
    cases List.mem_append.mp hr with
    | inl hold => exact h.ids_concat check hold
    | inr hlast =>
      obtain rfl := List.mem_singleton.mp hlast
      exact Or.inr ⟨done.length, by simp, _, _, hid⟩
  · intro key cached hcached
    rw [hcache] at hcached
    cases lookup_concat hcached with
    | inl hold =>
      obtain ⟨j, a, first, hj, hfirst, hkey, hmem⟩ := h.cached key cached hold
      exact ⟨j, a, first, getElem?_concat_of hj, hfirst, hkey,
        hresults ▸ List.mem_append_left _ hmem⟩
    | inr hlast =>
      obtain ⟨rfl, rfl⟩ := hlast
      exact ⟨done.length, check, inv, by simp, hperforms, rfl, hnew⟩
  · intro key cached hcached
    rw [hcache] at hcached
    cases lookup_concat hcached with
    | inl hold =>
      obtain ⟨i, hi, hcount⟩ := h.counted key cached hold
      exact ⟨i, by simp; omega, hcount⟩
    | inr hlast =>
      obtain ⟨-, rfl⟩ := hlast
      exact ⟨done.length, by simp, _, _, hid⟩
  · intro hclear
    refine h.clear_concat hperforms hgoes ?_
    intro hfast
    rw [hflag, hgoes, hfast, Bool.false_or, Bool.true_and, Bool.or_eq_false_iff] at hclear
    exact hpass hclear.2

end Invoke

/-- One check more, whose directory is written as that of any check with its invocation. -/
theorem inv_performCheck (h : Inv c options conflicting w done p) {check : PlannedCheck}
    (hfresh : check.checkId ∉ done.map PlannedCheck.checkId)
    (halike : ∀ j a first inv, done[j]? = some a → ComesTo c options conflicting done done.length →
      Performs c conflicting j a first → Performs c conflicting done.length check inv →
      first.cacheKey = inv.cacheKey → displayCwd c.root first.cwd = displayCwd c.root inv.cwd) :
    Inv c options conflicting w (done ++ [check])
      (performCheck x c options conflicting w done.length check p) := by
  unfold performCheck
  cases hflag : p.failFastTriggered with
  | true => exact inv_notRun h hfresh (by simp [labels]) rfl rfl fun _ => rfl
  | false =>
    simp only [Bool.false_eq_true, if_false]
    cases hconflict : conflicting.lookup check.checkId with
    | some message =>
      refine inv_notRun h hfresh (by simp [labels]) rfl rfl ?_
      intro hfast
      simp [Progress.refuse, hfast]
    | none =>
      cases hresolve : resolve c done.length check with
      | error reason =>
        refine inv_notRun h hfresh (by simp [labels]) rfl rfl ?_
        intro hfast
        simp [Progress.refuse, hfast]
      | ok inv =>
        have hperforms : Performs c conflicting done.length check inv := ⟨hconflict, hresolve⟩
        cases hlookup : p.invocationCache.lookup inv.cacheKey with
        | some cached =>
          refine inv_cached h hperforms hflag hlookup ?_ ?_ ?_
          · intro j a first hj hfirst hkey
            exact halike j a first inv hj (h.clear hflag) hfirst hperforms hkey
          · simp only [Progress.invoke, hlookup]
          · simp only [Progress.invoke, hlookup]
        | none =>
          have hid := executionId_executeBoundedCommand (x := x) options.bounds inv.program
            (w.execCount done.length) (w.process done.length)
          refine inv_executed h hperforms hflag hid ?_ ?_ ?_ ?_
          · exact passable_of_complete
          · simp only [Progress.invoke, hlookup]
          · simp only [Progress.invoke, hlookup]
          · simp only [Progress.invoke, hlookup]

end Steps

section Runs

variable {x : Services} {c : Checkout} {options : VerificationExecutorOptions}
  {plan : VerificationPlan} {w : World}

/-- The run lemma. -/
theorem inv_performChecks (halike : WrittenAlike c options plan) (rest : List PlannedCheck) :
    ∀ done p, done ++ rest = (deduplicate plan).uniqueChecks →
      Inv c options (deduplicate plan).conflicting w done p →
      Inv c options (deduplicate plan).conflicting w (deduplicate plan).uniqueChecks
        (performChecks x c options (deduplicate plan).conflicting w done.length rest p) := by
  induction rest with
  | nil =>
    intro done p hall h
    rw [List.append_nil] at hall
    exact hall ▸ h
  | cons check rest ih =>
    intro done p hall h
    have hfresh : check.checkId ∉ done.map PlannedCheck.checkId := by
      have hdistinct := (deduplicate_distinct plan).distinct
      rw [← hall, List.map_append, List.nodup_append] at hdistinct
      intro hmem
      exact hdistinct.2.2 _ hmem _ (List.mem_map_of_mem List.mem_cons_self) rfl
    have hhere : (deduplicate plan).uniqueChecks[done.length]? = some check := by
      simp [← hall]
    have hbefore : ∀ k < done.length, (deduplicate plan).uniqueChecks[k]? = done[k]? := by
      intro k hk
      rw [← hall, List.getElem?_append_left hk]
    have hstep := inv_performCheck (x := x) h hfresh ?_
    · have hnext := ih (done ++ [check]) _ (by simpa using hall) hstep
      simpa [performChecks] using hnext
    · intro j a first inv hj hcomes hfirst hperforms hkey
      obtain ⟨hlt, -⟩ := List.getElem?_eq_some_iff.mp hj
      refine halike j done.length hlt a check ((hbefore j hlt).trans hj) hhere ?_ first inv hfirst
        hperforms hkey
      intro hfast k hk e he
      exact hcomes hfast k hk e ((hbefore k hk).symm.trans he)

theorem validRun_of_inv {run : VerificationRun} {p : Progress}
    (hplan : run.plan = plan) (hchecks : run.checks = p.results)
    (h : Inv c options (deduplicate plan).conflicting w (deduplicate plan).uniqueChecks p) :
    ValidRun run := by
  have hdistinct := deduplicate_distinct plan
  refine ⟨?_, ?_, ?_, ?_, ?_⟩
  · rw [hchecks, h.checks]
    exact hdistinct.distinct
  · rw [hchecks]
    exact h.grouped.named
  · intro check hcheck
    rw [hchecks] at hcheck
    obtain ⟨planned, hplanned, hid⟩ := List.mem_map.mp (h.mem_ids hcheck)
    rw [isPlanned, hplan, List.any_eq_true]
    exact ⟨planned, hdistinct.planned planned hplanned, decide_eq_true hid⟩
  · intro check hcheck
    rw [hchecks] at hcheck
    have hprimary := h.grouped.primary check hcheck
    simpa only [groupOf, hchecks] using hprimary
  · rw [hchecks]
    exact h.grouped.evidence

/-- What the artifact of a run holds is what ingestion asks for. -/
theorem validRun_initialRun (halike : WrittenAlike c options plan) :
    ValidRun (initialRun x c plan options w) :=
  validRun_of_inv rfl rfl (inv_performChecks halike (deduplicate plan).uniqueChecks [] {} rfl inv_start)

end Runs

end PlanExecutor
