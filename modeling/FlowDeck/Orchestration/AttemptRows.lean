import FlowDeck.Library.Numerals
import FlowDeck.Orchestration.AttemptStore

/-! What the operations on attempts do to the rows. -/

namespace AttemptStore

open TransitionEngine MetadataRow MetadataValue Table Option List

/-! ### Keys -/

theorem toList_attemptKey (runId assignmentId : String) (n : Nat) :
    (attemptKey runId assignmentId n).toList =
      ("attempt:" ++ runId ++ ":" ++ assignmentId).toList ++ ':' :: (toString n).toList := by
  simp [attemptKey]

theorem toList_attemptPattern (runId assignmentId : String) :
    (attemptPattern runId assignmentId).toList =
      ("attempt:" ++ runId ++ ":" ++ assignmentId).toList ++ [':', '%'] := by
  simp [attemptPattern]

variable {runId item item' assignmentId : String} {n : Nat}

theorem attemptKey_inj {n' : Nat} (h : attemptKey runId item n = attemptKey runId item' n') :
    item = item' ∧ n = n' := by
  have hlist := congrArg String.toList h
  rw [toList_attemptKey, toList_attemptKey] at hlist
  obtain ⟨hitem, hnumber⟩ := SeparatedPair.append_last_inj (Decimal.notMem_toString (by decide) n)
    (Decimal.notMem_toString (by decide) n') hlist
  refine ⟨?_, Decimal.toString_inj hnumber⟩
  apply String.toList_inj.mp
  simpa using hitem

theorem matchesChar_separator (x : Char) : Like.matchesChar ':' x = true ↔ x = ':' := by
  have hfold : ':'.toLower = ':' := by decide
  simp only [Like.matchesChar, hfold, Bool.or_eq_true, decide_eq_true_eq]
  constructor
  · intro h
    rcases h with h | h
    · exact absurd h (by decide)
    · by_cases hupper : x.val ≥ 'A'.val ∧ x.val ≤ 'Z'.val
      · obtain ⟨hlow, hhigh⟩ := hupper
        rw [show x.toLower = _ from dif_pos ⟨hlow, hhigh⟩] at h
        have hval := congrArg (fun c => c.val.toNat) h
        have hA : 65 ≤ x.val.toNat := UInt32.le_iff_toNat_le.mp hlow
        have hZ : x.val.toNat ≤ 90 := UInt32.le_iff_toNat_le.mp hhigh
        have hshift : ('a'.val - 'A'.val).toNat = 32 := by decide
        simp only [UInt32.toNat_add, hshift] at hval
        have hcolon : ':'.val.toNat = 58 := by decide
        omega
      · rw [show x.toLower = _ from dif_neg hupper] at h
        exact h.symm
  · intro h
    subst h
    right
    decide

/-! ### Listing -/

/-- The keys of one item's attempts are found by the pattern of another. -/
def Clashes (runId assignmentId other : String) : Prop :=
  Like.like (attemptPattern runId other).toList
    ("attempt:" ++ runId ++ ":" ++ assignmentId ++ ":").toList = true

theorem like_attemptKey_iff {other : String} :
    Like.like (attemptPattern runId other).toList (attemptKey runId assignmentId n).toList = true ↔
      Clashes runId assignmentId other := by
  have hends : ("attempt:" ++ runId ++ ":" ++ assignmentId ++ ":").toList =
      ("attempt:" ++ runId ++ ":" ++ assignmentId).toList ++ [':'] := by simp
  rw [Clashes, hends, toList_attemptKey, toList_attemptPattern]
  exact Like.like_separated_iff matchesChar_separator (by decide)
    (Decimal.notMem_toString (by decide) n)

theorem clashes_self (runId assignmentId : String) : Clashes runId assignmentId assignmentId := by
  have hends : ("attempt:" ++ runId ++ ":" ++ assignmentId ++ ":").toList =
      ("attempt:" ++ runId ++ ":" ++ assignmentId).toList ++ [':'] := by simp
  rw [Clashes, hends, toList_attemptPattern]
  apply Like.like_append_iff.mpr
  refine ⟨_, [':'], rfl, Like.like_self _, ?_⟩
  decide

/-- The rows of attempts hold what their keys say and stand under the calls that started them; the
other rows are not under such keys. -/
structure Consistent (store : Store) : Prop where
  attempt : ∀ row ∈ store.metadata.rows, ∀ a, row.value = .attempt a →
    row.runId = a.runId ∧ row.key = attemptKey a.runId a.assignmentId a.attemptNumber
  other : ∀ row ∈ store.metadata.rows, row.value.attempt? = none →
    ∃ item, row.key = consumedKey row.runId item ∨ row.key = constraintKey row.runId item
  registered : ∀ row ∈ store.metadata.rows, ∀ a, row.value = .attempt a →
    store.calls.get? a.callID = some ⟨a.callID, a.runId, a.assignmentId, a.attemptNumber⟩
  kept : ∀ call ∈ store.calls.rows, ∃ row ∈ store.metadata.rows, ∃ a, row.value = .attempt a ∧
    a.runId = call.runId ∧ a.assignmentId = call.assignmentId ∧
      a.attemptNumber = call.attemptNumber

variable {a : Attempt} {store store' : Store} {order : ScanOrder} {input : StartInput} {now : Nat}

theorem attempt?_eq_some {value : MetadataValue} :
    value.attempt? = some a ↔ value = .attempt a := by
  cases value <;> simp [attempt?]

/-- The row is one of the item's attempts. -/
def MetadataRow.isOf (row : MetadataRow) (runId assignmentId : String) : Bool :=
  row.value.attempt?.any fun a => a.runId = runId && a.assignmentId = assignmentId

theorem isOf_iff {row : MetadataRow} :
    row.isOf runId assignmentId = true ↔
      ∃ a, row.value = .attempt a ∧ a.runId = runId ∧ a.assignmentId = assignmentId := by
  cases hvalue : row.value with
  | attempt a => simp [isOf, attempt?, hvalue]
  | consumed n => simp [isOf, attempt?, hvalue]
  | constraints set cleared => simp [isOf, attempt?, hvalue]

def ownRows (store : Store) (runId assignmentId : String) : List MetadataRow :=
  store.metadata.rows.filter fun row => row.isOf runId assignmentId

def startedOf (store : Store) (runId assignmentId : String) : List Attempt :=
  (ownRows store runId assignmentId).filterMap (·.value.attempt?)

theorem head?_append_text {s t : String} {c : Char} (h : s.toList.head? = some c) :
    (s ++ t).toList.head? = some c := by
  rw [String.toList_append, head?_append, h, some_or]

theorem head?_consumedKey (runId item : String) :
    (consumedKey runId item).toList.head? = some 'c' := by
  unfold consumedKey
  apply head?_append_text
  apply head?_append_text
  apply head?_append_text
  decide

theorem head?_constraintKey (runId item : String) :
    (constraintKey runId item).toList.head? = some 's' := by
  unfold constraintKey
  apply head?_append_text
  apply head?_append_text
  apply head?_append_text
  decide

theorem not_like_other {key : String}
    (h : ∃ item, key = consumedKey runId item ∨ key = constraintKey runId item)
    (run assignmentId : String) :
    Like.like (attemptPattern run assignmentId).toList key.toList = false := by
  have hfirst (c : Char) (hc : Like.matchesChar 'a' c = false)
      (hkey : key.toList.head? = some c) :
      Like.like (attemptPattern run assignmentId).toList key.toList = false := by
    have hpattern : (attemptPattern run assignmentId).toList =
        'a' :: ("ttempt:" ++ run ++ ":" ++ assignmentId ++ ":%").toList := by simp [attemptPattern]
    rw [hpattern, ← Bool.not_eq_true, Like.like_cons_iff (by decide)]
    intro ⟨x, t, htext, hx, _⟩
    rw [htext] at hkey
    obtain rfl := some.inj hkey
    simp [hc] at hx
  obtain ⟨item, rfl | rfl⟩ := h
  · exact hfirst 'c' (by decide) (head?_consumedKey runId item)
  · exact hfirst 's' (by decide) (head?_constraintKey runId item)

theorem mem_matchingRows (h : Consistent store) {runId assignmentId : String} {row : MetadataRow} :
    row ∈ matchingRows store runId (attemptPattern runId assignmentId) ↔
      row ∈ store.metadata.rows ∧ ∃ a, row.value = .attempt a ∧ a.runId = runId ∧
        Clashes runId a.assignmentId assignmentId := by
  simp only [matchingRows, mem_filter, Bool.and_eq_true, decide_eq_true_eq]
  refine and_congr_right fun hmem => ?_
  cases hvalue : row.value.attempt? with
  | none =>
    have hnot := not_like_other (h.other row hmem hvalue) runId assignmentId
    have hnone : ∀ a, row.value ≠ .attempt a := by
      intro a ha
      rw [attempt?_eq_some.mpr ha] at hvalue
      cases hvalue
    simp [hnot, hnone]
  | some a =>
    have ha := attempt?_eq_some.mp hvalue
    obtain ⟨hrun, hkey⟩ := h.attempt row hmem a ha
    constructor
    · intro ⟨hid, hlike⟩
      have harun : a.runId = runId := hrun.symm.trans hid
      rw [hkey, harun, like_attemptKey_iff] at hlike
      exact ⟨a, ha, harun, hlike⟩
    · intro ⟨b, hb, hbrun, hclash⟩
      obtain rfl : a = b := attempt.inj (ha.symm.trans hb)
      refine ⟨hrun.trans hbrun, ?_⟩
      rw [hkey, hbrun]
      exact like_attemptKey_iff.mpr hclash

theorem mem_listAttempts : a ∈ listAttempts order store runId assignmentId ↔
      ∃ row ∈ matchingRows store runId (attemptPattern runId assignmentId),
        row.value = .attempt a := by
  simp only [listAttempts, mem_filterMap, mem_insertionSort, attempt?_eq_some]

theorem le_foldl_max (attempts : List Attempt) (m : Nat) :
    m ≤ attempts.foldl (fun m a => max m a.attemptNumber) m ∧
      ∀ a ∈ attempts, a.attemptNumber ≤ attempts.foldl (fun m a => max m a.attemptNumber) m := by
  induction attempts generalizing m with
  | nil => simp
  | cons first attempts ih =>
    obtain ⟨hstart, hrest⟩ := ih (max m first.attemptNumber)
    rw [foldl_cons]
    refine ⟨le_trans (le_max_left _ _) hstart, fun a ha => ?_⟩
    rcases mem_cons.mp ha with rfl | ha
    · exact le_trans (le_max_right _ _) hstart
    · exact hrest a ha

theorem lt_nextAttemptNumber (h : a ∈ listAttempts order store runId assignmentId) :
    a.attemptNumber < nextAttemptNumber order store runId assignmentId :=
  Nat.lt_succ_of_le ((le_foldl_max _ 0).2 a h)

/-! ### Marks -/

/-- What never changes of an attempt once it is started. -/
structure Mark where
  runId : String
  assignmentId : String
  attemptNumber : Nat
  callID : String
  createdAt : Nat
  deriving DecidableEq

def Attempt.mark (a : Attempt) (createdAt : Nat) : Mark :=
  ⟨a.runId, a.assignmentId, a.attemptNumber, a.callID, createdAt⟩

def MetadataRow.mark? (row : MetadataRow) : Option Mark :=
  row.value.attempt?.map (·.mark row.createdAt)

/-- The attempts started so far, in the order of their starts. -/
def marks (store : Store) : List Mark := store.metadata.rows.filterMap (·.mark?)

theorem mem_marks {m : Mark} :
    m ∈ marks store ↔ ∃ row ∈ store.metadata.rows, ∃ a, row.value = .attempt a ∧
      a.mark row.createdAt = m := by
  simp only [marks, mem_filterMap, mark?, map_eq_some_iff, attempt?_eq_some]

theorem attemptKey_ne_other {run : String} {key : String}
    (h : ∃ item, key = consumedKey run item ∨ key = constraintKey run item) :
    attemptKey runId item n ≠ key := by
  intro heq
  have hlike := like_attemptKey_iff (n := n).mpr (clashes_self runId item)
  rw [heq, not_like_other h] at hlike
  exact Bool.false_ne_true hlike

theorem reserveAttempt_eq_some (h : reserveAttempt store input n now = some (store', a)) :
    a = input.record n ∧ store.metadata.insert? (a.row now) = some store'.metadata ∧
      store.calls.insert? (input.call n) = some store'.calls ∧
      ∀ row ∈ store.metadata.rows, row.id ≠ (a.row now).id := by
  simp only [reserveAttempt, bind_eq_bind, bind_eq_some_iff, pure, some.injEq, Prod.mk.injEq] at h
  obtain ⟨metadata, hmetadata, calls, hcalls, rfl, rfl⟩ := h
  unfold insertRow at hmetadata
  split_ifs at hmetadata with hid
  refine ⟨rfl, hmetadata, hcalls, fun row hrow heq => hid ?_⟩
  exact any_eq_true.mpr ⟨row, hrow, by simpa using heq⟩

theorem startAttempt_cases {hasRun : Bool}
    (h : startAttempt order hasRun store input now = some (store', a)) :
    (store' = store ∧ startedByCall store input.callID = some a) ∨
      (startedByCall store input.callID = none ∧ hasRun = true ∧
        reserveAttempt store input (nextAttemptNumber order store input.runId input.assignmentId)
          now = some (store', a)) := by
  unfold startAttempt at h
  split at h
  · next attempt hstarted =>
      obtain ⟨rfl, rfl⟩ := Prod.mk.inj (some.inj h)
      exact .inl ⟨rfl, hstarted⟩
  · next hnone =>
      split_ifs at h with hrun
      exact .inr ⟨hnone, by simpa using hrun, h⟩

theorem Consistent.reserve (hstore : Consistent store)
    (h : reserveAttempt store input n now = some (store', a)) :
    Consistent store' ∧ marks store' = marks store ++ [a.mark now] := by
  obtain ⟨rfl, hmetadata, hcalls, -⟩ := reserveAttempt_eq_some h
  obtain ⟨-, hrows⟩ := insert?_eq_some hmetadata
  obtain ⟨-, hcallRows⟩ := insert?_eq_some hcalls
  have hold {row : MetadataRow} (hrow : row ∈ store'.metadata.rows) :
      row ∈ store.metadata.rows ∨ row = (input.record n).row now := by
    rw [hrows] at hrow
    simpa using hrow
  refine ⟨⟨?_, ?_, ?_, ?_⟩, ?_⟩
  · intro row hrow b hb
    rcases hold hrow with hrow | rfl
    · exact hstore.attempt row hrow b hb
    · obtain rfl := attempt.inj hb
      exact ⟨rfl, rfl⟩
  · intro row hrow hnone
    rcases hold hrow with hrow | rfl
    · exact hstore.other row hrow hnone
    · cases hnone
  · intro row hrow b hb
    rcases hold hrow with hrow | rfl
    · exact get?_insert?_of_some hcalls (hstore.registered row hrow b hb)
    · obtain rfl := attempt.inj hb
      rw [get?_insert? hcalls]
      exact if_pos rfl
  · intro call hcall
    rw [hcallRows] at hcall
    rcases mem_append.mp hcall with hcall | hcall
    · obtain ⟨row, hrow, hkept⟩ := hstore.kept call hcall
      exact ⟨row, hrows ▸ mem_append_left _ hrow, hkept⟩
    · obtain rfl := mem_singleton.mp hcall
      refine ⟨(input.record n).row now, hrows ▸ by simp, input.record n, rfl, rfl, rfl, rfl⟩
  · simp [marks, hrows, mark?, Attempt.row, attempt?]

theorem get?_setValue (metadata : Table place) (place other : String × String)
    (value : MetadataValue) : (setValue metadata place value).get? other =
      if other = place then (metadata.get? other).map fun row => { row with value }
      else metadata.get? other := by
  refine (get?_update metadata (fun row => row.place = place)
    (fun row => { row with value }) (fun _ => rfl) other).trans ?_
  cases hget : metadata.get? other with
  | none => simp
  | some row =>
    have hrow : row.place = other := key_of_get? hget
    by_cases hp : other = place
    · rw [if_pos hp, map_some, setWhere_pos (by simp [hrow, hp])]
      rfl
    · rw [if_neg hp, map_some, setWhere_neg (by simpa [hrow] using hp)]

/-- A value that says the same of an attempt, if of any, keeps the marks. -/
theorem Consistent.setValue (hstore : Consistent store) {place : String × String}
    {value : MetadataValue} (hmark : ∀ row, store.metadata.get? place = some row →
      mark? { row with value } = row.mark?) :
    Consistent ⟨setValue store.metadata place value, store.calls⟩ ∧
      marks ⟨AttemptStore.setValue store.metadata place value, store.calls⟩ = marks store := by
  let f := setWhere (fun row : MetadataRow => row.place = place)
    fun row => { row with value }
  have hkept : ∀ row ∈ store.metadata.rows,
      (f row).runId = row.runId ∧ (f row).key = row.key ∧ (f row).mark? = row.mark? := by
    intro row hrow
    by_cases hp : row.place = place
    · have hf : f row = { row with value } := setWhere_pos (by simpa using hp)
      rw [hf]
      exact ⟨rfl, rfl, hmark row (hp ▸ get?_of_mem hrow)⟩
    · have hf : f row = row := setWhere_neg (by simpa using hp)
      rw [hf]
      exact ⟨rfl, rfl, rfl⟩
  have hback : ∀ row ∈ store.metadata.rows, ∀ b, (f row).value = .attempt b →
      ∃ a, row.value = .attempt a ∧ a.runId = b.runId ∧ a.assignmentId = b.assignmentId ∧
        a.attemptNumber = b.attemptNumber ∧ a.callID = b.callID := by
    intro row hrow b hb
    have hsame := (hkept row hrow).2.2
    rw [mark?, attempt?_eq_some.mpr hb] at hsame
    obtain ⟨a, ha, heq⟩ := map_eq_some_iff.mp hsame.symm
    simp only [Attempt.mark, Mark.mk.injEq] at heq
    exact ⟨a, attempt?_eq_some.mp ha, heq.1, heq.2.1, heq.2.2.1, heq.2.2.2.1⟩
  have hmem {row' : MetadataRow} (h : row' ∈ (AttemptStore.setValue store.metadata place value).rows) :
      ∃ row ∈ store.metadata.rows, f row = row' := mem_map.mp h
  refine ⟨⟨?_, ?_, ?_, ?_⟩, ?_⟩
  · intro row' hrow' b hb
    obtain ⟨row, hrow, rfl⟩ := hmem hrow'
    obtain ⟨a, ha, hrun, hitem, hnumber, -⟩ := hback row hrow b hb
    obtain ⟨hid, hkey⟩ := hstore.attempt row hrow a ha
    rw [(hkept row hrow).1, (hkept row hrow).2.1, hid, hkey, hrun, hitem, hnumber]
    exact ⟨rfl, rfl⟩
  · intro row' hrow' hnone
    obtain ⟨row, hrow, rfl⟩ := hmem hrow'
    obtain ⟨hrun, hkey, hsame⟩ := hkept row hrow
    have hold : row.value.attempt? = none := by
      simpa [mark?, hnone] using hsame.symm
    rw [hrun, hkey]
    exact hstore.other row hrow hold
  · intro row' hrow' b hb
    obtain ⟨row, hrow, rfl⟩ := hmem hrow'
    obtain ⟨a, ha, hrun, hitem, hnumber, hcall⟩ := hback row hrow b hb
    rw [← hrun, ← hitem, ← hnumber, ← hcall]
    exact hstore.registered row hrow a ha
  · intro call hcall
    obtain ⟨row, hrow, a, ha, hrun, hitem, hnumber⟩ := hstore.kept call hcall
    have hsame := (hkept row hrow).2.2
    rw [mark?, mark?, attempt?_eq_some.mpr ha] at hsame
    obtain ⟨b, hb, heq⟩ := map_eq_some_iff.mp hsame
    simp only [Attempt.mark, Mark.mk.injEq] at heq
    refine ⟨f row, mem_map_of_mem hrow, b, attempt?_eq_some.mp hb, ?_⟩
    rw [heq.1, heq.2.1, heq.2.2.1]
    exact ⟨hrun, hitem, hnumber⟩
  · have hrows : (AttemptStore.setValue store.metadata place value).rows =
        store.metadata.rows.map f := rfl
    simp only [marks, hrows, filterMap_map]
    exact filterMap_congr fun row hrow => (hkept row hrow).2.2

/-- `finalizeAttempt` rewrites an attempt that the listing shows, or nothing. -/
theorem Consistent.finalize {input : FinalizeInput} {result : Option Attempt}
    (hstore : Consistent store) (h : finalizeAttempt order store input now = some (store', result)) :
    Consistent store' ∧ marks store' = marks store ∧
      ∀ runId key, (∃ item, key = consumedKey runId item ∨ key = constraintKey runId item) →
        store'.metadata.get? (runId, key) = store.metadata.get? (runId, key) := by
  simp only [finalizeAttempt] at h
  split at h
  · obtain ⟨rfl, rfl⟩ := Prod.mk.inj (some.inj h)
    exact ⟨hstore, rfl, fun _ _ _ => rfl⟩
  · next existing hexisting =>
      obtain ⟨row, hrow, ha⟩ := mem_listAttempts.mp (mem_of_find?_eq_some hexisting)
      obtain ⟨hmem, -⟩ := (mem_matchingRows hstore).mp hrow
      obtain ⟨hrun, hkey⟩ := hstore.attempt row hmem existing ha
      have hplace : ((input.updated existing).row now).place = row.place := by
        simp [place, Attempt.row, FinalizeInput.updated, hrun, hkey]
      have hget : store.metadata.get? row.place = some row := get?_of_mem hmem
      obtain ⟨written, hwritten, heq⟩ := map_eq_some_iff.mp h
      obtain ⟨rfl, -⟩ := Prod.mk.inj heq
      obtain ⟨metadata, hupsert, rfl⟩ := map_eq_some_iff.mp hwritten
      rw [upsertRow, hplace, hget] at hupsert
      obtain rfl := some.inj hupsert
      have hmark : ∀ other, store.metadata.get? row.place = some other →
          mark? { other with value := ((input.updated existing).row now).value } =
            other.mark? := by
        intro other hother
        obtain rfl := some.inj (hget.symm.trans hother)
        simp only [mark?, ha]
        rfl
      obtain ⟨hconsistent, hmarks⟩ := hstore.setValue hmark
      refine ⟨hconsistent, hmarks, fun runId key hother => ?_⟩
      refine (get?_setValue store.metadata row.place (runId, key) _).trans (if_neg fun heq => ?_)
      exact attemptKey_ne_other hother (hkey.symm.trans (congrArg Prod.snd heq).symm)

/-- A row of another kind is written beside the attempts. -/
theorem Consistent.upsert {row : MetadataRow} {metadata : Table place}
    (hstore : Consistent store) (hvalue : row.value.attempt? = none)
    (hkey : ∃ item, row.key = consumedKey row.runId item ∨ row.key = constraintKey row.runId item)
    (h : upsertRow store.metadata row = some metadata) :
    Consistent ⟨metadata, store.calls⟩ ∧ marks ⟨metadata, store.calls⟩ = marks store ∧
      ∀ place, (metadata.get? place).map (·.value) =
        if place = row.place then some row.value else (store.metadata.get? place).map (·.value) := by
  unfold upsertRow at h
  split at h
  · next found hfound =>
      obtain rfl := some.inj h
      have hmark : ∀ other, store.metadata.get? row.place = some other →
          mark? { other with value := row.value } = other.mark? := by
        intro other hother
        have hplace : other.place = row.place := key_of_get? hother
        have hnone : other.value.attempt? = none := by
          cases hattempt : other.value.attempt? with
          | none => rfl
          | some a =>
            obtain ⟨-, hkey'⟩ := hstore.attempt other (mem_of_get? hother) a
              (attempt?_eq_some.mp hattempt)
            exact absurd (hkey'.symm.trans (congrArg Prod.snd hplace)) (attemptKey_ne_other hkey)
        simp [mark?, hvalue, hnone]
      obtain ⟨hconsistent, hmarks⟩ := hstore.setValue hmark
      refine ⟨hconsistent, hmarks, fun place => ?_⟩
      rw [get?_setValue]
      by_cases hp : place = row.place
      · simp [hp, hfound]
      · simp [hp]
  · unfold insertRow at h
    split_ifs at h
    obtain ⟨-, hrows⟩ := insert?_eq_some h
    have hold {other : MetadataRow} (hother : other ∈ metadata.rows) :
        other ∈ store.metadata.rows ∨ other = row := by
      rw [hrows] at hother
      simpa using hother
    have hnot (a : Attempt) : row.value ≠ .attempt a := by
      intro ha
      rw [attempt?_eq_some.mpr ha] at hvalue
      cases hvalue
    refine ⟨⟨?_, ?_, ?_, ?_⟩, ?_, ?_⟩
    · intro other hother a ha
      rcases hold hother with hother | rfl
      · exact hstore.attempt other hother a ha
      · exact absurd ha (hnot a)
    · intro other hother hnone
      rcases hold hother with hother | rfl
      · exact hstore.other other hother hnone
      · exact hkey
    · intro other hother a ha
      rcases hold hother with hother | rfl
      · exact hstore.registered other hother a ha
      · exact absurd ha (hnot a)
    · intro call hcall
      obtain ⟨other, hother, hkept⟩ := hstore.kept call hcall
      exact ⟨other, hrows ▸ mem_append_left _ hother, hkept⟩
    · simp [marks, hrows, mark?, hvalue]
    · intro place
      rw [get?_insert? h]
      by_cases hp : place = row.place
      · simp [hp]
      · rw [if_neg hp, if_neg (Ne.symm hp)]

/-! ### Markers of consumed progress -/

theorem consumedKey_inj (h : consumedKey runId item = consumedKey runId item') : item = item' := by
  unfold consumedKey at h
  exact (String.append_right_inj _).mp h

theorem consumedKey_ne_constraintKey {run : String} :
    consumedKey runId item ≠ constraintKey run item' := by
  intro h
  have hhead := head?_consumedKey runId item
  rw [h, head?_constraintKey] at hhead
  exact absurd (some.inj hhead) (by decide)

def MetadataValue.consumed? : MetadataValue → Option Nat
  | .consumed n => some n
  | _ => none

theorem getConsumedProgressAttempt_eq (store : Store) (runId item : String) :
    getConsumedProgressAttempt store runId item =
      ((store.metadata.get? (runId, consumedKey runId item)).map (·.value)).bind
        consumed? := by
  unfold getConsumedProgressAttempt
  cases store.metadata.get? (runId, consumedKey runId item) with
  | none => rfl
  | some row => rfl

/-- What a write to the rows of an item leaves: the attempts, and the markers but for its own. -/
structure Writes (store store' : Store) : Prop where
  consistent : Consistent store'
  marks : marks store' = marks store

theorem Consistent.putConstraints {set : StrategyConstraintSet} {cleared : Bool}
    (hstore : Consistent store) (h : putConstraints store runId item set cleared now = some store') :
    Writes store store' ∧ ∀ run item',
      getConsumedProgressAttempt store' run item' = getConsumedProgressAttempt store run item' := by
  obtain ⟨metadata, hupsert, rfl⟩ := map_eq_some_iff.mp h
  obtain ⟨hconsistent, hmarks, hvalues⟩ := hstore.upsert rfl ⟨item, .inr rfl⟩ hupsert
  refine ⟨⟨hconsistent, hmarks⟩, fun run item' => ?_⟩
  rw [getConsumedProgressAttempt_eq, getConsumedProgressAttempt_eq, hvalues, if_neg]
  intro heq
  exact consumedKey_ne_constraintKey (congrArg Prod.snd heq)

theorem Consistent.markConsumed (hstore : Consistent store)
    (h : markConsumedProgressAttempt store runId item n now = some store') :
    Writes store store' ∧ ∀ run item', getConsumedProgressAttempt store' run item' =
      if run = runId ∧ item' = item then some n
      else getConsumedProgressAttempt store run item' := by
  obtain ⟨metadata, hupsert, rfl⟩ := map_eq_some_iff.mp h
  obtain ⟨hconsistent, hmarks, hvalues⟩ := hstore.upsert rfl ⟨item, .inl rfl⟩ hupsert
  refine ⟨⟨hconsistent, hmarks⟩, fun run item' => ?_⟩
  rw [getConsumedProgressAttempt_eq, getConsumedProgressAttempt_eq, hvalues]
  by_cases hsame : run = runId ∧ item' = item
  · obtain ⟨rfl, rfl⟩ := hsame
    simp [place, consumed?]
  · rw [if_neg hsame, if_neg]
    intro heq
    obtain ⟨rfl, hkey⟩ := Prod.mk.inj heq
    exact hsame ⟨rfl, consumedKey_inj hkey⟩

end AttemptStore
