import FlowDeck.Orchestration.AttemptRuns

/-! When the attempts listed for an item are those started for it, in the order of their starts. -/

namespace AttemptStore

open Machine MetadataRow List

/-! ### One state -/

def ownMarks (store : Store) (runId item : String) : List Mark :=
  (marks store).filter fun m => m.runId = runId && m.assignmentId = item

theorem ownMarks_eq (store : Store) (runId item : String) :
    ownMarks store runId item = (ownRows store runId item).filterMap (·.mark?) := by
  simp only [ownMarks, marks, ownRows, filter_filterMap, filterMap_filter]
  apply filterMap_congr
  intro row _
  cases hvalue : row.value with
  | attempt a =>
    by_cases hown : a.runId = runId ∧ a.assignmentId = item
    · simp [mark?, isOf, MetadataValue.attempt?, Attempt.mark, hvalue, hown]
    · have hnot : (decide (a.runId = runId) && decide (a.assignmentId = item)) = false := by
        simpa using hown
      simp only [mark?, isOf, MetadataValue.attempt?, Attempt.mark, hvalue,
        Option.map_some, Option.filter_some, Option.any_some, hnot, Bool.false_eq_true, if_false]
  | consumed n => simp [mark?, isOf, MetadataValue.attempt?, hvalue]
  | constraints set cleared =>
    simp [mark?, isOf, MetadataValue.attempt?, hvalue]

theorem mem_ownRows {store : Store} {runId item : String} {row : MetadataRow} :
    row ∈ ownRows store runId item ↔ row ∈ store.metadata.rows ∧
      ∃ a, row.value = .attempt a ∧ a.runId = runId ∧ a.assignmentId = item := by
  rw [ownRows, mem_filter, isOf_iff]

/-- Lists of rows that hold the same distinct attempts are the same. -/
theorem eq_of_filterMap_eq {α β : Type*} {f : α → Option β} {xs ys : List α}
    (hsome : ∀ x ∈ xs ++ ys, ∃ b, f x = some b)
    (hinj : ∀ x ∈ xs, ∀ y ∈ ys, f x = f y → x = y) (h : xs.filterMap f = ys.filterMap f) :
    xs = ys := by
  induction xs generalizing ys with
  | nil =>
    cases ys with
    | nil => rfl
    | cons y ys =>
      obtain ⟨b, hb⟩ := hsome y (by simp)
      simp [hb] at h
  | cons x xs ih =>
    obtain ⟨b, hb⟩ := hsome x (by simp)
    cases ys with
    | nil => simp [hb] at h
    | cons y ys =>
      obtain ⟨c, hc⟩ := hsome y (by simp)
      rw [filterMap_cons_some hb, filterMap_cons_some hc, cons.injEq] at h
      have hxy : x = y := hinj x (by simp) y (by simp) (by rw [hb, hc, h.1])
      have htail : xs = ys := by
        apply ih _ _ h.2
        · intro z hz
          apply hsome z
          rcases mem_append.mp hz with hz | hz
          · simp [hz]
          · simp [hz]
        · intro z hz w hw
          exact hinj z (by simp [hz]) w (by simp [hw])
      rw [hxy, htail]

/-- Rows of one second in the order of their keys, or the other way round. -/
def stampLe (flip : Bool) (a b : Nat × String) : Bool :=
  a.1 < b.1 || (a.1 = b.1 && if flip then decide (b.2 ≤ a.2) else decide (a.2 ≤ b.2))

theorem stampLe_iff {flip : Bool} {a b : Nat × String} : stampLe flip a b = true ↔
    a.1 < b.1 ∨ a.1 = b.1 ∧ if flip = true then b.2 ≤ a.2 else a.2 ≤ b.2 := by
  cases flip <;> simp [stampLe]

theorem stampLe_total (flip : Bool) (a b : Nat × String) :
    stampLe flip a b = true ∨ stampLe flip b a = true := by
  rw [stampLe_iff, stampLe_iff]
  rcases Nat.lt_trichotomy a.1 b.1 with h | h | h
  · exact .inl (.inl h)
  · rcases String.le_total a.2 b.2 with hkey | hkey
    · cases flip with
      | false => exact .inl (.inr ⟨h, hkey⟩)
      | true => exact .inr (.inr ⟨h.symm, hkey⟩)
    · cases flip with
      | false => exact .inr (.inr ⟨h.symm, hkey⟩)
      | true => exact .inl (.inr ⟨h, hkey⟩)
  · exact .inr (.inl h)

theorem stampLe_trans (flip : Bool) (a b c : Nat × String) (hab : stampLe flip a b = true)
    (hbc : stampLe flip b c = true) : stampLe flip a c = true := by
  rw [stampLe_iff] at hab hbc ⊢
  rcases hab with hab | ⟨hab, hkey⟩
  · left
    omega
  · rcases hbc with hbc | ⟨hbc, hkey'⟩
    · left
      omega
    · refine .inr ⟨hab.trans hbc, ?_⟩
      cases flip with
      | false => exact String.le_trans hkey hkey'
      | true => exact String.le_trans hkey' hkey

theorem stampLe_antisymm (flip : Bool) (a b : Nat × String) (hab : stampLe flip a b = true)
    (hba : stampLe flip b a = true) : a = b := by
  rw [stampLe_iff] at hab hba
  have hfirst : a.1 = b.1 := by omega
  have hkeys : (if flip = true then b.2 ≤ a.2 else a.2 ≤ b.2) ∧
      if flip = true then a.2 ≤ b.2 else b.2 ≤ a.2 :=
    ⟨(hab.resolve_left (by omega)).2, (hba.resolve_left (by omega)).2⟩
  apply Prod.ext hfirst
  cases flip with
  | false => exact String.le_antisymm hkeys.1 hkeys.2
  | true => exact String.le_antisymm hkeys.2 hkeys.1

theorem stampLe_older (flip : Bool) (a b : Nat × String) (h : stampLe flip a b = true) :
    a.1 ≤ b.1 := by
  rcases stampLe_iff.mp h with h | ⟨h, -⟩
  · omega
  · omega

def keyOrder (flip : Bool) : ScanOrder where
  le := stampLe flip
  total := stampLe_total flip
  trans := stampLe_trans flip
  antisymm := stampLe_antisymm flip
  older := stampLe_older flip

section State

variable {store : Store} {runId item : String}

/-- The other items' attempts of the run are not found by the pattern of the item. -/
def Apart (store : Store) (runId item : String) : Prop :=
  ∀ m ∈ marks store, m.runId = runId → Clashes runId m.assignmentId item → m.assignmentId = item

theorem matchingRows_eq (hstore : Consistent store) (hapart : Apart store runId item) :
    matchingRows store runId (attemptPattern runId item) = ownRows store runId item := by
  apply filter_congr
  intro row hrow
  have hiff : row ∈ matchingRows store runId (attemptPattern runId item) ↔
      row ∈ ownRows store runId item := by
    rw [mem_matchingRows hstore, mem_ownRows]
    refine and_congr_right fun _ => exists_congr fun a => and_congr_right fun ha => ?_
    refine and_congr_right fun hrun => ?_
    constructor
    · intro hclash
      exact hapart (a.mark row.createdAt) (mem_marks.mpr ⟨row, hrow, a, ha, rfl⟩) hrun hclash
    · intro hitem
      rw [hitem]
      exact clashes_self runId item
  simp only [matchingRows, ownRows, mem_filter, hrow, true_and] at hiff
  exact Bool.eq_iff_iff.mpr hiff

/-- Rows of one item under the same number are the same. -/
theorem ownRows_inj (hstore : Consistent store) {row row' : MetadataRow}
    (hrow : row ∈ ownRows store runId item) (hrow' : row' ∈ ownRows store runId item)
    (h : row.value.attempt? = row'.value.attempt?) : row = row' := by
  obtain ⟨hmem, a, ha, -, -⟩ := mem_ownRows.mp hrow
  obtain ⟨hmem', b, hb, -, -⟩ := mem_ownRows.mp hrow'
  rw [attempt?_eq_some.mpr ha, attempt?_eq_some.mpr hb] at h
  obtain rfl := Option.some.inj h
  obtain ⟨hrun, hkey⟩ := hstore.attempt row hmem a ha
  obtain ⟨hrun', hkey'⟩ := hstore.attempt row' hmem' a hb
  have hplace : row.place = row'.place := by
    rw [place, place, hrun, hkey, hrun', hkey']
  have hget := Table.get?_of_mem hmem
  rw [hplace, Table.get?_of_mem hmem'] at hget
  exact (Option.some.inj hget).symm

theorem insertionSort_ownRows (hstore : Consistent store) {order : ScanOrder}
    (h : ((ownRows store runId item).insertionSort
      fun a b => order.le a.stamp b.stamp = true).filterMap (·.value.attempt?) =
        startedOf store runId item) :
    (ownRows store runId item).Pairwise fun a b => order.le a.stamp b.stamp = true := by
  have hsame : ((ownRows store runId item).insertionSort
      fun a b => order.le a.stamp b.stamp = true) = ownRows store runId item := by
    apply eq_of_filterMap_eq _ _ h
    · intro row hrow
      have hown : row ∈ ownRows store runId item := by simpa using hrow
      obtain ⟨-, a, ha, -, -⟩ := mem_ownRows.mp hown
      exact ⟨a, attempt?_eq_some.mpr ha⟩
    · intro row hrow row' hrow'
      exact ownRows_inj hstore ((mem_insertionSort _).mp hrow) hrow'
  have : Std.Total fun a b : MetadataRow => order.le a.stamp b.stamp = true :=
    ⟨fun a b => order.total a.stamp b.stamp⟩
  have : IsTrans MetadataRow fun a b => order.le a.stamp b.stamp = true :=
    ⟨fun a b c => order.trans a.stamp b.stamp c.stamp⟩
  rw [← hsame]
  exact pairwise_insertionSort _ _

theorem pairwise_ownMarks {R : Nat → Nat → Prop} :
    (ownMarks store runId item).Pairwise (fun a b => R a.createdAt b.createdAt) ↔
      (ownRows store runId item).Pairwise fun a b => R a.createdAt b.createdAt := by
  rw [ownMarks_eq, pairwise_filterMap]
  have hmark {row : MetadataRow} (hrow : row ∈ ownRows store runId item) :
      ∃ m, row.mark? = some m ∧ m.createdAt = row.createdAt := by
    obtain ⟨-, a, ha, -, -⟩ := mem_ownRows.mp hrow
    exact ⟨a.mark row.createdAt, by simp [mark?, attempt?_eq_some.mpr ha], rfl⟩
  constructor
  · intro h
    refine h.imp_of_mem fun {a b} ha hb hab => ?_
    obtain ⟨m, hm, hma⟩ := hmark ha
    obtain ⟨n, hn, hnb⟩ := hmark hb
    exact hma ▸ hnb ▸ hab m hm n hn
  · intro h
    refine h.imp_of_mem fun {a b} ha hb hab m hm n hn => ?_
    obtain ⟨m', hm', hma⟩ := hmark ha
    obtain ⟨n', hn', hnb⟩ := hmark hb
    obtain rfl := Option.some.inj (hm'.symm.trans hm)
    obtain rfl := Option.some.inj (hn'.symm.trans hn)
    rw [hma, hnb]
    exact hab

/-- Whatever the order within a second, the listing of an item is what was started for it, in the
order of the starts, exactly when no other item's attempts are found by its pattern and each of its
attempts was started in a later second than those before. -/
theorem lists_iff (hstore : Consistent store) :
    (∀ order, listAttempts order store runId item = startedOf store runId item) ↔
      Apart store runId item ∧
        (ownMarks store runId item).Pairwise fun a b => a.createdAt < b.createdAt := by
  constructor
  · intro h
    have hapart : Apart store runId item := by
      intro m hm hrun hclash
      obtain ⟨row, hrow, a, ha, rfl⟩ := mem_marks.mp hm
      have hlisted : a ∈ listAttempts (keyOrder false) store runId item := by
        apply mem_listAttempts.mpr
        exact ⟨row, (mem_matchingRows hstore).mpr ⟨hrow, a, ha, hrun, hclash⟩, ha⟩
      rw [h] at hlisted
      obtain ⟨own, hown, hvalue⟩ := mem_filterMap.mp hlisted
      obtain ⟨-, b, hb, -, hitem⟩ := mem_ownRows.mp hown
      obtain rfl := MetadataValue.attempt.inj (hb.symm.trans (attempt?_eq_some.mp hvalue))
      exact hitem
    have hsorted (order : ScanOrder) : (ownRows store runId item).Pairwise
        fun a b => order.le a.stamp b.stamp = true := by
      apply insertionSort_ownRows hstore
      rw [← matchingRows_eq hstore hapart]
      exact h order
    refine ⟨hapart, pairwise_ownMarks.mpr ?_⟩
    -- two rows of one second would have to stand in both orders of their keys
    have hboth := (hsorted (keyOrder false)).and (hsorted (keyOrder true))
    have hplaces : (ownRows store runId item).Pairwise fun a b => a.place ≠ b.place :=
      (pairwise_map.mp store.metadata.unique).sublist filter_sublist
    refine (hboth.and hplaces).imp_of_mem fun {a b} ha hb hab => ?_
    obtain ⟨⟨hfirst, hsecond⟩, hplace⟩ := hab
    have hruns : a.runId = b.runId := by
      obtain ⟨hmem, x, hx, hxrun, -⟩ := mem_ownRows.mp ha
      obtain ⟨hmem', y, hy, hyrun, -⟩ := mem_ownRows.mp hb
      rw [(hstore.attempt a hmem x hx).1, (hstore.attempt b hmem' y hy).1, hxrun, hyrun]
    rcases stampLe_iff.mp hfirst with hlt | ⟨heq, hkey⟩
    · exact hlt
    · rcases stampLe_iff.mp hsecond with hlt | ⟨-, hkey'⟩
      · exact hlt
      · have hkeys : a.key = b.key := String.le_antisymm hkey hkey'
        exact absurd (Prod.ext hruns hkeys) hplace
  · intro ⟨hapart, hspaced⟩ order
    have hrows := pairwise_ownMarks.mp hspaced
    have hsorted : (ownRows store runId item).Pairwise
        fun a b => order.le a.stamp b.stamp = true := by
      refine hrows.imp fun {a b} hab => ?_
      rcases order.total a.stamp b.stamp with h | h
      · exact h
      · exact absurd (order.older _ _ h) (Nat.not_le.mpr hab)
    rw [listAttempts, matchingRows_eq hstore hapart, hsorted.insertionSort_eq, startedOf]

end State

/-! ### Numbers and calls -/

/-- Each new attempt of an item has a greater number, and a call that no attempt had. -/
structure Numbered (store : Store) : Prop where
  increasing : ∀ runId item,
    (ownMarks store runId item).Pairwise fun a b => a.attemptNumber < b.attemptNumber
  once : (marks store).Pairwise fun a b => a.callID ≠ b.callID

/-- The attempts that are recorded, in the order of their starts. -/
def allStarted (store : Store) : List Attempt :=
  store.metadata.rows.filterMap (·.value.attempt?)

theorem map_callID_allStarted (store : Store) :
    (allStarted store).map (·.callID) = (marks store).map (·.callID) := by
  simp only [allStarted, marks, map_filterMap]
  apply filterMap_congr
  intro row _
  cases hvalue : row.value.attempt? with
  | none => simp [mark?, hvalue]
  | some a => simp [mark?, hvalue, Attempt.mark]

theorem map_attemptNumber_startedOf (store : Store) (runId item : String) :
    (startedOf store runId item).map (·.attemptNumber) =
      (ownMarks store runId item).map (·.attemptNumber) := by
  simp only [startedOf, ownMarks_eq, map_filterMap]
  apply filterMap_congr
  intro row _
  cases hvalue : row.value.attempt? with
  | none => simp [mark?, hvalue]
  | some a => simp [mark?, hvalue, Attempt.mark]

theorem ownMarks_append {store store' : Store} {m : Mark}
    (h : marks store' = marks store ++ [m]) (runId item : String) :
    ownMarks store' runId item = ownMarks store runId item ++
      if m.runId = runId ∧ m.assignmentId = item then [m] else [] := by
  rw [ownMarks, h, filter_append]
  by_cases hown : m.runId = runId ∧ m.assignmentId = item
  · simp [ownMarks, hown]
  · have hnot : (decide (m.runId = runId) && decide (m.assignmentId = item)) = false := by
      simpa using hown
    rw [filter_singleton, hnot, if_neg hown]
    rfl

theorem mem_ownMarks {store : Store} {runId item : String} {m : Mark} :
    m ∈ ownMarks store runId item ↔
      m ∈ marks store ∧ m.runId = runId ∧ m.assignmentId = item := by
  simp [ownMarks]

variable {order : ScanOrder} {e e' : Engine}

theorem Numbered.append {input : StartInput} {now : Nat} (hstore : Consistent e.store)
    (hnumbered : Numbered e.store) (hcreates : Creates order e input)
    (h : marks e'.store = marks e.store ++ [newMark order e input now]) : Numbered e'.store := by
  constructor
  · intro runId item
    rw [ownMarks_append h]
    split_ifs with hown
    · obtain ⟨rfl, rfl⟩ := hown
      refine pairwise_append.mpr ⟨hnumbered.increasing _ _, pairwise_singleton _ _, ?_⟩
      intro m hm n hn
      obtain rfl := mem_singleton.mp hn
      obtain ⟨hmem, hrun, hitem⟩ := mem_ownMarks.mp hm
      obtain ⟨row, hrow, a, ha, rfl⟩ := mem_marks.mp hmem
      have hlt : a.attemptNumber < nextAttemptNumber order e.store a.runId a.assignmentId :=
        hstore.next_fresh hrow ha
      have harun : a.runId = input.runId := hrun
      have haitem : a.assignmentId = input.assignmentId := hitem
      rw [harun, haitem] at hlt
      exact hlt
    · rw [append_nil]
      exact hnumbered.increasing runId item
  · rw [h]
    refine pairwise_append.mpr ⟨hnumbered.once, pairwise_singleton _ _, ?_⟩
    intro m hm n hn hcall
    obtain rfl := mem_singleton.mp hn
    obtain ⟨row, hrow, a, ha, rfl⟩ := mem_marks.mp hm
    have hregistered := hstore.registered row hrow a ha
    have hid : a.callID = input.callID := hcall
    rw [hid] at hregistered
    obtain ⟨b, hb⟩ := hstore.startedByCall hregistered
    simp [hcreates.fresh] at hb

/-! ### Whole runs -/

/-- What the rows of the given items are to say. -/
structure ListsExactly (items : Set (String × String)) (store : Store) : Prop where
  listed : ∀ runId item, (runId, item) ∈ items →
    ∀ order, listAttempts order store runId item = startedOf store runId item
  increasing : ∀ runId item,
    ((startedOf store runId item).map (·.attemptNumber)).Pairwise (· < ·)
  once : ((allStarted store).map (·.callID)).Nodup

/-- A new attempt is found by the pattern of no other of the items, and it starts in a later second
than those its own item has. -/
def StartsApart (items : Set (String × String)) (order : ScanOrder) (e : Engine) : Call → Prop
  | .startAttempt input now => Creates order e input →
    (∀ item, (input.runId, item) ∈ items → item ≠ input.assignmentId →
      ¬Clashes input.runId input.assignmentId item) ∧
    ((input.runId, input.assignmentId) ∈ items →
      ∀ m ∈ ownMarks e.store input.runId input.assignmentId, m.createdAt < now)
  | _ => True

/-- The states that runs from an empty store go through. -/
structure Recorded (e : Engine) : Prop where
  consistent : Consistent e.store
  numbered : Numbered e.store

theorem Recorded.empty (db : RunStore.Database) : Recorded ⟨db, emptyStore⟩ := by
  refine ⟨⟨?_, ?_, ?_, ?_⟩, ⟨?_, ?_⟩⟩
  · exact fun row hrow => absurd hrow not_mem_nil
  · exact fun row hrow => absurd hrow not_mem_nil
  · exact fun row hrow => absurd hrow not_mem_nil
  · exact fun call hcall => absurd hcall not_mem_nil
  · exact fun runId item => Pairwise.nil
  · exact Pairwise.nil

theorem Recorded.step {order : ScanOrder} {e e' : Engine} {call : Call} (he : Recorded e)
    (h : AttemptStore.step order e call = some e') : Recorded e' := by
  obtain ⟨hconsistent, hmarks⟩ := step_marks he.consistent h
  refine ⟨hconsistent, ?_⟩
  rcases hmarks with ⟨input, now, -, hcreates, hmarks⟩ | ⟨-, hmarks⟩
  · exact he.numbered.append he.consistent hcreates hmarks
  · constructor
    · intro runId item
      rw [ownMarks, hmarks]
      exact he.numbered.increasing runId item
    · rw [hmarks]
      exact he.numbered.once

/-- The condition on the marks that `ListsExactly` comes down to. -/
def Ordered (items : Set (String × String)) (store : Store) : Prop :=
  ∀ runId item, (runId, item) ∈ items → Apart store runId item ∧
    (ownMarks store runId item).Pairwise fun a b => a.createdAt < b.createdAt

theorem listsExactly_iff {items : Set (String × String)} (he : Recorded e) :
    ListsExactly items e.store ↔ Ordered items e.store := by
  constructor
  · intro h runId item hitem
    exact (lists_iff he.consistent).mp (h.listed runId item hitem)
  · intro h
    refine ⟨fun runId item hitem => (lists_iff he.consistent).mpr (h runId item hitem), ?_, ?_⟩
    · intro runId item
      rw [map_attemptNumber_startedOf, pairwise_map]
      exact he.numbered.increasing runId item
    · rw [map_callID_allStarted]
      exact pairwise_map.mpr he.numbered.once

theorem ordered_step_iff {items : Set (String × String)} {call : Call} (he : Recorded e)
    (h : AttemptStore.step order e call = some e') :
    Ordered items e'.store ↔ Ordered items e.store ∧ StartsApart items order e call := by
  obtain ⟨-, hmarks⟩ := step_marks he.consistent h
  rcases hmarks with ⟨input, now, rfl, hcreates, hmarks⟩ | ⟨hnone, hmarks⟩
  · have hown (runId item : String) := ownMarks_append hmarks runId item
    have hmem (m : Mark) : m ∈ marks e'.store ↔
        m ∈ marks e.store ∨ m = newMark order e input now := by
      rw [hmarks]
      simp
    constructor
    · intro hordered
      refine ⟨fun runId item hitem => ?_, fun _ => ⟨fun item hitem hne hclash => ?_, ?_⟩⟩
      · obtain ⟨hapart, hspaced⟩ := hordered runId item hitem
        refine ⟨fun m hm => hapart m ((hmem m).mpr (.inl hm)), ?_⟩
        rw [hown] at hspaced
        exact (pairwise_append.mp hspaced).1
      · obtain ⟨hapart, -⟩ := hordered input.runId item hitem
        exact hne (hapart _ ((hmem _).mpr (.inr rfl)) rfl hclash).symm
      · intro hitem m hm
        obtain ⟨-, hspaced⟩ := hordered input.runId input.assignmentId hitem
        rw [hown, if_pos ⟨rfl, rfl⟩] at hspaced
        exact (pairwise_append.mp hspaced).2.2 m hm _ (mem_singleton_self _)
    · intro ⟨hordered, hstart⟩ runId item hitem
      obtain ⟨hapart, hspaced⟩ := hordered runId item hitem
      obtain ⟨hclash, hlater⟩ := hstart hcreates
      constructor
      · intro m hm hrun hfound
        rcases (hmem m).mp hm with hm | rfl
        · exact hapart m hm hrun hfound
        · obtain rfl : input.runId = runId := hrun
          by_contra hne
          exact hclash item hitem (Ne.symm hne) hfound
      · rw [hown]
        split_ifs with hsame
        · obtain ⟨hrun, hid⟩ := hsame
          obtain rfl : input.runId = runId := hrun
          obtain rfl : input.assignmentId = item := hid
          refine pairwise_append.mpr ⟨hspaced, pairwise_singleton _ _, ?_⟩
          intro m hm n hn
          obtain rfl := mem_singleton.mp hn
          exact hlater hitem m hm
        · rw [append_nil]
          exact hspaced
  · have hsame : Ordered items e'.store ↔ Ordered items e.store := by
      simp only [Ordered, Apart, ownMarks, hmarks]
    have hstart : StartsApart items order e call := by
      cases call with
      | startAttempt input now => exact fun hcreates => absurd hcreates (hnone input now rfl)
      | evaluate => trivial
      | finalizeAttempt => trivial
      | surroundings => trivial
    rw [hsame]
    exact ⟨fun h => ⟨h, hstart⟩, And.left⟩

/-- In every run of calls from an empty store, the listings of the items are exact, the numbers rise
and no call has two attempts, exactly when every attempt starts apart from the other items and in a
later second than those before it. -/
theorem listings_exact_iff (items : Set (String × String)) (order : ScanOrder)
    (db : RunStore.Database) {calls : List Call} {e : Engine}
    (h : run (step order) ⟨db, emptyStore⟩ calls = some e) :
    ListsExactly items e.store ↔
      Along (step order) (StartsApart items order) ⟨db, emptyStore⟩ calls := by
  have hstart := Recorded.empty db
  have hend : Recorded e := run_invariant (fun _ _ _ he hstep => he.step hstep) hstart h
  have hiff := run_iff_along (I := Recorded) (A := fun e => Ordered items e.store)
    (fun _ _ _ he hstep => he.step hstep) (fun _ _ _ he hstep => ordered_step_iff he hstep)
    hstart h
  have hempty : Ordered items emptyStore :=
    fun runId item _ => ⟨fun m hm => absurd hm not_mem_nil, Pairwise.nil⟩
  rw [listsExactly_iff hend, hiff]
  exact ⟨And.right, fun h => ⟨hempty, h⟩⟩

def oneRun : RunStore.Database :=
  { (RunService.initial RunService.exampleSurroundings).db with
    taskRuns := ⟨[⟨"r", "c", "solo", .executing, 1, none, 0, none⟩], nodup_singleton _⟩ }

def startOf (item callID : String) : StartInput := ⟨"r", item, callID, "edit", "f", "s", "t"⟩

theorem two_starts_listed_iff : ∃ e, run (step (keyOrder false)) ⟨oneRun, emptyStore⟩
    [.startAttempt (startOf "a" "c1") 1, .startAttempt (startOf "a" "c2") 2] = some e ∧
    (ListsExactly {("r", "a")} e.store ↔
      Along (step (keyOrder false)) (StartsApart {("r", "a")} (keyOrder false))
        ⟨oneRun, emptyStore⟩
        [.startAttempt (startOf "a" "c1") 1, .startAttempt (startOf "a" "c2") 2]) :=
  ⟨_, rfl, listings_exact_iff _ _ _ rfl⟩

/-- The attempt of the item `a:b` is listed for the item `a`. -/
theorem attempt_listed_for_prefix : ∃ e, run (step (keyOrder false)) ⟨oneRun, emptyStore⟩
    [.startAttempt (startOf "a:b" "c1") 1] = some e ∧
    ¬ListsExactly {("r", "a"), ("r", "a:b")} e.store := by
  refine ⟨_, rfl, fun h => ?_⟩
  have hsame := h.listed "r" "a" (by simp) (keyOrder false)
  exact absurd (congrArg length hsame) (by decide +kernel)

end AttemptStore
