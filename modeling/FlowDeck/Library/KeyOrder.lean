import Mathlib.Data.List.Perm.Subperm
import Mathlib.Data.List.Destutter
import Mathlib.Data.List.Sort

/-! How many values a column of a list has, and the greatest of them. -/

namespace DistinctCounts

variable {α : Type*} [DecidableEq α]

def distinct (xs : List α) : Nat := xs.dedup.length

theorem distinct_le_of_subset {xs ys : List α} (h : ∀ x ∈ xs, x ∈ ys) :
    distinct xs ≤ distinct ys := by
  have hsubset : xs.dedup ⊆ ys.dedup := by
    intro x hx
    exact List.mem_dedup.mpr (h x (List.mem_dedup.mp hx))
  exact (List.subperm_of_subset (List.nodup_dedup xs) hsubset).length_le

theorem distinct_le_length {xs ys : List α} (h : ∀ x ∈ xs, x ∈ ys) : distinct xs ≤ ys.length := by
  have hsubset : xs.dedup ⊆ ys := by
    intro x hx
    exact h x (List.mem_dedup.mp hx)
  exact (List.subperm_of_subset (List.nodup_dedup xs) hsubset).length_le

theorem distinct_eq {xs ys : List α} (h : ∀ x, x ∈ xs ↔ x ∈ ys) : distinct xs = distinct ys :=
  Nat.le_antisymm (distinct_le_of_subset fun x => (h x).mp) (distinct_le_of_subset fun x => (h x).mpr)

/-- A column that holds another's values and counts no more of them holds the same. -/
theorem mem_of_distinct_le {xs ys : List α} (h : ∀ x ∈ xs, x ∈ ys)
    (hle : distinct ys ≤ distinct xs) : ∀ y ∈ ys, y ∈ xs := by
  have hsubset : xs.dedup ⊆ ys.dedup := by
    intro x hx
    exact List.mem_dedup.mpr (h x (List.mem_dedup.mp hx))
  have hperm : xs.dedup.Perm ys.dedup :=
    (List.subperm_of_subset (List.nodup_dedup xs) hsubset).perm_of_length_le hle
  intro y hy
  exact List.mem_dedup.mp (hperm.mem_iff.mpr (List.mem_dedup.mpr hy))

end DistinctCounts

namespace KeyOrder

variable {ρ κ : Type*} {key : ρ → κ}

theorem mem_destutter'_ne [DecidableEq ρ] {rows : List ρ} {row first : ρ} :
    row ∈ rows.destutter' (· ≠ ·) first ↔ row = first ∨ row ∈ rows := by
  induction rows generalizing first with
  | nil => simp
  | cons next rows ih =>
    by_cases hne : first ≠ next
    · rw [List.destutter'_cons_pos _ hne, List.mem_cons, ih, List.mem_cons]
    · obtain rfl : first = next := not_not.mp hne
      rw [List.destutter'_cons_neg _ hne, ih, List.mem_cons, or_self_left]

/-- `dedup` of neighbours keeps which rows there are. -/
theorem mem_destutter_ne [DecidableEq ρ] {rows : List ρ} {row : ρ} :
    row ∈ rows.destutter (· ≠ ·) ↔ row ∈ rows := by
  cases rows with
  | nil => simp
  | cons first rows => rw [List.destutter_cons', mem_destutter'_ne, List.mem_cons]

theorem nodup_destutter'_ne_iff [DecidableEq ρ] {rows : List ρ} {first : ρ} :
    (rows.destutter' (· ≠ ·) first).Nodup ↔
      ∀ a b, [a, b, a].Sublist (first :: rows) → a = b := by
  induction rows generalizing first with
  | nil =>
    refine iff_of_true (by simp) ?_
    intro a b h
    have hlength := h.length_le
    simp at hlength
  | cons next rows ih =>
    by_cases hne : first ≠ next
    · rw [List.destutter'_cons_pos _ hne, List.nodup_cons, mem_destutter'_ne, ih]
      constructor
      · intro h a b hsub
        cases hsub with
        | cons _ hsub => exact h.2 a b hsub
        | cons_cons _ hsub =>
          have hmem : first ∈ next :: rows := hsub.subset (by simp)
          exact absurd (List.mem_cons.mp hmem) h.1
      · intro h
        refine ⟨?_, fun a b hsub => h a b (hsub.cons _)⟩
        intro hfirst
        have hmem : first ∈ rows := hfirst.resolve_left hne
        have hsub : [first, next, first].Sublist (first :: next :: rows) :=
          ((List.singleton_sublist.mpr hmem).cons_cons next).cons_cons first
        exact hne (h first next hsub)
    · obtain rfl : first = next := not_not.mp hne
      rw [List.destutter'_cons_neg _ hne, ih]
      constructor
      · intro h a b hsub
        cases hsub with
        | cons _ hsub => exact h a b hsub
        | cons_cons _ hsub =>
          cases hsub with
          | cons _ hsub => exact h first b (hsub.cons_cons first)
          | cons_cons _ hsub => rfl
      · intro h a b hsub
        exact h a b (hsub.cons first)

/-- `dedup` of neighbours leaves each row once where no row recurs after another. -/
theorem nodup_destutter_ne_iff [DecidableEq ρ] {rows : List ρ} :
    (rows.destutter (· ≠ ·)).Nodup ↔ ∀ a b, [a, b, a].Sublist rows → a = b := by
  cases rows with
  | nil => simp
  | cons first rows => rw [List.destutter_cons', nodup_destutter'_ne_iff]

theorem nodup_filter {rows : List ρ} (h : (rows.map key).Nodup) (p : ρ → Bool) :
    ((rows.filter p).map key).Nodup :=
  h.sublist (List.filter_sublist.map key)

theorem nodup_map {f : ρ → ρ} (hf : ∀ a, key (f a) = key a) {rows : List ρ}
    (h : (rows.map key).Nodup) : ((rows.map f).map key).Nodup := by
  have hsame : (rows.map f).map key = rows.map key := by
    rw [List.map_map]
    exact List.map_congr_left fun a _ => hf a
  rw [hsame]
  exact h

variable [LinearOrder κ]

variable (key) in
/-- `ORDER BY key ASC`. -/
def orderBy (rows : List ρ) : List ρ := rows.insertionSort fun a b => key a ≤ key b

@[simp] theorem mem_orderBy {rows : List ρ} {row : ρ} : row ∈ orderBy key rows ↔ row ∈ rows :=
  List.mem_insertionSort _

instance total_le_key : Std.Total fun a b : ρ => key a ≤ key b := ⟨fun a b => le_total (key a) (key b)⟩

instance trans_le_key : IsTrans ρ fun a b : ρ => key a ≤ key b := ⟨fun _ _ _ => le_trans⟩

/-- Rows under distinct keys stand in strictly increasing order. -/
theorem pairwise_orderBy {rows : List ρ} (h : (rows.map key).Nodup) :
    (orderBy key rows).Pairwise fun a b => key a < key b := by
  have hsorted : (orderBy key rows).Pairwise fun a b => key a ≤ key b :=
    List.pairwise_insertionSort _ rows
  have hperm : ((orderBy key rows).map key).Perm (rows.map key) :=
    (List.perm_insertionSort _ rows).map key
  have hdistinct : (orderBy key rows).Pairwise fun a b => key a ≠ key b :=
    List.pairwise_map.mp (hperm.nodup_iff.mpr h)
  apply (hsorted.and hdistinct).imp
  rintro a b ⟨hle, hne⟩
  exact lt_of_le_of_ne hle hne

theorem pairwise_lt_eq {xs ys : List ρ} (hx : xs.Pairwise fun a b => key a < key b)
    (hy : ys.Pairwise fun a b => key a < key b) (h : ∀ a, a ∈ xs ↔ a ∈ ys) : xs = ys := by
  have : Std.Irrefl fun a b : ρ => key a < key b := ⟨fun a => lt_irrefl (key a)⟩
  have : Std.Antisymm fun a b : ρ => key a < key b :=
    ⟨fun a b hab hba => absurd hab (lt_asymm hba)⟩
  exact hx.eq_of_mem_iff hy h

/-- Which rows there are decides how they stand. -/
theorem orderBy_eq_iff {xs ys : List ρ} (hx : (xs.map key).Nodup) (hy : (ys.map key).Nodup) :
    orderBy key xs = orderBy key ys ↔ ∀ a, a ∈ xs ↔ a ∈ ys := by
  constructor
  · intro h a
    have hmem : a ∈ orderBy key xs ↔ a ∈ xs := mem_orderBy
    rw [← hmem, h, mem_orderBy]
  · intro h
    apply pairwise_lt_eq (pairwise_orderBy hx) (pairwise_orderBy hy)
    intro a
    rw [mem_orderBy, mem_orderBy, h]

theorem filter_orderBy {rows : List ρ} (h : (rows.map key).Nodup) (p : ρ → Bool) :
    (orderBy key rows).filter p = orderBy key (rows.filter p) := by
  apply pairwise_lt_eq ((pairwise_orderBy h).filter p) (pairwise_orderBy (nodup_filter h p))
  intro a
  simp

theorem map_orderBy {f : ρ → ρ} (hf : ∀ a, key (f a) = key a) (rows : List ρ) :
    (orderBy key rows).map f = orderBy key (rows.map f) := by
  apply List.map_insertionSort
  intro a _ b _
  simp only [hf]

theorem nodup_orderBy {rows : List ρ} (h : (rows.map key).Nodup) :
    ((orderBy key rows).map key).Nodup :=
  ((List.perm_insertionSort _ rows).map key).nodup_iff.mpr h

theorem orderBy_orderBy {rows : List ρ} (h : (rows.map key).Nodup) :
    orderBy key (orderBy key rows) = orderBy key rows := by
  apply (orderBy_eq_iff (nodup_orderBy h) h).mpr
  intro a
  exact mem_orderBy

theorem filter_key_orderBy (rows : List ρ) (k : κ) :
    (orderBy key rows).filter (key · = k) = rows.filter (key · = k) := by
  have hsorted : (rows.filter (key · = k)).Pairwise fun a b => key a ≤ key b := by
    apply List.pairwise_of_forall_mem_list
    intro a ha b hb
    have hka := List.of_mem_filter ha
    have hkb := List.of_mem_filter hb
    simp only [decide_eq_true_eq] at hka hkb
    rw [hka, hkb]
  have hsub : (rows.filter (key · = k)).Sublist (orderBy key rows) :=
    List.sublist_insertionSort hsorted List.filter_sublist
  have hfilter := hsub.filter (key · = k)
  rw [List.filter_filter] at hfilter
  simp only [Bool.and_self] at hfilter
  have hlength : ((orderBy key rows).filter (key · = k)).length ≤
      (rows.filter (key · = k)).length :=
    (((List.perm_insertionSort _ rows).filter _).length_eq).le
  exact (hfilter.eq_of_length_le hlength).symm

/-- Ordered by a key, rows lose their repetitions to `dedup` where no row recurs after another one of
its key. -/
theorem nodup_destutter_orderBy_iff [DecidableEq ρ] {rows : List ρ} :
    ((orderBy key rows).destutter (· ≠ ·)).Nodup ↔
      ∀ a b, key a = key b → [a, b, a].Sublist rows → a = b := by
  rw [nodup_destutter_ne_iff]
  constructor
  · intro h a b hkey hsub
    apply h a b
    apply List.sublist_insertionSort ?_ hsub
    simp [hkey]
  · intro h a b hsub
    have hsorted : (orderBy key rows).Pairwise fun a b => key a ≤ key b :=
      List.pairwise_insertionSort _ rows
    have hthree := hsorted.sublist hsub
    simp only [List.pairwise_cons, List.mem_cons, List.not_mem_nil, or_false, forall_eq_or_imp,
      forall_eq] at hthree
    have hkey : key a = key b := le_antisymm hthree.1.1 hthree.2.1
    have hfilter := hsub.filter (key · = key b)
    rw [filter_key_orderBy] at hfilter
    simp only [List.filter_cons, hkey, decide_true, if_true, List.filter_nil] at hfilter
    exact h a b hkey (hfilter.trans List.filter_sublist)

/-- The first rows of an ordered list are those that few enough others come before. -/
theorem mem_take_iff {rows : List ρ} (h : rows.Pairwise fun a b => key a < key b) {row : ρ}
    (hrow : row ∈ rows) (n : Nat) :
    row ∈ rows.take n ↔ (rows.filter fun other => key other < key row).length < n := by
  induction rows generalizing n with
  | nil => exact absurd hrow List.not_mem_nil
  | cons first rows ih =>
    obtain ⟨hfirst, hrest⟩ := List.pairwise_cons.mp h
    cases n with
    | zero => simp
    | succ n =>
      cases List.mem_cons.mp hrow with
      | inl heq =>
        obtain rfl := heq
        have hnone : (rows.filter fun other => key other < key row) = [] := by
          apply List.filter_eq_nil_iff.mpr
          intro other hother
          simpa using le_of_lt (hfirst other hother)
        simp [hnone]
      | inr hmem =>
        have hlt := hfirst row hmem
        have hne : row ≠ first := by
          intro heq
          exact lt_irrefl _ (heq ▸ hlt)
        simp [hlt, hne, ih hrest hmem]

end KeyOrder
