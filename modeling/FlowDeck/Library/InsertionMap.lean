import Mathlib.Algebra.Ring.Nat
import Mathlib.Data.List.Induction

/-- A map that remembers the order in which its keys were first set. -/
structure InsertionMap (κ α : Type*) where
  entries : List (κ × α)

namespace InsertionMap

open List

variable {κ α : Type*}

def empty : InsertionMap κ α := ⟨[]⟩

def values (m : InsertionMap κ α) : List α := m.entries.map (·.2)

/-- No key is listed twice. -/
def Distinct (m : InsertionMap κ α) : Prop := (m.entries.map (·.1)).Nodup

theorem distinct_empty : (empty : InsertionMap κ α).Distinct := nodup_nil

variable [DecidableEq κ]

def get? (m : InsertionMap κ α) (k : κ) : Option α :=
  (m.entries.find? fun entry => entry.1 = k).map (·.2)

def replace (k : κ) (v : α) : List (κ × α) → List (κ × α)
  | [] => [(k, v)]
  | entry :: entries =>
    if entry.1 = k then (k, v) :: entries else entry :: replace k v entries

def set (m : InsertionMap κ α) (k : κ) (v : α) : InsertionMap κ α := ⟨replace k v m.entries⟩

def delete (m : InsertionMap κ α) (k : κ) : InsertionMap κ α :=
  ⟨m.entries.filter fun entry => entry.1 ≠ k⟩

@[simp] theorem get?_empty (k : κ) : (empty : InsertionMap κ α).get? k = none := rfl

theorem get?_set (m : InsertionMap κ α) (k k' : κ) (v : α) :
    (m.set k v).get? k' = if k = k' then some v else m.get? k' := by
  obtain ⟨entries⟩ := m
  simp only [get?, set]
  induction entries with
  | nil => by_cases h : k = k' <;> simp [replace, h]
  | cons entry entries ih =>
    by_cases hk : entry.1 = k
    · by_cases h : k = k'
      · simp [replace, hk, h]
      · have hne : entry.1 ≠ k' := fun he => h (hk ▸ he)
        simp [replace, hk, h]
    · by_cases hk' : entry.1 = k'
      · have hne : k ≠ k' := fun he => hk (he ▸ hk')
        simp [replace, hk', hne, Ne.symm hne]
      · simpa [replace, hk, hk'] using ih

@[simp] theorem get?_set_self (m : InsertionMap κ α) (k : κ) (v : α) :
    (m.set k v).get? k = some v := by
  simp [get?_set]

theorem mem_values_of_get? {m : InsertionMap κ α} {k : κ} {v : α} (h : m.get? k = some v) :
    v ∈ m.values := by
  obtain ⟨entry, hentry, rfl⟩ := Option.map_eq_some_iff.mp h
  exact mem_map_of_mem (mem_of_find?_eq_some hentry)

theorem isSome_get?_iff {m : InsertionMap κ α} {k : κ} :
    (m.get? k).isSome ↔ ∃ entry ∈ m.entries, entry.1 = k := by
  simp [get?]

/-- The keys that are set by the end of a fold, where each step's are known. -/
theorem isSome_get?_foldl {β : Type*} {f : InsertionMap κ α → β → InsertionMap κ α} {P : β → Prop}
    {k : κ} (h : ∀ m x, ((f m x).get? k).isSome ↔ (m.get? k).isSome ∨ P x) (xs : List β)
    (m : InsertionMap κ α) :
    ((xs.foldl f m).get? k).isSome ↔ (m.get? k).isSome ∨ ∃ x ∈ xs, P x := by
  induction xs generalizing m with
  | nil => simp
  | cons x xs ih =>
    rw [foldl_cons, ih, h, or_assoc]
    simp

theorem mem_replace {k : κ} {v : α} {entries : List (κ × α)} {entry : κ × α}
    (h : entry ∈ replace k v entries) : entry = (k, v) ∨ entry ∈ entries := by
  induction entries with
  | nil => simpa [replace] using h
  | cons first entries ih =>
    simp only [replace] at h
    split_ifs at h with hk
    · rcases mem_cons.mp h with rfl | h
      · exact Or.inl rfl
      · exact Or.inr (mem_cons_of_mem _ h)
    · rcases mem_cons.mp h with rfl | h
      · exact Or.inr mem_cons_self
      · exact (ih h).imp id (mem_cons_of_mem _)

/-- Setting a key brings in no value but the one set. -/
theorem mem_values_set {m : InsertionMap κ α} {k : κ} {v w : α} (h : w ∈ (m.set k v).values) :
    w = v ∨ w ∈ m.values := by
  obtain ⟨entry, hentry, rfl⟩ := mem_map.mp h
  rcases mem_replace hentry with rfl | hentry
  · exact Or.inl rfl
  · exact Or.inr (mem_map_of_mem hentry)

/-- What a key is set to takes the place of what it was set to before. -/
theorem sum_values_set (m : InsertionMap κ α) (k : κ) (v : α) (f : α → ℕ) :
    ((m.set k v).values.map f).sum + ((m.get? k).map f).getD 0 = (m.values.map f).sum + f v := by
  obtain ⟨entries⟩ := m
  simp only [set, get?, values]
  induction entries with
  | nil => simp [replace]
  | cons entry entries ih =>
    by_cases hk : entry.1 = k
    · simp [replace, hk]
      omega
    · simp only [replace, hk, find?_cons, if_false, decide_false, map_cons, sum_cons]
      omega

theorem mem_keys_replace {k k' : κ} {v : α} {entries : List (κ × α)}
    (h : k' ∈ (replace k v entries).map (·.1)) : k' = k ∨ k' ∈ entries.map (·.1) := by
  obtain ⟨entry, hentry, rfl⟩ := mem_map.mp h
  cases mem_replace hentry with
  | inl heq =>
    left
    rw [heq]
  | inr hold => exact Or.inr (mem_map_of_mem hold)

theorem Distinct.set {m : InsertionMap κ α} (h : m.Distinct) (k : κ) (v : α) :
    (m.set k v).Distinct := by
  obtain ⟨entries⟩ := m
  simp only [Distinct, InsertionMap.set] at h ⊢
  induction entries with
  | nil => simp [replace]
  | cons entry entries ih =>
    rw [map_cons, nodup_cons] at h
    simp only [replace]
    split_ifs with hk
    · rw [map_cons, nodup_cons, ← hk]
      exact h
    · rw [map_cons, nodup_cons]
      refine ⟨?_, ih h.2⟩
      intro hmem
      cases mem_keys_replace hmem with
      | inl heq => exact hk heq
      | inr hold => exact h.1 hold

theorem Distinct.mem_iff {m : InsertionMap κ α} (h : m.Distinct) {k : κ} {v : α} :
    (k, v) ∈ m.entries ↔ m.get? k = some v := by
  obtain ⟨entries⟩ := m
  simp only [Distinct, get?] at h ⊢
  induction entries with
  | nil => simp
  | cons entry entries ih =>
    rw [map_cons, nodup_cons] at h
    rw [mem_cons]
    by_cases hk : entry.1 = k
    · have hnot : (k, v) ∉ entries := by
        intro hmem
        rw [hk] at h
        exact h.1 (mem_map_of_mem (f := (·.1)) hmem)
      obtain ⟨key, value⟩ := entry
      simp only at hk
      simp [hk, hnot, eq_comm]
    · rw [find?_cons_of_neg (by simpa using hk), ← ih h.2]
      constructor
      · intro hmem
        cases hmem with
        | inl heq =>
          rw [← heq] at hk
          exact absurd rfl hk
        | inr hold => exact hold
      · exact Or.inr

/-- Collect the items of a list under their keys, in the order they come. -/
def groupBy (key : α → κ) (items : List α) : InsertionMap κ (List α) :=
  items.foldl (fun m item => m.set (key item) ((m.get? (key item)).getD [] ++ [item])) empty

theorem distinct_groupBy (key : α → κ) (items : List α) : (groupBy key items).Distinct := by
  unfold groupBy
  apply foldlRecOn
  · exact distinct_empty
  · intro m hm item _
    exact hm.set _ _

theorem get?_groupBy (key : α → κ) (items : List α) (k : κ) :
    (groupBy key items).get? k =
      if items.filter (fun item => key item = k) = [] then none
      else some (items.filter fun item => key item = k) := by
  induction items using reverseRecOn with
  | nil => simp [groupBy]
  | append_singleton items item ih =>
    have hstep : groupBy key (items ++ [item]) = (groupBy key items).set (key item)
        (((groupBy key items).get? (key item)).getD [] ++ [item]) := by
      simp [groupBy]
    rw [hstep, get?_set, filter_append]
    by_cases hk : key item = k
    · rw [if_pos hk, hk, ih]
      by_cases hnil : items.filter (fun item => key item = k) = []
      · simp [hnil, hk]
      · simp [hnil, hk]
    · rw [if_neg hk, ih]
      simp [hk]

end InsertionMap
