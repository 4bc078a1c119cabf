import Mathlib.Algebra.Order.BigOperators.Group.List
import Mathlib.Algebra.Order.Group.MinMax
import Mathlib.Tactic.Abel

set_option linter.unusedSectionVars false

namespace Ledger

section Reading

variable {κ α : Type*} [AddCommGroup α] [DecidableEq κ]

/-- What an account holds, nothing for a key without one. -/
def balance (accounts : List (κ × α)) (k : κ) : α :=
  ((accounts.find? fun account => account.1 = k).map (·.2)).getD 0

def total (entries : List (κ × α)) : α := (entries.map (·.2)).sum

/-- What a list of debits asks of one account. -/
def debited (debits : List (κ × α)) (k : κ) : α :=
  ((debits.filter fun entry => entry.1 = k).map (·.2)).sum

@[simp] theorem balance_nil (k : κ) : balance ([] : List (κ × α)) k = 0 := rfl

@[simp] theorem total_nil : total ([] : List (κ × α)) = 0 := rfl

@[simp] theorem debited_nil (k : κ) : debited ([] : List (κ × α)) k = 0 := rfl

theorem balance_cons (account : κ × α) (accounts : List (κ × α)) (k : κ) :
    balance (account :: accounts) k = if account.1 = k then account.2 else balance accounts k := by
  unfold balance
  by_cases h : account.1 = k
  · simp [h]
  · simp [h]

theorem total_cons (entry : κ × α) (entries : List (κ × α)) :
    total (entry :: entries) = entry.2 + total entries := by
  simp [total]

theorem total_append (entries entries' : List (κ × α)) :
    total (entries ++ entries') = total entries + total entries' := by
  simp [total]

theorem debited_cons (entry : κ × α) (debits : List (κ × α)) (k : κ) :
    debited (entry :: debits) k = (if entry.1 = k then entry.2 else 0) + debited debits k := by
  unfold debited
  by_cases h : entry.1 = k
  · simp [h]
  · simp [h]

end Reading

section Debit

variable {κ α : Type*} [AddCommGroup α] [LinearOrder α] [IsOrderedAddMonoid α] [DecidableEq κ]

/-- A debit stops at zero. -/
def debit (accounts : List (κ × α)) (k : κ) (amount : α) : List (κ × α) :=
  accounts.map fun account =>
    if account.1 = k then (account.1, max 0 (account.2 - amount)) else account

/-- One account a key, and none below zero. -/
structure Sound (accounts : List (κ × α)) : Prop where
  distinct : (accounts.map (·.1)).Nodup
  nonneg : ∀ account ∈ accounts, 0 ≤ account.2

theorem keys_debit (accounts : List (κ × α)) (k : κ) (amount : α) :
    (debit accounts k amount).map (·.1) = accounts.map (·.1) := by
  unfold debit
  rw [List.map_map]
  apply List.map_congr_left
  intro account _
  simp only [Function.comp_apply]
  split_ifs
  · rfl
  · rfl

theorem Sound.debit {accounts : List (κ × α)} (h : Sound accounts) (k : κ) (amount : α) :
    Sound (debit accounts k amount) := by
  refine ⟨(keys_debit accounts k amount).symm ▸ h.distinct, ?_⟩
  intro account hmem
  obtain ⟨old, hold, rfl⟩ := List.mem_map.mp hmem
  split_ifs
  · exact le_max_left _ _
  · exact h.nonneg old hold

theorem Sound.tail {account : κ × α} {accounts : List (κ × α)} (h : Sound (account :: accounts)) :
    Sound accounts := by
  refine ⟨?_, ?_⟩
  · exact (List.nodup_cons.mp h.distinct).2
  · intro other hmem
    exact h.nonneg other (List.mem_cons_of_mem _ hmem)

theorem balance_debit {accounts : List (κ × α)} {k : κ} {amount : α} (hamount : 0 ≤ amount)
    (k' : κ) :
    balance (debit accounts k amount) k' =
      if k = k' then max 0 (balance accounts k' - amount) else balance accounts k' := by
  induction accounts with
  | nil => simp [debit, hamount]
  | cons account accounts ih =>
    simp only [debit, List.map_cons] at ih ⊢
    rw [balance_cons, balance_cons, ih]
    by_cases hk : account.1 = k
    · by_cases hk' : k = k'
      · simp [hk, hk']
      · have hne : account.1 ≠ k' := fun he => hk' (hk ▸ he)
        simp [hk, hk']
    · by_cases hk' : k = k'
      · have hne : account.1 ≠ k' := fun he => hk (he.trans hk'.symm)
        simp [hk', hne]
      · simp [hk, hk']

theorem debit_of_notMem {accounts : List (κ × α)} {k : κ} (h : k ∉ accounts.map (·.1))
    (amount : α) : debit accounts k amount = accounts := by
  unfold debit
  rw [List.map_congr_left (g := id)]
  · exact List.map_id _
  · intro account hmem
    have hne : account.1 ≠ k := fun he => h (he ▸ List.mem_map_of_mem hmem)
    simp [hne]

theorem balance_nonneg {accounts : List (κ × α)} (h : Sound accounts) (k : κ) :
    0 ≤ balance accounts k := by
  unfold balance
  cases hfind : accounts.find? fun account => account.1 = k with
  | none => exact le_rfl
  | some account => exact h.nonneg account (List.mem_of_find?_eq_some hfind)

theorem total_debit {accounts : List (κ × α)} (h : Sound accounts) {k : κ} {amount : α}
    (hamount : 0 ≤ amount) :
    total (debit accounts k amount) = total accounts - min amount (balance accounts k) := by
  induction accounts with
  | nil => simp [debit, hamount]
  | cons account accounts ih =>
    have hsplit : debit (account :: accounts) k amount =
        (if account.1 = k then (account.1, max 0 (account.2 - amount)) else account) ::
          debit accounts k amount := rfl
    rw [hsplit, total_cons, total_cons, balance_cons]
    by_cases hk : account.1 = k
    · have hnot : k ∉ accounts.map (·.1) := hk ▸ (List.nodup_cons.mp h.distinct).1
      rw [debit_of_notMem hnot, if_pos hk, if_pos hk]
      simp only
      rcases le_total amount account.2 with hle | hle
      · rw [min_eq_left hle, max_eq_right (sub_nonneg.mpr hle)]
        abel
      · rw [min_eq_right hle, max_eq_left (sub_nonpos.mpr hle)]
        abel
    · rw [if_neg hk, if_neg hk, ih h.tail]
      abel

theorem debited_nonneg {debits : List (κ × α)} (h : ∀ entry ∈ debits, 0 ≤ entry.2) (k : κ) :
    0 ≤ debited debits k := by
  apply List.sum_nonneg
  intro amount hmem
  obtain ⟨entry, hentry, rfl⟩ := List.mem_map.mp hmem
  exact h entry (List.mem_of_mem_filter hentry)

/-- What debits ask is covered when the first is and the others are covered by what it leaves. -/
theorem debited_cons_le_iff {accounts debits : List (κ × α)} {entry : κ × α}
    (hentry : 0 ≤ entry.2) (hdebits : ∀ other ∈ debits, 0 ≤ other.2) :
    (∀ k, debited (entry :: debits) k ≤ balance accounts k) ↔
      entry.2 ≤ balance accounts entry.1 ∧
        ∀ k, debited debits k ≤ balance (debit accounts entry.1 entry.2) k := by
  constructor
  · intro hall
    have hcovered : entry.2 ≤ balance accounts entry.1 := by
      have hself := hall entry.1
      rw [debited_cons, if_pos rfl] at hself
      exact le_trans (le_add_of_nonneg_right (debited_nonneg hdebits _)) hself
    refine ⟨hcovered, ?_⟩
    intro k
    have hk' := hall k
    rw [debited_cons] at hk'
    rw [balance_debit hentry]
    by_cases hk : entry.1 = k
    · rw [if_pos hk, ← hk] at hk'
      rw [if_pos hk, ← hk, max_eq_right (sub_nonneg.mpr hcovered)]
      exact le_sub_iff_add_le'.mpr hk'
    · rw [if_neg hk, zero_add] at hk'
      rw [if_neg hk]
      exact hk'
  · intro ⟨hcovered, hall⟩ k
    have hk' := hall k
    rw [balance_debit hentry] at hk'
    rw [debited_cons]
    by_cases hk : entry.1 = k
    · rw [if_pos hk, ← hk, max_eq_right (sub_nonneg.mpr hcovered)] at hk'
      rw [if_pos hk, ← hk]
      exact le_sub_iff_add_le'.mp hk'
    · rw [if_neg hk] at hk'
      rw [if_neg hk, zero_add]
      exact hk'

end Debit

end Ledger
