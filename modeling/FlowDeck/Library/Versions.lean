import Mathlib.Data.List.Nodup
import Mathlib.Data.List.Range

namespace Versions

open List

/-- The highest version in use, and zero where there is none. -/
def latest (versions : List Nat) : Nat := versions.foldr max 0

/-- The versions are `1, 2, …` without gap or duplicate, in some order. -/
def Contiguous (versions : List Nat) : Prop := versions.Perm (range' 1 versions.length)

@[simp] theorem latest_nil : latest [] = 0 := rfl

@[simp] theorem latest_cons (v : Nat) (versions : List Nat) :
    latest (v :: versions) = max v (latest versions) := rfl

variable {v n : Nat} {versions : List Nat}

theorem le_latest (h : v ∈ versions) : v ≤ latest versions := by
  induction versions with
  | nil => cases h
  | cons w versions ih =>
    rw [latest_cons]
    cases mem_cons.mp h with
    | inl heq => omega
    | inr hrest =>
      have hle := ih hrest
      omega

theorem latest_append_singleton (versions : List Nat) (v : Nat) :
    latest (versions ++ [v]) = max (latest versions) v := by
  induction versions with
  | nil => simp
  | cons w versions ih =>
    rw [cons_append, latest_cons, latest_cons, ih, Nat.max_assoc]

theorem latest_le (h : ∀ v ∈ versions, v ≤ n) : latest versions ≤ n := by
  induction versions with
  | nil => exact Nat.zero_le n
  | cons w versions ih =>
    have hw := h w mem_cons_self
    have hrest := ih fun v hv => h v (mem_cons_of_mem _ hv)
    rw [latest_cons]
    omega

theorem contiguous_nil : Contiguous [] := Perm.refl _

theorem Contiguous.mem (h : Contiguous versions) (v : Nat) :
    v ∈ versions ↔ 1 ≤ v ∧ v ≤ versions.length := by
  rw [Perm.mem_iff h, mem_range'_1]
  omega

theorem Contiguous.latest_eq (h : Contiguous versions) : latest versions = versions.length := by
  apply Nat.le_antisymm
  · apply latest_le
    intro v hv
    exact ((h.mem v).mp hv).2
  · cases hlength : versions.length with
    | zero => exact Nat.zero_le _
    | succ n =>
      apply le_latest
      rw [h.mem]
      omega

theorem contiguous_append_of_length (h : Contiguous versions) :
    Contiguous (versions ++ [versions.length + 1]) := by
  have hrange : range' 1 (versions.length + 1) =
      range' 1 versions.length ++ [versions.length + 1] := by
    rw [range'_concat]
    simp [Nat.add_comm]
  unfold Contiguous
  rw [length_append, length_singleton, hrange]
  exact h.append_right _

/-- A version above all others keeps the versions contiguous exactly when it is the next one. -/
theorem contiguous_append_iff (hv : latest versions < v) :
    Contiguous (versions ++ [v]) ↔ Contiguous versions ∧ v = versions.length + 1 := by
  constructor
  · intro h
    have hlatest := h.latest_eq
    rw [latest_append_singleton, length_append, length_singleton] at hlatest
    have hlast : v = versions.length + 1 := by omega
    refine ⟨?_, hlast⟩
    have hrange : range' 1 (versions.length + 1) =
        range' 1 versions.length ++ [v] := by
      rw [range'_concat, hlast]
      simp [Nat.add_comm]
    unfold Contiguous at h
    rw [length_append, length_singleton, hrange] at h
    exact (perm_append_right_iff _).mp h
  · intro ⟨h, hlast⟩
    rw [hlast]
    exact contiguous_append_of_length h

/-- A list that counts up from a number holds exactly the numbers from there on. -/
theorem sorted_contiguous_iff (hsorted : versions.Pairwise (· ≤ ·)) :
    Contiguous versions ↔ versions = range' 1 versions.length := by
  constructor
  · intro h
    exact h.eq_of_pairwise (fun a b _ _ hab hba => Nat.le_antisymm hab hba) hsorted
      (pairwise_le_range')
  · intro h
    unfold Contiguous
    rw [← h]

theorem Contiguous.of_perm {versions' : List Nat} (h : Contiguous versions)
    (hperm : versions'.Perm versions) : Contiguous versions' := by
  unfold Contiguous
  rw [hperm.length_eq]
  exact hperm.trans h

/-- Every version above a bound, up to the latest, is in use. -/
def FilledAbove (n : Nat) (versions : List Nat) : Prop :=
  ∀ v, n < v → v ≤ latest versions → v ∈ versions

theorem filledAbove_nil (n : Nat) : FilledAbove n [] := by
  intro v hn hv
  rw [latest_nil] at hv
  omega

theorem FilledAbove.mono {m : Nat} (h : FilledAbove n versions) (hnm : n ≤ m) :
    FilledAbove m versions := by
  intro v hm hv
  apply h v _ hv
  omega

/-- A further version keeps them filled if it is at most one above the bound or the latest. -/
theorem FilledAbove.append (h : FilledAbove n versions) (hv : v ≤ max n (latest versions) + 1) :
    FilledAbove n (versions ++ [v]) := by
  intro w hn hw
  rw [latest_append_singleton] at hw
  by_cases hold : w ≤ latest versions
  · exact mem_append_left _ (h w hn hold)
  · have hlast : w = v := by omega
    rw [hlast]
    exact mem_append_right _ (mem_singleton_self v)

theorem FilledAbove.succ_mem_iff (h : FilledAbove n versions) :
    n + 1 ∈ versions ↔ n < latest versions := by
  constructor
  · intro hmem
    exact le_latest hmem
  · intro hlt
    apply h (n + 1) _ hlt
    omega

end Versions
