import FlowDeck.Library.Ledger
import Mathlib.Data.List.Nodup

set_option linter.unusedSectionVars false

namespace Ledger

open List

/-- An amount held back from one account, possibly on behalf of a project. -/
structure Hold (ι κ π α : Type*) where
  id : ι
  owner : κ
  project : Option π
  amount : α

/-- A running total of what is held, kept beside the accounts, the projects and the holds. -/
@[ext] structure Books (ι κ π α : Type*) where
  reserved : α
  accounts : List (κ × α)
  projects : List (π × α)
  holds : List (Hold ι κ π α)

/-- The end of a hold: whose account gives it back, and whether its project does too. -/
structure Release (ι κ π α : Type*) where
  debtor : κ
  settled : Bool
  hold : Hold ι κ π α

namespace Books

variable {ι κ π α : Type*} [AddCommGroup α] [LinearOrder α] [IsOrderedAddMonoid α]
  [DecidableEq ι] [DecidableEq κ] [DecidableEq π]

def credit {κ : Type*} [DecidableEq κ] (accounts : List (κ × α)) (k : κ) (amount : α) :
    List (κ × α) :=
  accounts.map fun account =>
    if account.1 = k then (account.1, account.2 + amount) else account

def openAccount (b : Books ι κ π α) (k : κ) : Books ι κ π α :=
  { b with accounts := b.accounts ++ [(k, 0)] }

def openProject (b : Books ι κ π α) (p : π) : Books ι κ π α :=
  { b with projects := b.projects ++ [(p, 0)] }

def place (b : Books ι κ π α) (h : Hold ι κ π α) : Books ι κ π α where
  reserved := b.reserved + h.amount
  accounts := credit b.accounts h.owner h.amount
  projects :=
    match h.project with
    | some p => credit b.projects p h.amount
    | none => b.projects
  holds := b.holds ++ [h]

def release (b : Books ι κ π α) (r : Release ι κ π α) : Books ι κ π α where
  reserved := max 0 (b.reserved - r.hold.amount)
  accounts := debit b.accounts r.debtor r.hold.amount
  projects :=
    match r.settled, r.hold.project with
    | true, some p => debit b.projects p r.hold.amount
    | _, _ => b.projects
  holds := b.holds.filter fun h => h.id ≠ r.hold.id

/-- What the holds on behalf of one project add up to. -/
def heldFor (holds : List (Hold ι κ π α)) (p : π) : α :=
  (holds.map fun h => if h.project = some p then h.amount else 0).sum

def held (holds : List (Hold ι κ π α)) : α := (holds.map fun h => h.amount).sum

/-- The accounts and the projects never count less than what is held. -/
structure Sound (b : Books ι κ π α) : Prop where
  accounts : Ledger.Sound b.accounts
  ids : (b.holds.map fun h => h.id).Nodup
  amounts : ∀ h ∈ b.holds, 0 ≤ h.amount
  reserved : b.reserved = held b.holds
  covered : held b.holds ≤ total b.accounts
  projects : ∀ entry ∈ b.projects, heldFor b.holds entry.1 ≤ entry.2

/-- The accounts and the projects count what is held, no more. -/
structure Balanced (b : Books ι κ π α) : Prop where
  accounts : held b.holds = total b.accounts
  projects : ∀ entry ∈ b.projects, heldFor b.holds entry.1 = entry.2

theorem held_append (holds : List (Hold ι κ π α)) (h : Hold ι κ π α) :
    held (holds ++ [h]) = held holds + h.amount := by
  simp [held]

theorem heldFor_append (holds : List (Hold ι κ π α)) (h : Hold ι κ π α) (p : π) :
    heldFor (holds ++ [h]) p = heldFor holds p + if h.project = some p then h.amount else 0 := by
  simp [heldFor]

theorem sum_remove {holds : List (Hold ι κ π α)} (hids : (holds.map fun h => h.id).Nodup)
    {h : Hold ι κ π α} (hmem : h ∈ holds) (w : Hold ι κ π α → α) :
    ((holds.filter fun g => g.id ≠ h.id).map w).sum = (holds.map w).sum - w h := by
  induction holds with
  | nil => exact absurd hmem not_mem_nil
  | cons g holds ih =>
    rw [map_cons, nodup_cons] at hids
    rcases mem_cons.mp hmem with rfl | hmem
    · have hrest : holds.filter (fun g => g.id ≠ h.id) = holds := by
        rw [filter_eq_self]
        intro g hg
        have hne : g.id ≠ h.id := by
          intro he
          exact hids.1 (he ▸ mem_map_of_mem (f := fun h => h.id) hg)
        simpa using hne
      rw [filter_cons_of_neg (by simp), hrest, map_cons, sum_cons]
      abel
    · have hne : g.id ≠ h.id := by
        intro he
        exact hids.1 (he ▸ mem_map_of_mem (f := fun h => h.id) hmem)
      rw [filter_cons_of_pos (by simpa using hne), map_cons, sum_cons,
        ih hids.2 hmem, map_cons, sum_cons]
      abel

theorem held_remove {holds : List (Hold ι κ π α)} (hids : (holds.map fun h => h.id).Nodup)
    {h : Hold ι κ π α} (hmem : h ∈ holds) :
    held (holds.filter fun g => g.id ≠ h.id) = held holds - h.amount :=
  sum_remove hids hmem _

theorem heldFor_remove {holds : List (Hold ι κ π α)} (hids : (holds.map fun h => h.id).Nodup)
    {h : Hold ι κ π α} (hmem : h ∈ holds) (p : π) :
    heldFor (holds.filter fun g => g.id ≠ h.id) p =
      heldFor holds p - if h.project = some p then h.amount else 0 :=
  sum_remove hids hmem _

theorem total_credit {accounts : List (κ × α)} (h : (accounts.map (·.1)).Nodup) {k : κ}
    (hk : k ∈ accounts.map (·.1)) (amount : α) :
    total (credit accounts k amount) = total accounts + amount := by
  induction accounts with
  | nil => exact absurd hk not_mem_nil
  | cons account accounts ih =>
    rw [map_cons, nodup_cons] at h
    have hsplit : credit (account :: accounts) k amount =
        (if account.1 = k then (account.1, account.2 + amount) else account) ::
          credit accounts k amount := rfl
    rw [hsplit, total_cons, total_cons]
    by_cases he : account.1 = k
    · have hrest : credit accounts k amount = accounts := by
        unfold credit
        rw [map_congr_left (g := id)]
        · exact map_id _
        · intro other hmem
          have hne : other.1 ≠ k := fun heq =>
            h.1 (he.trans heq.symm ▸ mem_map_of_mem hmem)
          simp [hne]
      rw [hrest, if_pos he]
      simp only
      abel
    · have hmem : k ∈ accounts.map (·.1) := by
        rw [map_cons, mem_cons] at hk
        exact hk.resolve_left fun heq => he heq.symm
      rw [if_neg he, ih h.2 hmem]
      abel

theorem keys_credit (accounts : List (κ × α)) (k : κ) (amount : α) :
    (credit accounts k amount).map (·.1) = accounts.map (·.1) := by
  unfold credit
  rw [map_map]
  apply map_congr_left
  intro account _
  simp only [Function.comp_apply]
  split_ifs
  · rfl
  · rfl

theorem sound_credit {accounts : List (κ × α)} (h : Ledger.Sound accounts) (k : κ) {amount : α}
    (hamount : 0 ≤ amount) : Ledger.Sound (credit accounts k amount) := by
  refine ⟨(keys_credit accounts k amount).symm ▸ h.distinct, ?_⟩
  intro account hmem
  obtain ⟨old, hold, rfl⟩ := mem_map.mp hmem
  have hnonneg := h.nonneg old hold
  split_ifs
  · exact add_nonneg hnonneg hamount
  · exact hnonneg

theorem Sound.openAccount {b : Books ι κ π α} (h : b.Sound) {k : κ}
    (hk : k ∉ b.accounts.map (·.1)) : (b.openAccount k).Sound where
  accounts := by
    refine ⟨?_, ?_⟩
    · simp only [Books.openAccount, map_append, map_cons, map_nil]
      rw [nodup_append]
      refine ⟨h.accounts.distinct, nodup_singleton _, ?_⟩
      rintro a ha b hb rfl
      rw [mem_singleton] at hb
      exact hk (hb ▸ ha)
    · intro account hmem
      rcases mem_append.mp hmem with hmem | hmem
      · exact h.accounts.nonneg account hmem
      · rw [mem_singleton.mp hmem]
  ids := h.ids
  amounts := h.amounts
  reserved := h.reserved
  covered := by
    have hcovered := h.covered
    simp only [Books.openAccount, total_append, total_cons, total_nil, add_zero]
    exact hcovered
  projects := h.projects

theorem balanced_openAccount_iff {b : Books ι κ π α} {k : κ} :
    (b.openAccount k).Balanced ↔ b.Balanced := by
  have htotal : total (b.openAccount k).accounts = total b.accounts := by
    simp [openAccount, total_append, total_cons]
  constructor
  · intro h
    exact ⟨h.accounts.trans htotal, h.projects⟩
  · intro h
    exact ⟨h.accounts.trans htotal.symm, h.projects⟩

theorem heldFor_eq_zero {holds : List (Hold ι κ π α)} {p : π}
    (h : ∀ g ∈ holds, g.project ≠ some p) : heldFor holds p = 0 := by
  unfold heldFor
  apply sum_eq_zero
  intro x hx
  obtain ⟨g, hg, rfl⟩ := mem_map.mp hx
  exact if_neg (h g hg)

theorem Sound.openProject {b : Books ι κ π α} (h : b.Sound) {p : π}
    (hp : ∀ g ∈ b.holds, g.project ≠ some p) : (b.openProject p).Sound where
  accounts := h.accounts
  ids := h.ids
  amounts := h.amounts
  reserved := h.reserved
  covered := h.covered
  projects := by
    intro entry hmem
    rcases mem_append.mp hmem with hmem | hmem
    · exact h.projects entry hmem
    · rw [mem_singleton.mp hmem]
      exact (heldFor_eq_zero hp).le

theorem balanced_openProject_iff {b : Books ι κ π α} {p : π}
    (hp : ∀ g ∈ b.holds, g.project ≠ some p) : (b.openProject p).Balanced ↔ b.Balanced := by
  constructor
  · intro h
    refine ⟨h.accounts, ?_⟩
    intro entry hmem
    exact h.projects entry (mem_append_left _ hmem)
  · intro h
    refine ⟨h.accounts, ?_⟩
    intro entry hmem
    rcases mem_append.mp hmem with hmem | hmem
    · exact h.projects entry hmem
    · rw [mem_singleton.mp hmem]
      exact heldFor_eq_zero hp

theorem mem_credit {accounts : List (κ × α)} {k : κ} {amount : α} {entry : κ × α}
    (h : entry ∈ credit accounts k amount) :
    ∃ old ∈ accounts, entry.1 = old.1 ∧ entry.2 = old.2 + if k = old.1 then amount else 0 := by
  obtain ⟨old, hold, rfl⟩ := mem_map.mp h
  refine ⟨old, hold, ?_⟩
  by_cases hk : old.1 = k
  · simp [hk]
  · simp [hk, Ne.symm hk]

theorem mem_projects_place {b : Books ι κ π α} {h : Hold ι κ π α} {entry : π × α}
    (hmem : entry ∈ (b.place h).projects) :
    ∃ old ∈ b.projects, entry.1 = old.1 ∧
      entry.2 = old.2 + if h.project = some old.1 then h.amount else 0 := by
  unfold place at hmem
  cases hp : h.project with
  | none =>
    simp only [hp] at hmem
    exact ⟨entry, hmem, rfl, by simp⟩
  | some p =>
    simp only [hp] at hmem
    obtain ⟨old, hold, hkey, hamount⟩ := mem_credit hmem
    refine ⟨old, hold, hkey, ?_⟩
    simpa using hamount

theorem exists_mem_projects_place {b : Books ι κ π α} (h : Hold ι κ π α) {old : π × α}
    (hold : old ∈ b.projects) :
    (old.1, old.2 + if h.project = some old.1 then h.amount else 0) ∈ (b.place h).projects := by
  unfold place
  cases hp : h.project with
  | none => simpa using hold
  | some p =>
    simp only
    refine mem_map.mpr ⟨old, hold, ?_⟩
    by_cases hk : old.1 = p
    · simp [hk]
    · have hne : ¬p = old.1 := fun he => hk he.symm
      simp [hk, hne]

theorem Sound.place {b : Books ι κ π α} (hb : b.Sound) {h : Hold ι κ π α}
    (howner : h.owner ∈ b.accounts.map (·.1)) (hid : ∀ g ∈ b.holds, g.id ≠ h.id)
    (hamount : 0 ≤ h.amount) : (b.place h).Sound where
  accounts := sound_credit hb.accounts _ hamount
  ids := by
    simp only [Books.place, map_append, map_cons, map_nil]
    rw [nodup_append]
    refine ⟨hb.ids, nodup_singleton _, ?_⟩
    rintro a ha c hc rfl
    obtain ⟨g, hg, hgid⟩ := mem_map.mp ha
    exact hid g hg (hgid.trans (mem_singleton.mp hc))
  amounts := by
    intro g hg
    rcases mem_append.mp hg with hg | hg
    · exact hb.amounts g hg
    · rw [mem_singleton.mp hg]
      exact hamount
  reserved := by
    simp only [Books.place, held_append]
    rw [hb.reserved]
  covered := by
    have hcovered := hb.covered
    simp only [Books.place, held_append]
    rw [total_credit hb.accounts.distinct howner]
    exact add_le_add_left hcovered _
  projects := by
    intro entry hmem
    obtain ⟨old, hold, hkey, hvalue⟩ := mem_projects_place hmem
    have hle := hb.projects old hold
    simp only [Books.place, heldFor_append]
    rw [hvalue, hkey]
    exact add_le_add_left hle _

theorem balanced_place_iff {b : Books ι κ π α} (hb : b.Sound) {h : Hold ι κ π α}
    (howner : h.owner ∈ b.accounts.map (·.1)) : (b.place h).Balanced ↔ b.Balanced := by
  have htotal : total (b.place h).accounts = total b.accounts + h.amount :=
    total_credit hb.accounts.distinct howner h.amount
  have hheld : held (b.place h).holds = held b.holds + h.amount := held_append b.holds h
  constructor
  · intro hbal
    refine ⟨?_, ?_⟩
    · have haccounts := hbal.accounts
      rw [htotal, hheld] at haccounts
      exact add_right_cancel haccounts
    · intro old hold
      have hproject := hbal.projects _ (exists_mem_projects_place h hold)
      simp only [place, heldFor_append] at hproject
      exact add_right_cancel hproject
  · intro hbal
    refine ⟨?_, ?_⟩
    · rw [htotal, hheld, hbal.accounts]
    · intro entry hmem
      obtain ⟨old, hold, hkey, hvalue⟩ := mem_projects_place hmem
      simp only [place, heldFor_append]
      rw [hvalue, hkey, hbal.projects old hold]

/-- A project that counts a hold gets it back, unless there is nothing to give. -/
def Unbooked (r : Release ι κ π α) (projects : List (π × α)) : Prop :=
  r.settled = false → ∀ p, r.hold.project = some p → p ∈ projects.map (·.1) → r.hold.amount = 0

theorem keys_projects_release (b : Books ι κ π α) (r : Release ι κ π α) :
    (b.release r).projects.map (·.1) = b.projects.map (·.1) := by
  unfold release
  cases r.settled with
  | false => rfl
  | true =>
    cases r.hold.project with
    | none => rfl
    | some p => exact keys_debit b.projects p r.hold.amount

theorem mem_projects_release {b : Books ι κ π α} {r : Release ι κ π α} {entry : π × α}
    (hmem : entry ∈ (b.release r).projects) :
    ∃ old ∈ b.projects, entry.1 = old.1 ∧
      entry.2 = if r.settled = true ∧ r.hold.project = some old.1
        then max 0 (old.2 - r.hold.amount) else old.2 := by
  unfold release at hmem
  cases hs : r.settled with
  | false =>
    simp only [hs] at hmem
    exact ⟨entry, hmem, rfl, by simp⟩
  | true =>
    cases hp : r.hold.project with
    | none =>
      simp only [hs, hp] at hmem
      exact ⟨entry, hmem, rfl, by simp⟩
    | some p =>
      simp only [hs, hp] at hmem
      obtain ⟨old, hold, rfl⟩ := mem_map.mp hmem
      refine ⟨old, hold, ?_⟩
      by_cases hk : old.1 = p
      · simp [hk]
      · have hne : ¬p = old.1 := fun he => hk he.symm
        simp [hk, hne]

theorem exists_mem_projects_release (b : Books ι κ π α) (r : Release ι κ π α) {old : π × α}
    (hold : old ∈ b.projects) :
    (old.1, if r.settled = true ∧ r.hold.project = some old.1
      then max 0 (old.2 - r.hold.amount) else old.2) ∈ (b.release r).projects := by
  unfold release
  cases hs : r.settled with
  | false => simpa using hold
  | true =>
    cases hp : r.hold.project with
    | none => simpa using hold
    | some p =>
      simp only
      refine mem_map.mpr ⟨old, hold, ?_⟩
      by_cases hk : old.1 = p
      · simp [hk]
      · have hne : ¬p = old.1 := fun he => hk he.symm
        simp [hk, hne]

theorem amount_le_held {holds : List (Hold ι κ π α)} (h : ∀ g ∈ holds, 0 ≤ g.amount)
    {g : Hold ι κ π α} (hg : g ∈ holds) : g.amount ≤ held holds := by
  apply single_le_sum
  · intro x hx
    obtain ⟨f, hf, rfl⟩ := mem_map.mp hx
    exact h f hf
  · exact mem_map_of_mem (f := fun h => h.amount) hg

theorem amount_le_heldFor {holds : List (Hold ι κ π α)} (h : ∀ g ∈ holds, 0 ≤ g.amount)
    {g : Hold ι κ π α} (hg : g ∈ holds) {p : π} (hp : g.project = some p) :
    g.amount ≤ heldFor holds p := by
  apply single_le_sum
  · intro x hx
    obtain ⟨f, hf, rfl⟩ := mem_map.mp hx
    split_ifs
    · exact h f hf
    · exact le_rfl
  · refine mem_map.mpr ⟨g, hg, ?_⟩
    simp [hp]

theorem Sound.release {b : Books ι κ π α} (hb : b.Sound) {r : Release ι κ π α}
    (hr : r.hold ∈ b.holds) : (b.release r).Sound where
  accounts := hb.accounts.debit _ _
  ids := hb.ids.sublist (filter_sublist.map _)
  amounts := by
    intro g hg
    exact hb.amounts g (mem_of_mem_filter hg)
  reserved := by
    have hle := amount_le_held hb.amounts hr
    simp only [Books.release]
    rw [held_remove hb.ids hr, hb.reserved, max_eq_right (sub_nonneg.mpr hle)]
  covered := by
    have hcovered := hb.covered
    simp only [Books.release]
    rw [held_remove hb.ids hr, total_debit hb.accounts (hb.amounts _ hr)]
    exact sub_le_sub hcovered (min_le_left _ _)
  projects := by
    intro entry hmem
    obtain ⟨old, hold, hkey, hvalue⟩ := mem_projects_release hmem
    have hle := hb.projects old hold
    have hamount := hb.amounts _ hr
    simp only [Books.release]
    rw [hvalue, hkey, heldFor_remove hb.ids hr]
    by_cases hp : r.hold.project = some old.1
    · rw [if_pos hp]
      split_ifs
      · exact le_trans (sub_le_sub_right hle _) (le_max_right _ _)
      · exact le_trans (sub_le_self _ hamount) hle
    · rw [if_neg hp, if_neg (fun h => hp h.2), sub_zero]
      exact hle

theorem balanced_release_iff {b : Books ι κ π α} (hb : b.Sound) {r : Release ι κ π α}
    (hr : r.hold ∈ b.holds) :
    (b.release r).Balanced ↔
      b.Balanced ∧ r.hold.amount ≤ balance b.accounts r.debtor ∧ Unbooked r b.projects := by
  have hamount := hb.amounts _ hr
  have htotal : total (b.release r).accounts =
      total b.accounts - min r.hold.amount (balance b.accounts r.debtor) :=
    total_debit hb.accounts hamount
  have hheld : held (b.release r).holds = held b.holds - r.hold.amount := held_remove hb.ids hr
  have hheldFor : ∀ p, heldFor (b.release r).holds p =
      heldFor b.holds p - if r.hold.project = some p then r.hold.amount else 0 :=
    heldFor_remove hb.ids hr
  constructor
  · intro hbal
    have haccounts := hbal.accounts
    rw [htotal, hheld] at haccounts
    have hmin : min r.hold.amount (balance b.accounts r.debtor) ≤ r.hold.amount :=
      min_le_left _ _
    have hfit : r.hold.amount ≤ balance b.accounts r.debtor := by
      by_contra hshort
      have hlt := lt_of_not_ge hshort
      rw [min_eq_right hlt.le] at haccounts
      have hless : held b.holds - r.hold.amount <
          total b.accounts - balance b.accounts r.debtor :=
        lt_of_lt_of_le (sub_lt_sub_left hlt _) (sub_le_sub_right hb.covered _)
      exact absurd haccounts hless.ne
    rw [min_eq_left hfit] at haccounts
    refine ⟨⟨sub_left_inj.mp haccounts, ?_⟩, hfit, ?_⟩
    · intro old hold
      apply le_antisymm (hb.projects old hold)
      have hproject := hbal.projects _ (exists_mem_projects_release b r hold)
      simp only [hheldFor] at hproject
      by_cases hp : r.hold.project = some old.1
      · have hle := amount_le_heldFor hb.amounts hr hp
        simp only [hp, if_true, and_true] at hproject
        by_cases hs : r.settled = true
        · simp only [hs, if_true] at hproject
          have hmax := le_max_right (0 : α) (old.2 - r.hold.amount)
          rw [← hproject] at hmax
          exact sub_le_sub_iff_right _ |>.mp hmax
        · simp only [hs] at hproject
          rw [if_neg (by simp)] at hproject
          rw [← hproject]
          exact sub_le_self _ hamount
      · simp only [hp, if_false, and_false, sub_zero] at hproject
        exact hproject.ge
    · intro hs p hp hmem
      obtain ⟨old, hold, rfl⟩ := mem_map.mp hmem
      have hproject := hbal.projects _ (exists_mem_projects_release b r hold)
      have hle := hb.projects old hold
      simp only [hheldFor, hp, hs, if_true] at hproject
      rw [if_neg (by simp)] at hproject
      rw [← hproject] at hle
      exact le_antisymm (by simpa using hle) hamount
  · intro ⟨hbal, hfit, hunbooked⟩
    refine ⟨?_, ?_⟩
    · rw [htotal, hheld, min_eq_left hfit, hbal.accounts]
    · intro entry hmem
      obtain ⟨old, hold, hkey, hvalue⟩ := mem_projects_release hmem
      have hproject := hbal.projects old hold
      rw [hvalue, hkey, hheldFor, hproject]
      by_cases hp : r.hold.project = some old.1
      · rw [if_pos hp]
        by_cases hs : r.settled = true
        · have hle := amount_le_heldFor hb.amounts hr hp
          rw [hproject] at hle
          rw [if_pos ⟨hs, hp⟩, max_eq_right (sub_nonneg.mpr hle)]
        · have hzero := hunbooked (by simpa using hs) old.1 hp
            (mem_map_of_mem (f := (·.1)) hold)
          rw [if_neg (fun h => hs h.1), hzero, sub_zero]
      · rw [if_neg hp, if_neg (fun h => hp h.2), sub_zero]

def debits (releases : List (Release ι κ π α)) : List (κ × α) :=
  releases.map fun r => (r.debtor, r.hold.amount)

/-- The holds a list of releases ends are all there, and it ends none twice. -/
structure Ends (b : Books ι κ π α) (releases : List (Release ι κ π α)) : Prop where
  mem : ∀ r ∈ releases, r.hold ∈ b.holds
  distinct : (releases.map fun r => r.hold.id).Nodup

theorem Ends.tail {b : Books ι κ π α} {r : Release ι κ π α} {releases : List (Release ι κ π α)}
    (h : Ends b (r :: releases)) : Ends (b.release r) releases := by
  have hdistinct := h.distinct
  rw [map_cons, nodup_cons] at hdistinct
  refine ⟨?_, hdistinct.2⟩
  intro other hother
  refine mem_filter.mpr ⟨h.mem other (mem_cons_of_mem _ hother), ?_⟩
  have hne : other.hold.id ≠ r.hold.id := by
    intro he
    exact hdistinct.1 (he ▸ mem_map_of_mem (f := fun r => r.hold.id) hother)
  simpa using hne

theorem Sound.releases {b : Books ι κ π α} (hb : b.Sound) {releases : List (Release ι κ π α)}
    (h : Ends b releases) : (releases.foldl Books.release b).Sound := by
  induction releases generalizing b with
  | nil => exact hb
  | cons r releases ih => exact ih (hb.release (h.mem r mem_cons_self)) h.tail

/-- Releases keep the books balanced exactly when every account holds what they ask of it and every
project that counts one of the holds is settled. -/
theorem balanced_releases_iff {b : Books ι κ π α} (hb : b.Sound)
    {releases : List (Release ι κ π α)} (h : Ends b releases) :
    (releases.foldl Books.release b).Balanced ↔
      b.Balanced ∧ (∀ k, debited (debits releases) k ≤ balance b.accounts k) ∧
        ∀ r ∈ releases, Unbooked r b.projects := by
  induction releases generalizing b with
  | nil =>
    have hnone : ∀ k, debited (debits ([] : List (Release ι κ π α))) k ≤ balance b.accounts k :=
      fun k => balance_nonneg hb.accounts k
    simp [hnone]
  | cons r releases ih =>
    have hmem := h.mem r mem_cons_self
    have hamounts : ∀ entry ∈ debits releases, 0 ≤ entry.2 := by
      intro entry hentry
      obtain ⟨other, hother, rfl⟩ := mem_map.mp hentry
      exact hb.amounts _ (h.mem other (mem_cons_of_mem _ hother))
    have hcons : (∀ k, debited ((r.debtor, r.hold.amount) :: debits releases) k ≤
        balance b.accounts k) ↔ _ := debited_cons_le_iff (hb.amounts _ hmem) hamounts
    have hdebits : debits (r :: releases) = (r.debtor, r.hold.amount) :: debits releases := rfl
    have hunbooked : ∀ other : Release ι κ π α,
        Unbooked other (b.release r).projects ↔ Unbooked other b.projects := by
      intro other
      unfold Unbooked
      rw [keys_projects_release]
    rw [foldl_cons, ih (hb.release hmem) h.tail, balanced_release_iff hb hmem, hdebits, hcons]
    simp only [hunbooked, forall_mem_cons]
    constructor
    · rintro ⟨⟨hbal, hfit, hfirst⟩, hrest, hall⟩
      exact ⟨hbal, ⟨hfit, hrest⟩, hfirst, hall⟩
    · rintro ⟨hbal, ⟨hfit, hrest⟩, hfirst, hall⟩
      exact ⟨⟨hbal, hfit, hfirst⟩, hrest, hall⟩

end Books

end Ledger
