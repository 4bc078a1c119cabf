import Mathlib.Data.List.Nodup

/-- Rows in insertion order, no two of them under the same primary key. -/
structure Table {ρ κ : Type*} (key : ρ → κ) where
  rows : List ρ
  unique : (rows.map key).Nodup

namespace Table

variable {ρ κ : Type*} {key : ρ → κ}

def empty : Table key := ⟨[], List.nodup_nil⟩

/-- The effect of `UPDATE … SET f WHERE p` on one row. -/
def setWhere (p : ρ → Bool) (f : ρ → ρ) (r : ρ) : ρ :=
  if p r then f r else r

theorem setWhere_pos {p : ρ → Bool} {f : ρ → ρ} {r : ρ} (h : p r = true) :
    setWhere p f r = f r := if_pos h

theorem setWhere_neg {p : ρ → Bool} {f : ρ → ρ} {r : ρ} (h : p r = false) : setWhere p f r = r := by
  simp [setWhere, h]

theorem key_setWhere {p : ρ → Bool} {f : ρ → ρ} (hf : ∀ r, key (f r) = key r) (r : ρ) :
    key (setWhere p f r) = key r := by
  unfold setWhere
  split_ifs
  · exact hf r
  · rfl

theorem ext_rows {t t' : Table key} (h : t.rows = t'.rows) : t = t' := by
  obtain ⟨rows, unique⟩ := t
  obtain ⟨rows', unique'⟩ := t'
  simp only [mk.injEq]
  exact h

/-- `UPDATE … SET f WHERE p`, for an assignment that leaves the primary key alone. -/
def update (t : Table key) (p : ρ → Bool) (f : ρ → ρ) (hf : ∀ r, key (f r) = key r) :
    Table key where
  rows := t.rows.map (setWhere p f)
  unique := by
    have hkey : key ∘ setWhere p f = key := funext (key_setWhere hf)
    rw [List.map_map, hkey]
    exact t.unique

theorem update_eq_self {t : Table key} {p : ρ → Bool} {f : ρ → ρ} {hf : ∀ r, key (f r) = key r}
    (h : ∀ r ∈ t.rows, p r = false) : t.update p f hf = t := by
  have hrows : t.rows.map (setWhere p f) = t.rows := by
    rw [List.map_congr_left fun r hr => setWhere_neg (h r hr), List.map_id']
  exact ext_rows hrows

/-- What an assignment leaves alone is read off the updated rows as before. -/
theorem map_rows_update {β : Type*} (t : Table key) (p : ρ → Bool) (f : ρ → ρ)
    (hf : ∀ r, key (f r) = key r) {g : ρ → β} (hg : ∀ r, g (f r) = g r) :
    (t.update p f hf).rows.map g = t.rows.map g := by
  simp only [update, List.map_map]
  apply List.map_congr_left
  intro r _
  simp only [Function.comp_apply, setWhere]
  split_ifs
  · exact hg r
  · rfl

/-- The number of rows `UPDATE … WHERE p` touches. -/
def changes (t : Table key) (p : ρ → Bool) : Nat := t.rows.countP p

theorem changes_pos_iff {t : Table key} {p : ρ → Bool} :
    0 < t.changes p ↔ ∃ r ∈ t.rows, p r = true := by
  simp [changes, List.countP_pos_iff]

/-- `DELETE … WHERE`. -/
def deleteWhere (t : Table key) (p : ρ → Bool) : Table key :=
  ⟨t.rows.filter fun r => !p r, t.unique.sublist (List.filter_sublist.map key)⟩

@[simp] theorem mem_rows_deleteWhere {t : Table key} {p : ρ → Bool} {r : ρ} :
    r ∈ (t.deleteWhere p).rows ↔ r ∈ t.rows ∧ p r = false := by
  simp [deleteWhere]

variable [DecidableEq κ]

def get? (t : Table key) (k : κ) : Option ρ := t.rows.find? fun r => key r = k

@[simp] theorem get?_empty (k : κ) : (empty : Table key).get? k = none := rfl

theorem key_of_get? {t : Table key} {k : κ} {r : ρ} (h : t.get? k = some r) : key r = k := by
  simpa using List.find?_some h

theorem mem_of_get? {t : Table key} {k : κ} {r : ρ} (h : t.get? k = some r) : r ∈ t.rows :=
  List.mem_of_find?_eq_some h

theorem get?_of_mem {t : Table key} {r : ρ} (h : r ∈ t.rows) : t.get? (key r) = some r := by
  obtain ⟨rows, unique⟩ := t
  simp only [get?]
  induction rows with
  | nil => exact absurd h List.not_mem_nil
  | cons a rows ih =>
    rcases List.mem_cons.mp h with rfl | hmem
    · simp
    · have hnodup := List.nodup_cons.mp unique
      have hne : key a ≠ key r := fun he =>
        hnodup.1 (he ▸ List.mem_map_of_mem hmem)
      rw [List.find?_cons_of_neg (by simpa using hne)]
      exact ih hnodup.2 hmem

theorem mem_rows_iff {t : Table key} {r : ρ} : r ∈ t.rows ↔ t.get? (key r) = some r :=
  ⟨get?_of_mem, mem_of_get?⟩

theorem get?_eq_some_iff {t : Table key} {k : κ} {r : ρ} :
    t.get? k = some r ↔ r ∈ t.rows ∧ key r = k := by
  constructor
  · intro h
    exact ⟨mem_of_get? h, key_of_get? h⟩
  · rintro ⟨h, rfl⟩
    exact get?_of_mem h

theorem get?_eq_none_iff {t : Table key} {k : κ} : t.get? k = none ↔ ∀ r ∈ t.rows, key r ≠ k := by
  simp [get?]

@[simp] theorem get?_update (t : Table key) (p : ρ → Bool) (f : ρ → ρ)
    (hf : ∀ r, key (f r) = key r) (k : κ) :
    (t.update p f hf).get? k = (t.get? k).map (setWhere p f) := by
  simp only [get?, update, List.find?_map]
  congr 2
  funext r
  simp only [Function.comp_apply, key_setWhere hf]

/-- `INSERT`, which the primary key may refuse. -/
def insert? (t : Table key) (r : ρ) : Option (Table key) :=
  if h : t.get? (key r) = none then
    some ⟨t.rows ++ [r], by
      rw [List.map_append, List.nodup_append]
      refine ⟨t.unique, List.nodup_singleton _, ?_⟩
      intro a ha b hb
      obtain ⟨s, hs, rfl⟩ := List.mem_map.mp ha
      have hb' : b = key r := by simpa using hb
      exact hb' ▸ get?_eq_none_iff.mp h s hs⟩
  else none

theorem insert?_eq_some {t t' : Table key} {r : ρ} (h : t.insert? r = some t') :
    t.get? (key r) = none ∧ t'.rows = t.rows ++ [r] := by
  unfold insert? at h
  split_ifs at h with hnone
  obtain rfl := Option.some.inj h
  exact ⟨hnone, rfl⟩

theorem get?_insert? {t t' : Table key} {r : ρ} (h : t.insert? r = some t') (k : κ) :
    t'.get? k = if key r = k then some r else t.get? k := by
  obtain ⟨hnone, hrows⟩ := insert?_eq_some h
  simp only [get?, hrows, List.find?_append]
  split_ifs with hk
  · subst hk
    have : t.rows.find? (fun s => key s = key r) = none := hnone
    simp [this]
  · simp [hk]

/-- A row keeps the primary key it was inserted under. -/
theorem get?_insert?_of_some {t t' : Table key} {r s : ρ} {k : κ} (h : t.insert? r = some t')
    (hk : t.get? k = some s) : t'.get? k = some s := by
  rw [get?_insert? h, if_neg, hk]
  rintro rfl
  rw [(insert?_eq_some h).1] at hk
  exact Option.some_ne_none s hk.symm

/-- An update addressed by primary key touches a row exactly when the row it names qualifies. -/
theorem changes_key_pos_iff {t : Table key} {k : κ} {q : ρ → Bool} :
    0 < t.changes (fun r => decide (key r = k) && q r) ↔ ∃ r, t.get? k = some r ∧ q r = true := by
  simp only [changes_pos_iff, Bool.and_eq_true, decide_eq_true_eq, get?_eq_some_iff]
  constructor
  · rintro ⟨r, hr, hk, hq⟩
    exact ⟨r, ⟨hr, hk⟩, hq⟩
  · rintro ⟨r, ⟨hr, hk⟩, hq⟩
    exact ⟨r, hr, hk, hq⟩

/-- `INSERT … ON CONFLICT DO UPDATE` of the whole row. -/
def upsert (t : Table key) (r : ρ) : Table key :=
  match t.insert? r with
  | some t' => t'
  | none =>
    t.update (fun s => decide (key s = key r)) (fun s => if key s = key r then r else s) fun s => by
      split_ifs with h
      · exact h.symm
      · rfl

theorem insert?_eq_none {t : Table key} {r : ρ} (h : t.insert? r = none) :
    ∃ s, t.get? (key r) = some s := by
  unfold insert? at h
  split_ifs at h with hnone
  exact Option.ne_none_iff_exists'.mp hnone

/-- `INSERT OR IGNORE`. -/
def insertOrIgnore (t : Table key) (r : ρ) : Table key := (t.insert? r).getD t

theorem get?_insertOrIgnore (t : Table key) (r : ρ) (k : κ) :
    (t.insertOrIgnore r).get? k = (t.get? k).or (if key r = k then some r else none) := by
  unfold insertOrIgnore
  cases hinsert : t.insert? r with
  | some t' =>
    obtain ⟨hnone, -⟩ := insert?_eq_some hinsert
    rw [Option.getD_some, get?_insert? hinsert]
    by_cases hk : key r = k
    · subst hk
      simp [hnone]
    · simp [hk]
  | none =>
    obtain ⟨s, hs⟩ := insert?_eq_none hinsert
    by_cases hk : key r = k
    · subst hk
      simp [hs]
    · simp [hk]

theorem mem_rows_insertOrIgnore {t : Table key} {r s : ρ} (h : s ∈ (t.insertOrIgnore r).rows) :
    s ∈ t.rows ∨ s = r := by
  have hget := get?_insertOrIgnore t r (key s)
  rw [get?_of_mem h] at hget
  cases hrow : t.get? (key s) with
  | some row =>
    rw [hrow, Option.some_or] at hget
    exact .inl (Option.some.inj hget ▸ mem_of_get? hrow)
  | none =>
    rw [hrow, Option.none_or] at hget
    split_ifs at hget
    exact .inr (Option.some.inj hget)

theorem mem_insertOrIgnore_of_mem {t : Table key} {r s : ρ} (h : s ∈ t.rows) :
    s ∈ (t.insertOrIgnore r).rows := by
  apply mem_rows_iff.mpr
  rw [get?_insertOrIgnore, get?_of_mem h, Option.some_or]

/-- `INSERT OR IGNORE` of rows one after another. -/
def insertAllOrIgnore (t : Table key) (rows : List ρ) : Table key := rows.foldl insertOrIgnore t

theorem mem_insertAllOrIgnore_of_mem {t : Table key} {s : ρ} (rows : List ρ) (h : s ∈ t.rows) :
    s ∈ (t.insertAllOrIgnore rows).rows := by
  induction rows generalizing t with
  | nil => exact h
  | cons r rows ih => exact ih (mem_insertOrIgnore_of_mem h)

theorem mem_rows_insertAllOrIgnore {t : Table key} {s : ρ} {rows : List ρ}
    (h : s ∈ (t.insertAllOrIgnore rows).rows) : s ∈ t.rows ∨ s ∈ rows := by
  induction rows generalizing t with
  | nil => exact .inl h
  | cons r rows ih =>
    rcases ih h with h | h
    · rcases mem_rows_insertOrIgnore h with h | rfl
      · exact .inl h
      · exact .inr List.mem_cons_self
    · exact .inr (List.mem_cons_of_mem _ h)

/-- Some row stands under the key of every row offered. -/
theorem exists_mem_insertAllOrIgnore {t : Table key} {r : ρ} {rows : List ρ} (h : r ∈ rows) :
    ∃ s ∈ (t.insertAllOrIgnore rows).rows, key s = key r := by
  induction rows generalizing t with
  | nil => exact absurd h List.not_mem_nil
  | cons a rows ih =>
    rcases List.mem_cons.mp h with rfl | h
    · obtain ⟨s, hs⟩ : ∃ s, (t.insertOrIgnore r).get? (key r) = some s := by
        rw [get?_insertOrIgnore, if_pos rfl]
        cases t.get? (key r) with
        | some row => exact ⟨row, rfl⟩
        | none => exact ⟨r, rfl⟩
      exact ⟨s, mem_insertAllOrIgnore_of_mem rows (mem_of_get? hs), key_of_get? hs⟩
    · exact ih h

theorem exists_insert? {t : Table key} {r : ρ} (h : t.get? (key r) = none) :
    ∃ t', t.insert? r = some t' := by
  cases hinsert : t.insert? r with
  | some t' => exact ⟨t', rfl⟩
  | none =>
    obtain ⟨s, hs⟩ := insert?_eq_none hinsert
    exact absurd (hs.symm.trans h) (Option.some_ne_none s)

/-- A row replaced by another under the same key leaves the others as they were. -/
theorem rows_upsert_of_some {t : Table key} {r s : ρ} (h : t.get? (key r) = some s) :
    (t.upsert r).rows = t.rows.map fun row => if key row = key r then r else row := by
  unfold upsert
  cases hinsert : t.insert? r with
  | some t' =>
    rw [(insert?_eq_some hinsert).1] at h
    exact absurd h (Option.some_ne_none s).symm
  | none =>
    simp only [update]
    apply List.map_congr_left
    intro row _
    by_cases hk : key row = key r
    · simp [setWhere, hk]
    · simp [setWhere, hk]

theorem get?_upsert (t : Table key) (r : ρ) (k : κ) :
    (t.upsert r).get? k = if key r = k then some r else t.get? k := by
  unfold upsert
  cases hinsert : t.insert? r with
  | some t' => exact get?_insert? hinsert k
  | none =>
    simp only
    rw [get?_update]
    obtain ⟨s, hs⟩ := insert?_eq_none hinsert
    by_cases hk : key r = k
    · subst hk
      have hkey : key s = key r := key_of_get? hs
      simp [hs, setWhere, hkey]
    · rw [if_neg hk]
      cases hrow : t.get? k with
      | none => rfl
      | some row =>
        have hkey : key row ≠ key r := fun he => hk (he.symm.trans (key_of_get? hrow))
        simp [setWhere, hkey]

theorem mem_rows_upsert {t : Table key} {r s : ρ} :
    s ∈ (t.upsert r).rows ↔ s = r ∨ key s ≠ key r ∧ s ∈ t.rows := by
  rw [mem_rows_iff, get?_upsert]
  by_cases hk : key r = key s
  · simp [hk, eq_comm]
  · have hne : s ≠ r := by
      intro heq
      exact hk (congrArg key heq.symm)
    rw [if_neg hk, ← mem_rows_iff]
    simp [hne, Ne.symm hk]

/-- Tables that agree on the rows under a key find the same one there. -/
theorem get?_congr {t t' : Table key} {k : κ}
    (h : ∀ r, key r = k → (r ∈ t.rows ↔ r ∈ t'.rows)) : t.get? k = t'.get? k := by
  cases hrow : t.get? k with
  | some r =>
    have hk : key r = k := key_of_get? hrow
    have hmem : r ∈ t'.rows := (h r hk).mp (mem_of_get? hrow)
    exact (hk ▸ get?_of_mem hmem).symm
  | none =>
    symm
    apply get?_eq_none_iff.mpr
    intro r hmem hk
    exact get?_eq_none_iff.mp hrow r ((h r hk).mpr hmem) hk

theorem nodup_rows (t : Table key) : t.rows.Nodup := t.unique.of_map key

end Table

/-! Rows that are live until they settle: each owner has at most one live row, and a settled row is
left as it is. -/

namespace Table

variable {ρ κ ω : Type*} {key : ρ → κ}

def SoleLive (live : ρ → Bool) (owner : ρ → ω) (t : Table key) : Prop :=
  ∀ r ∈ t.rows, ∀ s ∈ t.rows, live r = true → live s = true → owner r = owner s → key r = key s

/-- Every settled row of the first table is a row of the second. -/
def KeepsSettled (live : ρ → Bool) (t t' : Table key) : Prop :=
  ∀ r ∈ t.rows, live r = false → r ∈ t'.rows

/-- Every live row of the second table was live in the first, under the same owner. -/
def NoneRevived (live : ρ → Bool) (owner : ρ → ω) (t t' : Table key) : Prop :=
  ∀ r' ∈ t'.rows, live r' = true → ∃ r ∈ t.rows, live r = true ∧ key r = key r' ∧ owner r = owner r'

/-- The table went on without a new live row. -/
structure Settles (live : ρ → Bool) (owner : ρ → ω) (t t' : Table key) : Prop where
  kept : KeepsSettled live t t'
  revived : NoneRevived live owner t t'

variable {live : ρ → Bool} {owner : ρ → ω} {t t' t'' : Table key}

theorem KeepsSettled.refl (t : Table key) : KeepsSettled live t t := fun _ h _ => h

theorem KeepsSettled.trans (h : KeepsSettled live t t') (h' : KeepsSettled live t' t'') :
    KeepsSettled live t t'' :=
  fun r hr hlive => h' r (h r hr hlive) hlive

theorem Settles.refl (t : Table key) : Settles live owner t t :=
  ⟨KeepsSettled.refl t, fun r hr hlive => ⟨r, hr, hlive, rfl, rfl⟩⟩

theorem Settles.trans (h : Settles live owner t t') (h' : Settles live owner t' t'') :
    Settles live owner t t'' := by
  refine ⟨h.kept.trans h'.kept, ?_⟩
  intro r'' hr'' hlive''
  obtain ⟨r', hr', hlive', hkey', howner'⟩ := h'.revived r'' hr'' hlive''
  obtain ⟨r, hr, hlive, hkey, howner⟩ := h.revived r' hr' hlive'
  exact ⟨r, hr, hlive, hkey.trans hkey', howner.trans howner'⟩

theorem Settles.soleLive (h : Settles live owner t t') (hsole : SoleLive live owner t) :
    SoleLive live owner t' := by
  intro r' hr' s' hs' hr'live hs'live howner
  obtain ⟨r, hr, hrlive, hrkey, hrowner⟩ := h.revived r' hr' hr'live
  obtain ⟨s, hs, hslive, hskey, hsowner⟩ := h.revived s' hs' hs'live
  have hsame : owner r = owner s := by rw [hrowner, hsowner, howner]
  have hkey : key r = key s := hsole r hr s hs hrlive hslive hsame
  rw [← hrkey, ← hskey, hkey]

/-- An update of live rows only, which leaves their owner alone, settles some of them at most. -/
theorem settles_update (t : Table key) {p : ρ → Bool} {f : ρ → ρ} {hf : ∀ r, key (f r) = key r}
    (hlive : ∀ r, p r = true → live r = true) (howner : ∀ r, owner (f r) = owner r) :
    Settles live owner t (t.update p f hf) := by
  constructor
  · intro r hr hsettled
    have hp : p r = false := by
      cases hp : p r with
      | true => exact (hlive r hp).symm.trans hsettled
      | false => rfl
    have hsame : setWhere p f r = r := setWhere_neg hp
    exact List.mem_map.mpr ⟨r, hr, hsame⟩
  · intro r' hr' hlive'
    obtain ⟨r, hr, heq⟩ := List.mem_map.mp hr'
    cases hp : p r with
    | true =>
      rw [setWhere_pos hp] at heq
      refine ⟨r, hr, hlive r hp, ?_, ?_⟩
      · rw [← heq, hf r]
      · rw [← heq, howner r]
    | false =>
      rw [setWhere_neg hp] at heq
      rw [← heq] at hlive' ⊢
      exact ⟨r, hr, hlive', rfl, rfl⟩

/-- After an update that settles every row it qualifies, none of them is live. -/
theorem live_ne_of_update {p : ρ → Bool} {f : ρ → ρ} {hf : ∀ r, key (f r) = key r}
    (hsettle : ∀ r, live (f r) = false) {r' : ρ} (hr' : r' ∈ (t.update p f hf).rows)
    (hlive : live r' = true) : r' ∈ t.rows ∧ p r' = false := by
  obtain ⟨r, hr, heq⟩ := List.mem_map.mp hr'
  cases hp : p r with
  | true =>
    rw [setWhere_pos hp] at heq
    rw [← heq, hsettle r] at hlive
    cases hlive
  | false =>
    rw [setWhere_neg hp] at heq
    rw [← heq]
    exact ⟨hr, hp⟩

theorem SoleLive.length_filter_le [DecidableEq ω] (hsole : SoleLive live owner t) (o : ω) :
    (t.rows.filter fun r => decide (owner r = o) && live r).length ≤ 1 := by
  have hall : ∀ r ∈ t.rows.filter (fun r => decide (owner r = o) && live r),
      r ∈ t.rows ∧ owner r = o ∧ live r = true := by
    intro r hr
    simpa using hr
  have hnodup : ((t.rows.filter fun r => decide (owner r = o) && live r).map key).Nodup :=
    t.unique.sublist (List.filter_sublist.map key)
  cases hrows : t.rows.filter fun r => decide (owner r = o) && live r with
  | nil => simp
  | cons a rest =>
    rw [hrows] at hall hnodup
    cases rest with
    | nil => simp
    | cons b rest =>
      obtain ⟨ha, haowner, halive⟩ := hall a (by simp)
      obtain ⟨hb, hbowner, hblive⟩ := hall b (by simp)
      have hkey : key a = key b := hsole a ha b hb halive hblive (haowner.trans hbowner.symm)
      simp [hkey] at hnodup

variable [DecidableEq κ]

theorem keepsSettled_insert? {r : ρ} (h : t.insert? r = some t') : KeepsSettled live t t' := by
  intro s hs _
  rw [(insert?_eq_some h).2]
  exact List.mem_append_left _ hs

theorem soleLive_insert? {r : ρ} (h : t.insert? r = some t') (hsole : SoleLive live owner t)
    (hfree : ∀ s ∈ t.rows, live s = true → owner s ≠ owner r) : SoleLive live owner t' := by
  intro a ha b hb halive hblive howner
  rw [(insert?_eq_some h).2] at ha hb
  rcases List.mem_append.mp ha with ha | ha
  · rcases List.mem_append.mp hb with hb | hb
    · exact hsole a ha b hb halive hblive howner
    · rw [List.mem_singleton.mp hb] at howner
      exact absurd howner (hfree a ha halive)
  · rcases List.mem_append.mp hb with hb | hb
    · rw [List.mem_singleton.mp ha] at howner
      exact absurd howner.symm (hfree b hb hblive)
    · rw [List.mem_singleton.mp ha, List.mem_singleton.mp hb]

theorem get?_of_keepsSettled (h : KeepsSettled live t t') {k : κ} {r : ρ} (hr : t.get? k = some r)
    (hsettled : live r = false) : t'.get? k = some r := by
  have hmem : r ∈ t'.rows := h r (mem_of_get? hr) hsettled
  rw [← key_of_get? hr]
  exact get?_of_mem hmem

end Table
