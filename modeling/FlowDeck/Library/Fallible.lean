import Mathlib.Data.List.Basic

namespace Checked

universe u

variable {ε : Type*} {α β : Type u}

theorem bind_eq_ok {x : Except ε α} {f : α → Except ε β} {b : β} :
    x >>= f = .ok b ↔ ∃ a, x = .ok a ∧ f a = .ok b := by
  cases x with
  | error e =>
    constructor
    · intro h
      cases h
    · rintro ⟨a, ha, -⟩
      cases ha
  | ok a =>
    constructor
    · intro h
      exact ⟨a, rfl, h⟩
    · rintro ⟨a', ha, h⟩
      cases ha
      exact h

theorem ok_bind (a : α) (f : α → Except ε β) : (Except.ok a >>= f) = f a := rfl

theorem pure_eq_ok {a b : α} : (pure a : Except ε α) = .ok b ↔ a = b :=
  ⟨Except.ok.inj, congrArg Except.ok⟩

/-- Refuse with `e` when `c` holds. -/
def refuseIf (c : Prop) [Decidable c] (e : ε) : Except ε Unit :=
  if c then .error e else .ok ()

@[simp] theorem refuseIf_eq_ok {c : Prop} [Decidable c] {e : ε} {u : Unit} :
    refuseIf c e = .ok u ↔ ¬c := by
  unfold refuseIf
  split_ifs with hc
  · simp [hc]
  · simp [hc]

theorem guard_eq_ok {c : Prop} [Decidable c] {e : ε} {x : Except ε α} {b : α} :
    (if c then .error e else x) = .ok b ↔ ¬c ∧ x = .ok b := by
  split_ifs with hc
  · simp [hc]
  · simp [hc]

/-- A search with checks finds nothing just when it finds nothing at any element. -/
theorem anyM_eq_ok_false {ε : Type} {α : Type*} {f : α → Except ε Bool} {as : List α} :
    as.anyM f = .ok false ↔ ∀ a ∈ as, f a = .ok false := by
  induction as with
  | nil => exact iff_of_true rfl (fun a ha => absurd ha List.not_mem_nil)
  | cons a as ih =>
    simp only [List.anyM_cons, bind_eq_ok, List.forall_mem_cons]
    constructor
    · intro ⟨found, ha, hrest⟩
      cases found with
      | true => cases hrest
      | false => exact ⟨ha, ih.mp hrest⟩
    · intro ⟨ha, hrest⟩
      exact ⟨false, ha, ih.mpr hrest⟩

/-- A traversal that was not refused holds the values of the elements. -/
theorem mem_of_mapM_eq_ok {f : α → Except ε β} {as : List α} {bs : List β}
    (h : as.mapM f = .ok bs) {b : β} : b ∈ bs ↔ ∃ a ∈ as, f a = .ok b := by
  induction as generalizing bs with
  | nil =>
    rw [List.mapM_nil, pure_eq_ok] at h
    simp [← h]
  | cons a as ih =>
    rw [List.mapM_cons, bind_eq_ok] at h
    obtain ⟨first, hfirst, hrest⟩ := h
    obtain ⟨rest, hmap, heq⟩ := bind_eq_ok.mp hrest
    rw [pure_eq_ok] at heq
    rw [← heq, List.mem_cons, ih hmap]
    constructor
    · rintro (rfl | ⟨a', ha', hb⟩)
      · exact ⟨a, List.mem_cons_self, hfirst⟩
      · exact ⟨a', List.mem_cons_of_mem _ ha', hb⟩
    · rintro ⟨a', ha', hb⟩
      rcases List.mem_cons.mp ha' with rfl | ha'
      · exact .inl (Except.ok.inj (hb.symm.trans hfirst))
      · exact .inr ⟨a', ha', hb⟩

theorem map_eq_of_mapM_eq_ok {γ : Type*} {f : α → Except ε β} {g : α → γ} {k : β → γ} {as : List α}
    {bs : List β} (h : as.mapM f = .ok bs) (hvalue : ∀ a ∈ as, ∀ b, f a = .ok b → k b = g a) :
    bs.map k = as.map g := by
  induction as generalizing bs with
  | nil =>
    rw [List.mapM_nil, pure_eq_ok] at h
    simp [← h]
  | cons a as ih =>
    rw [List.mapM_cons, bind_eq_ok] at h
    obtain ⟨first, hfirst, hrest⟩ := h
    obtain ⟨rest, hmap, heq⟩ := bind_eq_ok.mp hrest
    rw [pure_eq_ok] at heq
    have hothers := ih hmap fun a' ha' => hvalue a' (List.mem_cons_of_mem _ ha')
    rw [← heq, List.map_cons, List.map_cons, hothers, hvalue a List.mem_cons_self first hfirst]

theorem exists_of_mapM_eq_ok {f : α → Except ε β} {as : List α} {bs : List β}
    (h : as.mapM f = .ok bs) {a : α} (ha : a ∈ as) : ∃ b, f a = .ok b := by
  induction as generalizing bs with
  | nil => exact absurd ha List.not_mem_nil
  | cons first rest ih =>
    rw [List.mapM_cons, bind_eq_ok] at h
    obtain ⟨b, hb, hrest⟩ := h
    obtain ⟨others, hmap, -⟩ := bind_eq_ok.mp hrest
    rcases List.mem_cons.mp ha with rfl | ha
    · exact ⟨b, hb⟩
    · exact ih hmap ha

/-- A traversal is not refused when no element is. -/
theorem exists_mapM_eq_ok {f : α → Except ε β} {as : List α} (h : ∀ a ∈ as, ∃ b, f a = .ok b) :
    ∃ bs, as.mapM f = .ok bs := by
  induction as with
  | nil => exact ⟨[], rfl⟩
  | cons a as ih =>
    obtain ⟨b, hb⟩ := h a List.mem_cons_self
    obtain ⟨bs, hbs⟩ := ih fun a' ha' => h a' (List.mem_cons_of_mem _ ha')
    refine ⟨b :: bs, ?_⟩
    rw [List.mapM_cons, hb, ok_bind, hbs]
    rfl

theorem unit_bind_eq_ok {x : Except ε Unit} {f : Unit → Except ε Unit} :
    x >>= f = .ok () ↔ x = .ok () ∧ f () = .ok () := by
  cases x with
  | error e => simp [bind, Except.bind]
  | ok u => simp [bind, Except.bind]

/-- A traversal for effect alone is not refused when no element is. -/
theorem forM_eq_ok {γ : Type*} {f : γ → Except ε Unit} {as : List γ} :
    as.forM f = .ok () ↔ ∀ a ∈ as, f a = .ok () := by
  induction as with
  | nil => simp [pure, Except.pure]
  | cons a as ih =>
    have hcons : (a :: as).forM f = (f a >>= fun _ => as.forM f) := rfl
    rw [hcons, unit_bind_eq_ok, ih]
    simp

theorem exists_of_toOption {x : Except ε α} {p : α → Bool} (h : x.toOption.any p = true) :
    ∃ a, x = .ok a ∧ p a = true := by
  cases x with
  | error e => cases h
  | ok a => exact ⟨a, rfl, h⟩

theorem toOption_eq_some {x : Except ε α} {a : α} (h : x.toOption = some a) : x = .ok a := by
  cases x with
  | error e => cases h
  | ok b => exact congrArg Except.ok (Option.some.inj h)

end Checked

namespace Fallible

universe u

variable {ε σ α β : Type u}

/-- The state a computation leaves; one that fails keeps what it had changed. -/
def after : EStateM.Result ε σ α → σ
  | .ok _ s => s
  | .error _ s => s

/-- A computation relates the state it starts in to the one it leaves. -/
def Keeps (R : σ → σ → Prop) (m : EStateM ε σ α) : Prop := ∀ s, R s (after (m s))

theorem bind_ok {m : EStateM ε σ α} {f : α → EStateM ε σ β} {s t : σ} {a : α}
    (h : m s = .ok a t) : (m >>= f) s = f a t := by
  simp [bind, EStateM.bind, h]

theorem bind_error {m : EStateM ε σ α} {f : α → EStateM ε σ β} {s t : σ} {e : ε}
    (h : m s = .error e t) : (m >>= f) s = .error e t := by
  simp [bind, EStateM.bind, h]

theorem bind_eq_ok_iff {m : EStateM ε σ α} {f : α → EStateM ε σ β} {s u : σ} {b : β} :
    (m >>= f) s = .ok b u ↔ ∃ a t, m s = .ok a t ∧ f a t = .ok b u := by
  cases hm : m s with
  | ok a t =>
    rw [bind_ok hm]
    simp
  | error e t =>
    rw [bind_error hm]
    simp

@[simp] theorem pure_apply (a : α) (s : σ) : (pure a : EStateM ε σ α) s = .ok a s := rfl

theorem pure_eq_ok_iff {a b : α} {s t : σ} :
    (pure a : EStateM ε σ α) s = .ok b t ↔ a = b ∧ s = t := by
  rw [pure_apply]
  constructor
  · intro h
    exact EStateM.Result.ok.inj h
  · rintro ⟨rfl, rfl⟩
    rfl

section Relation

variable {R : σ → σ → Prop}

theorem Keeps.of_pure (hrefl : ∀ s, R s s) (a : α) : Keeps R (pure a : EStateM ε σ α) :=
  fun s => hrefl s

theorem Keeps.bind (htrans : ∀ s t u, R s t → R t u → R s u) {m : EStateM ε σ α}
    {f : α → EStateM ε σ β} (hm : Keeps R m) (hf : ∀ a, Keeps R (f a)) : Keeps R (m >>= f) := by
  intro s
  have hfirst := hm s
  cases hs : m s with
  | ok a t =>
    rw [bind_ok hs]
    rw [hs] at hfirst
    exact htrans s t _ hfirst (hf a t)
  | error e t =>
    rw [bind_error hs]
    rw [hs] at hfirst
    exact hfirst

theorem Keeps.forM (hrefl : ∀ s, R s s) (htrans : ∀ s t u, R s t → R t u → R s u)
    {as : List α} {f : α → EStateM ε σ PUnit} (h : ∀ a ∈ as, Keeps R (f a)) :
    Keeps R (as.forM f) := by
  induction as with
  | nil => exact Keeps.of_pure hrefl _
  | cons a as ih =>
    apply Keeps.bind htrans (h a List.mem_cons_self)
    intro _
    exact ih fun b hb => h b (List.mem_cons_of_mem _ hb)

theorem Keeps.of_throw (hrefl : ∀ s, R s s) (e : ε) : Keeps R (throw e : EStateM ε σ α) :=
  fun s => hrefl s

theorem Keeps.ite {c : Prop} [Decidable c] {m m' : EStateM ε σ α} (hm : Keeps R m)
    (hm' : Keeps R m') : Keeps R (if c then m else m') := by
  split_ifs
  · exact hm
  · exact hm'

end Relation

theorem forM_nil_eq_ok_iff {f : α → EStateM ε σ PUnit} {s t : σ} :
    ([] : List α).forM f s = .ok ⟨⟩ t ↔ s = t := by
  constructor
  · intro h
    exact (EStateM.Result.ok.inj h).2
  · rintro rfl
    rfl

theorem forM_cons_eq_ok_iff {a : α} {as : List α} {f : α → EStateM ε σ PUnit} {s u : σ} :
    (a :: as).forM f s = .ok ⟨⟩ u ↔ ∃ t, f a s = .ok ⟨⟩ t ∧ as.forM f t = .ok ⟨⟩ u := by
  have hcons : (a :: as).forM f = (f a >>= fun _ => as.forM f) := rfl
  rw [hcons, bind_eq_ok_iff]
  constructor
  · rintro ⟨⟨⟩, t, hfirst, hrest⟩
    exact ⟨t, hfirst, hrest⟩
  · rintro ⟨t, hfirst, hrest⟩
    exact ⟨⟨⟩, t, hfirst, hrest⟩

theorem forM_map (f : α → β) (g : β → EStateM ε σ PUnit) (as : List α) :
    (as.map f).forM g = as.forM fun a => g (f a) := by
  induction as with
  | nil => rfl
  | cons a as ih =>
    have hcons : ((a :: as).map f).forM g = (g (f a) >>= fun _ => (as.map f).forM g) := rfl
    rw [hcons, ih]
    rfl

/-- A loop that passes over some elements is a loop over the others. -/
theorem forM_ite (p : α → Prop) [DecidablePred p] (f : α → EStateM ε σ PUnit) (as : List α) :
    (as.forM fun a => if p a then f a else pure ⟨⟩) = (as.filter fun a => decide (p a)).forM f := by
  induction as with
  | nil => rfl
  | cons a as ih =>
    have hcons : ((a :: as).forM fun a => if p a then f a else pure ⟨⟩) =
        ((if p a then f a else pure ⟨⟩) >>= fun _ => as.forM fun a =>
          if p a then f a else pure ⟨⟩) := rfl
    rw [hcons, ih, List.filter_cons]
    by_cases ha : p a
    · rw [if_pos ha, if_pos (by simpa using ha)]
      rfl
    · rw [if_neg ha, if_neg (by simpa using ha)]
      rfl

end Fallible
