import FlowDeck.Execution.Dependencies

namespace Dependencies

open Fallible List

variable {deps : String → List String}

/-- What a search leaves of the keys: each still stands for one depth, nothing is added for what the
search is still below, and all that is added is known. -/
structure KeepsKeys (known visiting : List String) (visited visited' : Depths) : Prop where
  nodup : (visited'.map Prod.fst).Nodup
  untouched : ∀ id ∈ visiting, id ∈ visited'.map Prod.fst → id ∈ visited.map Prod.fst
  within : ∀ id ∈ visited'.map Prod.fst, id ∈ visited.map Prod.fst ∨ id ∈ known

variable {visiting ids : List String} {visited : Depths}

theorem KeepsKeys.refl {known : List String} (h : (visited.map Prod.fst).Nodup) :
    KeepsKeys known visiting visited visited :=
  ⟨h, fun _ _ hmem => hmem, fun _ hmem => Or.inl hmem⟩

theorem KeepsKeys.trans {known visiting : List String} {visited mid visited' : Depths}
    (h : KeepsKeys known visiting visited mid) (h' : KeepsKeys known visiting mid visited') :
    KeepsKeys known visiting visited visited' where
  nodup := h'.nodup
  untouched := fun id hid hmem => h.untouched id hid (h'.untouched id hid hmem)
  within := by
    intro id hmem
    rcases h'.within id hmem with hmid | hknown
    · exact h.within id hmid
    · exact Or.inr hknown

theorem notMem_keys_of_lookup {id : String} (h : visited.lookup id = none) :
    id ∉ visited.map Prod.fst := by
  intro hmem
  obtain ⟨entry, hentry, rfl⟩ := mem_map.mp hmem
  have hsome := lookup_eq_none_iff.mp h entry hentry
  simp at hsome

theorem lookup_eq_some_iff (h : (visited.map Prod.fst).Nodup) {id : String} {depth : Nat} :
    visited.lookup id = some depth ↔ (id, depth) ∈ visited := by
  constructor
  · exact mem_of_lookup
  · intro hmem
    cases hlookup : visited.lookup id with
    | none => exact absurd (mem_map_of_mem hmem) (notMem_keys_of_lookup hlookup)
    | some other =>
      have hother := mem_of_lookup hlookup
      have hsame := inj_on_of_nodup_map h hother hmem rfl
      rw [(Prod.mk.inj hsame).2]

theorem deepest_keepsKeys {known : List String} {search : String → SearchM Nat}
    (hsearch : ∀ id ∈ ids, ∀ visited visited' depth, search id visited = .ok depth visited' →
      (visited.map Prod.fst).Nodup → KeepsKeys known visiting visited visited')
    {visited visited' : Depths} {depth : Nat}
    (hok : deepest search ids visited = .ok depth visited') (hnodup : (visited.map Prod.fst).Nodup) :
    KeepsKeys known visiting visited visited' := by
  induction ids generalizing visited visited' depth with
  | nil =>
    obtain ⟨_, rfl⟩ := pure_eq_ok_iff.mp hok
    exact .refl hnodup
  | cons id ids ih =>
    obtain ⟨first, mid, hfirst, hrest⟩ := bind_eq_ok_iff.mp hok
    obtain ⟨others, last, hothers, hpure⟩ := bind_eq_ok_iff.mp hrest
    obtain ⟨_, rfl⟩ := pure_eq_ok_iff.mp hpure
    have hone := hsearch id mem_cons_self visited mid first hfirst hnodup
    exact hone.trans (ih (fun d hd => hsearch d (mem_cons_of_mem _ hd)) hothers hone.nodup)

variable {known : List String}

theorem visit_keepsKeys (hknown : ∀ id ∈ known, ∀ d ∈ deps id, d ∈ known) {fuel : Nat}
    {visiting : List String} {id : String} (hid : id ∈ known) {visited visited' : Depths}
    {depth : Nat} (hok : visit deps fuel visiting id visited = .ok depth visited')
    (hnodup : (visited.map Prod.fst).Nodup) : KeepsKeys known visiting visited visited' := by
  induction fuel generalizing visiting id visited visited' depth with
  | zero => cases hok
  | succ fuel ih =>
    unfold visit at hok
    split_ifs at hok with hcycle
    · cases hok
    · obtain ⟨seen, before, hget, hrest⟩ := bind_eq_ok_iff.mp hok
      obtain ⟨rfl, rfl⟩ := EStateM.Result.ok.inj hget
      cases hlookup : visited.lookup id with
      | some before =>
        rw [hlookup] at hrest
        obtain ⟨_, rfl⟩ := pure_eq_ok_iff.mp hrest
        exact .refl hnodup
      | none =>
        rw [hlookup] at hrest
        obtain ⟨below, mid, hdeepest, hpush⟩ := bind_eq_ok_iff.mp hrest
        obtain ⟨_, last, hmodify, hpure⟩ := bind_eq_ok_iff.mp hpush
        obtain ⟨_, rfl⟩ := pure_eq_ok_iff.mp hpure
        obtain ⟨_, rfl⟩ := EStateM.Result.ok.inj hmodify
        have hsearch : ∀ d ∈ deps id, ∀ v v' k, visit deps fuel (id :: visiting) d v = .ok k v' →
            (v.map Prod.fst).Nodup → KeepsKeys known (id :: visiting) v v' :=
          fun d hd v v' k => ih (hknown id hid d hd)
        have hmid := deepest_keepsKeys hsearch hdeepest hnodup
        have hnew : id ∉ mid.map Prod.fst := by
          intro hmem
          exact notMem_keys_of_lookup hlookup (hmid.untouched id mem_cons_self hmem)
        refine ⟨nodup_cons.mpr ⟨hnew, hmid.nodup⟩, ?_, ?_⟩
        · intro x hx hmem
          rcases mem_cons.mp hmem with rfl | hmem
          · exact absurd hx hcycle
          · exact hmid.untouched x (mem_cons_of_mem _ hx) hmem
        · intro x hmem
          rcases mem_cons.mp hmem with rfl | hmem
          · exact Or.inr hid
          · exact hmid.within x hmem

theorem visitAll_keepsKeys (hknown : ∀ id ∈ known, ∀ d ∈ deps id, d ∈ known) {ids : List String}
    (hids : ∀ id ∈ ids, id ∈ known) {fuel : Nat} {visited visited' : Depths}
    (hok : ids.forM (visitOne deps fuel) visited = .ok ⟨⟩ visited')
    (hnodup : (visited.map Prod.fst).Nodup) : KeepsKeys known [] visited visited' := by
  induction ids generalizing visited with
  | nil =>
    obtain rfl := forM_nil_eq_ok_iff.mp hok
    exact .refl hnodup
  | cons id ids ih =>
    obtain ⟨mid, hfirst, hrest⟩ := forM_cons_eq_ok_iff.mp hok
    obtain ⟨depth, last, hvisit, hpure⟩ := bind_eq_ok_iff.mp hfirst
    obtain ⟨_, rfl⟩ := pure_eq_ok_iff.mp hpure
    have hone := visit_keepsKeys hknown (hids id mem_cons_self) hvisit hnodup
    exact hone.trans (ih (fun x hx => hids x (mem_cons_of_mem _ hx)) hrest hone.nodup)

theorem exists_deepest {search : String → SearchM Nat}
    (hsearch : ∀ id ∈ ids, ∀ visited, ∃ depth visited', search id visited = .ok depth visited')
    (visited : Depths) : ∃ depth visited', deepest search ids visited = .ok depth visited' := by
  induction ids generalizing visited with
  | nil => exact ⟨0, visited, rfl⟩
  | cons id ids ih =>
    obtain ⟨depth, mid, hfirst⟩ := hsearch id mem_cons_self visited
    obtain ⟨others, last, hothers⟩ := ih (fun d hd => hsearch d (mem_cons_of_mem _ hd)) mid
    refine ⟨max (depth + 1) others, last, ?_⟩
    apply bind_eq_ok_iff.mpr
    refine ⟨depth, mid, hfirst, ?_⟩
    apply bind_eq_ok_iff.mpr
    exact ⟨others, last, hothers, rfl⟩

/-- Where nothing depends on itself, the search below a workstream ends: what it is below are
different workstreams, so that there is always one more step than it can need. -/
theorem exists_visit (hknown : ∀ id ∈ ids, ∀ d ∈ deps id, d ∈ ids)
    (hacyclic : ∀ id, ¬Relation.TransGen (fun a b => b ∈ deps a) id id) {fuel : Nat}
    {visiting : List String} {id : String} (hid : id ∈ ids)
    (habove : ∀ x ∈ visiting, x ∈ ids ∧ Relation.TransGen (fun a b => b ∈ deps a) x id)
    (hnodup : visiting.Nodup) (hfuel : ids.length < visiting.length + fuel) (visited : Depths) :
    ∃ depth visited', visit deps fuel visiting id visited = .ok depth visited' := by
  induction fuel generalizing visiting id visited with
  | zero =>
    have hle : visiting.length ≤ ids.length :=
      (subperm_of_subset hnodup fun x hx => (habove x hx).1).length_le
    omega
  | succ fuel ih =>
    have hnew : id ∉ visiting := fun hmem => hacyclic id (habove id hmem).2
    unfold visit
    rw [if_neg hnew]
    cases hlookup : visited.lookup id with
    | some known =>
      refine ⟨known, visited, ?_⟩
      apply bind_eq_ok_iff.mpr
      refine ⟨visited, visited, rfl, ?_⟩
      rw [hlookup]
      rfl
    | none =>
      have hbelow : ∀ d ∈ deps id, ∀ v, ∃ depth v',
          visit deps fuel (id :: visiting) d v = .ok depth v' := by
        intro d hd v
        apply ih (hknown id hid d hd)
        · intro x hx
          rcases mem_cons.mp hx with rfl | hx
          · exact ⟨hid, .single hd⟩
          · exact ⟨(habove x hx).1, .tail (habove x hx).2 hd⟩
        · exact nodup_cons.mpr ⟨hnew, hnodup⟩
        · simp only [length_cons]
          omega
      obtain ⟨depth, mid, hdeepest⟩ := exists_deepest hbelow visited
      refine ⟨depth, (id, depth) :: mid, ?_⟩
      apply bind_eq_ok_iff.mpr
      refine ⟨visited, visited, rfl, ?_⟩
      rw [hlookup]
      apply bind_eq_ok_iff.mpr
      exact ⟨depth, mid, hdeepest, rfl⟩

theorem exists_visitAll (hknown : ∀ id ∈ known, ∀ d ∈ deps id, d ∈ known)
    (hacyclic : ∀ id, ¬Relation.TransGen (fun a b => b ∈ deps a) id id) {fuel : Nat}
    (hids : ∀ id ∈ ids, id ∈ known) (hfuel : known.length < fuel) (visited : Depths) :
    ∃ visited', ids.forM (visitOne deps fuel) visited = .ok ⟨⟩ visited' := by
  induction ids generalizing visited with
  | nil => exact ⟨visited, rfl⟩
  | cons id ids ih =>
    have hid := hids id mem_cons_self
    have hnone : ∀ x ∈ ([] : List String), x ∈ known ∧
        Relation.TransGen (fun a b => b ∈ deps a) x id := fun x hx => absurd hx not_mem_nil
    have hstart : known.length < ([] : List String).length + fuel := by simpa using hfuel
    obtain ⟨depth, mid, hvisit⟩ := exists_visit hknown hacyclic hid hnone nodup_nil hstart
      visited
    obtain ⟨last, hrest⟩ := ih (fun x hx => hids x (mem_cons_of_mem _ hx)) mid
    refine ⟨last, ?_⟩
    apply forM_cons_eq_ok_iff.mpr
    refine ⟨mid, ?_, hrest⟩
    apply bind_eq_ok_iff.mpr
    exact ⟨depth, mid, hvisit, rfl⟩

/-- Depths that rank the dependencies leave no way around from a workstream that has one. -/
theorem descends (hranked : Ranked deps visited) (hnodup : (visited.map Prod.fst).Nodup)
    {a b : String} (h : Relation.TransGen (fun a b => b ∈ deps a) a b) {depth : Nat}
    (ha : visited.lookup a = some depth) : ∃ less < depth, visited.lookup b = some less := by
  have hone : ∀ {x y : String} {k : Nat}, y ∈ deps x → visited.lookup x = some k →
      ∃ less < k, visited.lookup y = some less := by
    intro x y k hy hx
    obtain ⟨less, hless, hmem⟩ := hranked x k (mem_of_lookup hx) y hy
    exact ⟨less, hless, (lookup_eq_some_iff hnodup).mpr hmem⟩
  induction h with
  | single hb => exact hone hb ha
  | tail _ hc ih =>
    obtain ⟨less, hless, hb⟩ := ih
    obtain ⟨lesser, hlesser, hfound⟩ := hone hc hb
    exact ⟨lesser, by omega, hfound⟩

end Dependencies
