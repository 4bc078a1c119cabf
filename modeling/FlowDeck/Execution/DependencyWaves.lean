import FlowDeck.Execution.DependencyAnalysis
import FlowDeck.Execution.DependencySearch

namespace DependencyAnalysis

open ExecutionContracts ExecutionScheduler Ownership Checked Dependencies List

/-! ### What a plan has to be -/

def DependsOn (workstreams : List Workstream) (id dependency : String) : Prop :=
  ∃ w ∈ workstreams, w.workstreamId = id ∧ dependency ∈ w.dependsOn

structure Sound (workstreams : List Workstream) : Prop where
  unique : (idsOf workstreams).Nodup
  notSelf : ∀ w ∈ workstreams, w.workstreamId ∉ w.dependsOn
  notRepeated : ∀ w ∈ workstreams, w.dependsOn.Nodup
  known : ∀ w ∈ workstreams, ∀ d ∈ w.dependsOn, d ∈ idsOf workstreams
  acyclic : ∀ id, ¬Relation.TransGen (DependsOn workstreams) id id
  apart : workstreams.Pairwise fun left right =>
    ownershipOverlaps left.ownedPaths right.ownedPaths ≠ .ok true

/-- No owned path that two workstreams are compared by leads out of the repository. -/
def Contained (workstreams : List Workstream) : Prop :=
  workstreams.Pairwise fun left right =>
    ∃ overlap, ownershipOverlaps left.ownedPaths right.ownedPaths = .ok overlap

/-- Waves that hold every workstream once and put what it depends on before it. -/
structure Layered (workstreams : List Workstream) (waves : List ExecutionWave) : Prop where
  partition : (waves.flatMap fun wave => wave.workstreamIds).Perm (idsOf workstreams)
  occupied : ∀ wave ∈ waves, wave.workstreamIds ≠ []
  earlier : ∀ id d, DependsOn workstreams id d → ∀ i j (hi : i < waves.length)
    (hj : j < waves.length), id ∈ waves[i].workstreamIds → d ∈ waves[j].workstreamIds → j < i

variable {H : Host} {workstreams : List Workstream}

theorem checkDependsOn_eq_ok_iff {known : String → Bool} {id : String} {seen ids : List String} :
    checkDependsOn known id seen ids = .ok () ↔
      ids.Nodup ∧ ∀ d ∈ ids, d ≠ id ∧ d ∉ seen ∧ known d = true := by
  induction ids generalizing seen with
  | nil => simp [checkDependsOn]
  | cons dep rest ih =>
    unfold checkDependsOn
    rw [guard_eq_ok, guard_eq_ok, guard_eq_ok, ih, nodup_cons, forall_mem_cons]
    simp only [mem_cons, not_or, Bool.not_eq_false]
    constructor
    · intro ⟨hself, hseen, hknown, hnodup, hrest⟩
      refine ⟨⟨fun hmem => (hrest dep hmem).2.1.1 rfl, hnodup⟩, ⟨hself, hseen, hknown⟩, ?_⟩
      intro d hd
      exact ⟨(hrest d hd).1, (hrest d hd).2.1.2, (hrest d hd).2.2⟩
    · intro ⟨⟨hnew, hnodup⟩, ⟨hself, hseen, hknown⟩, hrest⟩
      refine ⟨hself, hseen, hknown, hnodup, ?_⟩
      intro d hd
      have hne : d ≠ dep := by
        intro heq
        rw [heq] at hd
        exact hnew hd
      exact ⟨(hrest d hd).1, ⟨hne, (hrest d hd).2.1⟩, (hrest d hd).2.2⟩

theorem pairwise_iff_pairs {α : Type} {R : α → α → Prop} {as : List α} :
    as.Pairwise R ↔ ∀ pair ∈ pairs as, R pair.1 pair.2 := by
  induction as with
  | nil => simp [pairs]
  | cons a rest ih =>
    rw [pairwise_cons, ih]
    simp only [pairs, mem_append, mem_map]
    constructor
    · intro ⟨hfirst, hrest⟩ pair hpair
      rcases hpair with ⟨b, hb, rfl⟩ | hpair
      · exact hfirst b hb
      · exact hrest pair hpair
    · intro h
      refine ⟨?_, fun pair hpair => h pair (Or.inr hpair)⟩
      intro b hb
      exact h (a, b) (Or.inl ⟨b, hb, rfl⟩)

theorem mem_of_mem_pairs {α : Type} {as : List α} {pair : α × α} (h : pair ∈ pairs as) :
    pair.1 ∈ as ∧ pair.2 ∈ as := by
  induction as with
  | nil => cases h
  | cons a rest ih =>
    rcases mem_append.mp h with hfirst | hrest
    · obtain ⟨b, hb, rfl⟩ := mem_map.mp hfirst
      exact ⟨mem_cons_self, mem_cons_of_mem _ hb⟩
    · exact ⟨mem_cons_of_mem _ (ih hrest).1, mem_cons_of_mem _ (ih hrest).2⟩

theorem relationOf_iff {ownership ownershipEquivalent objective requirements acceptance : Bool} :
    relationOf ownership ownershipEquivalent objective requirements acceptance = .duplicate ∨
      relationOf ownership ownershipEquivalent objective requirements acceptance = .overlapping ↔
      ownership = true := by
  unfold relationOf
  split_ifs with h₁ h₂ h₃
  · simp [h₁]
  · simp [h₁]
  · simp [h₁]
  · simp [h₁]

theorem classifyPair_eq_ok {left right : Workstream} {d : WorkstreamRelationDiagnostic}
    (h : classifyPair H left right = .ok d) :
    d.left = left.workstreamId ∧ d.right = right.workstreamId ∧
      ∃ overlap, ownershipOverlaps left.ownedPaths right.ownedPaths = .ok overlap ∧
        (d.relation = .duplicate ∨ d.relation = .overlapping ↔ overlap = true) := by
  unfold classifyPair at h
  obtain ⟨overlap, hoverlap, hd⟩ := bind_eq_ok.mp h
  obtain rfl := pure_eq_ok.mp hd
  exact ⟨rfl, rfl, overlap, hoverlap, relationOf_iff⟩

theorem exists_classifyPair {left right : Workstream} {overlap : Bool}
    (h : ownershipOverlaps left.ownedPaths right.ownedPaths = .ok overlap) :
    ∃ d, classifyPair H left right = .ok d := by
  unfold classifyPair
  rw [h]
  exact ⟨_, rfl⟩

theorem mem_classify {relations : List WorkstreamRelationDiagnostic}
    (h : classifyWorkstreamRelations H workstreams = .ok relations)
    {d : WorkstreamRelationDiagnostic} :
    d ∈ relations ↔ ∃ pair ∈ pairs workstreams, classifyPair H pair.1 pair.2 = .ok d := by
  unfold classifyWorkstreamRelations at h
  obtain ⟨result, hresult, hsorted⟩ := bind_eq_ok.mp h
  obtain rfl := pure_eq_ok.mp hsorted
  rw [mem_insertionSort]
  exact mem_of_mapM_eq_ok hresult

theorem exists_classify (h : Contained workstreams) :
    ∃ relations, classifyWorkstreamRelations H workstreams = .ok relations := by
  have hpairs : ∀ pair ∈ pairs workstreams, ∃ d, classifyPair H pair.1 pair.2 = .ok d := by
    intro pair hpair
    obtain ⟨overlap, hoverlap⟩ := pairwise_iff_pairs.mp h pair hpair
    exact exists_classifyPair hoverlap
  obtain ⟨result, hresult⟩ := exists_mapM_eq_ok hpairs
  unfold classifyWorkstreamRelations
  rw [hresult]
  exact ⟨_, rfl⟩

theorem eq_of_workstreamId (hunique : (idsOf workstreams).Nodup) {w w' : Workstream}
    (hw : w ∈ workstreams) (hw' : w' ∈ workstreams) (hid : w.workstreamId = w'.workstreamId) :
    w = w' := inj_on_of_nodup_map hunique hw hw' hid

theorem exists_of_classify {relations : List WorkstreamRelationDiagnostic}
    (h : classifyWorkstreamRelations H workstreams = .ok relations)
    {pair : Workstream × Workstream} (hpair : pair ∈ pairs workstreams) :
    ∃ d, classifyPair H pair.1 pair.2 = .ok d := by
  unfold classifyWorkstreamRelations at h
  obtain ⟨result, hresult, -⟩ := bind_eq_ok.mp h
  exact exists_of_mapM_eq_ok hresult hpair

theorem find?_classify (hunique : (idsOf workstreams).Nodup)
    {relations : List WorkstreamRelationDiagnostic}
    (h : classifyWorkstreamRelations H workstreams = .ok relations)
    {pair : Workstream × Workstream} (hpair : pair ∈ pairs workstreams)
    {d : WorkstreamRelationDiagnostic} (hd : classifyPair H pair.1 pair.2 = .ok d) :
    ∃ item, (relations.find? fun item => item.left = pair.1.workstreamId &&
      item.right = pair.2.workstreamId) = some item ∧ item = d := by
  have hmem : d ∈ relations := (mem_classify h).mpr ⟨pair, hpair, hd⟩
  obtain ⟨hleft, hright, -⟩ := classifyPair_eq_ok hd
  cases hfind : relations.find? fun item => item.left = pair.1.workstreamId &&
      item.right = pair.2.workstreamId with
  | none =>
    have hnot := find?_eq_none.mp hfind d hmem
    simp [hleft, hright] at hnot
  | some item =>
    refine ⟨item, rfl, ?_⟩
    obtain ⟨other, hother, hclassified⟩ :=
      (mem_classify h).mp (mem_of_find?_eq_some hfind)
    have hnames := find?_some hfind
    simp only [Bool.and_eq_true, decide_eq_true_eq] at hnames
    obtain ⟨hleft', hright', -⟩ := classifyPair_eq_ok hclassified
    have hfirst : other.1 = pair.1 := eq_of_workstreamId hunique (mem_of_mem_pairs hother).1
      (mem_of_mem_pairs hpair).1 (hleft'.symm.trans hnames.1)
    have hsecond : other.2 = pair.2 := eq_of_workstreamId hunique (mem_of_mem_pairs hother).2
      (mem_of_mem_pairs hpair).2 (hright'.symm.trans hnames.2)
    rw [hfirst, hsecond, hd] at hclassified
    exact (Except.ok.inj hclassified).symm

theorem checkPair_eq_ok_iff {pair : Workstream × Workstream} :
    checkPair H workstreams pair = .ok () ↔
      ∃ relations, classifyWorkstreamRelations H workstreams = .ok relations ∧
        ∀ item, (relations.find? fun item => item.left = pair.1.workstreamId &&
          item.right = pair.2.workstreamId) = some item →
          ¬(item.relation = .duplicate ∨ item.relation = .overlapping) := by
  unfold checkPair
  rw [bind_eq_ok]
  constructor
  · intro ⟨relations, hrelations, hchecks⟩
    refine ⟨relations, hrelations, ?_⟩
    intro item hitem
    simp only [hitem, Option.map_some] at hchecks
    split_ifs at hchecks with hduplicate hoverlapping
    intro hrelated
    rcases hrelated with hr | hr
    · exact hduplicate (congrArg some hr)
    · exact hoverlapping (congrArg some hr)
  · intro ⟨relations, hrelations, hnone⟩
    refine ⟨relations, hrelations, ?_⟩
    cases hfind : relations.find? fun item => item.left = pair.1.workstreamId &&
        item.right = pair.2.workstreamId with
    | none => simp
    | some item =>
      have hitem := hnone item hfind
      rw [not_or] at hitem
      simp [hitem.1, hitem.2]

/-- The pairs pass where all of them can be compared and none overlaps. -/
theorem checkPairs_eq_ok_iff (hunique : (idsOf workstreams).Nodup) :
    (pairs workstreams).forM (checkPair H workstreams) = .ok () ↔
      Contained workstreams ∧ workstreams.Pairwise fun left right =>
        ownershipOverlaps left.ownedPaths right.ownedPaths ≠ .ok true := by
  rw [forM_eq_ok]
  unfold Contained
  rw [pairwise_iff_pairs, pairwise_iff_pairs]
  constructor
  · intro h
    have hone : ∀ pair ∈ pairs workstreams, ownershipOverlaps pair.1.ownedPaths
        pair.2.ownedPaths = .ok false := by
      intro pair hpair
      obtain ⟨relations, hrelations, hnone⟩ := checkPair_eq_ok_iff.mp (h pair hpair)
      obtain ⟨d, hd⟩ := exists_of_classify hrelations hpair
      obtain ⟨overlap, hoverlap, hiff⟩ := (classifyPair_eq_ok hd).2.2
      obtain ⟨item, hitem, hsame⟩ := find?_classify hunique hrelations hpair hd
      have hunrelated := hnone item hitem
      rw [hsame, hiff, Bool.not_eq_true] at hunrelated
      rw [hoverlap, hunrelated]
    refine ⟨fun pair hpair => ⟨false, hone pair hpair⟩, ?_⟩
    intro pair hpair
    rw [hone pair hpair]
    simp
  · intro ⟨hcontained, hapart⟩ pair hpair
    obtain ⟨relations, hrelations⟩ := exists_classify (H := H) (pairwise_iff_pairs.mpr hcontained)
    apply checkPair_eq_ok_iff.mpr
    refine ⟨relations, hrelations, ?_⟩
    intro item hitem hrelated
    obtain ⟨other, hother, hclassified⟩ :=
      (mem_classify hrelations).mp (mem_of_find?_eq_some hitem)
    obtain ⟨_, _, overlap, hoverlap, hiff⟩ := classifyPair_eq_ok hclassified
    rw [hiff.mp hrelated] at hoverlap
    exact hapart other hother hoverlap

theorem mem_depsOf_iff (hunique : (idsOf workstreams).Nodup) {id d : String} :
    d ∈ depsOf workstreams id ↔ DependsOn workstreams id d := by
  unfold depsOf DependsOn
  constructor
  · intro hd
    cases hfind : workstreams.find? fun w => w.workstreamId = id with
    | none => simp [hfind] at hd
    | some w =>
      have hid := find?_some hfind
      refine ⟨w, mem_of_find?_eq_some hfind, by simpa using hid, ?_⟩
      simpa [hfind] using hd
  · intro ⟨w, hw, hid, hd⟩
    cases hfind : workstreams.find? fun w => w.workstreamId = id with
    | none =>
      have hnot := find?_eq_none.mp hfind w hw
      simp [hid] at hnot
    | some other =>
      have hother := find?_some hfind
      have hsame : other = w := by
        apply eq_of_workstreamId hunique (mem_of_find?_eq_some hfind) hw
        rw [hid]
        simpa using hother
      simpa [hsame] using hd

/-- Depths of all the workstreams and of nothing else, by which they can be ordered. -/
structure Ranks (workstreams : List Workstream) (depths : Depths) : Prop where
  ranked : Ranked (depsOf workstreams) depths
  nodup : (depths.map Prod.fst).Nodup
  total : ∀ id ∈ idsOf workstreams, ∃ depth, depths.lookup id = some depth
  within : ∀ id depth, depths.lookup id = some depth → id ∈ idsOf workstreams

variable {depths : Depths} {diagnostics : DependencyDiagnostics}

theorem depthsOf_eq_ok_iff :
    depthsOf workstreams = .ok depths ↔ (idsOf workstreams).forM
      (visitOne (depsOf workstreams) (workstreams.length + 1)) [] = .ok ⟨⟩ depths := by
  unfold depthsOf
  split
  · next h => simp [h]
  · next h => simp [h]

theorem depsOf_known (hunique : (idsOf workstreams).Nodup)
    (hknown : ∀ w ∈ workstreams, ∀ d ∈ w.dependsOn, d ∈ idsOf workstreams) :
    ∀ id ∈ idsOf workstreams, ∀ d ∈ depsOf workstreams id, d ∈ idsOf workstreams := by
  intro id _ d hd
  obtain ⟨w, hw, _, hdw⟩ := (mem_depsOf_iff hunique).mp hd
  exact hknown w hw d hdw

theorem ranks_of_depthsOf (hunique : (idsOf workstreams).Nodup)
    (hknown : ∀ w ∈ workstreams, ∀ d ∈ w.dependsOn, d ∈ idsOf workstreams) {depths : Depths}
    (hok : depthsOf workstreams = .ok depths) : Ranks workstreams depths := by
  have hvisit := depthsOf_eq_ok_iff.mp hok
  have hempty : Ranked (depsOf workstreams) [] := by
    intro id depth hmem
    exact absurd hmem not_mem_nil
  obtain ⟨hranked, _, hall⟩ := visitAll_spec hvisit hempty
  have hkeys := visitAll_keepsKeys (depsOf_known hunique hknown) (fun _ h => h) hvisit
    nodup_nil
  refine ⟨hranked, hkeys.nodup, ?_, ?_⟩
  · intro id hid
    obtain ⟨depth, hmem⟩ := hall id hid
    exact ⟨depth, (lookup_eq_some_iff hkeys.nodup).mpr hmem⟩
  · intro id depth hlookup
    have hmem := mem_map_of_mem (f := Prod.fst) (mem_of_lookup hlookup)
    rcases hkeys.within id hmem with hnone | hin
    · exact absurd hnone not_mem_nil
    · exact hin

/-- The search ends for all of a plan's workstreams where no dependency leads back. -/
theorem exists_depthsOf_iff (hunique : (idsOf workstreams).Nodup)
    (hknown : ∀ w ∈ workstreams, ∀ d ∈ w.dependsOn, d ∈ idsOf workstreams) :
    (∃ depths, depthsOf workstreams = .ok depths) ↔
      ∀ id, ¬Relation.TransGen (DependsOn workstreams) id id := by
  have hdeps : (fun a b => b ∈ depsOf workstreams a) = DependsOn workstreams := by
    funext a b
    exact propext (mem_depsOf_iff hunique)
  rw [← hdeps]
  constructor
  · intro ⟨depths, hok⟩ id hcycle
    have hranks := ranks_of_depthsOf hunique hknown hok
    have hid : id ∈ idsOf workstreams := by
      obtain ⟨d, hd, _⟩ := Relation.TransGen.head'_iff.mp hcycle
      obtain ⟨w, hw, rfl, _⟩ := (mem_depsOf_iff hunique).mp hd
      exact mem_map_of_mem hw
    obtain ⟨depth, hdepth⟩ := hranks.total id hid
    obtain ⟨less, hless, hsame⟩ := descends hranks.ranked hranks.nodup hcycle hdepth
    obtain rfl := Option.some.inj (hsame.symm.trans hdepth)
    omega
  · intro hacyclic
    have hlength : (idsOf workstreams).length < workstreams.length + 1 := by
      simp [idsOf]
    obtain ⟨depths, hvisit⟩ := exists_visitAll (depsOf_known hunique hknown) hacyclic
      (fun _ h => h) hlength []
    exact ⟨depths, depthsOf_eq_ok_iff.mpr hvisit⟩

/-! ### Waves -/

theorem mem_waveAt {index : Nat} {id : String} :
    id ∈ (waveAt workstreams depths index).workstreamIds ↔
      id ∈ idsOf workstreams ∧ depths.lookup id = some index := by
  unfold waveAt sortTexts
  simp only [mem_insertionSort, idsOf, mem_map, mem_filter, decide_eq_true_eq]
  constructor
  · intro ⟨w, ⟨hw, hdepth⟩, hid⟩
    exact ⟨⟨w, hw, hid⟩, hid ▸ hdepth⟩
  · intro ⟨⟨w, hw, hid⟩, hdepth⟩
    exact ⟨w, ⟨hw, hid.symm ▸ hdepth⟩, hid⟩

theorem nodup_waveAt (hunique : (idsOf workstreams).Nodup) (depths : Depths) (index : Nat) :
    (waveAt workstreams depths index).workstreamIds.Nodup := by
  unfold waveAt sortTexts
  apply (perm_insertionSort _ _).nodup_iff.mpr
  exact hunique.sublist (filter_sublist.map _)

def indices (depths : Depths) : List Nat := (depths.map Prod.snd).dedup.insertionSort (· ≤ ·)

theorem wavesOf_eq (depths : Depths) :
    wavesOf workstreams depths = (indices depths).map (waveAt workstreams depths) := rfl

theorem mem_indices {index : Nat} (hnodup : (depths.map Prod.fst).Nodup) :
    index ∈ indices depths ↔ ∃ id, depths.lookup id = some index := by
  unfold indices
  rw [mem_insertionSort, mem_dedup, mem_map]
  constructor
  · intro ⟨entry, hentry, hindex⟩
    refine ⟨entry.1, (lookup_eq_some_iff hnodup).mpr ?_⟩
    rw [← hindex]
    exact hentry
  · intro ⟨id, hlookup⟩
    exact ⟨(id, index), mem_of_lookup hlookup, rfl⟩

theorem indices_increase (depths : Depths) : (indices depths).Pairwise (· < ·) := by
  have hsorted : (indices depths).Pairwise (· ≤ ·) := pairwise_insertionSort _ _
  have hnodup : (indices depths).Nodup :=
    (perm_insertionSort _ _).nodup_iff.mpr (nodup_dedup _)
  exact (hsorted.and hnodup).imp fun h => lt_of_le_of_ne h.1 h.2

theorem layered_of_ranks (hunique : (idsOf workstreams).Nodup) {depths : Depths}
    (h : Ranks workstreams depths) : Layered workstreams (wavesOf workstreams depths) where
  partition := by
    rw [wavesOf_eq, flatMap_map]
    apply (perm_ext_iff_of_nodup ?_ hunique).mpr
    · intro id
      simp only [mem_flatMap, mem_waveAt]
      constructor
      · intro ⟨index, _, hid, _⟩
        exact hid
      · intro hid
        obtain ⟨depth, hdepth⟩ := h.total id hid
        exact ⟨depth, (mem_indices h.nodup).mpr ⟨id, hdepth⟩, hid, hdepth⟩
    · apply nodup_flatMap.mpr
      refine ⟨fun index _ => nodup_waveAt hunique depths index, ?_⟩
      apply (indices_increase depths).imp
      intro index later hlt
      apply disjoint_left.mpr
      intro id hid hid'
      have hsame := (mem_waveAt.mp hid).2.symm.trans (mem_waveAt.mp hid').2
      obtain rfl := Option.some.inj hsame
      exact absurd hlt (lt_irrefl _)
  occupied := by
    intro wave hwave
    obtain ⟨index, hindex, rfl⟩ := mem_map.mp hwave
    obtain ⟨id, hdepth⟩ := (mem_indices h.nodup).mp hindex
    exact ne_nil_of_mem (mem_waveAt.mpr ⟨h.within id index hdepth, hdepth⟩)
  earlier := by
    intro id d hdepends i j hi hj hid hd
    simp only [wavesOf_eq, getElem_map] at hid hd
    obtain ⟨_, hdepth⟩ := mem_waveAt.mp hid
    obtain ⟨_, hdepth'⟩ := mem_waveAt.mp hd
    have hmem : d ∈ depsOf workstreams id := (mem_depsOf_iff hunique).mpr hdepends
    obtain ⟨less, hless, hfound⟩ := h.ranked _ _ (mem_of_lookup hdepth) d hmem
    have hlookup := (lookup_eq_some_iff h.nodup).mpr hfound
    obtain rfl := Option.some.inj (hlookup.symm.trans hdepth')
    by_contra hle
    rcases Nat.lt_or_eq_of_le (Nat.le_of_not_lt hle) with hlt | heq
    · have hpair := pairwise_iff_getElem.mp (indices_increase depths) i j
        (by simpa [wavesOf_eq] using hi) (by simpa [wavesOf_eq] using hj) hlt
      omega
    · subst heq
      omega

/-! ### Acceptance -/

theorem length_dedup_iff {ids : List String} : ids.dedup.length = ids.length ↔ ids.Nodup := by
  constructor
  · intro h
    have hsame : ids.dedup = ids := (dedup_sublist ids).eq_of_length h
    rw [← hsame]
    exact nodup_dedup ids
  · intro h
    rw [h.dedup]

theorem checkAll_eq_ok_iff :
    (workstreams.forM fun w => checkDependsOn (fun dep => (idsOf workstreams).contains dep)
      w.workstreamId [] w.dependsOn) = .ok () ↔
      (∀ w ∈ workstreams, w.workstreamId ∉ w.dependsOn) ∧
        (∀ w ∈ workstreams, w.dependsOn.Nodup) ∧
          ∀ w ∈ workstreams, ∀ d ∈ w.dependsOn, d ∈ idsOf workstreams := by
  rw [forM_eq_ok]
  simp only [checkDependsOn_eq_ok_iff, contains_iff_mem]
  constructor
  · intro h
    refine ⟨?_, fun w hw => (h w hw).1, fun w hw d hd => ((h w hw).2 d hd).2.2⟩
    intro w hw hself
    exact ((h w hw).2 _ hself).1 rfl
  · intro ⟨hself, hnodup, hknown⟩ w hw
    refine ⟨hnodup w hw, ?_⟩
    intro d hd
    refine ⟨?_, not_mem_nil, hknown w hw d hd⟩
    intro heq
    rw [heq] at hd
    exact hself w hw hd

theorem analyzeParsed_eq_ok_iff :
    analyzeParsed H workstreams = .ok diagnostics ↔
      (idsOf workstreams).Nodup ∧
        (workstreams.forM fun w => checkDependsOn (fun dep => (idsOf workstreams).contains dep)
          w.workstreamId [] w.dependsOn) = .ok () ∧
          (pairs workstreams).forM (checkPair H workstreams) = .ok () ∧
            ∃ depths, depthsOf workstreams = .ok depths ∧
              diagnosticsOf H workstreams depths = diagnostics := by
  unfold analyzeParsed
  simp only [bind_eq_ok, pure_eq_ok, refuseIf_eq_ok, ne_eq, not_not, length_dedup_iff]
  constructor
  · intro h
    obtain ⟨_, hunique, _, hdeps, _, hpairs, hdepths⟩ := h
    exact ⟨hunique, hdeps, hpairs, hdepths⟩
  · intro h
    obtain ⟨hunique, hdeps, hpairs, hdepths⟩ := h
    exact ⟨(), hunique, (), hdeps, (), hpairs, hdepths⟩

theorem sound_of_analyzeParsed (h : analyzeParsed H workstreams = .ok diagnostics) :
    Sound workstreams ∧ Contained workstreams ∧ Layered workstreams diagnostics.waves := by
  obtain ⟨hunique, hdeps, hpairs, depths, hdepths, rfl⟩ := analyzeParsed_eq_ok_iff.mp h
  obtain ⟨hself, hnodup, hknown⟩ := checkAll_eq_ok_iff.mp hdeps
  obtain ⟨hcontained, hapart⟩ := (checkPairs_eq_ok_iff hunique).mp hpairs
  have hacyclic := (exists_depthsOf_iff hunique hknown).mp ⟨depths, hdepths⟩
  have hlayered := layered_of_ranks hunique (ranks_of_depthsOf hunique hknown hdepths)
  exact ⟨⟨hunique, hself, hnodup, hknown, hacyclic, hapart⟩, hcontained, hlayered⟩

theorem exists_analyzeParsed (h : Sound workstreams) (hcontained : Contained workstreams) :
    ∃ diagnostics, analyzeParsed H workstreams = .ok diagnostics := by
  obtain ⟨depths, hdepths⟩ := (exists_depthsOf_iff h.unique h.known).mpr h.acyclic
  refine ⟨diagnosticsOf H workstreams depths, ?_⟩
  apply analyzeParsed_eq_ok_iff.mpr
  refine ⟨h.unique, ?_, ?_, depths, hdepths, rfl⟩
  · exact checkAll_eq_ok_iff.mpr ⟨h.notSelf, h.notRepeated, h.known⟩
  · exact (checkPairs_eq_ok_iff h.unique).mpr ⟨hcontained, h.apart⟩

theorem mapError_eq_ok_iff {x : Except String DependencyDiagnostics} :
    x.mapError Refusal.message = .ok diagnostics ↔ x = .ok diagnostics := by
  cases x with
  | error e => simp [Except.mapError]
  | ok d => simp [Except.mapError]

/-- The plans that are accepted, and the waves that come out for them. -/
theorem analyzeDependencies_spec (H : Host) (plan : Plan) :
    ((∃ diagnostics, analyzeDependencies H plan = .ok diagnostics) ↔
      executionPlanSchema H plan = true ∧ Sound plan.workstreams ∧ Contained plan.workstreams) ∧
      ∀ diagnostics, analyzeDependencies H plan = .ok diagnostics →
        Layered plan.workstreams diagnostics.waves := by
  unfold analyzeDependencies
  cases hschema : executionPlanSchema H plan with
  | false => simp
  | true =>
    simp only [if_true, mapError_eq_ok_iff, true_and]
    constructor
    · constructor
      · intro ⟨diagnostics, hok⟩
        obtain ⟨hsound, hcontained, -⟩ := sound_of_analyzeParsed hok
        exact ⟨hsound, hcontained⟩
      · intro ⟨hsound, hcontained⟩
        exact exists_analyzeParsed hsound hcontained
    · intro diagnostics hok
      exact (sound_of_analyzeParsed hok).2.2

def plainHost : Host :=
  { lowerCase := fun text => text
    localeNotAfter := CodeUnits.notAfter
    datetime := fun _ => true }

def workstreamOwning (id : String) (ownedPaths : List String) : Workstream :=
  { workstreamId := id
    dependsOn := []
    status := .planned
    blockedBy := []
    failureReason := none
    runId := "run"
    planId := "plan"
    resolvedAgent := "agent"
    requiredCapability := "capability"
    objective := id
    requirements := []
    acceptanceCriteria := []
    ownedPaths := ownedPaths
    ownedSymbols := []
    strategy := "strategy"
    budgetProfile := .normal
    contextScope := .owned
    worktreeRef := none
    branchRef := none
    createdAt := "2026-01-01T00:00:00.000Z" }

def planOf (workstreams : List Workstream) : Plan :=
  { planId := "plan"
    runId := "run"
    routingDecisionId := "decision"
    sourceSha := "0123456789012345678901234567890123456789"
    policyVersion := "policy"
    workstreams := workstreams
    createdAt := "2026-01-01T00:00:00.000Z"
    status := none
    startedAt := none
    completedAt := none }

theorem acyclic_of_independent (h : ∀ w ∈ workstreams, w.dependsOn = []) (id : String) :
    ¬Relation.TransGen (DependsOn workstreams) id id := by
  intro hcycle
  obtain ⟨d, hd, _⟩ := Relation.TransGen.head'_iff.mp hcycle
  obtain ⟨w, hw, _, hdw⟩ := hd
  rw [h w hw] at hdw
  exact absurd hdw not_mem_nil

def escapingWorkstreams : List Workstream :=
  [workstreamOwning "a" ["../a"], workstreamOwning "b" ["b"]]

/-- A plan without workstreams and one that owns a path outside the repository are refused, with
nothing repeated, unknown, circular or overlapping in either. -/
theorem sound_plans_refused :
    (Sound [] ∧ analyzeDependencies plainHost (planOf []) = .error .schema) ∧
      Sound escapingWorkstreams ∧ analyzeDependencies plainHost (planOf escapingWorkstreams) =
        .error (.message "OWNERSHIP_PATH_ESCAPE") := by
  have hnone : ∀ w ∈ ([] : List Workstream), w.dependsOn = [] := fun w hw =>
    absurd hw not_mem_nil
  have hempty : Sound [] :=
    { unique := nodup_nil
      notSelf := by simp
      notRepeated := by simp
      known := by simp
      acyclic := acyclic_of_independent hnone
      apart := Pairwise.nil }
  have hescaping : Sound escapingWorkstreams :=
    { unique := by decide
      notSelf := by simp [escapingWorkstreams, workstreamOwning]
      notRepeated := by simp [escapingWorkstreams, workstreamOwning]
      known := by simp [escapingWorkstreams, workstreamOwning]
      acyclic := acyclic_of_independent (by simp [escapingWorkstreams, workstreamOwning])
      apart := by decide +kernel }
  exact ⟨⟨hempty, by decide +kernel⟩, hescaping, by decide +kernel⟩

end DependencyAnalysis
