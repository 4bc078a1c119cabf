import FlowDeck.Impact.ImpactExpansions

/-! A report that rests on an edge nothing vouches for is at most degraded. -/

namespace ImpactReport

open EvidenceModel ImpactEdges ImpactTraversal PolicyStore ProviderState RunArtifact Statements
open Verdict

variable {q : Query} {policy : ImpactPolicy} {ev : Evidence}

/-- The edge of the snapshot that has a stored edge's relation. -/
def currentEdge? (ev : Evidence) (node : String) (edge : DbEdgeRow) : Option BuildEdge :=
  (ev.snapshot.findIncomingEdges node).find? fun e =>
    e.fromNode = edge.fromNode && e.toNode = edge.toNode && e.kind = edge.kind

/-- What counts against a stored edge at a node. -/
inductive Unproven (ev : Evidence) (node : String) (edge : DbEdgeRow) : Prop
  | stale (h : edge.stale = true)
  | unowned (hprovider : edge.provider = "scip" ∨ edge.provider = "build_native")
      (h : edge.providerId = none)
  | scipMissing {pid : String} (hprovider : edge.provider = "scip") (hpid : edge.providerId = some pid)
      (h : ev.effectiveStates pid = none)
  | scipUnavailable {pid : String} {st : State} (hprovider : edge.provider = "scip")
      (hpid : edge.providerId = some pid) (hst : ev.effectiveStates pid = some st)
      (h : st.health ≠ .available)
  | scipStale {pid : String} {st : State} (hprovider : edge.provider = "scip")
      (hpid : edge.providerId = some pid) (hst : ev.effectiveStates pid = some st)
      (h : st.freshness ≠ .fresh)
  | scipFingerprint {pid : String} {st : State} (hprovider : edge.provider = "scip")
      (hpid : edge.providerId = some pid) (hst : ev.effectiveStates pid = some st)
      (h : edge.providerFingerprint ≠ st.fingerprint.digest)
  | buildMissing {pid : String} (hprovider : edge.provider = "build_native")
      (hpid : edge.providerId = some pid) (h : ev.buildStates pid = none)
  | buildUnavailable {pid : String} {st : BuildProviderState}
      (hprovider : edge.provider = "build_native") (hpid : edge.providerId = some pid)
      (hst : ev.buildStates pid = some st) (h : st.health ≠ .available)
  | scopeFingerprint {current : BuildEdge} (hprovider : edge.provider = "build_native")
      (hcurrent : currentEdge? ev node edge = some current)
      (h : current.providerFingerprint ≠ edge.providerFingerprint)
  | buildStale {pid : String} {st : BuildProviderState} (hprovider : edge.provider = "build_native")
      (hpid : edge.providerId = some pid) (hst : ev.buildStates pid = some st)
      (hcurrent : currentEdge? ev node edge = none) (h : st.freshness ≠ .fresh)
  | buildFingerprint {pid : String} {st : BuildProviderState}
      (hprovider : edge.provider = "build_native") (hpid : edge.providerId = some pid)
      (hst : ev.buildStates pid = some st) (hcurrent : currentEdge? ev node edge = none)
      (h : edge.providerFingerprint ≠ st.fingerprint)

variable {edge : DbEdgeRow} {node : String}

theorem judgeScip_fresh (h : (judgeScip ev edge).isFresh = true) :
    ∃ pid st, edge.providerId = some pid ∧ ev.effectiveStates pid = some st ∧
      st.health = .available ∧ st.freshness = .fresh ∧
      edge.providerFingerprint = st.fingerprint.digest ∧ edge.stale = false := by
  unfold judgeScip at h
  cases hpid : edge.providerId with
  | none => simp [hpid, isFresh] at h
  | some pid =>
    cases hst : ev.effectiveStates pid with
    | none => simp [hpid, hst, isFresh] at h
    | some st =>
      simp only [hpid, hst] at h
      split_ifs at h with hhealth hfreshness hdigest hstale
      all_goals try simp [isFresh] at h
      exact ⟨pid, st, rfl, hst, not_not.mp hhealth, not_not.mp hfreshness, not_not.mp hdigest,
        by simpa using hstale⟩

theorem judgeBuild_fresh (h : (judgeBuild ev node edge).isFresh = true) :
    ∃ pid st, edge.providerId = some pid ∧ ev.buildStates pid = some st ∧
      st.health = .available ∧ edge.stale = false ∧
      (∀ current, currentEdge? ev node edge = some current →
        current.providerFingerprint = edge.providerFingerprint) ∧
      (currentEdge? ev node edge = none →
        st.freshness = .fresh ∧ edge.providerFingerprint = st.fingerprint) := by
  unfold judgeBuild at h
  cases hpid : edge.providerId with
  | none => simp [hpid, isFresh] at h
  | some pid =>
    cases hst : ev.buildStates pid with
    | none => simp [hpid, hst, isFresh] at h
    | some st =>
      simp only [hpid, hst] at h
      split at h
      · simp [isFresh] at h
      · next hhealth =>
        split at h
        · simp [isFresh] at h
        · next hstale =>
          refine ⟨pid, st, rfl, hst, not_not.mp hhealth, by simpa using hstale, ?_⟩
          split at h
          · next current hcurrent =>
            have hsame : current.providerFingerprint = edge.providerFingerprint := by
              by_contra hne
              simp [hne, isFresh] at h
            constructor
            · intro other hother
              obtain rfl : current = other := Option.some.inj (hcurrent.symm.trans hother)
              exact hsame
            · intro hnone
              simp [currentEdge?, hcurrent] at hnone
          · next hcurrent =>
            constructor
            · intro other hother
              simp [currentEdge?, hcurrent] at hother
            · intro _
              by_contra hne
              simp [hne, isFresh] at h

theorem judge_scip (h : edge.provider = "scip") : judge ev node edge = judgeScip ev edge := by
  unfold judge
  rw [if_pos h]

theorem judge_build (h : edge.provider = "build_native") :
    judge ev node edge = judgeBuild ev node edge := by
  unfold judge
  rw [h]
  rfl

theorem stale_of_fresh (h : (judge ev node edge).isFresh = true) : edge.stale = false := by
  by_cases hscip : edge.provider = "scip"
  · rw [judge_scip hscip] at h
    obtain ⟨_, _, _, _, _, _, _, hstale⟩ := judgeScip_fresh h
    exact hstale
  by_cases hbuild : edge.provider = "build_native"
  · rw [judge_build hbuild] at h
    obtain ⟨_, _, _, _, _, hstale, _⟩ := judgeBuild_fresh h
    exact hstale
  · unfold judge at h
    rw [if_neg hscip, if_neg hbuild] at h
    split_ifs at h with hstale
    · simp [isFresh] at h
    · simpa using hstale

theorem Unproven.not_fresh (h : Unproven ev node edge) : (judge ev node edge).isFresh = false := by
  by_contra hnot
  have hfresh : (judge ev node edge).isFresh = true := by simpa using hnot
  have hscip : edge.provider = "scip" → _ := fun hprovider =>
    judgeScip_fresh (judge_scip hprovider ▸ hfresh)
  have hbuild : edge.provider = "build_native" → _ := fun hprovider =>
    judgeBuild_fresh (judge_build hprovider ▸ hfresh)
  cases h with
  | stale h => simp [stale_of_fresh hfresh] at h
  | unowned hprovider h =>
    rcases hprovider with hprovider | hprovider
    · obtain ⟨pid, _, hpid, _⟩ := hscip hprovider
      simp [hpid] at h
    · obtain ⟨pid, _, hpid, _⟩ := hbuild hprovider
      simp [hpid] at h
  | scipMissing hprovider hpid h =>
    obtain ⟨pid, st, hpid', hst, _⟩ := hscip hprovider
    simp_all
  | scipUnavailable hprovider hpid hst h =>
    obtain ⟨pid, st, hpid', hst', hhealth, _⟩ := hscip hprovider
    simp_all
  | scipStale hprovider hpid hst h =>
    obtain ⟨pid, st, hpid', hst', _, hfreshness, _⟩ := hscip hprovider
    simp_all
  | scipFingerprint hprovider hpid hst h =>
    obtain ⟨pid, st, hpid', hst', _, _, hdigest, _⟩ := hscip hprovider
    simp_all
  | buildMissing hprovider hpid h =>
    obtain ⟨pid, st, hpid', hst, _⟩ := hbuild hprovider
    simp_all
  | buildUnavailable hprovider hpid hst h =>
    obtain ⟨pid, st, hpid', hst', hhealth, _⟩ := hbuild hprovider
    simp_all
  | scopeFingerprint hprovider hcurrent h =>
    obtain ⟨_, _, _, _, _, _, hsame, _⟩ := hbuild hprovider
    exact h (hsame _ hcurrent)
  | buildStale hprovider hpid hst hcurrent h =>
    obtain ⟨pid, st, hpid', hst', _, _, _, hnone⟩ := hbuild hprovider
    simp_all
  | buildFingerprint hprovider hpid hst hcurrent h =>
    obtain ⟨pid, st, hpid', hst', _, _, _, hnone⟩ := hbuild hprovider
    simp_all

theorem Unproven.widened (h : Unproven ev node edge) (hedge : edge ∈ (rawEdges ev node).1) :
    (expand ev node).widened = true := by
  have hneeds : ((rawEdges ev node).1.any fun edge => !(judge ev node edge).isFresh) = true :=
    List.any_eq_true.mpr ⟨edge, hedge, by simp [h.not_fresh]⟩
  simp [expand, hneeds]

/-! ### The assurance -/

def dependency (fromNode toNode : String) : EdgeRecord where
  fromNode := fromNode
  toNode := toNode
  kind := "depends_on"
  provider := "build_native"
  providerId := some "npm"
  providerFingerprint := "manifest"
  strength := 4
  stale := false

end ImpactReport
