import FlowDeck.Library.Texts
import FlowDeck.Policy.PolicyCalls

/-! Whether an id of a candidate, or of its policy, tells two candidates apart. -/

namespace CandidateIdentity

open PolicyStore CandidateGeneration Promotion PolicyCalls SeparatedPair Checked

def scopeAndCheck (c : PolicyCandidate) : String := c.trigger.scope ++ ":" ++ c.checkId

def idText (c : PolicyCandidate) : String :=
  toString policyContractVersion ++ ":" ++ c.trigger.kind ++ ":" ++ c.trigger.scope ++ ":" ++
    c.checkId ++ ":" ++ c.promotionPolicyDigest

def policyIdText (c : PolicyCandidate) (templateDigest : String) : String :=
  c.candidateId ++ ":" ++ c.candidateDigest ++ ":" ++ c.promotionPolicyDigest ++ ":" ++ templateDigest

def policyText (c : PolicyCandidate) (templateDigest : String) : String :=
  toString policyContractVersion ++ ":" ++ c.candidateId ++ ":" ++ PolicyAction.addCheck.text ++ ":" ++
    c.trigger.kind ++ ":" ++ c.trigger.scope ++ ":" ++ c.checkId ++ ":" ++ templateDigest

/-- A candidate the generator yields, with a template its promotion takes. -/
structure Admitted (d : Digests) where
  candidate : PolicyCandidate
  template : MaterializedPolicyTemplate
  generated : ∃ policy policyDigest nowMs group misses,
    computePromotionPolicyDigest d policy = .ok policyDigest ∧
      candidateOf d policy policyDigest nowMs group misses = .ok candidate
  validated : validateMaterializedTemplate candidate template = .ok ()

namespace Admitted

variable {d : Digests}

def templateDigest (a : Admitted d) : String := computeTemplateDigest d a.template.check

def policyId (a : Admitted d) : String :=
  policyIdOf d a.candidate a.candidate.promotionPolicyDigest a.templateDigest

def policyDigest (a : Admitted d) : String := policyDigestOf d a.candidate a.templateDigest

def hashed (a : Admitted d) : List String :=
  [idText a.candidate, policyIdText a.candidate a.templateDigest,
    policyText a.candidate a.templateDigest, d.canonicalCheck a.template.check]

/-- The digest takes none of the texts to the digest of another, and is in hexadecimal digits; one
canonical text is that of one check. -/
structure Faithful (a b : Admitted d) : Prop where
  injective : ∀ s ∈ a.hashed, ∀ t ∈ b.hashed, d.sha256 s = d.sha256 t → s = t
  hex : ∀ s, ':' ∉ (d.sha256 s).toList
  canonical : d.canonicalCheck a.template.check = d.canonicalCheck b.template.check →
    a.template.check = b.template.check

/-- What the ids of two candidates are to tell apart. -/
structure Distinguished (a b : Admitted d) : Prop where
  candidateId : a.candidate.candidateId ≠ b.candidate.candidateId
  policyId : a.policyId ≠ b.policyId
  policyDigest : a.policyDigest ≠ b.policyDigest
  row : ∀ table table', upsertCandidate table b.candidate = .ok table' →
    table'.get? a.candidate.candidateId = table.get? a.candidate.candidateId

theorem last_field {s t u v : String} (ht : ':' ∉ t.toList) (hv : ':' ∉ v.toList)
    (h : s ++ ":" ++ t = u ++ ":" ++ v) : s = u ∧ t = v := by
  have hlists : s.toList ++ ':' :: t.toList = u.toList ++ ':' :: v.toList := by
    simpa using congrArg String.toList h
  obtain ⟨hfront, hlast⟩ := append_last_inj ht hv hlists
  exact ⟨String.toList_injective hfront, String.toList_injective hlast⟩

theorem candidate_parts (a : Admitted d) :
    a.candidate.candidateId = "polcand_" ++ d.sha256 (idText a.candidate) ∧
      a.candidate.trigger.kind = "scope" ∧ ∃ s, a.candidate.promotionPolicyDigest = d.sha256 s := by
  obtain ⟨policy, policyDigest, nowMs, group, misses, hdigest, hcandidate⟩ := a.generated
  obtain ⟨-, -, heq⟩ := candidateOf_eq_ok.mp hcandidate
  rw [heq]
  refine ⟨rfl, rfl, d.canonicalPolicy policy, ?_⟩
  unfold computePromotionPolicyDigest computeCanonicalSha256 at hdigest
  split at hdigest
  · cases hdigest
  · exact (Except.ok.inj hdigest).symm

theorem template_parts (a : Admitted d) :
    a.template.check.checkId = a.candidate.checkId ∧
      a.template.check.scope = a.candidate.trigger.scope := by
  have hvalid := a.validated
  simp only [validateMaterializedTemplate, bind_eq_ok, refuseIf_eq_ok, not_or, ne_eq, not_not] at hvalid
  obtain ⟨-, hcheck, -⟩ := hvalid
  exact hcheck

theorem candidateId_eq_iff {a b : Admitted d} (h : Faithful a b) :
    a.candidate.candidateId = b.candidate.candidateId ↔
      scopeAndCheck a.candidate = scopeAndCheck b.candidate ∧
        a.candidate.promotionPolicyDigest = b.candidate.promotionPolicyDigest := by
  obtain ⟨hida, hkinda, s, hs⟩ := a.candidate_parts
  obtain ⟨hidb, hkindb, t, ht⟩ := b.candidate_parts
  have hfront : ∀ c : PolicyCandidate, c.trigger.kind = "scope" →
      idText c = toString policyContractVersion ++ ":scope:" ++ scopeAndCheck c ++ ":" ++
        c.promotionPolicyDigest := by
    intro c hkind
    simp [idText, hkind, scopeAndCheck, String.append_assoc]
  rw [hida, hidb]
  constructor
  · intro heq
    have hdigests : d.sha256 (idText a.candidate) = d.sha256 (idText b.candidate) := by simpa using heq
    have htexts := h.injective _ (by simp [hashed]) _ (by simp [hashed]) hdigests
    rw [hfront _ hkinda, hfront _ hkindb] at htexts
    obtain ⟨hscopes, hpolicies⟩ := last_field (by rw [hs]; exact h.hex s) (by rw [ht]; exact h.hex t)
      htexts
    exact ⟨by simpa using hscopes, hpolicies⟩
  · rintro ⟨hscopes, hpolicies⟩
    rw [hfront _ hkinda, hfront _ hkindb, hscopes, hpolicies]

theorem templateDigest_ne {a b : Admitted d} (h : Faithful a b)
    (hne : a.candidate.trigger.scope ≠ b.candidate.trigger.scope ∨
      a.candidate.checkId ≠ b.candidate.checkId) : a.templateDigest ≠ b.templateDigest := by
  intro heq
  have htexts := h.injective _ (by simp [hashed]) _ (by simp [hashed]) heq
  have hchecks := h.canonical htexts
  obtain ⟨hida, hscopea⟩ := a.template_parts
  obtain ⟨hidb, hscopeb⟩ := b.template_parts
  rw [← hida, ← hidb, ← hscopea, ← hscopeb, hchecks] at hne
  simp at hne

theorem policies_ne {a b : Admitted d} (h : Faithful a b)
    (hne : a.candidate.trigger.scope ≠ b.candidate.trigger.scope ∨
      a.candidate.checkId ≠ b.candidate.checkId) :
    a.policyId ≠ b.policyId ∧ a.policyDigest ≠ b.policyDigest := by
  have htemplates := templateDigest_ne h hne
  constructor
  · intro heq
    have hdigests : d.sha256 (policyIdText a.candidate a.templateDigest) =
        d.sha256 (policyIdText b.candidate b.templateDigest) := by
      simpa [policyId, policyIdOf, policyIdText] using heq
    have htexts := h.injective _ (by simp [hashed]) _ (by simp [hashed]) hdigests
    exact htemplates (last_field (h.hex _) (h.hex _) htexts).2
  · intro heq
    have hdigests : d.sha256 (policyText a.candidate a.templateDigest) =
        d.sha256 (policyText b.candidate b.templateDigest) := heq
    have htexts := h.injective _ (by simp [hashed]) _ (by simp [hashed]) hdigests
    exact htemplates (last_field (h.hex _) (h.hex _) htexts).2

/-- Candidates of another scope or check are told apart exactly when their scopes and checks make
different texts, or they are made under different policies. -/
theorem distinguished_iff (a b : Admitted d) (h : Faithful a b)
    (hne : a.candidate.trigger.scope ≠ b.candidate.trigger.scope ∨
      a.candidate.checkId ≠ b.candidate.checkId) :
    Distinguished a b ↔ scopeAndCheck a.candidate ≠ scopeAndCheck b.candidate ∨
      a.candidate.promotionPolicyDigest ≠ b.candidate.promotionPolicyDigest := by
  have hids := (candidateId_eq_iff h).not
  rw [not_and_or] at hids
  rw [← ne_eq, ← ne_eq] at hids
  constructor
  · exact fun hd => hids.mp hd.candidateId
  · intro hcond
    have hid := hids.mpr hcond
    obtain ⟨hpolicyId, hpolicyDigest⟩ := policies_ne h hne
    refine ⟨hid, hpolicyId, hpolicyDigest, ?_⟩
    intro table table' hstored
    rw [get?_upsertCandidate hstored, if_neg hid.symm]

end Admitted

/-! ### A scope and a check that hold the separator -/

def dotted (s : String) : String := String.ofList (s.toList.map fun c => if c = ':' then '.' else c)

theorem colon_not_mem_dotted (s : String) : ':' ∉ (dotted s).toList := by
  intro hmem
  obtain ⟨c, -, hc⟩ := List.mem_map.mp (by simpa [dotted] using hmem)
  split at hc
  · exact absurd hc (by decide)
  · contradiction

def dottedDigests : Digests := { plainDigests with sha256 := dotted }

def templateFor (scope checkId : String) : MaterializedPolicyTemplate :=
  { unitTemplate "one" with
    check := { (unitTemplate "one").check with checkId := checkId, scope := scope } }

def candidateFor (scope checkId : String) : PolicyCandidate :=
  let draft := draftCandidate dottedDigests twoMisses "2,2" 0 (scopeOf scope) checkId []
  { draft with candidateDigest := dotted (plainDigests.canonicalCandidate (digestInput draft)) }

def admittedFor (scope checkId : String) (h : scopeTrigger scope = .ok (scopeOf scope)) :
    Admitted dottedDigests where
  candidate := candidateFor scope checkId
  template := templateFor scope checkId
  generated := ⟨twoMisses, "2,2", 0, (scope, checkId), [], by decide +kernel,
    candidateOf_eq_ok.mpr ⟨h, Nat.zero_le _, rfl⟩⟩
  validated := by
    have hblank : isBlank "one" = false ∧ isBlank "artifact one" = false ∧
        isBlank "record one" = false := by decide +kernel
    simp [validateMaterializedTemplate, bind_eq_ok, refuseIf_eq_ok, templateFor, unitTemplate,
      candidateFor, draftCandidate, scopeOf, hblank]

def shortScope : Admitted dottedDigests := admittedFor "core" "unit:api" (by decide +kernel)
def longScope : Admitted dottedDigests := admittedFor "core:unit" "api" (by decide +kernel)
def otherScope : Admitted dottedDigests := admittedFor "shell" "api" (by decide +kernel)

theorem faithful_scopes : Admitted.Faithful shortScope longScope :=
  ⟨by decide +kernel, colon_not_mem_dotted, fun h => absurd h (by decide +kernel)⟩

theorem one_row_for_two_candidates : Admitted.Faithful shortScope longScope ∧
    shortScope.candidate.trigger.scope ≠ longScope.candidate.trigger.scope ∧
    ¬ Admitted.Distinguished shortScope longScope := by
  have hsame : shortScope.candidate.candidateId = longScope.candidate.candidateId := by decide +kernel
  exact ⟨faithful_scopes, by decide +kernel, fun h => h.candidateId hsame⟩

theorem other_scope_distinguished : Admitted.Distinguished otherScope longScope :=
  (Admitted.distinguished_iff otherScope longScope
    ⟨by decide +kernel, colon_not_mem_dotted, fun h => absurd h (by decide +kernel)⟩
    (Or.inl (by decide +kernel))).mpr (Or.inl (by decide +kernel))

end CandidateIdentity
