import FlowDeck.Library.Reachability
import FlowDeck.Planning.MappingScopes

/-! The packages that a plan takes as impacted. -/

namespace ImpactedPackages

open EvidenceModel ImpactEdges ImpactReport MappingScopes PolicyStore ProviderState RunArtifact List
  Statements Worklist

structure VerificationPolicy where
  includeUnitTests : Bool := true
  includeIntegrationTests : Bool := true
  includeE2eTests : Bool := true
  includeTypecheck : Bool := true
  includeLint : Bool := true
  includeBuild : Bool := true
  mandatoryPackageChecks : Bool := true

structure CheckEvidenceRef where
  evidenceId : Option String
  provider : String
  providerId : String
  providerFingerprint : Option String
  sourceIdentity : Option String
  strength : EvidenceStrength
  stale : Bool

/-- What a plan is made of: the analysis of the change, what discovery and the mapping queries gave,
and the texts that are shown of a fingerprint and of evidence. -/
structure PlanInputs where
  impact : ImpactV2Result
  changes : List SemanticChange
  inventory : TestInventory
  snapshot : CurrentBuildSnapshot
  packageDirs : List String
  hasFile : String → String → Bool
  mapping : TestMappingResolution
  providers : List State
  policy : VerificationPolicy
  maxSelectedChecks : Nat
  fingerprintDebug : Option String → String
  evidenceText : Option EvidencePath → List CheckEvidenceRef → String

/-- The order in which a hash collection is walked. -/
structure Walk (α : Type) where
  order : List α → List α
  perm : ∀ xs, (order xs).Perm xs

theorem Walk.mem_order {α : Type} (w : Walk α) {xs : List α} {x : α} : x ∈ w.order xs ↔ x ∈ xs :=
  (w.perm xs).mem_iff

theorem Walk.length_order {α : Type} (w : Walk α) (xs : List α) : (w.order xs).length = xs.length :=
  (w.perm xs).length_eq

def fallbackScopeIdsForDir (i : PlanInputs) (dir : String) : List String :=
  let cleanDir := if dir = "." then "" else dir
  let displayDir := if cleanDir = "" then "." else cleanDir
  let ids := (if i.hasFile cleanDir "Cargo.toml" then ["pkg:cargo:" ++ displayDir] else []) ++
    (if i.hasFile cleanDir "package.json" then ["pkg:npm:" ++ displayDir] else [])
  if ids = [] then ["pkg:npm:" ++ displayDir] else ids

def packagesAround (i : PlanInputs) (file : String) : List String :=
  (i.packageDirs.filter fun dir => scopeContainsPath dir file).flatMap (fallbackScopeIdsForDir i)

/-- The packages that contain a file, or those whose directories do. -/
def packagesOf (i : PlanInputs) (file : String) : List String :=
  (containingPackages? i.snapshot file).getD (packagesAround i file)

structure PackageImpact where
  packages : List String
  paths : InsertionMap String EvidencePath

def PackageImpact.add (path : Option EvidencePath) (s : PackageImpact) (pkg : String) :
    PackageImpact where
  packages := insertOnce s.packages pkg
  paths := match path with
    | some p => s.paths.set pkg p
    | none => s.paths

def targetPackages (i : PlanInputs) (imp : ImpactedTarget) : List String :=
  if startsWith "pkg:" imp.target then [imp.target] else packagesOf i imp.target

def addTarget (i : PlanInputs) (s : PackageImpact) (imp : ImpactedTarget) : PackageImpact :=
  (targetPackages i imp).foldl (PackageImpact.add imp.primaryPath) s

def addChange (i : PlanInputs) (s : PackageImpact) (change : SemanticChange) : PackageImpact :=
  (packagesOf i change.file).foldl (PackageImpact.add none) s

def directImpact (i : PlanInputs) : PackageImpact :=
  i.changes.foldl (addChange i) (i.impact.impacted.foldl (addTarget i) ⟨[], InsertionMap.empty⟩)

def impactedFiles (i : PlanInputs) : List String :=
  ((i.impact.impacted.filter fun imp => !startsWith "pkg:" imp.target).map (·.target)) ++
    i.changes.map (·.file)

def dependencyPath (dependent current : String) : EvidencePath where
  changeId := current
  seedNode := current
  targetNode := dependent
  steps :=
    [{ fromNode := current
       edgeKind := .dependsOn
       toNode := dependent
       provider := "build_native"
       strength := .structural
       description := some ("package dependency " ++ dependent ++ " -> " ++ current) }]
  pathStrength := .structural
  explanation := dependent ++ " depends on " ++ current

/-- A dependent of the package at hand, new to the packages and to the queue. -/
def reachDependent (current : String) (s : PackageImpact × List String) (dependent : String) :
    PackageImpact × List String :=
  if dependent ∈ s.1.packages then s
  else
    ({ packages := s.1.packages ++ [dependent]
       paths := if (s.1.paths.get? dependent).isSome then s.1.paths
         else s.1.paths.set dependent (dependencyPath dependent current) },
      s.2 ++ [dependent])

def propagate (snapshot : CurrentBuildSnapshot) : Nat → PackageImpact × List String → PackageImpact
  | 0, s => s.1
  | _ + 1, (found, []) => found
  | fuel + 1, (found, current :: queue) =>
    propagate snapshot fuel ((dependents snapshot current).foldl (reachDependent current) (found, queue))

def propagationFuel (i : PlanInputs) : Nat :=
  (directImpact i).packages.length + i.snapshot.edges.length

def transitiveImpact (packageWalk : Walk String) (i : PlanInputs) : PackageImpact :=
  propagate i.snapshot (propagationFuel i)
    (directImpact i, packageWalk.order (directImpact i).packages)

def rootConfigChanged (i : PlanInputs) : Bool :=
  i.changes.any fun change =>
    change.file = "tsconfig.json" || change.file = "package.json" || change.file = "Cargo.toml" ||
      change.file = "pnpm-workspace.yaml"

/-- The packages that a change of the root configuration brings in. -/
def rootPackages (i : PlanInputs) : List String :=
  i.inventory.tests.filterMap (·.owningPackageId) ++
    i.inventory.checks.map (·.owningScopeId) ++
    i.packageDirs.flatMap (fallbackScopeIdsForDir i) ++ i.inventory.fallback.packageTestScopes

def packageImpact (packageWalk : Walk String) (i : PlanInputs) : PackageImpact :=
  let s := transitiveImpact packageWalk i
  if rootConfigChanged i then { s with packages := (rootPackages i).foldl insertOnce s.packages }
  else s

def impactedPackages (packageWalk : Walk String) (i : PlanInputs) : List String :=
  (packageImpact packageWalk i).packages

/-! ### Which packages these are -/

theorem packages_foldl_add (path : Option EvidencePath) (pkgs : List String) (s : PackageImpact) :
    (pkgs.foldl (PackageImpact.add path) s).packages = pkgs.foldl insertOnce s.packages := by
  induction pkgs generalizing s with
  | nil => rfl
  | cons pkg pkgs ih => exact ih (s.add path pkg)

def seedPackages (i : PlanInputs) : List String :=
  i.impact.impacted.flatMap (targetPackages i) ++ i.changes.flatMap fun ch => packagesOf i ch.file

theorem packages_directImpact (i : PlanInputs) :
    (directImpact i).packages = (seedPackages i).foldl insertOnce [] := by
  have htargets : ∀ (targets : List ImpactedTarget) (s : PackageImpact),
      (targets.foldl (addTarget i) s).packages =
        (targets.flatMap (targetPackages i)).foldl insertOnce s.packages := by
    intro targets
    induction targets with
    | nil => exact fun s => rfl
    | cons target targets ih =>
      intro s
      rw [foldl_cons, ih, flatMap_cons, foldl_append, addTarget, packages_foldl_add]
  have hchanges : ∀ (changes : List SemanticChange) (s : PackageImpact),
      (changes.foldl (addChange i) s).packages =
        (changes.flatMap fun ch => packagesOf i ch.file).foldl insertOnce s.packages := by
    intro changes
    induction changes with
    | nil => exact fun s => rfl
    | cons change changes ih =>
      intro s
      rw [foldl_cons, ih, flatMap_cons, foldl_append, addChange, packages_foldl_add]
  rw [directImpact, hchanges, htargets, seedPackages, foldl_append]

variable {i : PlanInputs} {pkg : String}

theorem mem_directImpact : pkg ∈ (directImpact i).packages ↔ pkg ∈ seedPackages i := by
  rw [packages_directImpact, mem_foldl_insertOnce]
  simp

theorem nodup_directImpact (i : PlanInputs) : (directImpact i).packages.Nodup := by
  rw [packages_directImpact]
  exact nodup_foldl_insertOnce nodup_nil

theorem foldl_reachDependent (current : String) (deps : List String)
    (s : PackageImpact × List String) :
    ((deps.foldl (reachDependent current) s).1.packages,
      (deps.foldl (reachDependent current) s).2) = deps.foldl visit (s.1.packages, s.2) := by
  induction deps generalizing s with
  | nil => rfl
  | cons dep deps ih =>
    rw [foldl_cons, ih, foldl_cons]
    congr 1
    unfold reachDependent visit
    split <;> rfl

theorem packages_propagate (snapshot : CurrentBuildSnapshot) (fuel : Nat)
    (s : PackageImpact × List String) :
    (propagate snapshot fuel s).packages = spread (dependents snapshot) fuel s.2 s.1.packages := by
  induction fuel generalizing s with
  | zero => rfl
  | succ fuel ih =>
    obtain ⟨found, queue⟩ := s
    cases queue with
    | nil => rfl
    | cons current queue =>
      have hfold := foldl_reachDependent current (dependents snapshot current) (found, queue)
      rw [propagate, ih, spread, ← hfold]

/-- One package depends on another. -/
def DependsOn (snapshot : CurrentBuildSnapshot) (pkg dependent : String) : Prop :=
  dependent ∈ dependents snapshot pkg

/-- A package of the change, or one that depends on such, directly or through others. -/
def Reached (i : PlanInputs) (pkg : String) : Prop :=
  ∃ seed ∈ seedPackages i, Relation.ReflTransGen (DependsOn i.snapshot) seed pkg

theorem mem_transitiveImpact {packageWalk : Walk String} :
    pkg ∈ (transitiveImpact packageWalk i).packages ↔ Reached i pkg := by
  have hbound : ∀ x, ∀ y ∈ dependents i.snapshot x,
      y ∈ ((directImpact i).packages ++ i.snapshot.edges.map (·.fromNode)).toFinset := by
    intro x y hy
    obtain ⟨e, he, rfl⟩ := mem_map.mp hy
    rw [mem_toFinset]
    exact mem_append_right _ (mem_map_of_mem (mem_of_mem_filter he))
  have hfrontier : Frontier (dependents i.snapshot)
      ((directImpact i).packages ++ i.snapshot.edges.map (·.fromNode)).toFinset
      (packageWalk.order (directImpact i).packages) (directImpact i).packages := by
    refine ⟨?_, ?_, ?_, nodup_directImpact i⟩
    · intro x hx
      exact packageWalk.mem_order.mp hx
    · intro x hx
      exact Or.inl (packageWalk.mem_order.mpr hx)
    · intro x hx
      rw [mem_toFinset]
      exact mem_append_left _ hx
  have hcard := toFinset_card_le ((directImpact i).packages ++ i.snapshot.edges.map (·.fromNode))
  rw [length_append, length_map] at hcard
  have hfuel : (packageWalk.order (directImpact i).packages).length +
      (((directImpact i).packages ++ i.snapshot.edges.map (·.fromNode)).toFinset.card -
        (directImpact i).packages.length) ≤ propagationFuel i := by
    rw [packageWalk.length_order, propagationFuel]
    omega
  rw [transitiveImpact, packages_propagate, mem_spread_iff hbound hfrontier hfuel]
  simp only [mem_directImpact]
  exact Iff.rfl

theorem mem_impactedPackages {packageWalk : Walk String} :
    pkg ∈ impactedPackages packageWalk i ↔
      Reached i pkg ∨ (rootConfigChanged i = true ∧ pkg ∈ rootPackages i) := by
  unfold impactedPackages packageImpact
  by_cases hroot : rootConfigChanged i = true
  · simp [hroot, mem_foldl_insertOnce, mem_transitiveImpact]
  · simp [hroot, mem_transitiveImpact]

end ImpactedPackages
