import FlowDeck.Verification.CheckResolution

namespace CheckIds

open Paths CheckDiscovery CheckResolution Checked List

inductive Ecosystem
  | npm
  | cargo
  deriving DecidableEq

def Ecosystem.name : Ecosystem → String
  | .npm => "npm"
  | .cargo => "cargo"

/-- A script of a package, or one of the standard checks of a crate. -/
structure PackageScript where
  ecosystem : Ecosystem
  dir : String
  name : String
  deriving DecidableEq

def PackageScript.rest (script : PackageScript) : String := script.dir ++ ":" ++ script.name

def PackageScript.checkId (script : PackageScript) : String :=
  "check:" ++ ("pkg:" ++ script.ecosystem.name ++ ":" ++ script.dir) ++ ":" ++ script.name

theorem toList_rest (script : PackageScript) :
    script.rest.toList = script.dir.toList ++ ':' :: script.name.toList := by
  simp [PackageScript.rest]

theorem checkId_eq (script : PackageScript) :
    script.checkId = ("check:pkg:" ++ script.ecosystem.name ++ ":") ++ script.rest := by
  apply String.toList_inj.mp
  simp [PackageScript.checkId, PackageScript.rest]

theorem stripPrefix?_append (start text : String) :
    stripPrefix? start (start ++ text) = some text := by
  have hdrop : (start.toList ++ text.toList).drop start.length = text.toList := by
    rw [← String.length_toList, drop_left]
  simp [stripPrefix?, hdrop]

theorem stripPrefix?_npm (dir name : String) :
    stripPrefix? "check:pkg:npm:" (PackageScript.checkId ⟨.npm, dir, name⟩) =
      some (PackageScript.rest ⟨.npm, dir, name⟩) := by
  rw [checkId_eq]
  exact stripPrefix?_append "check:pkg:npm:" _

theorem stripPrefix?_cargo (dir name : String) :
    stripPrefix? "check:pkg:npm:" (PackageScript.checkId ⟨.cargo, dir, name⟩) = none ∧
      stripPrefix? "check:pkg:cargo:" (PackageScript.checkId ⟨.cargo, dir, name⟩) =
        some (PackageScript.rest ⟨.cargo, dir, name⟩) := by
  rw [checkId_eq]
  constructor
  · simp [stripPrefix?, Ecosystem.name]
  · exact stripPrefix?_append "check:pkg:cargo:" _

def PackageScript.Declared (repo : Repository) (script : PackageScript) : Prop :=
  match script.ecosystem with
  | .npm => ∃ manifest ∈ (discoverBuildFiles repo).packageJsons,
      ∃ content value scripts, repo.readToString (join repo.root manifest) = .ok content ∧
        repo.parseJson content = .ok value ∧ member? "scripts" value = some (.object scripts) ∧
        script.dir = packageDir manifest ∧ script.name ∈ scripts.map (·.1) ∧
        (scriptKind? script.name).isSome
  | .cargo => ∃ manifest ∈ (discoverBuildFiles repo).cargoTomls,
      ∃ content, repo.readToString (join repo.root manifest) = .ok content ∧
        script.dir = packageDir manifest ∧ script.name ∈ standardCargoChecks.map (·.1)

variable {check : DiscoveredCheck} {inventory : TestInventory} {repo : Repository}
  {checkId : String}

theorem npmCheck_checkId {pkgId : String} {script : String × Json}
    (h : npmCheck pkgId script = some check) :
    check.checkId = "check:" ++ pkgId ++ ":" ++ script.1 := by
  obtain ⟨kind, -, hmade⟩ := Option.map_eq_some_iff.mp h
  rw [← hmade]

theorem exists_npmCheck (pkgId : String) {script : String × Json}
    (h : (scriptKind? script.1).isSome) : ∃ check, npmCheck pkgId script = some check := by
  obtain ⟨kind, hkind⟩ := Option.isSome_iff_exists.mp h
  exact ⟨_, Option.map_eq_some_iff.mpr ⟨kind, hkind, rfl⟩⟩

theorem scriptKind?_of_npmCheck {pkgId : String} {script : String × Json}
    (h : npmCheck pkgId script = some check) : (scriptKind? script.1).isSome := by
  obtain ⟨kind, hkind, -⟩ := Option.map_eq_some_iff.mp h
  exact Option.isSome_iff_exists.mpr ⟨kind, hkind⟩

def Traced (repo : Repository) (inventory : TestInventory) : Prop :=
  ∀ check ∈ inventory.checks, ∃ script : PackageScript,
    script.Declared repo ∧ check.checkId = script.checkId

theorem mem_recordCheck {other : DiscoveredCheck} (h : other ∈ (recordCheck inventory check).checks) :
    other ∈ inventory.checks ∨ other = check := by
  unfold recordCheck at h
  split_ifs at h
  · exact .inl h
  · simpa using h

theorem traced_foldl_recordCheck {checks : List DiscoveredCheck} (h : Traced repo inventory)
    (hchecks : ∀ check ∈ checks, ∃ script : PackageScript,
      script.Declared repo ∧ check.checkId = script.checkId) :
    Traced repo (checks.foldl recordCheck inventory) := by
  refine foldlRecOn checks recordCheck h ?_
  intro current hcurrent check hmem other hother
  rcases mem_recordCheck hother with hold | hnew
  · exact hcurrent other hold
  · rw [hnew]
    exact hchecks check hmem

theorem traced_discoverNpm {manifest : String} (h : Traced repo inventory)
    (hlisted : manifest ∈ (discoverBuildFiles repo).packageJsons) :
    Traced repo (discoverNpm repo inventory manifest) := by
  unfold discoverNpm
  cases hread : repo.readToString (join repo.root manifest) with
  | error message => exact h
  | ok content =>
    cases hparse : repo.parseJson content with
    | error message =>
      simp only [hparse]
      exact h
    | ok value =>
      simp only [hparse]
      apply traced_foldl_recordCheck h
      intro check hcheck
      unfold npmChecks at hcheck
      split at hcheck
      · next scripts hscripts =>
          obtain ⟨script, hscript, hmade⟩ := mem_filterMap.mp hcheck
          refine ⟨⟨.npm, packageDir manifest, script.1⟩, ?_, ?_⟩
          · exact ⟨manifest, hlisted, content, value, scripts, hread, hparse, hscripts, rfl,
              mem_map_of_mem hscript, scriptKind?_of_npmCheck hmade⟩
          · rw [npmCheck_checkId hmade]
            simp [PackageScript.checkId, Ecosystem.name]
      · cases hcheck

theorem traced_discoverCargo {manifest : String} (h : Traced repo inventory)
    (hlisted : manifest ∈ (discoverBuildFiles repo).cargoTomls) :
    Traced repo (discoverCargo repo inventory manifest) := by
  unfold discoverCargo
  cases hread : repo.readToString (join repo.root manifest) with
  | error message => exact h
  | ok content =>
    apply traced_foldl_recordCheck h
    intro check hcheck
    obtain ⟨standard, hstandard, hmade⟩ := mem_map.mp hcheck
    refine ⟨⟨.cargo, packageDir manifest, standard.1⟩, ?_, ?_⟩
    · exact ⟨manifest, hlisted, content, hread, rfl, mem_map_of_mem hstandard⟩
    · rw [← hmade]
      simp [PackageScript.checkId, Ecosystem.name, cargoCheck]

theorem traced_discoverChecks (repo : Repository) : Traced repo (discoverChecks repo) := by
  have hnone : Traced repo {} := by
    intro check hcheck
    cases hcheck
  have hnpm : Traced repo
      ((discoverBuildFiles repo).packageJsons.foldl (discoverNpm repo) {}) :=
    foldlRecOn _ _ hnone fun _ h _ hlisted => traced_discoverNpm h hlisted
  exact foldlRecOn _ _ hnpm fun _ h _ hlisted => traced_discoverCargo h hlisted

def Lists (inventory : TestInventory) (checkId : String) : Prop :=
  ∃ check ∈ inventory.checks, check.checkId = checkId

theorem lists_recordCheck (h : Lists inventory checkId) (check : DiscoveredCheck) :
    Lists (recordCheck inventory check) checkId := by
  obtain ⟨listed, hlisted, hid⟩ := h
  unfold recordCheck
  split_ifs
  · exact ⟨listed, hlisted, hid⟩
  · exact ⟨listed, mem_append_left _ hlisted, hid⟩

theorem lists_recorded (inventory : TestInventory) (check : DiscoveredCheck) :
    Lists (recordCheck inventory check) check.checkId := by
  unfold recordCheck
  split_ifs with hseen
  · obtain ⟨listed, hlisted, hid⟩ := any_eq_true.mp hseen
    exact ⟨listed, hlisted, of_decide_eq_true hid⟩
  · exact ⟨check, by simp, rfl⟩

theorem lists_foldl {α : Type} {step : TestInventory → α → TestInventory}
    (hkeep : ∀ inventory a, Lists inventory checkId → Lists (step inventory a) checkId)
    (entries : List α) {inventory : TestInventory} (h : Lists inventory checkId) :
    Lists (entries.foldl step inventory) checkId :=
  foldlRecOn entries step h fun current hcurrent a _ => hkeep current a hcurrent

theorem lists_foldl_of_mem {α : Type} {step : TestInventory → α → TestInventory}
    (hkeep : ∀ inventory a, Lists inventory checkId → Lists (step inventory a) checkId)
    {entries : List α} {a : α} (ha : a ∈ entries)
    (hlist : ∀ inventory, Lists (step inventory a) checkId) (inventory : TestInventory) :
    Lists (entries.foldl step inventory) checkId := by
  induction entries generalizing inventory with
  | nil => cases ha
  | cons first rest ih =>
    rcases mem_cons.mp ha with rfl | hrest
    · exact lists_foldl hkeep rest (hlist inventory)
    · exact ih hrest (step inventory first)

theorem lists_discoverNpm (repo : Repository) {checkId : String} (inventory : TestInventory)
    (manifest : String) (h : Lists inventory checkId) :
    Lists (discoverNpm repo inventory manifest) checkId := by
  unfold discoverNpm
  split
  · exact h
  · split
    · exact h
    · exact lists_foldl (fun _ check hlisted => lists_recordCheck hlisted check) _ h

theorem lists_discoverCargo (repo : Repository) {checkId : String} (inventory : TestInventory)
    (manifest : String) (h : Lists inventory checkId) :
    Lists (discoverCargo repo inventory manifest) checkId := by
  unfold discoverCargo
  split
  · exact h
  · exact lists_foldl (fun _ check hlisted => lists_recordCheck hlisted check) _ h

variable {script : PackageScript}

theorem npm_listed (h : script.Declared repo) (hnpm : script.ecosystem = .npm) :
    Lists (discoverChecks repo) script.checkId := by
  obtain ⟨_, dir, name⟩ := script
  cases hnpm
  obtain ⟨manifest, hlisted, content, value, scripts, hread, hparse, hscripts, hdir, hname,
    hknown⟩ := h
  obtain rfl : dir = packageDir manifest := hdir
  obtain ⟨declared, hdeclared, rfl⟩ := mem_map.mp hname
  obtain ⟨check, hcheck⟩ := exists_npmCheck ("pkg:npm:" ++ packageDir manifest) hknown
  have hmem : check ∈ npmChecks manifest value := by
    simp only [npmChecks, hscripts]
    exact mem_filterMap.mpr ⟨declared, hdeclared, hcheck⟩
  have hid : check.checkId = PackageScript.checkId ⟨.npm, packageDir manifest, declared.1⟩ := by
    rw [npmCheck_checkId hcheck]
    simp [PackageScript.checkId, Ecosystem.name]
  apply lists_foldl (lists_discoverCargo repo)
  apply lists_foldl_of_mem (lists_discoverNpm repo) hlisted
  intro inventory
  simp only [discoverNpm, hread, hparse]
  apply lists_foldl_of_mem (fun _ other hlists => lists_recordCheck hlists other) hmem
  intro current
  rw [← hid]
  exact lists_recorded current check

theorem cargo_listed (h : script.Declared repo) (hcargo : script.ecosystem = .cargo) :
    Lists (discoverChecks repo) script.checkId := by
  obtain ⟨_, dir, name⟩ := script
  cases hcargo
  obtain ⟨manifest, hlisted, content, hread, hdir, hname⟩ := h
  obtain rfl : dir = packageDir manifest := hdir
  obtain ⟨standard, hstandard, rfl⟩ := mem_map.mp hname
  have hmem : cargoCheck ("pkg:cargo:" ++ packageDir manifest) standard ∈ cargoChecks manifest :=
    mem_map_of_mem hstandard
  have hid : (cargoCheck ("pkg:cargo:" ++ packageDir manifest) standard).checkId =
      PackageScript.checkId ⟨.cargo, packageDir manifest, standard.1⟩ := by
    simp [PackageScript.checkId, Ecosystem.name, cargoCheck]
  apply lists_foldl_of_mem (lists_discoverCargo repo) hlisted
  intro inventory
  simp only [discoverCargo, hread]
  apply lists_foldl_of_mem (fun _ other hlists => lists_recordCheck hlists other) hmem
  intro current
  rw [← hid]
  exact lists_recorded current _

theorem declared_listed (h : script.Declared repo) :
    Lists (discoverChecks repo) script.checkId := by
  cases hecosystem : script.ecosystem with
  | npm => exact npm_listed h hecosystem
  | cargo => exact cargo_listed h hecosystem

/-- The walk does not follow links: what it lists lies beneath the root. -/
def WalksBeneath (repo : Repository) : Prop :=
  ∃ root, repo.canonicalize repo.root = .ok root ∧
    ∀ manifest ∈ (discoverBuildFiles repo).packageJsons ++ (discoverBuildFiles repo).cargoTomls,
      ∃ path, repo.canonicalize (join repo.root (packageDir manifest)) = .ok path ∧
        startsWith path root = true

def PackageScript.PerformedBy (repo : Repository) (script : PackageScript) :
    ExecutionAction → Prop
  | .npmRunScript pkgDir scriptName manager =>
    script = ⟨.npm, pkgDir, scriptName⟩ ∧
      detectPackageManagerForPkg repo pkgDir = .resolved manager
  | .cargoTestPackage pkgDir _ => script = ⟨.cargo, pkgDir, "test"⟩
  | .cargoCheckPackage pkgDir _ => script = ⟨.cargo, pkgDir, "check"⟩
  | .cargoClippyPackage pkgDir _ => script = ⟨.cargo, pkgDir, "clippy"⟩
  | _ => False

def PackageScript.Plain (script : PackageScript) : Prop :=
  ':' ∉ script.dir.toList ∧ ':' ∉ script.name.toList

theorem packagePath_packageDir (manifest : String) :
    packagePath (packageDir manifest) = packageDir manifest := by
  unfold packagePath packageDir displayDir
  split_ifs <;> simp_all

theorem validateAndContainPath_ok {target root path : String}
    (hroot : repo.canonicalize repo.root = .ok root)
    (hpath : repo.canonicalize (join repo.root target) = .ok path)
    (hbeneath : startsWith path root = true) : validateAndContainPath repo target = .ok path := by
  have habsolute : (if isAbsolute target then target else join repo.root target) =
      join repo.root target := by
    unfold join
    split_ifs <;> rfl
  have htarget : canonicalTarget repo target = .ok path := by
    rw [canonicalTarget, habsolute]
    simp only [hpath]
  unfold validateAndContainPath
  rw [hroot, htarget]
  simp [Except.mapError, bind_eq_ok, hbeneath, refuseIf]

theorem declared_contained (hwalk : WalksBeneath repo) (h : script.Declared repo) :
    packagePath script.dir = script.dir ∧
      ∃ path, validateAndContainPath repo script.dir = .ok path := by
  obtain ⟨root, hroot, hbeneath⟩ := hwalk
  have hmanifest : ∃ manifest ∈
      (discoverBuildFiles repo).packageJsons ++ (discoverBuildFiles repo).cargoTomls,
      script.dir = packageDir manifest := by
    obtain ⟨ecosystem, dir, name⟩ := script
    cases ecosystem with
    | npm =>
      obtain ⟨manifest, hlisted, _, _, _, _, _, _, hdir, _⟩ := h
      exact ⟨manifest, mem_append_left _ hlisted, hdir⟩
    | cargo =>
      obtain ⟨manifest, hlisted, _, _, hdir, _⟩ := h
      exact ⟨manifest, mem_append_right _ hlisted, hdir⟩
  obtain ⟨manifest, hlisted, hdir⟩ := hmanifest
  obtain ⟨path, hpath, hinside⟩ := hbeneath manifest hlisted
  rw [hdir]
  exact ⟨packagePath_packageDir manifest, path, validateAndContainPath_ok hroot hpath hinside⟩

theorem split?_rest (h : script.Plain) :
    SeparatedPair.split? ':' script.rest.toList =
      some (script.dir.toList, script.name.toList) := by
  rw [toList_rest]
  exact SeparatedPair.split?_join h.1 h.2

theorem split?_rest_eq_none (h : ¬script.Plain) :
    SeparatedPair.split? ':' script.rest.toList = none := by
  rw [toList_rest]
  apply SeparatedPair.split?_join_eq_none
  unfold PackageScript.Plain at h
  tauto

theorem npm_performed_iff (hwalk : WalksBeneath repo) (h : script.Declared repo)
    (hnpm : script.ecosystem = .npm) {manager : String}
    (hmanager : detectPackageManagerForPkg repo script.dir = .resolved manager) :
    script.PerformedBy repo (resolveCheckAction repo script.checkId) ↔ script.Plain := by
  obtain ⟨hpath, path, hcontained⟩ := declared_contained hwalk h
  obtain ⟨_, dir, name⟩ := script
  cases hnpm
  have hresolve : resolveCheckAction repo (PackageScript.checkId ⟨.npm, dir, name⟩) =
      resolveNpmCheck repo (PackageScript.checkId ⟨.npm, dir, name⟩)
        (PackageScript.rest ⟨.npm, dir, name⟩) := by
    simp only [resolveCheckAction, stripPrefix?_npm]
  rw [hresolve, resolveNpmCheck]
  by_cases hplain : PackageScript.Plain ⟨.npm, dir, name⟩
  · simp only [split?_rest hplain, String.ofList_toList, hpath, hcontained, hmanager, withManager]
    simp [PackageScript.PerformedBy, hmanager, hplain]
  · simp only [split?_rest_eq_none hplain]
    simp [PackageScript.PerformedBy, hplain]

/-- A standard check of a crate is never one that `resolve_check_action` does not know. -/
theorem cargoAction_performs {dir name : String} (checkId : String) (packageName : Option String)
    (h : name ∈ standardCargoChecks.map (·.1)) :
    PackageScript.PerformedBy repo ⟨.cargo, dir, name⟩
      (cargoAction checkId dir packageName name) := by
  have hname : name = "test" ∨ name = "check" ∨ name = "clippy" := by
    simpa [standardCargoChecks] using h
  rcases hname with rfl | rfl | rfl
  · rfl
  · rfl
  · rfl

theorem cargo_performed_iff (hwalk : WalksBeneath repo) (h : script.Declared repo)
    (hcargo : script.ecosystem = .cargo) :
    script.PerformedBy repo (resolveCheckAction repo script.checkId) ↔ script.Plain := by
  obtain ⟨hpath, path, hcontained⟩ := declared_contained hwalk h
  obtain ⟨_, dir, name⟩ := script
  cases hcargo
  obtain ⟨-, -, -, -, -, hname⟩ := h
  have hresolve : resolveCheckAction repo (PackageScript.checkId ⟨.cargo, dir, name⟩) =
      resolveCargoCheck repo (PackageScript.checkId ⟨.cargo, dir, name⟩)
        (PackageScript.rest ⟨.cargo, dir, name⟩) := by
    simp only [resolveCheckAction, stripPrefix?_cargo]
  rw [hresolve, resolveCargoCheck]
  by_cases hplain : PackageScript.Plain ⟨.cargo, dir, name⟩
  · simp only [split?_rest hplain, String.ofList_toList, hpath, hcontained]
    simpa [hplain] using cargoAction_performs _ _ hname
  · simp only [split?_rest_eq_none hplain]
    simp [PackageScript.PerformedBy, hplain]

/-- Every check listed is that of a declared script, and is understood exactly when neither the
package directory nor the script name holds the separator of the id. -/
theorem understood_iff (repo : Repository) (hwalk : WalksBeneath repo) :
    (∀ check ∈ (discoverChecks repo).checks, ∃ script : PackageScript,
      script.Declared repo ∧ check.checkId = script.checkId) ∧
    ∀ script : PackageScript, script.Declared repo →
      (script.ecosystem = .npm →
        ∃ manager, detectPackageManagerForPkg repo script.dir = .resolved manager) →
      (∃ check ∈ (discoverChecks repo).checks, check.checkId = script.checkId) ∧
        (script.PerformedBy repo (resolveCheckAction repo script.checkId) ↔
          ':' ∉ script.dir.toList ∧ ':' ∉ script.name.toList) := by
  refine ⟨traced_discoverChecks repo, ?_⟩
  intro script hdeclared hmanager
  refine ⟨declared_listed hdeclared, ?_⟩
  cases hecosystem : script.ecosystem with
  | npm =>
    obtain ⟨manager, hresolved⟩ := hmanager hecosystem
    exact npm_performed_iff hwalk hdeclared hecosystem hresolved
  | cargo => exact cargo_performed_iff hwalk hdeclared hecosystem

/-- A package below the root with a script whose name holds the separator, and one whose does not. -/
def coreRepository : Repository where
  root := "/repo"
  walk := [.other, .file "/repo/packages/core/package.json"]
  packageLimit := 500
  readToString path :=
    if path = "/repo/packages/core/package.json" then .ok "core" else .error "not found"
  pathExists path := path = "/repo/package-lock.json"
  canonicalize := .ok
  parseJson _ := .ok (.object
    [("scripts", .object [("test", .string "vitest run"), ("test:unit", .string "vitest run")])])
  debugPath := id

theorem coreRepository_beneath : WalksBeneath coreRepository := by
  refine ⟨"/repo", rfl, ?_⟩
  have hlisted : (discoverBuildFiles coreRepository).packageJsons ++
      (discoverBuildFiles coreRepository).cargoTomls = ["packages/core/package.json"] := by
    decide +kernel
  intro manifest hmanifest
  rw [hlisted] at hmanifest
  obtain rfl := mem_singleton.mp hmanifest
  exact ⟨_, rfl, by decide +kernel⟩

theorem coreRepository_declares {name : String} (h : name = "test" ∨ name = "test:unit") :
    PackageScript.Declared coreRepository ⟨.npm, "packages/core", name⟩ := by
  have hdir : "packages/core" = packageDir "packages/core/package.json" := by decide +kernel
  refine ⟨"packages/core/package.json", by decide +kernel, "core", _, _, by decide +kernel, rfl, rfl,
    hdir, ?_, ?_⟩
  · simpa using h
  · rcases h with rfl | rfl
    · rfl
    · rfl

theorem test_script_performed :
    PackageScript.PerformedBy coreRepository ⟨.npm, "packages/core", "test"⟩
      (resolveCheckAction coreRepository "check:pkg:npm:packages/core:test") :=
  ((understood_iff coreRepository coreRepository_beneath).2 ⟨.npm, "packages/core", "test"⟩
    (coreRepository_declares (.inl rfl)) fun _ => ⟨"npm", by decide +kernel⟩).2.mpr
      (by decide +kernel)

/-- The check of the script `test:unit` is listed, and resolves to a malformed id. -/
theorem unit_script_malformed :
    WalksBeneath coreRepository ∧
      PackageScript.Declared coreRepository ⟨.npm, "packages/core", "test:unit"⟩ ∧
      detectPackageManagerForPkg coreRepository "packages/core" = .resolved "npm" ∧
      (discoverChecks coreRepository).checks.any
        (·.checkId = "check:pkg:npm:packages/core:test:unit") = true ∧
      resolveCheckAction coreRepository "check:pkg:npm:packages/core:test:unit" =
        .unsupported "check:pkg:npm:packages/core:test:unit"
          "malformed npm check id format: check:pkg:npm:packages/core:test:unit" :=
  ⟨coreRepository_beneath, coreRepository_declares (.inr rfl), by decide +kernel, by decide +kernel,
    by decide +kernel⟩

end CheckIds
