import FlowDeck.Library.Json
import FlowDeck.Verification.Paths

namespace CheckDiscovery

open Paths

open PolicyStore (VerificationCheckKind)

/-- A regular file the tree walk reports, or its error; a directory entry is passed over. -/
inductive WalkEntry
  | file (path : String)
  | other
  | error (message : String)

/-- The repository as the process sees it: the tree walk, the file system, the JSON reader and the
text `{:?}` gives a path. -/
structure Repository where
  root : String
  walk : List WalkEntry
  packageLimit : Nat
  readToString : String → Except String String
  pathExists : String → Bool
  canonicalize : String → Except String String
  parseJson : String → Except String Json
  debugPath : String → String

structure DiscoveredFiles where
  packageJsons : List String := []
  packageJsonsTruncated : Bool := false
  cargoTomls : List String := []
  cargoTomlsTruncated : Bool := false
  walkerErrors : List String := []

def recordManifest (limit : Nat) (files : DiscoveredFiles) (name path : String) : DiscoveredFiles :=
  if name = "package.json" then
    if files.packageJsons.length < limit then
      { files with packageJsons := files.packageJsons ++ [path] }
    else { files with packageJsonsTruncated := true }
  else if name = "Cargo.toml" then
    if files.cargoTomls.length < limit then { files with cargoTomls := files.cargoTomls ++ [path] }
    else { files with cargoTomlsTruncated := true }
  else files

def recordEntry (repo : Repository) (files : DiscoveredFiles) : WalkEntry → DiscoveredFiles
  | .error message => { files with walkerErrors := files.walkerErrors ++ [message] }
  | .other => files
  | .file path =>
    match canonicalizeRepoPath path repo.root with
    | .error _ =>
      { files with
        walkerErrors := files.walkerErrors ++ ["Canonicalization failed for " ++ path] }
    | .ok canon => recordManifest repo.packageLimit files ((fileName? path).getD "") canon

def inOrder (paths : List String) : List String := paths.insertionSort (· ≤ ·)

def discoverBuildFiles (repo : Repository) : DiscoveredFiles :=
  let files := repo.walk.foldl (recordEntry repo) {}
  { files with packageJsons := inOrder files.packageJsons, cargoTomls := inOrder files.cargoTomls }

structure DiscoveredCheck where
  checkId : String
  displayName : String
  owningScopeId : String
  kind : VerificationCheckKind
  commandOrScript : Option String
  deriving DecidableEq

structure TestDiscoveryIssue where
  kind : String
  path : Option String
  message : String
  deriving DecidableEq

structure TestInventory where
  checks : List DiscoveredCheck := []
  issues : List TestDiscoveryIssue := []

def displayDir (dir : String) : String := if dir = "" then "." else dir

/-- The directory of a manifest, as its package id has it. -/
def packageDir (manifest : String) : String := displayDir ((parent? manifest).getD "")

def scriptKind? : String → Option VerificationCheckKind
  | "test" | "test:unit" => some .unitTest
  | "test:integration" => some .integrationTest
  | "test:e2e" => some .endToEndTest
  | "typecheck" | "check" | "types" => some .typecheck
  | "lint" => some .lint
  | "build" => some .build
  | "format" | "fmt" => some .format
  | _ => none

def jsonText? : Json → Option String
  | .string text => some text
  | _ => none

def member? (name : String) : Json → Option Json
  | .object members => (members.find? (·.1 = name)).map (·.2)
  | _ => none

def npmCheck (pkgId : String) (script : String × Json) : Option DiscoveredCheck :=
  (scriptKind? script.1).map fun kind =>
    { checkId := "check:" ++ pkgId ++ ":" ++ script.1
      displayName := script.1 ++ " (" ++ pkgId ++ ")"
      owningScopeId := pkgId
      kind := kind
      commandOrScript := jsonText? script.2 }

def cargoCheck (pkgId : String) (standard : String × VerificationCheckKind × String) :
    DiscoveredCheck where
  checkId := "check:" ++ pkgId ++ ":" ++ standard.1
  displayName := "cargo " ++ standard.1 ++ " (" ++ pkgId ++ ")"
  owningScopeId := pkgId
  kind := standard.2.1
  commandOrScript := some standard.2.2

def standardCargoChecks : List (String × VerificationCheckKind × String) :=
  [("test", .unitTest, "cargo test"), ("check", .typecheck, "cargo check"),
    ("clippy", .lint, "cargo clippy")]

/-- A check id that was seen is not listed again. -/
def recordCheck (inventory : TestInventory) (check : DiscoveredCheck) : TestInventory :=
  if inventory.checks.any (·.checkId = check.checkId) then inventory
  else { inventory with checks := inventory.checks ++ [check] }

def recordIssue (inventory : TestInventory) (kind path message : String) : TestInventory :=
  { inventory with issues := inventory.issues ++ [⟨kind, some path, message⟩] }

def npmChecks (manifest : String) (value : Json) : List DiscoveredCheck :=
  match member? "scripts" value with
  | some (.object scripts) => scripts.filterMap (npmCheck ("pkg:npm:" ++ packageDir manifest))
  | _ => []

def cargoChecks (manifest : String) : List DiscoveredCheck :=
  standardCargoChecks.map (cargoCheck ("pkg:cargo:" ++ packageDir manifest))

def discoverNpm (repo : Repository) (inventory : TestInventory) (manifest : String) :
    TestInventory :=
  match repo.readToString (join repo.root manifest) with
  | .error message => recordIssue inventory "read_error" manifest message
  | .ok content =>
    match repo.parseJson content with
    | .error message => recordIssue inventory "parse_error" manifest message
    | .ok value => (npmChecks manifest value).foldl recordCheck inventory

def discoverCargo (repo : Repository) (inventory : TestInventory) (manifest : String) :
    TestInventory :=
  match repo.readToString (join repo.root manifest) with
  | .error message => recordIssue inventory "read_error" manifest message
  | .ok _ => (cargoChecks manifest).foldl recordCheck inventory

/-- The second part of `discover_tests_and_checks`: the checks of the package manifests. -/
def discoverChecks (repo : Repository) : TestInventory :=
  let files := discoverBuildFiles repo
  files.cargoTomls.foldl (discoverCargo repo) (files.packageJsons.foldl (discoverNpm repo) {})

end CheckDiscovery
