import FlowDeck.Library.Texts
import FlowDeck.Verification.CheckDiscovery

namespace CheckResolution

open Paths CheckDiscovery Checked

open PolicyStore (isWhitespace containsText)

inductive IndividualTestCapability
  | vitest (fixedArgs : List String)
  | jest (fixedArgs : List String)
  deriving DecidableEq

inductive ExecutionAction
  | npmRunScript (pkgDir scriptName packageManager : String)
  | npmRunTestFile (pkgDir testFileRel packageManager : String)
      (capability : IndividualTestCapability)
  | cargoTestPackage (pkgDir : String) (packageName : Option String)
  | cargoTestTarget (pkgDir : String) (packageName : Option String) (testTarget : String)
  | cargoCheckPackage (pkgDir : String) (packageName : Option String)
  | cargoClippyPackage (pkgDir : String) (packageName : Option String)
  | cargoBuildPackage (pkgDir : String) (packageName : Option String)
  | unsupported (checkId reason : String)
  deriving DecidableEq

inductive PackageManagerResolution
  | resolved (manager : String)
  | ambiguous (managers : List String)
  | missing
  deriving DecidableEq

/-- `str::trim`. -/
def trim (text : List Char) : List Char :=
  ((text.dropWhile isWhitespace).reverse.dropWhile isWhitespace).reverse

/-- `str::strip_prefix`. -/
def stripPrefix? (start text : String) : Option String :=
  if start.toList.isPrefixOf text.toList then some (String.ofList (text.toList.drop start.length))
  else none

/-- The path of a directory below the root; the root itself for `.` and for no text. -/
def absoluteDir (repo : Repository) (pkgDir : String) : String :=
  if samePath pkgDir "." || pkgDir = "" then repo.root
  else if isAbsolute pkgDir then pkgDir
  else join repo.root pkgDir

def readJson? (repo : Repository) (path : String) : Option Json :=
  match repo.readToString path with
  | .error _ => none
  | .ok content => (repo.parseJson content).toOption

/-- The manager that a `packageManager` field names, up to its version. -/
def declaredManager? (repo : Repository) (path : String) : Option String :=
  if repo.pathExists path then
    match ((readJson? repo path).bind (member? "packageManager")).bind jsonText? with
    | none => none
    | some field =>
      let name := String.ofList (trim (field.toList.takeWhile (· ≠ '@')))
      if name ∈ ["npm", "pnpm", "yarn", "bun"] then some name else none
  else none

def lockfileCandidates : List (String × String) :=
  [("pnpm-lock.yaml", "pnpm"), ("yarn.lock", "yarn"), ("bun.lock", "bun"), ("bun.lockb", "bun"),
    ("package-lock.json", "npm")]

def detectedManagers (repo : Repository) (pkgDir : String) : List String :=
  let dir := absoluteDir repo pkgDir
  let own := if samePath dir repo.root then none else declaredManager? repo (join dir "package.json")
  let shared := declaredManager? repo (join repo.root "package.json")
  let locked := lockfileCandidates.filterMap fun candidate =>
    if repo.pathExists (join dir candidate.1) || repo.pathExists (join repo.root candidate.1) then
      some candidate.2
    else none
  (own.toList ++ shared.toList ++ locked).dedup.insertionSort (· ≤ ·)

def detectPackageManagerForPkg (repo : Repository) (pkgDir : String) : PackageManagerResolution :=
  match detectedManagers repo pkgDir with
  | [] => .missing
  | [manager] => .resolved manager
  | managers => .ambiguous managers

/-- The lines of a text, each less a carriage return at its end. -/
def lines (content : String) : List (List Char) :=
  (content.toList.splitOn '\n').map fun line =>
    if line.getLast? = some '\r' then line.dropLast else line

def trimMatches (mark : Char) (text : List Char) : List Char :=
  ((text.dropWhile (· = mark)).reverse.dropWhile (· = mark)).reverse

def declaredName? (line : List Char) : Option String :=
  let trimmed := trim line
  if "name".toList.isPrefixOf trimmed && trimmed.contains '=' then
    let value := (trimmed.dropWhile (· ≠ '=')).drop 1
    let name := trim (trimMatches '\'' (trimMatches '\x22' (trim value)))
    if name.isEmpty then none else some (String.ofList name)
  else none

def parseCargoPackageName (repo : Repository) (dir : String) : Option String :=
  let manifest := join dir "Cargo.toml"
  if repo.pathExists manifest then
    match repo.readToString manifest with
    | .error _ => none
    | .ok content => (lines content).findSome? declaredName?
  else none

def packageTestScript? (repo : Repository) (dir : String) : Option String :=
  (((readJson? repo (join dir "package.json")).bind (member? "scripts")).bind
    (member? "test")).bind jsonText?

def shellControls : List String :=
  ["&&", "||", ";", "|", ">", "<", "\x60", "$(", "\n", "\r"]

/-- `split_whitespace`. -/
def words (text : List Char) : List String :=
  ((text.splitOnP isWhitespace).filter (· ≠ [])).map String.ofList

def capabilityOf : List String → Option IndividualTestCapability
  | ["vitest"] => some (.vitest [])
  | ["vitest", "run"] => some (.vitest ["run"])
  | ["jest"] => some (.jest [])
  | ["jest", "--runInBand"] => some (.jest ["--runInBand"])
  | _ => none

def detectIndividualTargetCapability (repo : Repository) (dir : String) :
    Option IndividualTestCapability :=
  if repo.pathExists (join dir "package.json") then
    (packageTestScript? repo dir).bind fun script =>
      let trimmed := String.ofList (trim script.toList)
      if trimmed = "" || shellControls.any (containsText trimmed) then none
      else capabilityOf (words trimmed.toList)
  else none

def hasPackageTestScript (repo : Repository) (dir : String) : Bool :=
  (packageTestScript? repo dir).any fun script => !(trim script.toList).isEmpty

/-- The text of a path built from its components. -/
def renderComponents : List Component → String
  | .rootDir :: rest => "/" ++ "/".intercalate (rest.map componentText)
  | parts => "/".intercalate (parts.map componentText)
where
  componentText : Component → String
    | .rootDir => "/"
    | .curDir => "."
    | .parentDir => ".."
    | .normal name => name

/-- The components of a path that does not exist, each parent taken from what is before it. -/
def normalize (repo : Repository) (target path : String) : Except String (List Component) :=
  (components path).foldlM (fun (kept : List Component) component =>
    match component with
    | .parentDir =>
      if kept = [] || kept = [.rootDir] then
        .error ("path escapes repository root: " ++ repo.debugPath target)
      else .ok kept.dropLast
    | .curDir => .ok kept
    | .rootDir => .ok [.rootDir]
    | .normal name => .ok (kept ++ [.normal name])) []

def canonicalTarget (repo : Repository) (target : String) : Except String String :=
  let absolute := if isAbsolute target then target else join repo.root target
  match repo.canonicalize absolute with
  | .ok path => .ok path
  | .error _ => (normalize repo target absolute).map renderComponents

def validateAndContainPath (repo : Repository) (target : String) : Except String String := do
  let root ← (repo.canonicalize repo.root).mapError fun e => "cannot canonicalize repo root: " ++ e
  let canonical ← canonicalTarget repo target
  refuseIf (startsWith canonical root = false)
    ("path " ++ repo.debugPath canonical ++ " escapes repository root " ++ repo.debugPath root)
  return canonical

def listText (managers : List String) : String :=
  "[" ++ ", ".intercalate (managers.map fun manager => "\x22" ++ manager ++ "\x22") ++ "]"

/-- The outcome for the manager that was detected, `what` naming the check in the message. -/
def withManager (checkId what : String) (detected : PackageManagerResolution)
    (run : String → ExecutionAction) : ExecutionAction :=
  match detected with
  | .resolved manager => run manager
  | .ambiguous managers =>
    .unsupported checkId ("ambiguous package manager detection: " ++ listText managers)
  | .missing => .unsupported checkId ("no Node package manager found for " ++ what)

/-- A package part of an id as a path. -/
def packagePath (pkgRel : String) : String := if pkgRel = "." || pkgRel = "" then "." else pkgRel

def resolveNpmCheck (repo : Repository) (checkId rest : String) : ExecutionAction :=
  match SeparatedPair.split? ':' rest.toList with
  | some (pkgRel, scriptName) =>
    let pkgDir := packagePath (String.ofList pkgRel)
    match validateAndContainPath repo pkgDir with
    | .error reason => .unsupported checkId reason
    | .ok _ =>
      withManager checkId "package script" (detectPackageManagerForPkg repo pkgDir) fun manager =>
        .npmRunScript pkgDir (String.ofList scriptName) manager
  | none => .unsupported checkId ("malformed npm check id format: " ++ checkId)

def cargoAction (checkId pkgDir : String) (packageName : Option String) :
    String → ExecutionAction
  | "test" => .cargoTestPackage pkgDir packageName
  | "check" => .cargoCheckPackage pkgDir packageName
  | "clippy" => .cargoClippyPackage pkgDir packageName
  | "build" => .cargoBuildPackage pkgDir packageName
  | scriptName => .unsupported checkId ("unsupported cargo check script: " ++ scriptName)

def resolveCargoCheck (repo : Repository) (checkId rest : String) : ExecutionAction :=
  match SeparatedPair.split? ':' rest.toList with
  | some (pkgRel, scriptName) =>
    let pkgDir := packagePath (String.ofList pkgRel)
    match validateAndContainPath repo pkgDir with
    | .error reason => .unsupported checkId reason
    | .ok _ =>
      cargoAction checkId pkgDir (parseCargoPackageName repo (absoluteDir repo pkgDir))
        (String.ofList scriptName)
  | none => .unsupported checkId ("malformed cargo check id format: " ++ checkId)

/-- The nearest directory with the manifest, from the parts in reverse order up; the search ends at
the root of the repository. -/
def enclosing (repo : Repository) (manifest : String) (absolute : Bool) : List String → String
  | [] => "."
  | segment :: before =>
    let dir := render absolute (segment :: before)
    if dir = "" || samePath dir "." then "."
    else if repo.pathExists (join (join repo.root dir) manifest) then dir
    else enclosing repo manifest absolute before

def owningDir (repo : Repository) (manifest relPath : String) : String :=
  match parent? relPath with
  | none => "."
  | some dir => enclosing repo manifest (isAbsolute dir) (segments dir).reverse

def resolveNpmTest (repo : Repository) (checkId relPath : String) : ExecutionAction :=
  let pkgDir := owningDir repo "package.json" relPath
  match validateAndContainPath repo pkgDir with
  | .error reason => .unsupported checkId reason
  | .ok _ =>
    withManager checkId "test file" (detectPackageManagerForPkg repo pkgDir) fun manager =>
      match detectIndividualTargetCapability repo (absoluteDir repo pkgDir) with
      | some capability => .npmRunTestFile pkgDir relPath manager capability
      | none =>
        if hasPackageTestScript repo (absoluteDir repo pkgDir) then
          .npmRunScript pkgDir "test" manager
        else
          .unsupported checkId
            "unknown test runner and no enclosing package test script found for rollup"

def resolveCargoTest (repo : Repository) (checkId relPath : String) : ExecutionAction :=
  let pkgDir := owningDir repo "Cargo.toml" relPath
  match validateAndContainPath repo pkgDir with
  | .error reason => .unsupported checkId reason
  | .ok _ =>
    .cargoTestTarget pkgDir (parseCargoPackageName repo (absoluteDir repo pkgDir))
      ((fileStem? relPath).getD relPath)

def resolveCheckAction (repo : Repository) (checkId : String) : ExecutionAction :=
  match stripPrefix? "check:pkg:npm:" checkId with
  | some rest => resolveNpmCheck repo checkId rest
  | none =>
    match stripPrefix? "check:pkg:cargo:" checkId with
    | some rest => resolveCargoCheck repo checkId rest
    | none =>
      match stripPrefix? "test:npm:" checkId with
      | some relPath => resolveNpmTest repo checkId relPath
      | none =>
        match stripPrefix? "test:cargo:" checkId with
        | some relPath => resolveCargoTest repo checkId relPath
        | none =>
          .unsupported checkId ("unsupported or non-executable check format: " ++ checkId)

end CheckResolution
