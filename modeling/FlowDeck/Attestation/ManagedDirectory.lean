import FlowDeck.Verification.Paths

/-! The directory of the attestations, below the repository root, and the calls made on it. -/

namespace ManagedDirectory

open Paths Checked

abbrev Bytes := List UInt8

inductive Entry
  | file (bytes : Bytes)
  | symlink
  | directory
  deriving DecidableEq

abbrev Directory := String → Option Entry

/-- The error a directory is not opened with. -/
inductive Refusal
  | loop
  | notDirectory
  deriving DecidableEq

/-- What stands under the name of a directory. -/
inductive Slot (α : Type)
  | absent
  | refused (refusal : Refusal)
  | directory (content : α)

def Slot.content {α : Type} (empty : α) : Slot α → α
  | .directory content => content
  | _ => empty

def noFiles : Directory := fun _ => none

/-- The repository as far as attestations reach: its root as given and as the file system has it,
`.fdx` with its `attestations`, and the rest. -/
structure Disk where
  repoRoot : String
  canonicalRoot : String
  absolute : isAbsolute canonicalRoot = true
  fdx : Slot (Slot Directory)
  outside : Directory
  canonicalize : String → Option String

/-- The calls that the operating system may refuse for reasons of its own. -/
inductive Syscall
  | canonicalizeRoot
  | openRoot
  | statRoot
  | openDir (name : String)
  | makeDir (name : String)
  | reopenDir (name : String)
  | statDir (name : String)
  | createTemp (attempt : Nat)
  | writeTemp
  | syncTemp
  | unlinkTemp
  | link
  | openFile
  | statFile
  | readFile
  deriving DecidableEq

/-- The process and its operating system: which calls are refused and why, how texts are printed,
and what makes the name of a temporary file. -/
structure Os where
  refuses : Syscall → Option String
  debug : String → String
  pid : Nat
  stamp : Nat → String

/-- An operating system that refuses nothing. -/
def Os.quiet (os : Os) : Os := { os with refuses := fun _ => none }

def Os.call (os : Os) (call : Syscall) (message : String) : Except String Unit :=
  match os.refuses call with
  | some reason => .error (message ++ reason)
  | none => .ok ()

def maxAttestationArtifactBytes : Nat := 16 * 1024 * 1024

def fdxDir (disk : Disk) : String := join disk.canonicalRoot ".fdx"

def attestationsDir (disk : Disk) : String := join (fdxDir disk) "attestations"

/-- The names in the messages of one step of the descent. -/
structure Descent where
  name : String
  parent : String
  path : String
  handle : String

def openOrCreate {α : Type} (os : Os) (d : Descent) (empty : α) :
    Slot α → Slot α × Except String α
  | .refused .loop =>
    (.refused .loop,
      .error (d.name ++ " directory cannot be a symlink (escape detected): " ++ os.debug d.path))
  | .refused .notDirectory =>
    (.refused .notDirectory,
      .error (d.name ++ " is not a directory or is a symlink (escape detected): " ++
        os.debug d.path))
  | .directory content =>
    (.directory content, do
      os.call (.openDir d.name)
        ("failed to open " ++ d.name ++ " directory relative to " ++ d.parent ++ ": ")
      os.call (.statDir d.name) ("failed to fstat " ++ d.handle ++ ": ")
      return content)
  | .absent =>
    match os.refuses (.openDir d.name), os.refuses (.makeDir d.name) with
    | some reason, _ =>
      (.absent, .error ("failed to open " ++ d.name ++ " directory relative to " ++ d.parent ++
        ": " ++ reason))
    | none, some reason =>
      (.absent, .error ("failed to create " ++ d.name ++ " directory relative to " ++ d.parent ++
        ": " ++ reason))
    | none, none =>
      (.directory empty, do
        os.call (.reopenDir d.name)
          ("failed to open created " ++ d.name ++ " directory relative to " ++ d.parent ++ ": ")
        os.call (.statDir d.name) ("failed to fstat " ++ d.handle ++ ": ")
        return empty)

def openRoot (os : Os) (disk : Disk) : Except String Unit := do
  os.call .canonicalizeRoot ("cannot canonicalize repository root " ++ os.debug disk.repoRoot ++ ": ")
  os.call .openRoot ("failed to open repository root directory " ++ os.debug disk.canonicalRoot ++ ": ")
  os.call .statRoot "failed to fstat repository root handle: "

def fdxDescent (disk : Disk) : Descent := ⟨".fdx", "repository root", fdxDir disk, ".fdx directory handle"⟩

def attestationsDescent (disk : Disk) : Descent :=
  ⟨"attestations", ".fdx handle", attestationsDir disk, "managed attestations directory"⟩

/-- `ManagedAttestationDir::ensure`: the directories opened one below the other. -/
def ensure (os : Os) (disk : Disk) : Disk × Except String Directory :=
  match openRoot os disk with
  | .error e => (disk, .error e)
  | .ok () =>
    match openOrCreate os (fdxDescent disk) .absent disk.fdx with
    | (fdx, .error e) => ({ disk with fdx }, .error e)
    | (_, .ok inner) =>
      let (slot, result) := openOrCreate os (attestationsDescent disk) noFiles inner
      ({ disk with fdx := .directory slot }, result)

def Disk.withDirectory (disk : Disk) (dir : Directory) : Disk :=
  { disk with fdx := .directory (.directory dir) }

/-- The files in the managed directory; none where there is no such directory. -/
def Disk.entry (disk : Disk) : Directory := (disk.fdx.content .absent).content noFiles

/-- The size is asked for before the file is read; a file does not change between the two. -/
def readBoundedFile (os : Os) (maxBytes : Nat) : Entry → Except String Bytes
  | .file bytes => do
    os.call .statFile "failed to fstat file handle: "
    refuseIf (maxBytes < bytes.length)
      ("file exceeds maximum allowed size (" ++ toString bytes.length ++ " bytes > " ++
        toString maxBytes ++ " max)")
    os.call .readFile "failed to read file content: "
    return bytes
  | .symlink => .error "file handle is a symlink (symlinks are rejected)"
  | .directory => .error "file handle is not a regular file"

inductive OpenError
  | loop
  | other (reason : String)

/-- Opening without following a link. -/
def openEntry (os : Os) (dir : Directory) (name : String) : Except OpenError Entry :=
  match os.refuses .openFile, dir name with
  | some reason, _ => .error (.other reason)
  | none, none => .error (.other "No such file or directory (os error 2)")
  | none, some .symlink => .error .loop
  | none, some entry => .ok entry

end ManagedDirectory
