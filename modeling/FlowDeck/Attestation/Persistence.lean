import FlowDeck.Attestation.ManagedDirectory
import FlowDeck.Attestation.Statements
import FlowDeck.Library.Texts
import FlowDeck.Verification.CheckDiscovery

/-! Publishing an attestation under its digest, and loading it from its path. -/

namespace Persistence

open Paths Checked ManagedDirectory Statements

open PolicyStore (containsText)

open CheckDiscovery (member? jsonText?)

inductive AttestationDocument
  | v1 (statement : VerificationAttestation)
  | v2 (statement : VerificationAttestationV2)
  deriving DecidableEq

namespace AttestationDocument

def runId : AttestationDocument → String
  | .v1 statement => statement.predicate.run.runId
  | .v2 statement => statement.predicate.run.runId

/-- The `predicateType` member of the statement. -/
def declaredType : AttestationDocument → String
  | .v1 statement => statement.predicateType
  | .v2 statement => statement.predicateType

def isTyped : AttestationDocument → Bool
  | .v1 statement =>
    statement.predicateType = fdxVerificationPredicateV1Type &&
      statement.predicate.schemaVersion = fdxAttestationPredicateVersion
  | .v2 statement =>
    statement.predicateType = fdxVerificationPredicateV2Type &&
      statement.predicate.schemaVersion = fdxAttestationPredicateV2Version

end AttestationDocument

/-- The JSON texts of statements, and SHA-256. -/
structure Codec where
  sha256 : Bytes → String
  canonicalizeToVec : AttestationDocument → Except String Bytes
  parseValue : Bytes → Except String Json
  parseV1 : Bytes → Except String VerificationAttestation
  parseV2 : Bytes → Except String VerificationAttestationV2

def validateIdentifier (os : Os) (id : String) : Except String Unit :=
  refuseIf (id = "" ∨ '/' ∈ id.toList ∨ '\x5c' ∈ id.toList ∨ containsText id ".." = true ∨
      '\x00' ∈ id.toList ∨ id.toList.head? = some '.')
    ("invalid identifier (path traversal detected): " ++ os.debug id)

def targetFilename (runId sha256 : String) : String := runId ++ "." ++ sha256 ++ ".json"

/-- The files one call works with. -/
structure Publication where
  runId : String
  sha256 : String
  dir : String
  bytes : Bytes

def Publication.target (p : Publication) : String := targetFilename p.runId p.sha256

def Publication.path (p : Publication) : String := join p.dir p.target

def tempName (os : Os) (p : Publication) (attempt : Nat) : String :=
  "." ++ p.runId ++ "." ++ String.ofList (p.sha256.toList.take 8) ++ ".tmp-" ++ toString os.pid ++
    "-" ++ os.stamp attempt

def allocateTemp (os : Os) (p : Publication) (dir : Directory) : List Nat → Except String String
  | [] => .error ("failed to allocate unique temporary filename for run_id " ++ p.runId)
  | attempt :: rest =>
    let name := tempName os p attempt
    match os.refuses (.createTemp attempt) with
    | some reason =>
      .error ("failed to create temporary attestation file " ++ os.debug name ++ " safely: " ++ reason)
    | none => if (dir name).isSome then allocateTemp os p dir rest else .ok name

/-- The removal of a temporary file, whose own failure is passed over. -/
def unlink (os : Os) (dir : Directory) (name : String) : Directory :=
  if (os.refuses .unlinkTemp).isSome then dir else Function.update dir name none

/-- What was linked is read back and compared. -/
def confirm (os : Os) (p : Publication) (dir : Directory) : Except String (String × String) :=
  match openEntry os dir p.target with
  | .error .loop =>
    .error ("Post-publication verification failed: could not open target " ++ os.debug p.target ++
      ": Too many levels of symbolic links (os error 40)")
  | .error (.other reason) =>
    .error ("Post-publication verification failed: could not open target " ++ os.debug p.target ++
      ": " ++ reason)
  | .ok entry =>
    match readBoundedFile os maxAttestationArtifactBytes entry with
    | .error reason =>
      .error ("Post-publication verification failed on target " ++ os.debug p.target ++ ": " ++
        reason)
    | .ok finalBytes =>
      if finalBytes ≠ p.bytes then
        .error ("Post-publication verification failed: target " ++ os.debug p.target ++
          " bytes do not match canonical bytes")
      else .ok (p.path, p.sha256)

/-- What stands under the target name already is read and compared. -/
def compareExisting (os : Os) (p : Publication) (dir : Directory) :
    Except String (String × String) :=
  match openEntry os dir p.target with
  | .error .loop =>
    .error ("Attestation target " ++ os.debug p.path ++ " is a symlink (refusing to overwrite)")
  | .error (.other reason) =>
    .error ("failed to open conflicting attestation " ++ os.debug p.path ++ ": " ++ reason)
  | .ok entry =>
    match readBoundedFile os maxAttestationArtifactBytes entry with
    | .error reason =>
      .error ("failed to read conflicting attestation " ++ os.debug p.path ++ ": " ++ reason)
    | .ok existingBytes =>
      if existingBytes = p.bytes then .ok (p.path, p.sha256)
      else
        .error ("Attestation collision: file " ++ os.debug p.path ++
          " appeared concurrently with conflicting contents")

/-- The hard link that publishes the temporary file, and what is done on each of its outcomes. -/
def linkTarget (os : Os) (p : Publication) (written : Directory) (temp : String) :
    Directory × Except String (String × String) :=
  match os.refuses .link with
  | some reason =>
    (unlink os written temp,
      .error ("Atomic hard-link publication failed for " ++ os.debug temp ++ " -> " ++
        os.debug p.target ++ ": " ++ reason ++ ". Refusing non-atomic fallback."))
  | none =>
    if (written p.target).isSome then
      let dir := unlink os written temp
      (dir, compareExisting os p dir)
    else
      let dir := unlink os (Function.update written p.target (written temp)) temp
      (dir, confirm os p dir)

def publish (os : Os) (p : Publication) (dir : Directory) :
    Directory × Except String (String × String) :=
  match allocateTemp os p dir (List.range 5) with
  | .error e => (dir, .error e)
  | .ok temp =>
    match (os.refuses .writeTemp).or (os.refuses .syncTemp) with
    | some reason =>
      (unlink os (Function.update dir temp (some (.file []))) temp,
        .error ("failed to write temporary attestation " ++ os.debug temp ++ ": " ++ reason))
    | none => linkTarget os p (Function.update dir temp (some (.file p.bytes))) temp

/-- `persist_attestation_for_run`, for both versions of the document. -/
def persistAttestation (c : Codec) (os : Os) (disk : Disk) (document : AttestationDocument) :
    Disk × Except String (String × String) :=
  match validateIdentifier os document.runId, c.canonicalizeToVec document with
  | .error e, _ => (disk, .error e)
  | .ok (), .error e => (disk, .error e)
  | .ok (), .ok bytes =>
    match ensure os disk with
    | (disk, .error e) => (disk, .error e)
    | (disk, .ok dir) =>
      let (after, result) :=
        publish os ⟨document.runId, c.sha256 bytes, attestationsDir disk, bytes⟩ dir
      (disk.withDirectory after, result)

def isHexDigit (ch : Char) : Bool :=
  ch.isDigit || 'a' ≤ ch && ch ≤ 'f' || 'A' ≤ ch && ch ≤ 'F'

def extractFilenameDigest (path : String) : Option String :=
  match (fileStem? path).bind fun stem => SeparatedPair.split? '.' stem.toList with
  | some (_, sha256) =>
    if sha256.length = 64 && sha256.all isHexDigit then
      some (String.ofList (sha256.map Char.toLower))
    else none
  | none => none

inductive AttestationSource
  | managed (path filenameSha256 : String)
  | external (path expectedSha256 : String)

def isManagedPathSyntax (disk : Disk) (filePath : String) : Bool :=
  startsWith filePath ".fdx" || startsWith filePath (join disk.repoRoot ".fdx") ||
    (components filePath).any (· = .normal ".fdx")

def isInAttestationsDir (disk : Disk) (path : String) : Bool :=
  match parent? path with
  | some dir =>
    samePath dir (attestationsDir disk) ||
      (disk.canonicalize dir).any (samePath · (attestationsDir disk))
  | none => false

def lower (text : String) : String := String.ofList (text.toList.map Char.toLower)

def resolvePath (disk : Disk) (filePath : String) : String :=
  if isAbsolute filePath then filePath else join disk.repoRoot filePath

def classifyManaged (os : Os) (disk : Disk) (path : String) : Except String AttestationSource :=
  if isInAttestationsDir disk path then
    match extractFilenameDigest path with
    | some sha256 => .ok (.managed path sha256)
    | none =>
      .error ("Managed attestation file " ++ os.debug path ++
        " has invalid content-address filename format (<run_id>.<sha256>.json)")
  else
    .error ("Attestation path " ++ os.debug path ++
      " targets .fdx namespace but is outside .fdx/attestations directory")

def classifyAttestationSource (os : Os) (disk : Disk) (filePath : String)
    (expectedSha256 : Option String) : Disk × Except String AttestationSource :=
  let path := resolvePath disk filePath
  if isManagedPathSyntax disk filePath || isManagedPathSyntax disk path then
    match ensure os disk with
    | (disk, .error e) =>
      (disk, .error ("Managed attestation directory safety violation for " ++ os.debug path ++ ": " ++
        e))
    | (disk, .ok _) => (disk, classifyManaged os disk path)
  else
    match expectedSha256 with
    | some sha256 => (disk, .ok (.external path (lower sha256)))
    | none =>
      (disk, .error ("External attestation file " ++ os.debug path ++
        " is not in the canonical managed directory (.fdx/attestations)." ++
        " External verification requires --expected-sha256 <sha256> integrity anchor."))

def readManaged (os : Os) (disk : Disk) (path : String) : Disk × Except String Bytes :=
  match ensure os disk with
  | (disk, .error e) => (disk, .error e)
  | (disk, .ok dir) =>
    (disk,
      match fileName? path with
      | none => .error ("invalid filename for " ++ os.debug path)
      | some name =>
        match openEntry os dir name with
        | .error .loop =>
          .error ("attestation file " ++ os.debug path ++ " is a symlink (symlinks are rejected)")
        | .error (.other reason) =>
          .error ("failed to open managed attestation file " ++ os.debug path ++
            " safely (symlinks rejected): " ++ reason)
        | .ok entry => readBoundedFile os maxAttestationArtifactBytes entry)

def readExternal (os : Os) (disk : Disk) (path : String) : Except String Bytes :=
  match openEntry os disk.outside path with
  | .error .loop =>
    .error ("attestation file " ++ os.debug path ++ " is a symlink (symlinks are rejected)")
  | .error (.other reason) =>
    .error ("failed to open attestation file " ++ os.debug path ++ ": " ++ reason)
  | .ok entry => readBoundedFile os maxAttestationArtifactBytes entry

def digestMismatch (c : Codec) (os : Os) (source : AttestationSource) (bytes : Bytes) : String :=
  match source with
  | .managed path sha256 =>
    "Filename digest mismatch for " ++ os.debug path ++ ": embedded SHA " ++ sha256 ++
      " != exact file hash " ++ c.sha256 bytes
  | .external path sha256 =>
    "Expected digest mismatch for " ++ os.debug path ++ ": expected SHA " ++ sha256 ++
      " != exact file hash " ++ c.sha256 bytes

def AttestationSource.path : AttestationSource → String
  | .managed path _ => path
  | .external path _ => path

def AttestationSource.sha256 : AttestationSource → String
  | .managed _ sha256 => sha256
  | .external _ sha256 => sha256

def readSource (os : Os) (disk : Disk) : AttestationSource → Disk × Except String Bytes
  | .managed path _ => readManaged os disk path
  | .external path _ => (disk, readExternal os disk path)

/-- The digest of the source and the caller's own are those of the bytes. -/
def checkDigests (c : Codec) (os : Os) (source : AttestationSource) (expectedSha256 : Option String)
    (bytes : Bytes) : Except String Unit := do
  refuseIf (source.sha256 ≠ c.sha256 bytes) (digestMismatch c os source bytes)
  match expectedSha256 with
  | some sha256 =>
    refuseIf (lower sha256 ≠ c.sha256 bytes) (digestMismatch c os (.external source.path sha256) bytes)
  | none => .ok ()

def loadAttestationBytesFromPath (c : Codec) (os : Os) (disk : Disk) (filePath : String)
    (expectedSha256 : Option String) : Disk × Except String (String × Bytes × String) :=
  match classifyAttestationSource os disk filePath expectedSha256 with
  | (disk, .error e) => (disk, .error e)
  | (disk, .ok source) =>
    match readSource os disk source with
    | (disk, .error e) => (disk, .error e)
    | (disk, .ok bytes) =>
      (disk, do
        checkDigests c os source expectedSha256 bytes
        return (source.path, bytes, c.sha256 bytes))

/-- The version the bytes declare, strictly parsed. -/
def parseDocument (c : Codec) (os : Os) (path : String) (bytes : Bytes) :
    Except String AttestationDocument := do
  let probe ← (c.parseValue bytes).mapError fun e =>
    "failed to parse in-toto attestation JSON from " ++ os.debug path ++ ": " ++ e
  match (member? "predicateType" probe).bind jsonText? with
  | none => .error ("attestation " ++ os.debug path ++ " is missing string predicateType")
  | some predicateType =>
    if predicateType = fdxVerificationPredicateV1Type then do
      let statement ← (c.parseV1 bytes).mapError fun e =>
        "failed to strictly parse v1 attestation " ++ os.debug path ++ ": " ++ e
      refuseIf (statement.predicate.schemaVersion ≠ fdxAttestationPredicateVersion)
        ("v1 predicate URI in " ++ os.debug path ++ " has unsupported schema version " ++
          toString statement.predicate.schemaVersion)
      return .v1 statement
    else if predicateType = fdxVerificationPredicateV2Type then do
      let statement ← (c.parseV2 bytes).mapError fun e =>
        "failed to strictly parse v2 attestation " ++ os.debug path ++ ": " ++ e
      refuseIf (statement.predicate.schemaVersion ≠ fdxAttestationPredicateV2Version)
        ("v2 predicate URI in " ++ os.debug path ++ " has unsupported schema version " ++
          toString statement.predicate.schemaVersion)
      return .v2 statement
    else
      .error ("unsupported attestation predicateType " ++ os.debug predicateType ++ " in " ++
        os.debug path ++ "; refusing future or unknown predicate")

def checkRunId (os : Os) (path : String) (document : AttestationDocument) : Except String Unit :=
  match (fileStem? path).bind fun stem => SeparatedPair.split? '.' stem.toList with
  | some (runId, _) =>
    refuseIf (String.ofList runId ≠ document.runId)
      ("Run ID mismatch in filename " ++ os.debug path ++ ": filename prefix " ++
        os.debug (String.ofList runId) ++ " != attested run_id " ++ os.debug document.runId)
  | none => .ok ()

structure LoadedAttestation where
  document : AttestationDocument
  bytes : Bytes
  sha256 : String
  deriving DecidableEq

def loadAttestationDocumentFromPath (c : Codec) (os : Os) (disk : Disk) (filePath : String)
    (expectedSha256 : Option String) : Disk × Except String LoadedAttestation :=
  match loadAttestationBytesFromPath c os disk filePath expectedSha256 with
  | (disk, .error e) => (disk, .error e)
  | (disk, .ok (path, bytes, sha256)) =>
    (disk, do
      let document ← parseDocument c os path bytes
      checkRunId os path document
      return ⟨document, bytes, sha256⟩)

end Persistence
