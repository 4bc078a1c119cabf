import FlowDeck.Semantic.EvidenceModel
import FlowDeck.Semantic.WireReader

/-! The state that is recorded of a provider, and what an attempt that fails makes of it. -/

namespace ProviderState

open EvidenceModel

inductive ProviderHealth
  | available
  | missing
  | misconfigured
  | failed
  | timedOut
  | unsupported
  deriving DecidableEq

inductive ProviderFreshness
  | fresh
  | stale
  | unknown
  | absent
  deriving DecidableEq

/-- A duration is given as it is shown. -/
inductive SemanticProviderError
  | missing (message : String)
  | misconfigured (message : String)
  | failed (message : String)
  | timedOut (duration : String)
  | outputTooLarge (limit : Nat)
  | stderrTooLarge (limit : Nat)
  | malformedScip (message : String)
  | sizeLimit (message : String)
  | pathJail (message : String)
  | unsupportedLanguage (message : String)
  | io (message : String)
  | db (message : String)
  deriving DecidableEq

namespace SemanticProviderError

def text : SemanticProviderError → String
  | .missing message => "provider missing: " ++ message
  | .misconfigured message => "provider misconfigured: " ++ message
  | .failed message => "provider execution failed: " ++ message
  | .timedOut duration => "provider timed out after " ++ duration
  | .outputTooLarge limit => "provider stdout exceeded limit (" ++ toString limit ++ " bytes)"
  | .stderrTooLarge limit => "provider stderr exceeded limit (" ++ toString limit ++ " bytes)"
  | .malformedScip message => "malformed SCIP output: " ++ message
  | .sizeLimit message => "SCIP size limit exceeded: " ++ message
  | .pathJail message => "path jail violation: " ++ message
  | .unsupportedLanguage message => "unsupported language: " ++ message
  | .io message => "I/O error: " ++ message
  | .db message => "database error: " ++ message

def attemptHealth : SemanticProviderError → ProviderHealth
  | .missing _ => .missing
  | .timedOut _ => .timedOut
  | _ => .failed

def freshness : SemanticProviderError → ProviderFreshness
  | .missing _ => .absent
  | _ => .unknown

end SemanticProviderError

def scipErrorText : WireReader.ScipDecodeError → String
  | .truncated => "truncated protobuf payload"
  | .unsupportedWireType wire => "unsupported protobuf wire type " ++ toString wire
  | .unsupportedGroup => "protobuf groups are not supported"
  | .stringTooLong length => "string exceeds limit (" ++ toString length ++ " bytes)"
  | .invalidUtf8 => "invalid UTF-8 in string field"
  | .documentLimit limit => "document limit exceeded (" ++ toString limit ++ ")"
  | .occurrenceLimit limit => "occurrence limit exceeded (" ++ toString limit ++ ")"
  | .symbolLimit limit => "symbol limit exceeded (" ++ toString limit ++ ")"
  | .invalidRange => "invalid range in occurrence"
  | .negativeValue => "negative varint value not allowed here"

structure ProviderIdentity where
  providerId : String
  providerVersion : String
  executableIdentity : String
  scipSchemaVersion : String
  deriving DecidableEq

structure ProviderScope where
  workspaceRoot : String
  package : Option String
  languages : List LanguageId
  deriving DecidableEq

structure State where
  identity : ProviderIdentity
  scope : ProviderScope
  fingerprint : ProviderFingerprint
  health : ProviderHealth
  freshness : ProviderFreshness
  lastSuccessfulRun : Option Nat
  outputDigest : Option String
  failureReason : Option String
  semanticGeneration : Nat
  lastAttemptFingerprint : Option String
  lastAttemptAt : Option Nat
  lastAttemptHealth : Option ProviderHealth
  lastAttemptFailureReason : Option String
  deriving DecidableEq

def identityOf (providerId : String) (fingerprint : ProviderFingerprint) : ProviderIdentity where
  providerId := providerId
  providerVersion := fingerprint.providerVersion
  executableIdentity := fingerprint.executableIdentity
  scipSchemaVersion := fingerprint.scipSchemaVersion

def defaultState (providerId : String) (scope : ProviderScope) (fingerprint : ProviderFingerprint) :
    State where
  identity := identityOf providerId fingerprint
  scope := scope
  fingerprint := fingerprint
  health := .missing
  freshness := .absent
  lastSuccessfulRun := none
  outputDigest := none
  failureReason := none
  semanticGeneration := 0
  lastAttemptFingerprint := none
  lastAttemptAt := none
  lastAttemptHealth := none
  lastAttemptFailureReason := none

def persistedWithFailure (persisted : State) (attempted : ProviderFingerprint)
    (err : SemanticProviderError) (now : Nat) : State :=
  { persisted with
    health := err.attemptHealth
    freshness := err.freshness
    failureReason := some err.text
    lastAttemptFingerprint := some attempted.digest
    lastAttemptAt := some now
    lastAttemptHealth := some err.attemptHealth
    lastAttemptFailureReason := some err.text }

def unsupportedState (providerId : String) (scope : ProviderScope)
    (fingerprint : ProviderFingerprint) (now : Nat) : State where
  identity := identityOf providerId fingerprint
  scope := scope
  fingerprint := fingerprint
  health := .unsupported
  freshness := .absent
  lastSuccessfulRun := none
  outputDigest := none
  failureReason := some "unsupported language/sources"
  semanticGeneration := 0
  lastAttemptFingerprint := some fingerprint.digest
  lastAttemptAt := some now
  lastAttemptHealth := some .unsupported
  lastAttemptFailureReason := some "unsupported language/sources"

def publishedState (providerId : String) (scope : ProviderScope)
    (fingerprint : ProviderFingerprint) (outputDigest : String) (generation now : Nat) : State where
  identity := identityOf providerId fingerprint
  scope := scope
  fingerprint := fingerprint
  health := .available
  freshness := .fresh
  lastSuccessfulRun := some now
  outputDigest := some outputDigest
  failureReason := none
  semanticGeneration := generation
  lastAttemptFingerprint := some fingerprint.digest
  lastAttemptAt := some now
  lastAttemptHealth := some .available
  lastAttemptFailureReason := none

/-- A row has no column for the compiler's version. -/
def rowToState (row : State) : State :=
  { row with
    fingerprint :=
      { row.fingerprint with
        providerVersion := row.identity.providerVersion
        executableIdentity := row.identity.executableIdentity
        scipSchemaVersion := row.identity.scipSchemaVersion
        compilerVersion := none } }

end ProviderState
