import ProtocolEnforcer.Types.Profile
import ProtocolEnforcer.Ledger.File

/-!
# Sessions, events and errors (`crates/types/src/{common,events,errors}.rs`)

Counters are `u32` and wrap as in a release build. `event_id` is a random UUID
that no function reads and is left out; `serde` attributes belong to the JSON text
of an event, which the ledger file model takes from `serde_json`. `HashMap`s are
association lists with unique keys where their entries are listed, and functions
where they are only looked up; a walk over one takes its entries in any order
(`WalkOrder`).
-/

namespace ProtocolEnforcer

/-- Nanoseconds since the epoch (`DateTime<Utc>`). -/
abbrev Time := Int

/-- `ChecklistEvidence`, a `HashMap<String, Value>`. -/
structure ChecklistEvidence where
  entries : List (String × Json)
  nodup : (entries.map Prod.fst).Nodup

namespace ChecklistEvidence

def get (ev : ChecklistEvidence) (key : String) : Option Json :=
  ev.entries.lookup key

def keys (ev : ChecklistEvidence) : List String :=
  ev.entries.map Prod.fst

/-- The evidence as a JSON value (`json!(evidence)`). -/
def toJson (ev : ChecklistEvidence) : Json :=
  .object ev.entries

/-- No evidence at all. -/
def empty : ChecklistEvidence := ⟨[], .nil⟩

end ChecklistEvidence

structure ArtifactRef where
  path : String
  sha256 : String
  sizeBytes : Nat
  mimeType : String
  deriving DecidableEq, Repr

/-- A position within the pipeline. -/
structure Position where
  macroId : String
  subStateId : String
  deriving DecidableEq, Repr

inductive SessionStatus where
  | active
  | completed
  | failed
  deriving DecidableEq, Repr

/-- A challenge nonce bound to one entry into one `human_approval` sub-state. -/
structure ApprovalChallenge where
  macroId : String
  subStateId : String
  challenge : String
  deriving DecidableEq, Repr

structure SessionState where
  sessionId : String
  pipelineId : String
  position : Option Position
  status : SessionStatus
  macroIteration : UInt32
  consecutiveIdenticalRejections : UInt32
  lastRejectedEvidenceKeys : List String
  consecutiveApprovalRejections : UInt32
  startedAt : Time
  updatedAt : Time
  initialContext : Json
  artifacts : List (String × ArtifactRef)
  pendingApproval : Option ApprovalChallenge

/-- The order `HashMap::values` takes the entries of a map in: any. -/
structure WalkOrder (α : Type) where
  walk : List α → List α
  perm : ∀ entries, (walk entries).Perm entries

/-- `HashMap::insert` on the artifact map. -/
def insertArtifact (artifacts : List (String × ArtifactRef)) (key : String)
    (a : ArtifactRef) : List (String × ArtifactRef) :=
  artifacts.filter (fun e => e.1 ≠ key) ++ [(key, a)]

/-! ## Events -/

inductive CircuitBreakerType where
  | maxIterations
  | repetitiveLoop
  | globalTimeout
  | approvalRejectionLimit
  deriving DecidableEq, Repr

inductive FsmEventType where
  | sessionStarted (pipelineId manifestVersion : String) (profileSha256 : Option String)
  | milestoneSubmitted (evidenceKeys : List String) (iteration : UInt32)
  | milestoneAccepted (nextStepId : Option String)
  | milestoneRejected (rejectedItems : List String) (reason : String) (iteration : UInt32)
  | stepAdvanced (fromStep toStep : String)
  | subStateAdvanced (fromSub toSub : String)
  | macroAdvanced (fromMacro toMacro : String)
  | circuitBreakerTriggered (breaker : CircuitBreakerType) (details : Json)
  | sessionCompleted (finalArtifactPath : String) (outputSha256 : Option String)
  | sessionFailed (reason finalStep : String)
  | macroLoopedBack (fromSub toSub : String) (iteration : UInt32)
  | artifactStored (artifactRef : ArtifactRef)
  | approvalChallengeIssued (macroId subStateId challenge : String)
  | approvalAccepted (macroId subStateId challenge signature : String)
  | approvalRejected (macroId subStateId reason : String)
  | outputContractViolated (reason : String)

structure FsmEvent where
  timestamp : Time
  sessionId : String
  eventType : FsmEventType
  stepId : Option String
  payload : Json

/-! ## Errors -/

inductive ArtifactError where
  | io (message : String)
  | hashMismatch (expected actual : String)
  deriving DecidableEq, Repr

inductive FsmError where
  | sessionNotFound (sessionId : String)
  | sessionInactive (sessionId : String) (status : SessionStatus)
  | stepMismatch (expected actual : String)
  | circuitBreaker (breaker : CircuitBreakerType) (details : String)
  | outputContractViolation (message : String)
  | ledger (e : LedgerError)
  | artifact (e : ArtifactError)
  | libraryUnresolved (message : String)
  | manifestInvalid (message : String)
  | internal (message : String)
  deriving DecidableEq, Repr

/-! The texts of the errors (`thiserror`'s `Display`). -/

def SessionStatus.debug : SessionStatus → String
  | .active => "Active"
  | .completed => "Completed"
  | .failed => "Failed"

def CircuitBreakerType.debug : CircuitBreakerType → String
  | .maxIterations => "MaxIterations"
  | .repetitiveLoop => "RepetitiveLoop"
  | .globalTimeout => "GlobalTimeout"
  | .approvalRejectionLimit => "ApprovalRejectionLimit"

def LedgerError.display : LedgerError → String
  | .io message => "IO error: " ++ message
  | .corrupt line message => "Corrupt ledger at line " ++ toString line ++ ": " ++ message
  | .serde message => "Serialization error: " ++ message

def ArtifactError.display : ArtifactError → String
  | .io message => "IO error: " ++ message
  | .hashMismatch expected actual => "Hash mismatch: expected " ++ expected ++ ", got " ++ actual

def FsmError.display : FsmError → String
  | .sessionNotFound sessionId => "Session not found: " ++ sessionId
  | .sessionInactive sessionId status =>
    "Session '" ++ sessionId ++ "' is not active (status: " ++ status.debug ++ ")"
  | .stepMismatch expected actual => "Step mismatch: expected " ++ expected ++ ", got " ++ actual
  | .circuitBreaker breaker details =>
    "Circuit breaker triggered: " ++ breaker.debug ++ " - " ++ details
  | .outputContractViolation message => "Output contract violation: " ++ message
  | .ledger e => "Ledger error: " ++ e.display
  | .artifact e => "Artifact error: " ++ e.display
  | .libraryUnresolved message => "Library reference unresolved: " ++ message
  | .manifestInvalid message => "Manifest invalid: " ++ message
  | .internal message => "Internal error: " ++ message

end ProtocolEnforcer
