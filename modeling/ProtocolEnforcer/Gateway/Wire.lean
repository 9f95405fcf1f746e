import ProtocolEnforcer.Gateway.SessionCalls

/-!
# What goes over the wire (`crates/gateway/src/{wire,error_map}.rs`)

The bodies the tools answer with, and the errors. A key that is left out is not there, and a
key that is there may be null; a client can tell the two apart. What `serde` writes for a
position, a status and a breaker is written out here.
-/

namespace ProtocolEnforcer

/-- `Option<String>` as a value. -/
def Json.ofOption (s : Option String) : Json := s.elim .null .string

/-- `Position` as a value. -/
def Position.toJson (p : Position) : Json :=
  .object [("macro_id", .string p.macroId), ("sub_state_id", .string p.subStateId)]

/-- `session_status_str`. -/
def sessionStatusStr : SessionStatus → String
  | .active => "active"
  | .completed => "completed"
  | .failed => "failed"

/-- `injected_json`: the two approval keys are left out where there is nothing to approve. -/
def injectedJson (injected : RenderedInjection) : Json :=
  .object ([("prompt", .ofOption injected.prompt), ("skill_ref", .ofOption injected.skillRef),
    ("protocol_ref", .ofOption injected.protocolRef), ("context", .ofOption injected.context),
    ("rendered", .string injected.rendered)] ++
    (injected.approvalChallenge.map fun c => ("approval_challenge", Json.string c)).toList ++
    (injected.approvalPrompt.map fun p => ("approval_prompt", Json.string p)).toList)

/-- `macro_json`. -/
def macroJson (position : Position) (macroName : String) : Json :=
  .object [("state_id", .string position.macroId), ("name", .string macroName)]

/-- The keys the three responses with a view have in common. -/
def StepView.fields (view : StepView) : List (String × Json) :=
  [("position", view.position.toJson), ("injected", injectedJson view.injected),
    ("macro", macroJson view.position view.macroName),
    ("session_state", .string (sessionStatusStr view.sessionState))]

/-- `start_response_json`. -/
def startResponseJson (sessionId : String) (view : StepView) : Json :=
  .object (("session_id", .string sessionId) :: view.fields)

/-- `advance_response_json`. -/
def advanceResponseJson (view : StepView) : Json :=
  .object (("advanced", .bool true) :: view.fields)

/-- `looped_back_response_json`: a rejection, although the position moved. -/
def loopedBackResponseJson (view : StepView) (rejectedItems : List String) : Json :=
  .object (("advanced", .bool false) :: ("looped_back", .bool true) ::
    ("rejected_items", .array (rejectedItems.map .string)) :: view.fields)

/-- The `Rejected` arm of `protocol_submit_milestone`. -/
def rejectedResponseJson (rejectedItems : List String) (reason : String) (position : Position) :
    Json :=
  .object [("advanced", .bool false), ("rejected_items", .array (rejectedItems.map .string)),
    ("reason", .string reason), ("position", position.toJson)]

/-- `completed_response_json`: a root that could not be computed is left out. -/
def completedResponseJson (contractPath transcriptRoot : Option String) : Json :=
  .object ([("advanced", .bool true), ("position", .null), ("injected", .null),
    ("session_state", .string "completed"), ("contract_written", .bool contractPath.isSome),
    ("contract_path", .ofOption contractPath)] ++
    (transcriptRoot.map fun root => ("transcript_root", Json.string root)).toList)

/-- The body `protocol_submit_milestone` answers with. -/
def submitResponseJson (transcriptRoot : Option String) : StepOutcome → Json
  | .advanced view => advanceResponseJson view
  | .rejected rejectedItems reason position => rejectedResponseJson rejectedItems reason position
  | .loopedBack rejectedItems view => loopedBackResponseJson view rejectedItems
  | .completed contractPath => completedResponseJson contractPath transcriptRoot

/-- `get_state_response`; `encode` writes an event as a value. -/
def getStateResponse (encode : FsmEvent → Json) (state : SessionState) (events : List FsmEvent) :
    Json :=
  .object [("session_state", .string (sessionStatusStr state.status)),
    ("position", state.position.elim .null Position.toJson),
    ("ledger_tail", .array ((ledgerTail events).map encode))]

/-- The body `protocol_store_artifact` answers with. -/
def artifactResponseJson (a : ArtifactRef) : Json :=
  .object [("path", .string a.path), ("sha256", .string a.sha256),
    ("size_bytes", .number (toString a.sizeBytes)), ("mime_type", .string a.mimeType)]

/-! ## Errors -/

/-- `rmcp::ErrorData`: `invalid_params` or `internal_error`, a message, and data. -/
structure McpError where
  isInternal : Bool
  message : String
  data : Option Json

namespace McpError

def invalidParams (message : String) (data : Option Json) : McpError := ⟨false, message, data⟩

def internalError (message : String) (data : Option Json) : McpError := ⟨true, message, data⟩

/-- The `data.code` a client branches on. -/
def code (e : McpError) : Option String := (e.data.bind (·.get "code")).bind Json.asStr

end McpError

/-- `manifest_invalid_error`. -/
def manifestInvalidError (violations : List String) : McpError :=
  .invalidParams ("Manifest invalid: " ++ "; ".intercalate violations)
    (some (.object [("code", .string "MANIFEST_INVALID"),
      ("violations", .array (violations.map .string))]))

/-- `fsm_error_to_mcp`. -/
def fsmErrorToMcp : FsmError → McpError
  | .sessionNotFound id => .invalidParams ("Session not found: " ++ id)
      (some (.object [("code", .string "SESSION_NOT_FOUND"), ("session_id", .string id)]))
  | .sessionInactive sessionId status => .invalidParams
      ("Session '" ++ sessionId ++ "' is not active (status: " ++ status.debug ++ ")")
      (some (.object [("code", .string "SESSION_INACTIVE"), ("session_id", .string sessionId),
        ("status", .string status.debug)]))
  | .stepMismatch expected actual => .invalidParams
      ("Step mismatch: expected " ++ expected ++ ", got " ++ actual)
      (some (.object [("code", .string "STEP_MISMATCH"), ("expected", .string expected),
        ("actual", .string actual)]))
  | .circuitBreaker breaker details => .invalidParams
      ("Circuit breaker " ++ breaker.debug ++ ": " ++ details)
      (some (.object [("code", .string "CIRCUIT_BREAKER"), ("breaker", .string breaker.debug),
        ("details", .string details)]))
  | .outputContractViolation msg => .invalidParams ("Output contract violation: " ++ msg)
      (some (.object [("code", .string "OUTPUT_CONTRACT_VIOLATION"),
        ("errors", .array [.string msg])]))
  | .ledger e => .internalError ("Ledger error: " ++ e.display)
      (some (.object [("code", .string "LEDGER_CORRUPT"), ("message", .string e.display)]))
  | .artifact e => .internalError ("Artifact error: " ++ e.display)
      (some (.object [("code", .string "INTERNAL_ERROR"), ("message", .string e.display)]))
  | .libraryUnresolved msg => .invalidParams ("Library unresolved: " ++ msg)
      (some (.object [("code", .string "LIBRARY_UNRESOLVED"), ("message", .string msg)]))
  | .manifestInvalid msg => manifestInvalidError (msg.splitOn "; ")
  | .internal msg => .internalError ("Internal error: " ++ msg)
      (some (.object [("code", .string "INTERNAL_ERROR"), ("message", .string msg)]))

/-- A breaker is told from every other error by its code, -/
theorem code_circuitBreaker {e : FsmError} :
    (fsmErrorToMcp e).code = some "CIRCUIT_BREAKER" ↔ ∃ b details, e = .circuitBreaker b details := by
  cases e <;> simp [fsmErrorToMcp, manifestInvalidError, McpError.code, McpError.invalidParams,
    McpError.internalError, Json.get, Json.asStr]

/-- and so is a submission at another step. -/
theorem code_stepMismatch {e : FsmError} :
    (fsmErrorToMcp e).code = some "STEP_MISMATCH" ↔ ∃ expected actual, e = .stepMismatch expected actual := by
  cases e <;> simp [fsmErrorToMcp, manifestInvalidError, McpError.code, McpError.invalidParams,
    McpError.internalError, Json.get, Json.asStr]

end ProtocolEnforcer
