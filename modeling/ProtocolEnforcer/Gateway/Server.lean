import ProtocolEnforcer.Fsm.Calls

/-!
# The gateway (`crates/gateway/src/{server,recovery,paths}.rs`)

One gateway process: its registry of engines, and the ledger directory it works in.
A tool call is an `Effect` over the two, which also notes every path it opens. What
the environment variables say is a `Gateway`, what the operating system answers
during one call an `Io`; a profile file is read twice by a call, so it is two
answers. Calls on one session take turns at its engine's lock, so a call is whole.
-/

namespace ProtocolEnforcer

/-- The deployment: packages, environment variables, and which file a path names. -/
structure Gateway (F : Type) where
  vendor : Vendor
  /-- `serde_yaml::from_str` at the profile type. -/
  yaml : String → Except String Profile
  ledgerDir : String
  artifactRoot : String
  /-- The process's working directory, base of the output contract. -/
  outputBase : String
  /-- `PROTOCOL_PROFILES_DIR`, when it is set. -/
  profilesDir : Option String
  manifestStrict : Bool
  /-- The file at a path, once links and `..` are resolved. -/
  file : List Component → F

/-- What `write_sidecar_atomic` writes and recovery reads. -/
structure Sidecar where
  manifestPath : String

/-- What the outside answers during one tool call. -/
structure Io where
  /-- `Uuid::new_v4`. -/
  uuid : String
  host : Host
  /-- The engine's append attempts. -/
  appends : Nat → Except LedgerError Unit
  createDirAll : Except String Unit
  /-- `create_new` at a path where no file is. -/
  claim : Except String Unit
  ledgerNew : Except String Unit
  removeFile : Except String Unit
  /-- The sidecar at a path: unreadable, not a sidecar's JSON, or a sidecar. -/
  readSidecar : List Component → Option (Except String Sidecar)
  writeSidecar : Except String Unit
  canonicalize : String → Except String String
  /-- The profile file as `load_profile` reads it. -/
  load : String → Except String Bytes
  /-- The profile file as `profile_sha256_of` reads it. -/
  hash : String → Except String Bytes
  /-- Whether the ledger file replays. -/
  replay : Except LedgerError Unit

/-- `ErrorData`, by what it is made of. -/
inductive ErrorData where
  | invalidParams (message : String)
  | internalError (message : String)
  /-- `fsm_error_to_mcp`. -/
  | fsm (e : FsmError)
  /-- `manifest_invalid_error`. -/
  | manifestInvalid (violations : List String)

/-- One session's engine (`SharedEngine`); the events of its ledger are in the file
at `path`. -/
structure Served where
  engine : ProfileFsmEngine
  sessions : String → Option SessionState
  path : String

/-- A gateway process and its ledger directory. -/
structure ProtocolServer (F : Type) where
  registry : String → Option Served
  ledgers : F → Option (List FsmEvent)
  /-- The paths the current call has opened or created. -/
  opened : List (List Component)

/-- A piece of a tool call. -/
abbrev Tool (F α : Type) := Effect (ProtocolServer F) ErrorData α

namespace ProtocolServer

variable {F : Type} (s : ProtocolServer F)

def install (sid : String) (served : Served) : ProtocolServer F :=
  { s with registry := Function.update s.registry sid (some served) }

def setLedger [DecidableEq F] (file : F) (events : Option (List FsmEvent)) : ProtocolServer F :=
  { s with ledgers := Function.update s.ledgers file events }

def touch (path : List Component) : ProtocolServer F := { s with opened := s.opened ++ [path] }

@[simp] theorem install_ledgers (sid served) : (s.install sid served).ledgers = s.ledgers := rfl
@[simp] theorem install_opened (sid served) : (s.install sid served).opened = s.opened := rfl
@[simp] theorem touch_registry (path) : (s.touch path).registry = s.registry := rfl
@[simp] theorem touch_ledgers (path) : (s.touch path).ledgers = s.ledgers := rfl

section

variable [DecidableEq F] (file : F) (events : Option (List FsmEvent))

@[simp] theorem setLedger_registry : (s.setLedger file events).registry = s.registry := rfl
@[simp] theorem setLedger_opened : (s.setLedger file events).opened = s.opened := rfl

end

end ProtocolServer

/-! ## Paths -/

/-- `MAX_SESSION_ID_LEN`. -/
def maxSessionIdLen : Nat := 128

/-- A character the allow-list admits. -/
def sessionIdChar (c : Char) : Bool := c.isAlphanum || c == '_' || c == '-'

/-- `validate_session_id`. -/
def validateSessionId (sessionId : String) : Except ErrorData Unit :=
  if sessionId = "" then .error (.invalidParams "Invalid session_id: must not be empty")
  else if (bytesOf sessionId).length > maxSessionIdLen then
    .error (.invalidParams ("Invalid session_id: must be at most " ++ toString maxSessionIdLen ++
      " characters"))
  else if !sessionId.toList.all sessionIdChar then
    .error (.invalidParams
      "Invalid session_id: only ASCII letters, digits, '_' and '-' are allowed")
  else .ok ()

namespace Gateway

open Effect

variable {F : Type} (gw : Gateway F)

/-- `ledger_path`, and the path `Ledger::new` joins. -/
def ledgerPath (sid : String) : String := UnixPath.join gw.ledgerDir (sid ++ ".jsonl")

/-- `sidecar_path`. -/
def sidecarPath (sid : String) : String := UnixPath.join gw.ledgerDir (sid ++ ".manifest.json")

/-- `sidecar_path(..).with_extension("json.tmp")`. -/
def sidecarTmpPath (sid : String) : String :=
  UnixPath.join gw.ledgerDir (sid ++ ".manifest.json.tmp")

/-- The path `LedgerPort::replay` reads: the session's, in the parent of the ledger's. -/
def replayPath (path sid : String) : List Component :=
  UnixPath.joined (UnixPath.parent (UnixPath.components path)) (sid ++ ".jsonl")

/-- `resolve_manifest_reference`. -/
def resolveManifestReference (reference : String) : String × Bool :=
  let lower := Text.asciiLower reference
  let looksLikeName := isSafeName reference && !Text.endsWith lower ".yaml" &&
    !Text.endsWith lower ".yml"
  if looksLikeName then
    (UnixPath.join (gw.profilesDir.getD "./profiles") (reference ++ ".yaml"), true)
  else (reference, false)

variable (io : Io)

/-- `resolve_load_path`, with `manifest_confinement_root`. -/
def resolveLoadPath (manifestPath : String) (wasName : Bool) : Except ErrorData String :=
  if wasName then .ok manifestPath
  else
    match gw.profilesDir with
    | none => .ok manifestPath
    | some raw =>
      match io.canonicalize raw with
      | .error e => .error (.invalidParams
          ("PROTOCOL_PROFILES_DIR '" ++ raw ++ "' is not accessible: " ++ e))
      | .ok base =>
        match io.canonicalize manifestPath with
        | .error e => .error (.invalidParams ("Failed to resolve manifest_path: " ++ e))
        | .ok full =>
          if UnixPath.startsWith (UnixPath.components full) (UnixPath.components base) then .ok full
          else .error (.invalidParams "manifest_path must be inside PROTOCOL_PROFILES_DIR")

/-- `load_profile`. -/
def loadProfile (path : String) : Except String Profile :=
  match io.load path with
  | .error _ => .error ("Schema file not found: " ++ path)
  | .ok bytes =>
    match fromUtf8 bytes with
    | none => .error ("Schema file not found: " ++ path)
    | some text => (gw.yaml text).mapError ("YAML parse error: " ++ ·)

/-- `profile_sha256_of`: a file that cannot be read has no hash. -/
def profileSha256Of (path : String) : Option String :=
  match io.hash path with
  | .error _ => none
  | .ok bytes => some (toHex (gw.vendor.sha256 bytes))

/-- The configuration both the start and the recovery build. -/
def configFor (profile : Profile) (path : String) : FsmConfig where
  globalTimeoutSeconds := profile.settings.globalTimeoutSeconds
  artifactRoot := gw.artifactRoot
  profileSha256 := gw.profileSha256Of io path
  outputBase := gw.outputBase

/-- The loader and the validator, as the start and the recovery call them. -/
def loadValid (path : String) : Except ErrorData Profile :=
  match gw.loadProfile io path with
  | .error e => .error (.invalidParams ("Failed to load profile: " ++ e))
  | .ok profile =>
    match validateProfile gw.vendor.toSchemas io.host.validation profile with
    | .error violations => .error (.manifestInvalid violations)
    | .ok () => .ok profile

/-! ## The tools -/

variable [DecidableEq F]

/-- `Ledger::new`: attach to the file, or to a new one. -/
def ledgerNew (sid : String) : Tool F String := do
  let path := gw.ledgerPath sid
  let file := gw.file (UnixPath.components path)
  modify (·.touch (UnixPath.components path))
  lift (io.ledgerNew.mapError fun e =>
    .internalError ("Ledger init failed: " ++ (LedgerError.io e).display))
  modify fun s => s.setLedger file (some ((s.ledgers file).getD []))
  return path

/-- The world of a served engine during one call. -/
def worldOf (served : Served) (s : ProtocolServer F) : World SessionLedger :=
  ⟨⟨(s.ledgers (gw.file (UnixPath.components served.path))).getD [], io.appends, 0⟩,
    served.sessions, 0⟩

/-- An operation of a served engine, under its lock: whatever it answers, what it has
appended is in the file and what it has assigned is in the engine. -/
def operate {α : Type} (served : Served) (op : Effect (World SessionLedger) FsmError α) :
    Tool F (Except FsmError α × Served) := do
  let s ← get
  let (result, w) := exec op (gw.worldOf io served s)
  modify (·.setLedger (gw.file (UnixPath.components served.path)) (some w.ledger.events))
  return (result, { served with sessions := w.sessions })

/-- `recover_into_cache`. -/
def recoverIntoCache (sid : String) : Tool F Served := do
  modify (·.touch (UnixPath.components (gw.sidecarPath sid)))
  let sidecar ← lift (match io.readSidecar (UnixPath.components (gw.sidecarPath sid)) with
    | none => .error (.fsm (.sessionNotFound sid))
    | some (.error e) => .error (.internalError ("Corrupt crash-recovery sidecar: " ++ e))
    | some (.ok sidecar) => .ok sidecar)
  let profile ← lift (gw.loadValid io sidecar.manifestPath)
  let path ← gw.ledgerNew io sid
  let engine := ProfileFsmEngine.new gw.vendor profile (gw.configFor io profile sidecar.manifestPath)
  modify (·.touch (replayPath path sid))
  lift (io.replay.mapError fun e => .fsm (.ledger e))
  let events ← reads fun s => (s.ledgers (gw.file (replayPath path sid))).getD []
  let w : World SessionLedger := ⟨⟨events, io.appends, 0⟩, fun _ => none, 0⟩
  let (result, w) := exec (engine.recoverSession sid) w
  let _ ← lift (result.mapError .fsm)
  return ⟨engine, w.sessions, path⟩

/-- `get_or_recover`; no other caller fills the entry between its two looks. -/
def getOrRecover (sid : String) : Tool F Served := do
  let sessions ← reads (·.registry)
  match sessions sid with
  | some served => return served
  | none =>
    let recovered ← gw.recoverIntoCache io sid
    modify (·.install sid recovered)
    return recovered

/-- `ProtocolStartRequest`. -/
structure StartRequest where
  manifestPath : String
  sessionId : Option String
  initialContext : Option Json

/-- The blocking part of `protocol_start`, behind the claim. -/
def launchSession (sid manifestPath : String) (wasName : Bool) (initialContext : Option Json) :
    Tool F (Served × StepView) := do
  let loadPath ← lift (gw.resolveLoadPath io manifestPath wasName)
  let profile ← lift (gw.loadValid io loadPath)
  let path ← gw.ledgerNew io sid
  let engine := ProfileFsmEngine.new gw.vendor profile (gw.configFor io profile loadPath)
  let (view, served) ← gw.operate io ⟨engine, fun _ => none, path⟩
    (engine.startSession io.host sid initialContext)
  let view ← lift (view.mapError .fsm)
  return (served, view)

/-- `std::fs::remove_file(ledger_path(..))`, its result ignored. -/
def removeLedger (sid : String) : Tool F Unit := do
  modify (·.touch (UnixPath.components (gw.ledgerPath sid)))
  match io.removeFile with
  | .ok () => modify (·.setLedger (gw.file (UnixPath.components (gw.ledgerPath sid))) none)
  | .error _ => return ()

/-- `write_sidecar_atomic`, its result ignored. -/
def writeSidecarAtomic (sid : String) : Tool F Unit := do
  modify (·.touch (UnixPath.components (gw.sidecarTmpPath sid)))
  match io.writeSidecar with
  | .ok () => modify (·.touch (UnixPath.components (gw.sidecarPath sid)))
  | .error _ => return ()

/-- The claim of the ledger file with `create_new`. -/
def claimLedger (sid : String) : Tool F Unit := do
  let file := gw.file (UnixPath.components (gw.ledgerPath sid))
  modify (·.touch (UnixPath.components (gw.ledgerPath sid)))
  let ledger ← reads fun s => s.ledgers file
  if ledger.isSome then
    throw (.invalidParams ("Session '" ++ sid ++ "' already exists (ledger present)"))
  else do
    lift (io.claim.mapError fun e => .internalError ("Failed to claim ledger file: " ++ e))
    modify (·.setLedger file (some []))

/-- What `protocol_start` does once the id and the reference are accepted; no other
caller fills the registry entry before it does. -/
def startClaimed (sid manifestPath : String) (wasName : Bool) (initialContext : Option Json) :
    Tool F StepView := do
  lift (io.createDirAll.mapError fun e => .internalError ("Failed to create ledger dir: " ++ e))
  gw.claimLedger io sid
  let (served, view) ← tryCatch (gw.launchSession io sid manifestPath wasName initialContext)
    (fun e => do
      gw.removeLedger io sid
      throw e)
  modify (·.install sid served)
  gw.writeSidecarAtomic io sid
  return view

/-- `protocol_start`. -/
def protocolStart (req : StartRequest) : Tool F (String × StepView) := do
  if (UnixPath.components req.manifestPath).contains .parentDir then
    throw (.invalidParams "manifest_path must not contain '..' path components")
  else do
    lift (req.sessionId.elim (.ok ()) validateSessionId)
    let sid := req.sessionId.getD io.uuid
    let sessions ← reads (·.registry)
    if (sessions sid).isSome then
      throw (.invalidParams ("Session '" ++ sid ++ "' already exists"))
    else do
      let (manifestPath, wasName) := gw.resolveManifestReference req.manifestPath
      if !wasName && gw.manifestStrict then
        throw (.invalidParams
          "manifest_path must be a bare profile name when PROTOCOL_MANIFEST_STRICT is set")
      else do
        let view ← gw.startClaimed io sid manifestPath wasName req.initialContext
        return (sid, view)

/-- `protocol_submit_milestone`. -/
def protocolSubmitMilestone (sid : String) (pos : Position) (evidence : ChecklistEvidence)
    (output : Option Json) : Tool F StepOutcome := do
  let served ← gw.getOrRecover io sid
  let (outcome, served) ← gw.operate io served
    (served.engine.submitMilestone io.host sid pos evidence output)
  modify (·.install sid served)
  let outcome ← lift (outcome.mapError .fsm)
  match outcome with
  | .completed _ => do
    -- the transcript root reads the ledger once more
    modify (·.touch (UnixPath.components (gw.ledgerPath sid)))
    return outcome
  | _ => return outcome

/-- `LEDGER_TAIL_LEN`. -/
def ledgerTailLen : Nat := 20

/-- `protocol_get_state`: status, position, and the end of the ledger. -/
def protocolGetState (sid : String) :
    Tool F (SessionStatus × Option Position × List FsmEvent) := do
  let served ← gw.getOrRecover io sid
  let state ← lift ((served.sessions sid).elim (.error (.fsm (.sessionNotFound sid))) .ok)
  modify (·.touch (UnixPath.components (gw.ledgerPath sid)))
  lift (io.replay.mapError fun e => .internalError ("Ledger replay failed: " ++ e.display))
  let events ← reads fun s =>
    (s.ledgers (gw.file (UnixPath.components (gw.ledgerPath sid)))).getD []
  return (state.status, state.position, events.drop (events.length - ledgerTailLen))

/-- `protocol_store_artifact`. -/
def protocolStoreArtifact (sid stepId : String) (content : String) (mimeType : Option String) :
    Tool F ArtifactRef := do
  let served ← gw.getOrRecover io sid
  let (artifactRef, served) ← gw.operate io served
    (served.engine.storeArtifact io.host sid stepId (bytesOf content) (mimeType.getD "text/plain"))
  modify (·.install sid served)
  lift (artifactRef.mapError .fsm)

variable {gw io} {s : ProtocolServer F}

/-- An operation always returns; what came of it is in the result. -/
theorem exec_operate {α : Type} {served : Served} {op : Effect (World SessionLedger) FsmError α} :
    exec (gw.operate io served op) s =
      (.ok ((exec op (gw.worldOf io served s)).1,
          { served with sessions := (exec op (gw.worldOf io served s)).2.sessions }),
        s.setLedger (gw.file (UnixPath.components served.path))
          (some (exec op (gw.worldOf io served s)).2.ledger.events)) := rfl

theorem exec_ledgerNew {sid : String} : exec (gw.ledgerNew io sid) s =
    match io.ledgerNew with
    | .error e =>
      (.error (.internalError ("Ledger init failed: " ++ (LedgerError.io e).display)),
        s.touch (UnixPath.components (gw.ledgerPath sid)))
    | .ok () =>
      (.ok (gw.ledgerPath sid), (s.touch (UnixPath.components (gw.ledgerPath sid))).setLedger
        (gw.file (UnixPath.components (gw.ledgerPath sid)))
        (some ((s.ledgers (gw.file (UnixPath.components (gw.ledgerPath sid)))).getD []))) := by
  unfold ledgerNew
  cases io.ledgerNew <;> rfl

end Gateway

/-! ## Runs -/

/-- What can happen to a gateway: a call of a session-scoped tool, or a restart. -/
inductive ToolCall where
  | start (req : Gateway.StartRequest)
  | submit (sid : String) (pos : Position) (evidence : ChecklistEvidence) (output : Option Json)
  | getState (sid : String)
  | storeArtifact (sid stepId content : String) (mimeType : Option String)
  | restart

/-- The `session_id` a client sends. -/
def ToolCall.sessionId : ToolCall → Option String
  | .start req => req.sessionId
  | .submit sid _ _ _ | .getState sid | .storeArtifact sid _ _ _ => some sid
  | .restart => none

namespace Gateway

open Effect

variable {F : Type} [DecidableEq F] (gw : Gateway F) (io : Io)

/-- The tool behind a call, its reply dropped; a restart empties the registry. -/
def tool : ToolCall → Tool F Unit
  | .start req => do let _ ← gw.protocolStart io req
  | .submit sid pos evidence output => do
    let _ ← gw.protocolSubmitMilestone io sid pos evidence output
  | .getState sid => do let _ ← gw.protocolGetState io sid
  | .storeArtifact sid stepId content mimeType => do
    let _ ← gw.protocolStoreArtifact io sid stepId content mimeType
  | .restart => modify fun s => { s with registry := fun _ => none }

/-- One call: its result, and the server afterwards. -/
def serve (call : ToolCall) (s : ProtocolServer F) : Except ErrorData Unit × ProtocolServer F :=
  exec (gw.tool io call) { s with opened := [] }

/-- The server after a call. -/
def after (s : ProtocolServer F) (x : Io × ToolCall) : ProtocolServer F := (gw.serve x.1 x.2 s).2

end Gateway

/-- A process that has just started: nothing is in its registry. -/
def ProtocolServer.Fresh {F : Type} (s : ProtocolServer F) : Prop := ∀ sid, s.registry sid = none

/-! ## A gateway of one profile

Every profile file parses as the one-macro sample, and everything works. -/

namespace Sample

def gateway : Gateway (List Component) where
  vendor := vendor
  yaml _ := .ok (profile [checklist])
  ledgerDir := "./ledger"
  artifactRoot := "."
  outputBase := "."
  profilesDir := none
  manifestStrict := false
  file := id

def io : Io where
  uuid := "67e55044-10b1-426f-9247-bb680e5fe0c8"
  host := host
  appends _ := .ok ()
  createDirAll := .ok ()
  claim := .ok ()
  ledgerNew := .ok ()
  removeFile := .ok ()
  readSidecar _ := some (.ok ⟨"sample.yaml"⟩)
  writeSidecar := .ok ()
  canonicalize := .ok
  load _ := .ok []
  hash _ := .ok []
  replay := .ok ()

def server : ProtocolServer (List Component) := ⟨fun _ => none, fun _ => none, []⟩

end Sample

end ProtocolEnforcer
