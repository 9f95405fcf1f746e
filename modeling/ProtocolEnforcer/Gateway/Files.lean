import ProtocolEnforcer.Core.Disk
import ProtocolEnforcer.Fsm.Writes
import ProtocolEnforcer.Gateway.Server

/-!
# The files behind the gateway (`crates/gateway/src/{server,recovery,paths}.rs`)

The tools of `Gateway.Server` with the writes they make: each is the tool of that name,
statement by statement, over the server and the list of writes so far. What the
listing adds does not act back, so on the server the tools here are the tools there.
-/

namespace ProtocolEnforcer

open Effect

/-- A gateway, and how its ledgers' events are written. -/
structure FileGateway (F : Type) extends Gateway F where
  json : SerdeJson FsmEvent

/-- What the outside answers during one call, and what its failing writes leave. -/
structure FileIo extends Io where
  /-- Of the line whose append failed. -/
  tornLine : Bytes
  /-- In a file that `std::fs::write` failed on, if it is no longer as it was. -/
  tornFile : Option Bytes

/-- A gateway process, and the writes of the current call. -/
structure Logged (F : Type) where
  server : ProtocolServer F
  writes : List (FileWrite F)

/-- A piece of a tool call that writes. -/
abbrev FileTool (F α : Type) := Effect (Logged F) ErrorData α

namespace FileTool

variable {F α : Type}

/-- A piece that writes nothing. -/
def onServer (x : Tool F α) : FileTool F α := do
  let (result, server) ← reads fun l : Logged F => exec x l.server
  modify fun l => { l with server }
  lift result

def log (writes : List (FileWrite F)) : FileTool F Unit :=
  modify fun l => { l with writes := l.writes ++ writes }

@[simp] theorem exec_onServer (x : Tool F α) (l : Logged F) :
    exec (onServer x) l = ((exec x l.server).1, { l with server := (exec x l.server).2 }) := by
  rw [onServer, exec_bind_ok (exec_reads _ _), exec_bind_ok (exec_modify _ _), exec_lift]

/-- A piece that writes nothing is read on the server. -/
theorem onServer_triple {P R : Logged F → Prop} {Q : α → Logged F → Prop} {x : Tool F α}
    (h : ∀ ws, Triple (fun s => P ⟨s, ws⟩) x (fun a s => Q a ⟨s, ws⟩) fun s => R ⟨s, ws⟩) :
    Triple P (onServer x) Q R := by
  intro l hl
  rw [exec_onServer]
  have hx := h l.writes l.server hl
  split at hx
  · rename_i heq
    rw [heq]
    exact hx
  · rename_i heq
    rw [heq]
    exact hx

theorem onServer_projects (x : Tool F α) : Projects Logged.server id (onServer x) x := by
  intro l
  rw [exec_onServer]
  cases (exec x l.server).1 <;> exact ⟨rfl, rfl⟩

/-- A write is not seen on the server. -/
theorem log_bind {β : Type} {v : α → β} {ws : List (FileWrite F)} {x : FileTool F α}
    {y : Tool F β} (h : Projects Logged.server v x y) :
    Projects Logged.server v (log ws >>= fun _ => x) y :=
  .bind_unseen (fun _ => rfl) h

theorem onServer_log {x : Tool F α} {ws : α → List (FileWrite F)} :
    Projects Logged.server id (onServer x >>= fun a => log (ws a) >>= fun _ => pure a) x := by
  have h : Projects Logged.server id (onServer x >>= fun a => log (ws a) >>= fun _ => pure a)
    (x >>= pure) := (onServer_projects x).bind fun _ => log_bind .pure
  rwa [bind_pure] at h

theorem log_projects {ws : List (FileWrite F)} :
    Projects Logged.server id (log ws) (pure ⟨⟩ : Tool F PUnit) := fun _ => ⟨rfl, rfl⟩

/-- What follows a piece may be writes only. -/
theorem onServer_bind {x : Tool F PUnit} {y : FileTool F PUnit}
    (h : Projects Logged.server id y (pure ⟨⟩ : Tool F PUnit)) :
    Projects Logged.server id (onServer x >>= fun _ => y) x := by
  have hbind : Projects Logged.server id (onServer x >>= fun _ => y) (x >>= pure) :=
    (onServer_projects x).bind fun _ => h
  rwa [bind_pure] at hbind

end FileTool

namespace FileGateway

open FileTool

variable {F : Type} (gw : FileGateway F)

/-- The bytes of one event in the ledger. -/
def lineOf (event : FsmEvent) : Bytes :=
  match gw.json.toString event with
  | .ok text => bytesOf text ++ [newline]
  | .error _ => []

/-- The file at a path. -/
def fileAt (path : String) : F := gw.file (UnixPath.components path)

def ledgerFile (sid : String) : F := gw.fileAt (gw.ledgerPath sid)

def sidecarFile (sid : String) : F := gw.fileAt (gw.sidecarPath sid)

def sidecarTmpFile (sid : String) : F := gw.fileAt (gw.sidecarTmpPath sid)

variable (io : FileIo)

/-- `std::fs::write`. -/
def fsWrite (result : Except String Unit) (file : F) (bytes : Bytes) : List (FileWrite F) :=
  match result, io.tornFile with
  | .ok (), _ => [.overwrite file bytes]
  | .error _, some left => [.overwrite file left]
  | .error _, none => []

/-- What an operation of a served engine appends; an append that fails is its last. -/
def appended {α : Type} (served : Served) (op : Effect (World SessionLedger) FsmError α)
    (s : ProtocolServer F) : List (FileWrite F) :=
  let before := gw.worldOf io.toIo served s
  let after := (exec op before).2
  let events := after.ledger.events.drop before.ledger.events.length
  events.map (fun e => .append (gw.fileAt served.path) (gw.lineOf e)) ++
    if after.ledger.attempts > events.length then [.append (gw.fileAt served.path) io.tornLine]
    else []

variable [DecidableEq F]

/-- `Ledger::new` opens its file with `create` and `append`. -/
def ledgerNew (sid : String) : FileTool F String := do
  let path ← onServer (gw.toGateway.ledgerNew io.toIo sid)
  log [.create (gw.fileAt path)]
  return path

/-- An operation of a served engine: the files `before` its appends, and these. -/
def operate {α : Type} (served : Served) (before : List (FileWrite F))
    (op : Effect (World SessionLedger) FsmError α) : FileTool F (Except FsmError α × Served) := do
  let s ← reads (·.server)
  let result ← onServer (gw.toGateway.operate io.toIo served op)
  log (before ++ gw.appended io served op s)
  return result

/-- An operation always returns; what it made of it is in the result. -/
theorem exec_operate {α : Type} (served : Served) (before : List (FileWrite F))
    (op : Effect (World SessionLedger) FsmError α) (l : Logged F) :
    exec (gw.operate io served before op) l =
      (.ok ((exec op (gw.worldOf io.toIo served l.server)).1,
        { served with sessions := (exec op (gw.worldOf io.toIo served l.server)).2.sessions }),
        ⟨l.server.setLedger (gw.fileAt served.path)
          (some (exec op (gw.worldOf io.toIo served l.server)).2.ledger.events),
          l.writes ++ (before ++ gw.appended io served op l.server)⟩) := rfl

/-- `recover_into_cache`. -/
def recoverIntoCache (sid : String) : FileTool F Served := do
  modify fun l => { l with server := l.server.touch (UnixPath.components (gw.sidecarPath sid)) }
  let sidecar ← lift (match io.readSidecar (UnixPath.components (gw.sidecarPath sid)) with
    | none => .error (.fsm (.sessionNotFound sid))
    | some (.error e) => .error (.internalError ("Corrupt crash-recovery sidecar: " ++ e))
    | some (.ok sidecar) => .ok sidecar)
  let profile ← lift (gw.loadValid io.toIo sidecar.manifestPath)
  let path ← gw.ledgerNew io sid
  let engine := ProfileFsmEngine.new gw.vendor profile
    (gw.configFor io.toIo profile sidecar.manifestPath)
  onServer do
    modify (·.touch (Gateway.replayPath path sid))
    lift (io.replay.mapError fun e => .fsm (.ledger e))
    let events ← reads fun s => (s.ledgers (gw.file (Gateway.replayPath path sid))).getD []
    let w : World SessionLedger := ⟨⟨events, io.appends, 0⟩, fun _ => none, 0⟩
    let (result, w) := exec (engine.recoverSession sid) w
    let _ ← lift (result.mapError .fsm)
    return ⟨engine, w.sessions, path⟩

/-- `get_or_recover`. -/
def getOrRecover (sid : String) : FileTool F Served := do
  let sessions ← reads (·.server.registry)
  match sessions sid with
  | some served => return served
  | none =>
    let recovered ← gw.recoverIntoCache io sid
    onServer (modify (·.install sid recovered))
    return recovered

/-- The blocking part of `protocol_start`, with the sidecar's contents. -/
def launchSession (sid manifestPath : String) (wasName : Bool) (initialContext : Option Json) :
    FileTool F ((Served × StepView) × Json) := do
  let loadPath ← lift (gw.resolveLoadPath io.toIo manifestPath wasName)
  let profile ← lift (gw.loadValid io.toIo loadPath)
  let path ← gw.ledgerNew io sid
  let engine := ProfileFsmEngine.new gw.vendor profile (gw.configFor io.toIo profile loadPath)
  let (view, served) ← gw.operate io ⟨engine, fun _ => none, path⟩ []
    (engine.startSession io.host sid initialContext)
  let view ← lift (view.mapError .fsm)
  return ((served, view),
    .object [("manifest_path", .string loadPath), ("version", .string profile.version)])

/-- `std::fs::remove_file(ledger_path(..))`. -/
def removeLedger (sid : String) : FileTool F Unit := do
  onServer (gw.toGateway.removeLedger io.toIo sid)
  match io.removeFile with
  | .ok () => log [.remove (gw.ledgerFile sid)]
  | .error _ => return ()

/-- `write_sidecar_atomic`. -/
def writeSidecarAtomic (sid : String) (contents : Json) : FileTool F Unit := do
  onServer (gw.toGateway.writeSidecarAtomic io.toIo sid)
  log (fsWrite io io.writeSidecar (gw.sidecarTmpFile sid)
    (bytesOf (gw.vendor.toStringPretty contents)))
  match io.writeSidecar with
  | .ok () => log [.rename (gw.sidecarTmpFile sid) (gw.sidecarFile sid)]
  | .error _ => return ()

/-- The claim of the ledger file with `create_new`. -/
def claimLedger (sid : String) : FileTool F Unit := do
  onServer (gw.toGateway.claimLedger io.toIo sid)
  log [.create (gw.ledgerFile sid)]

/-- `protocol_start` behind its checks. -/
def startClaimed (sid manifestPath : String) (wasName : Bool) (initialContext : Option Json) :
    FileTool F StepView := do
  lift (io.createDirAll.mapError fun e => .internalError ("Failed to create ledger dir: " ++ e))
  gw.claimLedger io sid
  let ((served, view), contents) ←
    tryCatch (gw.launchSession io sid manifestPath wasName initialContext) (fun e => do
      gw.removeLedger io sid
      throw e)
  onServer (modify (·.install sid served))
  gw.writeSidecarAtomic io sid contents
  return view

/-- `protocol_start`. -/
def protocolStart (req : Gateway.StartRequest) : FileTool F (String × StepView) := do
  if (UnixPath.components req.manifestPath).contains .parentDir then
    throw (.invalidParams "manifest_path must not contain '..' path components")
  else do
    lift (req.sessionId.elim (.ok ()) validateSessionId)
    let sid := req.sessionId.getD io.uuid
    let sessions ← reads (·.server.registry)
    if (sessions sid).isSome then
      throw (.invalidParams ("Session '" ++ sid ++ "' already exists"))
    else do
      let (manifestPath, wasName) := gw.resolveManifestReference req.manifestPath
      if !wasName && gw.manifestStrict then
        throw (.invalidParams
          "manifest_path must be a bare profile name when PROTOCOL_MANIFEST_STRICT is set")
      else do
        let view ← gw.startClaimed io sid manifestPath wasName req.initialContext
        return (sid, view)

/-- The deliverable a submission to a served engine writes. -/
def deliverable (served : Served) (sid : String) (pos : Position) (evidence : ChecklistEvidence)
    (output : Option Json) : List (FileWrite F) :=
  match served.engine.submissionWrite io.host sid (served.sessions sid) (io.host.clock 0) pos
    evidence output with
  | none => []
  | some (confined, bytes) =>
    fsWrite io (io.host.write (UnixPath.render confined)) (gw.file confined) bytes

/-- The blob an offloaded artifact is written to. -/
def blob (served : Served) (sid stepId : String) (data : Bytes) : List (FileWrite F) :=
  match served.engine.artifactWrite io.host sid (served.sessions sid) stepId with
  | none => []
  | some path => fsWrite io (io.host.artifacts.writeFile path) (gw.fileAt path) data

/-- `protocol_submit_milestone`. -/
def protocolSubmitMilestone (sid : String) (pos : Position) (evidence : ChecklistEvidence)
    (output : Option Json) : FileTool F StepOutcome := do
  let served ← gw.getOrRecover io sid
  let (outcome, served) ← gw.operate io served
    (gw.deliverable io served sid pos evidence output)
    (served.engine.submitMilestone io.host sid pos evidence output)
  onServer do
    modify (·.install sid served)
    let outcome ← lift (outcome.mapError .fsm)
    match outcome with
    | .completed _ => do
      modify (·.touch (UnixPath.components (gw.ledgerPath sid)))
      return outcome
    | _ => return outcome

/-- `protocol_get_state`. -/
def protocolGetState (sid : String) :
    FileTool F (SessionStatus × Option Position × List FsmEvent) := do
  let served ← gw.getOrRecover io sid
  onServer do
    let state ← lift ((served.sessions sid).elim (.error (.fsm (.sessionNotFound sid))) .ok)
    modify (·.touch (UnixPath.components (gw.ledgerPath sid)))
    lift (io.replay.mapError fun e => .internalError ("Ledger replay failed: " ++ e.display))
    let events ← reads fun s =>
      (s.ledgers (gw.file (UnixPath.components (gw.ledgerPath sid)))).getD []
    return (state.status, state.position,
      events.drop (events.length - Gateway.ledgerTailLen))

/-- `protocol_store_artifact`. -/
def protocolStoreArtifact (sid stepId : String) (content : String) (mimeType : Option String) :
    FileTool F ArtifactRef := do
  let served ← gw.getOrRecover io sid
  let (artifactRef, served) ← gw.operate io served
    (gw.blob io served sid stepId (bytesOf content))
    (served.engine.storeArtifact io.host sid stepId (bytesOf content) (mimeType.getD "text/plain"))
  onServer do
    modify (·.install sid served)
    lift (artifactRef.mapError .fsm)

/-- The tool behind a call. -/
def tool : ToolCall → FileTool F Unit
  | .start req => do let _ ← gw.protocolStart io req
  | .submit sid pos evidence output => do
    let _ ← gw.protocolSubmitMilestone io sid pos evidence output
  | .getState sid => do let _ ← gw.protocolGetState io sid
  | .storeArtifact sid stepId content mimeType => do
    let _ ← gw.protocolStoreArtifact io sid stepId content mimeType
  | .restart => onServer (modify fun s => { s with registry := fun _ => none })

end FileGateway

/-! ## On the server, the tools of the gateway -/

namespace FileGateway

open FileTool

variable {F : Type} [DecidableEq F] {gw : FileGateway F} {io : FileIo} {sid : String}

theorem ledgerNew_projects :
    Projects Logged.server id (gw.ledgerNew io sid) (gw.toGateway.ledgerNew io.toIo sid) :=
  onServer_log

theorem operate_projects {α : Type} {served : Served} {before : List (FileWrite F)}
    {op : Effect (World SessionLedger) FsmError α} :
    Projects Logged.server id (gw.operate io served before op)
      (gw.toGateway.operate io.toIo served op) :=
  .bind_reads fun _ => onServer_log

theorem recoverIntoCache_projects :
    Projects Logged.server id (gw.recoverIntoCache io sid)
      (gw.toGateway.recoverIntoCache io.toIo sid) := by
  unfold recoverIntoCache Gateway.recoverIntoCache
  refine .bind (.modified fun _ => rfl) fun _ => .bind .lift fun sidecar => .bind .lift
    fun profile => .bind ledgerNew_projects fun path => ?_
  exact onServer_projects _

theorem getOrRecover_projects :
    Projects Logged.server id (gw.getOrRecover io sid)
      (gw.toGateway.getOrRecover io.toIo sid) := by
  unfold getOrRecover Gateway.getOrRecover
  refine .bind .reads fun sessions => ?_
  dsimp only [id]
  cases sessions sid with
  | some served => exact .pure
  | none =>
    exact .bind recoverIntoCache_projects fun _ => .bind (onServer_projects _) fun _ => .pure

theorem launchSession_projects {manifestPath : String} {wasName : Bool}
    {initialContext : Option Json} :
    Projects Logged.server Prod.fst (gw.launchSession io sid manifestPath wasName initialContext)
      (gw.toGateway.launchSession io.toIo sid manifestPath wasName initialContext) := by
  unfold launchSession Gateway.launchSession
  refine .bind .lift fun loadPath => .bind .lift fun profile => .bind ledgerNew_projects
    fun path => .bind operate_projects fun r => .bind .lift fun view => .pure

theorem removeLedger_projects :
    Projects Logged.server id (gw.removeLedger io sid)
      (gw.toGateway.removeLedger io.toIo sid) := by
  refine onServer_bind ?_
  split
  · exact log_projects
  · exact .pure

omit [DecidableEq F] in
theorem writeSidecarAtomic_projects {contents : Json} :
    Projects Logged.server id (gw.writeSidecarAtomic io sid contents)
      (gw.toGateway.writeSidecarAtomic io.toIo sid) := by
  refine onServer_bind (log_bind ?_)
  split
  · exact log_projects
  · exact .pure

theorem claimLedger_projects :
    Projects Logged.server id (gw.claimLedger io sid)
      (gw.toGateway.claimLedger io.toIo sid) :=
  onServer_bind log_projects

theorem startClaimed_projects {manifestPath : String} {wasName : Bool}
    {initialContext : Option Json} :
    Projects Logged.server id (gw.startClaimed io sid manifestPath wasName initialContext)
      (gw.toGateway.startClaimed io.toIo sid manifestPath wasName initialContext) := by
  unfold startClaimed Gateway.startClaimed
  refine .bind .lift fun _ => .bind claimLedger_projects fun _ => .bind
    (.tryCatch launchSession_projects fun e => .bind removeLedger_projects fun _ => .throw)
    fun r => .bind (onServer_projects _) fun _ => .bind writeSidecarAtomic_projects fun _ => .pure

theorem protocolStart_projects {req : Gateway.StartRequest} :
    Projects Logged.server id (gw.protocolStart io req)
      (gw.toGateway.protocolStart io.toIo req) := by
  unfold protocolStart Gateway.protocolStart
  split
  · exact .throw
  refine .bind .lift fun _ => .bind .reads fun sessions => ?_
  dsimp only [id]
  split
  · exact .throw
  split
  · exact .throw
  exact .bind startClaimed_projects fun _ => .pure

theorem protocolSubmitMilestone_projects {pos : Position} {evidence : ChecklistEvidence}
    {output : Option Json} :
    Projects Logged.server id (gw.protocolSubmitMilestone io sid pos evidence output)
      (gw.toGateway.protocolSubmitMilestone io.toIo sid pos evidence output) :=
  .bind getOrRecover_projects fun _ => .bind operate_projects fun _ => onServer_projects _

theorem protocolGetState_projects :
    Projects Logged.server id (gw.protocolGetState io sid)
      (gw.toGateway.protocolGetState io.toIo sid) :=
  .bind getOrRecover_projects fun _ => onServer_projects _

theorem protocolStoreArtifact_projects {stepId content : String} {mimeType : Option String} :
    Projects Logged.server id (gw.protocolStoreArtifact io sid stepId content mimeType)
      (gw.toGateway.protocolStoreArtifact io.toIo sid stepId content mimeType) :=
  .bind getOrRecover_projects fun _ => .bind operate_projects fun _ => onServer_projects _

/-- **On the server a call is the gateway's.** -/
theorem tool_projects {call : ToolCall} :
    Projects Logged.server id (gw.tool io call) (gw.toGateway.tool io.toIo call) := by
  cases call with
  | start => exact .bind protocolStart_projects fun _ => .pure
  | submit => exact .bind protocolSubmitMilestone_projects fun _ => .pure
  | getState => exact .bind protocolGetState_projects fun _ => .pure
  | storeArtifact => exact .bind protocolStoreArtifact_projects fun _ => .pure
  | restart => exact onServer_projects _

end FileGateway

/-! ## Runs -/

/-- A gateway process and the disk it works on. -/
structure Machine (F : Type) where
  server : ProtocolServer F
  disk : Disk F

namespace FileGateway

variable {F : Type} [DecidableEq F] (gw : FileGateway F)

/-- One call: its result, and the server and the writes afterwards. -/
def serve (m : Machine F) (x : FileIo × ToolCall) : Except ErrorData Unit × Logged F :=
  exec (gw.tool x.1 x.2) ⟨{ m.server with opened := [] }, []⟩

/-- What a call writes, in order. -/
def writes (m : Machine F) (x : FileIo × ToolCall) : List (FileWrite F) := (gw.serve m x).2.writes

/-- The machine after a call. -/
def after (m : Machine F) (x : FileIo × ToolCall) : Machine F :=
  ⟨(gw.serve m x).2.server, FileWrite.applyAll m.disk (gw.writes m x)⟩

/-- **The machine's server is the gateway's**, call by call. -/
theorem after_server (m : Machine F) (x : FileIo × ToolCall) :
    (gw.after m x).server = gw.toGateway.after m.server (x.1.toIo, x.2) :=
  (tool_projects _).2

end FileGateway

end ProtocolEnforcer
