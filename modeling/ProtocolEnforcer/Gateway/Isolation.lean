import ProtocolEnforcer.Core.Runs
import ProtocolEnforcer.Gateway.SessionFiles

/-!
# One gateway, many sessions

A call reads and writes one entry of the registry and the files of one session; only the
deliverable of a submission goes where the profile says. So a session sees nothing of the
others, as long as none of them has its deliverable on one of the session's files: leaving
out the calls on the other sessions changes neither what the session is answered nor what
becomes of it and its files, over restarts. What the outside answers to a call may depend on
what the files hold, for a call on the session on its own files only.
-/

namespace ProtocolEnforcer

open Effect FileTool

/-- What a tool answers. -/
inductive ToolAnswer where
  | started (sid : String) (view : StepView)
  | stepped (outcome : StepOutcome)
  | state (status : SessionStatus) (position : Option Position) (ledgerTail : List FsmEvent)
  | stored (artifactRef : ArtifactRef)
  | restarted

/-- A tool call, and what the outside answers during it over the files as they are then. -/
structure FileCall (F : Type) where
  call : ToolCall
  io : Disk F → FileIo
  /-- `Uuid::new_v4`, for a start that names no session. -/
  uuid : String
  minted : ∀ d, (io d).uuid = uuid

namespace FileCall

variable {F : Type} (x : FileCall F)

/-- The call over one disk. -/
def onDisk (d : Disk F) : FileIo × ToolCall := (x.io d, x.call)

/-- The session a call is on; a restart is on none. -/
def addressee : Option String :=
  match x.call with
  | .start req => some (req.sessionId.getD x.uuid)
  | .submit sid _ _ _ | .getState sid | .storeArtifact sid _ _ _ => some sid
  | .restart => none

/-- The session's calls are those on it, and the restarts. -/
def concerns (sid : String) : Bool := x.addressee.all (· == sid)

/-- What the outside answers depends on none but these files. -/
def Reads (own : F → Prop) : Prop := ∀ d d', (∀ f, own f → d f = d' f) → x.io d = x.io d'

end FileCall

namespace FileGateway

/-! ## What a call answers and leaves -/

section

variable {F : Type} [DecidableEq F] (gw : FileGateway F)

/-- The tool behind a call, with its reply. -/
def respond (io : FileIo) : ToolCall → FileTool F ToolAnswer
  | .start req => (fun r => .started r.1 r.2) <$> gw.protocolStart io req
  | .submit sid pos evidence output =>
    .stepped <$> gw.protocolSubmitMilestone io sid pos evidence output
  | .getState sid => (fun r => .state r.1 r.2.1 r.2.2) <$> gw.protocolGetState io sid
  | .storeArtifact sid stepId content mimeType =>
    .stored <$> gw.protocolStoreArtifact io sid stepId content mimeType
  | .restart => (fun _ => .restarted) <$> gw.tool io .restart

variable (m : Machine F) (x : FileCall F)

/-- What a call answers. -/
def answered : Except ErrorData ToolAnswer :=
  (exec (gw.respond (x.io m.disk) x.call) ⟨{ m.server with opened := [] }, []⟩).1

/-- The machine after a call over its disk. -/
def afterCall : Machine F := gw.after m (x.onDisk m.disk)

/-- What a session is answered in a run. -/
def transcript (sid : String) (m : Machine F) : List (FileCall F) → List (Except ErrorData ToolAnswer)
  | [] => []
  | x :: xs =>
    if x.concerns sid then gw.answered m x :: transcript sid (gw.afterCall m x) xs
    else transcript sid (gw.afterCall m x) xs

/-- A submission to another session that comes to write a deliverable writes it on none of
these files. -/
def SparesOwn (sid : String) (own : F → Prop) (m : Machine F) (x : FileCall F) : Prop :=
  ∀ sid' pos evidence output, x.call = .submit sid' pos evidence output → sid' ≠ sid →
    ∀ served, gw.lookUp (x.io m.disk) m.server sid' = some served →
      ∀ w ∈ gw.deliverable (x.io m.disk) served sid' pos evidence output, ∀ f ∈ w.files, ¬own f

variable {gw m x}

/-- With its reply or without, a tool leaves the same. -/
theorem respond_serve {io : FileIo} {call : ToolCall} :
    (exec (gw.respond io call) ⟨{ m.server with opened := [] }, []⟩).2 =
      (gw.serve m (io, call)).2 := by
  unfold serve
  cases call with
  | restart => rfl
  | start | submit | getState | storeArtifact =>
    refine Eq.trans ?_ (exec_drop _ () _).symm
    unfold respond
    rw [exec_map]

end

/-! ## A call on the session -/

section

variable {F : Type} (gw : FileGateway F) (sid : String) (own : F → Prop)

/-- Two servers that the session cannot tell apart. -/
structure Agrees (s t : ProtocolServer F) : Prop where
  housed : gw.AllHoused s
  housed' : gw.AllHoused t
  entry : s.registry sid = t.registry sid
  ledgers : ∀ f, own f → s.ledgers f = t.ledgers f

/-- Two moments of a call on the session. -/
structure InStep (l l' : Logged F) : Prop where
  server : gw.Agrees sid own l.server l'.server
  writes : l.writes = l'.writes
  sources : ∀ w ∈ l.writes, ∀ f, w.source = some f → own f

variable {gw sid own} {s t : ProtocolServer F} {l l' : Logged F} {served : Served} {io : FileIo}

theorem Agrees.touch (h : gw.Agrees sid own s t) (p q : List Component) :
    gw.Agrees sid own (s.touch p) (t.touch q) := ⟨h.housed, h.housed', h.entry, h.ledgers⟩

theorem Agrees.install (h : gw.Agrees sid own s t) (hserved : gw.Housed sid served) :
    gw.Agrees sid own (s.install sid served) (t.install sid served) where
  housed := h.housed.install hserved
  housed' := h.housed'.install hserved
  entry := by
    dsimp only [ProtocolServer.install]
    rw [Function.update_self, Function.update_self]
  ledgers := h.ledgers

theorem Agrees.setLedger [DecidableEq F] {f : F} {events : Option (List FsmEvent)}
    (h : gw.Agrees sid own s t) :
    gw.Agrees sid own (s.setLedger f events) (t.setLedger f events) where
  housed := h.housed
  housed' := h.housed'
  entry := h.entry
  ledgers f' hf' := by
    dsimp only [ProtocolServer.setLedger]
    by_cases heq : f' = f
    · rw [heq, Function.update_self, Function.update_self]
    · rw [Function.update_of_ne heq, Function.update_of_ne heq]
      exact h.ledgers f' hf'

/-- Its ledger is the same. -/
theorem Agrees.ledger (h : gw.Agrees sid own s t) (hown : gw.Private sid own) :
    s.ledgers (gw.file (UnixPath.components (gw.ledgerPath sid))) =
      t.ledgers (gw.file (UnixPath.components (gw.ledgerPath sid))) :=
  h.ledgers _ (hown.kept _ .ledger)

theorem onServer_matches {α : Type} {x : Tool F α} (h : Matches (gw.Agrees sid own) x x) :
    Matches (gw.InStep sid own) (onServer x) (onServer x) := by
  intro l l' hl
  rw [exec_onServer, exec_onServer]
  exact ⟨(h _ _ hl.server).1, (h _ _ hl.server).2, hl.writes, hl.sources⟩

theorem log_matches {ws : List (FileWrite F)} (hws : ∀ w ∈ ws, ∀ f, w.source = some f → own f) :
    Matches (gw.InStep sid own) (log ws) (log ws) :=
  .modified fun _ _ h => ⟨h.server, congrArg (· ++ ws) h.writes, fun w hw =>
    (List.mem_append.mp hw).elim (h.sources w) (hws w)⟩

theorem install_matches (hserved : gw.Housed sid served) :
    Matches (gw.Agrees sid own) (modify (·.install sid served) : Tool F PUnit)
      (modify (·.install sid served)) := .modified fun _ _ h => h.install hserved

variable [DecidableEq F]

theorem ledgerNew_matches (hown : gw.Private sid own) :
    Matches (gw.InStep sid own) (gw.ledgerNew io sid) (gw.ledgerNew io sid) := by
  refine .bind (onServer_matches ?_) fun path =>
    .bind (log_matches (List.forall_mem_singleton.mpr nofun)) fun _ => .pure
  unfold Gateway.ledgerNew
  refine .bind (.modified fun _ _ h => h.touch _ _) fun _ => .bind .lift fun _ => ?_
  refine .bind (fun s t h => ?_) fun _ => .pure
  rw [exec_modify, exec_modify, h.ledger hown]
  exact ⟨rfl, h.setLedger⟩

/-- An operation of the session's engine meets the same events. -/
theorem operate_matches {α : Type} {before : List (FileWrite F)}
    {op : Effect (World SessionLedger) FsmError α} (hown : gw.Private sid own)
    (hserved : gw.Housed sid served) (hbefore : ∀ w ∈ before, w.source = none) : Matches (gw.InStep sid own)
      (gw.operate io served before op) (gw.operate io served before op) := by
  intro l l' h
  have hworld : gw.worldOf io.toIo served l.server = gw.worldOf io.toIo served l'.server := by
    rw [Gateway.worldOf, Gateway.worldOf, hserved.path, h.server.ledger hown]
  have happended : gw.appended io served op l.server = gw.appended io served op l'.server := by
    rw [appended, appended, hworld]
  rw [exec_operate, exec_operate, hworld, happended]
  refine ⟨rfl, h.server.setLedger, congrArg (· ++ _) h.writes, fun w hw f hf => ?_⟩
  rcases List.mem_append.mp hw with hw | hw
  · exact h.sources w hw f hf
  rcases List.mem_append.mp hw with hw | hw
  · rw [hbefore w hw] at hf
    cases hf
  · obtain ⟨bytes, rfl⟩ := mem_appended hw
    cases hf

theorem recoverIntoCache_matches (hown : gw.Private sid own) : Matches (gw.InStep sid own)
    (gw.recoverIntoCache io sid) (gw.recoverIntoCache io sid) := by
  unfold recoverIntoCache
  refine .bind (.modified fun _ _ h => ⟨h.server.touch _ _, h.writes, h.sources⟩) fun _ => ?_
  refine .bind .lift fun sidecar => .bind .lift fun profile => ?_
  refine .bind_of (ledgerNew_matches hown) (fun _ _ _ _ => ledgerNew_path.of_ok trivial) ?_
  rintro path rfl
  refine onServer_matches ?_
  refine .bind (.modified fun _ _ h => h.touch _ _) fun _ => .bind .lift fun _ => ?_
  refine .bind (.reads fun s t h => ?_) fun events => .bind .lift fun _ => .pure
  rw [replayFile_eq hown.listed, h.ledgers _ (hown.kept _ .ledger)]

theorem getOrRecover_matches (hown : gw.Private sid own) : Matches (gw.InStep sid own)
    (gw.getOrRecover io sid) (gw.getOrRecover io sid) := by
  intro l l' h
  unfold getOrRecover
  rw [exec_bind_ok (exec_reads _ _), exec_bind_ok (exec_reads _ _), h.server.entry]
  cases l'.server.registry sid with
  | some served => exact ⟨rfl, h⟩
  | none =>
    refine Matches.bind_of (recoverIntoCache_matches hown)
      (fun _ _ _ _ => recoverIntoCache_housed.of_ok trivial) (fun served hserved => ?_) l l' h
    exact .bind (onServer_matches (install_matches hserved)) fun _ => .pure

theorem launchSession_matches {manifestPath : String} {wasName : Bool} {ctx : Option Json}
    (hown : gw.Private sid own) : Matches (gw.InStep sid own)
      (gw.launchSession io sid manifestPath wasName ctx)
      (gw.launchSession io sid manifestPath wasName ctx) := by
  unfold launchSession
  refine .bind .lift fun loadPath => .bind .lift fun profile => ?_
  refine .bind_of (ledgerNew_matches hown) (fun _ _ _ _ => ledgerNew_path.of_ok trivial)
    fun path hpath => ?_
  exact .bind (operate_matches hown ⟨hpath, rfl⟩ nofun) fun _ => .bind .lift fun _ => .pure

theorem removeLedger_matches :
    Matches (gw.InStep sid own) (gw.removeLedger io sid) (gw.removeLedger io sid) := by
  unfold removeLedger
  refine .bind (onServer_matches ?_) fun _ => ?_
  · unfold Gateway.removeLedger
    refine .bind (.modified fun _ _ h => h.touch _ _) fun _ => ?_
    split
    · exact .modified fun _ _ h => h.setLedger
    · exact .pure
  · cases io.removeFile with
    | ok _ => exact log_matches (List.forall_mem_singleton.mpr nofun)
    | error _ => exact .pure

omit [DecidableEq F] in
/-- No deliverable is moved there from another file, -/
theorem deliverable_source {pos : Position} {evidence : ChecklistEvidence} {output : Option Json} :
    ∀ w ∈ gw.deliverable io served sid pos evidence output, w.source = none := by
  intro w hw
  unfold deliverable at hw
  split at hw
  · cases hw
  · obtain ⟨left, rfl⟩ := mem_fsWrite hw
    rfl

omit [DecidableEq F] in
/-- nor is a blob. -/
theorem blob_source {stepId : String} {data : Bytes} :
    ∀ w ∈ gw.blob io served sid stepId data, w.source = none := by
  intro w hw
  unfold blob at hw
  split at hw
  · cases hw
  · obtain ⟨left, rfl⟩ := mem_fsWrite hw
    rfl

omit [DecidableEq F] in
theorem writeSidecarAtomic_matches {contents : Json} (hown : gw.Private sid own) :
    Matches (gw.InStep sid own) (gw.writeSidecarAtomic io sid contents)
      (gw.writeSidecarAtomic io sid contents) := by
  unfold writeSidecarAtomic
  refine .bind (onServer_matches ?_) fun _ => .bind (log_matches fun w hw => ?_) fun _ => ?_
  · unfold Gateway.writeSidecarAtomic
    refine .bind (.modified fun _ _ h => h.touch _ _) fun _ => ?_
    split
    · exact .modified fun _ _ h => h.touch _ _
    · exact .pure
  · obtain ⟨left, rfl⟩ := mem_fsWrite hw
    nofun
  · split
    · refine log_matches (List.forall_mem_singleton.mpr fun f hf => ?_)
      cases hf
      exact hown.kept _ .sidecarTmp
    · exact .pure

theorem claimLedger_matches (hown : gw.Private sid own) :
    Matches (gw.InStep sid own) (gw.claimLedger io sid) (gw.claimLedger io sid) := by
  refine .bind (onServer_matches ?_) fun _ => log_matches (List.forall_mem_singleton.mpr nofun)
  unfold Gateway.claimLedger
  refine .bind (.modified fun _ _ h => h.touch _ _) fun _ => ?_
  refine .bind (.reads fun _ _ h => h.ledger hown) fun ledger => ?_
  split
  · exact .throw
  · exact .bind .lift fun _ => .modified fun _ _ h => h.setLedger

theorem startClaimed_matches {manifestPath : String} {wasName : Bool} {ctx : Option Json}
    (hown : gw.Private sid own) : Matches (gw.InStep sid own)
      (gw.startClaimed io sid manifestPath wasName ctx)
      (gw.startClaimed io sid manifestPath wasName ctx) := by
  unfold startClaimed
  refine .bind .lift fun _ => .bind (claimLedger_matches hown) fun _ => ?_
  refine .bind_of (.tryCatch (launchSession_matches hown) fun _ =>
    .bind removeLedger_matches fun _ => .throw)
    (fun _ _ _ _ => launched_housed.of_ok trivial) fun r hserved => ?_
  refine .bind (onServer_matches (install_matches hserved)) fun _ => ?_
  exact .bind (writeSidecarAtomic_matches hown) fun _ => .pure

theorem protocolStart_matches {req : Gateway.StartRequest} (hown : gw.Private sid own)
    (hsid : req.sessionId.getD io.uuid = sid) : Matches (gw.InStep sid own)
      (gw.protocolStart io req) (gw.protocolStart io req) := by
  unfold protocolStart
  split
  · exact .throw
  refine .bind .lift fun _ => ?_
  dsimp only
  rw [hsid]
  intro l l' h
  rw [exec_bind_ok (exec_reads _ _), exec_bind_ok (exec_reads _ _), h.server.entry]
  split
  · exact Matches.throw l l' h
  split
  · exact Matches.throw l l' h
  exact Matches.bind (startClaimed_matches hown) (fun _ => .pure) l l' h

theorem protocolSubmitMilestone_matches {pos : Position} {evidence : ChecklistEvidence}
    {output : Option Json} (hown : gw.Private sid own) : Matches (gw.InStep sid own)
      (gw.protocolSubmitMilestone io sid pos evidence output)
      (gw.protocolSubmitMilestone io sid pos evidence output) := by
  unfold protocolSubmitMilestone
  refine .bind_of (getOrRecover_matches hown)
    (fun _ _ _ h => getOrRecover_housed.of_ok h.server.housed) fun served hserved => ?_
  refine .bind_of (operate_matches hown hserved deliverable_source)
    (fun _ _ _ _ => (operate_housed hserved).of_ok trivial) fun r hr => onServer_matches ?_
  refine .bind (install_matches hr) fun _ => .bind .lift fun out => ?_
  cases out with
  | completed _ => exact .bind (.modified fun _ _ h => h.touch _ _) fun _ => .pure
  | advanced | rejected | loopedBack => exact .pure

theorem protocolGetState_matches (hown : gw.Private sid own) : Matches (gw.InStep sid own)
    (gw.protocolGetState io sid) (gw.protocolGetState io sid) := by
  unfold protocolGetState
  refine .bind (getOrRecover_matches hown) fun served => onServer_matches ?_
  refine .bind .lift fun state => .bind (.modified fun _ _ h => h.touch _ _) fun _ => ?_
  refine .bind .lift fun _ => .bind (.reads fun s t h => ?_) fun _ => .pure
  rw [h.ledger hown]

theorem protocolStoreArtifact_matches {stepId content : String} {mimeType : Option String}
    (hown : gw.Private sid own) : Matches (gw.InStep sid own)
      (gw.protocolStoreArtifact io sid stepId content mimeType)
      (gw.protocolStoreArtifact io sid stepId content mimeType) := by
  unfold protocolStoreArtifact
  refine .bind_of (getOrRecover_matches hown)
    (fun _ _ _ h => getOrRecover_housed.of_ok h.server.housed) fun served hserved => ?_
  refine .bind_of (operate_matches hown hserved blob_source)
    (fun _ _ _ _ => (operate_housed hserved).of_ok trivial) fun r hr => onServer_matches ?_
  exact .bind (install_matches hr) fun _ => .lift

end

/-! ## A call on another session -/

section

variable {F : Type} (gw : FileGateway F) (sid : String) (own : F → Prop)

/-- Another session, none of whose files is the session's. -/
structure Apart (sid' : String) : Prop where
  ne : sid' ≠ sid
  kept : ∀ f, gw.KeptFor sid' f → ¬own f

/-- A moment of a call on another session: the session has noticed nothing. -/
structure Unnoticed (t : ProtocolServer F) (l : Logged F) : Prop where
  server : gw.Agrees sid own l.server t
  writes : ∀ w ∈ l.writes, ∀ f ∈ w.files, ¬own f

variable {gw sid own} {s t : ProtocolServer F} {l : Logged F} {served : Served} {io : FileIo}
  {sid' : String}

theorem Agrees.touch_other (h : gw.Agrees sid own s t) (p : List Component) :
    gw.Agrees sid own (s.touch p) t := ⟨h.housed, h.housed', h.entry, h.ledgers⟩

/-- An entry of another session may change. -/
theorem Agrees.install_other (h : gw.Agrees sid own s t) (apart : gw.Apart sid own sid')
    (hserved : gw.Housed sid' served) : gw.Agrees sid own (s.install sid' served) t where
  housed := h.housed.install hserved
  housed' := h.housed'
  entry := by
    dsimp only [ProtocolServer.install]
    rw [Function.update_of_ne apart.ne.symm]
    exact h.entry
  ledgers := h.ledgers

/-- So may its ledger. -/
theorem Agrees.setLedger_other [DecidableEq F] {events : Option (List FsmEvent)}
    (h : gw.Agrees sid own s t) (apart : gw.Apart sid own sid') : gw.Agrees sid own
      (s.setLedger (gw.file (UnixPath.components (gw.ledgerPath sid'))) events) t where
  housed := h.housed
  housed' := h.housed'
  entry := h.entry
  ledgers f hf := by
    have hne : f ≠ gw.ledgerFile sid' := fun heq => apart.kept _ .ledger (heq ▸ hf)
    exact (Function.update_of_ne hne _ _).trans (h.ledgers f hf)

theorem onServer_keeps {α : Type} {x : Tool F α}
    (h : Keeps (fun s => gw.Agrees sid own s t) x) :
    Keeps (gw.Unnoticed sid own t) (onServer x) := by
  intro l hl
  rw [exec_onServer]
  have hleft : gw.Agrees sid own (exec x l.server).2 t := Triple.ends h hl.server
  cases (exec x l.server).1 with
  | ok _ => exact ⟨hleft, hl.writes⟩
  | error _ => exact ⟨hleft, hl.writes⟩

theorem log_keeps {ws : List (FileWrite F)} (h : ∀ w ∈ ws, ∀ f ∈ w.files, ¬own f) :
    Keeps (gw.Unnoticed sid own t) (log ws) :=
  .modified fun _ hl => ⟨hl.server, fun w hw =>
    (List.mem_append.mp hw).elim (hl.writes w) (h w)⟩

theorem install_keeps (apart : gw.Apart sid own sid') (hserved : gw.Housed sid' served) :
    Keeps (fun s => gw.Agrees sid own s t) (modify (·.install sid' served) : Tool F PUnit) :=
  .modified fun _ h => h.install_other apart hserved

/-- A write on one file that is kept for the other session. -/
theorem Apart.single {f : F} {w : FileWrite F} (apart : gw.Apart sid own sid')
    (hf : gw.KeptFor sid' f) (hw : w.files = [f]) : ∀ w' ∈ [w], ∀ f' ∈ w'.files, ¬own f' := by
  refine List.forall_mem_singleton.mpr fun f' hf' => ?_
  rw [hw, List.mem_singleton] at hf'
  exact hf' ▸ apart.kept f hf

variable [DecidableEq F]

theorem ledgerNew_keeps (apart : gw.Apart sid own sid') :
    Keeps (gw.Unnoticed sid own t) (gw.ledgerNew io sid') := by
  refine .bind_of (V := (· = gw.ledgerPath sid')) (onServer_keeps ?_) (fun l path _ h => ?_)
    fun path hpath => ?_
  · unfold Gateway.ledgerNew
    refine .bind (.modified fun _ h => h.touch_other _) fun _ => .bind .lift fun _ => ?_
    exact .bind (.modified fun _ h => h.setLedger_other apart) fun _ => .pure
  · have hpath : (exec (gw.toGateway.ledgerNew io.toIo sid') l.server).1 = .ok path := by
      rw [← h, exec_onServer]
    rw [Gateway.exec_ledgerNew] at hpath
    split at hpath
    · cases hpath
    · cases hpath
      rfl
  · subst hpath
    exact .bind (log_keeps (apart.single .ledger rfl)) fun _ => .pure

/-- An operation of another session's engine, whose other writes spare the session's files. -/
theorem operate_keeps {α : Type} {before : List (FileWrite F)}
    {op : Effect (World SessionLedger) FsmError α} (apart : gw.Apart sid own sid')
    (hserved : gw.Housed sid' served) (hbefore : ∀ w ∈ before, ∀ f ∈ w.files, ¬own f) :
    Keeps (gw.Unnoticed sid own t) (gw.operate io served before op) := by
  have hfile : gw.fileAt served.path = gw.ledgerFile sid' := by rw [hserved.path, ledgerFile]
  intro l h
  rw [exec_operate]
  refine ⟨?_, fun w hw f hf => ?_⟩
  · rw [hfile]
    exact h.server.setLedger_other apart
  rcases List.mem_append.mp hw with hw | hw
  · exact h.writes w hw f hf
  rcases List.mem_append.mp hw with hw | hw
  · exact hbefore w hw f hf
  · obtain ⟨bytes, rfl⟩ := mem_appended hw
    rw [FileWrite.files, List.mem_singleton, hfile] at hf
    exact hf ▸ apart.kept _ .ledger

theorem recoverIntoCache_keeps (apart : gw.Apart sid own sid') :
    Keeps (gw.Unnoticed sid own t) (gw.recoverIntoCache io sid') := by
  unfold recoverIntoCache
  refine .bind (.modified fun _ h => ⟨h.server.touch_other _, h.writes⟩) fun _ => ?_
  refine .bind .lift fun sidecar => .bind .lift fun profile => ?_
  refine .bind (ledgerNew_keeps apart) fun path => onServer_keeps ?_
  refine .bind (.modified fun _ h => h.touch_other _) fun _ => .bind .lift fun _ => ?_
  exact .bind .reads fun events => .bind .lift fun _ => .pure

theorem getOrRecover_keeps (apart : gw.Apart sid own sid') :
    Keeps (gw.Unnoticed sid own t) (gw.getOrRecover io sid') := by
  unfold getOrRecover
  refine .bind .reads fun sessions => ?_
  split
  · exact .pure
  · refine .bind_of (recoverIntoCache_keeps apart)
      (fun _ _ _ => recoverIntoCache_housed.of_ok trivial) fun served hserved => ?_
    exact .bind (onServer_keeps (install_keeps apart hserved)) fun _ => .pure

theorem launchSession_keeps {manifestPath : String} {wasName : Bool} {ctx : Option Json}
    (apart : gw.Apart sid own sid') : Keeps (gw.Unnoticed sid own t)
      (gw.launchSession io sid' manifestPath wasName ctx) := by
  unfold launchSession
  refine .bind .lift fun loadPath => .bind .lift fun profile => ?_
  refine .bind_of (ledgerNew_keeps apart) (fun _ _ _ => ledgerNew_path.of_ok trivial)
    fun path hpath => ?_
  exact .bind (operate_keeps apart ⟨hpath, rfl⟩ nofun) fun _ => .bind .lift fun _ => .pure

theorem removeLedger_keeps (apart : gw.Apart sid own sid') :
    Keeps (gw.Unnoticed sid own t) (gw.removeLedger io sid') := by
  unfold removeLedger
  refine .bind (onServer_keeps ?_) fun _ => ?_
  · unfold Gateway.removeLedger
    refine .bind (.modified fun _ h => h.touch_other _) fun _ => ?_
    split
    · exact .modified fun _ h => h.setLedger_other apart
    · exact .pure
  · split
    · exact log_keeps (apart.single .ledger rfl)
    · exact .pure

omit [DecidableEq F] in
theorem writeSidecarAtomic_keeps {contents : Json} (apart : gw.Apart sid own sid') :
    Keeps (gw.Unnoticed sid own t) (gw.writeSidecarAtomic io sid' contents) := by
  unfold writeSidecarAtomic
  refine .bind (onServer_keeps ?_) fun _ => .bind (log_keeps fun w hw => ?_) fun _ => ?_
  · unfold Gateway.writeSidecarAtomic
    refine .bind (.modified fun _ h => h.touch_other _) fun _ => ?_
    split
    · exact .modified fun _ h => h.touch_other _
    · exact .pure
  · obtain ⟨left, rfl⟩ := mem_fsWrite hw
    exact apart.single .sidecarTmp rfl _ (List.mem_singleton_self _)
  · split
    · refine log_keeps (List.forall_mem_singleton.mpr fun f hf => ?_)
      simp only [FileWrite.files, List.mem_cons, List.not_mem_nil, or_false] at hf
      rcases hf with rfl | rfl
      · exact apart.kept _ .sidecarTmp
      · exact apart.kept _ .sidecar
    · exact .pure

theorem claimLedger_keeps (apart : gw.Apart sid own sid') :
    Keeps (gw.Unnoticed sid own t) (gw.claimLedger io sid') := by
  refine .bind (onServer_keeps ?_) fun _ => log_keeps (apart.single .ledger rfl)
  unfold Gateway.claimLedger
  refine .bind (.modified fun _ h => h.touch_other _) fun _ => .bind .reads fun ledger => ?_
  split
  · exact .throw
  · exact .bind .lift fun _ => .modified fun _ h => h.setLedger_other apart

theorem startClaimed_keeps {manifestPath : String} {wasName : Bool} {ctx : Option Json}
    (apart : gw.Apart sid own sid') : Keeps (gw.Unnoticed sid own t)
      (gw.startClaimed io sid' manifestPath wasName ctx) := by
  unfold startClaimed
  refine .bind .lift fun _ => .bind (claimLedger_keeps apart) fun _ => ?_
  refine .bind_of (.tryCatch (launchSession_keeps apart) fun _ =>
    .bind (removeLedger_keeps apart) fun _ => .throw)
    (fun _ _ _ => launched_housed.of_ok trivial) fun r hserved => ?_
  refine .bind (onServer_keeps (install_keeps apart hserved)) fun _ => ?_
  exact .bind (writeSidecarAtomic_keeps apart) fun _ => .pure

theorem protocolStart_keeps {req : Gateway.StartRequest} (huuid : AllowListed io.uuid)
    (apart : AllowListed (req.sessionId.getD io.uuid) →
      gw.Apart sid own (req.sessionId.getD io.uuid)) :
    Keeps (gw.Unnoticed sid own t) (gw.protocolStart io req) := by
  unfold protocolStart
  split
  · exact .throw
  refine Triple.bind_lift (fun _ hvalid => ?_) fun _ h => h
  have hid : AllowListed (req.sessionId.getD io.uuid) := by
    cases hreq : req.sessionId with
    | none => exact huuid
    | some sid =>
      rw [hreq] at hvalid
      exact validateSessionId_ok.mp hvalid
  refine Keeps.bind .reads fun sessions => ?_
  dsimp only
  split
  · exact .throw
  split
  · exact .throw
  exact .bind (startClaimed_keeps (apart hid)) fun _ => .pure

theorem protocolGetState_keeps (apart : gw.Apart sid own sid') :
    Keeps (gw.Unnoticed sid own t) (gw.protocolGetState io sid') := by
  unfold protocolGetState
  refine .bind (getOrRecover_keeps apart) fun served => onServer_keeps ?_
  refine .bind .lift fun state => .bind (.modified fun _ h => h.touch_other _) fun _ => ?_
  exact .bind .lift fun _ => .bind .reads fun _ => .pure

omit [DecidableEq F] in
/-- A blob is kept for its session. -/
theorem blob_kept {stepId : String} {data : Bytes} (huuid : AllowListed io.host.artifacts.uuid)
    (hserved : gw.Housed sid' served) :
    ∀ w ∈ gw.blob io served sid' stepId data, ∀ f ∈ w.files, gw.KeptFor sid' f := by
  intro w hw f hf
  unfold blob at hw
  split at hw
  · cases hw
  · rename_i path hpath
    obtain ⟨left, rfl⟩ := mem_fsWrite hw
    obtain ⟨store, hstore, hblob⟩ := ProfileFsmEngine.artifactWrite_some hpath
    rw [List.mem_singleton.mp hf]
    exact .blob (hserved.artifactRoot ▸ hstore) huuid hblob

theorem protocolStoreArtifact_keeps {stepId content : String} {mimeType : Option String}
    (apart : gw.Apart sid own sid') (huuid : AllowListed io.host.artifacts.uuid) :
    Keeps (gw.Unnoticed sid own t)
      (gw.protocolStoreArtifact io sid' stepId content mimeType) := by
  unfold protocolStoreArtifact
  refine .bind_of (getOrRecover_keeps apart)
    (fun _ _ h => getOrRecover_housed.of_ok h.server.housed) fun served hserved => ?_
  refine .bind_of (operate_keeps apart hserved fun w hw f hf =>
    apart.kept f (blob_kept huuid hserved w hw f hf))
    (fun _ _ _ => (operate_housed hserved).of_ok trivial) fun r hr => onServer_keeps ?_
  exact .bind (install_keeps apart hr) fun _ => .lift

/-- **A submission to another session** is noticed by its deliverable only. -/
theorem protocolSubmitMilestone_keeps {m : Machine F} {pos : Position}
    {evidence : ChecklistEvidence} {output : Option Json} (apart : gw.Apart sid own sid')
    (hspares : ∀ served, gw.lookUp io m.server sid' = some served →
      ∀ w ∈ gw.deliverable io served sid' pos evidence output, ∀ f ∈ w.files, ¬own f) :
    Triple (fun l => l = ⟨{ m.server with opened := [] }, []⟩ ∧ gw.Unnoticed sid own t l)
      (gw.protocolSubmitMilestone io sid' pos evidence output)
      (fun _ => gw.Unnoticed sid own t) (gw.Unnoticed sid own t) := by
  unfold protocolSubmitMilestone
  refine .bind (Q := fun served l => (gw.lookUp io m.server sid' = some served ∧
    gw.Housed sid' served) ∧ gw.Unnoticed sid own t l) ?_ fun served => .of_fact fun hserved => ?_
  · rintro l ⟨rfl, hl⟩
    have hkeeps : Keeps (gw.Unnoticed sid own t) (gw.getOrRecover io sid') :=
      getOrRecover_keeps apart
    have hleft := Triple.ends hkeeps hl
    have hvalue : ∀ served, (exec (gw.getOrRecover io sid') ⟨{ m.server with opened := [] }, []⟩).1 =
        .ok served → gw.Housed sid' served := fun served =>
      getOrRecover_housed.of_ok hl.server.housed
    split
    · rename_i served l' heq
      rw [heq] at hleft
      exact ⟨⟨exec_getOrRecover.mpr ⟨l', heq⟩, hvalue served (congrArg Prod.fst heq)⟩, hleft⟩
    · rename_i heq
      rwa [heq] at hleft
  refine Keeps.bind_of (operate_keeps apart hserved.2 (hspares served hserved.1))
    (fun _ _ _ => (operate_housed hserved.2).of_ok trivial) fun r hr => onServer_keeps ?_
  refine .bind (install_keeps apart hr) fun _ => .bind .lift fun out => ?_
  cases out with
  | completed _ => exact .bind (.modified fun _ h => h.touch_other _) fun _ => .pure
  | advanced | rejected | loopedBack => exact .pure

end

/-! ## Runs -/

section

variable {F : Type} [DecidableEq F] (gw : FileGateway F) (sid : String) (own : F → Prop)

/-- Two machines that the session cannot tell apart. -/
structure Alike (m m' : Machine F) : Prop where
  server : gw.Agrees sid own m.server m'.server
  disk : ∀ f, own f → m.disk f = m'.disk f

variable {gw sid own} {m m' : Machine F} {x : FileCall F}

omit [DecidableEq F] in
theorem Agrees.restart {s t : ProtocolServer F} (h : gw.Agrees sid own s t) :
    gw.Agrees sid own { s with registry := fun _ => none } { t with registry := fun _ => none } where
  housed := nofun
  housed' := nofun
  entry := rfl
  ledgers := h.ledgers

/-- A call on the session is the same call on both machines, -/
theorem respond_matches (hown : gw.Private sid own) (hx : x.concerns sid = true) (d : Disk F) :
    Matches (gw.InStep sid own) (gw.respond (x.io d) x.call) (gw.respond (x.io d) x.call) := by
  have hmap : ∀ {α β : Type} {f : α → β} {y : FileTool F α}, Matches (gw.InStep sid own) y y →
      Matches (gw.InStep sid own) (f <$> y) (f <$> y) := by
    intro α β f y hy
    rw [map_eq_pure_bind]
    exact .bind hy fun _ => .pure
  obtain ⟨call, io, uuid, minted⟩ := x
  cases call with
  | start req =>
    refine hmap (protocolStart_matches hown ?_)
    rw [minted d]
    exact beq_iff_eq.mp hx
  | submit sid' pos evidence output =>
    obtain rfl : sid' = sid := beq_iff_eq.mp hx
    exact hmap (protocolSubmitMilestone_matches hown)
  | getState sid' =>
    obtain rfl : sid' = sid := beq_iff_eq.mp hx
    exact hmap (protocolGetState_matches hown)
  | storeArtifact sid' stepId content mimeType =>
    obtain rfl : sid' = sid := beq_iff_eq.mp hx
    exact hmap (protocolStoreArtifact_matches hown)
  | restart => exact hmap (onServer_matches (.modified fun _ _ h => h.restart))

/-- and it goes the same where the rest is otherwise. -/
theorem Alike.same (h : gw.Alike sid own m m') (hown : gw.Private sid own)
    (hx : x.concerns sid = true) (hreads : x.Reads own) :
    gw.answered m x = gw.answered m' x ∧ gw.Alike sid own (gw.afterCall m x) (gw.afterCall m' x) := by
  have hio : x.io m.disk = x.io m'.disk := hreads _ _ h.disk
  have hstart : gw.InStep sid own ⟨{ m.server with opened := [] }, []⟩
      ⟨{ m'.server with opened := [] }, []⟩ :=
    ⟨⟨h.server.housed, h.server.housed', h.server.entry, h.server.ledgers⟩, rfl, nofun⟩
  obtain ⟨hanswer, hleft⟩ := respond_matches hown hx m.disk _ _ hstart
  rw [respond_serve, respond_serve] at hleft
  refine ⟨?_, ?_⟩
  · rw [answered, answered, ← hio]
    exact hanswer
  · unfold afterCall FileCall.onDisk
    rw [← hio]
    refine ⟨hleft.server, fun f hf => ?_⟩
    show FileWrite.applyAll m.disk _ f = FileWrite.applyAll m'.disk _ f
    rw [writes, writes, ← hleft.writes]
    exact FileWrite.applyAll_congr hleft.sources h.disk f hf

/-- **A call on another session** that spares its files changes nothing that the session sees. -/
theorem Alike.other (h : gw.Alike sid own m m') (hown : gw.Private sid own)
    (hx : x.concerns sid = false) (haddressed : Addressed (x.onDisk m.disk))
    (hspares : gw.SparesOwn sid own m x) : gw.Alike sid own (gw.afterCall m x) m' := by
  have hstart : gw.Unnoticed sid own m'.server ⟨{ m.server with opened := [] }, []⟩ :=
    ⟨⟨h.server.housed, h.server.housed', h.server.entry, h.server.ledgers⟩, nofun⟩
  have apart : ∀ sid', AllowListed sid' → sid' ≠ sid → gw.Apart sid own sid' :=
    fun sid' hsid' hne => ⟨hne, fun f => hown.others sid' f hsid' hne⟩
  have hleft : gw.Unnoticed sid own m'.server (gw.serve m (x.onDisk m.disk)).2 := by
    have hdrop : ∀ {α : Type} {y : FileTool F α}, Keeps (gw.Unnoticed sid own m'.server) y →
        gw.Unnoticed sid own m'.server
          (exec (y >>= fun _ => pure ()) ⟨{ m.server with opened := [] }, []⟩).2 :=
      fun hy => Triple.ends (Keeps.bind hy fun _ => Keeps.pure) hstart
    obtain ⟨call, io, uuid, minted⟩ := x
    obtain ⟨hcall, huuid, hblob⟩ := haddressed
    have listed : (∀ req, call ≠ .start req) → ∀ sid', call.sessionId = some sid' →
        sid' ≠ sid → gw.Apart sid own sid' := fun hstart sid' hsid' =>
      apart sid' (hcall.elim (fun ⟨req, hreq⟩ => absurd hreq (hstart req)) fun h => h sid' hsid')
    cases call with
    | start req =>
      have hne : req.sessionId.getD uuid ≠ sid := beq_eq_false_iff_ne.mp hx
      refine hdrop (protocolStart_keeps huuid fun hid => apart _ hid ?_)
      show req.sessionId.getD (io m.disk).uuid ≠ sid
      rwa [minted m.disk]
    | submit sid' pos evidence output =>
      have hne : sid' ≠ sid := beq_eq_false_iff_ne.mp hx
      exact (Triple.bind (protocolSubmitMilestone_keeps (listed nofun _ rfl hne)
        (hspares _ _ _ _ rfl hne)) fun _ => Keeps.pure).ends ⟨rfl, hstart⟩
    | getState sid' =>
      exact hdrop (protocolGetState_keeps (listed nofun _ rfl (beq_eq_false_iff_ne.mp hx)))
    | storeArtifact sid' stepId content mimeType =>
      exact hdrop (protocolStoreArtifact_keeps
        (listed nofun _ rfl (beq_eq_false_iff_ne.mp hx)) hblob)
    | restart => cases hx
  refine ⟨hleft.server, fun f hf => ?_⟩
  rw [← h.disk f hf]
  exact FileWrite.applyAll_other fun w hw hmem => hleft.writes w hw f hmem hf

/-- Two runs, of which one leaves out the calls on other sessions. -/
theorem Alike.run {calls : List (FileCall F)} (h : gw.Alike sid own m m')
    (hown : gw.Private sid own) (hcalls : ∀ x ∈ calls, ∀ d, Addressed (x.onDisk d))
    (hreads : ∀ x ∈ calls, x.concerns sid = true → x.Reads own)
    (hspares : Runs.Along gw.afterCall (gw.SparesOwn sid own) m calls) :
    gw.transcript sid m calls = gw.transcript sid m' (calls.filter (·.concerns sid)) ∧
      gw.Alike sid own (calls.foldl gw.afterCall m)
        ((calls.filter (·.concerns sid)).foldl gw.afterCall m') := by
  induction calls generalizing m m' with
  | nil => exact ⟨rfl, h⟩
  | cons x xs ih =>
    rw [List.forall_mem_cons] at hcalls hreads
    cases hx : x.concerns sid with
    | true =>
      obtain ⟨hanswer, hafter⟩ := h.same hown hx (hreads.1 hx)
      obtain ⟨hanswers, hrest⟩ := ih hafter hcalls.2 hreads.2 hspares.2
      rw [List.filter_cons_of_pos (by rw [hx]), transcript, transcript, if_pos hx, if_pos hx, hanswer,
        hanswers]
      exact ⟨rfl, hrest⟩
    | false =>
      have hafter := h.other hown hx (hcalls.1 m.disk) hspares.1
      rw [List.filter_cons_of_neg (by rw [hx]; decide), transcript, if_neg (by rw [hx]; decide)]
      exact ih hafter hcalls.2 hreads.2 hspares.2

end

end FileGateway

/-! ## Two sessions that take turns -/

namespace Sample

def delivery : FileGateway (List Component) := fileGateway "out/\x7bsession_id\x7d.json"

/-- Whether there is a sidecar is read off the disk. -/
def reading (sid : String) (call : ToolCall) : FileCall (List Component) where
  call := call
  io d := { fileIo with readSidecar := fun _ =>
    (d (delivery.sidecarFile sid)).map fun _ => .ok ⟨"sample.yaml"⟩ }
  uuid := fileIo.uuid
  minted _ := rfl

/-- The other session completes, and the gateway restarts. -/
def interleaved : List (FileCall (List Component)) :=
  [reading "s1" (.start ⟨"sample.yaml", some "s1", none⟩),
    reading "s2" (.start ⟨"sample.yaml", some "s2", none⟩),
    reading "s2" (.submit "s2" ⟨"plan", "check"⟩ done (some .null)),
    reading "s1" .restart,
    reading "s1" (.submit "s1" ⟨"plan", "check"⟩ done (some .null))]

theorem reading_addressed {sid : String} {call : ToolCall} (h : Gateway.ChecksId call)
    (d : Disk (List Component)) : FileGateway.Addressed ((reading sid call).onDisk d) :=
  ⟨h, fileIo_listed.1, fileIo_listed.2⟩

theorem interleaved_addressed : ∀ x ∈ interleaved, ∀ d, FileGateway.Addressed (x.onDisk d) := by
  have hs1 : AllowListed "s1" := ⟨by decide, by decide, List.all_eq_true.mp (by decide)⟩
  have hs2 : AllowListed "s2" := ⟨by decide, by decide, List.all_eq_true.mp (by decide)⟩
  simp only [interleaved, List.forall_mem_cons]
  refine ⟨reading_addressed (Or.inl ⟨_, rfl⟩), reading_addressed (Or.inl ⟨_, rfl⟩),
    reading_addressed (Or.inr ?_), reading_addressed (Or.inr nofun), reading_addressed (Or.inr ?_),
    fun _ hx => absurd hx List.not_mem_nil⟩
  · rintro sid h
    cases h
    exact hs2
  · rintro sid h
    cases h
    exact hs1

end Sample

namespace FileGateway

/-- A deliverable on the other's ledger is noticed: `s` writes over what `s1` had appended. -/
example :
    let gw := Sample.fileGateway "ledger/\x7bsession_id\x7d1.jsonl"
    let start (sid : String) := Sample.reading sid (.start ⟨"sample.yaml", some sid, none⟩)
    ([start "s1", start "s",
      Sample.reading "s" (.submit "s" ⟨"plan", "check"⟩ Sample.done (some .null))].foldl
        gw.afterCall Sample.machine).disk (gw.ledgerFile "s1") = some (bytesOf "null") := by
  decide +kernel

end FileGateway

end ProtocolEnforcer
