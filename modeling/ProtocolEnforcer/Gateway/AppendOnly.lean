import ProtocolEnforcer.Gateway.Files
import ProtocolEnforcer.Gateway.SessionIds

/-!
# The ledger is append-only where the output contract lets it be

`Ledger::append` is one of several writers below the working directory: the sidecar and
the artifact blobs have names of their own there, but the deliverable of a completed
session goes where the profile says. `Intact` is what the writes of a call owe the ledger
files and sidecars of all sessions; every write but the deliverable's meets it, and the
deliverable's does when it is on none of these files.
-/

namespace ProtocolEnforcer

open Effect FileTool

/-- The gateway's default layout, in the working directory below the root that `cwd`
names, and no link among the paths. -/
structure DefaultLayout {F : Type} (gw : Gateway F) (cwd : List String) : Prop where
  ledgerDir : gw.ledgerDir = "./ledger"
  artifactRoot : gw.artifactRoot = "."
  outputBase : UnixPath.components gw.outputBase = .rootDir :: cwd.map .normal
  file : ∀ p q, gw.file p = gw.file q ↔
    UnixPath.resolve (.rootDir :: cwd.map .normal) p =
      UnixPath.resolve (.rootDir :: cwd.map .normal) q

/-! ## The enforcer's own files -/

namespace FileGateway

variable {F : Type} (gw : FileGateway F)

/-- A ledger file or a sidecar. -/
def Guards (f : F) : Prop :=
  ∃ sid, AllowListed sid ∧ (f = gw.ledgerFile sid ∨ f = gw.sidecarFile sid)

variable {gw} {cwd : List String} {sid sid' : String}

/-- Names that end differently are different. -/
theorem append_ne {a b ext ext' : String} (h : ext.toList ≠ []) (h' : ext'.toList ≠ [])
    (hne : ext.toList.getLast? ≠ ext'.toList.getLast?) : a ++ ext ≠ b ++ ext' := by
  intro heq
  have hlast := congrArg (fun s : String => s.toList.getLast?) heq
  rw [String.toList_append, String.toList_append, List.getLast?_append_of_ne_nil _ h,
    List.getLast?_append_of_ne_nil _ h'] at hlast
  exact hne hlast

theorem simple_ledger (h : AllowListed sid) : UnixPath.Simple (sid ++ ".jsonl") :=
  h.simple (by decide) (by decide)

theorem simple_sidecar (h : AllowListed sid) : UnixPath.Simple (sid ++ ".manifest.json") :=
  h.simple (by decide) (by decide)

/-- Where the children of the ledger directory are. -/
theorem resolve_child {name : String} (layout : DefaultLayout gw.toGateway cwd)
    (h : UnixPath.Simple name) :
    UnixPath.resolve (.rootDir :: cwd.map .normal)
        (UnixPath.components (UnixPath.join gw.ledgerDir name)) =
      (.rootDir :: cwd.map .normal) ++ ["ledger", name].map .normal := by
  rw [layout.ledgerDir, UnixPath.components_join, UnixPath.joined_simple _ h,
    show UnixPath.components "./ledger" = [.curDir, .normal "ledger"] by decide]
  exact UnixPath.resolve_names _ ["ledger", name]

/-- Different names there are different files. -/
theorem child_inj {name name' : String} (layout : DefaultLayout gw.toGateway cwd)
    (h : UnixPath.Simple name) (h' : UnixPath.Simple name')
    (heq : gw.fileAt (UnixPath.join gw.ledgerDir name) =
      gw.fileAt (UnixPath.join gw.ledgerDir name')) : name = name' := by
  have hres := (layout.file _ _).mp heq
  rw [resolve_child layout h, resolve_child layout h'] at hres
  have hnames := List.append_cancel_left hres
  simp only [List.map_cons, List.map_nil, List.cons.injEq, Component.normal.injEq, true_and,
    and_true] at hnames
  exact hnames

theorem ledgerFile_ne_sidecarFile (layout : DefaultLayout gw.toGateway cwd)
    (h : AllowListed sid) (h' : AllowListed sid') : gw.ledgerFile sid ≠ gw.sidecarFile sid' := by
  intro heq
  have hname := child_inj layout (simple_ledger h) (simple_sidecar h') heq
  exact append_ne (by decide) (by decide) (by decide) hname

theorem sidecarFile_inj (layout : DefaultLayout gw.toGateway cwd) (h : AllowListed sid)
    (h' : AllowListed sid') (heq : gw.sidecarFile sid = gw.sidecarFile sid') : sid = sid' := by
  have hname := child_inj layout (simple_sidecar h) (simple_sidecar h') heq
  rw [← String.toList_inj, String.toList_append, String.toList_append] at hname
  exact String.toList_inj.mp (List.append_cancel_right hname)

/-- The sidecar's temporary file is none of them. -/
theorem sidecarTmpFile_not_guards (layout : DefaultLayout gw.toGateway cwd)
    (h : AllowListed sid) : ¬gw.Guards (gw.sidecarTmpFile sid) := by
  have htmp : UnixPath.Simple (sid ++ ".manifest.json.tmp") := h.simple (by decide) (by decide)
  rintro ⟨sid', h', heq | heq⟩
  · have hname := child_inj layout htmp (simple_ledger h') heq
    exact append_ne (by decide) (by decide) (by decide) hname
  · have hname := child_inj layout htmp (simple_sidecar h') heq
    exact append_ne (by decide) (by decide) (by decide) hname

/-- A file below another directory is none of them. -/
theorem not_guards_of_resolve {p : List Component} {dir : String} {names : List String}
    (layout : DefaultLayout gw.toGateway cwd) (hdir : dir ≠ "ledger")
    (hp : UnixPath.resolve (.rootDir :: cwd.map .normal) p =
      (.rootDir :: cwd.map .normal) ++ (dir :: names).map .normal) : ¬gw.Guards (gw.file p) := by
  have other : ∀ name, UnixPath.Simple name →
      gw.file p ≠ gw.fileAt (UnixPath.join gw.ledgerDir name) := by
    intro name hname heq
    have hres := (layout.file _ _).mp heq
    rw [hp, resolve_child layout hname] at hres
    have hnames := List.append_cancel_left hres
    simp only [List.map_cons, List.cons.injEq, Component.normal.injEq] at hnames
    exact hdir hnames.1
  rintro ⟨sid, h, heq | heq⟩
  · exact other _ (simple_ledger h) heq
  · exact other _ (simple_sidecar h) heq

/-- Where an artifact's blob is. -/
theorem resolve_blob {host : ArtifactIo} {store : ArtifactStore} {stepId path : String}
    (layout : DefaultLayout gw.toGateway cwd) (h : AllowListed sid) (huuid : AllowListed host.uuid)
    (hnew : ArtifactStore.new host sid gw.artifactRoot = .ok store)
    (hpath : store.blobPath host stepId = some path) :
    ∃ names : List String, UnixPath.resolve (.rootDir :: cwd.map .normal)
      (UnixPath.components path) =
        (.rootDir :: cwd.map .normal) ++ (".artifacts" :: sid :: names).map .normal := by
  unfold ArtifactStore.blobPath at hpath
  split at hpath
  · cases hpath
  rename_i hsafe
  rw [not_or, not_or, Bool.not_eq_true', Bool.not_eq_false] at hsafe
  dsimp only at hpath
  split at hpath
  · cases hpath
  cases hpath
  obtain ⟨habs, names, hnames⟩ := safe_names hsafe.2.2
  rw [layout.artifactRoot] at hnew
  refine ⟨names ++ [host.uuid ++ ".bin"], ?_⟩
  rw [ArtifactStore.components_blob h huuid hnew habs hnames,
    show UnixPath.components "." = [.curDir] by decide]
  exact UnixPath.resolve_names _ _

/-- **Nor is an artifact's blob.** -/
theorem blob_not_guards {engine : ProfileFsmEngine} {host : Host} {session : Option SessionState}
    {stepId path : String} (layout : DefaultLayout gw.toGateway cwd) (h : AllowListed sid)
    (huuid : AllowListed host.artifacts.uuid)
    (hroot : engine.config.artifactRoot = gw.artifactRoot)
    (hpath : engine.artifactWrite host sid session stepId = some path) :
    ¬gw.Guards (gw.fileAt path) := by
  obtain ⟨store, hstore, hblob⟩ := ProfileFsmEngine.artifactWrite_some hpath
  obtain ⟨names, hres⟩ := resolve_blob layout h huuid (hroot ▸ hstore) hblob
  exact not_guards_of_resolve layout (by decide) hres

/-! ## What the writes of a call owe -/

section

variable (gw)

/-- The write keeps what is in the ledger files of `d`, is on no sidecar but that of the
session `own`, and overwrites none of these files. -/
structure Intact (d : Disk F) (own : Option String) (w : FileWrite F) : Prop where
  ledger : ∀ sid, AllowListed sid → (d (gw.ledgerFile sid)).isSome = true →
    w.Extends (gw.ledgerFile sid)
  sidecar : ∀ sid, AllowListed sid → gw.sidecarFile sid ∈ w.files → own = some sid
  overwrites : ∀ f bytes, w = .overwrite f bytes → ¬gw.Guards f

/-- A ledger file that the gateway knows nothing of is not there. -/
def Known (m : Machine F) : Prop :=
  ∀ sid, AllowListed sid → m.server.ledgers (gw.ledgerFile sid) = none →
    m.disk (gw.ledgerFile sid) = none

/-- An engine that serves the session `sid` as it was set up to. -/
structure Housed (sid : String) (served : Served) : Prop where
  path : served.path = gw.ledgerPath sid
  artifactRoot : served.engine.config.artifactRoot = gw.artifactRoot

/-- Every served session is. -/
def AllHoused (s : ProtocolServer F) : Prop :=
  ∀ sid served, s.registry sid = some served → gw.Housed sid served

end

theorem AllHoused.install {s : ProtocolServer F} {served : Served} (h : gw.AllHoused s) (hserved : gw.Housed sid served) :
    gw.AllHoused (s.install sid served) := by
  intro sid' served' hserved'
  dsimp only [ProtocolServer.install] at hserved'
  by_cases heq : sid' = sid
  · subst heq
    rw [Function.update_self] at hserved'
    cases hserved'
    exact hserved
  · rw [Function.update_of_ne heq] at hserved'
    exact h sid' served' hserved'

variable {d : Disk F} {own : Option String} {w : FileWrite F}

theorem Intact.create (layout : DefaultLayout gw.toGateway cwd) (h : AllowListed sid) :
    gw.Intact d own (.create (gw.ledgerFile sid)) where
  ledger _ _ _ := FileWrite.extends_create _ _
  sidecar _ h' hmem :=
    absurd (List.mem_singleton.mp hmem).symm (ledgerFile_ne_sidecarFile layout h h')
  overwrites _ _ := nofun

theorem Intact.append {bytes : Bytes} (layout : DefaultLayout gw.toGateway cwd)
    (h : AllowListed sid) : gw.Intact d own (.append (gw.ledgerFile sid) bytes) where
  ledger _ _ _ := FileWrite.extends_append _ _ _
  sidecar _ h' hmem :=
    absurd (List.mem_singleton.mp hmem).symm (ledgerFile_ne_sidecarFile layout h h')
  overwrites _ _ := nofun

theorem Intact.overwrite {f : F} {bytes : Bytes} (h : ¬gw.Guards f) :
    gw.Intact d own (.overwrite f bytes) where
  ledger sid hsid _ := Or.inl fun hmem =>
    h ⟨sid, hsid, Or.inl (List.mem_singleton.mp hmem).symm⟩
  sidecar sid hsid hmem := absurd ⟨sid, hsid, Or.inr (List.mem_singleton.mp hmem).symm⟩ h
  overwrites _ _ heq := by
    cases heq
    exact h

/-- A ledger file that was not there may go. -/
theorem Intact.remove (layout : DefaultLayout gw.toGateway cwd) (h : AllowListed sid)
    (hnone : d (gw.ledgerFile sid) = none) : gw.Intact d own (.remove (gw.ledgerFile sid)) where
  ledger _ _ hsome := Or.inl fun hmem => by
    rw [List.mem_singleton.mp hmem, hnone] at hsome
    cases hsome
  sidecar _ h' hmem :=
    absurd (List.mem_singleton.mp hmem).symm (ledgerFile_ne_sidecarFile layout h h')
  overwrites _ _ := nofun

theorem Intact.rename (layout : DefaultLayout gw.toGateway cwd) (h : AllowListed sid) :
    gw.Intact d (some sid) (.rename (gw.sidecarTmpFile sid) (gw.sidecarFile sid)) where
  ledger sid' h' _ := by
    refine Or.inl fun hmem => ?_
    simp only [FileWrite.files, List.mem_cons, List.not_mem_nil, or_false] at hmem
    rcases hmem with htmp | hside
    · exact sidecarTmpFile_not_guards layout h ⟨sid', h', Or.inl htmp.symm⟩
    · exact ledgerFile_ne_sidecarFile layout h' h hside
  sidecar sid' h' hmem := by
    simp only [FileWrite.files, List.mem_cons, List.not_mem_nil, or_false] at hmem
    rcases hmem with htmp | hside
    · exact absurd ⟨sid', h', Or.inr htmp.symm⟩ (sidecarTmpFile_not_guards layout h)
    · rw [sidecarFile_inj layout h' h hside]
  overwrites _ _ := nofun

/-! ## The state within a call -/

variable [DecidableEq F]

variable (gw) in
/-- What holds at every moment of a call from `m`: the writes so far are intact, and the
server knows the ledger files they leave. -/
structure Sound (m : Machine F) (own : Option String) (l : Logged F) : Prop where
  intact : ∀ w ∈ l.writes, gw.Intact m.disk own w
  known : gw.Known ⟨l.server, FileWrite.applyAll m.disk l.writes⟩
  housed : gw.AllHoused l.server

variable {m : Machine F} {l : Logged F}

/-- The start of a call. -/
theorem Sound.start (hknown : gw.Known m) (hhoused : gw.AllHoused m.server) :
    gw.Sound m own ⟨{ m.server with opened := [] }, []⟩ := ⟨nofun, hknown, hhoused⟩

/-- Intact writes on ledger files that the server knows. -/
theorem Sound.log {ws : List (FileWrite F)} (h : gw.Sound m own l)
    (hintact : ∀ w ∈ ws, gw.Intact m.disk own w)
    (hknown : ∀ w ∈ ws, ∀ sid, AllowListed sid → gw.ledgerFile sid ∈ w.files →
      l.server.ledgers (gw.ledgerFile sid) ≠ none) :
    gw.Sound m own { l with writes := l.writes ++ ws } where
  intact w hw := by
    rcases List.mem_append.mp hw with hw | hw
    · exact h.intact w hw
    · exact hintact w hw
  known sid hsid hnone := by
    show FileWrite.applyAll _ (l.writes ++ ws) _ = none
    rw [FileWrite.applyAll_append, FileWrite.applyAll_other fun w hw hmem => ?_]
    · exact h.known sid hsid hnone
    · exact hknown w hw sid hsid hmem hnone
  housed := h.housed

theorem Sound.touch {ws : List (FileWrite F)} {s : ProtocolServer F} {p : List Component}
    (h : gw.Sound m own ⟨s, ws⟩) : gw.Sound m own ⟨s.touch p, ws⟩ :=
  ⟨h.intact, h.known, h.housed⟩

theorem Sound.setLedger {ws : List (FileWrite F)} {s : ProtocolServer F} {f : F}
    {events : List FsmEvent} (h : gw.Sound m own ⟨s, ws⟩) :
    gw.Sound m own ⟨s.setLedger f (some events), ws⟩ where
  intact := h.intact
  known sid hsid hnone := by
    dsimp only [ProtocolServer.setLedger] at hnone
    by_cases heq : gw.ledgerFile sid = f
    · rw [heq, Function.update_self] at hnone
      cases hnone
    · rw [Function.update_of_ne heq] at hnone
      exact h.known sid hsid hnone
  housed := h.housed

theorem Sound.install {ws : List (FileWrite F)} {s : ProtocolServer F} {served : Served}
    (h : gw.Sound m own ⟨s, ws⟩) (hserved : gw.Housed sid served) :
    gw.Sound m own ⟨s.install sid served, ws⟩ :=
  ⟨h.intact, h.known, h.housed.install hserved⟩

/-- Writes on the session's own ledger file, once the server has it. -/
theorem Sound.logOwn {ws : List (FileWrite F)} (sid : String) (h : gw.Sound m own l)
    (hintact : ∀ w ∈ ws, gw.Intact m.disk own w) (hfiles : ∀ w ∈ ws, ∀ f ∈ w.files,
      f = gw.ledgerFile sid ∨ ¬gw.Guards f)
    (hsome : l.server.ledgers (gw.ledgerFile sid) ≠ none) :
    gw.Sound m own { l with writes := l.writes ++ ws } := by
  refine h.log hintact fun w hw sid' hsid' hmem => ?_
  rcases hfiles w hw _ hmem with heq | hno
  · rwa [heq]
  · exact absurd ⟨sid', hsid', Or.inl rfl⟩ hno

/-! ## The tools -/

variable {io : FileIo}

omit [DecidableEq F] in
theorem mem_fsWrite {result : Except String Unit} {f : F} {bytes : Bytes} {w : FileWrite F}
    (h : w ∈ fsWrite io result f bytes) : ∃ left, w = .overwrite f left := by
  unfold fsWrite at h
  split at h
  · exact ⟨_, List.mem_singleton.mp h⟩
  · exact ⟨_, List.mem_singleton.mp h⟩
  · cases h

omit [DecidableEq F] in
theorem mem_appended {α : Type} {served : Served} {op : Effect (World SessionLedger) FsmError α}
    {s : ProtocolServer F} {w : FileWrite F} (h : w ∈ gw.appended io served op s) :
    ∃ bytes, w = .append (gw.fileAt served.path) bytes := by
  unfold appended at h
  rcases List.mem_append.mp h with hmem | hmem
  · obtain ⟨e, -, rfl⟩ := List.mem_map.mp hmem
    exact ⟨_, rfl⟩
  · split at hmem
    · exact ⟨_, List.mem_singleton.mp hmem⟩
    · cases hmem

theorem ledgerNew_sound (layout : DefaultLayout gw.toGateway cwd) (hid : AllowListed sid) :
    Triple (gw.Sound m own) (gw.ledgerNew io sid)
      (fun path l => path = gw.ledgerPath sid ∧ gw.Sound m own l) (gw.Sound m own) := by
  unfold ledgerNew
  refine .bind (Q := fun path l => path = gw.ledgerPath sid ∧ gw.Sound m own l ∧
    l.server.ledgers (gw.ledgerFile sid) ≠ none) (onServer_triple fun ws => ?_) fun path => ?_
  · unfold Gateway.ledgerNew
    refine .bind_modify (M := fun s => gw.Sound m own ⟨s, ws⟩) (fun s hs => hs.touch) ?_
    refine .bind_lift (fun _ _ => ?_) fun _ hs => hs
    refine .bind_modify (M := fun s => gw.Sound m own ⟨s, ws⟩ ∧
      s.ledgers (gw.ledgerFile sid) ≠ none) (fun s hs => ⟨hs.setLedger, ?_⟩) ?_
    · dsimp only [ProtocolServer.setLedger]
      rw [ledgerFile, fileAt, Function.update_self]
      exact Option.some_ne_none _
    · exact Triple.pure fun s hs => ⟨rfl, hs⟩
  · refine .of_fact fun hpath => ?_
    subst hpath
    refine .bind_modify (M := gw.Sound m own) (fun l hl => ?_) (Triple.pure fun l hl => ⟨rfl, hl⟩)
    refine hl.1.logOwn sid ?_ ?_ hl.2
    · exact List.forall_mem_singleton.mpr (.create layout hid)
    · refine List.forall_mem_singleton.mpr fun f hf => Or.inl (List.mem_singleton.mp hf)

theorem operate_sound {α : Type} {served : Served} {before : List (FileWrite F)}
    {op : Effect (World SessionLedger) FsmError α} (layout : DefaultLayout gw.toGateway cwd)
    (hid : AllowListed sid) (hserved : gw.Housed sid served)
    (hbefore : ∀ w ∈ before, ∃ f bytes, w = .overwrite f bytes ∧ ¬gw.Guards f) :
    Triple (gw.Sound m own) (gw.operate io served before op)
      (fun r l => gw.Housed sid r.2 ∧ gw.Sound m own l) (gw.Sound m own) := by
  have hfile : gw.fileAt served.path = gw.ledgerFile sid := by rw [hserved.path, ledgerFile]
  intro l hl
  rw [exec_operate]
  refine ⟨⟨hserved.path, hserved.artifactRoot⟩, ?_⟩
  have hset : gw.Sound m own ⟨l.server.setLedger (gw.fileAt served.path)
      (some (exec op (gw.worldOf io.toIo served l.server)).2.ledger.events), l.writes⟩ :=
    hl.setLedger
  refine hset.logOwn sid (fun w hw => ?_) (fun w hw f hf => ?_) ?_
  · rcases List.mem_append.mp hw with hw | hw
    · obtain ⟨f, bytes, rfl, hf⟩ := hbefore w hw
      exact .overwrite hf
    · obtain ⟨bytes, rfl⟩ := mem_appended hw
      exact hfile ▸ .append layout hid
  · rcases List.mem_append.mp hw with hw | hw
    · obtain ⟨f', bytes, rfl, hf'⟩ := hbefore w hw
      exact Or.inr (List.mem_singleton.mp hf ▸ hf')
    · obtain ⟨bytes, rfl⟩ := mem_appended hw
      exact Or.inl ((List.mem_singleton.mp hf).trans hfile)
  · show (l.server.setLedger _ _).ledgers _ ≠ none
    dsimp only [ProtocolServer.setLedger]
    rw [hfile, Function.update_self]
    exact Option.some_ne_none _

theorem recoverIntoCache_sound (layout : DefaultLayout gw.toGateway cwd)
    (hid : AllowListed sid) :
    Triple (gw.Sound m own) (gw.recoverIntoCache io sid)
      (fun served l => gw.Housed sid served ∧ gw.Sound m own l) (gw.Sound m own) := by
  unfold recoverIntoCache
  refine .bind_modify (M := gw.Sound m own) (fun l hl => hl.touch) ?_
  refine .bind_lift (fun sidecar _ => ?_) fun _ hl => hl
  refine .bind_lift (fun profile _ => ?_) fun _ hl => hl
  refine .bind (ledgerNew_sound layout hid) fun path => .of_fact fun hpath => ?_
  subst hpath
  refine onServer_triple fun ws => ?_
  refine .bind_modify (M := fun s => gw.Sound m own ⟨s, ws⟩) (fun s hs => hs.touch) ?_
  refine .bind_lift (fun _ _ => ?_) fun _ hs => hs
  refine .bind (Q := fun _ s => gw.Sound m own ⟨s, ws⟩) (Triple.reads fun _ hs => hs)
    fun events => ?_
  exact .bind_lift (fun _ _ => Triple.pure fun _ hs => ⟨⟨rfl, rfl⟩, hs⟩) fun _ hs => hs

theorem getOrRecover_sound (layout : DefaultLayout gw.toGateway cwd) (hid : AllowListed sid) :
    Triple (gw.Sound m own) (gw.getOrRecover io sid)
      (fun served l => gw.Housed sid served ∧ gw.Sound m own l) (gw.Sound m own) := by
  unfold getOrRecover
  refine .bind (Q := fun sessions l => sessions = l.server.registry ∧ gw.Sound m own l)
    (Triple.reads fun l hl => ⟨rfl, hl⟩) fun sessions => ?_
  split
  · rename_i served hserved
    refine Triple.pure fun l hl => ⟨hl.2.housed sid served ?_, hl.2⟩
    rw [← hl.1, hserved]
  · refine .bind ((recoverIntoCache_sound layout hid).conseq (fun _ hl => hl.2)
      (fun _ _ hl => hl) fun _ hl => hl) fun served => .of_fact fun hserved => ?_
    refine .bind (Q := fun _ => gw.Sound m own) (onServer_triple fun ws =>
      Triple.modified fun s hs => hs.install hserved) fun _ => ?_
    exact Triple.pure fun _ hl => ⟨hserved, hl⟩

theorem launchSession_sound {manifestPath : String} {wasName : Bool}
    {initialContext : Option Json} (layout : DefaultLayout gw.toGateway cwd)
    (hid : AllowListed sid) :
    Triple (gw.Sound m own) (gw.launchSession io sid manifestPath wasName initialContext)
      (fun r l => gw.Housed sid r.1.1 ∧ gw.Sound m own l) (gw.Sound m own) := by
  unfold launchSession
  refine .bind_lift (fun loadPath _ => ?_) fun _ hl => hl
  refine .bind_lift (fun profile _ => ?_) fun _ hl => hl
  refine .bind (ledgerNew_sound layout hid) fun path => .of_fact fun hpath => ?_
  subst hpath
  refine .bind (operate_sound layout hid ⟨rfl, rfl⟩ nofun) fun r => .of_fact fun hserved => ?_
  exact .bind_lift (fun _ _ => Triple.pure fun _ hl => ⟨hserved, hl⟩) fun _ hl => hl

/-- A claim succeeds only where no ledger file was. -/
theorem claimLedger_sound (layout : DefaultLayout gw.toGateway cwd) (hid : AllowListed sid) :
    Triple (fun l => l.writes = [] ∧ gw.Sound m own l) (gw.claimLedger io sid)
      (fun _ l => m.disk (gw.ledgerFile sid) = none ∧ gw.Sound m own l) (gw.Sound m own) := by
  unfold claimLedger
  refine .bind (Q := fun _ l => m.disk (gw.ledgerFile sid) = none ∧ gw.Sound m own l ∧
    l.server.ledgers (gw.ledgerFile sid) ≠ none) (onServer_triple fun ws => ?_) fun _ => ?_
  · unfold Gateway.claimLedger
    refine .bind_modify (M := fun s => ws = [] ∧ gw.Sound m own ⟨s, ws⟩)
      (fun s hs => ⟨hs.1, hs.2.touch⟩) ?_
    refine .bind (Q := fun ledger s => (ledger = none → m.disk (gw.ledgerFile sid) = none) ∧
      gw.Sound m own ⟨s, ws⟩) (Triple.reads fun s hs => ⟨fun hnone => ?_, hs.2⟩) fun ledger =>
        .of_fact fun hdisk => ?_
    · obtain ⟨rfl, hs⟩ := hs
      exact hs.known sid hid hnone
    · split
      · exact Triple.throw fun _ hs => hs
      · rename_i hledger
        have hnone := hdisk (Option.not_isSome_iff_eq_none.mp hledger)
        refine .bind_lift (fun _ _ => Triple.modified fun s hs => ⟨hnone, hs.setLedger, ?_⟩)
          fun _ hs => hs
        dsimp only [ProtocolServer.setLedger]
        rw [ledgerFile, fileAt, Function.update_self]
        exact Option.some_ne_none _
  · refine Triple.modified fun l hl => ⟨hl.1, ?_⟩
    refine hl.2.1.logOwn sid ?_ ?_ hl.2.2
    · exact List.forall_mem_singleton.mpr (.create layout hid)
    · exact List.forall_mem_singleton.mpr fun f hf => Or.inl (List.mem_singleton.mp hf)

/-- The claim of a start that fails goes again. -/
theorem removeLedger_sound (layout : DefaultLayout gw.toGateway cwd) (hid : AllowListed sid)
    (hnone : m.disk (gw.ledgerFile sid) = none) :
    Keeps (gw.Sound m own) (gw.removeLedger io sid) := by
  intro l hl
  unfold removeLedger Gateway.removeLedger
  cases hio : io.removeFile with
  | error e => exact hl.touch
  | ok u =>
    refine ⟨fun w hw => ?_, fun sid' hsid' hledger => ?_, hl.housed⟩
    · rcases List.mem_append.mp hw with hw | hw
      · exact hl.intact w hw
      · rw [List.mem_singleton.mp hw]
        exact .remove layout hid hnone
    · show FileWrite.applyAll m.disk (l.writes ++ [.remove (gw.ledgerFile sid)]) _ = none
      rw [FileWrite.applyAll_append]
      by_cases heq : gw.ledgerFile sid' = gw.ledgerFile sid
      · rw [heq]
        exact Function.update_self ..
      · have hother : l.server.ledgers (gw.ledgerFile sid') = none :=
          (Function.update_of_ne heq _ _).symm.trans hledger
        exact (Function.update_of_ne heq _ _).trans (hl.known sid' hsid' hother)

theorem writeSidecarAtomic_sound {contents : Json} (layout : DefaultLayout gw.toGateway cwd)
    (hid : AllowListed sid) :
    Keeps (gw.Sound m (some sid)) (gw.writeSidecarAtomic io sid contents) := by
  have touches : Keeps (gw.Sound m (some sid))
      (onServer (gw.toGateway.writeSidecarAtomic io.toIo sid)) := by
    refine onServer_triple fun ws => ?_
    unfold Gateway.writeSidecarAtomic
    refine Keeps.bind (Keeps.modified fun s hs => hs.touch) fun _ => ?_
    split
    · exact Keeps.modified fun s hs => hs.touch
    · exact Keeps.pure
  have none : ∀ f sid', AllowListed sid' → f = gw.ledgerFile sid' → gw.Guards f := fun f sid' h heq =>
    ⟨sid', h, Or.inl heq⟩
  unfold writeSidecarAtomic
  refine touches.bind fun _ => Keeps.bind (Keeps.modified fun l hl => ?_) fun _ => ?_
  · refine hl.log (fun w hw => ?_) fun w hw sid' hsid' hmem => ?_
    · obtain ⟨left, rfl⟩ := mem_fsWrite hw
      exact .overwrite (sidecarTmpFile_not_guards layout hid)
    · obtain ⟨left, rfl⟩ := mem_fsWrite hw
      exact absurd (none _ sid' hsid' (List.mem_singleton.mp hmem).symm)
        (sidecarTmpFile_not_guards layout hid)
  · split
    · refine Keeps.modified fun l hl => hl.log ?_ ?_
      · exact List.forall_mem_singleton.mpr (.rename layout hid)
      · refine List.forall_mem_singleton.mpr fun sid' hsid' hmem => ?_
        simp only [FileWrite.files, List.mem_cons, List.not_mem_nil, or_false] at hmem
        rcases hmem with htmp | hside
        · exact absurd (none _ sid' hsid' htmp.symm) (sidecarTmpFile_not_guards layout hid)
        · exact absurd hside (ledgerFile_ne_sidecarFile layout hsid' hid)
    · exact Keeps.pure

theorem startClaimed_sound {manifestPath : String} {wasName : Bool}
    {initialContext : Option Json} (layout : DefaultLayout gw.toGateway cwd)
    (hid : AllowListed sid) :
    Triple (fun l => l.writes = [] ∧ gw.Sound m (some sid) l)
      (gw.startClaimed io sid manifestPath wasName initialContext)
      (fun _ => gw.Sound m (some sid)) (gw.Sound m (some sid)) := by
  unfold startClaimed
  refine .bind_lift (fun _ _ => ?_) fun _ hl => hl.2
  refine .bind (claimLedger_sound layout hid) fun _ => .of_fact fun hnone => ?_
  refine .bind (.tryCatch (launchSession_sound layout hid) fun e => ?_) fun r =>
    .of_fact fun hserved => ?_
  · exact .bind (removeLedger_sound layout hid hnone) fun _ => Triple.throw fun _ hl => hl
  refine .bind (Q := fun _ => gw.Sound m (some sid)) (onServer_triple fun ws =>
    Triple.modified fun s hs => hs.install hserved) fun _ => ?_
  exact .bind (writeSidecarAtomic_sound layout hid) fun _ => Keeps.pure

theorem protocolStart_sound {req : Gateway.StartRequest} (layout : DefaultLayout gw.toGateway cwd)
    (huuid : AllowListed io.uuid) :
    Triple (fun l => l.writes = [] ∧ gw.Sound m (some (req.sessionId.getD io.uuid)) l)
      (gw.protocolStart io req) (fun _ => gw.Sound m (some (req.sessionId.getD io.uuid)))
      (gw.Sound m (some (req.sessionId.getD io.uuid))) := by
  unfold protocolStart
  split
  · exact Triple.throw fun _ hl => hl.2
  refine .bind_lift (fun _ hvalid => ?_) fun _ hl => hl.2
  have hid : AllowListed (req.sessionId.getD io.uuid) := by
    cases hreq : req.sessionId with
    | none => exact huuid
    | some sid =>
      rw [hreq] at hvalid
      exact validateSessionId_ok.mp hvalid
  refine .bind (Q := fun _ l => l.writes = [] ∧ gw.Sound m (some (req.sessionId.getD io.uuid)) l)
    (Triple.reads fun _ hl => hl) fun sessions => ?_
  dsimp only
  split
  · exact Triple.throw fun _ hl => hl.2
  split
  · exact Triple.throw fun _ hl => hl.2
  exact .bind (startClaimed_sound layout hid) fun _ => Keeps.pure

omit [DecidableEq F] in
/-- A blob is on none of the guarded files. -/
theorem blob_spares {served : Served} {stepId : String} {data : Bytes}
    (layout : DefaultLayout gw.toGateway cwd) (hid : AllowListed sid)
    (huuid : AllowListed io.host.artifacts.uuid) (hserved : gw.Housed sid served) :
    ∀ w ∈ gw.blob io served sid stepId data, ∃ f bytes, w = .overwrite f bytes ∧ ¬gw.Guards f := by
  intro w hw
  unfold blob at hw
  split at hw
  · cases hw
  · rename_i path hpath
    obtain ⟨left, rfl⟩ := mem_fsWrite hw
    exact ⟨_, left, rfl, blob_not_guards layout hid huuid hserved.artifactRoot hpath⟩

theorem protocolStoreArtifact_sound {stepId content : String} {mimeType : Option String}
    (layout : DefaultLayout gw.toGateway cwd) (hid : AllowListed sid)
    (huuid : AllowListed io.host.artifacts.uuid) :
    Keeps (gw.Sound m own) (gw.protocolStoreArtifact io sid stepId content mimeType) := by
  unfold protocolStoreArtifact
  refine Triple.bind (getOrRecover_sound layout hid) fun served => .of_fact fun hserved => ?_
  refine .bind (operate_sound layout hid hserved (blob_spares layout hid huuid hserved)) fun r =>
    .of_fact fun hr => onServer_triple fun ws => ?_
  exact .bind_modify (M := fun s => gw.Sound m own ⟨s, ws⟩) (fun s hs => hs.install hr) Keeps.lift

theorem protocolGetState_sound (layout : DefaultLayout gw.toGateway cwd)
    (hid : AllowListed sid) : Keeps (gw.Sound m own) (gw.protocolGetState io sid) := by
  unfold protocolGetState
  refine Triple.bind (getOrRecover_sound layout hid) fun served => .of_fact fun _ =>
    onServer_triple fun ws => ?_
  refine Keeps.bind Keeps.lift fun state => ?_
  refine Keeps.bind (Keeps.modified fun s hs => hs.touch) fun _ => ?_
  exact Keeps.bind Keeps.lift fun _ => Keeps.bind Keeps.reads fun _ => Keeps.pure

/-! ## Submissions -/

variable (gw) in
/-- The engine a call on the session `sid` meets. -/
def lookUp (io : FileIo) (s : ProtocolServer F) (sid : String) : Option Served :=
  (exec (gw.toGateway.getOrRecover io.toIo sid) { s with opened := [] }).1.toOption

variable (gw) in
/-- A submission that comes to write a deliverable writes it on none of the enforcer's own
files. -/
def Spares (m : Machine F) (x : FileIo × ToolCall) : Prop :=
  ∀ sid pos evidence output, x.2 = .submit sid pos evidence output →
    ∀ served, gw.lookUp x.1 m.server sid = some served →
      ∀ w ∈ gw.deliverable x.1 served sid pos evidence output, ∀ f ∈ w.files, ¬gw.Guards f

/-- Looking up with the writes is looking up. -/
theorem exec_getOrRecover {s : ProtocolServer F} {served : Served} :
    gw.lookUp io s sid = some served ↔
      ∃ l, exec (gw.getOrRecover io sid) ⟨{ s with opened := [] }, []⟩ = (.ok served, l) := by
  have projects : Projects Logged.server id (gw.getOrRecover io sid)
    (gw.toGateway.getOrRecover io.toIo sid) := getOrRecover_projects
  have hproj := (projects ⟨{ s with opened := [] }, []⟩).1
  unfold lookUp
  rw [← hproj]
  rcases exec (gw.getOrRecover io sid) ⟨{ s with opened := [] }, []⟩ with ⟨r, l⟩
  cases r with
  | ok served' =>
    constructor
    · intro h
      cases h
      exact ⟨l, rfl⟩
    · rintro ⟨l', h⟩
      cases h
      rfl
  | error e =>
    refine ⟨fun h => (nomatch h), ?_⟩
    rintro ⟨l', h⟩
    cases h

/-- A submission that meets an engine writes its deliverable. -/
theorem submit_writes {served : Served} {pos : Position} {evidence : ChecklistEvidence}
    {output : Option Json} (h : gw.lookUp io m.server sid = some served) :
    ∀ w ∈ gw.deliverable io served sid pos evidence output,
      w ∈ gw.writes m (io, .submit sid pos evidence output) := by
  obtain ⟨l, hl⟩ := exec_getOrRecover.mp h
  intro w hw
  have hexec : (exec (gw.protocolSubmitMilestone io sid pos evidence output)
      ⟨{ m.server with opened := [] }, []⟩).2.writes =
      l.writes ++ (gw.deliverable io served sid pos evidence output ++
        gw.appended io served (served.engine.submitMilestone io.host sid pos evidence output)
          l.server) := by
    unfold protocolSubmitMilestone
    rw [exec_bind_ok hl, exec_bind_ok (exec_operate ..), exec_onServer]
  show w ∈ (exec (gw.protocolSubmitMilestone io sid pos evidence output >>= _) _).2.writes
  rw [exec_drop, hexec]
  exact List.mem_append_right _ (List.mem_append_left _ hw)

/-- **Within a submission that spares them**, the enforcer's own files are sound. -/
theorem protocolSubmitMilestone_sound {pos : Position} {evidence : ChecklistEvidence}
    {output : Option Json} (layout : DefaultLayout gw.toGateway cwd) (hid : AllowListed sid)
    (hspares : gw.Spares m (io, .submit sid pos evidence output)) :
    Triple (fun l => l = ⟨{ m.server with opened := [] }, []⟩ ∧ gw.Sound m none l)
      (gw.protocolSubmitMilestone io sid pos evidence output) (fun _ => gw.Sound m none)
      (gw.Sound m none) := by
  unfold protocolSubmitMilestone
  refine .bind (Q := fun served l => (gw.lookUp io m.server sid = some served ∧
    gw.Housed sid served) ∧ gw.Sound m none l) ?_ fun served => .of_fact fun hserved => ?_
  · rintro l ⟨rfl, hl⟩
    have sound : Triple (gw.Sound m none) (gw.getOrRecover io sid) _ _ :=
      getOrRecover_sound layout hid
    have lookup := sound _ hl
    split at lookup
    · rename_i served l' heq
      exact ⟨⟨exec_getOrRecover.mpr ⟨l', heq⟩, lookup.1⟩, lookup.2⟩
    · exact lookup
  refine .bind (operate_sound layout hid hserved.2 fun w hw => ?_) fun r =>
    .of_fact fun hr => onServer_triple fun ws => ?_
  · have hmiss := hspares sid pos evidence output rfl served hserved.1 w hw
    unfold deliverable at hw
    split at hw
    · cases hw
    · obtain ⟨left, rfl⟩ := mem_fsWrite hw
      exact ⟨_, left, rfl, hmiss _ (List.mem_singleton.mpr rfl)⟩
  refine .bind_modify (M := fun s => gw.Sound m none ⟨s, ws⟩) (fun s hs => hs.install hr) ?_
  refine Keeps.bind Keeps.lift fun outcome => ?_
  split
  · exact Keeps.bind (Keeps.modified fun s hs => hs.touch) fun _ => Keeps.pure
  · exact Keeps.pure

/-! ## Runs -/

/-- The session whose start a call is. -/
def startedBy (x : FileIo × ToolCall) : Option String :=
  match x.2 with
  | .start req => some (req.sessionId.getD x.1.uuid)
  | _ => none

variable (gw) in
/-- What the call owes the enforcer's own files: what a session's ledger file held is the
beginning of what it holds afterwards, no sidecar is written but by the session's own
start, and nothing is written over any of these files, by the output contract or
otherwise. -/
structure AppendOnly (m : Machine F) (x : FileIo × ToolCall) : Prop where
  ledger : ∀ sid, AllowListed sid → ∀ bytes, m.disk (gw.ledgerFile sid) = some bytes →
    ∃ bytes', (gw.after m x).disk (gw.ledgerFile sid) = some bytes' ∧ bytes <+: bytes'
  sidecar : ∀ sid, AllowListed sid → ∀ w ∈ gw.writes m x, gw.sidecarFile sid ∈ w.files →
    startedBy x = some sid
  overwrites : ∀ f bytes, .overwrite f bytes ∈ gw.writes m x → ¬gw.Guards f

/-- The ids of a call are the gateway's: it checks them or they are on the allow-list, and
so are the UUIDs it meets. -/
structure Addressed (x : FileIo × ToolCall) : Prop where
  call : Gateway.ChecksId x.2
  uuid : AllowListed x.1.uuid
  blob : AllowListed x.1.host.artifacts.uuid

/-- A call that spares the enforcer's own files is sound to its end. -/
theorem serve_sound {x : FileIo × ToolCall} (layout : DefaultLayout gw.toGateway cwd)
    (hx : Addressed x) (hspares : gw.Spares m x) (hknown : gw.Known m)
    (hhoused : gw.AllHoused m.server) : gw.Sound m (startedBy x) (gw.serve m x).2 := by
  obtain ⟨io, call⟩ := x
  have start : ∀ own, gw.Sound m own ⟨{ m.server with opened := [] }, []⟩ := fun own =>
    .start hknown hhoused
  have hid : (∀ req, call ≠ .start req) → ∀ sid, call.sessionId = some sid → AllowListed sid := by
    intro hstart
    rcases hx.call with ⟨req, hreq⟩ | hlisted
    · exact absurd hreq (hstart req)
    · exact hlisted
  show gw.Sound m _ (exec (gw.tool io call) _).2
  cases call with
  | start req =>
    exact (Triple.bind (protocolStart_sound layout hx.uuid) fun _ => Keeps.pure).ends
      ⟨rfl, start _⟩
  | submit sid =>
    exact (Triple.bind (protocolSubmitMilestone_sound layout (hid nofun sid rfl) hspares)
      fun _ => Keeps.pure).ends ⟨rfl, start _⟩
  | getState sid =>
    exact ((protocolGetState_sound layout (hid nofun sid rfl)).bind fun _ => Keeps.pure).ends
      (start none)
  | storeArtifact sid =>
    exact ((protocolStoreArtifact_sound layout (hid nofun sid rfl) hx.blob).bind fun _ =>
      Keeps.pure).ends (start none)
  | restart => exact ⟨nofun, hknown, nofun⟩

/-- So it is append-only, -/
theorem Sound.appendOnly {x : FileIo × ToolCall}
    (h : gw.Sound m (startedBy x) (gw.serve m x).2) : gw.AppendOnly m x where
  ledger sid hsid bytes hbytes :=
    FileWrite.applyAll_extends (fun w hw => (h.intact w hw).ledger sid hsid
      (Option.isSome_iff_exists.mpr ⟨bytes, hbytes⟩)) hbytes
  sidecar sid hsid w hw hmem := (h.intact w hw).sidecar sid hsid hmem
  overwrites f bytes hmem := (h.intact _ hmem).overwrites f bytes rfl

/-- and one that is has spared them. -/
theorem AppendOnly.spares {x : FileIo × ToolCall} (h : gw.AppendOnly m x) : gw.Spares m x := by
  obtain ⟨io, call⟩ := x
  rintro sid pos evidence output rfl served hserved w hw f hf
  have hmem := submit_writes hserved w hw
  unfold deliverable at hw
  split at hw
  · cases hw
  · obtain ⟨left, rfl⟩ := mem_fsWrite hw
    rw [List.mem_singleton.mp hf]
    exact h.overwrites _ left hmem

/-- **The ledger is append-only exactly where the output contracts spare it**: in the
default layout, a run of gateway processes leaves what is in every ledger file as the
beginning of what comes, and every sidecar to its own session's start, if and only if no
submission of the run writes its deliverable on a ledger file or a sidecar. -/
theorem append_only_iff {calls : List (FileIo × ToolCall)}
    (layout : DefaultLayout gw.toGateway cwd) (hfresh : m.server.Fresh) (hknown : gw.Known m)
    (hcalls : ∀ x ∈ calls, Addressed x) :
    Runs.Along gw.after gw.AppendOnly m calls ↔ Runs.Along gw.after gw.Spares m calls := by
  have hhoused : gw.AllHoused m.server := by
    intro sid served hserved
    rw [hfresh sid] at hserved
    cases hserved
  clear hfresh
  induction calls generalizing m with
  | nil => exact Iff.rfl
  | cons x rest ih =>
    rw [List.forall_mem_cons] at hcalls
    have onward : gw.Spares m x → gw.Sound m (startedBy x) (gw.serve m x).2 := fun hspares =>
      serve_sound layout hcalls.1 hspares hknown hhoused
    constructor
    · rintro ⟨happend, hrest⟩
      have hsound := onward happend.spares
      exact ⟨happend.spares, (ih hsound.known hcalls.2 hsound.housed).mp hrest⟩
    · rintro ⟨hspares, hrest⟩
      have hsound := onward hspares
      exact ⟨hsound.appendOnly, (ih hsound.known hcalls.2 hsound.housed).mpr hrest⟩

end FileGateway

/-! ## A destination in the ledger directory

The sample gateway in `/srv`, with a profile that delivers to a given destination. -/

namespace Sample

/-- The events' texts do not matter here. -/
def fileGateway (destination : String) : FileGateway (List Component) where
  vendor := { vendor with toStringPretty := fun _ => "null" }
  yaml _ := .ok { profile [checklist] with outputContract := some ⟨.object [], destination⟩ }
  ledgerDir := "./ledger"
  artifactRoot := "."
  outputBase := "/srv"
  profilesDir := none
  manifestStrict := false
  file := UnixPath.resolve [.rootDir, .normal "srv"]
  json := ⟨fun _ => .ok "\x7b\x7d", fun _ => .error ""⟩

def fileIo : FileIo := { io with tornLine := [], tornFile := none }

def machine : Machine (List Component) := ⟨server, fun _ => none⟩

def starting : FileIo × ToolCall := (fileIo, .start ⟨"sample.yaml", some "s1", none⟩)

/-- A start, and the submission that completes the session. -/
def delivered : List (FileIo × ToolCall) :=
  [starting, (fileIo, .submit "s1" ⟨"plan", "check"⟩ done (some .null))]

theorem fileGateway_layout (destination : String) :
    DefaultLayout (fileGateway destination).toGateway ["srv"] where
  ledgerDir := rfl
  artifactRoot := rfl
  outputBase := show UnixPath.components "/srv" = _ by decide
  file _ _ := Iff.rfl

/-- The ids that the outside mints there. -/
theorem fileIo_listed : AllowListed fileIo.uuid ∧ AllowListed fileIo.host.artifacts.uuid :=
  ⟨⟨by decide, by decide, List.all_eq_true.mp (by decide)⟩,
    ⟨by decide, by decide, List.all_eq_true.mp (by decide)⟩⟩

theorem delivered_addressed : ∀ x ∈ delivered, FileGateway.Addressed x := by
  have hsid : AllowListed "s1" := ⟨by decide, by decide, List.all_eq_true.mp (by decide)⟩
  simp only [delivered, List.forall_mem_cons]
  refine ⟨⟨Or.inl ⟨_, rfl⟩, fileIo_listed.1, fileIo_listed.2⟩,
    ⟨Or.inr ?_, fileIo_listed.1, fileIo_listed.2⟩, fun _ hx => absurd hx List.not_mem_nil⟩
  rintro sid h
  cases h
  exact hsid

end Sample

namespace FileGateway

/-- Delivered next to the ledger directory. -/
theorem append_only_iff_outside :
    let gw := Sample.fileGateway "out/\x7bsession_id\x7d.json"
    Runs.Along gw.after gw.AppendOnly Sample.machine Sample.delivered := by
  intro gw
  refine (append_only_iff (Sample.fileGateway_layout _) (fun _ => rfl) (fun _ _ _ => rfl)
    Sample.delivered_addressed).mpr ⟨nofun, ?_, trivial⟩
  rintro sid pos evidence output heq served hserved w hw f hf
  cases heq
  have hdelivers : (gw.lookUp Sample.fileIo (gw.after Sample.machine Sample.starting).server
      "s1").map (fun served => gw.deliverable Sample.fileIo served "s1" ⟨"plan", "check"⟩
        Sample.done (some .null)) =
      some [.overwrite [.rootDir, .normal "srv", .normal "out", .normal "s1.json"]
        (bytesOf "null")] := by decide +kernel
  rw [show gw.lookUp Sample.fileIo (gw.after Sample.machine Sample.starting).server "s1" =
    some served from hserved] at hdelivers
  have hlist : gw.deliverable Sample.fileIo served "s1" ⟨"plan", "check"⟩ Sample.done
      (some .null) = _ := Option.some.inj hdelivers
  have hw : w ∈ gw.deliverable Sample.fileIo served "s1" ⟨"plan", "check"⟩ Sample.done
      (some .null) := hw
  rw [hlist, List.mem_singleton] at hw
  rw [hw] at hf
  rw [List.mem_singleton.mp hf]
  have hres : UnixPath.resolve (.rootDir :: ["srv"].map .normal)
      [.normal "out", .normal "s1.json"] =
      (.rootDir :: ["srv"].map .normal) ++ ("out" :: ["s1.json"]).map .normal := rfl
  exact not_guards_of_resolve (Sample.fileGateway_layout _) (by decide) hres

/-- Delivered over the ledger: what the start had appended is gone. -/
theorem append_only_fails :
    let gw := Sample.fileGateway "ledger/\x7bsession_id\x7d.jsonl"
    DefaultLayout gw.toGateway ["srv"] ∧ Sample.machine.server.Fresh ∧ gw.Known Sample.machine ∧
      (∀ x ∈ Sample.delivered, Addressed x) ∧
      ¬Runs.Along gw.after gw.AppendOnly Sample.machine Sample.delivered := by
  intro gw
  refine ⟨Sample.fileGateway_layout _, fun _ => rfl, fun _ _ _ => rfl, Sample.delivered_addressed,
    ?_⟩
  rintro ⟨-, hsubmit, -⟩
  have hsid : AllowListed "s1" := ⟨by decide, by decide, List.all_eq_true.mp (by decide)⟩
  have hbefore : (gw.after Sample.machine Sample.starting).disk (gw.ledgerFile "s1") =
      some (bytesOf "\x7b\x7d\n") := by decide +kernel
  have hafter : (Sample.delivered.foldl gw.after Sample.machine).disk (gw.ledgerFile "s1") =
      some (bytesOf "null\x7b\x7d\n\x7b\x7d\n") := by decide +kernel
  obtain ⟨bytes', hbytes', hbelow⟩ := hsubmit.ledger "s1" hsid _ hbefore
  obtain rfl := Option.some.inj (hafter.symm.trans hbytes')
  exact absurd hbelow (by decide +kernel)

end FileGateway

end ProtocolEnforcer
