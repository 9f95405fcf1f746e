import ProtocolEnforcer.Gateway.AppendOnly

/-!
# The files of a session

What the gateway keeps for a session: its ledger, its sidecar and its artifacts. In the
default layout no file is kept for two sessions. And what is known of the engines that the
tools answer with: each writes the files of its session.
-/

namespace ProtocolEnforcer

open Effect FileTool

namespace FileGateway

/-! ## The files of a session -/

section

variable {F : Type} (gw : FileGateway F) (sid : String)

/-- The files the gateway keeps for a session. -/
inductive KeptFor : F → Prop where
  | ledger : KeptFor (gw.ledgerFile sid)
  | sidecar : KeptFor (gw.sidecarFile sid)
  | sidecarTmp : KeptFor (gw.sidecarTmpFile sid)
  | blob {host : ArtifactIo} {store : ArtifactStore} {stepId path : String}
      (new : ArtifactStore.new host sid gw.artifactRoot = .ok store)
      (uuid : AllowListed host.uuid) (written : store.blobPath host stepId = some path) :
      KeptFor (gw.fileAt path)

/-- The files that a session's calls work on: those that are kept for it are among them, and
none is kept for another session. -/
structure Private (own : F → Prop) : Prop where
  listed : AllowListed sid
  kept : ∀ f, gw.KeptFor sid f → own f
  others : ∀ sid' f, AllowListed sid' → sid' ≠ sid → gw.KeptFor sid' f → ¬own f

variable {gw sid} {cwd : List String} {sid' : String} {f : F}

/-- In the default layout they are named after the session. -/
theorem KeptFor.names (layout : DefaultLayout gw.toGateway cwd) (h : AllowListed sid)
    (hf : gw.KeptFor sid f) : ∃ p names, f = gw.file p ∧
      UnixPath.resolve (.rootDir :: cwd.map .normal) p =
        (.rootDir :: cwd.map .normal) ++ names.map .normal ∧
      ((∃ ext : String, ext.toList.head? = some '.' ∧ names = ["ledger", sid ++ ext]) ∨
        ∃ rest, names = ".artifacts" :: sid :: rest) := by
  cases hf with
  | ledger => exact ⟨_, _, rfl, resolve_child layout (simple_ledger h),
      Or.inl ⟨".jsonl", by decide, rfl⟩⟩
  | sidecar => exact ⟨_, _, rfl, resolve_child layout (simple_sidecar h),
      Or.inl ⟨".manifest.json", by decide, rfl⟩⟩
  | sidecarTmp => exact ⟨_, _, rfl, resolve_child layout (h.simple (by decide) (by decide)),
      Or.inl ⟨".manifest.json.tmp", by decide, rfl⟩⟩
  | blob new uuid written =>
    obtain ⟨names, hres⟩ := resolve_blob layout h uuid new written
    exact ⟨_, _, rfl, hres, Or.inr ⟨names, rfl⟩⟩

/-- An id is what stands before the first dot. -/
theorem takeWhile_name {ext : String} (h : AllowListed sid) (hext : ext.toList.head? = some '.') :
    (sid ++ ext).toList.takeWhile (· ≠ '.') = sid.toList := by
  obtain ⟨rest, hrest⟩ := List.head?_eq_some_iff.mp hext
  rw [String.toList_append, hrest, List.takeWhile_append_of_pos]
  · rw [List.takeWhile_cons_of_neg (by decide), List.append_nil]
  · intro c hc
    refine decide_eq_true ?_
    rintro rfl
    exact absurd (h.chars _ hc) (by decide)

/-- So no file is kept for two sessions, -/
theorem KeptFor.session_eq (layout : DefaultLayout gw.toGateway cwd) (h : AllowListed sid)
    (h' : AllowListed sid') (hf : gw.KeptFor sid f) (hf' : gw.KeptFor sid' f) : sid = sid' := by
  obtain ⟨p, names, rfl, hres, hnames⟩ := hf.names layout h
  obtain ⟨p', names', hfile, hres', hnames'⟩ := hf'.names layout h'
  have heq := (layout.file _ _).mp hfile
  rw [hres, hres'] at heq
  obtain rfl : names = names' :=
    List.map_injective_iff.mpr (fun _ _ => Component.normal.inj) (List.append_cancel_left heq)
  rcases hnames with ⟨ext, hext, rfl⟩ | ⟨rest, rfl⟩
  · rcases hnames' with ⟨ext', hext', hname⟩ | ⟨rest', hname⟩
    · simp only [List.cons.injEq, true_and, and_true] at hname
      rw [← String.toList_inj, ← takeWhile_name h hext, ← takeWhile_name h' hext', hname]
    · simp at hname
  · rcases hnames' with ⟨ext', -, hname⟩ | ⟨rest', hname⟩
    · simp at hname
    · simp only [List.cons.injEq, true_and] at hname
      exact hname.1

/-- and a session has those that are kept for it to itself. -/
theorem KeptFor.private (layout : DefaultLayout gw.toGateway cwd) (h : AllowListed sid) :
    gw.Private sid (gw.KeptFor sid) where
  listed := h
  kept _ hf := hf
  others _ _ h' hne hf' hf := hne (hf'.session_eq layout h' h hf)

/-- A file below another directory is none of them. -/
theorem not_keptFor_of_resolve {p : List Component} {dir : String} {names : List String}
    (layout : DefaultLayout gw.toGateway cwd) (h : AllowListed sid) (hledger : dir ≠ "ledger")
    (hartifacts : dir ≠ ".artifacts") (hp : UnixPath.resolve (.rootDir :: cwd.map .normal) p =
      (.rootDir :: cwd.map .normal) ++ (dir :: names).map .normal) :
    ¬gw.KeptFor sid (gw.file p) := by
  intro hf
  obtain ⟨p', names', hfile, hres, hnames⟩ := hf.names layout h
  have heq := (layout.file _ _).mp hfile
  rw [hp, hres] at heq
  have hsame : dir :: names = names' :=
    List.map_injective_iff.mpr (fun _ _ => Component.normal.inj) (List.append_cancel_left heq)
  rcases hnames with ⟨ext, -, rfl⟩ | ⟨rest, rfl⟩
  · exact hledger (List.cons.inj hsame).1
  · exact hartifacts (List.cons.inj hsame).1

/-- A session's ledger is read where it is written. -/
theorem replayFile_eq (h : AllowListed sid) :
    gw.file (Gateway.replayPath (gw.ledgerPath sid) sid) = gw.ledgerFile sid := by
  have hname : UnixPath.Simple (sid ++ ".jsonl") := simple_ledger h
  rw [ledgerFile, fileAt, Gateway.replayPath, Gateway.ledgerPath, UnixPath.components_join,
    UnixPath.joined_simple _ hname, UnixPath.parent, UnixPath.joined_simple _ hname,
    List.dropLast_concat]

end

/-! ## What is known of an answer -/

section

variable {F : Type} [DecidableEq F] {gw : FileGateway F} {io : FileIo} {sid : String}
  {served : Served}

theorem ledgerNew_path :
    Returns (fun _ => True) (· = gw.ledgerPath sid) (gw.ledgerNew io sid) := by
  refine .bind (V := (· = gw.ledgerPath sid)) (onServer_triple fun _ s _ => ?_) fun path hpath => ?_
  · rw [Gateway.exec_ledgerNew]
    cases io.ledgerNew with
    | ok _ => exact rfl
    | error _ => trivial
  · exact .bind .any fun _ _ => .pure hpath

theorem operate_housed {α : Type} {before : List (FileWrite F)}
    {op : Effect (World SessionLedger) FsmError α} (h : gw.Housed sid served) :
    Returns (fun _ => True) (fun r => gw.Housed sid r.2) (gw.operate io served before op) := by
  intro l _
  rw [exec_operate]
  exact ⟨h.path, h.artifactRoot⟩

theorem recoverIntoCache_housed :
    Returns (fun _ => True) (gw.Housed sid) (gw.recoverIntoCache io sid) := by
  unfold recoverIntoCache
  refine .bind .any fun _ _ => .bind .any fun sidecar _ => .bind .any fun profile _ => ?_
  refine .bind ledgerNew_path fun path hpath => onServer_triple fun _ => ?_
  refine Returns.bind .any fun _ _ => Returns.bind .any fun _ _ => Returns.bind .any fun events _ => ?_
  exact Returns.bind .any fun _ _ => .pure ⟨hpath, rfl⟩

theorem getOrRecover_housed :
    Returns (fun l => gw.AllHoused l.server) (gw.Housed sid) (gw.getOrRecover io sid) := by
  unfold getOrRecover
  refine .bind (V := fun sessions => ∀ served, sessions sid = some served → gw.Housed sid served)
    (Triple.reads fun _ h => h sid) fun sessions hsessions => ?_
  split
  · rename_i served hserved
    exact .pure (hsessions served hserved)
  · exact .bind recoverIntoCache_housed fun served hserved => .bind .any fun _ _ => .pure hserved

theorem launchSession_housed {manifestPath : String} {wasName : Bool} {ctx : Option Json} :
    Returns (fun _ => True) (fun r => gw.Housed sid r.1.1)
      (gw.launchSession io sid manifestPath wasName ctx) := by
  unfold launchSession
  refine .bind .any fun loadPath _ => .bind .any fun profile _ => ?_
  refine .bind ledgerNew_path fun path hpath => ?_
  exact .bind (operate_housed ⟨hpath, rfl⟩) fun r hr => .bind .any fun _ _ => .pure hr

/-- A start that is cleaned up after has no answer. -/
theorem launched_housed {manifestPath : String} {wasName : Bool} {ctx : Option Json} :
    Returns (fun _ => True) (fun r => gw.Housed sid r.1.1)
      (tryCatch (gw.launchSession io sid manifestPath wasName ctx) fun e => do
        gw.removeLedger io sid
        throw e) :=
  Triple.tryCatch launchSession_housed fun _ => Returns.bind .any fun _ _ =>
    Triple.throw fun _ h => h

end

end FileGateway

end ProtocolEnforcer
