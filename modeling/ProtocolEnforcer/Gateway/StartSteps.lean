import ProtocolEnforcer.Fsm.Outcomes
import ProtocolEnforcer.Gateway.Server

/-!
# The steps of a start

`protocol_start` on one session id, step by step, for when other calls come between its
steps. A call claims the session by creating its ledger file, which the file system lets one
call do; a call that fails after its claim removes the file again. What a path leads to and
what an open file holds are kept apart: a file removed under a call that has it open is
still written to. A call that nobody comes between does what `protocol_start` does.
-/

namespace ProtocolEnforcer

open Effect

/-- What the processes `P` hold of one session: its files in the directory they share, and
the entry for it in each registry. -/
structure SessionFiles (P : Type) where
  /-- The file at the ledger's path. -/
  ledger : Option Nat
  /-- What is in a file, whether or not a path leads to it. -/
  contents : Nat → List FsmEvent
  /-- The number of the next new file. -/
  fresh : Nat
  sidecar : Option Sidecar
  registry : P → Option Served

namespace SessionFiles

variable {P : Type} (files : SessionFiles P)

/-- An empty file, at the ledger's path. -/
def create : SessionFiles P :=
  { files with
    ledger := some files.fresh
    contents := Function.update files.contents files.fresh []
    fresh := files.fresh + 1 }

/-- `Ledger::new`: the file it has open. -/
def openLedger : Nat × SessionFiles P :=
  match files.ledger with
  | some n => (n, files)
  | none => (files.fresh, files.create)

/-- `Ledger::append`, to an open file. -/
def append (fd : Nat) (event : FsmEvent) : SessionFiles P :=
  { files with contents := Function.update files.contents fd (files.contents fd ++ [event]) }

/-- `remove_file` on the ledger's path. -/
def remove : SessionFiles P := { files with ledger := none }

/-- An engine in the registry of a process. -/
def install [DecidableEq P] (p : P) (served : Served) : SessionFiles P :=
  { files with registry := Function.update files.registry p (some served) }

/-- The events at the ledger's path. -/
def read : Option (List FsmEvent) := files.ledger.map files.contents

end SessionFiles

/-- Where a `protocol_start` is: what it does next, and what it has for that. -/
inductive StartStage where
  /-- The checks up to the registry's. -/
  | checks
  /-- `create_new` on the ledger's path. -/
  | claims
  /-- The profile's load and validation. -/
  | loads
  /-- `Ledger::new`. -/
  | opens (profile : Profile) (loadPath : String)
  /-- `start_session`, with these events still to append. -/
  | appends (fd : Nat) (todo : List FsmEvent) (profile : Profile) (loadPath : String)
  /-- `remove_file` on the ledger's path. -/
  | cleans (e : ErrorData)
  /-- The second look at the registry, and the insert. -/
  | inserts (profile : Profile) (loadPath : String) (view : StepView)
  /-- The sidecar. -/
  | writes (profile : Profile) (loadPath : String) (view : StepView)
  | started (view : StepView)
  | refused (e : ErrorData)

/-- The call has claimed the ledger file, and has not given it up. -/
def StartStage.Owns : StartStage → Prop
  | checks | claims | refused _ => False
  | _ => True

/-- The call has returned. -/
def StartStage.Ended : StartStage → Prop
  | started _ | refused _ => True
  | _ => False

/-- One `protocol_start` on the session `sid`. -/
structure Starter (F P : Type) (sid : String) where
  process : P
  gw : Gateway F
  io : Io
  req : Gateway.StartRequest
  /-- Whether the blocking task panics, at each of its steps. -/
  panics : StartStage → Option String := fun _ => none
  names : req.sessionId.getD io.uuid = sid

namespace Starter

variable {F P : Type} [DecidableEq P] {sid : String} (c : Starter F P sid)

/-- What is checked before the claim. -/
def look (files : SessionFiles P) : Except ErrorData Unit :=
  if (UnixPath.components c.req.manifestPath).contains .parentDir then
    .error (.invalidParams "manifest_path must not contain '..' path components")
  else
    match c.req.sessionId.elim (.ok ()) validateSessionId with
    | .error e => .error e
    | .ok () =>
      if (files.registry c.process).isSome then
        .error (.invalidParams ("Session '" ++ sid ++ "' already exists"))
      else if !(c.gw.resolveManifestReference c.req.manifestPath).2 && c.gw.manifestStrict then
        .error (.invalidParams
          "manifest_path must be a bare profile name when PROTOCOL_MANIFEST_STRICT is set")
      else .ok ()

/-- The claim: the file system creates the file for one call. -/
def claim (files : SessionFiles P) : Except ErrorData (SessionFiles P) :=
  match c.io.createDirAll with
  | .error e => .error (.internalError ("Failed to create ledger dir: " ++ e))
  | .ok () =>
    if files.ledger.isSome then
      .error (.invalidParams ("Session '" ++ sid ++ "' already exists (ledger present)"))
    else
      match c.io.claim with
      | .error e => .error (.internalError ("Failed to claim ledger file: " ++ e))
      | .ok () => .ok files.create

/-- The profile, and the path it is loaded from. -/
def load : Except ErrorData (Profile × String) :=
  match c.gw.resolveLoadPath c.io (c.gw.resolveManifestReference c.req.manifestPath).1
    (c.gw.resolveManifestReference c.req.manifestPath).2 with
  | .error e => .error e
  | .ok loadPath => (c.gw.loadValid c.io loadPath).map (·, loadPath)

def engine (profile : Profile) (loadPath : String) : ProfileFsmEngine :=
  .new c.gw.vendor profile (c.gw.configFor c.io profile loadPath)

/-- What `start_session` answers and leaves in memory, and what it appends on the way. -/
def launched (profile : Profile) (loadPath : String) :
    Except FsmError StepView × World SessionLedger :=
  exec ((c.engine profile loadPath).startSession c.io.host sid c.req.initialContext)
    ⟨⟨[], c.io.appends, 0⟩, fun _ => none, 0⟩

/-- The engine that the registry gets. -/
def served (profile : Profile) (loadPath : String) : Served :=
  ⟨c.engine profile loadPath, (c.launched profile loadPath).2.sessions, c.gw.ledgerPath sid⟩

/-- One step of the blocking task, unless it panics there. -/
def blocking (files : SessionFiles P) (stage : StartStage)
    (x : StartStage × SessionFiles P) : StartStage × SessionFiles P :=
  match c.panics stage with
  | some message => (.cleans (.internalError ("protocol_start task panicked: " ++ message)), files)
  | none => x

/-- The next step of the call: where it is then, and what it has changed. -/
def next (files : SessionFiles P) : StartStage → StartStage × SessionFiles P
  | .checks =>
    match c.look files with
    | .ok () => (.claims, files)
    | .error e => (.refused e, files)
  | .claims =>
    match c.claim files with
    | .ok files' => (.loads, files')
    | .error e => (.refused e, files)
  | .loads => c.blocking files .loads <|
    match c.load with
    | .ok (profile, loadPath) => (.opens profile loadPath, files)
    | .error e => (.cleans e, files)
  | .opens profile loadPath => c.blocking files (.opens profile loadPath) <|
    match c.io.ledgerNew with
    | .ok () => (.appends files.openLedger.1 (c.launched profile loadPath).2.ledger.events
        profile loadPath, files.openLedger.2)
    | .error e => (.cleans (.internalError
        ("Ledger init failed: " ++ (LedgerError.io e).display)), files)
  | .appends fd (e :: todo) profile loadPath =>
    c.blocking files (.appends fd (e :: todo) profile loadPath)
      (.appends fd todo profile loadPath, files.append fd e)
  | .appends fd [] profile loadPath => c.blocking files (.appends fd [] profile loadPath) <|
    match (c.launched profile loadPath).1 with
    | .ok view => (.inserts profile loadPath view, files)
    | .error e => (.cleans (.fsm e), files)
  | .cleans e =>
    match c.io.removeFile with
    | .ok () => (.refused e, files.remove)
    | .error _ => (.refused e, files)
  | .inserts profile loadPath view =>
    if (files.registry c.process).isSome then
      (.cleans (.invalidParams ("Session '" ++ sid ++ "' already exists")), files)
    else (.writes profile loadPath view, files.install c.process (c.served profile loadPath))
  | .writes _ loadPath view =>
    match c.io.writeSidecar with
    | .ok () => (.started view, { files with sidecar := some ⟨loadPath⟩ })
    | .error _ => (.started view, files)
  | .started view => (.started view, files)
  | .refused e => (.refused e, files)

end Starter

/-! ## The pieces -/

namespace SessionFiles

variable {P : Type} {files : SessionFiles P} {fd : Nat}

theorem read_eq (h : files.ledger = some fd) : files.read = some (files.contents fd) := by
  rw [read, h]
  rfl

theorem append_contents (e : FsmEvent) :
    (files.append fd e).contents fd = files.contents fd ++ [e] :=
  Function.update_self ..

theorem create_read : files.create.read = some [] := by
  rw [read_eq (show files.create.ledger = some files.fresh from rfl)]
  exact congrArg some (Function.update_self ..)

end SessionFiles

namespace Starter

variable {F P : Type} [DecidableEq P] {sid : String} {c : Starter F P sid} {files : SessionFiles P}

omit [DecidableEq P] in
/-- The registry has been looked at. -/
theorem look_entry (h : c.look files = .ok ()) : files.registry c.process = none := by
  unfold look at h
  split at h
  · cases h
  · split at h
    · cases h
    · by_cases hentry : (files.registry c.process).isSome = true
      · rw [if_pos hentry] at h
        cases h
      · exact Option.not_isSome_iff_eq_none.mp hentry

omit [DecidableEq P] in
/-- The file system creates a file where there is none. -/
theorem claim_ok {files' : SessionFiles P} (h : c.claim files = .ok files') :
    files.ledger = none ∧ files' = files.create := by
  unfold claim at h
  split at h
  · cases h
  · by_cases hledger : files.ledger.isSome = true
    · rw [if_pos hledger] at h
      cases h
    · rw [if_neg hledger] at h
      split at h
      · cases h
      · cases h
        exact ⟨Option.not_isSome_iff_eq_none.mp hledger, rfl⟩

end Starter

/-! ## One call, undisturbed -/

namespace Starter

variable {F P : Type} [DecidableEq F] [DecidableEq P] {sid : String} {c : Starter F P sid}
  {files : SessionFiles P} {s : ProtocolServer F}

/-- The steps of a call that nobody comes between. -/
abbrev Steps (c : Starter F P sid) : StartStage × SessionFiles P → StartStage × SessionFiles P → Prop :=
  Relation.ReflTransGen fun x y => y = c.next x.2 x.1

/-- The ledger file, as the call's process resolves its path. -/
def file (c : Starter F P sid) : F := c.gw.file (UnixPath.components (c.gw.ledgerPath sid))

/-- The server of the call's process, as far as the session goes. -/
structure Shows (c : Starter F P sid) (files : SessionFiles P) (s : ProtocolServer F) : Prop where
  ledger : files.read = s.ledgers c.file
  entry : files.registry c.process = s.registry sid

/-- Where a call ends that answers `r`. -/
def ending : Except ErrorData StepView → StartStage
  | .ok view => .started view
  | .error e => .refused e

omit [DecidableEq P] in
/-- The checks are those of `protocol_start`. -/
theorem exec_protocolStart (h : c.Shows files s) :
    exec (c.gw.protocolStart c.io c.req) s =
      match c.look files with
      | .error e => (.error e, s)
      | .ok () => exec (do
          let view ← c.gw.startClaimed c.io sid (c.gw.resolveManifestReference c.req.manifestPath).1
            (c.gw.resolveManifestReference c.req.manifestPath).2 c.req.initialContext
          return (sid, view)) s := by
  have hentry := h.entry
  have hnames := c.names
  unfold Gateway.protocolStart look
  by_cases hdots : (UnixPath.components c.req.manifestPath).contains .parentDir = true
  · rw [if_pos hdots, if_pos hdots]
    rfl
  rw [if_neg hdots, if_neg hdots]
  cases hid : c.req.sessionId.elim (.ok ()) validateSessionId with
  | error e => rfl
  | ok _ =>
    rw [exec_bind_ok (exec_lift _ _), hnames]
    dsimp only
    rw [exec_bind_ok (exec_reads _ _), ← hentry]
    cases hrow : (files.registry c.process).isSome with
    | true =>
      rw [if_pos rfl]
      rfl
    | false =>
      rw [if_neg Bool.false_ne_true]
      cases hstrict : !(c.gw.resolveManifestReference c.req.manifestPath).2 && c.gw.manifestStrict with
      | true =>
        rw [if_pos rfl]
        rfl
      | false =>
        rw [if_neg Bool.false_ne_true]
        rfl

/-- `claim` is the claim of `protocol_start`. -/
def claiming (c : Starter F P sid) : Tool F Unit := do
  lift (c.io.createDirAll.mapError fun e =>
    .internalError ("Failed to create ledger dir: " ++ e))
  c.gw.claimLedger c.io sid

omit [DecidableEq P] in
theorem claiming_shows (h : c.Shows files s) :
    (exec c.claiming s).1 = (c.claim files).map (fun _ => ()) ∧
      c.Shows ((c.claim files).toOption.getD files) (exec c.claiming s).2 := by
  have htouched : c.Shows files (s.touch (UnixPath.components (c.gw.ledgerPath sid))) := ⟨h.1, h.2⟩
  have hledger : (s.ledgers c.file).isSome = files.ledger.isSome := by
    rw [← h.ledger, SessionFiles.read, Option.isSome_map]
  unfold claiming claim
  cases c.io.createDirAll with
  | error e => exact ⟨rfl, h⟩
  | ok _ =>
    change (exec (c.gw.claimLedger c.io sid) s).1 = _ ∧ c.Shows _ (exec (c.gw.claimLedger c.io sid) s).2
    unfold Gateway.claimLedger
    rw [exec_bind_ok (exec_modify _ _), exec_bind_ok (exec_reads _ _)]
    change (exec (if (s.ledgers c.file).isSome then _ else _) _).1 = _ ∧
      c.Shows _ (exec (if (s.ledgers c.file).isSome then _ else _) _).2
    rw [hledger]
    dsimp only
    cases files.ledger.isSome with
    | true => exact ⟨rfl, htouched⟩
    | false =>
      cases c.io.claim with
      | error e => exact ⟨rfl, htouched⟩
      | ok _ =>
        have hnew : ((s.touch (UnixPath.components (c.gw.ledgerPath sid))).setLedger c.file
            (some [])).ledgers c.file = some [] := Function.update_self ..
        exact ⟨rfl, SessionFiles.create_read.trans hnew.symm, h.entry⟩

omit [DecidableEq F] [DecidableEq P] in
/-- A task that does not panic goes on. -/
theorem blocking_eq (hpanics : ∀ stage, c.panics stage = none) {stage : StartStage}
    {x : StartStage × SessionFiles P} : c.blocking files stage x = x := by
  unfold blocking
  rw [hpanics]

section

variable (hpanics : ∀ stage, c.panics stage = none) {profile : Profile} {loadPath : String}
include hpanics

omit [DecidableEq F]

theorem next_loads : c.next files .loads =
    match c.load with
    | .ok (profile, loadPath) => (.opens profile loadPath, files)
    | .error e => (.cleans e, files) := blocking_eq hpanics

theorem next_opens : c.next files (.opens profile loadPath) =
    match c.io.ledgerNew with
    | .ok () => (.appends files.openLedger.1 (c.launched profile loadPath).2.ledger.events
        profile loadPath, files.openLedger.2)
    | .error e => (.cleans (.internalError
        ("Ledger init failed: " ++ (LedgerError.io e).display)), files) := blocking_eq hpanics

theorem next_appended {fd : Nat} : c.next files (.appends fd [] profile loadPath) =
    match (c.launched profile loadPath).1 with
    | .ok view => (.inserts profile loadPath view, files)
    | .error e => (.cleans (.fsm e), files) := blocking_eq hpanics

end

omit [DecidableEq F] in
/-- What `start_session` appends comes to the file it has open. -/
theorem appends_steps (hpanics : ∀ stage, c.panics stage = none) {fd : Nat} {todo : List FsmEvent}
    {profile : Profile} {loadPath : String} :
    ∃ files', c.Steps (.appends fd todo profile loadPath, files)
        (.appends fd [] profile loadPath, files') ∧
      files'.ledger = files.ledger ∧ files'.registry = files.registry ∧
      files'.contents fd = files.contents fd ++ todo := by
  induction todo generalizing files with
  | nil => exact ⟨files, .refl, rfl, rfl, (List.append_nil _).symm⟩
  | cons e todo ih =>
    have hrest : ∃ files', c.Steps (.appends fd todo profile loadPath, files.append fd e)
        (.appends fd [] profile loadPath, files') ∧
        files'.ledger = files.ledger ∧ files'.registry = files.registry ∧
        files'.contents fd = (files.append fd e).contents fd ++ todo := ih
    obtain ⟨files', hsteps, hledger, hregistry, hcontents⟩ := hrest
    refine ⟨files', .head ?_ hsteps, hledger, hregistry, ?_⟩
    · exact (blocking_eq hpanics).symm
    · rw [hcontents, SessionFiles.append_contents, List.append_assoc]
      rfl

/-- The part of `launchSession` behind the load. -/
def opening (c : Starter F P sid) (profile : Profile) (loadPath : String) :
    Tool F (Served × StepView) := do
  let path ← c.gw.ledgerNew c.io sid
  let (view, served) ← c.gw.operate c.io ⟨c.engine profile loadPath, fun _ => none, path⟩
    ((c.engine profile loadPath).startSession c.io.host sid c.req.initialContext)
  let view ← lift (view.mapError .fsm)
  return (served, view)

/-- The blocking part of `protocol_start`, with the arguments of the call. -/
def launching (c : Starter F P sid) : Tool F (Served × StepView) :=
  c.gw.launchSession c.io sid (c.gw.resolveManifestReference c.req.manifestPath).1
    (c.gw.resolveManifestReference c.req.manifestPath).2 c.req.initialContext

omit [DecidableEq P] in
theorem exec_launching : exec c.launching s =
    match c.load with
    | .error e => (.error e, s)
    | .ok (profile, loadPath) => exec (c.opening profile loadPath) s := by
  unfold launching Gateway.launchSession load
  cases c.gw.resolveLoadPath c.io (c.gw.resolveManifestReference c.req.manifestPath).1
      (c.gw.resolveManifestReference c.req.manifestPath).2 with
  | error e => rfl
  | ok loadPath =>
    rw [exec_bind_ok (exec_lift _ _)]
    dsimp only
    cases c.gw.loadValid c.io loadPath with
    | error e => rfl
    | ok profile => rfl

/-- The server once the engine has had its start, whatever came of that. -/
def openedServer (c : Starter F P sid) (profile : Profile) (loadPath : String)
    (s : ProtocolServer F) : ProtocolServer F :=
  ((s.touch (UnixPath.components (c.gw.ledgerPath sid))).setLedger c.file (some [])).setLedger
    c.file (some (c.launched profile loadPath).2.ledger.events)

omit [DecidableEq P] in
theorem exec_opening {profile : Profile} {loadPath : String} (hs : s.ledgers c.file = some []) :
    exec (c.opening profile loadPath) s =
      match c.io.ledgerNew with
      | .error e => (.error (.internalError
          ("Ledger init failed: " ++ (LedgerError.io e).display)),
          s.touch (UnixPath.components (c.gw.ledgerPath sid)))
      | .ok () => (((c.launched profile loadPath).1.mapError .fsm).map
          (c.served profile loadPath, ·), c.openedServer profile loadPath s) := by
  rw [opening, exec_bind, Gateway.exec_ledgerNew,
    show s.ledgers (c.gw.file (UnixPath.components (c.gw.ledgerPath sid))) = some [] from hs]
  cases c.io.ledgerNew with
  | error e => rfl
  | ok _ =>
    have hworld : c.gw.worldOf c.io ⟨c.engine profile loadPath, fun _ => none, c.gw.ledgerPath sid⟩
        ((s.touch (UnixPath.components (c.gw.ledgerPath sid))).setLedger c.file (some [])) =
        ⟨⟨[], c.io.appends, 0⟩, fun _ => none, 0⟩ := by
      unfold Gateway.worldOf
      rw [show ((s.touch (UnixPath.components (c.gw.ledgerPath sid))).setLedger c.file
        (some [])).ledgers (c.gw.file (UnixPath.components (c.gw.ledgerPath sid))) = some [] from
          Function.update_self ..]
      rfl
    have hoperate : exec (c.gw.operate c.io
        ⟨c.engine profile loadPath, fun _ => none, c.gw.ledgerPath sid⟩
        ((c.engine profile loadPath).startSession c.io.host sid c.req.initialContext))
        ((s.touch (UnixPath.components (c.gw.ledgerPath sid))).setLedger c.file (some [])) =
        (.ok ((c.launched profile loadPath).1, c.served profile loadPath),
          c.openedServer profile loadPath s) := by
      rw [Gateway.exec_operate, hworld]
      rfl
    refine (exec_bind_ok hoperate).trans ?_
    dsimp only
    cases (c.launched profile loadPath).1 with
    | error e => rfl
    | ok view => rfl

/-- The blocking part, run to its end on a claimed file: the call comes to insert the
engine, or to clean up. -/
theorem launching_steps (hpanics : ∀ stage, c.panics stage = none) (h : c.Shows files s)
    (hread : files.read = some []) :
    ∃ files' stage, c.Steps (.loads, files) (stage, files') ∧ files'.registry = files.registry ∧
      c.Shows files' (exec c.launching s).2 ∧
      match (exec c.launching s).1 with
      | .ok (served, view) => ∃ profile loadPath, stage = .inserts profile loadPath view ∧
          served = c.served profile loadPath
      | .error e => stage = .cleans e := by
  have hs : s.ledgers c.file = some [] := h.ledger.symm.trans hread
  have hnext : ∀ stage, c.Steps (stage, files) (c.next files stage) := fun stage => .single rfl
  have hloads := hnext .loads
  rw [exec_launching]
  rw [next_loads hpanics] at hloads
  cases hload : c.load with
  | error e =>
    rw [hload] at hloads
    exact ⟨files, _, hloads, rfl, h, rfl⟩
  | ok loaded =>
    obtain ⟨profile, loadPath⟩ := loaded
    rw [hload] at hloads
    have hopens := hnext (.opens profile loadPath)
    rw [next_opens hpanics] at hopens
    dsimp only
    rw [exec_opening hs]
    cases hnew : c.io.ledgerNew with
    | error e =>
      rw [hnew] at hopens
      exact ⟨files, _, hloads.trans hopens, rfl, ⟨h.ledger, h.entry⟩, rfl⟩
    | ok _ =>
      rw [hnew] at hopens
      obtain ⟨n, hn⟩ : ∃ n, files.ledger = some n := by
        cases hledger : files.ledger with
        | none =>
          rw [SessionFiles.read, hledger] at hread
          cases hread
        | some n => exact ⟨n, rfl⟩
      have hopen : files.openLedger = (n, files) := by
        rw [SessionFiles.openLedger, hn]
      rw [hopen] at hopens
      obtain ⟨files', happends, hledger, hregistry, hcontents⟩ :=
        @appends_steps F P _ sid c files hpanics n (c.launched profile loadPath).2.ledger.events
          profile loadPath
      have hempty : files.contents n = [] := by
        rw [SessionFiles.read_eq hn] at hread
        exact Option.some.inj hread
      rw [hempty, List.nil_append] at hcontents
      have hopened : (c.openedServer profile loadPath s).ledgers c.file =
          some (c.launched profile loadPath).2.ledger.events := Function.update_self ..
      have hshows : c.Shows files' (c.openedServer profile loadPath s) := by
        refine ⟨?_, ?_⟩
        · rw [SessionFiles.read_eq (hledger.trans hn), hcontents, hopened]
        · rw [hregistry]
          exact h.entry
      have hends : c.Steps (.appends n [] profile loadPath, files')
          (c.next files' (.appends n [] profile loadPath)) := .single rfl
      rw [next_appended hpanics] at hends
      have hsteps := ((hloads.trans hopens).trans happends).trans hends
      cases hview : (c.launched profile loadPath).1 with
      | error e =>
        rw [hview] at hsteps
        exact ⟨files', _, hsteps, hregistry, hshows, rfl⟩
      | ok view =>
        rw [hview] at hsteps
        exact ⟨files', _, hsteps, hregistry, hshows, profile, loadPath, rfl, rfl⟩

/-- `startClaimed` behind the claim. -/
def behindClaim (c : Starter F P sid) : Tool F StepView := do
  let (served, view) ← tryCatch c.launching fun e => do
    c.gw.removeLedger c.io sid
    throw e
  modify (·.install sid served)
  c.gw.writeSidecarAtomic c.io sid
  return view

omit [DecidableEq P] in
theorem startClaimed_eq : c.gw.startClaimed c.io sid
    (c.gw.resolveManifestReference c.req.manifestPath).1
    (c.gw.resolveManifestReference c.req.manifestPath).2 c.req.initialContext =
      c.claiming >>= fun _ => c.behindClaim := by
  unfold Gateway.startClaimed claiming
  rw [bind_assoc]
  rfl

/-- The clean-up is that of `protocol_start`. -/
theorem cleans_shows (h : c.Shows files s) (e : ErrorData) :
    (c.next files (.cleans e)).1 = .refused e ∧
      c.Shows (c.next files (.cleans e)).2 (exec (c.gw.removeLedger c.io sid) s).2 := by
  have htouched : c.Shows files (s.touch (UnixPath.components (c.gw.ledgerPath sid))) := ⟨h.1, h.2⟩
  unfold next Gateway.removeLedger
  rw [exec_bind_ok (exec_modify _ _)]
  cases c.io.removeFile with
  | error _ => exact ⟨rfl, htouched⟩
  | ok _ =>
    have hremoved : ((s.touch (UnixPath.components (c.gw.ledgerPath sid))).setLedger c.file
        none).ledgers c.file = none := Function.update_self ..
    exact ⟨rfl, hremoved.symm, h.entry⟩

omit [DecidableEq P] in
theorem exec_removeLedger {α : Type} (e : ErrorData) :
    exec (do c.gw.removeLedger c.io sid; throw e : Tool F α) s =
      (.error e, (exec (c.gw.removeLedger c.io sid) s).2) := by
  obtain ⟨s', hs'⟩ : ∃ s', exec (c.gw.removeLedger c.io sid) s = (.ok (), s') := by
    unfold Gateway.removeLedger
    cases c.io.removeFile <;> exact ⟨_, rfl⟩
  rw [exec_bind_ok hs', hs', exec_throw]

omit [DecidableEq F] in
/-- The insert and the sidecar are those of `protocol_start`. -/
theorem inserts_steps (h : c.Shows files s) (hentry : files.registry c.process = none)
    (profile : Profile) (loadPath : String) (view : StepView) :
    ∃ files' s', c.Steps (.inserts profile loadPath view, files) (.started view, files') ∧
      exec (c.gw.writeSidecarAtomic c.io sid) (s.install sid (c.served profile loadPath)) =
        (.ok (), s') ∧ c.Shows files' s' := by
  have hinserts : c.next files (.inserts profile loadPath view) =
      (.writes profile loadPath view, files.install c.process (c.served profile loadPath)) := by
    unfold next
    dsimp only
    rw [hentry]
    rfl
  have hleft : (files.install c.process (c.served profile loadPath)).registry c.process =
      some (c.served profile loadPath) := Function.update_self ..
  have hright : (s.install sid (c.served profile loadPath)).registry sid =
      some (c.served profile loadPath) := Function.update_self ..
  have hentries := hleft.trans hright.symm
  unfold Gateway.writeSidecarAtomic
  rw [exec_bind_ok (exec_modify _ _)]
  cases hwrite : c.io.writeSidecar with
  | error _ =>
    have hwrites : c.next (files.install c.process (c.served profile loadPath))
        (.writes profile loadPath view) =
          (.started view, files.install c.process (c.served profile loadPath)) := by
      unfold next
      rw [hwrite]
    exact ⟨_, _, .head hinserts.symm (.single hwrites.symm), rfl, h.ledger, hentries⟩
  | ok _ =>
    have hwrites : c.next (files.install c.process (c.served profile loadPath))
        (.writes profile loadPath view) = (.started view,
          { files.install c.process (c.served profile loadPath) with
            sidecar := some ⟨loadPath⟩ }) := by
      unfold next
      rw [hwrite]
    exact ⟨_, _, .head hinserts.symm (.single hwrites.symm), rfl, h.ledger, hentries⟩

theorem behindClaim_steps (hpanics : ∀ stage, c.panics stage = none) (h : c.Shows files s)
    (hread : files.read = some []) (hentry : files.registry c.process = none) :
    ∃ files', c.Steps (.loads, files) (ending (exec c.behindClaim s).1, files') ∧
      c.Shows files' (exec c.behindClaim s).2 := by
  obtain ⟨files', stage, hsteps, hregistry, hshows, hends⟩ := launching_steps hpanics h hread
  rcases hlaunch : exec c.launching s with ⟨r, s'⟩
  rw [hlaunch] at hshows hends
  unfold behindClaim
  cases r with
  | error e =>
    cases hends
    obtain ⟨hrefused, hcleaned⟩ := cleans_shows hshows e
    rw [exec_bind_error ((exec_tryCatch_error hlaunch).trans (exec_removeLedger e))]
    exact ⟨_, hsteps.tail (Prod.ext hrefused.symm rfl), hcleaned⟩
  | ok launched =>
    obtain ⟨served, view⟩ := launched
    obtain ⟨profile, loadPath, rfl, rfl⟩ := hends
    obtain ⟨files'', s'', hinsert, hsidecar, hdone⟩ :=
      inserts_steps hshows (hregistry ▸ hentry) profile loadPath view
    rw [exec_bind_ok (exec_tryCatch_ok hlaunch), exec_bind_ok (exec_modify _ _),
      exec_bind_ok hsidecar]
    exact ⟨files'', hsteps.trans hinsert, hdone⟩

/-- **A call that nobody comes between does what `protocol_start` does**, and answers
what it answers. -/
theorem protocolStart_steps (hpanics : ∀ stage, c.panics stage = none) (h : c.Shows files s) :
    ∃ files', c.Steps (.checks, files)
        (ending ((exec (c.gw.protocolStart c.io c.req) s).1.map Prod.snd), files') ∧
      c.Shows files' (exec (c.gw.protocolStart c.io c.req) s).2 := by
  have hnext : ∀ files stage, c.Steps (stage, files) (c.next files stage) :=
    fun _ _ => .single rfl
  rw [exec_protocolStart h]
  have hchecks := hnext files .checks
  unfold next at hchecks
  cases hlook : c.look files with
  | error e =>
    rw [hlook] at hchecks
    exact ⟨files, hchecks, h⟩
  | ok _ =>
    rw [hlook] at hchecks
    have hentry : files.registry c.process = none := look_entry hlook
    obtain ⟨hanswer, hclaimed⟩ := claiming_shows h
    dsimp only
    rw [startClaimed_eq]
    rcases hclaiming : exec c.claiming s with ⟨r, s'⟩
    rw [hclaiming] at hanswer hclaimed
    have hclaims := hnext files .claims
    unfold next at hclaims
    cases hclaim : c.claim files with
    | error e =>
      rw [hclaim] at hanswer hclaimed hclaims
      cases hanswer
      rw [exec_bind_error (exec_bind_error hclaiming)]
      exact ⟨files, hchecks.trans hclaims, hclaimed⟩
    | ok files' =>
      rw [hclaim] at hanswer hclaimed hclaims
      cases hanswer
      obtain ⟨-, rfl⟩ := claim_ok hclaim
      obtain ⟨files'', hsteps, hshows⟩ :=
        behindClaim_steps hpanics hclaimed SessionFiles.create_read hentry
      rw [exec_bind, exec_bind_ok hclaiming]
      rcases hbehind : exec c.behindClaim s' with ⟨r, s''⟩
      rw [hbehind] at hsteps hshows
      cases r with
      | error e => exact ⟨files'', (hchecks.trans hclaims).trans hsteps, hshows⟩
      | ok view => exact ⟨files'', (hchecks.trans hclaims).trans hsteps, hshows⟩

end Starter

end ProtocolEnforcer
