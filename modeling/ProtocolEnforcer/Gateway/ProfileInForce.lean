import ProtocolEnforcer.Fsm.Simulation
import ProtocolEnforcer.Gateway.Server

/-!
# The profile in force

`SessionStarted` records the hash of the profile file. `Committed` says that every
session a gateway serves is judged by a profile whose file hashes to what its ledger
records; a start establishes it when its two reads of the file agree, every other
operation keeps it, and a recovery re-establishes it exactly when the file it finds
still has the recorded hash, which it does not check.
-/

namespace ProtocolEnforcer

open Effect Relation

/-- The hash a `SessionStarted` event records. -/
def FsmEvent.recordedHash (e : FsmEvent) : Option String :=
  match e.eventType with
  | .sessionStarted _ _ profileSha256 => profileSha256
  | _ => none

/-- The hashes a ledger records. -/
def recordedHashes (es : List FsmEvent) : List String := es.filterMap (·.recordedHash)

theorem recordedHashes_snoc {es : List FsmEvent} {e : FsmEvent} :
    recordedHashes (es ++ [e]) = recordedHashes es ++ e.recordedHash.toList := by
  rw [recordedHashes, List.filterMap_append]
  cases h : e.recordedHash <;> simp [recordedHashes, h]

theorem recordedHashes_other {es : List FsmEvent} {e : FsmEvent} (h : e.recordedHash = none) :
    recordedHashes (es ++ [e]) = recordedHashes es := by
  rw [recordedHashes_snoc, h, Option.toList_none, List.append_nil]

namespace ProfileFsmEngine

variable {engine : ProfileFsmEngine} {host : Host} {sid : String} {call : Call}

/-- A step records a hash only where a session starts, and then the engine's own. -/
theorem step_recordedHashes {c d : Snapshot} (h : Step engine host sid call c d) :
    recordedHashes d.events = recordedHashes c.events ∨
      (∃ ctx, call = .start ctx) ∧ recordedHashes d.events =
        recordedHashes c.events ++ engine.config.profileSha256.toList := by
  cases h with
  | start hcall => exact Or.inr ⟨⟨_, hcall⟩, recordedHashes_snoc⟩
  | unborn | abort | arrive | strike | recover => exact Or.inl rfl
  | _ => exact Or.inl (recordedHashes_other rfl)

/-- A call that is not a start records none. -/
theorem perform_recordedHashes {w : World SessionLedger} (hcall : ∀ ctx, call ≠ .start ctx) :
    recordedHashes (perform engine sid host call w).2.ledger.events =
      recordedHashes w.ledger.events := by
  obtain ⟨stage, course, -⟩ := @perform_course engine host sid call w
  refine Runs.invariant (P := fun c => recordedHashes c.events = recordedHashes w.ledger.events)
    (fun hstep hc => ?_) course rfl
  rcases step_recordedHashes hstep with hsame | ⟨⟨ctx, heq⟩, -⟩
  · exact hsame.trans hc
  · exact absurd heq (hcall ctx)

/-- A start on an empty ledger records the engine's own, if any. -/
theorem startSession_recordedHashes {w : World SessionLedger} {initialContext : Option Json}
    (hempty : w.ledger.events = []) :
    ∀ h ∈ recordedHashes (exec (startSession engine host sid initialContext) w).2.ledger.events,
      engine.config.profileSha256 = some h := by
  obtain ⟨stage, course, -⟩ := @perform_course engine host sid (.start initialContext) w
  refine Runs.invariant (P := fun c => ∀ h ∈ recordedHashes c.events,
    engine.config.profileSha256 = some h) (fun hstep hc => ?_) course ?_
  · rcases step_recordedHashes hstep with hsame | ⟨-, hsnoc⟩
    · rwa [hsame]
    · rw [hsnoc]
      intro h hmem
      rcases List.mem_append.mp hmem with hmem | hown
      · exact hc h hmem
      · exact Option.mem_toList.mp hown
  · rw [snap, hempty]
    intro h hmem
    cases hmem

end ProfileFsmEngine

namespace Gateway

variable {F : Type} (gw : Gateway F)

/-- `profile` is what the bytes parse to. -/
def ParsedFrom (profile : Profile) (bytes : Bytes) : Prop :=
  ∃ text, fromUtf8 bytes = some text ∧ gw.yaml text = .ok profile

/-- The engine steps through a profile whose file hashes to `h`. -/
def InForce (engine : ProfileFsmEngine) (h : String) : Prop :=
  ∃ profile bytes, gw.ParsedFrom profile bytes ∧ toHex (gw.vendor.sha256 bytes) = h ∧
    engine.profile = profile.withEnabledMacrosOnly

/-- The ledger file of a session. -/
def ledgerFile (sid : String) : F := gw.file (UnixPath.components (gw.ledgerPath sid))

/-- The hashes recorded for a session. -/
def recorded (s : ProtocolServer F) (sid : String) : List String :=
  recordedHashes ((s.ledgers (gw.ledgerFile sid)).getD [])

/-- What a served session commits to. -/
structure Commits (s : ProtocolServer F) (sid : String) (served : Served) : Prop where
  path : served.path = gw.ledgerPath sid
  ledger : (s.ledgers (gw.ledgerFile sid)).isSome = true
  inForce : ∀ h ∈ gw.recorded s sid, gw.InForce served.engine h

/-- Every served session commits to the profile in force. -/
def Committed (s : ProtocolServer F) : Prop :=
  ∀ sid served, s.registry sid = some served → gw.Commits s sid served

variable {gw} {s t : ProtocolServer F} {sid : String} {io : Io}

/-- A commitment only depends on the session's ledger file and its profile. -/
theorem Commits.congr {served served' : Served} (h : gw.Commits s sid served)
    (hpath : served'.path = served.path) (hprofile : served'.engine = served.engine)
    (hledger : (t.ledgers (gw.ledgerFile sid)).isSome = true)
    (hsame : gw.recorded t sid = gw.recorded s sid) : gw.Commits t sid served' :=
  ⟨hpath.trans h.path, hledger, fun hash hmem => hprofile ▸ h.inForce hash (hsame ▸ hmem)⟩

/-- A committed session can be installed. -/
theorem Committed.install {served : Served} (h : gw.Committed s) (hserved : gw.Commits s sid served) :
    gw.Committed (s.install sid served) := by
  intro sid' served' hserved'
  dsimp only [ProtocolServer.install] at hserved'
  by_cases heq : sid' = sid
  · subst heq
    rw [Function.update_self] at hserved'
    cases hserved'
    exact hserved.congr rfl rfl hserved.ledger rfl
  · rw [Function.update_of_ne heq] at hserved'
    have hcommits := h sid' served' hserved'
    exact hcommits.congr rfl rfl hcommits.ledger rfl

/-- Opening a path is no matter. -/
theorem Committed.touch {p : List Component} (h : gw.Committed s) : gw.Committed (s.touch p) :=
  fun sid served hserved => (h sid served hserved).congr rfl rfl (h sid served hserved).ledger rfl

theorem loadValid_ok {path : String} {profile : Profile} (h : gw.loadValid io path = .ok profile) :
    ∃ bytes, io.load path = .ok bytes ∧ gw.ParsedFrom profile bytes := by
  unfold loadValid loadProfile at h
  cases hload : io.load path with
  | error e =>
    rw [hload] at h
    cases h
  | ok bytes =>
    rw [hload] at h
    dsimp only at h
    cases htext : fromUtf8 bytes with
    | none =>
      rw [htext] at h
      cases h
    | some text =>
      rw [htext] at h
      dsimp only at h
      cases hyaml : gw.yaml text with
      | error e =>
        rw [hyaml] at h
        cases h
      | ok parsed =>
        rw [hyaml] at h
        dsimp only [Except.mapError] at h
        split at h
        · cases h
        · cases h
          exact ⟨bytes, rfl, text, htext, hyaml⟩

theorem profileSha256Of_eq {path h : String} (hsome : gw.profileSha256Of io path = some h) :
    ∃ bytes, io.hash path = .ok bytes ∧ toHex (gw.vendor.sha256 bytes) = h := by
  unfold profileSha256Of at hsome
  split at hsome
  · cases hsome
  · rename_i bytes hbytes
    exact ⟨bytes, hbytes, Option.some.inj hsome⟩

/-! ## Recovery -/

variable [DecidableEq F]

variable (gw) in
/-- The ledger files once the session's is attached to. -/
def attached (s : ProtocolServer F) (sid : String) : F → Option (List FsmEvent) :=
  Function.update s.ledgers (gw.ledgerFile sid)
    (some ((s.ledgers (gw.ledgerFile sid)).getD []))

variable (gw io) in
/-- Everything a recovery of the session asks for works out: its sidecar, the profile
file it names, the ledger, and the ledger's replay under that profile. -/
structure Recovers (s : ProtocolServer F) (sid path : String) (profile : Profile) : Prop where
  sidecar : io.readSidecar (UnixPath.components (gw.sidecarPath sid)) = some (.ok ⟨path⟩)
  loads : gw.loadValid io path = .ok profile
  attaches : io.ledgerNew = .ok ()
  replays : io.replay = .ok ()
  resumes : ∃ state, replayEvents sid profile.withEnabledMacrosOnly
    ((s.ledgers (gw.file (replayPath (gw.ledgerPath sid) sid))).getD []) = .ok (some state)

/-- Attaching loses nothing. -/
theorem attached_getD (f : F) : (gw.attached s sid f).getD [] = (s.ledgers f).getD [] := by
  unfold attached
  by_cases heq : f = gw.ledgerFile sid
  · subst heq
    rw [Function.update_self, Option.getD_some]
  · rw [Function.update_of_ne heq]

theorem attached_isSome {f : F} (h : (s.ledgers f).isSome = true) :
    (gw.attached s sid f).isSome = true := by
  unfold attached
  by_cases heq : f = gw.ledgerFile sid
  · subst heq
    rw [Function.update_self, Option.isSome_some]
  · rwa [Function.update_of_ne heq]

/-- `t` is `s` but for the paths opened and the session's ledger attached. -/
structure Attaches (gw : Gateway F) (s : ProtocolServer F) (sid : String)
    (t : ProtocolServer F) : Prop where
  registry : t.registry = s.registry
  ledgers : t.ledgers = s.ledgers ∨ t.ledgers = gw.attached s sid

theorem Attaches.getD (h : Attaches gw s sid t) (f : F) :
    (t.ledgers f).getD [] = (s.ledgers f).getD [] := by
  rcases h.ledgers with heq | heq
  · rw [heq]
  · rw [heq, attached_getD]

theorem Attaches.isSome (h : Attaches gw s sid t) {f : F} (hs : (s.ledgers f).isSome = true) :
    (t.ledgers f).isSome = true := by
  rcases h.ledgers with heq | heq
  · rwa [heq]
  · rw [heq]
    exact attached_isSome hs

theorem Attaches.recorded (h : Attaches gw s sid t) (sid' : String) :
    gw.recorded t sid' = gw.recorded s sid' := by
  rw [Gateway.recorded, h.getD, Gateway.recorded]

theorem Attaches.committed (h : Attaches gw s sid t) (hs : gw.Committed s) : gw.Committed t := by
  intro sid' served hserved
  rw [h.registry] at hserved
  have hcommits := hs sid' served hserved
  exact hcommits.congr rfl rfl (h.isSome hcommits.ledger) (h.recorded sid')

/-- Nothing but the paths opened has changed. -/
def Unmoved (s t : ProtocolServer F) : Prop := t.registry = s.registry ∧ t.ledgers = s.ledgers

/-- Nothing but the paths opened has changed, and the session's ledger is attached. -/
def Attached (gw : Gateway F) (s : ProtocolServer F) (sid : String) (t : ProtocolServer F) : Prop :=
  t.registry = s.registry ∧ t.ledgers = gw.attached s sid

theorem ledgerNew_attaches :
    Triple (Unmoved s) (gw.ledgerNew io sid)
      (fun path t => path = gw.ledgerPath sid ∧ io.ledgerNew = .ok () ∧ Attached gw s sid t)
      (Unmoved s) := by
  unfold ledgerNew
  refine .bind_modify (M := Unmoved s) (fun _ ht => ht) ?_
  refine .bind_lift (fun _ hio => ?_) fun _ ht => ht
  refine .bind_modify (M := Attached gw s sid) (fun t ht => ⟨ht.1, ?_⟩) ?_
  · show Function.update t.ledgers _ _ = _
    rw [ht.2]
    rfl
  · refine Triple.pure fun t ht => ⟨rfl, ?_, ht⟩
    cases h : io.ledgerNew with
    | ok u => rfl
    | error e =>
      rw [h] at hio
      cases hio

/-- **What a recovery takes and gives.** -/
theorem recoverIntoCache_spec :
    Triple (Unmoved s) (gw.recoverIntoCache io sid)
      (fun served t => Attached gw s sid t ∧ served.path = gw.ledgerPath sid ∧
        ∃ path profile, gw.Recovers io s sid path profile ∧
          served.engine.profile = profile.withEnabledMacrosOnly)
      (Attaches gw s sid) := by
  have same : ∀ t, Unmoved s t → Attaches gw s sid t := fun t ht => ⟨ht.1, Or.inl ht.2⟩
  have there : ∀ t, Attached gw s sid t → Attaches gw s sid t := fun t ht => ⟨ht.1, Or.inr ht.2⟩
  unfold recoverIntoCache
  refine .bind_modify (M := Unmoved s) (fun _ ht => ht) ?_
  refine .bind_lift (fun sidecar hsidecar => ?_) same
  have hread : io.readSidecar (UnixPath.components (gw.sidecarPath sid)) = some (.ok sidecar) := by
    split at hsidecar
    · cases hsidecar
    · cases hsidecar
    · rename_i hread
      cases hsidecar
      exact hread
  refine .bind_lift (fun profile hloads => ?_) same
  refine .bind (ledgerNew_attaches.conseq (fun _ ht => ht) (fun _ _ ht => ht) same) fun path => ?_
  refine .of_fact fun hpath => .of_fact fun hio => ?_
  subst hpath
  refine .bind_modify (M := Attached gw s sid) (fun _ ht => ht) ?_
  refine .bind_lift (fun _ hreplay => ?_) there
  refine .bind (Q := fun events t =>
      events = (s.ledgers (gw.file (replayPath (gw.ledgerPath sid) sid))).getD [] ∧
        Attached gw s sid t)
    (Triple.reads fun t ht => ⟨(there t ht).getD _, ht⟩) fun events => .of_fact fun hevents => ?_
  subst hevents
  generalize hengine : ProfileFsmEngine.new gw.vendor profile
    (gw.configFor io profile sidecar.manifestPath) = engine
  have hprofile : engine.profile = profile.withEnabledMacrosOnly := by
    rw [← hengine]
    rfl
  dsimp only
  generalize hw : (⟨⟨(s.ledgers (gw.file (replayPath (gw.ledgerPath sid) sid))).getD [], io.appends,
    0⟩, fun _ => none, 0⟩ : World SessionLedger) = w
  have recovering := @ProfileFsmEngine.exec_recoverSession engine sid w
  generalize exec (engine.recoverSession sid) w = out at recovering ⊢
  cases recovering with
  | failed => exact .bind_lift (fun _ h => nomatch h) there
  | recovered hs =>
    refine .bind_lift (fun _ _ => Triple.pure fun t ht => ⟨ht, rfl, ?_⟩) there
    rw [hprofile, ← hw] at hs
    refine ⟨_, profile, ⟨hread, hloads, hio, ?_, _, hs⟩, hprofile⟩
    cases h : io.replay with
    | ok u => rfl
    | error e =>
      rw [h] at hreplay
      cases hreplay

variable (gw io) in
/-- If a recovery of the session works out, the profile file it reads hashes to
whatever the session's ledger records. -/
def SameFile (s : ProtocolServer F) (sid : String) : Prop :=
  ∀ path profile, gw.Recovers io s sid path profile → ∀ bytes, io.load path = .ok bytes →
    ∀ h ∈ gw.recorded s sid, toHex (gw.vendor.sha256 bytes) = h

/-! ## Serving a session -/

theorem Unmoved.attaches (h : Unmoved s t) : Attaches gw s sid t := ⟨h.1, Or.inl h.2⟩

/-- A ledger may be written as long as it records the same hashes. -/
theorem Commits.setLedger {served : Served} {file : F} {es : List FsmEvent}
    (h : gw.Commits s sid served)
    (hsame : recordedHashes es = recordedHashes ((s.ledgers file).getD [])) :
    gw.Commits (s.setLedger file (some es)) sid served := by
  refine h.congr rfl rfl ?_ ?_
  · dsimp only [ProtocolServer.setLedger]
    by_cases heq : gw.ledgerFile sid = file
    · rw [heq, Function.update_self, Option.isSome_some]
    · rw [Function.update_of_ne heq]
      exact h.ledger
  · dsimp only [ProtocolServer.setLedger, recorded]
    by_cases heq : gw.ledgerFile sid = file
    · rw [heq, Function.update_self, Option.getD_some, hsame]
    · rw [Function.update_of_ne heq]

/-- **A session that is looked up commits to the profile in force.** -/
theorem getOrRecover_spec (hs : gw.Committed s)
    (hsame : s.registry sid = none → gw.SameFile io s sid) :
    Triple (Unmoved s) (gw.getOrRecover io sid)
      (fun served t => (gw.Committed t ∧ gw.Commits t sid served) ∧
        gw.recorded t sid = gw.recorded s sid) gw.Committed := by
  unfold getOrRecover
  refine .bind (Q := fun sessions t => sessions = s.registry ∧ Unmoved s t)
    (Triple.reads fun t ht => ⟨ht.1, ht⟩) fun sessions => .of_fact fun hsessions => ?_
  subst hsessions
  split
  · rename_i served hserved
    refine Triple.pure fun t ht => ?_
    have hunmoved : Attaches gw s sid t := ht.attaches
    exact ⟨⟨hunmoved.committed hs, hunmoved.committed hs sid served (ht.1 ▸ hserved)⟩,
      hunmoved.recorded sid⟩
  · rename_i hmiss
    refine .bind (recoverIntoCache_spec.conseq (fun _ ht => ht) (fun _ _ ht => ht)
      fun t ht => ht.committed hs) fun served => ?_
    intro t ⟨ht, hpath, path, profile, recovers, hprofile⟩
    have hattaches : Attaches gw s sid t := ⟨ht.1, Or.inr ht.2⟩
    have hcommits : gw.Commits t sid served := by
      refine ⟨hpath, ?_, fun h hmem => ?_⟩
      · rw [ht.2, attached, Function.update_self, Option.isSome_some]
      · obtain ⟨bytes, hload, hparsed⟩ := loadValid_ok recovers.loads
        rw [hattaches.recorded] at hmem
        exact ⟨profile, bytes, hparsed, hsame hmiss path profile recovers bytes hload h hmem,
          hprofile⟩
    have hcommitted := hattaches.committed hs
    exact ⟨⟨hcommitted.install hcommits, hcommits.congr rfl rfl hcommits.ledger rfl⟩,
      hattaches.recorded sid⟩

/-- An operation that records no hash leaves every commitment as it is. -/
theorem operate_spec {α : Type} {served : Served} {op : Effect (World SessionLedger) FsmError α}
    (hop : ∀ w, recordedHashes (exec op w).2.ledger.events = recordedHashes w.ledger.events) :
    Triple (fun t => gw.Committed t ∧ gw.Commits t sid served) (gw.operate io served op)
      (fun r t => gw.Committed t ∧ gw.Commits t sid r.2) gw.Committed := by
  intro t ⟨ht, hserved⟩
  have hsame := hop (gw.worldOf io served t)
  exact ⟨fun sid' served' hserved' => (ht sid' served' hserved').setLedger hsame,
    (hserved.setLedger hsame).congr rfl rfl (hserved.setLedger hsame).ledger rfl⟩

/-- The tools that look a session up keep the commitments. -/
theorem tool_committed {call : ToolCall} (hs : gw.Committed s)
    (hsame : s.registry sid = none → gw.SameFile io s sid) (hsid : call.sessionId = some sid)
    (hstart : ∀ req, call ≠ .start req) :
    Triple (Unmoved s) (gw.tool io call) (fun _ => gw.Committed) gw.Committed := by
  have lookup : Triple (Unmoved s) (gw.getOrRecover io sid)
      (fun served t => gw.Committed t ∧ gw.Commits t sid served) gw.Committed :=
    (getOrRecover_spec hs hsame).conseq (fun _ ht => ht) (fun _ _ ht => ht.1) fun _ ht => ht
  cases call with
  | start req => exact absurd rfl (hstart req)
  | restart => cases hsid
  | submit sid' pos evidence output =>
    cases hsid
    refine Triple.bind (Q := fun _ => gw.Committed) ?_ fun _ => Keeps.pure
    unfold protocolSubmitMilestone
    refine .bind lookup fun served => .bind (operate_spec fun w => ?_) fun r => ?_
    · exact @ProfileFsmEngine.perform_recordedHashes _ _ _ (.submit pos evidence output) w nofun
    refine .bind_modify (M := gw.Committed) (fun t ht => ht.1.install ht.2) ?_
    refine Keeps.bind Keeps.lift fun outcome => ?_
    split
    · exact Keeps.bind (Keeps.modified fun t ht => ht.touch) fun _ => Keeps.pure
    · exact Keeps.pure
  | getState =>
    cases hsid
    refine Triple.bind (Q := fun _ => gw.Committed) ?_ fun _ => Keeps.pure
    unfold protocolGetState
    refine .bind lookup fun served => Triple.conseq ?_ (fun _ ht => ht.1) (fun _ _ ht => ht)
      fun _ ht => ht
    refine Keeps.bind Keeps.lift fun state => ?_
    refine Keeps.bind (Keeps.modified fun t ht => ht.touch) fun _ => ?_
    exact Keeps.bind Keeps.lift fun _ => Keeps.bind Keeps.reads fun _ => Keeps.pure
  | storeArtifact sid' stepId content mimeType =>
    cases hsid
    refine Triple.bind (Q := fun _ => gw.Committed) ?_ fun _ => Keeps.pure
    unfold protocolStoreArtifact
    refine .bind lookup fun served => .bind (operate_spec fun w => ?_) fun r => ?_
    · exact @ProfileFsmEngine.perform_recordedHashes _ _ _
        (.store stepId (bytesOf content) (mimeType.getD "text/plain")) w nofun
    exact .bind_modify (M := gw.Committed) (fun t ht => ht.1.install ht.2) Keeps.lift

/-! ## Starting a session -/

/-- Nothing but the paths opened and the session's own ledger file has changed. -/
structure Aside (gw : Gateway F) (s : ProtocolServer F) (sid : String) (t : ProtocolServer F) :
    Prop where
  registry : t.registry = s.registry
  others : ∀ f, f ≠ gw.ledgerFile sid → t.ledgers f = s.ledgers f

omit [DecidableEq F] in
/-- A served session has a ledger, so a file that was not there is none of theirs. -/
theorem Aside.committed (h : Aside gw s sid t) (hs : gw.Committed s)
    (hnone : s.ledgers (gw.ledgerFile sid) = none) : gw.Committed t := by
  intro sid' served hserved
  rw [h.registry] at hserved
  have hcommits := hs sid' served hserved
  have hother : t.ledgers (gw.ledgerFile sid') = s.ledgers (gw.ledgerFile sid') := by
    refine h.others _ fun heq => ?_
    have hsome := hcommits.ledger
    rw [heq, hnone] at hsome
    cases hsome
  exact hcommits.congr rfl rfl (hother ▸ hcommits.ledger) (by rw [recorded, recorded, hother])

theorem Aside.setLedger {events : Option (List FsmEvent)} (h : Aside gw s sid t) :
    Aside gw s sid (t.setLedger (gw.ledgerFile sid) events) where
  registry := h.registry
  others f hf := by
    dsimp only [ProtocolServer.setLedger]
    rw [Function.update_of_ne hf, h.others f hf]

/-- The session's ledger file is new and empty. -/
def Claimed (gw : Gateway F) (s : ProtocolServer F) (sid : String) (t : ProtocolServer F) : Prop :=
  Aside gw s sid t ∧ t.ledgers (gw.ledgerFile sid) = some []

theorem claimLedger_spec :
    Triple (Unmoved s) (gw.claimLedger io sid)
      (fun _ t => s.ledgers (gw.ledgerFile sid) = none ∧ Claimed gw s sid t) (Unmoved s) := by
  unfold claimLedger
  refine .bind_modify (M := Unmoved s) (fun _ ht => ht) ?_
  refine .bind (Q := fun ledger t => ledger = s.ledgers (gw.ledgerFile sid) ∧ Unmoved s t)
    (Triple.reads fun t ht => ⟨by rw [ht.2]; rfl, ht⟩) fun ledger => .of_fact fun hledger => ?_
  subst hledger
  split
  · exact Triple.throw fun _ ht => ht
  · rename_i hnone
    refine .bind_lift (fun _ _ => Triple.modified fun t ht => ⟨?_, ?_, ?_⟩) fun _ ht => ht
    · exact Option.not_isSome_iff_eq_none.mp hnone
    · exact Aside.setLedger ⟨ht.1, fun f _ => congrFun ht.2 f⟩
    · exact Function.update_self ..

/-- **A started session commits to the profile in force**, if both reads of the profile
file saw the same bytes. -/
theorem launchSession_spec {manifestPath : String} {wasName : Bool}
    {initialContext : Option Json}
    (hreads : ∀ path bytes bytes', io.load path = .ok bytes → io.hash path = .ok bytes' →
      bytes = bytes') :
    Triple (Claimed gw s sid) (gw.launchSession io sid manifestPath wasName initialContext)
      (fun r t => Aside gw s sid t ∧ gw.Commits t sid r.1) (Aside gw s sid) := by
  unfold launchSession
  refine .bind_lift (fun loadPath _ => ?_) fun _ ht => ht.1
  refine .bind_lift (fun profile hloads => ?_) fun _ ht => ht.1
  have hnew : Triple (Claimed gw s sid) (gw.ledgerNew io sid)
      (fun path t => path = gw.ledgerPath sid ∧ Claimed gw s sid t) (Aside gw s sid) := by
    intro t ht
    have post : ∀ t', Attached gw t sid t' → Claimed gw s sid t' := by
      rintro t' ⟨hreg, hledgers⟩
      refine ⟨⟨hreg.trans ht.1.registry, fun f hf => ?_⟩, ?_⟩
      · rw [hledgers, attached, Function.update_of_ne hf, ht.1.others f hf]
      · rw [hledgers, attached, Function.update_self, ht.2, Option.getD_some]
    have fail : ∀ t', Unmoved t t' → Aside gw s sid t' := fun t' h =>
      ⟨h.1.trans ht.1.registry, fun f hf => (congrFun h.2 f).trans (ht.1.others f hf)⟩
    exact ledgerNew_attaches.conseq (fun _ h => h) (fun _ t' h => ⟨h.1, post t' h.2.2⟩) fail t
      (show Unmoved t t from ⟨rfl, rfl⟩)
  refine .bind hnew fun path => .of_fact fun hpath => ?_
  subst hpath
  refine .bind (Q := fun r t => Aside gw s sid t ∧ gw.Commits t sid r.2) ?_ fun r =>
    .bind_lift (fun _ _ => Triple.pure fun _ ht => ht) fun _ ht => ht.1
  intro t ht
  refine ⟨ht.1.setLedger, rfl, ?_, fun h hmem => ?_⟩
  · dsimp only [ProtocolServer.setLedger]
    rw [ledgerFile, Function.update_self, Option.isSome_some]
  · have hempty : (gw.worldOf io ⟨.new gw.vendor profile (gw.configFor io profile loadPath),
        fun _ => none, gw.ledgerPath sid⟩ t).ledger.events = [] := by
      rw [worldOf, show gw.file (UnixPath.components (gw.ledgerPath sid)) = gw.ledgerFile sid
        from rfl, ht.2]
      rfl
    dsimp only [ProtocolServer.setLedger, recorded] at hmem
    rw [ledgerFile, Function.update_self, Option.getD_some] at hmem
    have hown := ProfileFsmEngine.startSession_recordedHashes hempty h hmem
    obtain ⟨bytes', hhash, hdigest⟩ := profileSha256Of_eq hown
    obtain ⟨bytes, hload, hparsed⟩ := loadValid_ok hloads
    cases hreads _ _ _ hload hhash
    exact ⟨profile, bytes', hparsed, hdigest, rfl⟩

/-- **A start keeps the commitments and adds the new session's.** -/
theorem startClaimed_spec {manifestPath : String} {wasName : Bool}
    {initialContext : Option Json} (hs : gw.Committed s)
    (hreads : ∀ path bytes bytes', io.load path = .ok bytes → io.hash path = .ok bytes' →
      bytes = bytes') :
    Triple (Unmoved s) (gw.startClaimed io sid manifestPath wasName initialContext)
      (fun _ => gw.Committed) gw.Committed := by
  have same : ∀ t, Unmoved s t → gw.Committed t := fun t ht =>
    (show Attaches gw s sid t from ht.attaches).committed hs
  unfold startClaimed
  refine .bind_lift (fun _ _ => ?_) same
  refine .bind (claimLedger_spec.conseq (fun _ ht => ht) (fun _ _ ht => ht) same) fun _ =>
    .of_fact fun hnone => ?_
  have kept : ∀ t, Aside gw s sid t → gw.Committed t := fun t ht => ht.committed hs hnone
  have removes : Keeps (Aside gw s sid) (gw.removeLedger io sid) := by
    unfold removeLedger
    refine Keeps.bind (Keeps.modified fun t ht => ⟨ht.registry, ht.others⟩) fun _ => ?_
    split
    · exact Keeps.modified fun t ht => ht.setLedger
    · exact Keeps.pure
  refine .bind (Q := fun r t => gw.Committed t ∧ gw.Commits t sid r.1) (.tryCatch
    ((launchSession_spec hreads).conseq (fun _ ht => ht) (fun _ t ht => ⟨kept t ht.1, ht.2⟩)
      fun _ ht => ht) fun e => ?_) fun r => ?_
  · exact .bind (removes.conseq (fun _ ht => ht) (fun _ _ ht => ht) kept) fun _ =>
      Triple.throw kept
  refine .bind_modify (M := gw.Committed) (fun t ht => ht.1.install ht.2) ?_
  refine Keeps.bind ?_ fun _ => Keeps.pure
  unfold writeSidecarAtomic
  refine Keeps.bind (Keeps.modified fun t ht => ht.touch) fun _ => ?_
  split
  · exact Keeps.modified fun t ht => ht.touch
  · exact Keeps.pure

theorem protocolStart_spec {req : StartRequest} (hs : gw.Committed s)
    (hreads : ∀ path bytes bytes', io.load path = .ok bytes → io.hash path = .ok bytes' →
      bytes = bytes') :
    Triple (Unmoved s) (gw.protocolStart io req) (fun _ => gw.Committed) gw.Committed := by
  have same : ∀ t, Unmoved s t → gw.Committed t := fun t ht =>
    (show Attaches gw s "" t from ht.attaches).committed hs
  unfold protocolStart
  split
  · exact Triple.throw same
  refine .bind_lift (fun _ _ => ?_) same
  refine .bind (Q := fun _ => Unmoved s) (Triple.reads fun _ ht => ht) fun sessions => ?_
  split
  · exact Triple.throw same
  dsimp only
  split
  · exact Triple.throw same
  exact .bind (startClaimed_spec hs hreads) fun _ => Keeps.pure

/-! ## Runs -/

variable (gw) in
/-- Both reads of the profile file a start makes see the same bytes, and a recovery that
works out finds the file whose hash the session's ledger records. -/
def KeepsProfile (s : ProtocolServer F) (x : Io × ToolCall) : Prop :=
  (∀ req, x.2 = .start req → ∀ path bytes bytes', x.1.load path = .ok bytes →
    x.1.hash path = .ok bytes' → bytes = bytes') ∧
  ∀ sid, x.2.sessionId = some sid → (∀ req, x.2 ≠ .start req) → s.registry sid = none →
    gw.SameFile x.1 s sid

variable (gw) in
/-- The call takes the recorded hash seriously: a submission is handled by an engine
whose profile's file has it, and a recovery that reads another file fails. -/
def HonoursHash (s : ProtocolServer F) (x : Io × ToolCall) : Prop :=
  ∀ sid, x.2.sessionId = some sid → ∀ h ∈ gw.recorded s sid,
    (∀ pos evidence output, x.2 = .submit sid pos evidence output → ∀ served,
      (exec (gw.getOrRecover x.1 sid) { s with opened := [] }).1 = .ok served →
        gw.InForce served.engine h) ∧
    ((∀ req, x.2 ≠ .start req) → s.registry sid = none → ∀ path bytes,
      x.1.readSidecar (UnixPath.components (gw.sidecarPath sid)) = some (.ok ⟨path⟩) →
      x.1.load path = .ok bytes → toHex (gw.vendor.sha256 bytes) ≠ h →
      ∃ e, (exec (gw.recoverIntoCache x.1 sid) { s with opened := [] }).1 = .error e)

/-- Such a call leaves every served session committed, -/
theorem Committed.after {x : Io × ToolCall} (hs : gw.Committed s) (hx : gw.KeepsProfile s x) :
    gw.Committed (gw.after s x) := by
  obtain ⟨io, call⟩ := x
  have hunmoved : Unmoved s { s with opened := [] } := ⟨rfl, rfl⟩
  have other : ∀ sid, call.sessionId = some sid → (∀ req, call ≠ .start req) →
      gw.Committed (gw.after s (io, call)) := fun sid hsid hstart =>
    (tool_committed hs (hx.2 sid hsid hstart) hsid hstart).ends hunmoved
  cases call with
  | restart => exact nofun
  | start req =>
    exact (Triple.bind (protocolStart_spec hs (hx.1 req rfl)) fun _ => Keeps.pure).ends hunmoved
  | submit sid => exact other sid rfl nofun
  | getState sid => exact other sid rfl nofun
  | storeArtifact sid => exact other sid rfl nofun

/-- and honours the recorded hash. -/
theorem Committed.honours {x : Io × ToolCall} (hs : gw.Committed s) (hx : gw.KeepsProfile s x) :
    gw.HonoursHash s x := by
  obtain ⟨io, call⟩ := x
  have hunmoved : Unmoved s { s with opened := [] } := ⟨rfl, rfl⟩
  intro sid hsid h hmem
  constructor
  · rintro pos evidence output rfl served hserved
    have lookup := getOrRecover_spec hs (hx.2 sid rfl fun _ h => nomatch h) _ hunmoved
    split at lookup
    · rename_i served' t heq
      rw [heq] at hserved
      cases hserved
      exact lookup.1.2.inForce h (lookup.2 ▸ hmem)
    · rename_i heq
      rw [heq] at hserved
      cases hserved
  · intro hstart hmiss path bytes hsidecar hload hne
    have recovery := @recoverIntoCache_spec F gw s sid io _ _ hunmoved
    split at recovery
    · -- it worked out, so the file was the recorded one
      obtain ⟨-, -, path', profile, recovers, -⟩ := recovery
      have hpath := recovers.sidecar
      rw [hsidecar] at hpath
      cases hpath
      exact absurd (hx.2 sid hsid hstart hmiss _ _ recovers _ hload h hmem) hne
    · rename_i heq
      exact ⟨_, by rw [heq]⟩

/-- **The profile in force is the recorded one** in every run of gateway processes in
which no start's profile file changes between its two reads and every recovery that
works out finds the file with the recorded hash. -/
theorem profile_in_force {calls : List (Io × ToolCall)} (hfresh : s.Fresh)
    (hcalls : Runs.Along gw.after gw.KeepsProfile s calls) :
    Runs.Along gw.after gw.HonoursHash s calls := by
  refine Runs.Along.imp (I := gw.Committed) (fun s x hx hs => hs.after hx)
    (fun s x hx hs => hs.honours hx) hcalls ?_
  intro sid served hserved
  rw [hfresh sid] at hserved
  cases hserved

end Gateway

/-! ## A profile file that changes

The sample profile with its gate, and without it. -/

namespace Sample

def yamlHead : String :=
  "name: sample\nversion: '1'\ndescription: ''\npipeline:\n- state_id: plan\n  name: Plan\n" ++
    "  sub_states:\n"

def yamlCheck : String :=
  "  - id: check\n    type: checklist\n    name: Check\n    criteria: [done]\n"

def yamlSignoff : String :=
  "  - id: signoff\n    type: human_approval\n    name: Sign off\n    approver_pubkey: '" ++
    publicKey ++ "'\n"

def plainYaml : String := yamlHead ++ yamlCheck

def gatedYaml : String := yamlHead ++ yamlSignoff ++ yamlCheck

/-- The SHA-256 of `gatedYaml`. -/
def gatedHash : String := "96caf7cd13f64cb845568905dec751b7ee2d9d9148ad8f7c6edd09b67ef2fb40"

/-- The SHA-256 of `plainYaml`. -/
def plainHash : String := "2f35dd5c9175468d48cdcf407cb3b0bb0c5f2e00c6a35bdddb531a228a495845"

/-- A gateway that parses and hashes the two files as they are. -/
def twoFiles : Gateway (List Component) :=
  { gateway with
    vendor := { vendor with
      sha256 := fun bytes =>
        if bytes = bytesOf gatedYaml then (fromHex gatedHash).getD []
        else if bytes = bytesOf plainYaml then (fromHex plainHash).getD []
        else [] }
    yaml := fun text =>
      if text = gatedYaml then .ok (profile [signoff, checklist])
      else if text = plainYaml then .ok (profile [checklist])
      else .error "invalid profile" }

/-- The profile file holds this text. -/
def ioWith (text : String) : Io :=
  { io with load := fun _ => .ok (bytesOf text), hash := fun _ => .ok (bytesOf text) }

/-- Started on the gated profile, and restarted. -/
def gatedStart : List (Io × ToolCall) :=
  [(ioWith gatedYaml, .start ⟨"sample.yaml", some "s1", none⟩), (ioWith gatedYaml, .restart)]

/-- A submission at the checklist. -/
def submitCheck : ToolCall := .submit "s1" ⟨"plan", "check"⟩ done none

end Sample

namespace Gateway

/-- The start records the gated file, and a look-up behind it that reads the other file
serves a profile of one sub-state. -/
theorem gatedStart_served :
    let s := Sample.gatedStart.foldl Sample.twoFiles.after Sample.server
    Sample.twoFiles.recorded s "s1" = [Sample.gatedHash] ∧
      (exec (Sample.twoFiles.getOrRecover (Sample.ioWith Sample.plainYaml) "s1")
        { s with opened := [] }).1.toOption.map
          (fun served => served.engine.profile.pipeline.map (·.subStates.length)) = some [1] := by
  decide +kernel

/-- Only the gated file has its hash. -/
theorem eq_gatedYaml_of_hash {bytes : Bytes}
    (h : toHex (Sample.twoFiles.vendor.sha256 bytes) = Sample.gatedHash) :
    bytes = bytesOf Sample.gatedYaml := by
  by_contra hne
  change toHex (if bytes = _ then _ else if bytes = _ then _ else _) = _ at h
  rw [if_neg hne] at h
  split at h
  · exact absurd h (by decide +kernel)
  · exact absurd h (by decide +kernel)

/-- A restart that finds the file as it was. -/
theorem profile_in_force_unchanged :
    Runs.Along Sample.twoFiles.after Sample.twoFiles.HonoursHash Sample.server
      (Sample.gatedStart ++ [(Sample.ioWith Sample.gatedYaml, Sample.submitCheck)]) := by
  have hdigest : toHex (Sample.twoFiles.vendor.sha256 (bytesOf Sample.gatedYaml)) =
      Sample.gatedHash := by decide +kernel
  refine profile_in_force (fun _ => rfl) ⟨⟨?_, fun _ _ hstart => absurd rfl (hstart _)⟩,
    ⟨nofun, nofun⟩, ⟨nofun, ?_⟩, trivial⟩
  · rintro req - path bytes bytes' hload hhash
    cases hload
    cases hhash
    rfl
  · rintro sid hsid - - path profile - bytes hload h hmem
    cases hsid
    cases hload
    rw [show h = Sample.gatedHash from List.mem_singleton.mp (gatedStart_served.1 ▸ hmem)]
    exact hdigest

/-- A restart that finds the file without its gate serves the session without it. -/
theorem profile_swapped :
    let s := Sample.gatedStart.foldl Sample.twoFiles.after Sample.server
    let x : Io × ToolCall := (Sample.ioWith Sample.plainYaml, Sample.submitCheck)
    Sample.twoFiles.recorded s "s1" = [Sample.gatedHash] ∧ ¬Sample.twoFiles.HonoursHash s x := by
  intro s x
  refine ⟨gatedStart_served.1, fun honours => ?_⟩
  obtain ⟨served, hserved, hlengths⟩ := Option.map_eq_some_iff.mp gatedStart_served.2
  have hok : (exec (Sample.twoFiles.getOrRecover x.1 "s1") { s with opened := [] }).1 =
      .ok served := by
    cases hr : (exec (Sample.twoFiles.getOrRecover x.1 "s1") { s with opened := [] }).1 with
    | ok served' =>
      rw [hr] at hserved
      exact congrArg _ (Option.some.inj hserved)
    | error e =>
      rw [hr] at hserved
      cases hserved
  have hmem : Sample.gatedHash ∈ Sample.twoFiles.recorded s "s1" := by
    rw [gatedStart_served.1]
    exact List.mem_singleton.mpr rfl
  obtain ⟨p, bytes, ⟨text, htext, hyaml⟩, hdigest, hprofile⟩ :=
    (honours "s1" rfl _ hmem).1 _ _ _ rfl served hok
  -- the only file with the recorded hash is the gated one, and it has another sub-state
  rw [eq_gatedYaml_of_hash hdigest, Utf8.fromUtf8_bytesOf] at htext
  cases htext
  have hgated : Sample.twoFiles.yaml Sample.gatedYaml =
      .ok (Sample.profile [Sample.signoff, Sample.checklist]) := by
    simp only [Sample.twoFiles, ↓reduceIte]
  obtain rfl := Except.ok.inj (hgated.symm.trans hyaml)
  rw [hprofile] at hlengths
  exact absurd hlengths (by decide)

end Gateway

end ProtocolEnforcer
