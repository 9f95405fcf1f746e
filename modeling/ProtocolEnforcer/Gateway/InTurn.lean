import ProtocolEnforcer.Fsm.Departures
import ProtocolEnforcer.Fsm.Mirror
import ProtocolEnforcer.Gateway.ProfileInForce
import ProtocolEnforcer.Gateway.SessionCalls

/-!
# A call on a session that nobody comes between

What such a call does, in two cases. If no engine is in the registry and none can be rebuilt,
it says why and leaves it so. Otherwise it works on one engine, which is then in the
registry: an engine call puts its events behind those in the ledger, and a state is read off
the engine. A rebuild depends on no more than the events it replays.
-/

namespace ProtocolEnforcer

open Effect

/-- The events in a ledger file. -/
def ProtocolServer.events {F : Type} (s : ProtocolServer F) (file : F) : List FsmEvent :=
  (s.ledgers file).getD []

/-- The events in a ledger file. -/
def SessionTable.events {F ι : Type} (t : SessionTable F ι) (file : F) : List FsmEvent :=
  (t.ledgers file).getD []

namespace SessionTable

variable {F ι : Type} [DecidableEq F] {t : SessionTable F ι} {file file' : F} {e : FsmEvent}

theorem append_events : (t.append file e).events file = t.events file ++ [e] := by
  dsimp only [events, append]
  rw [Function.update_self, Option.getD_some]

theorem append_events_other (h : file' ≠ file) : (t.append file e).events file' = t.events file' := by
  dsimp only [events, append]
  rw [Function.update_of_ne h]

end SessionTable

namespace Gateway

variable {F : Type} [DecidableEq F] {gw : Gateway F} {io disk : Io} {sid : String}
  {s t : ProtocolServer F}

/-! ## Rebuilding an engine -/

variable (gw sid) in
/-- The file that a rebuild replays. -/
def replayFile : F := gw.file (replayPath (gw.ledgerPath sid) sid)

variable (gw io sid) in
/-- The engine that the sidecar and the profile file give, if the ledger can be read. -/
def prepared : Except ErrorData ProfileFsmEngine :=
  match io.readSidecar (UnixPath.components (gw.sidecarPath sid)) with
  | none => .error (.fsm (.sessionNotFound sid))
  | some (.error e) => .error (.internalError ("Corrupt crash-recovery sidecar: " ++ e))
  | some (.ok sidecar) =>
    match gw.loadValid io sidecar.manifestPath with
    | .error e => .error e
    | .ok profile =>
      match io.ledgerNew with
      | .error e => .error (.internalError ("Ledger init failed: " ++ (LedgerError.io e).display))
      | .ok () =>
        match io.replay with
        | .error e => .error (.fsm (.ledger e))
        | .ok () =>
          .ok (.new gw.vendor profile (gw.configFor io profile sidecar.manifestPath))

variable (gw sid) in
/-- The session that a ledger with these events gives, in its engine. -/
def resumed (engine : ProfileFsmEngine) (events : List FsmEvent) : Except ErrorData Served :=
  match recoverProfileSession sid (⟨events, fun _ => .ok (), 0⟩ : SessionLedger) engine.profile with
  | .error e => .error (.fsm e)
  | .ok state => .ok ⟨engine, Function.update (fun _ => none) sid (some state), gw.ledgerPath sid⟩

variable (gw io sid) in
/-- What a rebuild makes of a ledger with these events. -/
def rebuilt (events : List FsmEvent) : Except ErrorData Served :=
  match gw.prepared io sid with
  | .error e => .error e
  | .ok engine => gw.resumed sid engine events

variable (gw io sid) in
/-- `recover_into_cache` behind `Ledger::new`. -/
def replaying (engine : ProfileFsmEngine) : Tool F Served := do
  modify (·.touch (replayPath (gw.ledgerPath sid) sid))
  lift (io.replay.mapError fun e => .fsm (.ledger e))
  let events ← reads fun s => (s.ledgers (gw.file (replayPath (gw.ledgerPath sid) sid))).getD []
  let w : World SessionLedger := ⟨⟨events, io.appends, 0⟩, fun _ => none, 0⟩
  let (result, w) := exec (engine.recoverSession sid) w
  let _ ← lift (result.mapError .fsm)
  return ⟨engine, w.sessions, gw.ledgerPath sid⟩

omit [DecidableEq F] in
theorem exec_replaying {engine : ProfileFsmEngine} (events : List FsmEvent)
    (hevents : s.events (gw.replayFile sid) = events) :
    (exec (gw.replaying io sid engine) s).1 =
      match io.replay with
      | .error e => .error (.fsm (.ledger e))
      | .ok () => gw.resumed sid engine events := by
  unfold replaying
  rw [exec_bind_ok (exec_modify _ _)]
  cases io.replay with
  | error e => rfl
  | ok _ =>
    dsimp only [Except.mapError]
    rw [exec_bind_ok (exec_lift _ _), exec_bind_ok (exec_reads _ _),
      show ((s.touch (replayPath (gw.ledgerPath sid) sid)).ledgers
        (gw.file (replayPath (gw.ledgerPath sid) sid))).getD [] = events from hevents]
    -- recovery asks the ledger for its events alone
    have hrecover : ∀ appends, recoverProfileSession sid (⟨events, appends, 0⟩ : SessionLedger)
        engine.profile = recoverProfileSession sid (⟨events, fun _ => .ok (), 0⟩ : SessionLedger)
          engine.profile := fun _ => rfl
    unfold ProfileFsmEngine.recoverSession
    rw [exec_bind_ok (exec_reads _ _)]
    dsimp only
    rw [hrecover, resumed]
    cases recoverProfileSession sid (⟨events, fun _ => .ok (), 0⟩ : SessionLedger)
      engine.profile with
    | error e => rfl
    | ok state => rfl

theorem exec_recoverIntoCache :
    (exec (gw.recoverIntoCache io sid) s).1 = gw.rebuilt io sid (s.events (gw.replayFile sid)) := by
  unfold recoverIntoCache rebuilt prepared
  rw [exec_bind_ok (exec_modify _ _)]
  cases io.readSidecar (UnixPath.components (gw.sidecarPath sid)) with
  | none => rfl
  | some r =>
    cases r with
    | error e => rfl
    | ok sidecar =>
      dsimp only
      rw [exec_bind_ok (exec_lift _ _)]
      cases gw.loadValid io sidecar.manifestPath with
      | error e => rfl
      | ok profile =>
        rw [exec_bind_ok (exec_lift _ _), exec_bind, exec_ledgerNew]
        cases io.ledgerNew with
        | error e => rfl
        | ok _ =>
          refine (exec_replaying (s.events (gw.replayFile sid)) ?_).trans ?_
          · exact attached_getD (gw.replayFile sid)
          · cases io.replay with
            | error e => rfl
            | ok _ => rfl

/-- What a rebuilt engine is: of a valid profile, with the session that the ledger gives. -/
structure Rebuilt (gw : Gateway F) (io : Io) (sid : String) (events : List FsmEvent)
    (served : Served) : Prop where
  path : served.path = gw.ledgerPath sid
  wellFormed : served.engine.profile.WellFormed gw.vendor.ed
  replays : io.replay = .ok ()
  resumes : ∃ state, replayEvents sid served.engine.profile events = .ok (some state)
  /-- Another ledger that can be replayed gives the same engine. -/
  again : ∀ {events' state'}, replayEvents sid served.engine.profile events' = .ok (some state') →
    ∃ served', gw.rebuilt io sid events' = .ok served' ∧ served'.engine = served.engine

omit [DecidableEq F] in
theorem prepared_ok {engine : ProfileFsmEngine} (h : gw.prepared io sid = .ok engine) :
    engine.profile.WellFormed gw.vendor.ed ∧ io.replay = .ok () := by
  unfold prepared at h
  split at h
  · cases h
  · cases h
  split at h
  · cases h
  rename_i profile hload
  split at h
  · cases h
  split at h
  · cases h
  rename_i hreplay
  cases h
  refine ⟨?_, hreplay⟩
  unfold loadValid at hload
  split at hload
  · cases hload
  split at hload
  · cases hload
  rename_i hvalid
  cases hload
  exact validateProfile_wellFormed hvalid

omit [DecidableEq F] in
theorem resumed_ok {engine : ProfileFsmEngine} {events : List FsmEvent} {served : Served} :
    gw.resumed sid engine events = .ok served ↔ ∃ state,
      replayEvents sid engine.profile events = .ok (some state) ∧
      served = ⟨engine, Function.update (fun _ => none) sid (some state), gw.ledgerPath sid⟩ := by
  rw [resumed, SessionLedger.recover_eq]
  cases replayEvents sid engine.profile events with
  | error e =>
    constructor
    · intro h
      cases h
    · rintro ⟨_, h, -⟩
      cases h
  | ok state? =>
    cases state? with
    | none =>
      constructor
      · intro h
        cases h
      · rintro ⟨_, h, -⟩
        cases h
    | some state =>
      constructor
      · intro h
        cases h
        exact ⟨state, rfl, rfl⟩
      · rintro ⟨_, h, rfl⟩
        cases h
        rfl

omit [DecidableEq F] in
theorem rebuilt_ok {events : List FsmEvent} {served : Served}
    (h : gw.rebuilt io sid events = .ok served) : Rebuilt gw io sid events served := by
  unfold rebuilt at h
  split at h
  · cases h
  rename_i engine hengine
  obtain ⟨wf, hreplay⟩ := prepared_ok hengine
  obtain ⟨state, hstate, rfl⟩ := resumed_ok.mp h
  refine ⟨rfl, wf, hreplay, ⟨state, hstate⟩, fun {events' state'} hstate' => ?_⟩
  refine ⟨⟨engine, Function.update (fun _ => none) sid (some state'), gw.ledgerPath sid⟩, ?_, rfl⟩
  unfold rebuilt
  rw [hengine]
  exact resumed_ok.mpr ⟨state', hstate', rfl⟩

theorem recoverIntoCache_attaches : Attaches gw s sid (exec (gw.recoverIntoCache io sid) s).2 := by
  have hspec : Triple (Unmoved s) (gw.recoverIntoCache io sid) (fun _ => Attaches gw s sid)
      (Attaches gw s sid) :=
    recoverIntoCache_spec.conseq (fun _ ht => ht) (fun _ _ ht => ⟨ht.1.1, Or.inr ht.1.2⟩)
      fun _ ht => ht
  exact hspec.ends ⟨rfl, rfl⟩

/-! ## A call that nobody comes between -/

variable {c : SessionCall} {served : Served}

/-- `served` is what the registry has for the session, or what a rebuild gives. -/
structure Resolves (gw : Gateway F) (disk : Io) (sid : String) (s : ProtocolServer F)
    (served : Served) : Prop where
  path : served.path = gw.ledgerPath sid
  found : s.registry sid = some served ∨
    s.registry sid = none ∧ gw.rebuilt disk sid (s.events (gw.replayFile sid)) = .ok served

theorem Resolves.getOrRecover (h : Resolves gw disk sid s served) :
    ∃ s', exec (gw.getOrRecover (c.io disk) sid) s = (.ok served, s') ∧
      s'.registry sid = some served ∧ ∀ file, s'.events file = s.events file := by
  unfold Gateway.getOrRecover
  rw [exec_bind_ok (exec_reads _ _)]
  rcases h.found with hentry | ⟨hentry, hrebuilt⟩
  · rw [hentry]
    exact ⟨s, rfl, hentry, fun _ => rfl⟩
  · rw [hentry]
    dsimp only
    have hanswer : (exec (gw.recoverIntoCache (c.io disk) sid) s).1 = .ok served :=
      exec_recoverIntoCache.trans hrebuilt
    have hattaches : Attaches gw s sid (exec (gw.recoverIntoCache (c.io disk) sid) s).2 :=
      recoverIntoCache_attaches
    rcases hx : exec (gw.recoverIntoCache (c.io disk) sid) s with ⟨r, s'⟩
    rw [hx] at hanswer hattaches
    cases hanswer
    rw [exec_bind_ok hx, exec_bind_ok (exec_modify _ _)]
    exact ⟨_, rfl, Function.update_self .., hattaches.getD⟩

/-- A rebuild that fails leaves what it needs to fail again. -/
theorem getOrRecover_failed {e : ErrorData} (hentry : s.registry sid = none)
    (hrebuilt : gw.rebuilt disk sid (s.events (gw.replayFile sid)) = .error e) :
    ∃ s', exec (gw.getOrRecover (c.io disk) sid) s = (.error e, s') ∧ s'.registry sid = none ∧
      ∀ file, s'.events file = s.events file := by
  unfold Gateway.getOrRecover
  rw [exec_bind_ok (exec_reads _ _), hentry]
  dsimp only
  have hanswer : (exec (gw.recoverIntoCache (c.io disk) sid) s).1 = .error e :=
    exec_recoverIntoCache.trans hrebuilt
  have hattaches : Attaches gw s sid (exec (gw.recoverIntoCache (c.io disk) sid) s).2 :=
    recoverIntoCache_attaches
  rcases hx : exec (gw.recoverIntoCache (c.io disk) sid) s with ⟨r, s'⟩
  rw [hx] at hanswer hattaches
  cases hanswer
  rw [exec_bind_error hx]
  refine ⟨s', rfl, ?_, hattaches.getD⟩
  rw [hattaches.registry]
  exact hentry

/-- A ledger that holds `es` in front of what `m` holds, and whose appends end alike. -/
structure Ahead (es : List FsmEvent) (l m : SessionLedger) : Prop where
  events : l.events = es ++ m.events
  outcome : l.outcome = m.outcome
  attempts : l.attempts = m.attempts

theorem Ahead.answers {es : List FsmEvent} : Answers (Ahead es) sid := by
  intro l m e _ h
  show (SessionLedger.append l e).1 = (SessionLedger.append m e).1 ∧
    Ahead es (SessionLedger.append l e).2 (SessionLedger.append m e).2
  unfold SessionLedger.append
  rw [h.outcome, h.attempts]
  cases m.outcome m.attempts with
  | ok _ => exact ⟨rfl, by simp [h.events], rfl, rfl⟩
  | error _ => exact ⟨rfl, h.events, rfl, rfl⟩

omit [DecidableEq F] in
/-- An engine call on the ledger does what it does on an empty one, behind what is there. -/
theorem work_world {call : Call} (hcall : call ≠ .recover) :
    (served.engine.perform sid (c.io disk).host call (gw.worldOf (c.io disk) served s)).1 =
        (c.work disk sid served call).1 ∧
      (served.engine.perform sid (c.io disk).host call
          (gw.worldOf (c.io disk) served s)).2.ledger.events =
        s.events (gw.file (UnixPath.components served.path)) ++
          (c.work disk sid served call).2.ledger.events ∧
      (served.engine.perform sid (c.io disk).host call
          (gw.worldOf (c.io disk) served s)).2.sessions =
        (c.work disk sid served call).2.sessions := by
  have hmirror : Mirror (Ahead (s.events (gw.file (UnixPath.components served.path)))) sid
      served.sessions (gw.worldOf (c.io disk) served s) ⟨⟨[], c.appends, 0⟩, served.sessions, 0⟩ :=
    ⟨⟨(List.append_nil _).symm, rfl, rfl⟩, rfl, fun _ _ => rfl, rfl⟩
  obtain ⟨hreply, hleft⟩ := @ProfileFsmEngine.perform_mirrors _ _ served.engine sid
    (c.io disk).host _ _ _ _ Ahead.answers _ _ call hcall hmirror
  refine ⟨hreply, hleft.ledger.events, funext fun x => ?_⟩
  by_cases hx : x = sid
  · rw [hx]
    exact hleft.session
  · have hother : (c.work disk sid served call).2.sessions x = served.sessions x := by
      unfold SessionCall.work
      rw [ProfileFsmEngine.perform_other hcall hx]
    rw [hleft.others x hx, hother]

/-- What an engine call does to a server: the events `es`, and the engine it leaves behind. -/
structure Did (gw : Gateway F) (sid : String) (s s' : ProtocolServer F) (served : Served)
    (es : List FsmEvent) : Prop where
  entry : s'.registry sid = some served
  ledger : s'.events (gw.ledgerFile sid) = s.events (gw.ledgerFile sid) ++ es
  others : ∀ file, file ≠ gw.ledgerFile sid → s'.events file = s.events file

/-- The answer of an engine call. -/
def engineAnswer (r : Except FsmError Reply) : Except ErrorData ToolReply :=
  (r.mapError .fsm).map .engine

/-- An engine that has been operated on is in the registry, and what it appended in the file. -/
theorem Did.of_install {s₁ s' : ProtocolServer F} {es : List FsmEvent}
    (hs : ∀ file, s₁.events file = s.events file) (hregistry : s'.registry sid = some served)
    (hledgers : s'.ledgers = Function.update s₁.ledgers (gw.ledgerFile sid)
      (some (s₁.events (gw.ledgerFile sid) ++ es))) :
    Did gw sid s s' served es := by
  refine ⟨hregistry, ?_, fun file hfile => ?_⟩
  · rw [ProtocolServer.events, hledgers, Function.update_self, Option.getD_some, hs]
  · rw [ProtocolServer.events, hledgers, Function.update_of_ne hfile]
    exact hs file

theorem Resolves.answer_call {call : Call} (h : Resolves gw disk sid s served)
    (hcall : c.tool.call = some call) :
    ∃ s', exec (gw.answer (c.io disk) sid c.tool) s =
        (engineAnswer (c.work disk sid served call).1, s') ∧
      Did gw sid s s' { served with sessions := (c.work disk sid served call).2.sessions }
        (c.work disk sid served call).2.ledger.events := by
  obtain ⟨s₁, hfound, -, hs₁⟩ := h.getOrRecover (c := c)
  have hnot : call ≠ .recover := by
    rcases SessionTool.call_eq_some hcall with ⟨_, _, _, -, rfl⟩ | ⟨_, _, _, -, rfl⟩
    · exact nofun
    · exact nofun
  obtain ⟨hreply, hevents, hsessions⟩ := @work_world F gw disk sid s₁ c served call hnot
  generalize (c.work disk sid served call).2.ledger.events = es at hevents ⊢
  rw [← hreply, ← hsessions]
  -- the engine goes back into the registry, and the file holds what it has appended
  have hdid : ∀ {r w}, served.engine.perform sid (c.io disk).host call
      (gw.worldOf (c.io disk) served s₁) = (r, w) →
        Did gw sid s ((s₁.setLedger (gw.file (UnixPath.components served.path))
          (some w.ledger.events)).install sid { served with sessions := w.sessions })
          { served with sessions := w.sessions } es := by
    intro r w hw
    rw [hw] at hevents
    refine .of_install hs₁ (Function.update_self ..) ?_
    rw [hevents, h.path]
    rfl
  rcases SessionTool.call_eq_some hcall with
    ⟨pos, evidence, output, htool, rfl⟩ | ⟨stepId, content, mimeType, htool, rfl⟩
  · rcases hx : exec (served.engine.submitMilestone (c.io disk).host sid pos evidence output)
      (gw.worldOf (c.io disk) served s₁) with ⟨r, w⟩
    rw [htool]
    unfold answer protocolSubmitMilestone
    rw [ProfileFsmEngine.perform_submit hx, exec_map, exec_bind_ok hfound, exec_bind_ok exec_operate,
      hx]
    dsimp only
    rw [exec_bind_ok (exec_modify _ _)]
    have hleft := hdid (ProfileFsmEngine.perform_submit hx)
    cases r with
    | error e => exact ⟨_, rfl, hleft⟩
    | ok o =>
      cases o with
      | completed => exact ⟨_, rfl, hleft.entry, hleft.ledger, hleft.others⟩
      | _ => exact ⟨_, rfl, hleft⟩
  · rcases hx : exec (served.engine.storeArtifact (c.io disk).host sid stepId (bytesOf content)
      (mimeType.getD "text/plain")) (gw.worldOf (c.io disk) served s₁) with ⟨r, w⟩
    rw [htool]
    unfold answer protocolStoreArtifact
    rw [ProfileFsmEngine.perform_store hx, exec_map, exec_bind_ok hfound, exec_bind_ok exec_operate,
      hx]
    dsimp only
    rw [exec_bind_ok (exec_modify _ _)]
    have hleft := hdid (ProfileFsmEngine.perform_store hx)
    cases r with
    | error e => exact ⟨_, rfl, hleft⟩
    | ok artifactRef => exact ⟨_, rfl, hleft⟩

omit [DecidableEq F] in
theorem Did.resolves {s' : ProtocolServer F} {es : List FsmEvent} (h : Did gw sid s s' served es)
    (hpath : served.path = gw.ledgerPath sid) : Resolves gw disk sid s' served :=
  ⟨hpath, .inl h.entry⟩

variable (sid) in
/-- The answer of `protocol_get_state` with a ledger of these events. -/
def stateAnswer (served : Served) (events : List FsmEvent) : Except ErrorData ToolReply :=
  match served.sessions sid with
  | some state => .ok (.state state.status state.position (ledgerTail events))
  | none => .error (.fsm (.sessionNotFound sid))

theorem Resolves.answer_state (h : Resolves gw disk sid s served) (htool : c.tool = .getState)
    (hreplay : disk.replay = .ok ()) :
    ∃ s', exec (gw.answer (c.io disk) sid c.tool) s =
        (stateAnswer sid served (s.events (gw.ledgerFile sid)), s') ∧ Did gw sid s s' served [] := by
  obtain ⟨s₁, hfound, hentry, hs₁⟩ := h.getOrRecover (c := c)
  have hdid : Did gw sid s s₁ served [] :=
    ⟨hentry, (hs₁ _).trans (List.append_nil _).symm, fun file _ => hs₁ file⟩
  rw [htool, ← hs₁]
  unfold answer protocolGetState stateAnswer
  rw [exec_map, exec_bind_ok hfound]
  cases served.sessions sid with
  | none => exact ⟨_, rfl, hdid⟩
  | some state =>
    have hlift : exec (lift ((c.io disk).replay.mapError fun e =>
        .internalError ("Ledger replay failed: " ++ e.display)) : Tool F Unit)
        (s₁.touch (UnixPath.components (gw.ledgerPath sid))) =
          (.ok (), s₁.touch (UnixPath.components (gw.ledgerPath sid))) := by
      rw [show (c.io disk).replay = .ok () from hreplay]
      rfl
    dsimp only [Option.elim]
    rw [exec_bind_ok (exec_lift _ _), exec_bind_ok (exec_modify _ _), exec_bind_ok hlift]
    exact ⟨_, rfl, hdid.entry, hdid.ledger, hdid.others⟩

/-- Where no engine can be rebuilt, every call says why, and leaves it so. -/
theorem answer_failed {e : ErrorData} (hentry : s.registry sid = none)
    (hrebuilt : gw.rebuilt disk sid (s.events (gw.replayFile sid)) = .error e) :
    ∃ s', exec (gw.answer (c.io disk) sid c.tool) s = (.error e, s') ∧ s'.registry sid = none ∧
      ∀ file, s'.events file = s.events file := by
  obtain ⟨s', hfound, hkept⟩ := getOrRecover_failed (c := c) hentry hrebuilt
  refine ⟨s', ?_, hkept⟩
  have hbind : ∀ {α : Type} (f : Served → Tool F α) (g : α → ToolReply),
      exec (g <$> (gw.getOrRecover (c.io disk) sid >>= f)) s = (.error e, s') := by
    intro α f g
    rw [exec_map, exec_bind_error hfound]
    rfl
  cases c.tool with
  | submit | getState | storeArtifact => exact hbind _ _

end Gateway

end ProtocolEnforcer
