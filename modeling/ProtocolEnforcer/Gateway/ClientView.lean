import ProtocolEnforcer.Fsm.Budgets
import ProtocolEnforcer.Fsm.Views
import ProtocolEnforcer.Gateway.Wire

/-!
# What a client knows

A client that reads nothing but the tools' answers keeps a position, a session state and a
challenge. In every run it knows what the gateway has in memory, over restarts it is not told
of; so the position it submits at is never refused, and the challenge it shows its approver is
the one the gate checks.
-/

namespace ProtocolEnforcer

/-- What a client keeps of the answers. -/
structure Known where
  position : Option Position
  sessionState : String
  challenge : Option String

/-- What a client should know. -/
def SessionView.known (v : SessionView) : Known :=
  ⟨v.position, sessionStatusStr v.status, v.challenge⟩

/-- A position as a client reads it; null is none. -/
def Position.ofJson (j : Json) : Option Position :=
  match (j.get "macro_id").bind Json.asStr, (j.get "sub_state_id").bind Json.asStr with
  | some m, some s => some ⟨m, s⟩
  | _, _ => none

namespace Known

/-- An answer is read: one with a session state tells where the session is, and a challenge
comes with what is injected; of an error only the breaker's code says anything. -/
def read (k : Known) : Except McpError Json → Known
  | .ok body =>
    match (body.get "session_state").bind Json.asStr with
    | none => k
    | some sessionState =>
      { position := (body.get "position").bind Position.ofJson
        sessionState
        challenge := match body.get "injected" with
          | none => k.challenge
          | some injected => (injected.get "approval_challenge").bind Json.asStr }
  | .error e => if e.code = some "CIRCUIT_BREAKER" then { k with sessionState := "failed" } else k

variable {k : Known} {v : SessionView}

theorem ofJson_toJson (p : Position) : Position.ofJson p.toJson = some p := rfl

/-- The challenge is the only key of its name in what is injected. -/
theorem injected_challenge (injected : RenderedInjection) :
    ((injectedJson injected).get "approval_challenge").bind Json.asStr =
      injected.approvalChallenge := by
  unfold injectedJson
  cases injected.approvalChallenge <;> cases injected.approvalPrompt <;> rfl

/-- A body that ends with a view shows the view. -/
theorem read_fields (head : List (String × Json)) {view : StepView}
    (hstate : head.lookup "session_state" = none) (hpos : head.lookup "position" = none)
    (hinjected : head.lookup "injected" = none) :
    k.read (.ok (.object (head ++ view.fields))) = view.shown.known := by
  have hget : ∀ {key}, head.lookup key = none →
      (Json.object (head ++ view.fields)).get key = view.fields.lookup key := by
    intro key hkey
    rw [Json.get, List.lookup_append, hkey, Option.none_or]
  unfold read
  dsimp only
  rw [hget hstate, hget hpos, hget hinjected]
  show Known.mk _ _ (((injectedJson view.injected).get "approval_challenge").bind Json.asStr) = _
  rw [injected_challenge]
  rfl

theorem read_start (sid : String) (view : StepView) :
    k.read (.ok (startResponseJson sid view)) = view.shown.known :=
  read_fields [("session_id", .string sid)] rfl rfl rfl

/-- The answer to a submission tells what the outcome leaves. -/
theorem read_submit {root : Option String} {out : StepOutcome} (hk : k = v.known) :
    k.read (.ok (submitResponseJson root out)) = (out.leaves v).known := by
  cases out with
  | advanced view => exact read_fields [("advanced", .bool true)] rfl rfl rfl
  | loopedBack items view =>
    exact read_fields [("advanced", .bool false), ("looped_back", .bool true),
      ("rejected_items", .array (items.map .string))] rfl rfl rfl
  | rejected items reason position => exact hk
  | completed path => cases root <;> rfl

/-- Of an error, what it leaves. -/
theorem read_error {e : FsmError} (hk : k = v.known) :
    k.read (.error (fsmErrorToMcp e)) = (e.leaves v).known := by
  subst hk
  unfold read
  dsimp only
  split
  · rename_i hcode
    obtain ⟨b, details, rfl⟩ := code_circuitBreaker.mp hcode
    rfl
  · rename_i hcode
    rw [ProfileFsmEngine.leaves_of_ne]
    rintro b details rfl
    exact hcode (code_circuitBreaker.mpr ⟨b, details, rfl⟩)

/-- The state that is asked for is the one that is known. -/
theorem read_getState {encode : FsmEvent → Json} {s : SessionState} {events : List FsmEvent}
    (hk : k = s.view.known) : k.read (.ok (getStateResponse encode s events)) = k := by
  have hposition : ((getStateResponse encode s events).get "position").bind Position.ofJson =
      s.position := by
    show Position.ofJson (s.position.elim .null Position.toJson) = s.position
    cases s.position with
    | none => rfl
    | some p => exact ofJson_toJson p
  have hread : k.read (.ok (getStateResponse encode s events)) =
      ⟨((getStateResponse encode s events).get "position").bind Position.ofJson,
        sessionStatusStr s.status, k.challenge⟩ := rfl
  rw [hread, hposition, hk]
  rfl

end Known

/-! ## Exchanges -/

/-- What is sent for a session: a call, or a look at its state. -/
inductive Request where
  | call (c : Call)
  | getState

/-- A request and what the outside answers meanwhile. -/
structure Exchange where
  host : Host
  request : Request
  /-- The transcript root, where it can be computed. -/
  transcriptRoot : Option String

namespace ProfileFsmEngine

open Effect

variable (engine : ProfileFsmEngine) (sid : String) (encode : FsmEvent → Json)

/-- The body of a reply. -/
def replyJson (root : Option String) : Reply → Json
  | .started view => startResponseJson sid view
  | .stepped outcome => submitResponseJson root outcome
  | .stored a => artifactResponseJson a
  | .recovered _ => .null

/-- What the client is sent, and the world afterwards; a recovery is none of its business. -/
def respond (w : World SessionLedger) (x : Exchange) :
    Option (Except McpError Json) × World SessionLedger :=
  match x.request with
  | .call .recover => (none, (perform engine sid x.host .recover w).2)
  | .call c =>
    (some (((perform engine sid x.host c w).1.mapError fsmErrorToMcp).map
      (replyJson sid x.transcriptRoot)), (perform engine sid x.host c w).2)
  | .getState =>
    (some (match w.sessions sid with
      | none => .error (fsmErrorToMcp (.sessionNotFound sid))
      | some s => .ok (getStateResponse encode s w.ledger.events)), w)

/-- A client and its session, after one exchange. -/
def exchange (c : Known × World SessionLedger) (x : Exchange) : Known × World SessionLedger :=
  let r := respond engine sid encode c.2 x
  (r.1.elim c.1 c.1.read, r.2)

/-- The client knows the session. -/
def Tracks (k : Known) (w : World SessionLedger) : Prop :=
  ∀ s, w.sessions sid = some s → k = s.view.known

variable {engine sid encode} {ed : Ed25519} {w : World SessionLedger} {k : Known} {host : Host}

theorem Tracks.of_seen {v : SessionView} {w' : World SessionLedger} (h : Seen sid v w')
    (hk : k = v.known) : Tracks sid k w' := by
  intro s hs
  rw [Seen, hs] at h
  cases h
  exact hk

/-- No challenge is parked at a checklist. -/
theorem GateSafe.free (wf : engine.profile.WellFormed ed) (h : GateSafe engine sid w)
    {s : SessionState} (hs : w.sessions sid = some s) {pos : Position} {i j : Nat}
    (here : s.view.position = some pos) (hloc : locate engine pos = .ok (i, j))
    (checklist : engine.profile.typeAt i j = .checklist) : s.view.challenge = none := by
  obtain ⟨hi, hj, rfl⟩ := locate_ok hloc
  have hno : ¬AtGate engine s :=
    not_atGate wf ⟨hi, hj⟩ here (by rw [checklist]; decide)
  have hnone := Option.not_isSome_iff_eq_none.mp (mt (h.pending hs).1.mp hno)
  rw [SessionState.view, hnone]
  rfl

/-- A start shows what it has made. -/
theorem Tracks.start (h : Tracks sid k w) (hledger : w.ledger.Reliable)
    (hserves : Serves engine host) (ctx : Option Json) (root : Option String) :
    Tracks sid (k.read (((perform engine sid host (.start ctx) w).1.mapError fsmErrorToMcp).map
      (replyJson sid root))) (perform engine sid host (.start ctx) w).2 := by
  rw [perform]
  dsimp only
  have shows : Triple (fun _ => True) (startSession (L := SessionLedger) engine host sid ctx)
      (fun view => Seen sid view.shown) fun _ => True := startSession_shows
  rcases shows.answers (s := w) trivial with ⟨view, hview, hseen⟩ | ⟨e, he, -⟩
  · rw [hview]
    exact .of_seen hseen (Known.read_start sid view)
  · have starting : Starting engine host sid ctx w _ := exec_startSession
    obtain ⟨hsame, hother⟩ := starting.leaves hledger hserves he
    rw [he, hsame]
    intro s hs
    exact (Known.read_error (h s hs)).trans (by rw [leaves_of_ne hother])

/-- A submission tells what it has changed. -/
theorem Tracks.submit (wf : engine.profile.WellFormed ed) (h : Tracks sid k w)
    (safe : GateSafe engine sid w) (hledger : w.ledger.Reliable) (hserves : Serves engine host)
    (pos : Position) (evidence : ChecklistEvidence) (output : Option Json) (root : Option String) :
    Tracks sid (k.read (((perform engine sid host (.submit pos evidence output) w).1.mapError
      fsmErrorToMcp).map (replyJson sid root)))
      (perform engine sid host (.submit pos evidence output) w).2 := by
  have submission : Submission engine host sid pos evidence output w _ := exec_submitMilestone
  rw [perform]
  dsimp only
  cases hs : w.sessions sid with
  | none =>
    obtain ⟨e, he⟩ := submission.inactive fun s hs' => by
      rw [hs] at hs'
      cases hs'
    rw [he]
    intro s hs'
    rw [hs] at hs'
    cases hs'
  | some s =>
    have hk := h s hs
    have hseen : Seen sid s.view w := congrArg (Option.map SessionState.view) hs
    have leaves : Leaves sid s.view (submitMilestone engine host sid pos evidence output)
        (·.leaves s.view) := submitMilestone_leaves fun here i j hloc => safe.free wf hs here hloc
    rcases leaves.answers hseen with
      ⟨out, hout, hleft⟩ | ⟨e, he, -⟩
    · rw [hout]
      exact .of_seen hleft (Known.read_submit hk)
    · obtain ⟨hleft, -⟩ := submission.fails hs hledger hserves he
      rw [he]
      exact .of_seen hleft (Known.read_error hk)

/-- An artifact changes nothing that is seen. -/
theorem Tracks.store (h : Tracks sid k w) (stepId mimeType : String) (data : Bytes)
    (root : Option String) :
    Tracks sid (k.read (((perform engine sid host (.store stepId data mimeType) w).1.mapError
      fsmErrorToMcp).map (replyJson sid root)))
      (perform engine sid host (.store stepId data mimeType) w).2 := by
  have storing : Storing host sid w
    (exec (storeArtifact engine host sid stepId data mimeType) w) := exec_storeArtifact
  have raises : ∀ e, (exec (storeArtifact engine host sid stepId data mimeType) w).1 = .error e →
      ∀ b details, e ≠ .circuitBreaker b details := storeArtifact_raises w
  rw [perform]
  dsimp only
  generalize exec (storeArtifact engine host sid stepId data mimeType) w = out at storing raises
  intro s hs
  cases storing with
  | failed | refused =>
    exact (Known.read_error (h s hs)).trans (by rw [leaves_of_ne (raises _ rfl)])
  | stored hs₀ active taken =>
    rw [World.setSession_sessions_self] at hs
    cases hs
    exact (h _ hs₀).trans rfl

/-- A recovery puts back what was there. -/
theorem Tracks.recover (host : Host) (h : Tracks sid k w) (safe : GateSafe engine sid w) :
    Tracks sid k (perform engine sid host .recover w).2 := by
  have recovering : Recovering engine sid w (exec (recoverSession engine sid) w) :=
    exec_recoverSession
  rw [perform]
  dsimp only
  generalize exec (recoverSession engine sid) w = out at recovering
  cases recovering with
  | failed => exact h
  | @recovered s' hs' =>
    intro s hs
    rw [World.setSession_sessions_self] at hs
    cases hs
    obtain ⟨fold, hfold, -, hlive⟩ := safe.synced
    have hsome : fold = some s'.timeless := hfold.unique ⟨some s', hs', rfl⟩
    obtain ⟨s₀, hs₀, htimeless⟩ := Option.map_eq_some_iff.mp (hlive.trans hsome)
    have hview : s₀.timeless.view = s'.timeless.view := congrArg SessionState.view htimeless
    exact (h s₀ hs₀).trans (congrArg SessionView.known hview)

/-- **One exchange**, and the client still knows the session. -/
theorem Tracks.exchange {x : Exchange} (wf : engine.profile.WellFormed ed) (h : Tracks sid k w)
    (safe : GateSafe engine sid w) (hledger : w.ledger.Reliable) (hserves : Serves engine x.host) :
    Tracks sid (exchange engine sid encode (k, w) x).1 (exchange engine sid encode (k, w) x).2 := by
  unfold ProfileFsmEngine.exchange respond
  cases x.request with
  | getState =>
    dsimp only [Option.elim]
    intro s hs
    rw [hs]
    exact (Known.read_getState (h s hs)).trans (h s hs)
  | call c =>
    cases c with
    | start ctx => exact h.start hledger hserves ctx _
    | submit pos evidence output => exact h.submit wf safe hledger hserves pos evidence output _
    | store stepId data mimeType => exact h.store stepId mimeType data _
    | recover => exact h.recover x.host safe

/-- What an exchange may rely on: references resolve, there is entropy, and what it would mint
is new. -/
def SustainedAt (engine : ProfileFsmEngine) (c : Known × World SessionLedger) (x : Exchange) :
    Prop :=
  Serves engine x.host ∧ MintsFresh x.host c.2.ledger.events

/-- An exchange moves the session as its call does, if it is one. -/
theorem exchange_world (c : Known × World SessionLedger) (x : Exchange) :
    (exchange engine sid encode c x).2 = c.2 ∨
      ∃ call, (exchange engine sid encode c x).2 = (perform engine sid x.host call c.2).2 := by
  unfold exchange respond
  cases x.request with
  | getState => exact Or.inl rfl
  | call c => cases c <;> exact Or.inr ⟨_, rfl⟩

/-- **The client knows.** For a validated profile, and every run of requests and restarts in
which appends, library lookups and minting succeed: whatever session is in memory, the client
knows its position, its status and the challenge of its gate, from the answers alone. So when
it submits where it thinks an active session is, it is never told that it is somewhere else. -/
theorem client_knows {vendor : Vendor} {library : Library} {p : Profile} {config : FsmConfig}
    {xs : List Exchange} {c : Known × World SessionLedger}
    (hvalid : validateProfile vendor.toSchemas library p = .ok ()) (hfresh : w.Fresh sid)
    (hledger : w.ledger.Reliable)
    (hxs : Runs.Along (exchange (new vendor p config) sid encode)
      (SustainedAt (new vendor p config)) (k, w) xs)
    (hc : c = xs.foldl (exchange (new vendor p config) sid encode) (k, w)) {s : SessionState}
    (hs : c.2.sessions sid = some s) :
    c.1 = ⟨s.position, sessionStatusStr s.status, s.pendingApproval.map (·.challenge)⟩ ∧
      ∀ x pos evidence output e, x.request = .call (.submit pos evidence output) →
        Serves (new vendor p config) x.host → c.1.position = some pos →
        c.1.sessionState = "active" →
        (respond (new vendor p config) sid encode c.2 x).1 = some (.error e) →
        e.code ≠ some "STEP_MISMATCH" := by
  have wf : (new vendor p config).profile.WellFormed vendor.ed := new_wellFormed hvalid
  have hbegin : Tracks sid k w := by
    intro s hs
    rw [hfresh.2] at hs
    cases hs
  have hrun := hxs.invariant (I := fun c => Tracks sid c.1 c.2 ∧
      GateSafe (new vendor p config) sid c.2 ∧ c.2.ledger.Reliable) ?_
    ⟨hbegin, gateSafe_of_fresh hfresh, hledger⟩
  · rw [← hc] at hrun
    obtain ⟨tracks, -, hledger⟩ := hrun
    have hknown := tracks s hs
    refine ⟨hknown, ?_⟩
    intro x pos evidence output e hx hserves here hactive hanswer hcode
    have hstatus : s.status = .active := by
      rw [hknown] at hactive
      cases hst : s.status with
      | active => rfl
      | completed | failed =>
        have heq : sessionStatusStr s.status = "active" := hactive
        rw [hst] at heq
        exact absurd heq (by decide)
    have hcheck : checkSubmission sid pos (c.2.sessions sid) = .ok s :=
      checkSubmission_ok.mpr ⟨hs, hstatus, by rw [hknown] at here; exact here⟩
    unfold respond at hanswer
    rw [hx] at hanswer
    have submission : Submission (new vendor p config) x.host sid pos evidence output c.2 _ :=
      exec_submitMilestone
    cases hr : (exec (submitMilestone (new vendor p config) x.host sid pos evidence output) c.2).1 with
    | ok out =>
      simp only [perform, hr, Except.map, Except.mapError] at hanswer
      cases hanswer
    | error e' =>
      simp only [perform, hr, Except.map, Except.mapError] at hanswer
      cases hanswer
      obtain ⟨expected, actual, rfl⟩ := code_stepMismatch.mp hcode
      obtain ⟨-, hmismatch⟩ := submission.fails hs hledger hserves hr
      cases hcheck.symm.trans (hmismatch _ _ rfl)
  · rintro c x ⟨hserves, hfresh⟩ ⟨tracks, safe, hledger⟩
    refine ⟨tracks.exchange wf safe hledger hserves, ?_⟩
    have hworld : (exchange (new vendor p config) sid encode c x).2 = c.2 ∨
        ∃ call, (exchange (new vendor p config) sid encode c x).2 =
          (perform (new vendor p config) sid x.host call c.2).2 := exchange_world c x
    rcases hworld with hsame | ⟨call, hcall⟩
    · rw [hsame]
      exact ⟨safe, hledger⟩
    · rw [hcall]
      exact ⟨safe.after wf hledger ⟨hserves, hfresh⟩, perform_reliable hledger⟩

end ProfileFsmEngine

/-- A start, a step to a gate, a restart, and a look. -/
def Sample.exchanges : List Exchange :=
  [⟨hostWith 0, .call (.start none), none⟩, ⟨host, .call (submit "draft" .empty).2, none⟩,
    ⟨hostWith 1, .call .recover, none⟩, ⟨hostWith 1, .getState, none⟩]

namespace ProfileFsmEngine

/-- A client over a restart in front of a gate. -/
theorem client_knows_restarted :
    let engine := Sample.engine [Sample.draft, Sample.signoff, Sample.checklist]
    let c := Sample.exchanges.foldl (exchange engine "s1" fun _ => .null)
      (⟨none, "", none⟩, Sample.world fun _ => .ok ())
    ∃ s, c.2.sessions "s1" = some s ∧ s.pendingApproval.isSome ∧
      c.1 = ⟨s.position, sessionStatusStr s.status, s.pendingApproval.map (·.challenge)⟩ := by
  intro engine c
  have hvalid : validateProfile Sample.vendor.toSchemas Sample.library
      (Sample.profile [Sample.draft, Sample.signoff, Sample.checklist]) = .ok () := by
    decide +kernel
  have hserves : ∀ host : Host, (∃ bytes, host.getrandom = .ok bytes) → Serves engine host :=
    fun _ => Sample.serves (by decide)
  have hgate : (c.2.sessions "s1").map (·.pendingApproval.isSome) = some true := by decide +kernel
  have hxs : Runs.Along (exchange engine "s1" fun _ => .null) (SustainedAt engine)
      (⟨none, "", none⟩, Sample.world fun _ => .ok ()) Sample.exchanges := by
    refine ⟨⟨hserves _ ⟨_, rfl⟩, ?_⟩, ⟨hserves _ ⟨_, rfl⟩, ?_⟩, ⟨hserves _ ⟨_, rfl⟩, ?_⟩,
      ⟨hserves _ ⟨_, rfl⟩, ?_⟩, trivial⟩ <;>
      · unfold MintsFresh
        decide +kernel
  obtain ⟨s, hs, hpending⟩ := Option.map_eq_some_iff.mp hgate
  obtain ⟨hknown, -⟩ :=
    client_knows (c := c) hvalid (Sample.world_fresh "s1" _) (fun _ => rfl) hxs rfl hs
  exact ⟨s, hs, hpending, hknown⟩

end ProfileFsmEngine

end ProtocolEnforcer
