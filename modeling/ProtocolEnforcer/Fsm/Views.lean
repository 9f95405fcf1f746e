import ProtocolEnforcer.Fsm.Gate

/-!
# What an answer tells of the session

A client sees three things of a session: its position, its status, and the challenge of the
gate it stands at. Every answer of the engine tells how they have changed: a view shows them,
a rejection and an error leave them, a completion and a tripped breaker end the session.
-/

namespace ProtocolEnforcer

/-- What a client can see of a session. -/
@[ext] structure SessionView where
  position : Option Position
  status : SessionStatus
  challenge : Option String

/-- What there is to see. -/
def SessionState.view (s : SessionState) : SessionView :=
  ⟨s.position, s.status, s.pendingApproval.map (·.challenge)⟩

/-- What a step shows. -/
def StepView.shown (view : StepView) : SessionView :=
  ⟨some view.position, view.sessionState, view.injected.approvalChallenge⟩

/-- What an outcome leaves of what was seen before it. -/
def StepOutcome.leaves (before : SessionView) : StepOutcome → SessionView
  | .advanced view | .loopedBack _ view => view.shown
  | .rejected _ _ _ => before
  | .completed _ => ⟨none, .completed, none⟩

/-- What an error leaves. -/
def FsmError.leaves (before : SessionView) : FsmError → SessionView
  | .circuitBreaker _ _ => { before with status := .failed }
  | _ => before

/-- An injection is rendered without a challenge. -/
theorem renderInjection_challenge {toStringPretty : Json → String} {sub : SubStateDef}
    {m : StateDef} {library : Library} {ctx : Option Json} {injected : RenderedInjection}
    (h : renderInjection toStringPretty sub m library ctx = .ok injected) :
    injected.approvalChallenge = none := by
  unfold renderInjection at h
  dsimp only at h
  cases hs : resolveRef library .skill "skill" (sub.inject.bind (·.skill)) with
  | error e =>
    rw [hs] at h
    cases h
  | ok skill =>
    cases hp : resolveRef library .protocol "protocol" (sub.inject.bind (·.protocol)) with
    | error e =>
      rw [hs, hp] at h
      cases h
    | ok «protocol» =>
      rw [hs, hp] at h
      cases h
      rfl

theorem renderLoopTarget_challenge {toStringPretty : Json → String} {m : StateDef}
    {library : Library} {out : Position × RenderedInjection}
    (h : renderLoopTarget toStringPretty m library = .ok out) :
    out.2.approvalChallenge = none := by
  unfold renderLoopTarget at h
  split at h
  · cases h
  · rename_i k hk
    dsimp only at h
    cases hr : renderInjection toStringPretty (m.subAt k) m library none with
    | error e =>
      rw [hr] at h
      cases h
    | ok injected =>
      rw [hr] at h
      cases h
      exact renderInjection_challenge hr

namespace ProfileFsmEngine

open Effect

variable (sid : String) in
/-- There is a session in memory, and this is to be seen of it. -/
def Seen (v : SessionView) (w : World SessionLedger) : Prop :=
  (w.sessions sid).map SessionState.view = some v

variable {engine : ProfileFsmEngine} {host : Host} {sid : String} {v : SessionView}
  {i j : Nat} {pos next : Position} {st : SessionStatus}

/-! ## Outcomes -/

section

/-- What an operation that returns leaves to be seen. -/
abbrev Leaves {α : Type} (sid : String) (v : SessionView)
    (x : Effect (World SessionLedger) FsmError α) (leaves : α → SessionView) : Prop :=
  Triple (Seen sid v) x (fun a => Seen sid (leaves a)) fun _ => True

theorem append_leaves {ty : FsmEventType} {payload : Json} :
    Leaves sid v (append host sid ty pos payload) fun _ => v := by
  intro w hw
  rcases w.takes_or_refuses with ht | ⟨e, he⟩
  · rw [exec_append_taken ht]
    exact hw
  · rw [exec_append_refused he]
    trivial

theorem updateSession_leaves (v' : SessionView) {f : SessionState → SessionState}
    (hf : ∀ s, s.view = v → (f s).view = v') : Leaves sid v (updateSession sid f) fun _ => v' := by
  intro w hw
  obtain ⟨s, hs, hview⟩ := Option.map_eq_some_iff.mp hw
  rw [exec_updateSession f hs]
  show Seen sid v' _
  rw [Seen, World.setSession_sessions_self, Option.map_some, hf s hview]

/-- A session that is read is the one that is seen. -/
theorem getSession_leaves : Triple (Seen sid v) (getSession (L := SessionLedger) sid)
    (fun s w => s.view = v ∧ Seen sid v w) fun _ => True := by
  intro w hw
  obtain ⟨s, hs, hview⟩ := Option.map_eq_some_iff.mp hw
  rw [exec_getSession hs]
  exact ⟨hview, hw⟩

theorem now_leaves : Leaves sid v (now host) fun _ => v := fun _ hw => hw

/-- A challenge is shown by the injection that goes with it. -/
theorem enterSub_leaves {ctx : Option Json} :
    Leaves sid ⟨some pos, st, none⟩ (enterSub engine host sid i j ctx)
      fun out => ⟨some pos, st, out.2.approvalChallenge⟩ := by
  unfold enterSub
  refine .bind_lift (fun injected hinjected => ?_) fun _ _ => trivial
  refine .bind_lift (fun issued hissued => ?_) fun _ _ => trivial
  cases issued with
  | none =>
    refine .pure fun w hw => ?_
    show Seen sid ⟨some pos, st, injected.approvalChallenge⟩ w
    rw [renderInjection_challenge hinjected]
    exact hw
  | some challenge =>
    refine .bind append_leaves fun _ => .bind (updateSession_leaves _ fun s hs => ?_) fun _ =>
      .pure fun w hw => hw
    obtain ⟨hpos, hstatus, -⟩ := SessionView.ext_iff.mp hs
    exact SessionView.ext hpos hstatus rfl

theorem reposition_leaves :
    Leaves sid v (reposition host sid next) fun _ => ⟨some next, v.status, none⟩ := by
  refine .bind getSession_leaves fun s => .of_fact fun _ => .bind now_leaves fun t =>
    updateSession_leaves _ fun s hs => ?_
  have hstatus : s.status = v.status := congrArg SessionView.status hs
  exact SessionView.ext rfl hstatus rfl

theorem landOn_leaves : Leaves sid ⟨some (engine.profile.place i j), st, none⟩
    (landOn engine host sid i j) (·.leaves v) := by
  refine .bind enterSub_leaves fun out => .bind getSession_leaves fun s => .of_fact fun hs => ?_
  have hstatus : s.status = st := congrArg SessionView.status hs
  refine .pure fun w hw => ?_
  rw [hstatus]
  exact hw

theorem advancePlain_leaves :
    Leaves sid v (advancePlain engine host sid i j pos) (·.leaves v) :=
  .bind append_leaves fun _ => .bind reposition_leaves fun _ => landOn_leaves

theorem advanceMacro_leaves :
    Leaves sid v (advanceMacro engine host sid i pos) (·.leaves v) := by
  refine .bind append_leaves fun _ => .bind_lift (fun k _ => ?_) fun _ _ => trivial
  refine .bind append_leaves fun _ => .bind reposition_leaves fun _ => ?_
  exact .bind (updateSession_leaves _ fun s hs => hs) fun _ => landOn_leaves

/-- A tripped breaker does not return. -/
theorem tripBreaker_leaves {b : CircuitBreakerType} {ledgered : Json} {details : String}
    {f : StepOutcome → SessionView} :
    Leaves sid v (tripBreaker host sid b ledgered pos details) f := by
  refine .bind (Q := fun _ => Seen sid v) append_leaves fun _ => ?_
  exact .bind_modify (M := fun _ => True) (fun _ _ => trivial) (.throw fun _ _ => trivial)

theorem applyLoopBack_leaves {missing : List String} {n : UInt32} (free : v.challenge = none) :
    Leaves sid v (applyLoopBack engine host sid i pos missing n) (·.leaves v) := by
  refine .bind_lift (fun target htarget => ?_) fun _ _ => trivial
  refine .bind append_leaves fun _ => .bind getSession_leaves fun s => .of_fact fun hs => ?_
  refine .bind now_leaves fun t => .bind (updateSession_leaves
    ⟨some target.1, s.status, target.2.approvalChallenge⟩ fun s' hs' => ?_) fun _ =>
      .pure fun w hw => hw
  refine SessionView.ext rfl ?_ ?_
  · exact (congrArg SessionView.status hs').trans (congrArg SessionView.status hs).symm
  · exact (congrArg SessionView.challenge hs').trans
      (free.trans (renderLoopTarget_challenge htarget).symm)

theorem rejectChecklist_leaves {missing : List String} {evidence : ChecklistEvidence}
    (free : v.challenge = none) :
    Leaves sid v (rejectChecklist engine host sid i pos missing evidence) (·.leaves v) := by
  refine .bind (updateSession_leaves _ fun s hs => hs) fun _ => .bind getSession_leaves fun s =>
    .of_fact fun _ => .bind append_leaves fun _ => ?_
  dsimp only
  split
  · exact tripBreaker_leaves
  split
  · exact tripBreaker_leaves
  split
  · exact applyLoopBack_leaves free
  · exact .pure fun w hw => hw

theorem writeContract_leaves {output : Option Json} :
    Leaves sid v (writeContract engine host sid pos output) fun _ => v := by
  unfold writeContract
  split
  · exact .pure fun w hw => hw
  split
  · exact .pure fun w hw => hw
  · exact .bind append_leaves fun _ => .throw fun _ _ => trivial

theorem completeFinalMacro_leaves {output : Option Json} (free : v.challenge = none) :
    Leaves sid v (completeFinalMacro engine host sid pos output) (·.leaves v) := by
  refine .bind (Q := fun _ => Seen sid v) (.reads fun w hw => hw) fun session => ?_
  refine .bind_lift (fun _ _ => ?_) fun _ _ => trivial
  refine .bind writeContract_leaves fun written => .bind append_leaves fun _ =>
    .bind append_leaves fun _ => .bind getSession_leaves fun s => .of_fact fun _ =>
    .bind now_leaves fun t => .bind (updateSession_leaves ⟨none, .completed, none⟩
      fun s' hs' => ?_) fun _ => .pure fun w hw => hw
  exact SessionView.ext rfl rfl ((congrArg SessionView.challenge hs').trans free)

theorem dispatch_leaves {evidence : ChecklistEvidence} {output : Option Json}
    (free : engine.profile.typeAt i j = .checklist → v.challenge = none) :
    Leaves sid v (dispatch engine host sid i j pos evidence output) (·.leaves v) := by
  unfold dispatch
  split
  · rename_i checklist
    have free := free checklist
    unfold stepChecklist
    dsimp only
    split
    · split
      · exact completeFinalMacro_leaves free
      · exact advanceMacro_leaves
    · exact rejectChecklist_leaves free
  · refine .bind (Q := fun _ => Seen sid v) (.reads fun w hw => hw) fun session => ?_
    split
    · -- a refusal is counted where the client does not look
      refine .bind append_leaves fun _ => .bind (updateSession_leaves _ fun s hs => hs) fun _ =>
        .bind getSession_leaves fun s => .of_fact fun _ => ?_
      dsimp only
      split
      · exact tripBreaker_leaves
      · exact .pure fun w hw => hw
    · exact .bind append_leaves fun _ => advancePlain_leaves
  · exact advancePlain_leaves

/-- **An outcome tells what it has changed**, if no challenge is parked at a checklist. -/
theorem submitMilestone_leaves {evidence : ChecklistEvidence} {output : Option Json}
    (free : v.position = some pos → ∀ i j, locate engine pos = .ok (i, j) →
      engine.profile.typeAt i j = .checklist → v.challenge = none) :
    Leaves sid v (submitMilestone engine host sid pos evidence output) (·.leaves v) := by
  refine .bind (Q := fun (session : Option SessionState) w =>
    session.map SessionState.view = some v ∧ Seen sid v w)
    (.reads fun w hw => ⟨hw, hw⟩) fun session => .of_fact fun hsession => ?_
  refine .bind_lift (fun s hs => ?_) fun _ _ => trivial
  obtain ⟨rfl, -, here⟩ := checkSubmission_ok.mp hs
  cases hsession
  refine .bind now_leaves fun t => ?_
  dsimp only
  split
  · exact tripBreaker_leaves
  · exact .bind_lift (fun ij hij => dispatch_leaves (free here _ _ hij)) fun _ _ => trivial

/-- **So does a start.** -/
theorem startSession_shows {ctx : Option Json} : Triple (fun _ => True)
    (startSession engine host sid ctx) (fun view => Seen sid view.shown) fun _ => True := by
  refine .bind_lift (fun _ _ => ?_) fun _ _ => trivial
  refine .bind_lift (fun first _ => ?_) fun _ _ => trivial
  refine .bind (Q := fun _ _ => True) (fun _ _ => trivial) fun t => ?_
  refine .bind_modify (M := Seen sid ⟨some ⟨first.1.stateId, (first.1.subAt first.2).id⟩,
    .active, none⟩) (fun w _ => ?_) ?_
  · rw [Seen, World.setSession_sessions_self]
    rfl
  have launches : Leaves sid ⟨some ⟨first.1.stateId, (first.1.subAt first.2).id⟩, .active, none⟩
      (launch engine host sid first.2 ⟨first.1.stateId, (first.1.subAt first.2).id⟩
        (ctx.getD .null) ctx)
      fun injected => ⟨some ⟨first.1.stateId, (first.1.subAt first.2).id⟩, .active,
        injected.approvalChallenge⟩ :=
    .bind append_leaves fun _ => .bind enterSub_leaves fun out => .pure fun w hw => hw
  refine .bind (launches.tryCatch fun e => ?_) fun injected => .pure fun w hw => hw
  exact .bind_modify (M := fun _ => True) (fun _ _ => trivial) (.throw fun _ _ => trivial)

end

/-! ## Errors -/

/-- Neither a tripped breaker nor a refusal of the position. -/
def Plain (e : FsmError) : Prop :=
  (∀ b details, e ≠ .circuitBreaker b details) ∧ ∀ expected actual, e ≠ .stepMismatch expected actual

/-- Any error but a tripped breaker leaves what was seen. -/
theorem leaves_of_ne {e : FsmError} (h : ∀ b details, e ≠ .circuitBreaker b details) :
    e.leaves v = v := by
  cases e with
  | circuitBreaker b details => exact absurd rfl (h b details)
  | _ => rfl

/-- A completion's errors are plain. -/
theorem plain_of_completionError {e : FsmError} (h : CompletionError e) : Plain e := by
  rcases h with ⟨_, rfl⟩ | ⟨_, rfl⟩ | ⟨_, rfl | rfl⟩ <;> exact ⟨nofun, nofun⟩

section

variable {w : World SessionLedger} {s : SessionState} {evidence : ChecklistEvidence}
  {output : Option Json} {e : FsmError}

/-- With entropy, a library and a ledger, whoever has moved lands. -/
theorem Landing.not_error {ctx : Option Json}
    {out : Except FsmError (Position × RenderedInjection) × World SessionLedger}
    (land : Landing engine host sid i j ctx w s out) (hledger : w.ledger.Reliable)
    (hserves : Serves engine host) : out.1 ≠ .error e := by
  cases land with
  | unlandable fails =>
    rw [hserves.landingError] at fails
    cases fails
  | unchallenged lands gate minted refused => exact hledger.elim refused
  | arrived | challenged => exact nofun

theorem Advance.not_error {out : Except FsmError StepOutcome × World SessionLedger}
    (adv : Advance engine host sid i j pos w s out) (hledger : w.ledger.Reliable)
    (hserves : Serves engine host) : out.1 ≠ .error e := by
  cases adv with
  | refused refused => exact hledger.elim refused
  | @moved k next f out taken hk hnext land =>
    intro he
    obtain ⟨r, w'⟩ := out
    cases r with
    | ok out => cases he
    | error e' => exact land.not_error (e := e') hledger hserves rfl

/-- What an error that is answered leaves to be seen, and when it is about the position. -/
def Fails (sid : String) (pos : Position) (w : World SessionLedger) (s : SessionState)
    (e : FsmError) (w' : World SessionLedger) : Prop :=
  Seen sid (e.leaves s.view) w' ∧
    ∀ expected actual, e = .stepMismatch expected actual →
      checkSubmission sid pos (w.sessions sid) = .error e

/-- A plain error that leaves memory. -/
theorem Fails.of_plain {w' : World SessionLedger} (hseen : Seen sid s.view w') (h : Plain e) :
    Fails sid pos w s e w' := by
  refine ⟨?_, fun expected actual he => absurd he (h.2 expected actual)⟩
  rw [leaves_of_ne h.1]
  exact hseen

theorem Tripped.fails {b : CircuitBreakerType} {w₀ : World SessionLedger} {s' : SessionState}
    {out : Except FsmError StepOutcome × World SessionLedger} (trip : Tripped host sid b pos w s out)
    (hledger : w.ledger.Reliable) (he : out.1 = .error e) (hview : s.view = s'.view) :
    Fails sid pos w₀ s' e out.2 := by
  cases trip with
  | refused refused => exact hledger.elim refused
  | failed taken =>
    cases he
    refine ⟨?_, nofun⟩
    rw [Seen, World.setSession_sessions_self, ← hview]
    rfl

theorem Rejection.fails {missing : List String} {w₀ : World SessionLedger} {s' : SessionState}
    {out : Except FsmError StepOutcome × World SessionLedger}
    (reject : Rejection engine host sid i pos missing evidence w s out)
    (hledger : w.ledger.Reliable) (he : out.1 = .error e) (hview : s.view = s'.view) :
    Fails sid pos w₀ s' e out.2 := by
  cases reject with
  | refused refused => exact hledger.elim refused
  | tripped taken trips trip => exact trip.fails (fun n => hledger n) he hview
  | loopStuck taken holds hloops stuck =>
    cases he
    refine .of_plain ?_ ?_
    · show ((w.setSession sid (some s)).sessions sid).map SessionState.view = _
      rw [World.setSession_sessions_self, Option.map_some, hview]
    · rcases loopError_kind stuck with ⟨m, rfl⟩ | ⟨m, rfl⟩ <;> exact ⟨nofun, nofun⟩
  | loopRefused taken holds hloops renders refused => exact hledger.elim refused
  | looped | rejected => cases he

/-- **An error tells what it has changed**: a breaker ends the session, any other leaves it. -/
theorem Submission.fails {out : Except FsmError StepOutcome × World SessionLedger}
    (submission : Submission engine host sid pos evidence output w out)
    (hs : w.sessions sid = some s) (hledger : w.ledger.Reliable) (hserves : Serves engine host)
    (he : out.1 = .error e) : Fails sid pos w s e out.2 := by
  have hseen : Seen sid s.view w := congrArg (Option.map SessionState.view) hs
  cases submission with
  | refused fails =>
    cases he
    refine ⟨?_, fun _ _ _ => fails⟩
    rw [leaves_of_ne]
    · exact hseen
    · rcases checkSubmission_kind fails with rfl | ⟨_, rfl⟩ | ⟨_, rfl⟩ | ⟨_, _, rfl⟩ <;> exact nofun
  | @late s' out hc hlate trip =>
    obtain ⟨hs', -⟩ := checkSubmission_ok.mp hc
    cases Option.some.inj (hs.symm.trans hs')
    exact trip.fails (fun n => hledger n) he rfl
  | @handled s' out hc hlate handling =>
    obtain ⟨hs', -⟩ := checkSubmission_ok.mp hc
    cases Option.some.inj (hs.symm.trans hs')
    have hledger : w.tick.ledger.Reliable := hledger
    cases handling with
    | lost hroute =>
      cases he
      refine .of_plain hseen ?_
      have hloc : locate engine pos = .error e := routeAt_eq hroute
      unfold locate at hloc
      split at hloc
      · cases hloc
        exact ⟨nofun, nofun⟩
      split at hloc <;> cases hloc
      exact ⟨nofun, nofun⟩
    | plain hroute advance => exact absurd he (advance.not_error hledger hserves)
    | passed hroute advance =>
      cases advance with
      | refused refused | stranded _ _ refused => exact hledger.elim refused
      | unentered taken hnone =>
        cases he
        refine .of_plain hseen ?_
        unfold firstEnabledIndex at hnone
        split at hnone <;> cases hnone
        exact ⟨nofun, nofun⟩
      | @moved k next f out taken hk hnext taken' land =>
        obtain ⟨r, w'⟩ := out
        cases r with
        | ok out => cases he
        | error e' => exact absurd rfl (land.not_error (e := e') (fun n => hledger n) hserves)
    | final hroute complete =>
      cases complete with
      | unverified fails =>
        cases he
        exact .of_plain hseen (plain_of_completionError (verifySessionArtifacts_error fails))
      | violated verified fails taken =>
        cases he
        exact .of_plain hseen (plain_of_completionError (contractResult_error fails))
      | untraced _ _ refused | refused _ _ refused | stranded _ _ _ refused =>
        exact hledger.elim refused
      | completed => cases he
    | rejected hroute reject => exact reject.fails (fun n => hledger n) he rfl
    | approved hroute accept =>
      cases accept with
      | refused refused => exact hledger.elim refused
      | accepted taken advance => exact absurd he (advance.not_error (fun n => hledger n) hserves)
    | unapproved hroute refuse =>
      cases refuse with
      | refused refused => exact hledger.elim refused
      | tripped taken capped trip => exact trip.fails (fun n => hledger n) he rfl
      | counted => cases he

/-- A start that does not answer has changed nothing. -/
theorem Starting.leaves {ctx : Option Json} {out : Except FsmError StepView × World SessionLedger}
    (starting : Starting engine host sid ctx w out) (hledger : w.ledger.Reliable)
    (hserves : Serves engine host) (he : out.1 = .error e) :
    out.2 = w ∧ ∀ b details, e ≠ .circuitBreaker b details := by
  cases starting with
  | invalid fails =>
    cases he
    refine ⟨rfl, ?_⟩
    unfold validated at fails
    split at fails <;> cases fails
    exact nofun
  | unentered valid fails =>
    cases he
    refine ⟨rfl, ?_⟩
    unfold entryPoint firstEnabledIndex at fails
    split at fails
    · cases fails
      exact nofun
    · split at fails <;> cases fails
      exact nofun
  | refused _ _ refused => exact hledger.elim refused
  | stuck valid entry taken land => exact absurd rfl (land.not_error (fun n => hledger n) hserves)
  | started => cases he

/-- Storing an artifact trips no breaker. -/
theorem storeArtifact_raises {stepId mimeType : String} {data : Bytes} :
    Raises (fun e => ∀ b details, e ≠ .circuitBreaker b details)
      (storeArtifact (L := SessionLedger) engine host sid stepId data mimeType) := by
  have hget : Raises (fun e => ∀ b details, e ≠ .circuitBreaker b details)
      (getSession (L := SessionLedger) sid) := by
    refine .bind .reads fun session => .lift fun e he => ?_
    cases session with
    | none =>
      cases he
      exact nofun
    | some s => cases he
  have hmap : ∀ {α : Type} {r : Except ArtifactError α}, ∀ e, r.mapError FsmError.artifact =
      .error e → ∀ b details, e ≠ .circuitBreaker b details := by
    rintro α (e | a) e' he
    · cases he
      exact nofun
    · cases he
  refine .bind hget fun s => ?_
  dsimp only
  split
  · exact .throw nofun
  refine .bind_lift (fun e he => hmap e he) fun store _ => .bind_lift (fun e he => hmap e he)
    fun artifactRef _ => ?_
  refine .bind ?_ fun _ => .bind hget fun _ => .bind ?_ fun t => .bind ?_ fun _ => .pure
  · intro w e he
    rw [exec_append] at he
    cases hr : (LedgerPort.append w.ledger (eventAt (host.clock w.ticks) sid
      (.artifactStored artifactRef) (s.position.getD ⟨"", ""⟩) Json.emptyObject)).1 with
    | error e' =>
      rw [hr] at he
      cases he
      exact nofun
    | ok u =>
      rw [hr] at he
      cases he
  · exact nofun
  · exact .bind hget fun _ => .modified

end

end ProfileFsmEngine

end ProtocolEnforcer
