import ProtocolEnforcer.Fsm.Calls

/-!
# What an operation can do

One inversion per operation. `route` is the decision `submit_milestone` takes from
the session, the clock and the submission, before anything is appended; then each
inductive relation here lists every way the operation behind a route ends, as its
result and the world it leaves, with the facts that lead there. The theorems
`exec_*` say that the operation is in its relation, so nothing below unfolds an
operation again.
-/

namespace ProtocolEnforcer

/-- The type of the sub-state with these indices. -/
def Profile.typeAt (p : Profile) (i j : Nat) : SubStateType :=
  ((p.stateAt i).subAt j).subStateType

/-- Which part of `submit_milestone` handles a submission. -/
inductive Route where
  /-- Not an active session, or not its position. -/
  | refused (e : FsmError)
  | late (elapsed : Nat)
  /-- The position names nothing in the profile. -/
  | lost (e : FsmError)
  | plain (i j : Nat)
  | passed (i j : Nat)
  | final (i j : Nat)
  | rejected (i j : Nat) (missing : List String)
  | approved (i j : Nat) (signature nonce : String)
  | unapproved (i j : Nat) (reason : String)

namespace ProfileFsmEngine

open Effect

variable (engine : ProfileFsmEngine) (host : Host) (sid : String)

/-- The route of a submission at an active session that is in time. -/
def routeAt (s : SessionState) (pos : Position) (evidence : ChecklistEvidence) : Route :=
  match locate engine pos with
  | .error e => .lost e
  | .ok (i, j) =>
    match engine.profile.typeAt i j with
    | .checklist =>
      match missingCriteria (((engine.profile.stateAt i).subAt j).criteria.getD []) evidence with
      | [] => if i = engine.profile.pipeline.length - 1 then .final i j else .passed i j
      | missing => .rejected i j missing
    | .humanApproval =>
      match check engine.vendor.ed sid pos ((engine.profile.stateAt i).subAt j) s.pendingApproval
          evidence with
      | .accepted signature nonce => .approved i j signature nonce
      | .rejected reason => .unapproved i j reason
    | _ => .plain i j

/-- The route of a submission met at clock reading `t`. -/
def route (session : Option SessionState) (t : Time) (pos : Position)
    (evidence : ChecklistEvidence) : Route :=
  match checkSubmission sid pos session with
  | .error e => .refused e
  | .ok s =>
    if timedOut engine (elapsedSeconds s.startedAt t) then
      .late (elapsedSeconds s.startedAt t)
    else routeAt engine sid s pos evidence

/-- Why a sub-state cannot be landed on: its injection does not render, or its
challenge cannot be minted. -/
def landingError (i j : Nat) (initialContext : Option Json) : Option FsmError :=
  match renderInjection engine.vendor.toStringPretty ((engine.profile.stateAt i).subAt j)
      (engine.profile.stateAt i) host.library initialContext with
  | .error e => some e
  | .ok _ =>
    match issueFor host.getrandom ((engine.profile.stateAt i).subAt j) (engine.profile.place i j) with
    | .error e => some e
    | .ok _ => none

/-- The loop-back target of macro `i` does not render. -/
def loopError (i : Nat) : Option FsmError :=
  match renderLoopTarget engine.vendor.toStringPretty (engine.profile.stateAt i) host.library with
  | .error e => some e
  | .ok _ => none

/-- The breaker a rejected checklist trips, given the session it has been counted on. -/
def strikeBreaker (i : Nat) (s : SessionState) : Option CircuitBreakerType :=
  if s.macroIteration ≥ (engine.profile.stateAt i).maxIterations then some .maxIterations
  else if s.consecutiveIdenticalRejections ≥
    engine.profile.settings.oscillationDetectionThreshold then some .repetitiveLoop
  else none

/-- Whether macro `i` loops back when its checklist rejects. -/
def loops (i : Nat) : Bool :=
  engine.profile.settings.autoLoopOnChecklistFailure && (engine.profile.stateAt i).loopState

/-- The world after `reposition` behind an appended movement event. -/
def movedTo (w : World SessionLedger) (s : SessionState) (eventType : FsmEventType)
    (next : Position) : World SessionLedger :=
  (w.logged (eventAt (host.clock w.ticks) sid eventType next Json.emptyObject)).tick.setSession sid
    (some (s.reposition next (host.clock (w.ticks + 1))))

/-- Every way `enter_sub` ends, from a world that holds `s` as the session. -/
inductive Landing (i j : Nat) (initialContext : Option Json) (w : World SessionLedger)
    (s : SessionState) :
    Except FsmError (Position × RenderedInjection) × World SessionLedger → Prop where
  | unlandable {e} (fails : landingError engine host i j initialContext = some e) :
      Landing i j initialContext w s (.error e, w)
  | arrived {injected} (lands : landingError engine host i j initialContext = none)
      (ungated : engine.profile.typeAt i j ≠ .humanApproval) :
      Landing i j initialContext w s (.ok (engine.profile.place i j, injected), w)
  | unchallenged {nonce e} (lands : landingError engine host i j initialContext = none)
      (gate : engine.profile.typeAt i j = .humanApproval)
      (minted : newChallengeHex host.getrandom = .ok nonce) (refused : w.Refuses e) :
      Landing i j initialContext w s (.error (.ledger e), w.lost)
  | challenged {nonce injected} (lands : landingError engine host i j initialContext = none)
      (gate : engine.profile.typeAt i j = .humanApproval)
      (minted : newChallengeHex host.getrandom = .ok nonce) (taken : w.Takes) :
      Landing i j initialContext w s (.ok (engine.profile.place i j, injected),
        (w.logged (eventAt (host.clock w.ticks) sid
          (.approvalChallengeIssued (engine.profile.place i j).macroId
            (engine.profile.place i j).subStateId nonce)
          (engine.profile.place i j) Json.emptyObject)).setSession sid
            (some (s.park ⟨(engine.profile.place i j).macroId,
              (engine.profile.place i j).subStateId, nonce⟩)))

theorem exec_enterSub (i j : Nat) (initialContext : Option Json) {w : World SessionLedger}
    {s : SessionState} (hs : w.sessions sid = some s) :
    Landing engine host sid i j initialContext w s
      (exec (enterSub engine host sid i j initialContext) w) := by
  unfold enterSub
  dsimp only
  cases hr : renderInjection engine.vendor.toStringPretty ((engine.profile.stateAt i).subAt j)
      (engine.profile.stateAt i) host.library initialContext with
  | error e =>
    rw [exec_bind_error (exec_lift _ _)]
    exact .unlandable (by rw [landingError, hr])
  | ok injected =>
    rw [exec_bind_ok (exec_lift _ _)]
    by_cases hgate : engine.profile.typeAt i j = .humanApproval
    · cases hn : newChallengeHex host.getrandom with
      | error e =>
        rw [issueFor_gate_error hgate hn, exec_bind_error (exec_lift _ _)]
        exact .unlandable (by rw [landingError, hr, issueFor_gate_error hgate hn])
      | ok nonce =>
        have hl : landingError engine host i j initialContext = none := by
          rw [landingError, hr, issueFor_gate hgate hn]
        rw [issueFor_gate hgate hn, exec_bind_ok (exec_lift _ _)]
        dsimp only
        rcases w.takes_or_refuses with ht | ⟨e, he⟩
        · rw [exec_bind_ok (exec_append_taken ht _ _ _),
            exec_bind_ok (exec_updateSession (w := w.logged _) _ hs)]
          exact .challenged hl hgate hn ht
        · rw [exec_bind_error (exec_append_refused he _ _ _)]
          exact .unchallenged hl hgate hn he
    · rw [issueFor_other hgate, exec_bind_ok (exec_lift _ _)]
      exact .arrived (by rw [landingError, hr, issueFor_other hgate]) hgate

variable {engine host sid}

/-- A landing leaves a session of the same status behind. -/
theorem Landing.session {i j : Nat} {initialContext : Option Json} {w : World SessionLedger}
    {s : SessionState} {out : Except FsmError (Position × RenderedInjection) × World SessionLedger}
    (h : Landing engine host sid i j initialContext w s out) (hs : w.sessions sid = some s) :
    ∃ s', out.2.sessions sid = some s' ∧ s'.status = s.status := by
  cases h with
  | unlandable | arrived => exact ⟨s, hs, rfl⟩
  | unchallenged => exact ⟨s, hs, rfl⟩
  | challenged => exact ⟨_, World.setSession_sessions_self _ _ _, rfl⟩

/-- Landing fails for want of a library file or of entropy, or at the ledger. -/
theorem landingError_kind {i j : Nat} {initialContext : Option Json} {e : FsmError}
    (h : landingError engine host i j initialContext = some e) :
    (∃ m, e = .libraryUnresolved m) ∨ ∃ m, e = .internal m := by
  unfold landingError at h
  split at h
  · rename_i hr
    cases h
    exact Or.inl (renderInjection_error hr)
  · split at h
    · rename_i hi
      cases h
      unfold issueFor at hi
      split at hi
      · cases hi
      · split at hi
        · cases hi
        · exact Or.inr ⟨_, (Except.error.inj hi).symm⟩
    · cases h

/-- A loop-back fails for want of a target or of a library file. -/
theorem loopError_kind {i : Nat} {e : FsmError} (h : loopError engine host i = some e) :
    (∃ m, e = .manifestInvalid m) ∨ ∃ m, e = .libraryUnresolved m := by
  unfold loopError at h
  split at h
  · rename_i hr
    cases h
    exact renderLoopTarget_error hr
  · cases h

theorem exec_landOn {i j : Nat} {w : World SessionLedger} {s : SessionState}
    (hs : w.sessions sid = some s) :
    ∃ f out, Landing engine host sid i j none w s out ∧
      exec (landOn engine host sid i j) w = (out.1.map f, out.2) := by
  have land := exec_enterSub engine host sid i j none hs
  rcases hx : exec (enterSub engine host sid i j none) w with ⟨r, w'⟩
  rw [hx] at land
  unfold landOn
  cases r with
  | error e =>
    rw [exec_bind_error hx]
    exact ⟨fun _ => .completed none, _, land, rfl⟩
  | ok out =>
    obtain ⟨s', hs', -⟩ := land.session hs
    rw [exec_bind_ok hx, exec_bind_ok (exec_getSession hs')]
    exact ⟨fun out => .advanced ⟨engine.profile.place i j, out.2,
      (engine.profile.stateAt i).name, s'.status⟩, _, land, rfl⟩

/-! ## Moving on -/

theorem exec_reposition {w : World SessionLedger} {s : SessionState} (next : Position)
    (hs : w.sessions sid = some s) :
    exec (reposition host sid next) w =
      (.ok (), w.tick.setSession sid (some (s.reposition next (host.clock w.ticks)))) := by
  rw [reposition, exec_bind_ok (exec_getSession hs), exec_bind_ok (exec_now host w),
    exec_updateSession (w := w.tick) _ hs]

variable (engine host sid)

/-- Every way `advance_plain` ends. -/
inductive Advance (i j : Nat) (pos : Position) (w : World SessionLedger) (s : SessionState) :
    Except FsmError StepOutcome × World SessionLedger → Prop where
  | refused {e} (refused : w.Refuses e) : Advance i j pos w s (.error (.ledger e), w.lost)
  | moved {k next f out} (taken : w.Takes)
      (hk : k = nextEnabledIndex (engine.profile.stateAt i) j)
      (hnext : next = engine.profile.place i k)
      (land : Landing engine host sid i k none
        (movedTo host sid w s (.subStateAdvanced pos.subStateId next.subStateId) next)
        (s.reposition next (host.clock (w.ticks + 1))) out) :
      Advance i j pos w s (out.1.map f, out.2)

variable {engine host sid}

theorem exec_advancePlain {i j : Nat} {pos : Position} {w : World SessionLedger}
    {s : SessionState} (hs : w.sessions sid = some s) :
    Advance engine host sid i j pos w s (exec (advancePlain engine host sid i j pos) w) := by
  unfold advancePlain
  dsimp only
  rcases w.takes_or_refuses with ht | ⟨e, he⟩
  · rw [exec_bind_ok (exec_append_taken ht _ _ _),
      exec_bind_ok (exec_reposition (w := w.logged _) _ hs)]
    obtain ⟨f, out, land, hx⟩ := exec_landOn (World.setSession_sessions_self _ _ _)
    rw [hx]
    exact .moved ht rfl rfl land
  · rw [exec_bind_error (exec_append_refused he _ _ _)]
    exact .refused he

/-! ## Breakers -/

variable (host sid) in
/-- Every way a tripped breaker ends. -/
inductive Tripped (breaker : CircuitBreakerType) (pos : Position) (w : World SessionLedger)
    (s : SessionState) : Except FsmError StepOutcome × World SessionLedger → Prop where
  | refused {e} (refused : w.Refuses e) :
      Tripped breaker pos w s (.error (.ledger e), w.lost)
  | failed {ledgered details} (taken : w.Takes) :
      Tripped breaker pos w s (.error (.circuitBreaker breaker details),
        (w.logged (eventAt (host.clock w.ticks) sid (.circuitBreakerTriggered breaker ledgered)
          pos Json.emptyObject)).setSession sid (some { s with status := .failed }))

theorem exec_tripBreaker {breaker : CircuitBreakerType} {ledgered : Json} {pos : Position}
    {details : String} {w : World SessionLedger} {s : SessionState}
    (hs : w.sessions sid = some s) :
    Tripped host sid breaker pos w s
      (exec (tripBreaker host sid breaker ledgered pos details) w) := by
  unfold tripBreaker
  rcases w.takes_or_refuses with ht | ⟨e, he⟩
  · rw [exec_bind_ok (exec_append_taken ht _ _ _), exec_bind_ok (exec_failSession _ _),
      World.logged_sessions, hs]
    exact .failed ht
  · rw [exec_bind_error (exec_append_refused he _ _ _)]
    exact .refused he

/-! ## Rejections -/

variable (engine host sid)

/-- The world after a rejected checklist has been counted and ledgered. -/
def struckAt (pos : Position) (missing : List String) (evidence : ChecklistEvidence)
    (w : World SessionLedger) (s : SessionState) : World SessionLedger :=
  (w.setSession sid (some s)).logged (eventAt (host.clock w.ticks) sid
    (.milestoneRejected missing "checklist_incomplete" s.macroIteration) pos
    (.object [("evidence", evidence.toJson)]))

/-- Every way `reject_checklist` ends; `s'` is the session with the rejection counted. -/
inductive Rejection (i : Nat) (pos : Position) (missing : List String)
    (evidence : ChecklistEvidence) (w : World SessionLedger) (s' : SessionState) :
    Except FsmError StepOutcome × World SessionLedger → Prop where
  | refused {e} (refused : w.Refuses e) : Rejection i pos missing evidence w s'
      (.error (.ledger e), (w.setSession sid (some s')).lost)
  | tripped {b out} (taken : w.Takes) (trips : strikeBreaker engine i s' = some b)
      (trip : Tripped host sid b pos (struckAt host sid pos missing evidence w s') s' out) :
      Rejection i pos missing evidence w s' out
  | loopStuck {e} (taken : w.Takes) (holds : strikeBreaker engine i s' = none)
      (hloops : loops engine i = true) (stuck : loopError engine host i = some e) :
      Rejection i pos missing evidence w s' (.error e, struckAt host sid pos missing evidence w s')
  | loopRefused {e} (taken : w.Takes) (holds : strikeBreaker engine i s' = none)
      (hloops : loops engine i = true) (renders : loopError engine host i = none)
      (refused : (struckAt host sid pos missing evidence w s').Refuses e) :
      Rejection i pos missing evidence w s'
        (.error (.ledger e), (struckAt host sid pos missing evidence w s').lost)
  | looped {k target view} (taken : w.Takes) (holds : strikeBreaker engine i s' = none)
      (hloops : loops engine i = true) (renders : loopError engine host i = none)
      (hk : (engine.profile.stateAt i).firstEnabledExecuteIndex = some k)
      (htarget : target = engine.profile.place i k)
      (taken' : (struckAt host sid pos missing evidence w s').Takes) :
      Rejection i pos missing evidence w s' (.ok (.loopedBack missing view),
        (((struckAt host sid pos missing evidence w s').logged
          (eventAt (host.clock (w.ticks + 1)) sid
            (.macroLoopedBack pos.subStateId target.subStateId s'.macroIteration) target
            Json.emptyObject)).tick).setSession sid
          (some { s' with position := some target, updatedAt := host.clock (w.ticks + 2) }))
  | rejected (taken : w.Takes) (holds : strikeBreaker engine i s' = none)
      (stays : loops engine i = false) :
      Rejection i pos missing evidence w s' (.ok (.rejected missing "checklist_incomplete" pos),
        struckAt host sid pos missing evidence w s')

variable {engine host sid}

theorem exec_append_struck {pos : Position} {missing : List String}
    {evidence : ChecklistEvidence} {w : World SessionLedger} {s : SessionState} (h : w.Takes) :
    exec (append host sid (.milestoneRejected missing "checklist_incomplete" s.macroIteration) pos
      (.object [("evidence", evidence.toJson)])) (w.setSession sid (some s)) =
        (.ok (), struckAt host sid pos missing evidence w s) :=
  exec_append_taken (w := w.setSession sid (some s)) h _ _ _

theorem exec_rejectChecklist {i : Nat} {pos : Position} {missing : List String}
    {evidence : ChecklistEvidence} {w : World SessionLedger} {s : SessionState}
    (hs : w.sessions sid = some s) :
    Rejection engine host sid i pos missing evidence w (s.strikeOut (sortedKeys evidence.keys))
      (exec (rejectChecklist engine host sid i pos missing evidence) w) := by
  unfold rejectChecklist
  dsimp only
  have hs' := World.setSession_sessions_self w sid
    (some (s.strikeOut (sortedKeys evidence.keys)))
  rw [exec_bind_ok (exec_updateSession _ hs), exec_bind_ok (exec_getSession hs')]
  rcases w.takes_or_refuses with ht | ⟨e, he⟩
  · rw [exec_bind_ok (exec_append_struck ht)]
    by_cases hmax : (s.strikeOut (sortedKeys evidence.keys)).macroIteration ≥
        (engine.profile.stateAt i).maxIterations
    · rw [if_pos hmax]
      exact .tripped ht (by rw [strikeBreaker, if_pos hmax]) (exec_tripBreaker hs')
    rw [if_neg hmax]
    by_cases hosc : (s.strikeOut (sortedKeys evidence.keys)).consecutiveIdenticalRejections ≥
        engine.profile.settings.oscillationDetectionThreshold
    · rw [if_pos hosc]
      exact .tripped ht (by rw [strikeBreaker, if_neg hmax, if_pos hosc]) (exec_tripBreaker hs')
    rw [if_neg hosc]
    have hnone : strikeBreaker engine i (s.strikeOut (sortedKeys evidence.keys)) = none := by
      rw [strikeBreaker, if_neg hmax, if_neg hosc]
    by_cases hloop : (engine.profile.settings.autoLoopOnChecklistFailure &&
        (engine.profile.stateAt i).loopState) = true
    · rw [if_pos hloop]
      unfold applyLoopBack
      dsimp only
      cases hr : renderLoopTarget engine.vendor.toStringPretty (engine.profile.stateAt i)
          host.library with
      | error e =>
        rw [exec_bind_error (exec_lift _ _)]
        exact .loopStuck ht hnone hloop (by rw [loopError, hr])
      | ok out =>
        obtain ⟨k, hk, htarget⟩ := renderLoopTarget_ok hr
        have hrenders : loopError engine host i = none := by rw [loopError, hr]
        rw [exec_bind_ok (exec_lift _ _)]
        have hs₂ : (struckAt host sid pos missing evidence w
          (s.strikeOut (sortedKeys evidence.keys))).sessions sid =
            some (s.strikeOut (sortedKeys evidence.keys)) := hs'
        rcases (struckAt host sid pos missing evidence w
          (s.strikeOut (sortedKeys evidence.keys))).takes_or_refuses with ht' | ⟨e, he⟩
        · rw [exec_bind_ok (exec_append_taken ht' _ _ _),
            exec_bind_ok (exec_getSession (w := World.logged (struckAt _ _ _ _ _ _ _) _) hs₂),
            exec_bind_ok (exec_now _ _),
            exec_bind_ok (exec_updateSession (w := World.tick (World.logged (struckAt ..) _)) _ hs₂)]
          exact .looped ht hnone hloop hrenders hk htarget ht'
        · rw [exec_bind_error (exec_append_refused he _ _ _)]
          exact .loopRefused ht hnone hloop hrenders he
    · rw [if_neg hloop]
      exact .rejected ht hnone (Bool.eq_false_iff.mpr hloop)
  · rw [exec_bind_error (exec_append_refused (w := w.setSession _ _) he _ _ _)]
    exact .refused he

/-! ## The next macro -/

variable (engine host sid)

/-- The world after a checklist has been accepted. -/
def acceptedAt (pos : Position) (w : World SessionLedger) : World SessionLedger :=
  w.logged (eventAt (host.clock w.ticks) sid (.milestoneAccepted none) pos Json.emptyObject)

/-- Every way `advance_macro` ends. -/
inductive MacroAdvance (i : Nat) (pos : Position) (w : World SessionLedger) (s : SessionState) :
    Except FsmError StepOutcome × World SessionLedger → Prop where
  | refused {e} (refused : w.Refuses e) : MacroAdvance i pos w s (.error (.ledger e), w.lost)
  | unentered {e} (taken : w.Takes)
      (none : firstEnabledIndex (engine.profile.stateAt (i + 1)) = .error e) :
      MacroAdvance i pos w s (.error e, acceptedAt host sid pos w)
  | stranded {k e} (taken : w.Takes)
      (hk : firstEnabledIndex (engine.profile.stateAt (i + 1)) = .ok k)
      (refused : (acceptedAt host sid pos w).Refuses e) :
      MacroAdvance i pos w s (.error (.ledger e), (acceptedAt host sid pos w).lost)
  | moved {k next f out} (taken : w.Takes)
      (hk : firstEnabledIndex (engine.profile.stateAt (i + 1)) = .ok k)
      (hnext : next = engine.profile.place (i + 1) k)
      (taken' : (acceptedAt host sid pos w).Takes)
      (land : Landing engine host sid (i + 1) k none
        ((movedTo host sid (acceptedAt host sid pos w) s
          (.macroAdvanced pos.macroId next.macroId) next).setSession sid
            (some (s.reposition next (host.clock (w.ticks + 2))).resetMacro))
        (s.reposition next (host.clock (w.ticks + 2))).resetMacro out) :
      MacroAdvance i pos w s (out.1.map f, out.2)

variable {engine host sid}

theorem exec_append_accepted {pos : Position} {w : World SessionLedger} (h : w.Takes) :
    exec (append host sid (.milestoneAccepted none) pos Json.emptyObject) w =
      (.ok (), acceptedAt host sid pos w) :=
  exec_append_taken h _ _ _

theorem exec_advanceMacro {i : Nat} {pos : Position} {w : World SessionLedger}
    {s : SessionState} (hs : w.sessions sid = some s) :
    MacroAdvance engine host sid i pos w s (exec (advanceMacro engine host sid i pos) w) := by
  unfold advanceMacro
  dsimp only
  rcases w.takes_or_refuses with ht | ⟨e, he⟩
  · rw [exec_bind_ok (exec_append_accepted ht)]
    cases hk : firstEnabledIndex (engine.profile.stateAt (i + 1)) with
    | error e =>
      rw [exec_bind_error (exec_lift _ _)]
      exact .unentered ht hk
    | ok k =>
      rw [exec_bind_ok (exec_lift _ _)]
      have hs₁ : (acceptedAt host sid pos w).sessions sid = some s := hs
      rcases (acceptedAt host sid pos w).takes_or_refuses with ht' | ⟨e, he⟩
      · rw [exec_bind_ok (exec_append_taken ht' _ _ _),
          exec_bind_ok (exec_reposition (w := World.logged (acceptedAt ..) _) _ hs₁),
          exec_bind_ok (exec_updateSession _ (World.setSession_sessions_self _ _ _))]
        obtain ⟨f, out, land, hx⟩ := exec_landOn (World.setSession_sessions_self _ _ _)
        rw [hx]
        exact .moved ht hk rfl ht' land
      · rw [exec_bind_error (exec_append_refused he _ _ _)]
        exact .stranded ht hk he
  · rw [exec_bind_error (exec_append_refused he _ _ _)]
    exact .refused he

/-! ## Completion -/

variable (engine host sid)

/-- What the output contract answers, when there is one. -/
def contractResult (output : Option Json) : Except FsmError (Option (String × String)) :=
  match engine.profile.outputContract with
  | none => .ok none
  | some contract => (validateAndWriteOutput engine host sid contract output).map some

/-- Every way `complete_final_macro` ends. -/
inductive Completion (pos : Position) (output : Option Json) (w : World SessionLedger)
    (s : SessionState) : Except FsmError StepOutcome × World SessionLedger → Prop where
  | unverified {e} (fails : verifySessionArtifacts engine host sid (some s) = .error e) :
      Completion pos output w s (.error e, w)
  | violated {e} (verified : verifySessionArtifacts engine host sid (some s) = .ok ())
      (fails : contractResult engine host sid output = .error e) (taken : w.Takes) :
      Completion pos output w s (.error e, w.logged (eventAt (host.clock w.ticks) sid
        (.outputContractViolated e.display) pos Json.emptyObject))
  | untraced {e e'} (verified : verifySessionArtifacts engine host sid (some s) = .ok ())
      (fails : contractResult engine host sid output = .error e) (refused : w.Refuses e') :
      Completion pos output w s (.error (.ledger e'), w.lost)
  | refused {written e} (verified : verifySessionArtifacts engine host sid (some s) = .ok ())
      (meets : contractResult engine host sid output = .ok written) (refused : w.Refuses e) :
      Completion pos output w s (.error (.ledger e), w.lost)
  | stranded {written e} (verified : verifySessionArtifacts engine host sid (some s) = .ok ())
      (meets : contractResult engine host sid output = .ok written) (taken : w.Takes)
      (refused : (acceptedAt host sid pos w).Refuses e) :
      Completion pos output w s (.error (.ledger e), (acceptedAt host sid pos w).lost)
  | completed {written} (verified : verifySessionArtifacts engine host sid (some s) = .ok ())
      (meets : contractResult engine host sid output = .ok written) (taken : w.Takes)
      (taken' : (acceptedAt host sid pos w).Takes) :
      Completion pos output w s (.ok (.completed (written.map Prod.fst)),
        ((acceptedAt host sid pos w).logged (eventAt (host.clock (w.ticks + 1)) sid
          (.sessionCompleted ((written.map Prod.fst).getD "") (written.map Prod.snd)) pos
            Json.emptyObject)).tick.setSession sid
          (some { s with
            status := .completed, position := none, updatedAt := host.clock (w.ticks + 2) }))

variable {engine host sid}

theorem contractResult_error {output : Option Json} {e : FsmError}
    (h : contractResult engine host sid output = .error e) : CompletionError e := by
  unfold contractResult at h
  split at h
  · cases h
  · rename_i contract _
    cases hv : validateAndWriteOutput engine host sid contract output with
    | ok written =>
      rw [hv] at h
      cases h
    | error e' =>
      rw [hv] at h
      cases h
      exact validateAndWriteOutput_error hv

theorem exec_writeContract_ok {pos : Position} {output : Option Json}
    {written : Option (String × String)} {w : World SessionLedger}
    (h : contractResult engine host sid output = .ok written) :
    exec (writeContract engine host sid pos output) w = (.ok written, w) := by
  unfold contractResult at h
  unfold writeContract
  cases hc : engine.profile.outputContract with
  | none =>
    rw [hc] at h
    cases h
    rfl
  | some contract =>
    rw [hc] at h
    dsimp only at h ⊢
    cases hv : validateAndWriteOutput engine host sid contract output with
    | error e =>
      rw [hv] at h
      cases h
    | ok out =>
      rw [hv] at h
      cases h
      rfl

theorem exec_writeContract_error {pos : Position} {output : Option Json} {e : FsmError}
    {w : World SessionLedger} (h : contractResult engine host sid output = .error e) :
    exec (writeContract engine host sid pos output) w =
      exec (do
        append host sid (.outputContractViolated e.display) pos Json.emptyObject
        throw e) w := by
  unfold contractResult at h
  unfold writeContract
  cases hc : engine.profile.outputContract with
  | none =>
    rw [hc] at h
    cases h
  | some contract =>
    rw [hc] at h
    dsimp only at h ⊢
    cases hv : validateAndWriteOutput engine host sid contract output with
    | error e' =>
      rw [hv] at h
      cases h
      rfl
    | ok out =>
      rw [hv] at h
      cases h

theorem exec_completeFinalMacro {pos : Position} {output : Option Json}
    {w : World SessionLedger} {s : SessionState} (hs : w.sessions sid = some s) :
    Completion engine host sid pos output w s
      (exec (completeFinalMacro engine host sid pos output) w) := by
  unfold completeFinalMacro
  rw [exec_bind_ok (exec_reads _ _)]
  dsimp only
  rw [hs]
  cases hv : verifySessionArtifacts engine host sid (some s) with
  | error e =>
    rw [exec_bind_error (exec_lift _ _)]
    exact .unverified hv
  | ok u =>
    rw [exec_bind_ok (exec_lift _ _)]
    cases hc : contractResult engine host sid output with
    | error e =>
      rcases w.takes_or_refuses with ht | ⟨e', he⟩
      · have hx : exec (writeContract engine host sid pos output) w =
            (.error e, w.logged (eventAt (host.clock w.ticks) sid
              (.outputContractViolated e.display) pos Json.emptyObject)) := by
          rw [exec_writeContract_error hc, exec_bind_ok (exec_append_taken ht _ _ _)]
          rfl
        rw [exec_bind_error hx]
        exact .violated hv hc ht
      · have hx : exec (writeContract engine host sid pos output) w =
            (.error (.ledger e'), w.lost) := by
          rw [exec_writeContract_error hc, exec_bind_error (exec_append_refused he _ _ _)]
        rw [exec_bind_error hx]
        exact .untraced hv hc he
    | ok written =>
      rw [exec_bind_ok (exec_writeContract_ok hc)]
      rcases w.takes_or_refuses with ht | ⟨e, he⟩
      · rw [exec_bind_ok (exec_append_accepted ht)]
        have hs₁ : (acceptedAt host sid pos w).sessions sid = some s := hs
        rcases (acceptedAt host sid pos w).takes_or_refuses with ht' | ⟨e, he⟩
        · rw [exec_bind_ok (exec_append_taken ht' _ _ _),
            exec_bind_ok (exec_getSession (w := World.logged (acceptedAt ..) _) hs₁),
            exec_bind_ok (exec_now _ _),
            exec_bind_ok (exec_updateSession (w := World.tick (World.logged (acceptedAt ..) _)) _ hs₁)]
          exact .completed hv hc ht ht'
        · rw [exec_bind_error (exec_append_refused he _ _ _)]
          exact .stranded hv hc ht he
      · rw [exec_bind_error (exec_append_refused he _ _ _)]
        exact .refused hv hc he

/-! ## Gates -/

variable (engine host sid)

/-- The refusals at this gate entry have reached the cap. -/
def CapReached (s : SessionState) : Prop :=
  engine.profile.settings.approvalRejectionCap ≠ 0 ∧
    s.consecutiveApprovalRejections ≥ engine.profile.settings.approvalRejectionCap

/-- The world after a refused approval has been ledgered and counted. -/
def refusedAt (pos : Position) (reason : String) (w : World SessionLedger) (s : SessionState) :
    World SessionLedger :=
  (w.logged (eventAt (host.clock w.ticks) sid
    (.approvalRejected pos.macroId pos.subStateId reason) pos Json.emptyObject)).setSession sid
      (some s.countRefusal)

/-- Every way a refused approval ends. -/
inductive Refusal (pos : Position) (reason : String) (w : World SessionLedger)
    (s : SessionState) : Except FsmError StepOutcome × World SessionLedger → Prop where
  | refused {e} (refused : w.Refuses e) : Refusal pos reason w s (.error (.ledger e), w.lost)
  | tripped {out} (taken : w.Takes) (capped : CapReached engine s.countRefusal)
      (trip : Tripped host sid .approvalRejectionLimit pos (refusedAt host sid pos reason w s)
        s.countRefusal out) : Refusal pos reason w s out
  | counted (taken : w.Takes) (below : ¬CapReached engine s.countRefusal) :
      Refusal pos reason w s (.ok (.rejected [approvalEvidenceKey] reason pos),
        refusedAt host sid pos reason w s)

/-- The world after an approval has been accepted, before the session moves. -/
def approvedAt (pos : Position) (signature nonce : String) (w : World SessionLedger) :
    World SessionLedger :=
  w.logged (eventAt (host.clock w.ticks) sid
    (.approvalAccepted pos.macroId pos.subStateId nonce signature) pos Json.emptyObject)

/-- Every way an accepted approval ends. -/
inductive Acceptance (i j : Nat) (pos : Position) (signature nonce : String)
    (w : World SessionLedger) (s : SessionState) :
    Except FsmError StepOutcome × World SessionLedger → Prop where
  | refused {e} (refused : w.Refuses e) :
      Acceptance i j pos signature nonce w s (.error (.ledger e), w.lost)
  | accepted {out} (taken : w.Takes)
      (advance : Advance engine host sid i j pos (approvedAt host sid pos signature nonce w) s out) :
      Acceptance i j pos signature nonce w s out

variable {engine host sid}

theorem exec_refuseApproval {pos : Position} {reason : String} {w : World SessionLedger}
    {s : SessionState} (hs : w.sessions sid = some s) :
    Refusal engine host sid pos reason w s
      (exec (refuseApproval engine host sid pos reason) w) := by
  unfold refuseApproval
  rcases w.takes_or_refuses with ht | ⟨e, he⟩
  · have hs' := World.setSession_sessions_self (w.logged (eventAt (host.clock w.ticks) sid
      (.approvalRejected pos.macroId pos.subStateId reason) pos Json.emptyObject)) sid
      (some s.countRefusal)
    rw [exec_bind_ok (exec_append_taken ht _ _ _)]
    dsimp only
    rw [exec_bind_ok (exec_updateSession (w := World.logged _ _) _ hs),
      exec_bind_ok (exec_getSession hs')]
    by_cases hcap : engine.profile.settings.approvalRejectionCap ≠ 0 ∧
        s.countRefusal.consecutiveApprovalRejections ≥
          engine.profile.settings.approvalRejectionCap
    · rw [if_pos hcap]
      exact .tripped ht hcap (exec_tripBreaker hs')
    · rw [if_neg hcap]
      exact .counted ht hcap
  · rw [exec_bind_error (exec_append_refused he _ _ _)]
    exact .refused he

theorem exec_acceptApproval {i j : Nat} {pos : Position} {signature nonce : String}
    {w : World SessionLedger} {s : SessionState} (hs : w.sessions sid = some s) :
    Acceptance engine host sid i j pos signature nonce w s
      (exec (acceptApproval engine host sid i j pos signature nonce) w) := by
  unfold acceptApproval
  rcases w.takes_or_refuses with ht | ⟨e, he⟩
  · rw [exec_bind_ok (exec_append_taken ht _ _ _)]
    exact .accepted ht (exec_advancePlain (w := approvedAt host sid pos signature nonce w) hs)
  · rw [exec_bind_error (exec_append_refused he _ _ _)]
    exact .refused he

/-! ## Submissions -/

variable (engine host sid)

/-- Every way a submission ends that an active session has at its position. -/
inductive Handling (pos : Position) (evidence : ChecklistEvidence) (output : Option Json)
    (w : World SessionLedger) (s : SessionState) :
    Except FsmError StepOutcome × World SessionLedger → Prop where
  | lost {e} (hroute : routeAt engine sid s pos evidence = .lost e) :
      Handling pos evidence output w s (.error e, w)
  | plain {i j out} (hroute : routeAt engine sid s pos evidence = .plain i j)
      (advance : Advance engine host sid i j pos w s out) :
      Handling pos evidence output w s out
  | passed {i j out} (hroute : routeAt engine sid s pos evidence = .passed i j)
      (advance : MacroAdvance engine host sid i pos w s out) :
      Handling pos evidence output w s out
  | final {i j out} (hroute : routeAt engine sid s pos evidence = .final i j)
      (complete : Completion engine host sid pos output w s out) :
      Handling pos evidence output w s out
  | rejected {i j missing out} (hroute : routeAt engine sid s pos evidence = .rejected i j missing)
      (reject : Rejection engine host sid i pos missing evidence w
        (s.strikeOut (sortedKeys evidence.keys)) out) :
      Handling pos evidence output w s out
  | approved {i j signature nonce out}
      (hroute : routeAt engine sid s pos evidence = .approved i j signature nonce)
      (accept : Acceptance engine host sid i j pos signature nonce w s out) :
      Handling pos evidence output w s out
  | unapproved {i j reason out}
      (hroute : routeAt engine sid s pos evidence = .unapproved i j reason)
      (refuse : Refusal engine host sid pos reason w s out) :
      Handling pos evidence output w s out

/-- Every way `submit_milestone` ends. -/
inductive Submission (pos : Position) (evidence : ChecklistEvidence) (output : Option Json)
    (w : World SessionLedger) : Except FsmError StepOutcome × World SessionLedger → Prop where
  | refused {e} (fails : checkSubmission sid pos (w.sessions sid) = .error e) :
      Submission pos evidence output w (.error e, w)
  | late {s out} (hs : checkSubmission sid pos (w.sessions sid) = .ok s)
      (hlate : timedOut engine (elapsedSeconds s.startedAt (host.clock w.ticks)) = true)
      (trip : Tripped host sid .globalTimeout pos w.tick s out) :
      Submission pos evidence output w out
  | handled {s out} (hs : checkSubmission sid pos (w.sessions sid) = .ok s)
      (hlate : timedOut engine (elapsedSeconds s.startedAt (host.clock w.ticks)) = false)
      (handling : Handling engine host sid pos evidence output w.tick s out) :
      Submission pos evidence output w out

variable {engine host sid}

/-- A submission passes step 1 at an active session, at its position. -/
theorem checkSubmission_ok {pos : Position} {session : Option SessionState} {s : SessionState} :
    checkSubmission sid pos session = .ok s ↔
      session = some s ∧ s.status = .active ∧ s.position = some pos := by
  unfold checkSubmission
  cases session with
  | none => simp
  | some s' =>
    dsimp only
    split
    · rename_i hstatus
      refine ⟨fun h => (nomatch h), ?_⟩
      rintro ⟨h, hactive, -⟩
      cases h
      exact absurd hactive hstatus
    · rename_i hstatus
      split
      · rename_i hpos
        refine ⟨fun h => (nomatch h), ?_⟩
        rintro ⟨h, -, hsome⟩
        cases h
        rw [hpos] at hsome
        cases hsome
      · rename_i current hpos
        split
        · rename_i hne
          refine ⟨fun h => (nomatch h), ?_⟩
          rintro ⟨h, -, hsome⟩
          cases h
          rw [hpos] at hsome
          exact absurd (Option.some.inj hsome) hne
        · rename_i heq
          constructor
          · intro h
            cases h
            exact ⟨rfl, not_not.mp hstatus, by rw [hpos, not_not.mp heq]⟩
          · rintro ⟨h, -, -⟩
            rw [Option.some.inj h]

section

variable {session : Option SessionState} {s : SessionState} {t : Time} {pos : Position}
  {evidence : ChecklistEvidence}

/-- Step 1 fails for want of a session, of its being active, or of its being there. -/
theorem checkSubmission_kind {e : FsmError} (h : checkSubmission sid pos session = .error e) :
    e = .sessionNotFound sid ∨ (∃ status, e = .sessionInactive sid status) ∨
      (∃ m, e = .internal m) ∨ ∃ expected actual, e = .stepMismatch expected actual := by
  unfold checkSubmission at h
  split at h
  · cases h
    exact Or.inl rfl
  split at h
  · cases h
    exact Or.inr (Or.inl ⟨_, rfl⟩)
  split at h
  · cases h
    exact Or.inr (Or.inr (Or.inl ⟨_, rfl⟩))
  split at h
  · cases h
    exact Or.inr (Or.inr (Or.inr ⟨_, _, rfl⟩))
  · cases h

theorem route_refused {e : FsmError} (h : checkSubmission sid pos session = .error e) :
    route engine sid session t pos evidence = .refused e := by
  rw [route, h]

theorem route_late (h : checkSubmission sid pos session = .ok s)
    (hlate : timedOut engine (elapsedSeconds s.startedAt t) = true) :
    route engine sid session t pos evidence = .late (elapsedSeconds s.startedAt t) := by
  rw [route, h]
  exact if_pos hlate

theorem route_handled (h : checkSubmission sid pos session = .ok s)
    (hlate : timedOut engine (elapsedSeconds s.startedAt t) = false) :
    route engine sid session t pos evidence = routeAt engine sid s pos evidence := by
  rw [route, h]
  exact if_neg (Bool.not_eq_true _ ▸ hlate)

end

theorem exec_handling {i j : Nat} {pos : Position} {evidence : ChecklistEvidence}
    {output : Option Json} {w : World SessionLedger} {s : SessionState}
    (hs : w.sessions sid = some s) (hloc : locate engine pos = .ok (i, j)) :
    Handling engine host sid pos evidence output w s
      (exec (dispatch engine host sid i j pos evidence output) w) := by
  unfold dispatch
  cases hty : ((engine.profile.stateAt i).subAt j).subStateType with
  | checklist =>
    unfold stepChecklist
    dsimp only
    cases hm : missingCriteria (((engine.profile.stateAt i).subAt j).criteria.getD [])
        evidence with
    | nil =>
      dsimp only
      split
      · rename_i hfinal
        exact .final (i := i) (j := j)
          (by simp only [routeAt, hloc, Profile.typeAt, hty, hm, if_pos hfinal])
          (exec_completeFinalMacro hs)
      · rename_i hfinal
        exact .passed (i := i) (j := j)
          (by simp only [routeAt, hloc, Profile.typeAt, hty, hm, if_neg hfinal])
          (exec_advanceMacro hs)
    | cons c missing =>
      exact .rejected (i := i) (j := j)
        (by simp only [routeAt, hloc, Profile.typeAt, hty, hm]) (exec_rejectChecklist hs)
  | humanApproval =>
    unfold stepApproval
    dsimp only
    rw [exec_bind_ok (exec_reads _ _), hs, Option.bind_some]
    cases hc : check engine.vendor.ed sid pos ((engine.profile.stateAt i).subAt j)
        s.pendingApproval evidence with
    | accepted signature nonce =>
      exact .approved (i := i) (j := j)
        (by simp only [routeAt, hloc, Profile.typeAt, hty, hc]) (exec_acceptApproval hs)
    | rejected reason =>
      exact .unapproved (i := i) (j := j)
        (by simp only [routeAt, hloc, Profile.typeAt, hty, hc]) (exec_refuseApproval hs)
  | inject | execute | review =>
    exact .plain (by simp only [routeAt, hloc, Profile.typeAt, hty]) (exec_advancePlain hs)

/-- **Every way a submission ends.** -/
theorem exec_submitMilestone {pos : Position} {evidence : ChecklistEvidence}
    {output : Option Json} {w : World SessionLedger} :
    Submission engine host sid pos evidence output w
      (exec (submitMilestone engine host sid pos evidence output) w) := by
  unfold submitMilestone
  rw [exec_bind_ok (exec_reads _ _)]
  cases hc : checkSubmission sid pos (w.sessions sid) with
  | error e =>
    rw [exec_bind_error (exec_lift _ _)]
    exact .refused hc
  | ok s =>
    obtain ⟨hs, -, -⟩ := checkSubmission_ok.mp hc
    rw [exec_bind_ok (exec_lift _ _), exec_bind_ok (exec_now _ _)]
    dsimp only
    split
    · rename_i hlate
      exact .late hc hlate (exec_tripBreaker (w := w.tick) hs)
    · rename_i hlate
      have hlate : timedOut engine (elapsedSeconds s.startedAt (host.clock w.ticks)) = false :=
        Bool.eq_false_iff.mpr hlate
      cases hloc : locate engine pos with
      | error e =>
        rw [exec_bind_error (exec_lift _ _)]
        exact .handled hc hlate (.lost (by simp only [routeAt, hloc]))
      | ok ij =>
        rw [exec_bind_ok (exec_lift _ _)]
        exact .handled hc hlate (exec_handling (w := w.tick) hs hloc)

/-! ## Starting, storing, recovering -/

variable (engine host sid)

/-- The world once a fresh session is in memory and its start in the ledger. -/
def startedAt (initialContext : Option Json) (pos : Position) (w : World SessionLedger) :
    World SessionLedger :=
  (w.tick.setSession sid (some (freshSession engine sid (host.clock w.ticks)
      (initialContext.getD .null) pos))).logged
    (eventAt (host.clock (w.ticks + 1)) sid
      (.sessionStarted engine.profile.name engine.profile.version engine.config.profileSha256) pos
      (.object [("initial_context", initialContext.getD .null)]))

/-- Every way `start_session` ends. -/
inductive Starting (initialContext : Option Json) (w : World SessionLedger) :
    Except FsmError StepView × World SessionLedger → Prop where
  | invalid {e} (fails : validated engine host = .error e) :
      Starting initialContext w (.error e, w)
  | unentered {e} (valid : validated engine host = .ok ())
      (fails : entryPoint engine = .error e) : Starting initialContext w (.error e, w)
  | refused {m k e w'} (valid : validated engine host = .ok ())
      (entry : entryPoint engine = .ok (m, k)) (refused : w.Refuses e)
      (ledger : w'.ledger = w.lost.ledger) (gone : w'.sessions sid = none) :
      Starting initialContext w (.error (.ledger e), w')
  | stuck {m k e w'} (valid : validated engine host = .ok ())
      (entry : entryPoint engine = .ok (m, k)) (taken : w.Takes)
      (land : Landing engine host sid 0 k initialContext
        (startedAt engine host sid initialContext ⟨m.stateId, (m.subAt k).id⟩ w)
        (freshSession engine sid (host.clock w.ticks) (initialContext.getD .null)
          ⟨m.stateId, (m.subAt k).id⟩) (.error e, w')) :
      Starting initialContext w (.error e, w'.setSession sid none)
  | started {m k p injected view w'} (valid : validated engine host = .ok ())
      (entry : entryPoint engine = .ok (m, k)) (taken : w.Takes)
      (land : Landing engine host sid 0 k initialContext
        (startedAt engine host sid initialContext ⟨m.stateId, (m.subAt k).id⟩ w)
        (freshSession engine sid (host.clock w.ticks) (initialContext.getD .null)
          ⟨m.stateId, (m.subAt k).id⟩) (.ok (p, injected), w')) :
      Starting initialContext w (.ok view, w')

/-- Every way `store_artifact` ends. -/
inductive Storing (w : World SessionLedger) :
    Except FsmError ArtifactRef × World SessionLedger → Prop where
  | failed {e} : Storing w (.error e, w)
  | refused {e} (refused : w.Refuses e) : Storing w (.error (.ledger e), w.lost)
  | stored {s artifactRef pos} (hs : w.sessions sid = some s) (active : s.status = .active)
      (taken : w.Takes) :
      Storing w (.ok artifactRef,
        (w.logged (eventAt (host.clock w.ticks) sid (.artifactStored artifactRef) pos
          Json.emptyObject)).tick.setSession sid
            (some { s with
              artifacts := insertArtifact s.artifacts artifactRef.path artifactRef
              updatedAt := host.clock (w.ticks + 1) }))

/-- Every way `recover_session` ends. -/
inductive Recovering (w : World SessionLedger) :
    Except FsmError SessionState × World SessionLedger → Prop where
  | failed {e} : Recovering w (.error e, w)
  | recovered {s} (hs : replayEvents sid engine.profile w.ledger.events = .ok (some s)) :
      Recovering w (.ok s, w.setSession sid (some s))

variable {engine host sid}

/-- The start refused by the ledger takes the session out of memory again. -/
theorem exec_launch_refused {k : Nat} {pos : Position} {context : Json}
    {initialContext : Option Json} {w : World SessionLedger} {e : LedgerError}
    (h : w.Refuses e) :
    exec (launch engine host sid k pos context initialContext) w = (.error (.ledger e), w.lost) := by
  rw [launch, exec_bind_error (exec_append_refused h _ _ _)]

theorem exec_launch_taken {k : Nat} {pos : Position} {context : Json}
    {initialContext : Option Json} {w : World SessionLedger} (h : w.Takes)
    {out : Except FsmError (Position × RenderedInjection) × World SessionLedger}
    (hx : exec (enterSub engine host sid 0 k initialContext)
      (w.logged (eventAt (host.clock w.ticks) sid
        (.sessionStarted engine.profile.name engine.profile.version engine.config.profileSha256)
        pos (.object [("initial_context", context)]))) = out) :
    exec (launch engine host sid k pos context initialContext) w =
      (out.1.map Prod.snd, out.2) := by
  rw [launch, exec_bind_ok (exec_append_taken h _ _ _), exec_bind, hx]
  obtain ⟨r, w'⟩ := out
  cases r <;> rfl

theorem exec_startSession {initialContext : Option Json} {w : World SessionLedger} :
    Starting engine host sid initialContext w
      (exec (startSession engine host sid initialContext) w) := by
  unfold startSession
  cases hv : validated engine host with
  | error e =>
    rw [exec_bind_error (exec_lift _ _)]
    exact .invalid hv
  | ok u =>
    rw [exec_bind_ok (exec_lift _ _)]
    cases hp : entryPoint engine with
    | error e =>
      rw [exec_bind_error (exec_lift _ _)]
      exact .unentered hv hp
    | ok mk =>
      obtain ⟨m, k⟩ := mk
      rw [exec_bind_ok (exec_lift _ _)]
      dsimp only
      rw [exec_bind_ok (exec_now _ _), exec_bind_ok (exec_putSession _ _ _)]
      have hs : (startedAt engine host sid initialContext ⟨m.stateId, (m.subAt k).id⟩ w).sessions
          sid = some (freshSession engine sid (host.clock w.ticks) (initialContext.getD .null)
            ⟨m.stateId, (m.subAt k).id⟩) := World.setSession_sessions_self _ _ _
      rcases w.takes_or_refuses with ht | ⟨e, he⟩
      · have land := exec_enterSub engine host sid 0 k initialContext hs
        rcases hx : exec (enterSub engine host sid 0 k initialContext)
          (startedAt engine host sid initialContext ⟨m.stateId, (m.subAt k).id⟩ w) with ⟨r, w'⟩
        rw [hx] at land
        have hbody := exec_launch_taken (w := w.tick.setSession sid (some (freshSession engine sid
          (host.clock w.ticks) (initialContext.getD .null) ⟨m.stateId, (m.subAt k).id⟩))) ht hx
        cases r with
        | error e =>
          rw [exec_bind_error (exec_tryCatch_error hbody)]
          exact .stuck hv hp ht land
        | ok out =>
          rw [exec_bind_ok (exec_tryCatch_ok hbody)]
          exact .started hv hp ht land
      · have hbody : exec (launch engine host sid k ⟨m.stateId, (m.subAt k).id⟩
            (initialContext.getD .null) initialContext) (w.tick.setSession sid
              (some (freshSession engine sid (host.clock w.ticks) (initialContext.getD .null)
                ⟨m.stateId, (m.subAt k).id⟩))) = (.error (.ledger e), _) :=
          exec_launch_refused (w := World.setSession _ _ _) he
        rw [exec_bind_error (exec_tryCatch_error hbody)]
        exact .refused hv hp he rfl (World.setSession_sessions_self _ _ _)

theorem exec_storeArtifact {stepId : String} {data : Bytes} {mimeType : String}
    {w : World SessionLedger} :
    Storing host sid w (exec (storeArtifact engine host sid stepId data mimeType) w) := by
  unfold storeArtifact
  cases hs : w.sessions sid with
  | none =>
    rw [exec_bind_error (exec_getSession_none hs)]
    exact .failed
  | some s =>
    rw [exec_bind_ok (exec_getSession hs)]
    dsimp only
    split
    · exact .failed
    · rename_i hactive
      cases hn : ArtifactStore.new host.artifacts sid engine.config.artifactRoot with
      | error e =>
        simp only [Except.mapError]
        rw [exec_bind_error (exec_lift _ _)]
        exact .failed
      | ok store =>
        simp only [Except.mapError]
        rw [exec_bind_ok (exec_lift _ _)]
        cases hr : store.storeWithMime engine.vendor.sha256 host.artifacts stepId data mimeType with
        | error e =>
          simp only
          rw [exec_bind_error (exec_lift _ _)]
          exact .failed
        | ok artifactRef =>
          simp only
          rw [exec_bind_ok (exec_lift _ _)]
          rcases w.takes_or_refuses with ht | ⟨e, he⟩
          · rw [exec_bind_ok (exec_append_taken ht _ _ _),
              exec_bind_ok (exec_getSession (w := World.logged _ _) hs),
              exec_bind_ok (exec_now _ _),
              exec_bind_ok (exec_updateSession (w := World.tick (World.logged _ _)) _ hs)]
            exact .stored hs (not_not.mp hactive) ht
          · rw [exec_bind_error (exec_append_refused he _ _ _)]
            exact .refused he

theorem exec_recoverSession {w : World SessionLedger} :
    Recovering engine sid w (exec (recoverSession engine sid) w) := by
  unfold recoverSession
  rw [exec_bind_ok (exec_reads _ _)]
  cases hr : recoverProfileSession sid w.ledger engine.profile with
  | error e =>
    rw [exec_bind_error (exec_lift _ _)]
    exact .failed
  | ok s =>
    rw [exec_bind_ok (exec_lift _ _), exec_bind_ok (exec_putSession _ _ _)]
    refine .recovered ?_
    rw [SessionLedger.recover_eq] at hr
    cases hx : replayEvents sid engine.profile w.ledger.events with
    | error e =>
      rw [hx] at hr
      cases hr
    | ok state? =>
      rw [hx] at hr
      cases state? with
      | none => cases hr
      | some s' =>
        cases hr
        rfl

/-! ## What no operation touches

The answers of the file system are given; an operation only uses them up. -/

section

variable {i j : Nat} {pos : Position} {w : World SessionLedger} {s : SessionState}

theorem Landing.outcome {initialContext : Option Json}
    {out : Except FsmError (Position × RenderedInjection) × World SessionLedger}
    (h : Landing engine host sid i j initialContext w s out) :
    out.2.ledger.outcome = w.ledger.outcome := by
  cases h <;> rfl

theorem Advance.outcome {out : Except FsmError StepOutcome × World SessionLedger}
    (h : Advance engine host sid i j pos w s out) : out.2.ledger.outcome = w.ledger.outcome := by
  cases h with
  | refused => rfl
  | moved taken hk hnext land => exact land.outcome

theorem Tripped.outcome {b : CircuitBreakerType}
    {out : Except FsmError StepOutcome × World SessionLedger}
    (h : Tripped host sid b pos w s out) : out.2.ledger.outcome = w.ledger.outcome := by
  cases h <;> rfl

theorem Handling.outcome {evidence : ChecklistEvidence} {output : Option Json}
    {out : Except FsmError StepOutcome × World SessionLedger}
    (h : Handling engine host sid pos evidence output w s out) :
    out.2.ledger.outcome = w.ledger.outcome := by
  cases h with
  | lost => rfl
  | plain _ advance => exact advance.outcome
  | passed _ advance =>
    cases advance with
    | moved _ _ _ _ land => exact land.outcome
    | _ => rfl
  | final _ complete => cases complete <;> rfl
  | rejected _ reject =>
    cases reject with
    | tripped _ _ trip => exact trip.outcome
    | _ => rfl
  | approved _ accept =>
    cases accept with
    | refused => rfl
    | accepted _ advance => exact advance.outcome
  | unapproved _ refuse =>
    cases refuse with
    | tripped _ _ trip => exact trip.outcome
    | _ => rfl

theorem Submission.outcome {evidence : ChecklistEvidence} {output : Option Json}
    {out : Except FsmError StepOutcome × World SessionLedger}
    (h : Submission engine host sid pos evidence output w out) :
    out.2.ledger.outcome = w.ledger.outcome := by
  cases h with
  | refused => rfl
  | late _ _ trip => exact trip.outcome
  | handled _ _ handling => exact handling.outcome

theorem Starting.outcome {initialContext : Option Json}
    {out : Except FsmError StepView × World SessionLedger}
    (h : Starting engine host sid initialContext w out) :
    out.2.ledger.outcome = w.ledger.outcome := by
  cases h with
  | invalid | unentered => rfl
  | refused _ _ _ ledger =>
    dsimp only
    rw [ledger]
    rfl
  | stuck _ _ _ land => exact land.outcome
  | started _ _ _ land => exact land.outcome

theorem Storing.outcome {out : Except FsmError ArtifactRef × World SessionLedger}
    (h : Storing host sid w out) : out.2.ledger.outcome = w.ledger.outcome := by
  cases h <;> rfl

theorem Recovering.outcome {out : Except FsmError SessionState × World SessionLedger}
    (h : Recovering engine sid w out) : out.2.ledger.outcome = w.ledger.outcome := by
  cases h <;> rfl

/-- **A call leaves the file system's answers as they are.** -/
theorem perform_outcome (call : Call) :
    (perform engine sid host call w).2.ledger.outcome = w.ledger.outcome := by
  cases call with
  | start => exact (exec_startSession).outcome
  | submit => exact (exec_submitMilestone).outcome
  | store => exact (exec_storeArtifact).outcome
  | recover => exact (exec_recoverSession).outcome

/-- A ledger that takes every append goes on to. -/
theorem perform_reliable {call : Call} (h : w.ledger.Reliable) :
    (perform engine sid host call w).2.ledger.Reliable :=
  fun n => (congrFun (perform_outcome call) n).trans (h n)

end

end ProfileFsmEngine

end ProtocolEnforcer
