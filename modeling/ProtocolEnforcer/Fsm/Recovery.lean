import ProtocolEnforcer.Fsm.Engine

/-!
# Recovery (`crates/fsm/src/recovery.rs`)

`recover_profile_session` folds a session's ledger into a `SessionState`, written
independently of the operations that appended the events. `recoverStep` is one
turn of its loop.
-/

namespace ProtocolEnforcer

/-- The `evidence` keys a `MilestoneRejected` payload records, sorted. -/
def payloadKeys (payload : Json) : List String :=
  sortedKeys (((payload.get "evidence").bind Json.objectKeys).getD [])

/-- The `SessionStarted` arm: the profile's entry point, and nothing counted yet. -/
def recoverStart (sid : String) (profile : Profile) (pipelineId : String) (event : FsmEvent) :
    Except FsmError SessionState := do
  match profile.pipeline.head? with
  | none => throw (.manifestInvalid "pipeline is empty")
  | some firstMacro =>
    let firstSubIdx ← firstEnabledIndex firstMacro
    return {
      sessionId := sid
      pipelineId
      position := some ⟨firstMacro.stateId, (firstMacro.subAt firstSubIdx).id⟩
      status := .active
      macroIteration := 0
      consecutiveIdenticalRejections := 0
      lastRejectedEvidenceKeys := []
      consecutiveApprovalRejections := 0
      startedAt := event.timestamp
      updatedAt := event.timestamp
      initialContext := (event.payload.get "initial_context").getD .null
      artifacts := []
      pendingApproval := none }

/-- The position moved within its macro, when there is one. -/
def SessionState.moveTo (s : SessionState) (toSub : String) : SessionState :=
  { s with
    position := s.position.map fun pos => { pos with subStateId := toSub }
    pendingApproval := none }

/-- The arms for a session that exists. -/
def recoverEvent (profile : Profile) (s : SessionState) (event : FsmEvent) :
    Except FsmError SessionState :=
  match event.eventType with
  | .milestoneRejected _ _ iteration =>
    .ok { s.strike (payloadKeys event.payload) with macroIteration := iteration }
  | .subStateAdvanced _ toSub => .ok (s.moveTo toSub)
  | .macroAdvanced _ toMacro =>
    match profile.pipeline.find? (·.stateId = toMacro) with
    | none => .error (.manifestInvalid ("unknown macro '" ++ toMacro ++ "'"))
    | some nextMacro => do
      let nextSubIdx ← firstEnabledIndex nextMacro
      return { s.resetMacro with
        position := some ⟨nextMacro.stateId, (nextMacro.subAt nextSubIdx).id⟩
        pendingApproval := none }
  | .circuitBreakerTriggered _ _ => .ok { s with status := .failed }
  | .sessionCompleted _ _ => .ok { s with status := .completed, position := none }
  | .sessionFailed _ _ => .ok { s with status := .failed }
  | .macroLoopedBack _ toSub _ => .ok (s.moveTo toSub)
  | .approvalChallengeIssued macroId subStateId challenge =>
    .ok (s.park ⟨macroId, subStateId, challenge⟩)
  | .approvalAccepted _ _ _ _ => .ok { s with pendingApproval := none }
  | .approvalRejected _ _ _ => .ok s.countRefusal
  | .artifactStored artifactRef =>
    .ok { s with artifacts := insertArtifact s.artifacts artifactRef.path artifactRef }
  -- audit-only events, and those of the retired flat engine
  | .sessionStarted _ _ _ | .milestoneSubmitted _ _ | .milestoneAccepted _ | .stepAdvanced _ _
  | .outputContractViolated _ => .ok s

/-- One turn of the loop. -/
def recoverStep (sid : String) (profile : Profile) (state : Option SessionState)
    (event : FsmEvent) : Except FsmError (Option SessionState) :=
  match event.eventType, state with
  | .sessionStarted pipelineId _ _, _ =>
    (recoverStart sid profile pipelineId event).map some
  | _, none => .ok none
  | _, some s =>
    (recoverEvent profile s event).map fun s => some { s with updatedAt := event.timestamp }

/-- The loop of `recover_profile_session`. -/
def replayEvents (sid : String) (profile : Profile) (events : List FsmEvent) :
    Except FsmError (Option SessionState) :=
  events.foldlM (recoverStep sid profile) none

/-- `recover_profile_session`. -/
def recoverProfileSession {L : Type} [LedgerPort L] (sid : String) (ledger : L)
    (profile : Profile) : Except FsmError SessionState := do
  let events ← (LedgerPort.replay ledger sid).mapError FsmError.ledger
  match ← replayEvents sid profile events with
  | some s => return s
  | none => throw (.sessionNotFound sid)

/-- `recover_session`. -/
def ProfileFsmEngine.recoverSession {L : Type} [LedgerPort L] (engine : ProfileFsmEngine)
    (sid : String) : Effect (World L) FsmError SessionState := do
  let ledger ← Effect.reads fun w => w.ledger
  let state ← Effect.lift (recoverProfileSession sid ledger engine.profile)
  putSession sid (some state)
  return state

@[simp] theorem replayEvents_nil {sid : String} {profile : Profile} :
    replayEvents sid profile [] = .ok none := rfl

/-- The loop over one more event. -/
theorem replayEvents_snoc {sid : String} {profile : Profile} {events : List FsmEvent}
    {event : FsmEvent} {state : Option SessionState}
    (h : replayEvents sid profile events = .ok state) :
    replayEvents sid profile (events ++ [event]) = recoverStep sid profile state event := by
  rw [replayEvents, List.foldlM_append]
  rw [replayEvents] at h
  rw [h]
  show (recoverStep sid profile state event >>= pure) = _
  rw [bind_pure]

/-- A loop that ends well was well before its last turn. -/
theorem replayEvents_snoc_ok {sid : String} {profile : Profile} {events : List FsmEvent}
    {event : FsmEvent} {state : Option SessionState}
    (h : replayEvents sid profile (events ++ [event]) = .ok state) :
    ∃ before, replayEvents sid profile events = .ok before ∧
      recoverStep sid profile before event = .ok state := by
  cases hx : replayEvents sid profile events with
  | error e =>
    rw [replayEvents, List.foldlM_append] at h
    rw [replayEvents] at hx
    rw [hx] at h
    cases h
  | ok before => exact ⟨before, rfl, (replayEvents_snoc hx).symm.trans h⟩

theorem recoverStep_some {sid : String} {profile : Profile} {s : SessionState} {event : FsmEvent}
    (h : ∀ a b c, event.eventType ≠ .sessionStarted a b c) :
    recoverStep sid profile (some s) event =
      (recoverEvent profile s event).map fun s => some { s with updatedAt := event.timestamp } := by
  unfold recoverStep
  cases hty : event.eventType with
  | sessionStarted a b c => exact absurd hty (h a b c)
  | _ => rfl

/-- A recovered start has counted nothing, and opened nothing. -/
theorem recoverStart_fresh {sid : String} {profile : Profile} {pipelineId : String}
    {event : FsmEvent} {s : SessionState} (h : recoverStart sid profile pipelineId event = .ok s) :
    s.macroIteration = 0 ∧ s.consecutiveApprovalRejections = 0 ∧ s.pendingApproval = none := by
  unfold recoverStart at h
  split at h
  · cases h
  · rename_i m _
    cases hk : firstEnabledIndex m with
    | error err =>
      rw [hk] at h
      cases h
    | ok k =>
      rw [hk] at h
      cases h
      exact ⟨rfl, rfl, rfl⟩

/-- A recovered move to the next macro resets what is counted in a macro. -/
theorem recoverEvent_resets {profile : Profile} {s s' : SessionState} {event : FsmEvent}
    {fromMacro toMacro : String} (hty : event.eventType = .macroAdvanced fromMacro toMacro)
    (h : recoverEvent profile s event = .ok s') :
    ∃ pos, s' = { s.resetMacro with position := pos, pendingApproval := none } := by
  unfold recoverEvent at h
  rw [hty] at h
  dsimp only at h
  split at h
  · cases h
  · rename_i m _
    cases hk : firstEnabledIndex m with
    | error err =>
      rw [hk] at h
      cases h
    | ok k =>
      rw [hk] at h
      cases h
      exact ⟨_, rfl⟩

/-- **Reading the recovered session off the events.** What a start sets as `step` does,
whatever was there before, and every other event moves as `step` does, is the fold of
`step`. -/
theorem replayEvents_read {α : Type} {sid : String} {profile : Profile} {f : SessionState → α}
    {step : α → FsmEvent → α}
    (start : ∀ a {e s pipelineId version hash},
      e.eventType = .sessionStarted pipelineId version hash →
      recoverStart sid profile pipelineId e = .ok s → f s = step a e)
    (event : ∀ {e s s'}, (∀ a b c, e.eventType ≠ .sessionStarted a b c) →
      recoverEvent profile s e = .ok s' → f { s' with updatedAt := e.timestamp } = step (f s) e)
    (a : α) {es : List FsmEvent} {s : SessionState}
    (h : replayEvents sid profile es = .ok (some s)) : f s = es.foldl step a := by
  induction es using List.reverseRecOn generalizing s with
  | nil => cases h
  | append_singleton es e ih =>
    obtain ⟨before, hbefore, hstep⟩ := replayEvents_snoc_ok h
    rw [List.foldl_concat]
    by_cases hne : ∀ a b c, e.eventType ≠ .sessionStarted a b c
    · cases before with
      | none =>
        unfold recoverStep at hstep
        split at hstep
        · exact absurd ‹e.eventType = _› (hne _ _ _)
        · cases hstep
        · cases ‹none = some _›
      | some s' =>
        rw [recoverStep_some hne] at hstep
        cases hev : recoverEvent profile s' e with
        | error err =>
          rw [hev] at hstep
          cases hstep
        | ok s'' =>
          rw [hev] at hstep
          cases hstep
          rw [← ih hbefore]
          exact event hne hev
    · simp only [not_forall, not_not] at hne
      obtain ⟨pipelineId, version, hash, hty⟩ := hne
      unfold recoverStep at hstep
      rw [hty] at hstep
      dsimp only at hstep
      cases hs : recoverStart sid profile pipelineId e with
      | error err =>
        rw [hs] at hstep
        cases hstep
      | ok s' =>
        rw [hs] at hstep
        cases hstep
        exact start _ hty hs

end ProtocolEnforcer
