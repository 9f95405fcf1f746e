import Mathlib.Data.List.Sort
import ProtocolEnforcer.Fsm.OutputContract

/-!
# The engine (`crates/fsm/src/{profile_engine,transitions,loop_back,approval}.rs`)

The operations of `ProfileFsmEngine`, statement by statement: what is appended,
what is assigned, and in which order, since a failure in between leaves the
session where the statements before it put it.
-/

namespace ProtocolEnforcer

/-- Where the session now is, what to inject, and its status. -/
structure StepView where
  position : Position
  injected : RenderedInjection
  macroName : String
  sessionState : SessionStatus

inductive StepOutcome where
  | advanced (view : StepView)
  | rejected (rejectedItems : List String) (reason : String) (position : Position)
  | loopedBack (rejectedItems : List String) (view : StepView)
  | completed (contractPath : Option String)

/-- Whole seconds since `startedAt`, never negative. -/
def elapsedSeconds (startedAt now : Time) : Nat := (Int.tdiv (now - startedAt) 1000000000).toNat

/-- The sorted keys of a submission's evidence. -/
def sortedKeys (keys : List String) : List String := keys.insertionSort (· ≤ ·)

namespace SessionState

/-- The streak bookkeeping of `reject_checklist` for a submission with these keys;
a prior rejection is told by its streak, which is never `0` after one. -/
def strike (s : SessionState) (currentKeys : List String) : SessionState :=
  let isIdentical := s.consecutiveIdenticalRejections > 0 &&
    currentKeys = s.lastRejectedEvidenceKeys
  { s with
    lastRejectedEvidenceKeys := currentKeys
    consecutiveIdenticalRejections :=
      if isIdentical then s.consecutiveIdenticalRejections + 1 else 1 }

/-- `reject_checklist` also counts the macro's iteration. -/
def strikeOut (s : SessionState) (currentKeys : List String) : SessionState :=
  { s.strike currentKeys with macroIteration := s.macroIteration + 1 }

/-- `reposition`. -/
def reposition (s : SessionState) (next : Position) (now : Time) : SessionState :=
  { s with position := some next, pendingApproval := none, updatedAt := now }

/-- The macro-scoped counters, reset by `advance_macro`. -/
def resetMacro (s : SessionState) : SessionState :=
  { s with
    macroIteration := 0, consecutiveIdenticalRejections := 0, lastRejectedEvidenceKeys := [] }

/-- A challenge parked on the session by `enter_sub`. -/
def park (s : SessionState) (challenge : ApprovalChallenge) : SessionState :=
  { s with pendingApproval := some challenge, consecutiveApprovalRejections := 0 }

/-- One more refused approval at this gate entry. -/
def countRefusal (s : SessionState) : SessionState :=
  { s with consecutiveApprovalRejections := s.consecutiveApprovalRejections + 1 }

end SessionState

/-- The position of the sub-state with these indices. -/
def Profile.place (p : Profile) (macroIdx subIdx : Nat) : Position :=
  ⟨(p.stateAt macroIdx).stateId, ((p.stateAt macroIdx).subAt subIdx).id⟩

namespace ProfileFsmEngine

open Effect

variable {L : Type} [LedgerPort L] (engine : ProfileFsmEngine) (host : Host) (sid : String)

/-- `enter_sub`: render, then challenge a gate; the challenge is ledgered before it
is parked. -/
def enterSub (macroIdx subIdx : Nat) (initialContext : Option Json) :
    Effect (World L) FsmError (Position × RenderedInjection) := do
  let macroDef := engine.profile.stateAt macroIdx
  let sub := macroDef.subAt subIdx
  let position := engine.profile.place macroIdx subIdx
  let injected ← lift
    (renderInjection engine.vendor.toStringPretty sub macroDef host.library initialContext)
  let issued ← lift (issueFor host.getrandom sub position)
  match issued with
  | some challenge =>
    append host sid
      (.approvalChallengeIssued challenge.macroId challenge.subStateId challenge.challenge)
      position Json.emptyObject
    updateSession sid (·.park challenge)
    return (position, { injected with approvalChallenge := some challenge.challenge })
  | none => return (position, injected)

/-- `reposition`. -/
def reposition (nextPosition : Position) : Effect (World L) FsmError Unit := do
  let _ ← getSession sid
  let t ← now host
  updateSession sid (·.reposition nextPosition t)

/-- The end of `advance_plain` and `advance_macro`: enter the sub-state the session
has moved to, and report the view. -/
def landOn (macroIdx subIdx : Nat) : Effect (World L) FsmError StepOutcome := do
  let (_, injected) ← enterSub engine host sid macroIdx subIdx none
  let session ← getSession sid
  return .advanced ⟨engine.profile.place macroIdx subIdx, injected,
    (engine.profile.stateAt macroIdx).name, session.status⟩

/-- `advance_plain`. -/
def advancePlain (macroIdx subIdx : Nat) (pos : Position) :
    Effect (World L) FsmError StepOutcome := do
  let macroDef := engine.profile.stateAt macroIdx
  let nextIdx := nextEnabledIndex macroDef subIdx
  let nextPosition := engine.profile.place macroIdx nextIdx
  append host sid (.subStateAdvanced pos.subStateId nextPosition.subStateId) nextPosition
    Json.emptyObject
  reposition host sid nextPosition
  landOn engine host sid macroIdx nextIdx

/-- A tripped breaker: ledgered, then the session has failed, then the error. -/
def tripBreaker (breaker : CircuitBreakerType) (ledgered : Json) (pos : Position)
    (details : String) : Effect (World L) FsmError StepOutcome := do
  append host sid (.circuitBreakerTriggered breaker ledgered) pos Json.emptyObject
  failSession sid
  throw (.circuitBreaker breaker details)

/-- `apply_loop_back`. -/
def applyLoopBack (macroIdx : Nat) (pos : Position) (missing : List String)
    (macroIteration : UInt32) : Effect (World L) FsmError StepOutcome := do
  let macroDef := engine.profile.stateAt macroIdx
  let (target, injected) ← lift
    (renderLoopTarget engine.vendor.toStringPretty macroDef host.library)
  append host sid (.macroLoopedBack pos.subStateId target.subStateId macroIteration) target
    Json.emptyObject
  let session ← getSession sid
  let t ← now host
  updateSession sid fun s => { s with position := some target, updatedAt := t }
  return .loopedBack missing ⟨target, injected, macroDef.name, session.status⟩

/-- `reject_checklist`: the counters move before the event is appended. -/
def rejectChecklist (macroIdx : Nat) (pos : Position) (missing : List String)
    (evidence : ChecklistEvidence) : Effect (World L) FsmError StepOutcome := do
  let macroDef := engine.profile.stateAt macroIdx
  let effectiveMaxIter := macroDef.maxIterations
  let oscillationThreshold := engine.profile.settings.oscillationDetectionThreshold
  updateSession sid (·.strikeOut (sortedKeys evidence.keys))
  let session ← getSession sid
  let macroIteration := session.macroIteration
  let consecutiveIdentical := session.consecutiveIdenticalRejections
  append host sid (.milestoneRejected missing "checklist_incomplete" macroIteration) pos
    (.object [("evidence", evidence.toJson)])
  if macroIteration ≥ effectiveMaxIter then
    tripBreaker host sid .maxIterations
      (.object [("macro", .string pos.macroId), ("iterations", .number (toString macroIteration))])
      pos ("Max iterations (" ++ toString effectiveMaxIter ++ ") exceeded")
  else if consecutiveIdentical ≥ oscillationThreshold then
    tripBreaker host sid .repetitiveLoop
      (.object [("macro", .string pos.macroId),
        ("consecutive_identical", .number (toString consecutiveIdentical))])
      pos ("Repetitive loop detected: " ++ toString consecutiveIdentical ++
        " consecutive identical rejections")
  else if engine.profile.settings.autoLoopOnChecklistFailure && macroDef.loopState then
    applyLoopBack engine host sid macroIdx pos missing macroIteration
  else return .rejected missing "checklist_incomplete" pos

/-- `advance_macro`. -/
def advanceMacro (macroIdx : Nat) (pos : Position) : Effect (World L) FsmError StepOutcome := do
  append host sid (.milestoneAccepted none) pos Json.emptyObject
  let nextMacroIdx := macroIdx + 1
  let nextMacro := engine.profile.stateAt nextMacroIdx
  let nextSubIdx ← lift (firstEnabledIndex nextMacro)
  let nextPosition := engine.profile.place nextMacroIdx nextSubIdx
  append host sid (.macroAdvanced pos.macroId nextMacro.stateId) nextPosition Json.emptyObject
  reposition host sid nextPosition
  updateSession sid (·.resetMacro)
  landOn engine host sid nextMacroIdx nextSubIdx

/-- The output contract, when there is one; a violation is ledgered. -/
def writeContract (pos : Position) (output : Option Json) :
    Effect (World L) FsmError (Option (String × String)) :=
  match engine.profile.outputContract with
  | none => return none
  | some contract =>
    match validateAndWriteOutput engine host sid contract output with
    | .ok written => return some written
    | .error err => do
      append host sid (.outputContractViolated err.display) pos Json.emptyObject
      throw err

/-- `complete_final_macro`. -/
def completeFinalMacro (pos : Position) (output : Option Json) :
    Effect (World L) FsmError StepOutcome := do
  let session ← reads fun w => w.sessions sid
  lift (verifySessionArtifacts engine host sid session)
  let contractWritten ← writeContract engine host sid pos output
  let contractPath := contractWritten.map Prod.fst
  let outputSha256 := contractWritten.map Prod.snd
  append host sid (.milestoneAccepted none) pos Json.emptyObject
  append host sid (.sessionCompleted (contractPath.getD "") outputSha256) pos Json.emptyObject
  let _ ← getSession sid
  let t ← now host
  updateSession sid fun s => { s with status := .completed, position := none, updatedAt := t }
  return .completed contractPath

/-- `step_checklist`; its `find` by id is the lookup that gave `subIdx`. -/
def stepChecklist (macroIdx subIdx : Nat) (pos : Position) (evidence : ChecklistEvidence)
    (output : Option Json) : Effect (World L) FsmError StepOutcome :=
  let sub := (engine.profile.stateAt macroIdx).subAt subIdx
  match missingCriteria (sub.criteria.getD []) evidence with
  | [] =>
    if macroIdx = engine.profile.pipeline.length - 1 then
      completeFinalMacro engine host sid pos output
    else advanceMacro engine host sid macroIdx pos
  | missing => rejectChecklist engine host sid macroIdx pos missing evidence

/-- The `Rejected` arm of `step_approval`: ledgered, then counted against the cap. -/
def refuseApproval (pos : Position) (reason : String) : Effect (World L) FsmError StepOutcome := do
  append host sid (.approvalRejected pos.macroId pos.subStateId reason) pos Json.emptyObject
  let cap := engine.profile.settings.approvalRejectionCap
  updateSession sid (·.countRefusal)
  let session ← getSession sid
  let count := session.consecutiveApprovalRejections
  if cap ≠ 0 ∧ count ≥ cap then
    tripBreaker host sid .approvalRejectionLimit
      (.object [("macro", .string pos.macroId), ("sub_state", .string pos.subStateId),
        ("consecutive_approval_rejections", .number (toString count))])
      pos ("Approval rejection cap (" ++ toString cap ++ ") exceeded: " ++ toString count ++
        " consecutive rejected submissions")
  else return .rejected [approvalEvidenceKey] reason pos

/-- The `Accepted` arm of `step_approval`: ledgered before the session moves. -/
def acceptApproval (macroIdx subIdx : Nat) (pos : Position) (signature challenge : String) :
    Effect (World L) FsmError StepOutcome := do
  append host sid (.approvalAccepted pos.macroId pos.subStateId challenge signature) pos
    Json.emptyObject
  advancePlain engine host sid macroIdx subIdx pos

/-- `step_approval`. -/
def stepApproval (macroIdx subIdx : Nat) (pos : Position) (evidence : ChecklistEvidence) :
    Effect (World L) FsmError StepOutcome := do
  let sub := (engine.profile.stateAt macroIdx).subAt subIdx
  let session ← reads fun w => w.sessions sid
  match check engine.vendor.ed sid pos sub (session.bind (·.pendingApproval)) evidence with
  | .rejected reason => refuseApproval engine host sid pos reason
  | .accepted signature challenge =>
    acceptApproval engine host sid macroIdx subIdx pos signature challenge

/-- Step 1 of `submit_milestone`: an active session, submitted at its position. -/
def checkSubmission (sid : String) (pos : Position) (session : Option SessionState) :
    Except FsmError SessionState :=
  match session with
  | none => .error (.sessionNotFound sid)
  | some session =>
    if session.status ≠ .active then .error (.sessionInactive sid session.status)
    else
      match session.position with
      | none => .error (.internal "active session has no position")
      | some current =>
        if current ≠ pos then .error (.stepMismatch current.stepId pos.stepId)
        else .ok session

/-- The last part of `submit_milestone`: by the type of the sub-state. -/
def dispatch (macroIdx subIdx : Nat) (pos : Position) (evidence : ChecklistEvidence)
    (output : Option Json) : Effect (World L) FsmError StepOutcome :=
  match ((engine.profile.stateAt macroIdx).subAt subIdx).subStateType with
  | .checklist => stepChecklist engine host sid macroIdx subIdx pos evidence output
  | .humanApproval => stepApproval engine host sid macroIdx subIdx pos evidence
  | _ => advancePlain engine host sid macroIdx subIdx pos

/-- The indices a position stands for (`iter().position(..)` twice). -/
def locate (pos : Position) : Except FsmError (Nat × Nat) :=
  match engine.profile.pipeline.findIdx? (·.stateId = pos.macroId) with
  | none => .error (.internal ("unknown macro '" ++ pos.macroId ++ "'"))
  | some macroIdx =>
    match (engine.profile.stateAt macroIdx).subStates.findIdx? (·.id = pos.subStateId) with
    | none => .error (.internal ("unknown sub-state '" ++ pos.subStateId ++ "'"))
    | some subIdx => .ok (macroIdx, subIdx)

/-- The `GlobalTimeout` breaker; `0` disables it. -/
def timedOut (elapsed : Nat) : Bool :=
  engine.config.globalTimeoutSeconds ≠ 0 && engine.config.globalTimeoutSeconds ≤ elapsed

/-- `submit_milestone`. -/
def submitMilestone (pos : Position) (evidence : ChecklistEvidence) (output : Option Json) :
    Effect (World L) FsmError StepOutcome := do
  let session ← reads fun w => w.sessions sid
  let session ← lift (checkSubmission sid pos session)
  let t ← now host
  let elapsed := elapsedSeconds session.startedAt t
  if timedOut engine elapsed then
    tripBreaker host sid .globalTimeout
      (.object [("elapsed_seconds", .number (toString elapsed)),
        ("limit_seconds", .number (toString engine.config.globalTimeoutSeconds))])
      pos ("Global timeout (" ++ toString engine.config.globalTimeoutSeconds ++
        " s) exceeded after " ++ toString elapsed ++ " s")
  else do
    let (macroIdx, subIdx) ← lift (locate engine pos)
    dispatch engine host sid macroIdx subIdx pos evidence output

/-- The state `start_session` builds for `context` at clock reading `t`. -/
def freshSession (t : Time) (context : Json) (position : Position) : SessionState where
  sessionId := sid
  pipelineId := engine.profile.name
  position := some position
  status := .active
  macroIteration := 0
  consecutiveIdenticalRejections := 0
  lastRejectedEvidenceKeys := []
  consecutiveApprovalRejections := 0
  startedAt := t
  updatedAt := t
  initialContext := context
  artifacts := []
  pendingApproval := none

/-- `validate_profile` as `start_session` calls it. -/
def validated : Except FsmError Unit :=
  match validateProfile engine.vendor.toSchemas host.validation engine.profile with
  | .ok () => .ok ()
  | .error violations => .error (.manifestInvalid ("; ".intercalate violations))

/-- The first macro and the index of its first enabled sub-state. -/
def entryPoint : Except FsmError (StateDef × Nat) :=
  match engine.profile.pipeline.head? with
  | none => .error (.manifestInvalid "pipeline is empty")
  | some firstMacro => (firstEnabledIndex firstMacro).map (firstMacro, ·)

/-- The part of `start_session` whose failure removes the session again. -/
def launch (firstSubIdx : Nat) (position : Position) (context : Json)
    (initialContext : Option Json) : Effect (World L) FsmError RenderedInjection := do
  append host sid
    (.sessionStarted engine.profile.name engine.profile.version engine.config.profileSha256)
    position (.object [("initial_context", context)])
  let (_, injected) ← enterSub engine host sid 0 firstSubIdx initialContext
  return injected

/-- `start_session`. -/
def startSession (initialContext : Option Json) : Effect (World L) FsmError StepView := do
  lift (validated engine host)
  let (firstMacro, firstSubIdx) ← lift (entryPoint engine)
  let t ← now host
  let context := initialContext.getD .null
  let position : Position := ⟨firstMacro.stateId, (firstMacro.subAt firstSubIdx).id⟩
  putSession sid (some (freshSession engine sid t context position))
  let injected ← tryCatch
    (launch engine host sid firstSubIdx position context initialContext)
    (fun e => do
      putSession sid none
      throw e)
  return ⟨position, injected, firstMacro.name, .active⟩

/-- `store_artifact`. -/
def storeArtifact (stepId : String) (data : Bytes) (mimeType : String) :
    Effect (World L) FsmError ArtifactRef := do
  let session ← getSession sid
  if session.status ≠ .active then throw (.sessionInactive sid session.status)
  else do
    let pos := session.position.getD ⟨"", ""⟩
    let store ← lift ((ArtifactStore.new host.artifacts sid engine.config.artifactRoot).mapError
      FsmError.artifact)
    let artifactRef ← lift ((store.storeWithMime engine.vendor.sha256 host.artifacts stepId data
      mimeType).mapError FsmError.artifact)
    append host sid (.artifactStored artifactRef) pos Json.emptyObject
    let _ ← getSession sid
    let t ← now host
    updateSession sid fun s =>
      { s with artifacts := insertArtifact s.artifacts artifactRef.path artifactRef, updatedAt := t }
    return artifactRef

end ProfileFsmEngine

end ProtocolEnforcer
