import ProtocolEnforcer.Core.Runs
import ProtocolEnforcer.Fsm.Outcomes

/-!
# The course of an operation

An abstract model of the engine: one operation as a walk of small steps, each of
which appends at most one event, in the order the source interleaves appending and
assigning. A `Stage` says where inside the operation the walk stands, so a stage
short of the operation's end is a point where it can fail, or the process die. Wall-clock fields
of the session are left out (`timeless`): recovery reads them off the events.
-/

namespace ProtocolEnforcer

open Relation

/-- A session without its wall-clock fields. -/
def SessionState.timeless (s : SessionState) : SessionState :=
  { s with startedAt := 0, updatedAt := 0 }

/-- Where an operation stands. -/
inductive Stage where
  | ready
  /-- Moved to the sub-state with these indices, not yet rendered or challenged. -/
  | landed (i j : Nat)
  /-- An approval is ledgered, the session has not moved. -/
  | spent
  /-- A refused approval is ledgered and counted. -/
  | refused
  /-- A rejected checklist is counted, not ledgered. -/
  | bumped
  /-- A rejected checklist is counted and ledgered. -/
  | struck
  /-- An accepted checklist is ledgered, the macro not yet left. -/
  | passed
  | settled
  /-- A start that failed at its first append; the session is out of memory. -/
  | unborn
  /-- A start that failed later; the session is out of memory. -/
  | stillborn
  deriving DecidableEq, Repr

/-- A moment of a session: what is in memory, what is in the ledger, and where the
current operation stands. -/
structure Snapshot where
  live : Option SessionState
  events : List FsmEvent
  stage : Stage

namespace ProfileFsmEngine

variable (engine : ProfileFsmEngine) (host : Host) (sid : String)

/-- An active session at the sub-state with these indices. -/
structure Placed (s : SessionState) (pos : Position) (i j : Nat) : Prop where
  active : s.status = .active
  here : s.position = some pos
  located : locate engine pos = .ok (i, j)

/-- The criteria of the checklist with these indices. -/
def criteriaAt (i j : Nat) : List String := ((engine.profile.stateAt i).subAt j).criteria.getD []

/-- The verdict of the gate with these indices on a submission. -/
def verdictAt (s : SessionState) (pos : Position) (i j : Nat) (evidence : ChecklistEvidence) :
    ApprovalVerdict :=
  check engine.vendor.ed sid pos ((engine.profile.stateAt i).subAt j) s.pendingApproval evidence

/-- The small steps of a call. -/
inductive Step (call : Call) : Snapshot → Snapshot → Prop where
  | start {ctx m k pos t live es} (hcall : call = .start ctx)
      (entry : entryPoint engine = .ok (m, k)) (hpos : pos = ⟨m.stateId, (m.subAt k).id⟩) :
      Step call ⟨live, es, .ready⟩
        ⟨some (freshSession engine sid 0 (ctx.getD .null) pos),
          es ++ [eventAt t sid (.sessionStarted engine.profile.name engine.profile.version
            engine.config.profileSha256) pos (.object [("initial_context", ctx.getD .null)])],
          .landed 0 k⟩
  | unborn {ctx live es} (hcall : call = .start ctx) :
      Step call ⟨live, es, .ready⟩ ⟨none, es, .unborn⟩
  | abort {ctx live es i j} (hcall : call = .start ctx) :
      Step call ⟨live, es, .landed i j⟩ ⟨none, es, .stillborn⟩
  | arrive {s i j es} (here : s.position = some (engine.profile.place i j))
      (ungated : engine.profile.typeAt i j ≠ .humanApproval) :
      Step call ⟨some s, es, .landed i j⟩ ⟨some s, es, .settled⟩
  | issue {s i j nonce t es pos} (here : s.position = some pos)
      (hpos : pos = engine.profile.place i j)
      (gate : engine.profile.typeAt i j = .humanApproval)
      (minted : newChallengeHex host.getrandom = .ok nonce) :
      Step call ⟨some s, es, .landed i j⟩
        ⟨some (s.park ⟨pos.macroId, pos.subStateId, nonce⟩),
          es ++ [eventAt t sid (.approvalChallengeIssued pos.macroId pos.subStateId nonce) pos
            Json.emptyObject], .settled⟩
  | advance {s pos i j k next t es stage} (placed : Placed engine s pos i j)
      (hstage : stage = .ready ∧ engine.profile.typeAt i j ≠ .humanApproval ∧
          engine.profile.typeAt i j ≠ .checklist ∨
        stage = .spent ∧ engine.profile.typeAt i j = .humanApproval)
      (hk : k = nextEnabledIndex (engine.profile.stateAt i) j)
      (hnext : next = engine.profile.place i k) :
      Step call ⟨some s, es, stage⟩
        ⟨some (s.reposition next 0),
          es ++ [eventAt t sid (.subStateAdvanced pos.subStateId next.subStateId) next
            Json.emptyObject], .landed i k⟩
  | approve {s pos i j signature nonce evidence output t es} (placed : Placed engine s pos i j)
      (hcall : call = .submit pos evidence output)
      (gate : engine.profile.typeAt i j = .humanApproval)
      (verdict : verdictAt engine sid s pos i j evidence = .accepted signature nonce) :
      Step call ⟨some s, es, .ready⟩
        ⟨some s, es ++ [eventAt t sid
          (.approvalAccepted pos.macroId pos.subStateId nonce signature) pos Json.emptyObject],
          .spent⟩
  | refuse {s pos i j reason evidence output t es} (placed : Placed engine s pos i j)
      (hcall : call = .submit pos evidence output)
      (gate : engine.profile.typeAt i j = .humanApproval)
      (verdict : verdictAt engine sid s pos i j evidence = .rejected reason) :
      Step call ⟨some s, es, .ready⟩
        ⟨some s.countRefusal, es ++ [eventAt t sid
          (.approvalRejected pos.macroId pos.subStateId reason) pos Json.emptyObject], .refused⟩
  | trip {s pos b ledgered t es stage} (active : s.status = .active) (here : s.position = some pos)
      (hstage : stage = .ready ∧ b = .globalTimeout ∨
        stage = .refused ∧ b = .approvalRejectionLimit ∨
        stage = .struck ∧ (b = .maxIterations ∨ b = .repetitiveLoop)) :
      Step call ⟨some s, es, stage⟩
        ⟨some { s with status := .failed }, es ++ [eventAt t sid
          (.circuitBreakerTriggered b ledgered) pos Json.emptyObject], .settled⟩
  | strike {s pos i j evidence output es} (placed : Placed engine s pos i j)
      (hcall : call = .submit pos evidence output)
      (checklist : engine.profile.typeAt i j = .checklist)
      (hmissing : missingCriteria (criteriaAt engine i j) evidence ≠ []) :
      Step call ⟨some s, es, .ready⟩
        ⟨some (s.strikeOut (sortedKeys evidence.keys)), es, .bumped⟩
  | reject {s pos i j missing evidence output t es} (placed : Placed engine s pos i j)
      (hcall : call = .submit pos evidence output)
      (checklist : engine.profile.typeAt i j = .checklist)
      (hmissing : missing = missingCriteria (criteriaAt engine i j) evidence) :
      Step call ⟨some s, es, .bumped⟩
        ⟨some s, es ++ [eventAt t sid
          (.milestoneRejected missing "checklist_incomplete" s.macroIteration) pos
            (.object [("evidence", evidence.toJson)])], .struck⟩
  | loopBack {s pos i j k target t es} (placed : Placed engine s pos i j)
      (checklist : engine.profile.typeAt i j = .checklist) (hloops : loops engine i = true)
      (hk : (engine.profile.stateAt i).firstEnabledExecuteIndex = some k)
      (htarget : target = engine.profile.place i k) :
      Step call ⟨some s, es, .struck⟩
        ⟨some { s with position := some target }, es ++ [eventAt t sid
          (.macroLoopedBack pos.subStateId target.subStateId s.macroIteration) target
            Json.emptyObject], .settled⟩
  | pass {s pos i j evidence output t es} (placed : Placed engine s pos i j)
      (hcall : call = .submit pos evidence output)
      (checklist : engine.profile.typeAt i j = .checklist)
      (hmet : missingCriteria (criteriaAt engine i j) evidence = []) :
      Step call ⟨some s, es, .ready⟩
        ⟨some s, es ++ [eventAt t sid (.milestoneAccepted none) pos Json.emptyObject], .passed⟩
  | nextMacro {s pos i j k next t es} (placed : Placed engine s pos i j)
      (checklist : engine.profile.typeAt i j = .checklist)
      (hlast : i + 1 < engine.profile.pipeline.length)
      (hk : firstEnabledIndex (engine.profile.stateAt (i + 1)) = .ok k)
      (hnext : next = engine.profile.place (i + 1) k) :
      Step call ⟨some s, es, .passed⟩
        ⟨some (s.reposition next 0).resetMacro, es ++ [eventAt t sid
          (.macroAdvanced pos.macroId next.macroId) next Json.emptyObject], .landed (i + 1) k⟩
  | complete {s pos i j path digest t es} (placed : Placed engine s pos i j)
      (checklist : engine.profile.typeAt i j = .checklist)
      (hlast : i + 1 = engine.profile.pipeline.length) :
      Step call ⟨some s, es, .passed⟩
        ⟨some { s with status := .completed, position := none }, es ++ [eventAt t sid
          (.sessionCompleted path digest) pos Json.emptyObject], .settled⟩
  | violate {s pos i j reason t es} (placed : Placed engine s pos i j)
      (checklist : engine.profile.typeAt i j = .checklist) :
      Step call ⟨some s, es, .ready⟩
        ⟨some s, es ++ [eventAt t sid (.outputContractViolated reason) pos Json.emptyObject],
          .settled⟩
  | store {s pos artifactRef stepId data mimeType t es} (active : s.status = .active)
      (hcall : call = .store stepId data mimeType) :
      Step call ⟨some s, es, .ready⟩
        ⟨some { s with artifacts := insertArtifact s.artifacts artifactRef.path artifactRef },
          es ++ [eventAt t sid (.artifactStored artifactRef) pos Json.emptyObject], .settled⟩
  | recover {live s es} (hcall : call = .recover)
      (hs : replayEvents sid engine.profile es = .ok (some s)) :
      Step call ⟨live, es, .ready⟩ ⟨some s.timeless, es, .settled⟩

/-- The walk of an operation. -/
abbrev Course (call : Call) : Snapshot → Snapshot → Prop := ReflTransGen (Step engine host sid call)

variable {engine} in
/-- What advances is no checklist: a gate behind its approval, any other step without one. -/
theorem not_checklist_of_advance {i j : Nat} {stage : Stage}
    (h : stage = .ready ∧ engine.profile.typeAt i j ≠ .humanApproval ∧
        engine.profile.typeAt i j ≠ .checklist ∨
      stage = .spent ∧ engine.profile.typeAt i j = .humanApproval) :
    engine.profile.typeAt i j ≠ .checklist := by
  rcases h with ⟨-, -, hlist⟩ | ⟨-, hgate⟩
  · exact hlist
  · rw [hgate]
    decide

/-- A step appends at most one event. -/
theorem step_growing (call : Call) :
    Runs.Growing (Step engine host sid call) (fun c => c.events) := by
  intro c d h
  cases h with
  | unborn | abort | arrive | strike | recover => exact Or.inl rfl
  | _ => exact Or.inr ⟨_, rfl⟩

/-! ## What a route knows -/

/-- What the route of a submission says about it. -/
def RouteFacts (s : SessionState) (pos : Position) (evidence : ChecklistEvidence) : Route → Prop
  | .refused _ | .late _ => False
  | .lost e => locate engine pos = .error e
  | .plain i j => locate engine pos = .ok (i, j) ∧ engine.profile.typeAt i j ≠ .humanApproval ∧
      engine.profile.typeAt i j ≠ .checklist
  | .passed i j => locate engine pos = .ok (i, j) ∧ engine.profile.typeAt i j = .checklist ∧
      missingCriteria (criteriaAt engine i j) evidence = [] ∧
      i ≠ engine.profile.pipeline.length - 1
  | .final i j => locate engine pos = .ok (i, j) ∧ engine.profile.typeAt i j = .checklist ∧
      missingCriteria (criteriaAt engine i j) evidence = [] ∧
      i = engine.profile.pipeline.length - 1
  | .rejected i j missing => locate engine pos = .ok (i, j) ∧
      engine.profile.typeAt i j = .checklist ∧
      missing = missingCriteria (criteriaAt engine i j) evidence ∧ missing ≠ []
  | .approved i j signature nonce => locate engine pos = .ok (i, j) ∧
      engine.profile.typeAt i j = .humanApproval ∧
      verdictAt engine sid s pos i j evidence = .accepted signature nonce
  | .unapproved i j reason => locate engine pos = .ok (i, j) ∧
      engine.profile.typeAt i j = .humanApproval ∧
      verdictAt engine sid s pos i j evidence = .rejected reason

variable {engine host sid}

theorem routeAt_facts (s : SessionState) (pos : Position) (evidence : ChecklistEvidence) :
    RouteFacts engine sid s pos evidence (routeAt engine sid s pos evidence) := by
  unfold routeAt
  cases hloc : locate engine pos with
  | error e => exact hloc
  | ok ij =>
    obtain ⟨i, j⟩ := ij
    dsimp only
    cases hty : engine.profile.typeAt i j with
    | checklist =>
      dsimp only
      cases hm : missingCriteria (((engine.profile.stateAt i).subAt j).criteria.getD [])
          evidence with
      | nil =>
        dsimp only
        split
        · rename_i hfinal
          exact ⟨hloc, hty, hm, hfinal⟩
        · rename_i hfinal
          exact ⟨hloc, hty, hm, hfinal⟩
      | cons c missing => exact ⟨hloc, hty, hm.symm, List.cons_ne_nil _ _⟩
    | humanApproval =>
      dsimp only
      cases hc : check engine.vendor.ed sid pos ((engine.profile.stateAt i).subAt j)
          s.pendingApproval evidence with
      | accepted signature nonce => exact ⟨hloc, hty, hc⟩
      | rejected reason => exact ⟨hloc, hty, hc⟩
    | inject | execute | review => exact ⟨hloc, by rw [hty]; decide, by rw [hty]; decide⟩

/-- The facts of a route that is known. -/
theorem routeAt_eq {s : SessionState} {pos : Position} {evidence : ChecklistEvidence} {r : Route}
    (h : routeAt engine sid s pos evidence = r) : RouteFacts engine sid s pos evidence r := by
  rw [← h]
  exact routeAt_facts s pos evidence

/-- A located position is the place of its indices, and they are in range. -/
theorem locate_ok {pos : Position} {i j : Nat} (h : locate engine pos = .ok (i, j)) :
    i < engine.profile.pipeline.length ∧
      j < (engine.profile.stateAt i).subStates.length ∧ pos = engine.profile.place i j := by
  unfold locate at h
  split at h
  · cases h
  rename_i i' hi
  split at h
  · cases h
  rename_i j' hj
  cases h
  rw [List.findIdx?_eq_some_iff_getElem] at hi hj
  obtain ⟨hi, hmac, -⟩ := hi
  obtain ⟨hj, hsub, -⟩ := hj
  refine ⟨hi, hj, ?_⟩
  have hm : (engine.profile.stateAt i).stateId = pos.macroId := by
    rw [Profile.stateAt, getElem!_pos engine.profile.pipeline i hi]
    exact of_decide_eq_true hmac
  have hs : ((engine.profile.stateAt i).subAt j).id = pos.subStateId := by
    rw [StateDef.subAt, getElem!_pos _ j hj]
    exact of_decide_eq_true hsub
  rw [Profile.place, hm, hs]

end ProfileFsmEngine

end ProtocolEnforcer
