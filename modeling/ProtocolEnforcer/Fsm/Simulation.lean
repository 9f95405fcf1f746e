import ProtocolEnforcer.Fsm.Course

/-!
# The engine walks the course

`perform_course` connects the small steps to the engine: every call walks from
`ready`, and `Stops` says what went wrong where it ends short of its end.
-/

namespace ProtocolEnforcer

open Relation

namespace ProfileFsmEngine

variable (engine : ProfileFsmEngine) (host : Host) (sid : String)

/-- What a world shows of the session `sid`. -/
def snap (w : World SessionLedger) (stage : Stage) : Snapshot :=
  ⟨(w.sessions sid).map SessionState.timeless, w.ledger.events, stage⟩

/-- Something the landing relies on fails, which attempt `n` at the ledger ends. -/
def LandingFails (w : World SessionLedger) (i j : Nat) (initialContext : Option Json) (n : Nat) :
    Prop :=
  (∃ e, landingError engine host i j initialContext = some e) ∨
    engine.profile.typeAt i j = .humanApproval ∧ w.ledger.Refuses n

/-- Some landing fails. -/
def Hampered (w : World SessionLedger) : Prop :=
  ∃ i j initialContext n, LandingFails engine host w i j initialContext n

/-- What ends a call at a stage. -/
inductive Stops (w : World SessionLedger) (call : Call) (reply : Except FsmError Reply) :
    Stage → Prop where
  /-- Nothing happened. -/
  | ready (failed : ∀ r, reply ≠ .ok r) : Stops w call reply .ready
  | settled : Stops w call reply .settled
  | refused {pos evidence output} (hcall : call = .submit pos evidence output) :
      Stops w call reply .refused
  | struck {pos evidence output} (hcall : call = .submit pos evidence output) :
      Stops w call reply .struck
  | landed {pos evidence output i j} (hcall : call = .submit pos evidence output)
      (failed : ∀ r, reply ≠ .ok r) (why : Hampered engine host w) :
      Stops w call reply (.landed i j)
  | bumped {pos evidence output i j missing e} (hcall : call = .submit pos evidence output)
      (hroute : route engine sid (w.sessions sid) (host.clock w.ticks) pos evidence =
        .rejected i j missing) (refused : w.Refuses e) : Stops w call reply .bumped
  | spent {pos evidence output i j signature nonce e} (hcall : call = .submit pos evidence output)
      (hroute : route engine sid (w.sessions sid) (host.clock w.ticks) pos evidence =
        .approved i j signature nonce) (taken : w.Takes)
      (refused : w.ledger.outcome (w.ledger.attempts + 1) = .error e) : Stops w call reply .spent
  | passed {pos evidence output} (hcall : call = .submit pos evidence output)
      (why : (∃ n, w.ledger.Refuses n) ∨
        ∃ i e, firstEnabledIndex (engine.profile.stateAt i) = .error e ∧
          i < engine.profile.pipeline.length) : Stops w call reply .passed
  | unborn {initialContext e} (hcall : call = .start initialContext)
      (failed : ∀ r, reply ≠ .ok r) (valid : validated engine host = .ok ())
      (refused : w.Refuses e) : Stops w call reply .unborn
  | stillborn {initialContext m k} (hcall : call = .start initialContext)
      (failed : ∀ r, reply ≠ .ok r) (valid : validated engine host = .ok ())
      (entry : entryPoint engine = .ok (m, k)) (taken : w.Takes)
      (why : LandingFails engine host w 0 k initialContext (w.ledger.attempts + 1)) :
      Stops w call reply .stillborn

variable {engine host sid}

section

variable {w : World SessionLedger} {stage : Stage}

theorem snap_setSession (s : Option SessionState) :
    snap sid (w.setSession sid s) stage =
      ⟨s.map SessionState.timeless, w.ledger.events, stage⟩ := by
  rw [snap, World.setSession_sessions_self, World.setSession_ledger]

theorem snap_logged {s : SessionState} {event : FsmEvent} (hs : w.sessions sid = some s) :
    snap sid (w.logged event) stage =
      ⟨some s.timeless, w.ledger.events ++ [event], stage⟩ := by
  rw [snap, World.logged_sessions, hs, World.logged_events, Option.map_some]

theorem snap_of_session {s : SessionState} (hs : w.sessions sid = some s) :
    snap sid w stage = ⟨some s.timeless, w.ledger.events, stage⟩ := by
  rw [snap, hs, Option.map_some]

end

/-! ## Landing and advancing -/

variable {call : Call}

/-- A landing settles, or stays where it is with an error. -/
theorem Landing.course (call : Call) {i j : Nat} {initialContext : Option Json} {w : World SessionLedger}
    {s : SessionState} {out : Except FsmError (Position × RenderedInjection) × World SessionLedger}
    (land : Landing engine host sid i j initialContext w s out) (hs : w.sessions sid = some s)
    (here : s.position = some (engine.profile.place i j)) :
    (∃ r, out.1 = .ok r) ∧
        Course engine host sid call (snap sid w (.landed i j)) (snap sid out.2 .settled) ∨
      (∃ e, out.1 = .error e) ∧ snap sid out.2 (.landed i j) = snap sid w (.landed i j) ∧
        LandingFails engine host w i j initialContext w.ledger.attempts := by
  cases land with
  | unlandable fails => exact Or.inr ⟨⟨_, rfl⟩, rfl, Or.inl ⟨_, fails⟩⟩
  | arrived lands ungated =>
    rw [snap_of_session hs, snap_of_session hs]
    exact Or.inl ⟨⟨_, rfl⟩, .single (.arrive here ungated)⟩
  | unchallenged lands gate minted refused =>
    exact Or.inr ⟨⟨_, rfl⟩, rfl, Or.inr ⟨gate, _, refused⟩⟩
  | challenged lands gate minted taken =>
    dsimp only
    rw [snap_of_session hs, snap_setSession]
    exact Or.inl ⟨⟨_, rfl⟩, .single (.issue here rfl gate minted)⟩

/-- Advancing within a macro, from before the move was ledgered. -/
theorem Advance.course {i j : Nat} {pos : Position} {w : World SessionLedger} {s : SessionState}
    {out : Except FsmError StepOutcome × World SessionLedger} {stage : Stage}
    (adv : Advance engine host sid i j pos w s out) (hs : w.sessions sid = some s)
    (placed : Placed engine s pos i j)
    (hstage : stage = .ready ∧ engine.profile.typeAt i j ≠ .humanApproval ∧
        engine.profile.typeAt i j ≠ .checklist ∨
      stage = .spent ∧ engine.profile.typeAt i j = .humanApproval) :
    (∃ e e', out.1 = .error e ∧ w.Refuses e' ∧ snap sid out.2 stage = snap sid w stage) ∨
    (Course engine host sid call (snap sid w stage) (snap sid out.2 .settled)) ∨
    (∃ k, Course engine host sid call (snap sid w stage) (snap sid out.2 (.landed i k)) ∧
      (∃ e, out.1 = .error e) ∧ Hampered engine host w) := by
  cases adv with
  | refused refused => exact Or.inl ⟨_, _, rfl, refused, rfl⟩
  | @moved k next f out taken hk hnext land =>
    refine Or.inr ?_
    have hfirst : Step engine host sid call (snap sid w stage)
        (snap sid (movedTo host sid w s (.subStateAdvanced pos.subStateId next.subStateId) next)
          (.landed i k)) := by
      rw [snap_of_session hs, movedTo, snap_setSession]
      exact .advance (s := s.timeless) ⟨placed.active, placed.here, placed.located⟩ hstage hk hnext
    rcases land.course call (World.setSession_sessions_self _ _ _)
      (congrArg some hnext) with ⟨-, hcourse⟩ | ⟨⟨e, he⟩, hsame, why⟩
    · exact Or.inl (.head hfirst hcourse)
    · refine Or.inr ⟨k, .single (hsame.symm.subst (motive := Step engine host sid call _) hfirst),
        ⟨e, ?_⟩, _, _, _, _, why⟩
      rw [he]
      rfl

/-- How a handled submission ends: at a stage, by a walk that explains it. -/
def Walks (engine : ProfileFsmEngine) (host : Host) (sid : String) (call : Call)
    (w w' : World SessionLedger) (reply : Except FsmError Reply) (stage : Stage) : Prop :=
  Course engine host sid call (snap sid w .ready) (snap sid w' stage) ∧
    Stops engine host sid w call reply stage

/-- A breaker trips from any stage that trips it, or its append is refused. -/
theorem Tripped.course {b : CircuitBreakerType} {pos : Position} {w : World SessionLedger}
    {s : SessionState} {out : Except FsmError StepOutcome × World SessionLedger} {stage : Stage}
    (trip : Tripped host sid b pos w s out) (hs : w.sessions sid = some s)
    (active : s.status = .active) (here : s.position = some pos)
    (hstage : stage = .ready ∧ b = .globalTimeout ∨
      stage = .refused ∧ b = .approvalRejectionLimit ∨
      stage = .struck ∧ (b = .maxIterations ∨ b = .repetitiveLoop)) :
    (∃ e, out.1 = .error e) ∧ (snap sid out.2 stage = snap sid w stage ∨
      Course engine host sid call (snap sid w stage) (snap sid out.2 .settled)) := by
  cases trip with
  | refused => exact ⟨⟨_, rfl⟩, Or.inl rfl⟩
  | failed taken =>
    refine ⟨⟨_, rfl⟩, Or.inr (.single ?_)⟩
    rw [snap_of_session hs, snap_setSession]
    exact .trip (s := s.timeless) active here hstage

/-- The breaker of a rejected checklist is one of two. -/
theorem strikeBreaker_eq {i : Nat} {s : SessionState} {b : CircuitBreakerType}
    (h : strikeBreaker engine i s = some b) : b = .maxIterations ∨ b = .repetitiveLoop := by
  unfold strikeBreaker at h
  split at h
  · exact Or.inl (Option.some.inj h).symm
  · split at h
    · exact Or.inr (Option.some.inj h).symm
    · cases h

/-! ## Submissions -/

section

variable {w : World SessionLedger} {s : SessionState} {pos : Position}
  {evidence : ChecklistEvidence} {output : Option Json} {i j : Nat}
  {out : Except FsmError StepOutcome × World SessionLedger}

/-- A failed result is no reply. -/
theorem no_reply {α β : Type} {r : Except FsmError α} {e : FsmError} (f : α → β)
    (h : r = .error e) : ∀ b, r.map f ≠ .ok b := by
  rintro b hb
  rw [h] at hb
  cases hb

/-- The end of an advance that began at a stage other than `ready`, or at `ready`. -/
theorem Walks.of_advance {stage : Stage} {w₁ : World SessionLedger}
    (reach : Course engine host sid (.submit pos evidence output) (snap sid w .ready)
      (snap sid w₁ stage)) (ledger : w₁.ledger.outcome = w.ledger.outcome)
    (adv : Advance engine host sid i j pos w₁ s out) (hs : w₁.sessions sid = some s)
    (placed : Placed engine s pos i j)
    (hstage : stage = .ready ∧ engine.profile.typeAt i j ≠ .humanApproval ∧
        engine.profile.typeAt i j ≠ .checklist ∨
      stage = .spent ∧ engine.profile.typeAt i j = .humanApproval)
    (stuck : ∀ e, w₁.Refuses e → (∀ r, out.1.map Reply.stepped ≠ .ok r) →
      Stops engine host sid w (.submit pos evidence output) (out.1.map .stepped) stage) :
    ∃ stage, Walks engine host sid (.submit pos evidence output) w out.2 (out.1.map .stepped)
      stage := by
  have hampered : Hampered engine host w₁ → Hampered engine host w := by
    simp only [Hampered, LandingFails, SessionLedger.Refuses, ledger, imp_self]
  rcases adv.course hs placed hstage with ⟨e, e', he, hrefused, hsame⟩ | hcourse |
    ⟨k, hcourse, ⟨e, he⟩, why⟩
  · refine ⟨stage, ?_, stuck e' hrefused (no_reply _ he)⟩
    rw [hsame]
    exact reach
  · exact ⟨.settled, reach.trans hcourse, .settled⟩
  · exact ⟨.landed i k, reach.trans hcourse, .landed rfl (no_reply _ he) (hampered why)⟩

theorem Acceptance.course {signature nonce : String}
    (accept : Acceptance engine host sid i j pos signature nonce w.tick s out)
    (hs : w.sessions sid = some s) (placed : Placed engine s pos i j)
    (gate : engine.profile.typeAt i j = .humanApproval)
    (verdict : verdictAt engine sid s pos i j evidence = .accepted signature nonce)
    (hroute : route engine sid (w.sessions sid) (host.clock w.ticks) pos evidence =
      .approved i j signature nonce) :
    ∃ stage, Walks engine host sid (.submit pos evidence output) w out.2 (out.1.map .stepped)
      stage := by
  cases accept with
  | refused refused => exact ⟨.ready, .refl, .ready (no_reply _ rfl)⟩
  | accepted taken advance =>
    have hfirst : Step engine host sid (.submit pos evidence output) (snap sid w .ready)
        (snap sid (approvedAt host sid pos signature nonce w.tick) .spent) := by
      rw [snap_of_session hs, snap_of_session (show (approvedAt host sid pos signature nonce
        w.tick).sessions sid = some s from hs)]
      exact .approve (s := s.timeless) ⟨placed.active, placed.here, placed.located⟩ rfl gate verdict
    exact Walks.of_advance (.single hfirst) rfl advance hs placed
      (Or.inr ⟨rfl, gate⟩) fun e hrefused _ => .spent rfl hroute taken hrefused

theorem Refusal.course {reason : String} (refuse : Refusal engine host sid pos reason w.tick s out)
    (hs : w.sessions sid = some s) (placed : Placed engine s pos i j)
    (gate : engine.profile.typeAt i j = .humanApproval)
    (verdict : verdictAt engine sid s pos i j evidence = .rejected reason) :
    ∃ stage, Walks engine host sid (.submit pos evidence output) w out.2 (out.1.map .stepped)
      stage := by
  have hfirst : Step engine host sid (.submit pos evidence output) (snap sid w .ready)
      (snap sid (refusedAt host sid pos reason w.tick s) .refused) := by
    rw [snap_of_session hs, refusedAt, snap_setSession]
    exact .refuse (s := s.timeless) ⟨placed.active, placed.here, placed.located⟩ rfl gate verdict
  cases refuse with
  | refused refused => exact ⟨.ready, .refl, .ready (no_reply _ rfl)⟩
  | counted taken below => exact ⟨.refused, .single hfirst, .refused rfl⟩
  | tripped taken capped trip =>
    obtain ⟨-, hsame | hcourse⟩ := trip.course (World.setSession_sessions_self _ _ _)
      placed.active placed.here (Or.inr (Or.inl ⟨rfl, rfl⟩))
    · exact ⟨.refused, by rw [hsame]; exact .single hfirst, .refused rfl⟩
    · exact ⟨.settled, .head hfirst hcourse, .settled⟩

theorem Rejection.course {missing : List String}
    (reject : Rejection engine host sid i pos missing evidence w.tick
      (s.strikeOut (sortedKeys evidence.keys)) out)
    (hs : w.sessions sid = some s) (placed : Placed engine s pos i j)
    (checklist : engine.profile.typeAt i j = .checklist)
    (hmissing : missing = missingCriteria (criteriaAt engine i j) evidence) (hne : missing ≠ [])
    (hroute : route engine sid (w.sessions sid) (host.clock w.ticks) pos evidence =
      .rejected i j missing) :
    ∃ stage, Walks engine host sid (.submit pos evidence output) w out.2 (out.1.map .stepped)
      stage := by
  have placed' : Placed engine (s.strikeOut (sortedKeys evidence.keys)).timeless pos i j :=
    ⟨placed.active, placed.here, placed.located⟩
  have hcount : Step engine host sid (.submit pos evidence output) (snap sid w .ready)
      (snap sid (w.tick.setSession sid (some (s.strikeOut (sortedKeys evidence.keys))))
        .bumped) := by
    rw [snap_of_session hs, snap_setSession]
    exact .strike (s := s.timeless) ⟨placed.active, placed.here, placed.located⟩ rfl checklist
      (hmissing.symm.trans_ne hne)
  have hledger : Step engine host sid (.submit pos evidence output)
      (snap sid (w.tick.setSession sid (some (s.strikeOut (sortedKeys evidence.keys)))) .bumped)
      (snap sid (struckAt host sid pos missing evidence w.tick
        (s.strikeOut (sortedKeys evidence.keys))) .struck) := by
    rw [snap_setSession, snap_of_session (show (struckAt host sid pos missing evidence w.tick
      (s.strikeOut (sortedKeys evidence.keys))).sessions sid = some _ from
        World.setSession_sessions_self _ _ _)]
    exact .reject placed' rfl checklist hmissing
  have hstruck : Course engine host sid (.submit pos evidence output) (snap sid w .ready)
      (snap sid (struckAt host sid pos missing evidence w.tick
        (s.strikeOut (sortedKeys evidence.keys))) .struck) := .head hcount (.single hledger)
  cases reject with
  | refused refused => exact ⟨.bumped, .single hcount, .bumped rfl hroute refused⟩
  | rejected | loopStuck | loopRefused => exact ⟨.struck, hstruck, .struck rfl⟩
  | tripped taken trips trip =>
    obtain ⟨-, hsame | hcourse⟩ := trip.course (World.setSession_sessions_self _ _ _)
      placed.active placed.here (Or.inr (Or.inr ⟨rfl, strikeBreaker_eq trips⟩))
    · exact ⟨.struck, by rw [hsame]; exact hstruck, .struck rfl⟩
    · exact ⟨.settled, hstruck.trans hcourse, .settled⟩
  | looped taken holds hloops renders hk htarget taken' =>
    refine ⟨.settled, hstruck.tail ?_, .settled⟩
    rw [snap_of_session (show (struckAt host sid pos missing evidence w.tick
      (s.strikeOut (sortedKeys evidence.keys))).sessions sid = some _ from
        World.setSession_sessions_self _ _ _), snap_setSession]
    exact .loopBack placed' checklist hloops hk htarget

theorem MacroAdvance.course (adv : MacroAdvance engine host sid i pos w.tick s out)
    (hs : w.sessions sid = some s) (placed : Placed engine s pos i j)
    (checklist : engine.profile.typeAt i j = .checklist)
    (hmet : missingCriteria (criteriaAt engine i j) evidence = [])
    (hnotLast : i ≠ engine.profile.pipeline.length - 1) :
    ∃ stage, Walks engine host sid (.submit pos evidence output) w out.2 (out.1.map .stepped)
      stage := by
  have hlast : i + 1 < engine.profile.pipeline.length := by
    have := (locate_ok placed.located).1
    omega
  have hs₁ : (acceptedAt host sid pos w.tick).sessions sid = some s := hs
  have hfirst : Step engine host sid (.submit pos evidence output) (snap sid w .ready)
      (snap sid (acceptedAt host sid pos w.tick) .passed) := by
    rw [snap_of_session hs, snap_of_session hs₁]
    exact .pass (s := s.timeless) ⟨placed.active, placed.here, placed.located⟩ rfl checklist hmet
  cases adv with
  | refused refused => exact ⟨.ready, .refl, .ready (no_reply _ rfl)⟩
  | unentered taken none =>
    exact ⟨.passed, .single hfirst, .passed rfl (Or.inr ⟨i + 1, _, none, hlast⟩)⟩
  | stranded taken hk refused =>
    exact ⟨.passed, .single hfirst, .passed rfl (Or.inl ⟨_, _, refused⟩)⟩
  | @moved k next f out taken hk hnext taken' land =>
    have hmove : Step engine host sid (.submit pos evidence output)
        (snap sid (acceptedAt host sid pos w.tick) .passed)
        (snap sid ((movedTo host sid (acceptedAt host sid pos w.tick) s
          (.macroAdvanced pos.macroId next.macroId) next).setSession sid
            (some (s.reposition next (host.clock (w.tick.ticks + 2))).resetMacro)) (.landed (i + 1) k)) := by
      rw [snap_of_session hs₁, snap_setSession]
      exact .nextMacro (s := s.timeless) ⟨placed.active, placed.here, placed.located⟩ checklist
        hlast hk hnext
    rcases land.course (.submit pos evidence output)
      (World.setSession_sessions_self _ _ _) (congrArg some hnext) with
      ⟨-, hcourse⟩ | ⟨⟨e, he⟩, hsame, why⟩
    · exact ⟨.settled, .head hfirst (.head hmove hcourse), .settled⟩
    · refine ⟨.landed (i + 1) k, ?_, .landed rfl (no_reply Reply.stepped (e := e) ?_)
        ⟨_, _, _, _, why⟩⟩
      · dsimp only
        rw [hsame]
        exact .head hfirst (.single hmove)
      · rw [he]
        rfl

theorem Completion.course (complete : Completion engine host sid pos output w.tick s out)
    (hs : w.sessions sid = some s) (placed : Placed engine s pos i j)
    (checklist : engine.profile.typeAt i j = .checklist)
    (hmet : missingCriteria (criteriaAt engine i j) evidence = [])
    (hfinal : i = engine.profile.pipeline.length - 1) :
    ∃ stage, Walks engine host sid (.submit pos evidence output) w out.2 (out.1.map .stepped)
      stage := by
  have hlast : i + 1 = engine.profile.pipeline.length := by
    have := (locate_ok placed.located).1
    omega
  have hs₁ : (acceptedAt host sid pos w.tick).sessions sid = some s := hs
  have placed' : Placed engine s.timeless pos i j := ⟨placed.active, placed.here, placed.located⟩
  have hfirst : Step engine host sid (.submit pos evidence output) (snap sid w .ready)
      (snap sid (acceptedAt host sid pos w.tick) .passed) := by
    rw [snap_of_session hs, snap_of_session hs₁]
    exact .pass placed' rfl checklist hmet
  cases complete with
  | unverified | untraced | refused => exact ⟨.ready, .refl, .ready (no_reply _ rfl)⟩
  | violated verified fails taken =>
    refine ⟨.settled, .single ?_, .settled⟩
    dsimp only
    rw [snap_of_session hs, snap_logged (w := w.tick) hs]
    exact .violate placed' checklist
  | stranded verified meets taken refused =>
    exact ⟨.passed, .single hfirst, .passed rfl (Or.inl ⟨_, _, refused⟩)⟩
  | completed verified meets taken taken' =>
    refine ⟨.settled, .head hfirst (.single ?_), .settled⟩
    dsimp only
    rw [snap_of_session hs₁, snap_setSession]
    exact .complete placed' checklist hlast

/-- A submission that step 1 lets through walks the course of its route. -/
theorem Handling.course (handling : Handling engine host sid pos evidence output w.tick s out)
    (hs : w.sessions sid = some s) (active : s.status = .active) (here : s.position = some pos)
    (hroute : route engine sid (w.sessions sid) (host.clock w.ticks) pos evidence =
      routeAt engine sid s pos evidence) :
    ∃ stage, Walks engine host sid (.submit pos evidence output) w out.2 (out.1.map .stepped)
      stage := by
  cases handling with
  | lost => exact ⟨.ready, .refl, .ready (no_reply _ rfl)⟩
  | plain hr advance =>
    obtain ⟨hloc, hgate, hlist⟩ := routeAt_eq hr
    have reach : Course engine host sid (.submit pos evidence output) (snap sid w .ready)
        (snap sid w.tick .ready) := .refl
    exact Walks.of_advance reach rfl advance hs
      ⟨active, here, hloc⟩ (Or.inl ⟨rfl, hgate, hlist⟩) fun e _ hno => .ready hno
  | passed hr advance =>
    obtain ⟨hloc, hlist, hmet, hnotLast⟩ := routeAt_eq hr
    exact advance.course hs ⟨active, here, hloc⟩ hlist hmet hnotLast
  | final hr complete =>
    obtain ⟨hloc, hlist, hmet, hfinal⟩ := routeAt_eq hr
    exact complete.course hs ⟨active, here, hloc⟩ hlist hmet hfinal
  | rejected hr reject =>
    obtain ⟨hloc, hlist, hmissing, hne⟩ := routeAt_eq hr
    exact reject.course hs ⟨active, here, hloc⟩ hlist hmissing hne (hroute.trans hr)
  | approved hr accept =>
    obtain ⟨hloc, hgate, hverdict⟩ := routeAt_eq hr
    exact accept.course hs ⟨active, here, hloc⟩ hgate hverdict (hroute.trans hr)
  | unapproved hr refuse =>
    obtain ⟨hloc, hgate, hverdict⟩ := routeAt_eq hr
    exact refuse.course hs ⟨active, here, hloc⟩ hgate hverdict

theorem Submission.course (submission : Submission engine host sid pos evidence output w out) :
    ∃ stage, Walks engine host sid (.submit pos evidence output) w out.2 (out.1.map .stepped)
      stage := by
  cases submission with
  | refused fails => exact ⟨.ready, .refl, .ready (no_reply _ rfl)⟩
  | late hc hlate trip =>
    obtain ⟨hs, active, here⟩ := checkSubmission_ok.mp hc
    obtain ⟨⟨e, he⟩, hsame | hcourse⟩ := trip.course (w := w.tick) hs active here
      (Or.inl ⟨rfl, rfl⟩)
    · exact ⟨.ready, by rw [hsame]; exact .refl, .ready (no_reply _ he)⟩
    · exact ⟨.settled, hcourse, .settled⟩
  | handled hc hlate handling =>
    obtain ⟨hs, active, here⟩ := checkSubmission_ok.mp hc
    exact handling.course hs active here (route_handled hc hlate)

end

/-! ## Starting, storing, recovering -/

/-- The entry point is the first macro's first enabled sub-state. -/
theorem entryPoint_ok {m : StateDef} {k : Nat} (h : entryPoint engine = .ok (m, k)) :
    m = engine.profile.stateAt 0 ∧ firstEnabledIndex m = .ok k ∧
      0 < engine.profile.pipeline.length := by
  unfold entryPoint at h
  cases hp : engine.profile.pipeline with
  | nil =>
    rw [hp] at h
    cases h
  | cons first rest =>
    rw [hp] at h
    change (firstEnabledIndex first).map (first, ·) = _ at h
    cases hk : firstEnabledIndex first with
    | error e =>
      rw [hk] at h
      cases h
    | ok k' =>
      rw [hk] at h
      cases h
      exact ⟨by rw [Profile.stateAt, hp]; rfl, hk, by rw [List.length_cons]; omega⟩

theorem entryPoint_place {m : StateDef} {k : Nat} (h : entryPoint engine = .ok (m, k)) :
    (⟨m.stateId, (m.subAt k).id⟩ : Position) = engine.profile.place 0 k := by
  obtain ⟨rfl, -, -⟩ := entryPoint_ok h
  rfl

theorem Starting.course {initialContext : Option Json} {w : World SessionLedger}
    {out : Except FsmError StepView × World SessionLedger}
    (starting : Starting engine host sid initialContext w out) :
    ∃ stage, Walks engine host sid (.start initialContext) w out.2 (out.1.map .started) stage := by
  -- once the start is ledgered, the fresh session has landed on the entry point
  have hborn : ∀ {m k}, entryPoint engine = .ok (m, k) →
      Step engine host sid (.start initialContext) (snap sid w .ready)
        (snap sid (startedAt engine host sid initialContext ⟨m.stateId, (m.subAt k).id⟩ w)
          (.landed 0 k)) := by
    intro m k entry
    rw [snap_of_session (show (startedAt engine host sid initialContext
      ⟨m.stateId, (m.subAt k).id⟩ w).sessions sid = some _ from
        World.setSession_sessions_self _ _ _)]
    exact .start rfl entry rfl
  cases starting with
  | invalid | unentered => exact ⟨.ready, .refl, .ready (no_reply _ rfl)⟩
  | refused valid entry refused ledger gone =>
    refine ⟨.unborn, .single ?_, .unborn rfl (no_reply _ rfl) valid refused⟩
    rw [snap, snap, gone, ledger]
    exact .unborn rfl
  | @stuck m k e w' valid entry taken land =>
    rcases land.course (.start initialContext) (World.setSession_sessions_self _ _ _)
      (congrArg some (entryPoint_place entry)) with ⟨⟨r, hr⟩, -⟩ | ⟨-, hsame, why⟩
    · cases hr
    · refine ⟨.stillborn, .head (hborn entry) (.single ?_),
        .stillborn rfl (no_reply _ rfl) valid entry taken why⟩
      dsimp only at hsame ⊢
      rw [← hsame, snap_setSession, snap]
      exact .abort rfl
  | started valid entry taken land =>
    rcases land.course (.start initialContext) (World.setSession_sessions_self _ _ _)
      (congrArg some (entryPoint_place entry)) with ⟨-, hcourse⟩ | ⟨⟨e, he⟩, hsame, why⟩
    · exact ⟨.settled, .head (hborn entry) hcourse, .settled⟩
    · cases he

theorem Storing.course {stepId : String} {data : Bytes} {mimeType : String}
    {w : World SessionLedger} {out : Except FsmError ArtifactRef × World SessionLedger}
    (storing : Storing host sid w out) :
    ∃ stage, Walks engine host sid (.store stepId data mimeType) w out.2 (out.1.map .stored)
      stage := by
  cases storing with
  | failed | refused => exact ⟨.ready, .refl, .ready (no_reply _ rfl)⟩
  | stored hs active taken =>
    refine ⟨.settled, .single ?_, .settled⟩
    rw [snap_of_session hs, snap_setSession]
    exact .store (s := SessionState.timeless _) active rfl

theorem Recovering.course {w : World SessionLedger}
    {out : Except FsmError SessionState × World SessionLedger}
    (recovering : Recovering engine sid w out) :
    ∃ stage, Walks engine host sid .recover w out.2 (out.1.map .recovered) stage := by
  cases recovering with
  | failed => exact ⟨.ready, .refl, .ready (no_reply _ rfl)⟩
  | recovered hs =>
    refine ⟨.settled, .single ?_, .settled⟩
    rw [snap, snap_setSession]
    exact .recover rfl hs

/-- **Every call walks the course**, to a stage whose reason is known. -/
theorem perform_course (w : World SessionLedger) :
    ∃ stage, Walks engine host sid call w (perform engine sid host call w).2
      (perform engine sid host call w).1 stage := by
  cases call with
  | start => exact (exec_startSession).course
  | submit => exact (exec_submitMilestone).course
  | store => exact (exec_storeArtifact).course
  | recover => exact (exec_recoverSession).course

/-! ## Runs -/

variable (engine sid) in
/-- The moments of a run: the small steps of its calls, and from a call to the next. -/
inductive Move : Snapshot → Snapshot → Prop where
  | step {host call c d} (h : Step engine host sid call c d) : Move c d
  | next {c : Snapshot} : Move c { c with stage := .ready }

/-- A run appends one event at a time. -/
theorem move_growing : Runs.Growing (Move engine sid) (fun c => c.events) := by
  intro c d h
  cases h with
  | step hstep => exact step_growing engine _ sid _ hstep
  | next => exact Or.inl rfl

/-- **A run of calls is a run of moments.** -/
theorem run_moves (w : World SessionLedger) (calls : List (Host × Call)) :
    ReflTransGen (Move engine sid) (snap sid w .ready)
      (snap sid (runCalls engine sid w calls) .ready) := by
  induction calls generalizing w with
  | nil => exact .refl
  | cons x rest ih =>
    obtain ⟨host, call⟩ := x
    obtain ⟨stage, course, -⟩ := @perform_course engine host sid call w
    have hcall : ReflTransGen (Move engine sid) (snap sid w .ready)
        (snap sid (perform engine sid host call w).2 stage) :=
      course.lift id fun _ _ => .step
    exact (hcall.tail .next).trans (ih _)

end ProfileFsmEngine

end ProtocolEnforcer
