import ProtocolEnforcer.Fsm.Fidelity

/-!
# Steps that fail

A submission can fail for want of a library file or of entropy after the ledger has
taken its move. `Lands` is the condition under which it does not, and
`failed_step_clean_iff` says it is exact: under it, and only under it, an error that is
neither a breaker's nor the ledger's leaves the session where it was.
-/

namespace ProtocolEnforcer

/-- Where a session stands: position, status, challenge and counters. -/
structure Standing where
  position : Option Position
  status : SessionStatus
  pendingApproval : Option ApprovalChallenge
  macroIteration : UInt32
  consecutiveIdenticalRejections : UInt32
  lastRejectedEvidenceKeys : List String
  consecutiveApprovalRejections : UInt32
  deriving DecidableEq

def SessionState.standing (s : SessionState) : Standing where
  position := s.position
  status := s.status
  pendingApproval := s.pendingApproval
  macroIteration := s.macroIteration
  consecutiveIdenticalRejections := s.consecutiveIdenticalRejections
  lastRejectedEvidenceKeys := s.lastRejectedEvidenceKeys
  consecutiveApprovalRejections := s.consecutiveApprovalRejections

/-- An error of a step itself, not of a breaker or of the ledger. -/
def FsmError.ofStep : FsmError → Bool
  | .circuitBreaker _ _ | .ledger _ => false
  | _ => true

namespace ProfileFsmEngine

variable (engine : ProfileFsmEngine) (host : Host) (sid : String)

/-- A result that, when the step failed, leaves the session's standing as it was, and
answers every later submission as if the failed one had not been made. -/
def Clean {α : Type} (w : World SessionLedger) (out : Except FsmError α × World SessionLedger) :
    Prop :=
  ∀ e, out.1 = .error e → e.ofStep = true →
    (out.2.sessions sid).map SessionState.standing =
      (w.sessions sid).map SessionState.standing ∧
    ∀ host' pos evidence output,
      (Effect.exec (submitMilestone engine host' sid pos evidence output) out.2).1 =
        (Effect.exec (submitMilestone engine host' sid pos evidence output)
          ⟨out.2.ledger, w.sessions, out.2.ticks⟩).1

/-- Where the appends before its landing are taken, the submission's landing does not
fail: what it moves to renders, and its challenge can be minted. -/
def Lands (w : World SessionLedger) (evidence : ChecklistEvidence) : Route → Prop
  | .plain i j => w.Takes →
      landingError engine host i (nextEnabledIndex (engine.profile.stateAt i) j) none = none
  | .approved i j _ _ => w.Takes → w.ledger.outcome (w.ledger.attempts + 1) = .ok () →
      landingError engine host i (nextEnabledIndex (engine.profile.stateAt i) j) none = none
  | .passed i _ => w.Takes → w.ledger.outcome (w.ledger.attempts + 1) = .ok () →
      ∀ k, firstEnabledIndex (engine.profile.stateAt (i + 1)) = .ok k →
        landingError engine host (i + 1) k none = none
  | .rejected i _ _ => w.Takes →
      (∀ s, w.sessions sid = some s →
        strikeBreaker engine i (s.strikeOut (sortedKeys evidence.keys)) = none) →
      loops engine i = true → loopError engine host i = none
  | _ => True

variable {engine host sid}

/-! ## Clean ends and others -/

section

variable {α : Type} {w w' : World SessionLedger} {r : Except FsmError α}

theorem clean_of_not_ofStep (h : ∀ e, r = .error e → e.ofStep = false) :
    Clean engine sid w (r, w') := by
  intro e he hstep
  rw [h e he] at hstep
  cases hstep

theorem clean_ok {a : α} : Clean engine sid w (.ok a, w') := clean_of_not_ofStep nofun

theorem clean_ledger {e : LedgerError} :
    Clean engine sid w ((.error (.ledger e) : Except FsmError α), w') := by
  refine clean_of_not_ofStep ?_
  rintro _ h
  cases h
  rfl

/-- A step that did not touch the sessions is clean. -/
theorem clean_of_sessions (h : w'.sessions = w.sessions) : Clean engine sid w (r, w') := by
  intro e _ _
  refine ⟨by rw [h], fun host' pos evidence output => ?_⟩
  rw [← h]

/-- A failed step is not clean when its session stands elsewhere. -/
theorem not_clean {e : FsmError} {s s' : SessionState} (hs : w.sessions sid = some s)
    (hs' : w'.sessions sid = some s') (hstep : e.ofStep = true)
    (hne : s'.standing ≠ s.standing) :
    ¬Clean engine sid w ((.error e : Except FsmError α), w') := by
  intro h
  have hsame := (h e rfl hstep).1
  rw [hs, hs', Option.map_some, Option.map_some] at hsame
  exact hne (Option.some.inj hsame)

end

theorem landingError_ofStep {i j : Nat} {initialContext : Option Json} {e : FsmError}
    (h : landingError engine host i j initialContext = some e) : e.ofStep = true := by
  rcases landingError_kind h with ⟨m, rfl⟩ | ⟨m, rfl⟩ <;> rfl

theorem loopError_ofStep {i : Nat} {e : FsmError} (h : loopError engine host i = some e) :
    e.ofStep = true := by
  rcases loopError_kind h with ⟨m, rfl⟩ | ⟨m, rfl⟩ <;> rfl

theorem Tripped.clean {b : CircuitBreakerType} {pos : Position} {w w' : World SessionLedger}
    {s : SessionState} {out : Except FsmError StepOutcome × World SessionLedger}
    (trip : Tripped host sid b pos w' s out) : Clean engine sid w out := by
  cases trip with
  | refused => exact clean_ledger
  | failed =>
    refine clean_of_not_ofStep ?_
    rintro _ h
    cases h
    rfl

/-- A landing that fails otherwise than at the ledger has moved the session already. -/
theorem Landing.clean_iff {α : Type} {i j : Nat} {w w' : World SessionLedger}
    {s s' : SessionState} {out : Except FsmError (Position × RenderedInjection) × World SessionLedger}
    {f : Position × RenderedInjection → α} (land : Landing engine host sid i j none w' s' out)
    (hs : w.sessions sid = some s) (hs' : w'.sessions sid = some s')
    (hne : s'.position ≠ s.position) :
    Clean engine sid w (out.1.map f, out.2) ↔ landingError engine host i j none = none := by
  cases land with
  | unlandable fails =>
    refine iff_of_false (not_clean hs hs' (landingError_ofStep fails) fun h =>
      hne (congrArg Standing.position h)) ?_
    rw [fails]
    nofun
  | arrived lands | challenged lands => exact iff_of_true clean_ok lands
  | unchallenged lands => exact iff_of_true clean_ledger lands

/-! ## Submissions -/

section

variable {ed : Ed25519} {w : World SessionLedger} {s : SessionState} {pos : Position}
  {evidence : ChecklistEvidence} {output : Option Json} {i j : Nat}
  {out : Except FsmError StepOutcome × World SessionLedger}

/-- An advance within a macro, at a world whose sessions are those of `w`. -/
theorem Advance.clean_iff {w₁ : World SessionLedger} (adv : Advance engine host sid i j pos w₁ s out)
    (wf : engine.profile.WellFormed ed) (hs : w.sessions sid = some s)
    (hsame : w₁.sessions = w.sessions) (placed : Placed engine s pos i j)
    (hty : engine.profile.typeAt i j ≠ .checklist) :
    Clean engine sid w out ↔ (w₁.Takes →
      landingError engine host i (nextEnabledIndex (engine.profile.stateAt i) j) none = none) := by
  obtain ⟨hi, hj, hplace⟩ := locate_ok placed.located
  cases adv with
  | refused refused =>
    exact iff_of_true (clean_of_sessions hsame) fun htakes =>
      absurd (htakes.symm.trans refused) nofun
  | @moved k next f out taken hk hnext land =>
    subst hk
    rw [land.clean_iff hs (World.setSession_sessions_self _ _ _) ?_]
    · exact ⟨fun h _ => h, fun h => h taken⟩
    · show some next ≠ s.position
      rw [placed.here, hnext, hplace]
      exact fun h => place_next_ne wf ⟨hi, hj⟩ hty (Option.some.inj h)

theorem MacroAdvance.clean_iff (adv : MacroAdvance engine host sid i pos w.tick s out)
    (wf : engine.profile.WellFormed ed) (hs : w.sessions sid = some s)
    (placed : Placed engine s pos i j) (hnotLast : i ≠ engine.profile.pipeline.length - 1) :
    Clean engine sid w out ↔ Lands engine host sid w evidence (.passed i j) := by
  obtain ⟨hi, hj, hplace⟩ := locate_ok placed.located
  have hlast : i + 1 < engine.profile.pipeline.length := by omega
  cases adv with
  | refused refused =>
    exact iff_of_true clean_ledger fun htakes => absurd (htakes.symm.trans refused) nofun
  | unentered taken none =>
    refine iff_of_true (clean_of_sessions rfl) fun _ _ k hk => ?_
    rw [none] at hk
    cases hk
  | stranded taken hk refused =>
    exact iff_of_true clean_ledger fun _ htakes => absurd (htakes.symm.trans refused) nofun
  | @moved k next f out taken hk hnext taken' land =>
    rw [land.clean_iff hs (World.setSession_sessions_self _ _ _) ?_]
    · constructor
      · intro h _ _ k' hk'
        rw [hk] at hk'
        cases hk'
        exact h
      · exact fun h => h taken taken' k hk
    · show some next ≠ s.position
      rw [placed.here, hnext, hplace]
      exact fun h => place_macro_ne wf ⟨hi, hj⟩ hlast hk (Option.some.inj h)

theorem Rejection.clean_iff {missing : List String}
    (reject : Rejection engine host sid i pos missing evidence w.tick
      (s.strikeOut (sortedKeys evidence.keys)) out) (hs : w.sessions sid = some s) :
    Clean engine sid w out ↔ Lands engine host sid w evidence (.rejected i j missing) := by
  cases reject with
  | refused refused =>
    exact iff_of_true clean_ledger fun htakes => absurd (htakes.symm.trans refused) nofun
  | tripped taken trips trip =>
    refine iff_of_true trip.clean fun _ holds => ?_
    rw [holds s hs] at trips
    cases trips
  | loopStuck taken holds hloops stuck =>
    refine iff_of_false (not_clean hs (World.setSession_sessions_self _ _ _)
      (loopError_ofStep stuck) fun h => ?_) fun h => ?_
    · have hcount : s.macroIteration + 1 = s.macroIteration :=
        congrArg Standing.macroIteration h
      simp at hcount
    · have hnone := h taken (fun s' hs' => by rw [hs] at hs'; cases hs'; exact holds) hloops
      rw [stuck] at hnone
      cases hnone
  | loopRefused taken holds hloops renders =>
    exact iff_of_true clean_ledger fun _ _ _ => renders
  | looped taken holds hloops renders => exact iff_of_true clean_ok fun _ _ _ => renders
  | rejected taken holds stays =>
    exact iff_of_true clean_ok fun _ _ hloops => absurd (hloops.symm.trans stays) nofun

theorem Completion.clean (complete : Completion engine host sid pos output w.tick s out) :
    Clean engine sid w out := by
  cases complete with
  | unverified | violated => exact clean_of_sessions rfl
  | untraced | refused | stranded => exact clean_ledger
  | completed => exact clean_ok

theorem Submission.clean_iff (submission : Submission engine host sid pos evidence output w out)
    (wf : engine.profile.WellFormed ed) :
    Clean engine sid w out ↔ Lands engine host sid w evidence
      (route engine sid (w.sessions sid) (host.clock w.ticks) pos evidence) := by
  cases submission with
  | refused fails =>
    rw [route_refused fails]
    exact iff_of_true (clean_of_sessions rfl) trivial
  | late hc hlate trip =>
    rw [route_late hc hlate]
    exact iff_of_true trip.clean trivial
  | handled hc hlate handling =>
    rw [route_handled hc hlate]
    obtain ⟨hs, active, here⟩ := checkSubmission_ok.mp hc
    cases handling with
    | lost hroute =>
      rw [hroute]
      exact iff_of_true (clean_of_sessions rfl) trivial
    | plain hroute advance =>
      obtain ⟨hloc, -, hlist⟩ := routeAt_eq hroute
      rw [hroute]
      exact advance.clean_iff wf hs rfl ⟨active, here, hloc⟩ hlist
    | passed hroute advance =>
      obtain ⟨hloc, -, -, hnotLast⟩ := routeAt_eq hroute
      rw [hroute]
      exact advance.clean_iff wf hs ⟨active, here, hloc⟩ hnotLast
    | final hroute complete =>
      rw [hroute]
      exact iff_of_true complete.clean trivial
    | rejected hroute reject =>
      rw [hroute]
      exact reject.clean_iff hs
    | approved hroute accept =>
      obtain ⟨hloc, hgate, -⟩ := routeAt_eq hroute
      rw [hroute]
      cases accept with
      | refused refused =>
        exact iff_of_true clean_ledger fun htakes => absurd (htakes.symm.trans refused) nofun
      | accepted taken advance =>
        rw [advance.clean_iff wf hs rfl ⟨active, here, hloc⟩ (by rw [hgate]; decide)]
        exact ⟨fun h _ => h, fun h => h taken⟩
    | unapproved hroute refuse =>
      rw [hroute]
      cases refuse with
      | refused => exact iff_of_true clean_ledger trivial
      | tripped _ _ trip => exact iff_of_true trip.clean trivial
      | counted => exact iff_of_true clean_ok trivial

/-- **When a failed step is clean.** For a validated profile, in every state and for
every submission: an error of the step leaves the session's standing as it was, and
later submissions unaffected, exactly when what the submission moves to renders and
its challenge can be minted. -/
theorem failed_step_clean_iff {vendor : Vendor} {library : Library} {p : Profile}
    {config : FsmConfig} (hvalid : validateProfile vendor.toSchemas library p = .ok ()) :
    Clean (new vendor p config) sid w
        (Effect.exec (submitMilestone (new vendor p config) host sid pos evidence output) w) ↔
      Lands (new vendor p config) host sid w evidence
        (route (new vendor p config) sid (w.sessions sid) (host.clock w.ticks) pos evidence) :=
  (exec_submitMilestone).clean_iff (validateProfile_wellFormed hvalid)

end

end ProfileFsmEngine

namespace Sample

open ProfileFsmEngine

/-- An `execute` sub-state that injects a library skill. -/
def polish : SubStateDef :=
  { id := "polish", subStateType := .execute, inject := some { skill := some "guide" } }

/-- A host whose library still held the skill when the profile was validated. -/
def forgetfulHost : Host := { host with validation := ⟨"library", fun _ => .ok "text"⟩ }

/-- A session at `draft`, before `polish`. -/
def drafting : World SessionLedger :=
  runCalls (engine [draft, polish, checklist]) "s1" (world fun _ => .ok ())
    [(forgetfulHost, .start none)]

end Sample

namespace ProfileFsmEngine

/-- A submission at another sub-state than the session's fails, and leaves nothing behind. -/
theorem failed_step_clean_mismatched :
    let engine := Sample.engine [Sample.draft, Sample.checklist]
    let w := runCalls engine "s1" (Sample.world fun _ => .ok ()) [(Sample.host, .start none)]
    let out := Effect.exec (submitMilestone engine Sample.host "s1" ⟨"plan", "check"⟩ Sample.done
      none) w
    out.1.map (fun _ => ()) = .error (.stepMismatch "plan/draft" "plan/check") ∧
      Clean engine "s1" w out := by
  intro engine w out
  have hroute : route engine "s1" (w.sessions "s1") (Sample.host.clock w.ticks) ⟨"plan", "check"⟩
      Sample.done = .refused (.stepMismatch "plan/draft" "plan/check") := rfl
  have hlands : Lands engine Sample.host "s1" w Sample.done (route engine "s1" (w.sessions "s1")
      (Sample.host.clock w.ticks) ⟨"plan", "check"⟩ Sample.done) := by
    rw [hroute]
    trivial
  exact ⟨by decide +kernel, (failed_step_clean_iff Sample.drafted_valid).mpr hlands⟩

/-- A skill file gone since validation: the submission at `draft` fails, the session
stands on `polish`, and the same submission is now a mismatch. -/
theorem failed_step_moves_session :
    (let out := Effect.exec (submitMilestone (Sample.engine [Sample.draft, Sample.polish,
        Sample.checklist]) Sample.forgetfulHost "s1" ⟨"plan", "draft"⟩ .empty none) Sample.drafting
     out.1.map (fun _ => ()) = .error (.libraryUnresolved
        "skill 'guide': library entry not found: guide") ∧
      (Sample.drafting.sessions "s1").map (·.position) = some (some ⟨"plan", "draft"⟩) ∧
      (out.2.sessions "s1").map (·.position) = some (some ⟨"plan", "polish"⟩) ∧
      (Effect.exec (submitMilestone (Sample.engine [Sample.draft, Sample.polish,
        Sample.checklist]) Sample.host "s1" ⟨"plan", "draft"⟩ .empty none) out.2).1.map
          (fun _ => ()) = .error (.stepMismatch "plan/polish" "plan/draft")) := by
  decide +kernel

end ProfileFsmEngine

end ProtocolEnforcer
