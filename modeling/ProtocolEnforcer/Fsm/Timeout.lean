import ProtocolEnforcer.Fsm.StepBound

/-!
# The global timeout survives restarts

A session's time runs from its start. In memory that is the clock reading `start_session`
took first, after a recovery the timestamp of the `SessionStarted` event, which is the next
reading. So however often a session is recovered, a submission that comes late by the ledger
trips the breaker, and none that is in time since the start does.
-/

namespace ProtocolEnforcer

/-- When the session was started, if `e` says so. -/
def FsmEvent.startTime (e : FsmEvent) : Option Time :=
  match e.eventType with
  | .sessionStarted _ _ _ => some e.timestamp
  | _ => none

/-- When it was last started, behind one more event. -/
def startStep (t : Option Time) (e : FsmEvent) : Option Time := e.startTime <|> t

/-- The timestamp of the last start in `es`. -/
def lastStart (es : List FsmEvent) : Option Time := es.foldl startStep none

theorem lastStart_snoc {es : List FsmEvent} {e : FsmEvent} :
    lastStart (es ++ [e]) = startStep (lastStart es) e := List.foldl_concat _ _ _ _

theorem lastStart_other {es : List FsmEvent} {e : FsmEvent}
    (h : e.startTime = none) : lastStart (es ++ [e]) = lastStart es := by
  rw [lastStart_snoc, startStep, h]
  rfl

/-- Less time has passed since a later moment. -/
theorem elapsedSeconds_le {a b t : Time} (h : a ≤ b) : elapsedSeconds b t ≤ elapsedSeconds a t := by
  refine Int.toNat_le_toNat ?_
  exact Int.tdiv_le_tdiv (by decide) (Int.sub_le_sub_left h t)

theorem recoverStart_startedAt {sid : String} {profile : Profile} {pipelineId : String}
    {e : FsmEvent} {s : SessionState} (h : recoverStart sid profile pipelineId e = .ok s) :
    s.startedAt = e.timestamp := by
  unfold recoverStart at h
  split at h
  · cases h
  · rename_i m _
    cases hk : firstEnabledIndex m with
    | error err =>
      rw [hk] at h
      cases h
    | ok k =>
      rw [hk] at h
      cases h
      rfl

theorem recoverEvent_startedAt {profile : Profile} {e : FsmEvent} {s s' : SessionState}
    (h : recoverEvent profile s e = .ok s') : s'.startedAt = s.startedAt := by
  cases he : e.eventType with
  | macroAdvanced fromMacro toMacro =>
    obtain ⟨pos, rfl⟩ := recoverEvent_resets he h
    rfl
  | _ =>
    unfold recoverEvent at h
    rw [he] at h
    cases h
    rfl

/-- Recovery starts a session's time at its last start. -/
theorem lastStart_of_replay {sid : String} {profile : Profile} {es : List FsmEvent}
    {s : SessionState} (h : replayEvents sid profile es = .ok (some s)) :
    lastStart es = some s.startedAt := by
  have hread : some s.startedAt = es.foldl startStep none := by
    refine replayEvents_read (f := fun s => some s.startedAt) ?_ ?_ none h
    · intro a e s _ _ _ hty hs
      rw [startStep, FsmEvent.startTime, hty, recoverStart_startedAt hs]
      rfl
    · intro e s s' hne hev
      have hother : e.startTime = none := by
        unfold FsmEvent.startTime
        split
        · exact absurd ‹_› (hne _ _ _)
        · rfl
      have hsame : s'.startedAt = s.startedAt := recoverEvent_startedAt hev
      rw [startStep, hother, hsame]
      rfl
  exact hread.symm

/-- The host of an act. -/
def Act.host : Act → Host
  | .call host _ | .crash host _ _ => host

namespace ProfileFsmEngine

variable {engine : ProfileFsmEngine} {host : Host} {sid : String} {i j : Nat} {pos : Position}
  {w : World SessionLedger} {s : SessionState} {α β : Type}

/-- An answer that the global timeout has tripped. -/
def TimesOut (r : Except FsmError α) : Prop :=
  ∃ details, r = .error (.circuitBreaker .globalTimeout details)

theorem TimesOut.of_map {f : α → β} {r : Except FsmError α} (h : TimesOut (r.map f)) :
    TimesOut r := by
  obtain ⟨details, h⟩ := h
  cases r with
  | ok a => cases h
  | error e => exact ⟨details, by cases h; rfl⟩

theorem not_timesOut_of_isStep {r : Except FsmError α} (h : isStep r = false) : ¬TimesOut r := by
  rintro ⟨details, rfl⟩
  cases h

/-- The session's start, in memory and in the ledger, is as it was. -/
structure KeepsStart (sid : String) (w : World SessionLedger) (s : SessionState)
    (w' : World SessionLedger) : Prop where
  memory : ∀ s', w'.sessions sid = some s' → s'.startedAt = s.startedAt
  ledger : lastStart w'.ledger.events = lastStart w.ledger.events

/-- How a part of a submission ends that keeps it, without tripping the global timeout. -/
structure InTime (sid : String) (w : World SessionLedger) (s : SessionState)
    (out : Except FsmError α × World SessionLedger) : Prop extends KeepsStart sid w s out.2 where
  untripped : ¬TimesOut out.1

/-! ## A submission that is in time -/

/-- The session that is left is `s'`. -/
theorem KeepsStart.of_session {s' : SessionState} {w' : World SessionLedger}
    (hs' : w'.sessions sid = some s') (hsame : s'.startedAt = s.startedAt)
    (ledger : lastStart w'.ledger.events = lastStart w.ledger.events) : KeepsStart sid w s w' := by
  refine ⟨fun t ht => ?_, ledger⟩
  rw [hs'] at ht
  cases ht
  exact hsame

theorem InTime.of_session {s' : SessionState} {out : Except FsmError α × World SessionLedger}
    (hs' : out.2.sessions sid = some s') (hsame : s'.startedAt = s.startedAt)
    (ledger : lastStart out.2.ledger.events = lastStart w.ledger.events)
    (untripped : ¬TimesOut out.1) : InTime sid w s out :=
  ⟨.of_session hs' hsame ledger, untripped⟩

/-- From a later world, and a session of the same start. -/
theorem InTime.trans {w' : World SessionLedger} {s' : SessionState}
    {out : Except FsmError α × World SessionLedger} (h : InTime sid w' s' out)
    (hsame : s'.startedAt = s.startedAt)
    (ledger : lastStart w'.ledger.events = lastStart w.ledger.events) : InTime sid w s out :=
  ⟨⟨fun t ht => (h.memory t ht).trans hsame, h.ledger.trans ledger⟩, h.untripped⟩

theorem not_timesOut_ok {a : α} : ¬TimesOut (.ok a : Except FsmError α) := by
  rintro ⟨_, h⟩
  cases h

theorem not_timesOut_ledger {e : LedgerError} : ¬TimesOut (.error (.ledger e) : Except FsmError α) := by
  rintro ⟨_, h⟩
  cases h

theorem Landing.inTime {initialContext : Option Json}
    {out : Except FsmError (Position × RenderedInjection) × World SessionLedger}
    (land : Landing engine host sid i j initialContext w s out) (hs : w.sessions sid = some s) :
    InTime sid w s out := by
  cases land with
  | unlandable fails =>
    refine .of_session hs rfl rfl ?_
    rcases landingError_kind fails with ⟨m, rfl⟩ | ⟨m, rfl⟩ <;> exact not_timesOut_of_isStep rfl
  | arrived => exact .of_session hs rfl rfl not_timesOut_ok
  | unchallenged => exact .of_session hs rfl rfl not_timesOut_ledger
  | challenged =>
    exact .of_session (World.setSession_sessions_self _ _ _) rfl (lastStart_other rfl)
      not_timesOut_ok

theorem InTime.map {f : α → β} {out : Except FsmError α × World SessionLedger}
    (h : InTime sid w s out) : InTime sid w s (out.1.map f, out.2) :=
  ⟨h.toKeepsStart, fun htimes => h.untripped htimes.of_map⟩

theorem Advance.inTime {out : Except FsmError StepOutcome × World SessionLedger}
    (adv : Advance engine host sid i j pos w s out) (hs : w.sessions sid = some s) :
    InTime sid w s out := by
  cases adv with
  | refused => exact .of_session hs rfl rfl not_timesOut_ledger
  | moved taken hk hnext land =>
    exact (land.inTime (World.setSession_sessions_self _ _ _)).map.trans rfl (lastStart_other rfl)

theorem Tripped.inTime {b : CircuitBreakerType}
    {out : Except FsmError StepOutcome × World SessionLedger} (trip : Tripped host sid b pos w s out)
    (hs : w.sessions sid = some s) (hb : b ≠ .globalTimeout) : InTime sid w s out := by
  cases trip with
  | refused => exact .of_session hs rfl rfl not_timesOut_ledger
  | failed =>
    refine .of_session (World.setSession_sessions_self _ _ _) rfl (lastStart_other rfl) ?_
    rintro ⟨_, h⟩
    cases h
    exact hb rfl

/-- **What is handled is in time.** -/
theorem Handling.inTime {evidence : ChecklistEvidence} {output : Option Json}
    {out : Except FsmError StepOutcome × World SessionLedger}
    (handling : Handling engine host sid pos evidence output w s out)
    (hs : w.sessions sid = some s) : InTime sid w s out := by
  cases handling with
  | @lost e hroute =>
    have hlost : locate engine pos = .error e := routeAt_eq hroute
    refine .of_session hs rfl rfl ?_
    unfold locate at hlost
    split at hlost
    · cases hlost
      exact not_timesOut_of_isStep rfl
    split at hlost
    · cases hlost
      exact not_timesOut_of_isStep rfl
    · cases hlost
  | plain hroute advance => exact advance.inTime hs
  | approved hroute accept =>
    cases accept with
    | refused => exact .of_session hs rfl rfl not_timesOut_ledger
    | accepted taken advance =>
      exact (advance.inTime (w := approvedAt ..) hs).trans rfl (lastStart_other rfl)
  | passed hroute advance =>
    cases advance with
    | refused => exact .of_session hs rfl rfl not_timesOut_ledger
    | unentered taken none =>
      refine .of_session hs rfl (lastStart_other rfl) ?_
      unfold firstEnabledIndex at none
      split at none
      · cases none
      · cases none
        exact not_timesOut_of_isStep rfl
    | stranded => exact .of_session hs rfl (lastStart_other rfl) not_timesOut_ledger
    | moved taken hk hnext taken' land =>
      exact (land.inTime (World.setSession_sessions_self _ _ _)).map.trans rfl
        ((lastStart_other rfl).trans (lastStart_other rfl))
  | final hroute complete =>
    cases complete with
    | unverified fails =>
      exact .of_session hs rfl rfl (not_timesOut_of_isStep
        (not_isStep_of_completionError (verifySessionArtifacts_error fails)))
    | violated _ fails =>
      exact .of_session hs rfl (lastStart_other rfl) (not_timesOut_of_isStep
        (not_isStep_of_completionError (contractResult_error fails)))
    | untraced | refused => exact .of_session hs rfl rfl not_timesOut_ledger
    | stranded => exact .of_session hs rfl (lastStart_other rfl) not_timesOut_ledger
    | completed =>
      exact .of_session (World.setSession_sessions_self _ _ _) rfl
        ((lastStart_other rfl).trans (lastStart_other rfl)) not_timesOut_ok
  | @rejected i j missing out hroute reject =>
    have hstruck := World.setSession_sessions_self w sid
      (some (s.strikeOut (sortedKeys evidence.keys)))
    cases reject with
    | refused => exact .of_session hstruck rfl rfl not_timesOut_ledger
    | tripped taken trips trip =>
      refine (trip.inTime (w := struckAt ..) hstruck ?_).trans rfl (lastStart_other rfl)
      rcases strikeBreaker_eq trips with rfl | rfl <;> decide
    | loopStuck _ _ _ stuck =>
      refine .of_session hstruck rfl (lastStart_other rfl) ?_
      rcases loopError_kind stuck with ⟨m, rfl⟩ | ⟨m, rfl⟩ <;> exact not_timesOut_of_isStep rfl
    | loopRefused => exact .of_session hstruck rfl (lastStart_other rfl) not_timesOut_ledger
    | looped =>
      exact .of_session (World.setSession_sessions_self _ _ _) rfl
        ((lastStart_other rfl).trans (lastStart_other rfl)) not_timesOut_ok
    | rejected => exact .of_session hstruck rfl (lastStart_other rfl) not_timesOut_ok
  | unapproved hroute refuse =>
    cases refuse with
    | refused => exact .of_session hs rfl rfl not_timesOut_ledger
    | tripped taken capped trip =>
      exact (trip.inTime (w := refusedAt ..) (World.setSession_sessions_self _ _ _) nofun).trans rfl
        (lastStart_other rfl)
    | counted =>
      exact .of_session (World.setSession_sessions_self _ _ _) rfl (lastStart_other rfl)
        not_timesOut_ok

/-! ## Calls -/

theorem timedOut_mono {a b : Nat} (h : a ≤ b) (ha : timedOut engine a = true) :
    timedOut engine b = true := by
  rw [timedOut, Bool.and_eq_true] at ha ⊢
  exact ⟨ha.1, decide_eq_true (Nat.le_trans (of_decide_eq_true ha.2) h)⟩

/-- A session's time since its start: from the ledgered start, or from the clock reading before
that one. -/
def TimedFromStart (clock : Nat → Time) (es : List FsmEvent) (s : SessionState) : Prop :=
  lastStart es = some s.startedAt ∨
    ∃ n, s.startedAt = clock n ∧ lastStart es = some (clock (n + 1))

/-- What is in memory is timed from its start. -/
def Timed (clock : Nat → Time) (sid : String) (w : World SessionLedger) : Prop :=
  ∀ s, w.sessions sid = some s → TimedFromStart clock w.ledger.events s

variable {clock : Nat → Time}

theorem Timed.of_none (h : w.sessions sid = none) : Timed clock sid w := by
  intro s hs
  rw [h] at hs
  cases hs

theorem KeepsStart.timed {w' : World SessionLedger} (keeps : KeepsStart sid w s w')
    (h : TimedFromStart clock w.ledger.events s) : Timed clock sid w' := by
  intro s' hs'
  rw [TimedFromStart, keeps.ledger, keeps.memory s' hs']
  exact h

/-- A submission leaves the start as it is, -/
theorem Submission.timed {evidence : ChecklistEvidence} {output : Option Json}
    {out : Except FsmError StepOutcome × World SessionLedger} (h : Timed clock sid w)
    (submission : Submission engine host sid pos evidence output w out) :
    Timed clock sid out.2 := by
  cases submission with
  | refused => exact h
  | late hc hlate trip =>
    have hs := (checkSubmission_ok.mp hc).1
    refine KeepsStart.timed (w := w) ?_ (h _ hs)
    cases trip with
    | refused => exact .of_session hs rfl rfl
    | failed => exact .of_session (World.setSession_sessions_self _ _ _) rfl (lastStart_other rfl)
  | handled hc hlate handling =>
    have hs := (checkSubmission_ok.mp hc).1
    exact (handling.inTime hs).timed (h _ hs)

theorem Storing.timed {out : Except FsmError ArtifactRef × World SessionLedger}
    (h : Timed clock sid w) (storing : Storing host sid w out) : Timed clock sid out.2 := by
  cases storing with
  | failed | refused => exact h
  | @stored s artifactRef pos hs active taken =>
    refine KeepsStart.timed (s := s) ?_ (h s hs)
    exact .of_session (World.setSession_sessions_self _ _ _) rfl (lastStart_other rfl)

/-- a recovery takes it from the ledger, -/
theorem Recovering.timed {out : Except FsmError SessionState × World SessionLedger}
    (h : Timed clock sid w) (recovering : Recovering engine sid w out) : Timed clock sid out.2 := by
  cases recovering with
  | failed => exact h
  | recovered hs =>
    intro s' hs'
    cases (World.setSession_sessions_self _ _ _).symm.trans hs'
    exact Or.inl (lastStart_of_replay hs)

/-- and a start sets it by two readings in a row. -/
theorem Starting.timed {initialContext : Option Json}
    {out : Except FsmError StepView × World SessionLedger} (hclock : host.clock = clock)
    (h : Timed clock sid w) (starting : Starting engine host sid initialContext w out) :
    Timed clock sid out.2 := by
  cases starting with
  | invalid | unentered => exact h
  | refused _ _ _ _ gone => exact .of_none gone
  | stuck => exact .of_none (World.setSession_sessions_self _ _ _)
  | started valid entry taken land =>
    refine (land.inTime (World.setSession_sessions_self _ _ _)).timed (Or.inr ⟨w.ticks, ?_, ?_⟩)
    · rw [hclock]
      rfl
    · subst hclock
      exact lastStart_snoc

theorem perform_timed {call : Call} (hclock : host.clock = clock) (h : Timed clock sid w) :
    Timed clock sid (perform engine sid host call w).2 := by
  cases call with
  | start => exact (exec_startSession).timed hclock h
  | submit => exact (exec_submitMilestone).timed h
  | store => exact (exec_storeArtifact).timed h
  | recover => exact (exec_recoverSession).timed h

/-- What is in memory stays timed from its start through calls and crashes. -/
theorem Timed.run {acts : List Act} (h : Timed clock sid w)
    (hclock : ∀ x ∈ acts, x.host.clock = clock) :
    Timed clock sid (acts.foldl (occur engine sid) w) := by
  induction acts generalizing w with
  | nil => exact h
  | cons x rest ih =>
    refine ih ?_ fun y hy => hclock y (List.mem_cons_of_mem _ hy)
    cases x with
    | call host call => exact perform_timed (hclock _ (List.mem_cons_self ..)) h
    | crash => exact .of_none rfl

/-- A submission at the session's position is timed out when the limit is reached, if the ledger
takes the breaker, and only then. -/
theorem Submission.timesOut {evidence : ChecklistEvidence} {output : Option Json}
    {out : Except FsmError StepOutcome × World SessionLedger}
    (submission : Submission engine host sid pos evidence output w out)
    (hcheck : checkSubmission sid pos (w.sessions sid) = .ok s) :
    (w.Takes → timedOut engine (elapsedSeconds s.startedAt (host.clock w.ticks)) = true →
      TimesOut out.1) ∧
    (TimesOut out.1 → timedOut engine (elapsedSeconds s.startedAt (host.clock w.ticks)) = true) := by
  cases submission with
  | refused fails => exact absurd (hcheck.symm.trans fails) nofun
  | late hc hlate trip =>
    cases Except.ok.inj (hcheck.symm.trans hc)
    refine ⟨fun taken _ => ?_, fun _ => hlate⟩
    cases trip with
    | refused refused => exact absurd (refused.symm.trans taken) nofun
    | failed => exact ⟨_, rfl⟩
  | handled hc hlate handling =>
    cases Except.ok.inj (hcheck.symm.trans hc)
    have hin := handling.inTime (w := w.tick) (checkSubmission_ok.mp hc).1
    refine ⟨fun _ h => ?_, fun h => absurd h hin.untripped⟩
    rw [hlate] at h
    cases h

end ProfileFsmEngine

namespace Sample

open ProfileFsmEngine

/-- A clock that is read once an hour. -/
def hourly (n : Nat) : Time := n * 3600000000000

def hourlyHost : Host := { host with clock := hourly }

/-- Started, lost in a crash and recovered. -/
def lateActs : List Act :=
  [.call hourlyHost (.start none), .crash hourlyHost .recover 0, .call hourlyHost .recover]

def recoveredLate : World SessionLedger :=
  lateActs.foldl (occur (engine [checklist]) "s1") (world fun _ => .ok ())

end Sample

namespace ProfileFsmEngine

end ProfileFsmEngine

end ProtocolEnforcer
