import ProtocolEnforcer.Fsm.Positions
import ProtocolEnforcer.Fsm.Simulation

/-!
# Replayable events and ended visits

Whatever a submission or an artifact appends can be replayed behind any ledger that can be
replayed itself, and a submission that moves the session on appends the event that ends the
visit of a position.
-/

namespace ProtocolEnforcer

/-- Recovery gets past the event, in any session. -/
structure Profile.Replays (p : Profile) (e : FsmEvent) : Prop where
  unstarted : ∀ a b c, e.eventType ≠ .sessionStarted a b c
  resumes : ∀ s, ∃ s', recoverEvent p s e = .ok s'

/-- The event ends the visit of a position. -/
def FsmEvent.departs (e : FsmEvent) : Bool :=
  match e.eventType with
  | .subStateAdvanced _ _ | .macroAdvanced _ _ | .macroLoopedBack _ _ _ | .sessionCompleted _ _ => true
  | _ => false

/-- The visits that have ended. -/
def departures (es : List FsmEvent) : Nat := es.countP FsmEvent.departs

theorem departures_append (es es' : List FsmEvent) :
    departures (es ++ es') = departures es + departures es' :=
  List.countP_append

theorem departures_other {es : List FsmEvent} {e : FsmEvent} (h : e.departs = false) :
    departures (es ++ [e]) = departures es := by
  rw [departures, List.countP_append, List.countP_singleton, h, if_neg Bool.false_ne_true]
  rfl

theorem departures_departs {es : List FsmEvent} {e : FsmEvent} (h : e.departs = true) :
    departures (es ++ [e]) = departures es + 1 := by
  rw [departures, List.countP_append, List.countP_singleton, if_pos h]
  rfl

/-- Recovery gets past the events behind a ledger that it gets past. -/
theorem replayEvents_replays {p : Profile} {sid : String} {es more : List FsmEvent}
    {s : SessionState} (h : replayEvents sid p es = .ok (some s)) (hmore : ∀ e ∈ more, p.Replays e) :
    ∃ s', replayEvents sid p (es ++ more) = .ok (some s') := by
  induction more generalizing es s with
  | nil =>
    rw [List.append_nil]
    exact ⟨s, h⟩
  | cons e more ih =>
    have he : p.Replays e := hmore e List.mem_cons_self
    obtain ⟨s', hs'⟩ := he.resumes s
    have hnext : replayEvents sid p (es ++ [e]) = .ok (some { s' with updatedAt := e.timestamp }) := by
      rw [replayEvents_snoc h, recoverStep_some he.unstarted, hs']
      rfl
    rw [List.append_cons]
    exact ih hnext fun e' he' => hmore e' (List.mem_cons_of_mem e he')

/-- The submission has moved the session on. -/
def StepOutcome.Accepted : StepOutcome → Prop
  | advanced _ | completed _ => True
  | rejected .. | loopedBack .. => False

namespace ProfileFsmEngine

open Effect

variable {engine : ProfileFsmEngine} {host : Host} {sid : String} {ed : Ed25519}

/-! ## What a call appends -/

/-- One step appends nothing, or an event that recovery gets past. -/
theorem Step.replays {call : Call} {c d : Snapshot} (wf : engine.profile.WellFormed ed)
    (hcall : ∀ ctx, call ≠ .start ctx) (h : Step engine host sid call c d) :
    ∃ es, d.events = c.events ++ es ∧ ∀ e ∈ es, engine.profile.Replays e := by
  have single : ∀ {e}, engine.profile.Replays e → ∀ e' ∈ [e], engine.profile.Replays e' := by
    intro e he e' he'
    rwa [List.mem_singleton.mp he']
  cases h with
  | start heq | unborn heq | abort heq => exact absurd heq (hcall _)
  | arrive | strike | recover => exact ⟨[], (List.append_nil _).symm, fun _ h => nomatch h⟩
  | @nextMacro s pos i j k next t es placed checklist hlast hk hnext =>
    -- the macro is in the pipeline, and has an enabled sub-state
    refine ⟨_, rfl, single ⟨fun _ _ _ h => (nomatch h), fun s => ?_⟩⟩
    have hfind := find?_stateAt wf hlast
    subst hnext
    unfold recoverEvent
    dsimp only [eventAt]
    rw [show (engine.profile.place (i + 1) k).macroId = (engine.profile.stateAt (i + 1)).stateId
      from rfl, hfind]
    dsimp only
    rw [hk]
    exact ⟨_, rfl⟩
  | _ => exact ⟨_, rfl, single ⟨fun _ _ _ h => (nomatch h), fun _ => ⟨_, rfl⟩⟩⟩

theorem Course.replays {call : Call} {c d : Snapshot} (wf : engine.profile.WellFormed ed)
    (hcall : ∀ ctx, call ≠ .start ctx) (h : Course engine host sid call c d) :
    ∃ es, d.events = c.events ++ es ∧ ∀ e ∈ es, engine.profile.Replays e := by
  induction h with
  | refl => exact ⟨[], (List.append_nil _).symm, fun _ h => nomatch h⟩
  | tail _ hstep ih =>
    obtain ⟨es, hes, hreplays⟩ := ih
    obtain ⟨es', hes', hreplays'⟩ := hstep.replays wf hcall
    refine ⟨es ++ es', by rw [hes', hes, List.append_assoc], fun e he => ?_⟩
    rcases List.mem_append.mp he with he | he
    · exact hreplays e he
    · exact hreplays' e he

/-- **A submission or an artifact leaves a ledger that can be replayed.** -/
theorem perform_replays {call : Call} {w : World SessionLedger}
    (wf : engine.profile.WellFormed ed) (hcall : ∀ ctx, call ≠ .start ctx) :
    ∃ es, (perform engine sid host call w).2.ledger.events = w.ledger.events ++ es ∧
      ∀ e ∈ es, engine.profile.Replays e := by
  obtain ⟨stage, course, -⟩ := @perform_course engine host sid call w
  exact Course.replays wf hcall course

/-! ## Accepted submissions -/

/-- If `out` reports that the session has moved on, what was appended ends a visit. -/
def Departs (w : World SessionLedger) (out : Except FsmError StepOutcome × World SessionLedger) :
    Prop :=
  ∀ o, out.1 = .ok o → o.Accepted →
    ∃ es, out.2.ledger.events = w.ledger.events ++ es ∧ 0 < departures es

section

variable {i j : Nat} {pos : Position} {w v : World SessionLedger} {s : SessionState}
  {evidence : ChecklistEvidence} {output : Option Json}
  {out : Except FsmError StepOutcome × World SessionLedger}

theorem Departs.of_error {e : FsmError} (h : out.1 = .error e) : Departs w out := by
  intro o ho
  rw [h] at ho
  cases ho

/-- A landing appends a challenge at most, behind the event that led there. -/
theorem Landing.departs {initialContext : Option Json} {event : FsmEvent}
    {out : Except FsmError (Position × RenderedInjection) × World SessionLedger}
    (land : Landing engine host sid i j initialContext v s out)
    (hv : v.ledger.events = w.ledger.events ++ [event]) (hevent : event.departs = true) :
    ∃ es, out.2.ledger.events = w.ledger.events ++ es ∧ 0 < departures es := by
  have hone : 0 < departures [event] := by simp [departures, hevent]
  cases land with
  | unlandable | arrived => exact ⟨[event], hv, hone⟩
  | unchallenged => exact ⟨[event], hv, hone⟩
  | challenged =>
    rw [World.setSession_ledger, World.logged_events, hv, List.append_assoc]
    refine ⟨_, rfl, ?_⟩
    rw [departures_append]
    omega

theorem Advance.departs (advance : Advance engine host sid i j pos w s out) : Departs w out := by
  cases advance with
  | refused => exact .of_error rfl
  | moved taken hk hnext land => exact fun _ _ _ => land.departs rfl rfl

/-- The events of `v` are those of `w`, and some more. -/
theorem Departs.behind {event : FsmEvent} (h : Departs v out)
    (hv : v.ledger.events = w.ledger.events ++ [event]) : Departs w out := by
  intro o ho haccepted
  obtain ⟨es, hes, hdeparts⟩ := h o ho haccepted
  rw [hv, List.append_assoc] at hes
  refine ⟨_, hes, ?_⟩
  rw [departures_append]
  omega

theorem MacroAdvance.departs (advance : MacroAdvance engine host sid i pos w s out) :
    Departs w out := by
  cases advance with
  | refused | unentered | stranded => exact .of_error rfl
  | moved taken hk hnext taken' land =>
    refine Departs.behind (v := acceptedAt host sid pos w) (fun _ _ _ => ?_) rfl
    exact land.departs rfl rfl

theorem Completion.departs (complete : Completion engine host sid pos output w s out) :
    Departs w out := by
  cases complete with
  | completed =>
    refine Departs.behind (v := acceptedAt host sid pos w) (fun _ _ _ => ?_) rfl
    exact ⟨_, rfl, Nat.one_pos⟩
  | _ => exact .of_error rfl

theorem Tripped.departs {b : CircuitBreakerType} (trip : Tripped host sid b pos v s out) :
    Departs w out := by
  cases trip with
  | refused | failed => exact .of_error rfl

/-- **A submission that moves the session on ends a visit.** -/
theorem Handling.departs (handling : Handling engine host sid pos evidence output w s out) :
    Departs w out := by
  cases handling with
  | lost => exact .of_error rfl
  | plain _ advance => exact advance.departs
  | passed _ advance => exact advance.departs
  | final _ complete => exact complete.departs
  | rejected _ reject =>
    cases reject with
    | tripped _ _ trip => exact trip.departs
    | refused | loopStuck | loopRefused => exact .of_error rfl
    | looped | rejected =>
      rintro o ho haccepted
      cases ho
      exact haccepted.elim
  | approved _ accept =>
    cases accept with
    | refused => exact .of_error rfl
    | accepted _ advance => exact advance.departs.behind rfl
  | unapproved _ refuse =>
    cases refuse with
    | refused => exact .of_error rfl
    | tripped _ _ trip => exact trip.departs
    | counted =>
      rintro o ho haccepted
      cases ho
      exact haccepted.elim

theorem submitMilestone_departs :
    Departs w (exec (submitMilestone engine host sid pos evidence output) w) := by
  have submission := @exec_submitMilestone engine host sid pos evidence output w
  generalize exec (submitMilestone engine host sid pos evidence output) w = out at *
  cases submission with
  | refused => exact .of_error rfl
  | late _ _ trip => exact trip.departs
  | handled _ _ handling => exact handling.departs

end

end ProfileFsmEngine

end ProtocolEnforcer
