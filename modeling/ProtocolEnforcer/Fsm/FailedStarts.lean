import ProtocolEnforcer.Fsm.Mirror
import ProtocolEnforcer.Fsm.Simulation

/-!
# A start that fails

`start_session` puts the new session into the map before the two steps that can still
fail, and takes the key out again when one of them does. What the key held before is
gone with it, so a failed start changes nothing exactly if nothing was there or the start
fails before the insertion. No other session is ever touched.
-/

namespace ProtocolEnforcer

namespace ProfileFsmEngine

open Effect

variable (engine : ProfileFsmEngine) (host : Host) (sid : String)

/-- The start gets as far as inserting the session, and then its append is refused or the
entry point cannot be landed on. -/
def StartAborts (initialContext : Option Json) (w : World SessionLedger) : Prop :=
  validated engine host = .ok () ∧ ∃ m k, entryPoint engine = .ok (m, k) ∧
    (w.ledger.Refuses w.ledger.attempts ∨
      LandingFails engine host w 0 k initialContext (w.ledger.attempts + 1))

/-- A start that answers an error leaves the sessions as they were, and whatever it
answers leaves the other sessions as they were. -/
def FailsClean (initialContext : Option Json) (w : World SessionLedger) : Prop :=
  ((∃ e, (exec (startSession engine host sid initialContext) w).1 = .error e) →
      (exec (startSession engine host sid initialContext) w).2.sessions = w.sessions) ∧
    ∀ x, x ≠ sid →
      (exec (startSession engine host sid initialContext) w).2.sessions x = w.sessions x

variable {engine host sid}

section

variable {i j : Nat} {initialContext : Option Json} {w : World SessionLedger} {s : SessionState}

/-- A landing that answers an error had something fail that it relies on. -/
theorem Landing.fails_of_error {e : FsmError} {w' : World SessionLedger}
    (land : Landing engine host sid i j initialContext w s (.error e, w')) :
    LandingFails engine host w i j initialContext w.ledger.attempts := by
  cases land with
  | unlandable fails => exact Or.inl ⟨e, fails⟩
  | unchallenged lands gate minted refused => exact Or.inr ⟨gate, _, refused⟩

/-- A landing that arrives had nothing fail. -/
theorem Landing.not_fails_of_ok {out : Position × RenderedInjection} {w' : World SessionLedger}
    (land : Landing engine host sid i j initialContext w s (.ok out, w')) :
    ¬LandingFails engine host w i j initialContext w.ledger.attempts := by
  rintro (⟨e, he⟩ | ⟨gate, e, he⟩)
  · cases land with
    | arrived lands | challenged lands => exact nomatch lands.symm.trans he
  · cases land with
    | arrived lands ungated => exact ungated gate
    | challenged lands gate minted taken => exact nomatch taken.symm.trans he

/-- A start that fails after the insertion leaves no session under its id; one that fails
before leaves everything as it was. -/
theorem Starting.failed {e : FsmError} {w' : World SessionLedger}
    (starting : Starting engine host sid initialContext w (.error e, w')) :
    w' = w ∧ ¬StartAborts engine host initialContext w ∨
      w'.sessions sid = none ∧ StartAborts engine host initialContext w := by
  cases starting with
  | invalid fails => exact Or.inl ⟨rfl, fun h => nomatch fails.symm.trans h.1⟩
  | unentered valid fails =>
    refine Or.inl ⟨rfl, ?_⟩
    rintro ⟨-, m, k, entry, -⟩
    exact nomatch fails.symm.trans entry
  | refused valid entry refused ledger gone =>
    exact Or.inr ⟨gone, valid, _, _, entry, Or.inl ⟨_, refused⟩⟩
  | stuck valid entry taken land =>
    exact Or.inr ⟨World.setSession_sessions_self _ _ _, valid, _, _, entry, Or.inr land.fails_of_error⟩

/-- A start that answers with a step was not aborted. -/
theorem Starting.succeeded {view : StepView} {w' : World SessionLedger}
    (starting : Starting engine host sid initialContext w (.ok view, w')) :
    ¬StartAborts engine host initialContext w := by
  cases starting with
  | started valid entry taken land =>
    rintro ⟨-, m, k, entry', habort⟩
    obtain ⟨-, rfl⟩ := Prod.mk.inj (Except.ok.inj (entry.symm.trans entry'))
    rcases habort with ⟨e, he⟩ | hfails
    · exact nomatch taken.symm.trans he
    · exact land.not_fails_of_ok hfails

/-- A start leaves the other sessions alone. -/
theorem startSession_other {x : String} (hx : x ≠ sid) :
    (exec (startSession engine host sid initialContext) w).2.sessions x = w.sessions x :=
  have hcall : Call.start initialContext ≠ .recover := nofun
  perform_other hcall hx

end

/-- **What a failed start leaves behind.** For every engine, whatever its sessions, its
ledger and the outside do: a start that fails changes no session exactly if there was no
session under its id, or it does not fail between the insertion and the answer. -/
theorem failed_start_clean_iff (initialContext : Option Json) (w : World SessionLedger) :
    FailsClean engine host sid initialContext w ↔
      (w.sessions sid = none ∨ ¬StartAborts engine host initialContext w) := by
  have starting : Starting engine host sid initialContext w
      (exec (startSession engine host sid initialContext) w) := exec_startSession
  have others : ∀ x, x ≠ sid →
      (exec (startSession engine host sid initialContext) w).2.sessions x = w.sessions x :=
    fun _ hx => startSession_other hx
  unfold FailsClean
  rcases hout : exec (startSession engine host sid initialContext) w with ⟨r, w'⟩
  rw [hout] at starting others
  constructor
  · rintro ⟨hclean, -⟩
    cases r with
    | ok view => exact Or.inr starting.succeeded
    | error e =>
      rcases starting.failed with ⟨-, hno⟩ | ⟨hgone, -⟩
      · exact Or.inr hno
      · exact Or.inl ((congrFun (hclean ⟨e, rfl⟩) sid).symm.trans hgone)
  · intro hcond
    refine ⟨?_, others⟩
    rintro ⟨e, he⟩
    dsimp only at he
    subst he
    rcases starting.failed with ⟨hsame, -⟩ | ⟨hgone, haborts⟩
    · exact congrArg World.sessions hsame
    · have hnone : w.sessions sid = none := hcond.resolve_right fun h => h haborts
      funext x
      by_cases hx : x = sid
      · rw [hx, hnone]
        exact hgone
      · exact others x hx

/-- A second start of a running session, refused by the ledger: the session is gone. -/
theorem failed_start_removes_session :
    let engine := Sample.engine [Sample.checklist]
    let w := (perform engine "s1" Sample.host (.start none) (Sample.world (Sample.failsAt 1))).2
    (w.sessions "s1").isSome = true ∧
      (exec (startSession engine Sample.host "s1" none) w).1 =
        .error (.ledger (.io "disk full")) ∧
      (exec (startSession engine Sample.host "s1" none) w).2.sessions "s1" = none ∧
      ¬FailsClean engine Sample.host "s1" none w := by
  intro engine w
  have hbefore : (w.sessions "s1").isSome = true := by decide +kernel
  have herror : (exec (startSession engine Sample.host "s1" none) w).1 =
      .error (.ledger (.io "disk full")) := by rfl
  have hafter : (exec (startSession engine Sample.host "s1" none) w).2.sessions "s1" = none := by
    rfl
  refine ⟨hbefore, herror, hafter, ?_⟩
  rintro ⟨hclean, -⟩
  rw [← hclean ⟨_, herror⟩, hafter] at hbefore
  cases hbefore

end ProfileFsmEngine

end ProtocolEnforcer
