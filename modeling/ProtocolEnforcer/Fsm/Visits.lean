import ProtocolEnforcer.Fsm.Nonces
import ProtocolEnforcer.Fsm.Restart

/-!
# Every event fits the session before it

What an event of a submission says about the session it was appended for: where the
session stood, how often it had been rejected, which challenge it held. In the ledger
of one engine all of it is true of the session recovered from the events before. So a
position is left once a visit, rejections are counted one by one, and a challenge is
accepted once.
-/

namespace ProtocolEnforcer

/-- The session stands where the event was appended. -/
def SessionState.StandsAt (s : SessionState) (e : FsmEvent) : Prop :=
  s.status = .active ∧ s.position.map Position.stepId = e.stepId

/-- What an event says about the session before it. -/
def FsmEvent.Fits (e : FsmEvent) (before : Option SessionState) : Prop :=
  match e.eventType, before with
  | .sessionStarted _ _ _, _ => True
  | _, none => False
  | .subStateAdvanced fromSub _, some s =>
    s.status = .active ∧ s.position.map (·.subStateId) = some fromSub
  | .macroAdvanced fromMacro _, some s =>
    s.status = .active ∧ s.position.map (·.macroId) = some fromMacro
  | .macroLoopedBack fromSub _ iteration, some s =>
    s.status = .active ∧ s.position.map (·.subStateId) = some fromSub ∧
      iteration = s.macroIteration
  | .milestoneAccepted _, some s => s.StandsAt e
  | .sessionCompleted _ _, some s => s.StandsAt e
  | .milestoneRejected _ _ iteration, some s => s.StandsAt e ∧ iteration = s.macroIteration + 1
  | .approvalAccepted macroId subStateId nonce _, some s =>
    s.StandsAt e ∧ s.pendingApproval = some ⟨macroId, subStateId, nonce⟩
  | _, some _ => True

namespace ProfileFsmEngine

variable (engine : ProfileFsmEngine) (sid : String)

/-- Every event fits the session recovered from the events before it. -/
def Orderly (es : List FsmEvent) : Prop :=
  ∀ before e, before ++ [e] <+: es → ∃ fold, Folds engine sid before fold ∧ e.Fits fold

variable {engine sid} {es : List FsmEvent} {e : FsmEvent}

theorem orderly_nil : Orderly engine sid [] := by
  intro before e h
  exact absurd (List.prefix_nil.mp h) (List.append_ne_nil_of_right_ne_nil _ (List.cons_ne_nil _ _))

theorem Orderly.snoc (h : Orderly engine sid es) {fold : Option SessionState}
    (hfold : Folds engine sid es fold) (hfits : e.Fits fold) : Orderly engine sid (es ++ [e]) := by
  intro before e' hpre
  rcases List.prefix_concat_iff.mp hpre with heq | hpre
  · obtain ⟨rfl, hlast⟩ := List.append_inj' heq rfl
    obtain rfl : e' = e := (List.cons.inj hlast).1
    exact ⟨fold, hfold, hfits⟩
  · exact h before e' hpre

/-- Also the ledger of a submission that is still being appended. -/
theorem Orderly.of_prefix {es' : List FsmEvent} (h : Orderly engine sid es) (hpre : es' <+: es) :
    Orderly engine sid es' :=
  fun before e he => h before e (he.trans hpre)

/-- **A challenge is accepted once.** Between two approvals of one nonce it is issued
anew. Like `Orderly.rejections` it is a conclusion about the ledger of several processes, which
is orderly while they take turns. -/
theorem Orderly.accepted_once (h : Orderly engine sid es) {before mid : List FsmEvent}
    {e' : FsmEvent} {nonce : String} (hpre : before ++ e :: mid ++ [e'] <+: es)
    (he : e.acceptedNonce = some nonce) (he' : e'.acceptedNonce = some nonce) :
    ∃ x ∈ mid, x.issuedNonce = some nonce := by
  obtain ⟨fold, hfold, hfits⟩ := h _ _ hpre
  -- the second approval answers the challenge open before it
  obtain ⟨c, hopen, hc⟩ : ∃ c, openChallenge (before ++ e :: mid) = some c ∧
      c.challenge = nonce := by
    unfold FsmEvent.acceptedNonce at he'
    split at he'
    · rename_i hty
      cases he'
      unfold FsmEvent.Fits at hfits
      rw [hty] at hfits
      cases fold with
      | none => exact hfits.elim
      | some s => exact ⟨_, hfold.pending.symm.trans hfits.2, rfl⟩
    · cases he'
  obtain ⟨pre, x, post, heq, hty, hpost⟩ := openChallenge_eq_some hopen
  have hissued : x.issuedNonce = some nonce := by rw [FsmEvent.issuedNonce, hty, hc]
  have hne : e ≠ x := by
    rintro rfl
    rw [FsmEvent.acceptedNonce, hty] at he
    cases he
  -- and it was issued after the first
  rcases List.append_eq_append_iff.mp heq with ⟨c', -, hc'⟩ | ⟨c', -, hc'⟩
  · cases c' with
    | nil => exact absurd (List.cons.inj hc').1 hne
    | cons _ rest => exact ⟨x, by rw [(List.cons.inj hc').2]; simp, hissued⟩
  · cases c' with
    | nil => exact absurd (List.cons.inj hc').1.symm hne
    | cons _ rest =>
      have hmem : e ∈ post := by rw [(List.cons.inj hc').2]; simp
      rw [(hpost e hmem).2.2] at he
      cases he

/-! ## Rejections -/

/-- The macro's iteration behind one more event. -/
def iterationStep (n : UInt32) (e : FsmEvent) : UInt32 :=
  match e.eventType with
  | .sessionStarted _ _ _ | .macroAdvanced _ _ => 0
  | .milestoneRejected _ _ iteration => iteration
  | _ => n

/-- The iteration a list of events leaves: the last one rejected since the macro was
entered. -/
def iterationOf (es : List FsmEvent) : UInt32 := es.foldl iterationStep 0

/-- Recovery counts the iteration off the events. -/
theorem recoverEvent_iteration {profile : Profile} {s s' : SessionState}
    (h : recoverEvent profile s e = .ok s') (hty : ∀ a b c, e.eventType ≠ .sessionStarted a b c) :
    s'.macroIteration = iterationStep s.macroIteration e := by
  unfold iterationStep
  cases he : e.eventType with
  | sessionStarted a b c => exact absurd he (hty a b c)
  | macroAdvanced fromMacro toMacro =>
    obtain ⟨pos, rfl⟩ := recoverEvent_resets he h
    rfl
  | _ =>
    unfold recoverEvent at h
    rw [he] at h
    cases h
    rfl

theorem Folds.iteration {s : SessionState} (h : Folds engine sid es (some s)) :
    s.macroIteration = iterationOf es := by
  obtain ⟨s₀, hs₀, heq⟩ := h
  obtain ⟨s₁, rfl, rfl⟩ := Option.map_eq_some_iff.mp heq
  show s₁.macroIteration = _
  refine replayEvents_read (f := SessionState.macroIteration) ?_ ?_ 0 hs₀
  · intro a e s _ _ _ hty hs
    rw [(recoverStart_fresh hs).1, iterationStep, hty]
  · intro e s s' hne hev
    have hiteration := recoverEvent_iteration hev hne
    exact hiteration

/-- **Rejections are counted one by one**: each counts one more than the last since the
macro was entered. -/
theorem Orderly.rejections {before : List FsmEvent} {rejectedItems : List String}
    {reason : String} {iteration : UInt32} (h : Orderly engine sid es)
    (hpre : before ++ [e] <+: es)
    (hty : e.eventType = .milestoneRejected rejectedItems reason iteration) :
    iteration = iterationOf before + 1 := by
  obtain ⟨fold, hfold, hfits⟩ := h _ _ hpre
  unfold FsmEvent.Fits at hfits
  rw [hty] at hfits
  cases fold with
  | none => exact hfits.elim
  | some s => rw [hfits.2, hfold.iteration]

/-! ## One engine -/

/-- **One step appends an event that fits.** -/
theorem Faithful.fits {host : Host} {call : Call} {c d : Snapshot} (h : Faithful engine sid call c)
    (hstep : Step engine host sid call c d) :
    d.events = c.events ∨ ∃ e fold, d.events = c.events ++ [e] ∧
      Folds engine sid c.events fold ∧ e.Fits fold := by
  obtain ⟨fold, hfold, -, hmatch⟩ := h
  cases hstep with
  | unborn | abort | arrive | strike | recover => exact Or.inl rfl
  | start => exact Or.inr ⟨_, fold, rfl, hfold, trivial⟩
  | issue =>
    cases (show some _ = fold from hmatch)
    exact Or.inr ⟨_, _, rfl, hfold, trivial⟩
  | @advance s pos i j k next t es stage placed hstage =>
    have hbefore : ∃ s', fold = some s' ∧ s'.status = s.status ∧ s'.position = s.position := by
      rcases hstage with ⟨rfl, -⟩ | ⟨rfl, -⟩
      · exact ⟨s, (hmatch.resolve_left nofun).symm, rfl, rfl⟩
      · obtain ⟨s', hlive, hfold'⟩ := hmatch
        cases hlive
        exact ⟨_, hfold', rfl, rfl⟩
    obtain ⟨s', rfl, hstatus, hposition⟩ := hbefore
    refine Or.inr ⟨_, _, rfl, hfold, hstatus.trans placed.active, ?_⟩
    rw [hposition, placed.here]
    rfl
  | approve placed hcall gate verdict =>
    cases (hmatch.resolve_left nofun : some _ = fold)
    refine Or.inr ⟨_, _, rfl, hfold, ⟨placed.active, ?_⟩, (check_accepted verdict).2.1⟩
    rw [placed.here]
    rfl
  | refuse | violate | store =>
    cases (hmatch.resolve_left nofun : some _ = fold)
    exact Or.inr ⟨_, _, rfl, hfold, trivial⟩
  | @trip s pos b ledgered t es stage active here hstage =>
    have hlive : some s = fold := by
      rcases hstage with ⟨rfl, -⟩ | ⟨rfl, -⟩ | ⟨rfl, -⟩
      · exact hmatch.resolve_left nofun
      · exact hmatch
      · exact hmatch
    cases hlive
    exact Or.inr ⟨_, _, rfl, hfold, trivial⟩
  | reject placed =>
    obtain ⟨pos', evidence', output', s, -, rfl, hlive⟩ := hmatch
    cases hlive
    refine Or.inr ⟨_, _, rfl, hfold, ⟨placed.active, ?_⟩, rfl⟩
    exact congrArg (Option.map Position.stepId) placed.here
  | loopBack placed | nextMacro placed =>
    cases (show some _ = fold from hmatch)
    refine Or.inr ⟨_, _, rfl, hfold, placed.active, ?_⟩
    rw [placed.here]
    simp
  | complete placed =>
    cases (show some _ = fold from hmatch)
    refine Or.inr ⟨_, _, rfl, hfold, placed.active, ?_⟩
    rw [placed.here]
    rfl
  | pass placed =>
    cases (hmatch.resolve_left nofun : some _ = fold)
    refine Or.inr ⟨_, _, rfl, hfold, placed.active, ?_⟩
    rw [placed.here]
    rfl

/-- One call keeps the ledger orderly. -/
theorem Synced.orderly {ed : Ed25519} {w : World SessionLedger} (wf : engine.profile.WellFormed ed)
    (h : Synced engine sid w) (horderly : Orderly engine sid w.ledger.events) (host : Host)
    (call : Call) : Orderly engine sid (perform engine sid host call w).2.ledger.events := by
  obtain ⟨stage, course, -⟩ := @perform_course engine host sid call w
  have keeps := Runs.invariant
    (P := fun c => Faithful engine sid call c ∧ Orderly engine sid c.events)
    (fun {c d} hstep ⟨hfaithful, horderly⟩ => by
      refine ⟨hfaithful.step wf hstep, ?_⟩
      rcases hfaithful.fits hstep with heq | ⟨e, fold, heq, hfold, hfits⟩
      · rw [heq]
        exact horderly
      · rw [heq]
        exact horderly.snoc hfold hfits)
    course ⟨h.remembered, horderly⟩
  exact keeps.2

/-- Between two calls of one engine whose appends all succeed. -/
structure WellKept (engine : ProfileFsmEngine) (sid : String) (w : World SessionLedger) : Prop where
  synced : Synced engine sid w
  reliable : w.ledger.Reliable
  orderly : Orderly engine sid w.ledger.events

theorem wellKept_of_fresh {w : World SessionLedger} (hfresh : w.Fresh sid)
    (hledger : w.ledger.Reliable) : WellKept engine sid w where
  synced := synced_of_fresh hfresh
  reliable := hledger
  orderly := by
    rw [hfresh.1]
    exact orderly_nil

theorem WellKept.after {ed : Ed25519} {w : World SessionLedger} {host : Host} {call : Call}
    (wf : engine.profile.WellFormed ed) (h : WellKept engine sid w)
    (hstart : StartsOk engine sid w host call) :
    WellKept engine sid (perform engine sid host call w).2 where
  synced := h.synced.after_reliable wf h.reliable hstart
  reliable := perform_reliable h.reliable
  orderly := h.synced.orderly wf h.orderly host call

/-- **The ledger of one engine is orderly**, after every run in which no append fails and
every start answers. -/
theorem wellKept_run {ed : Ed25519} {w : World SessionLedger} {calls : List (Host × Call)}
    (wf : engine.profile.WellFormed ed) (h : WellKept engine sid w)
    (hstarts : Along engine sid (StartsOk engine sid) w calls) :
    WellKept engine sid (runCalls engine sid w calls) :=
  hstarts.invariant (fun _ _ hstart h => h.after wf hstart) h

end ProfileFsmEngine

end ProtocolEnforcer
