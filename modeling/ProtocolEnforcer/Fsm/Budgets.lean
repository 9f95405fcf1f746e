import ProtocolEnforcer.Fsm.Counting

/-!
# Retry budgets and crashes

A rejection that reaches a limit is ledgered before the breaker it trips, so a crash between
the two leaves a ledger from which an active session is recovered that has nothing left. In
every run that keeps the two together, crashes and recoveries included, what is recovered is
within its limits.
-/

namespace ProtocolEnforcer

open Relation

/-- What happens to a session: a call, or a crash in the middle of one. -/
inductive Act where
  | call (host : Host) (call : Call)
  /-- The process dies after `n` of the call's appends. -/
  | crash (host : Host) (call : Call) (n : Nat)

/-- The world of a process that has died: only the ledger is left. -/
def World.crashed (w : World SessionLedger) (events : List FsmEvent) : World SessionLedger :=
  { w with ledger := { w.ledger with events }, sessions := fun _ => none }

/-- A breaker that a rejection trips. -/
def FsmEvent.isRetryBreaker (e : FsmEvent) : Bool :=
  match e.eventType with
  | .circuitBreakerTriggered b _ => b ≠ .globalTimeout
  | _ => false

namespace ProfileFsmEngine

variable (engine : ProfileFsmEngine) (sid : String)

/-- A moment of a call that found `es₀` in the ledger: the recovered session is within its
limits, but for one that was just counted on. -/
def Budgeted (es₀ : List FsmEvent) (call : Call) (c : Snapshot) : Prop :=
  es₀ <+: c.events ∧ ∃ fold, replayEvents sid engine.profile c.events = .ok fold ∧
    SameCounts call c.stage c.live fold ∧ ∀ s, fold = some s →
      Accounts engine (macroRejections engine.profile c.events) s ∧
      (s.status = .active → (∃ i j, Within engine s i j) ∨
        c.events ≠ es₀ ∧ (c.stage = .struck ∨ c.stage = .refused ∨ c.stage = .settled))

variable {engine sid} {ed : Ed25519} {host : Host} {es₀ es : List FsmEvent} {call : Call}
  {s f l : SessionState} {stage : Stage} {c d : Snapshot} {pos : Position} {i j : Nat}

/-- Where nothing has just been counted, an active session is within its limits. -/
theorem Budgeted.calm (h : Budgeted engine sid es₀ call c)
    (hstage : c.stage ≠ .struck ∧ c.stage ≠ .refused ∧ c.stage ≠ .settled) :
    ∃ fold, replayEvents sid engine.profile c.events = .ok fold ∧
      SameCounts call c.stage c.live fold ∧ ∀ s, fold = some s →
        Accounts engine (macroRejections engine.profile c.events) s ∧
        (s.status = .active → ∃ i j, Within engine s i j) := by
  obtain ⟨-, fold, hfold, hsame, hok⟩ := h
  refine ⟨fold, hfold, hsame, fun s hs => ⟨(hok s hs).1, fun active => ?_⟩⟩
  rcases (hok s hs).2 active with hwithin | ⟨-, hstruck | hrefused | hsettled⟩
  · exact hwithin
  · exact absurd hstruck hstage.1
  · exact absurd hrefused hstage.2.1
  · exact absurd hsettled hstage.2.2

/-- Behind a session in memory there is a recovered one that counts the same. -/
theorem Budgeted.live (h : Budgeted engine sid es₀ call ⟨some l, es, stage⟩)
    (hstage : stage ≠ .bumped) :
    ∃ f, replayEvents sid engine.profile es = .ok (some f) ∧ f.counted = l.counted ∧
      Accounts engine (macroRejections engine.profile es) f ∧
      (f.status = .active → stage ≠ .struck ∧ stage ≠ .refused ∧ stage ≠ .settled →
        ∃ i j, Within engine f i j) := by
  obtain ⟨-, fold, hfold, hsame, hok⟩ := id h
  obtain ⟨f, rfl, heq⟩ := hsame.fold hstage
  refine ⟨f, hfold, heq, (hok f rfl).1, fun active hcalm => ?_⟩
  obtain ⟨fold', hfold', -, hok'⟩ := h.calm hcalm
  rw [hfold] at hfold'
  cases hfold'
  exact (hok' f rfl).2 active

/-- A session at a located position is within its limits there, if anywhere. -/
theorem Within.at_located (wf : engine.profile.WellFormed ed)
    (h : ∃ i j, Within engine s i j) (here : s.position = some pos)
    (located : locate engine pos = .ok (i, j)) : Within engine s i j := by
  obtain ⟨i', j', hwithin⟩ := h
  obtain ⟨rfl, rfl⟩ := located_unique wf here located hwithin.inRange hwithin.here
  exact hwithin

/-- An event behind a recovered session, counted alike in memory. -/
theorem Budgeted.snoc {s' l' : SessionState} {e : FsmEvent} (hpre : es₀ <+: es)
    (hfold : replayEvents sid engine.profile es = .ok (some f))
    (hty : ∀ a b c, e.eventType ≠ .sessionStarted a b c)
    (hev : recoverEvent engine.profile f e = .ok s')
    (hsame : SameCounts call stage (some l') (some { s' with updatedAt := e.timestamp }))
    (haccounts : Accounts engine (macroRejections engine.profile (es ++ [e])) s')
    (hwithin : s'.status = .active → (∃ i j, Within engine s' i j) ∨
      (stage = .struck ∨ stage = .refused ∨ stage = .settled)) :
    Budgeted engine sid es₀ call ⟨some l', es ++ [e], stage⟩ := by
  have hgrown : es ++ [e] ≠ es₀ := by
    intro heq
    have hle := hpre.length_le
    rw [← heq, List.length_append, List.length_singleton] at hle
    omega
  refine ⟨hpre.trans (List.prefix_append _ _), _, replayEvents_concat hfold hty hev, hsame, ?_⟩
  rintro _ ⟨⟩
  refine ⟨haccounts.congr rfl rfl rfl id, fun active => ?_⟩
  rcases hwithin active with ⟨i, j, hwithin⟩ | hstage
  · exact Or.inl ⟨i, j, hwithin.congr rfl⟩
  · exact Or.inr ⟨hgrown, hstage⟩

/-- A step that leaves the ledger as it is. -/
theorem Budgeted.silent {live live' : Option SessionState} {stage' : Stage}
    (h : Budgeted engine sid es₀ call ⟨live, es, stage⟩)
    (hstage : stage ≠ .struck ∧ stage ≠ .refused ∧ stage ≠ .settled)
    (hsame : ∀ fold, replayEvents sid engine.profile es = .ok fold →
      SameCounts call stage live fold → SameCounts call stage' live' fold) :
    Budgeted engine sid es₀ call ⟨live', es, stage'⟩ := by
  obtain ⟨fold, hfold, hsame', hok⟩ := h.calm hstage
  exact ⟨h.1, fold, hfold, hsame fold hfold hsame',
    fun s hs => ⟨(hok s hs).1, fun active => Or.inl ((hok s hs).2 active)⟩⟩

/-- A move to another sub-state of the macro keeps the accounts. -/
theorem Accounts.moved (wf : engine.profile.WellFormed ed) {counts : MacroRejections} {k : Nat}
    (h : Accounts engine counts s) (hrange : engine.profile.InRange i j)
    (hpos : s.position = some (engine.profile.place i j)) (hk : engine.profile.InRange i k) :
    Accounts engine counts { s with
      position := some (engine.profile.place i k), pendingApproval := none } := by
  have hmost := h.bounded hrange.macroIdx
  obtain ⟨current, count, before, behind⟩ := h.at_place wf hrange hpos
  exact .underway hk rfl current count hmost before behind

/-- One more rejection of the macro the session is in. -/
theorem Accounts.reject (wf : engine.profile.WellFormed ed) {counts : MacroRejections}
    {keys : List String} (h : Accounts engine counts s) (within : Within engine s i j) :
    Accounts engine counts.reject (s.strikeOut keys) := by
  obtain ⟨current, count, before, behind⟩ := h.at_place wf within.inRange within.here
  have hi := within.inRange.macroIdx
  have hother : ∀ i' < engine.profile.pipeline.length, i' ≠ i →
      counts.reject.rejected (macroIdAt engine i') = counts.rejected (macroIdAt engine i') := by
    intro i' hi' hne
    refine counts.reject_other fun heq => hne (stateId_inj wf hi' hi (heq.trans current))
  have hself : counts.reject.rejected (macroIdAt engine i) = s.macroIteration.toNat + 1 := by
    rw [← count, ← current, counts.reject_current]
  refine .underway within.inRange within.here current ?_ ?_ ?_ ?_
  · exact hself.trans within.bump.symm
  · rw [hself]
    exact within.iteration
  · intro i' hlt
    rw [hother i' (hlt.trans hi) (Nat.ne_of_lt hlt)]
    exact before i' hlt
  · intro i' hlt hi'
    rw [hother i' hi' (Nat.ne_of_gt hlt)]
    exact behind i' hlt hi'

/-- The next macro, none of whose checklists has been rejected. -/
theorem Accounts.nextMacro (wf : engine.profile.WellFormed ed) {counts : MacroRejections}
    {k : Nat} (h : Accounts engine counts s) (within : Within engine s i j)
    (hk : engine.profile.InRange (i + 1) k) :
    Accounts engine { counts with current := macroIdAt engine (i + 1) }
      { s.resetMacro with
        position := some (engine.profile.place (i + 1) k), pendingApproval := none } := by
  obtain ⟨-, count, before, behind⟩ := h.at_place wf within.inRange within.here
  have hnone := behind (i + 1) (Nat.lt_succ_self i) hk.macroIdx
  refine .underway hk rfl rfl hnone (hnone ▸ Nat.zero_le _) ?_ ?_
  · intro i' hlt
    rcases Nat.lt_succ_iff_lt_or_eq.mp hlt with hlt | rfl
    · exact before i' hlt
    · exact count ▸ within.iteration
  · intro i' hlt hi'
    exact behind i' (Nat.lt_of_succ_lt hlt) hi'

/-- A completed session has rejections left in every macro. -/
theorem Accounts.complete (wf : engine.profile.WellFormed ed) {counts : MacroRejections}
    (h : Accounts engine counts s) (within : Within engine s i j)
    (hlast : i + 1 = engine.profile.pipeline.length) :
    Accounts engine counts { s with status := .completed, position := none } := by
  obtain ⟨-, count, before, -⟩ := h.at_place wf within.inRange within.here
  refine .finished nofun rfl fun i' hi' => ?_
  rcases Nat.lt_succ_iff_lt_or_eq.mp (hlast.symm ▸ hi') with hlt | rfl
  · exact before i' hlt
  · exact count ▸ within.iteration

/-- **One step keeps the budgets.** -/
theorem Budgeted.step (wf : engine.profile.WellFormed ed) (h : Budgeted engine sid es₀ call c)
    (hstep : Step engine host sid call c d) : Budgeted engine sid es₀ call d := by
  have hpre := h.1
  -- `h.live` gives the fold behind the memory; each case appends its event to both
  cases hstep with
  | @start ctx m k pos t live es hcall entry hpos =>
    obtain ⟨rfl, hk, hlen⟩ := entryPoint_ok entry
    have hrange : engine.profile.InRange 0 k := .of_enabled hlen (wf.firstEnabled hlen hk).here
    have hplace : pos = engine.profile.place 0 k := hpos.trans (entryPoint_place entry)
    subst hpos
    obtain ⟨-, fold, hfold, -⟩ := h
    have hfolds : Folds engine sid es (fold.map SessionState.timeless) := ⟨fold, hfold, rfl⟩
    obtain ⟨s₀, hs₀, hmap⟩ := hfolds.start entry rfl
    obtain ⟨s₁, rfl, htimeless⟩ := Option.map_eq_some_iff.mp hmap
    have hcounted := congrArg SessionState.counted htimeless
    have hwithin := Within.fresh sid 0 (ctx.getD .null) hrange hplace
    refine ⟨hpre.trans (List.prefix_append _ _), some s₁, hs₀, congrArg some hcounted.symm, ?_⟩
    rintro s ⟨⟩
    have hat : Within engine s₁ 0 k := hwithin.congr hcounted.symm
    refine ⟨?_, fun _ => Or.inl ⟨0, k, hat⟩⟩
    rw [macroRejections_snoc]
    -- a start resets the iteration, and the count of rejections with it
    have hzero : s₁.macroIteration.toNat = 0 := by
      show s₁.timeless.macroIteration.toNat = 0
      rw [htimeless]
      rfl
    exact .underway hrange hat.here rfl hzero.symm (Nat.zero_le _) (fun _ hlt => nomatch hlt)
      fun _ _ _ => rfl
  | unborn => exact h.silent ⟨nofun, nofun, nofun⟩ fun _ _ _ => rfl
  | abort => exact h.silent ⟨nofun, nofun, nofun⟩ fun _ _ _ => rfl
  | arrive => exact h.silent ⟨nofun, nofun, nofun⟩ fun _ _ hsame => hsame
  | @issue s i j nonce t es pos here hpos gate minted =>
    obtain ⟨f, hfold, heq, haccounts, hwithin⟩ := h.live nofun
    have hcounted := SessionState.counted_congr
      (f := (·.park ⟨pos.macroId, pos.subStateId, nonce⟩)) (fun _ => rfl) heq.symm
    refine .snoc hpre hfold nofun rfl (congrArg some hcounted)
      (haccounts.congr macroRejections_snoc rfl rfl id) fun active => ?_
    obtain ⟨i, j, hwithin⟩ := hwithin active ⟨nofun, nofun, nofun⟩
    exact Or.inl ⟨i, j, hwithin.park _⟩
  | @advance s pos i j k next t es stage placed hstage hk hnext =>
    obtain ⟨hi, hj, hplace⟩ := locate_ok placed.located
    -- at these stages memory and ledger count the same
    have hcalm : stage ≠ .bumped ∧ stage ≠ .struck ∧ stage ≠ .refused ∧ stage ≠ .settled := by
      rcases hstage with ⟨rfl, -⟩ | ⟨rfl, -⟩ <;> exact ⟨nofun, nofun, nofun, nofun⟩
    have hty := not_checklist_of_advance hstage
    have hrange : engine.profile.InRange i k :=
      hk ▸ .of_enabled hi (wf.nextEnabled ⟨hi, hj⟩ hty).here
    obtain ⟨f, hfold, heq, haccounts, hwithin⟩ := h.live hcalm.1
    have here : f.position = some pos := (SessionState.sameCount heq).position.trans placed.here
    have hcounted := SessionState.counted_congr
      (f := fun s => { s with position := some next }) (fun _ => rfl) heq.symm
    have hmac : next.macroId = pos.macroId := by
      rw [hnext, hplace]
      rfl
    refine .snoc hpre hfold nofun (recoverEvent_subStateAdvanced here hmac)
      (show SameCounts call (.landed i k) _ _ from congrArg some hcounted) ?_ fun active => ?_
    · rw [hplace] at here
      subst hnext
      exact (haccounts.moved wf ⟨hi, hj⟩ here hrange).congr macroRejections_snoc rfl rfl id
    · have hwithin := Within.at_located wf (hwithin active hcalm.2) here placed.located
      subst hnext
      exact Or.inl ⟨i, k, (hwithin.moved hrange).congr rfl⟩
  | approve placed hcall gate verdict =>
    obtain ⟨f, hfold, heq, haccounts, hwithin⟩ := h.live nofun
    refine .snoc hpre hfold nofun rfl (congrArg some heq.symm)
      (haccounts.congr macroRejections_snoc rfl rfl id) fun active => ?_
    obtain ⟨i, j, hwithin⟩ := hwithin active ⟨nofun, nofun, nofun⟩
    exact Or.inl ⟨i, j, hwithin.congr rfl⟩
  | refuse placed hcall gate verdict =>
    obtain ⟨f, hfold, heq, haccounts, -⟩ := h.live nofun
    have hcounted := SessionState.counted_congr (f := (·.countRefusal)) (fun _ => rfl) heq.symm
    -- the refusal may have reached the cap; the breaker is still to come
    exact .snoc hpre hfold nofun rfl (congrArg some hcounted)
      (haccounts.congr macroRejections_snoc rfl rfl id) fun _ => Or.inr (Or.inr (Or.inl rfl))
  | @trip s pos b ledgered t es stage active here hstage =>
    have hnot : stage ≠ .bumped := by
      rcases hstage with ⟨rfl, -⟩ | ⟨rfl, -⟩ | ⟨rfl, -⟩ <;> exact nofun
    obtain ⟨f, hfold, heq, haccounts, -⟩ := h.live hnot
    have hcounted := SessionState.counted_congr (f := fun s => { s with status := .failed })
      (fun _ => rfl) heq.symm
    exact .snoc hpre hfold nofun rfl (congrArg some hcounted)
      (haccounts.congr macroRejections_snoc rfl rfl fun _ => nofun) nofun
  | @strike s pos i j evidence output es placed hcall checklist hmissing =>
    -- memory is one strike ahead of the ledger until the rejection is written
    refine h.silent ⟨nofun, nofun, nofun⟩ fun fold _ hsame => ?_
    obtain ⟨f, rfl, heq⟩ := hsame.fold nofun
    exact ⟨pos, evidence, output, _, f, hcall, rfl, rfl,
      SessionState.counted_congr (f := (·.strikeOut _)) (fun _ => rfl) heq.symm⟩
  | @reject s pos i j missing evidence output t es placed hcall checklist hmissing =>
    obtain ⟨fold, hfold, hsame, hok⟩ := h.calm ⟨nofun, nofun, nofun⟩
    obtain ⟨pos', evidence', output', l, f, hcall', hl, rfl, heq⟩ := hsame
    rw [hcall] at hcall'
    cases hcall'
    cases hl
    -- the event's iteration is the one the strike gave the session
    obtain ⟨hpos, hstatus, hiteration, -⟩ := SessionState.sameCount heq
    obtain ⟨haccounts, hwithin⟩ := hok f rfl
    have hat := Within.at_located wf (hwithin (hstatus.symm.trans placed.active))
      (hpos.symm.trans placed.here) placed.located
    -- recovery takes the iteration from the event and counts the streak itself
    refine .snoc hpre hfold nofun rfl (congrArg some (heq.trans ?_)) ?_
      fun _ => Or.inr (Or.inl rfl)
    · rw [hiteration]
      rfl
    · have hreject : Accounts engine _ (f.strikeOut (sortedKeys evidence.keys)) :=
        haccounts.reject wf hat
      exact hreject.congr macroRejections_snoc rfl hiteration id
  | @loopBack s pos i j k target t es placed checklist hloops hk htarget =>
    obtain ⟨hi, hj, hplace⟩ := locate_ok placed.located
    have hrange : engine.profile.InRange i k := .of_loopTarget hi hk
    obtain ⟨f, hfold, heq, haccounts, -⟩ := h.live nofun
    have here : f.position = some pos := (SessionState.sameCount heq).position.trans placed.here
    have hcounted := SessionState.counted_congr
      (f := fun s => { s with position := some target }) (fun _ => rfl) heq.symm
    have hmac : target.macroId = pos.macroId := by
      rw [htarget, hplace]
      rfl
    refine .snoc hpre hfold nofun (recoverEvent_macroLoopedBack here hmac)
      (congrArg some hcounted) ?_ fun _ => Or.inr (Or.inr (Or.inr rfl))
    rw [hplace] at here
    subst htarget
    exact (haccounts.moved wf ⟨hi, hj⟩ here hrange).congr macroRejections_snoc rfl rfl id
  | pass placed hcall checklist hmet =>
    obtain ⟨f, hfold, heq, haccounts, hwithin⟩ := h.live nofun
    exact .snoc hpre hfold nofun rfl (congrArg some heq.symm)
      (haccounts.congr macroRejections_snoc rfl rfl id) fun active =>
        Or.inl (hwithin active ⟨nofun, nofun, nofun⟩)
  | @nextMacro s pos i j k next t es placed checklist hlast hk hnext =>
    have hrange : engine.profile.InRange (i + 1) k :=
      .of_enabled hlast (wf.firstEnabled hlast hk).here
    obtain ⟨f, hfold, heq, haccounts, hwithin⟩ := h.live nofun
    obtain ⟨hpos, hstatus, -⟩ := SessionState.sameCount heq
    have hat := Within.at_located wf
      (hwithin (hstatus.trans placed.active) ⟨nofun, nofun, nofun⟩) (hpos.trans placed.here)
      placed.located
    -- the next macro starts with its own budgets
    have hcounted := SessionState.counted_congr
      (f := fun s => { s.resetMacro with position := some next }) (fun _ => rfl) heq.symm
    subst hnext
    exact .snoc hpre hfold nofun (recoverEvent_macroAdvanced wf hlast hk) (congrArg some hcounted)
      ((haccounts.nextMacro wf hat hrange).congr macroRejections_snoc rfl rfl id)
      fun _ => Or.inl ⟨i + 1, k, (hat.nextMacro hrange).congr rfl⟩
  | complete placed checklist hlast =>
    obtain ⟨f, hfold, heq, haccounts, hwithin⟩ := h.live nofun
    obtain ⟨hpos, hstatus, -⟩ := SessionState.sameCount heq
    have hat := Within.at_located wf
      (hwithin (hstatus.trans placed.active) ⟨nofun, nofun, nofun⟩) (hpos.trans placed.here)
      placed.located
    have hcounted := SessionState.counted_congr
      (f := fun s => { s with status := .completed, position := none }) (fun _ => rfl) heq.symm
    exact .snoc hpre hfold nofun rfl (congrArg some hcounted)
      ((haccounts.complete wf hat hlast).congr macroRejections_snoc rfl rfl id) nofun
  | violate placed checklist =>
    obtain ⟨f, hfold, heq, haccounts, hwithin⟩ := h.live nofun
    exact .snoc hpre hfold nofun rfl (congrArg some heq.symm)
      (haccounts.congr macroRejections_snoc rfl rfl id) fun active =>
        Or.inl (hwithin active ⟨nofun, nofun, nofun⟩)
  | @store s pos artifactRef stepId data mimeType t es active hcall =>
    obtain ⟨f, hfold, heq, haccounts, hwithin⟩ := h.live nofun
    refine .snoc hpre hfold nofun rfl (congrArg some heq.symm)
      (haccounts.congr macroRejections_snoc rfl rfl id) fun active => ?_
    obtain ⟨i, j, hwithin⟩ := hwithin active ⟨nofun, nofun, nofun⟩
    exact Or.inl ⟨i, j, hwithin.congr rfl⟩
  | @recover live s es hcall hs =>
    refine h.silent ⟨nofun, nofun, nofun⟩ fun fold hfold _ => ?_
    rw [hs] at hfold
    cases hfold
    rfl

/-! ## Where a call ends -/

variable (engine sid)

/-- A rejection that reaches a limit is ledgered together with the breaker it trips. -/
def TripLedgered (w : World SessionLedger) (s : SessionState) (evidence : ChecklistEvidence) :
    Route → Prop
  | .rejected i _ _ => w.Takes →
      strikeBreaker engine i (s.strikeOut (sortedKeys evidence.keys)) ≠ none →
      w.ledger.outcome (w.ledger.attempts + 1) = .ok ()
  | .unapproved _ _ _ => w.Takes → CapReached engine s.countRefusal →
      w.ledger.outcome (w.ledger.attempts + 1) = .ok ()
  | _ => True

/-- No submission ledgers a rejection that reaches a limit without its breaker. -/
def LedgersTrips (w : World SessionLedger) (host : Host) (call : Call) : Prop :=
  ∀ pos evidence output s, call = .submit pos evidence output → w.sessions sid = some s →
    TripLedgered engine w s evidence
      (route engine sid (w.sessions sid) (host.clock w.ticks) pos evidence)

/-- The session in memory, if it is active, is within its limits. -/
def LiveWithin (w : World SessionLedger) : Prop :=
  ∀ s, w.sessions sid = some s → s.status = .active → ∃ i j, Within engine s i j

variable {engine sid} {w w' : World SessionLedger}

theorem LiveWithin.of_session (hs : w.sessions sid = some s) (h : Within engine s i j) :
    LiveWithin engine sid w := by
  intro s' hs' _
  rw [hs] at hs'
  cases hs'
  exact ⟨i, j, h⟩

theorem LiveWithin.of_inactive (hs : w.sessions sid = some s) (h : s.status ≠ .active) :
    LiveWithin engine sid w := by
  intro s' hs' active
  rw [hs] at hs'
  cases hs'
  exact absurd active h

theorem Landing.within {initialContext : Option Json}
    {out : Except FsmError (Position × RenderedInjection) × World SessionLedger}
    (land : Landing engine host sid i j initialContext w s out) (hs : w.sessions sid = some s)
    {i' j' : Nat} (h : Within engine s i' j') : LiveWithin engine sid out.2 := by
  cases land with
  | unlandable | arrived | unchallenged => exact .of_session hs h
  | challenged => exact .of_session (World.setSession_sessions_self _ _ _) (h.park _)

theorem Advance.within {out : Except FsmError StepOutcome × World SessionLedger}
    (wf : engine.profile.WellFormed ed) (adv : Advance engine host sid i j pos w s out)
    (hs : w.sessions sid = some s) (h : Within engine s i j)
    (hty : engine.profile.typeAt i j ≠ .checklist) : LiveWithin engine sid out.2 := by
  cases adv with
  | refused => exact .of_session hs h
  | moved taken hk hnext land =>
    have hrange := Profile.InRange.of_enabled h.inRange.macroIdx (wf.nextEnabled h.inRange hty).here
    subst hk hnext
    exact land.within (World.setSession_sessions_self _ _ _) ((h.moved hrange).congr rfl)

/-- A rejection that trips nothing leaves the session within its limits. -/
theorem Within.struck {keys : List String} (h : Within engine s i j)
    (holds : strikeBreaker engine i (s.strikeOut keys) = none) :
    Within engine (s.strikeOut keys) i j := by
  unfold strikeBreaker at holds
  split at holds
  · cases holds
  rename_i hmax
  split at holds
  · cases holds
  rename_i hosc
  refine ⟨h.inRange, h.here, ?_, ?_, h.approvals⟩
  · exact Nat.lt_of_lt_of_le (UInt32.lt_iff_toNat_lt.mp (UInt32.not_le.mp hmax))
      (Nat.le_max_right _ _)
  · exact Nat.lt_of_lt_of_le (UInt32.lt_iff_toNat_lt.mp (UInt32.not_le.mp hosc))
      (Nat.le_max_right _ _)

/-- So does a refused approval below the cap. -/
theorem Within.refused (h : Within engine s i j) (below : ¬CapReached engine s.countRefusal) :
    Within engine s.countRefusal i j :=
  ⟨h.inRange, h.here, h.iteration, h.streak,
    fun hcap => UInt32.not_le.mp fun hle => below ⟨hcap, hle⟩⟩

/-- A submission at an active session that is within its limits. -/
theorem Handling.within {evidence : ChecklistEvidence} {output : Option Json}
    {out : Except FsmError StepOutcome × World SessionLedger} (wf : engine.profile.WellFormed ed)
    (handling : Handling engine host sid pos evidence output w s out)
    (hs : w.sessions sid = some s) (here : s.position = some pos)
    (h : ∃ i j, Within engine s i j)
    (htrips : TripLedgered engine w s evidence (routeAt engine sid s pos evidence)) :
    LiveWithin engine sid out.2 ∨ out.2.ledger.events = w.ledger.events := by
  -- either the call ends within its limits, or it has ledgered nothing
  cases handling with
  | lost => exact Or.inr rfl
  | plain hroute advance =>
    obtain ⟨located, -, hty⟩ := routeAt_eq hroute
    exact Or.inl (advance.within wf hs (Within.at_located wf h here located) hty)
  | approved hroute accept =>
    obtain ⟨located, gate, -⟩ := routeAt_eq hroute
    cases accept with
    | refused => exact Or.inr rfl
    | accepted taken advance =>
      exact Or.inl (advance.within wf hs (Within.at_located wf h here located) (by rw [gate]; decide))
  | @passed i j out hroute advance =>
    obtain ⟨located, checklist, -, hlast⟩ := routeAt_eq hroute
    have hat := Within.at_located wf h here located
    cases advance with
    -- the event was refused, and nothing is ledgered
    | refused => exact Or.inr rfl
    | unentered | stranded => exact Or.inl (.of_session hs hat)
    | moved taken hk hnext taken' land =>
      have hlen : i + 1 < engine.profile.pipeline.length := by
        have := hat.inRange.macroIdx
        omega
      have hrange := Profile.InRange.of_enabled hlen (wf.firstEnabled hlen hk).here
      subst hnext
      exact Or.inl (land.within (World.setSession_sessions_self _ _ _)
        ((hat.nextMacro hrange).congr rfl))
  | final hroute complete =>
    obtain ⟨located, -⟩ := routeAt_eq hroute
    have hat := Within.at_located wf h here located
    cases complete with
    | unverified | untraced | refused => exact Or.inr rfl
    | violated | stranded => exact Or.inl (.of_session hs hat)
    | completed => exact Or.inl (.of_inactive (World.setSession_sessions_self _ _ _) nofun)
  | @rejected i j missing out hroute reject =>
    obtain ⟨located, checklist, -⟩ := routeAt_eq hroute
    have hat := Within.at_located wf h here located
    rw [hroute] at htrips
    cases reject with
    | refused => exact Or.inr rfl
    | tripped taken trips trip =>
      cases trip with
      | refused refused =>
        -- the breaker was due, so its append succeeds
        have htaken := htrips taken (by rw [trips]; exact nofun)
        exact absurd (htaken.symm.trans refused) nofun
      | failed => exact Or.inl (.of_inactive (World.setSession_sessions_self _ _ _) nofun)
    | loopStuck taken holds | loopRefused taken holds | rejected taken holds =>
      exact Or.inl (.of_session (World.setSession_sessions_self _ _ _) (hat.struck holds))
    | looped taken holds hloops renders hk htarget =>
      have hrange := Profile.InRange.of_loopTarget hat.inRange.macroIdx hk
      subst htarget
      exact Or.inl (.of_session (World.setSession_sessions_self _ _ _)
        (((hat.struck holds).moved hrange).congr rfl))
  | unapproved hroute refuse =>
    -- a refusal below the cap leaves room for one more
    obtain ⟨located, -⟩ := routeAt_eq hroute
    have hat := Within.at_located wf h here located
    rw [hroute] at htrips
    cases refuse with
    | refused => exact Or.inr rfl
    | tripped taken capped trip =>
      cases trip with
      | refused refused => exact absurd ((htrips taken capped).symm.trans refused) nofun
      | failed => exact Or.inl (.of_inactive (World.setSession_sessions_self _ _ _) nofun)
    | counted taken below =>
      exact Or.inl (.of_session (World.setSession_sessions_self _ _ _) (hat.refused below))

theorem Submission.within {evidence : ChecklistEvidence} {output : Option Json}
    {out : Except FsmError StepOutcome × World SessionLedger} (wf : engine.profile.WellFormed ed)
    (submission : Submission engine host sid pos evidence output w out)
    (hlive : LiveWithin engine sid w)
    (htrips : LedgersTrips engine sid w host (.submit pos evidence output)) :
    LiveWithin engine sid out.2 ∨ out.2.ledger.events = w.ledger.events := by
  cases submission with
  | refused => exact Or.inr rfl
  | late hc hlate trip =>
    cases trip with
    | refused => exact Or.inr rfl
    | failed =>
      obtain ⟨hs, -⟩ := checkSubmission_ok.mp hc
      exact Or.inl (.of_inactive (World.setSession_sessions_self _ _ _) nofun)
  | handled hc hlate handling =>
    obtain ⟨hs, active, here⟩ := checkSubmission_ok.mp hc
    have htrip := htrips pos evidence output _ rfl hs
    rw [route_handled hc hlate] at htrip
    exact handling.within (w := w.tick) wf hs here (hlive _ hs active) htrip

theorem Starting.within {initialContext : Option Json}
    {out : Except FsmError StepView × World SessionLedger} (wf : engine.profile.WellFormed ed)
    (starting : Starting engine host sid initialContext w out) :
    LiveWithin engine sid out.2 ∨ out.2.ledger.events = w.ledger.events := by
  have hfresh : ∀ {m k} (t : Time) (context : Json), entryPoint engine = .ok (m, k) →
      Within engine (freshSession engine sid t context ⟨m.stateId, (m.subAt k).id⟩) 0 k := by
    intro m k t context entry
    obtain ⟨rfl, hk, hlen⟩ := entryPoint_ok entry
    exact Within.fresh sid t context (.of_enabled hlen (wf.firstEnabled hlen hk).here) rfl
  cases starting with
  | invalid | unentered => exact Or.inr rfl
  | refused valid entry refused ledger gone =>
    refine Or.inl fun s hs => ?_
    rw [gone] at hs
    cases hs
  | stuck =>
    refine Or.inl fun s hs => ?_
    rw [World.setSession_sessions_self] at hs
    cases hs
  | started valid entry taken land =>
    exact Or.inl (land.within (World.setSession_sessions_self _ _ _) (hfresh _ _ entry))

theorem Storing.within {out : Except FsmError ArtifactRef × World SessionLedger}
    (storing : Storing host sid w out) (hlive : LiveWithin engine sid w) :
    LiveWithin engine sid out.2 ∨ out.2.ledger.events = w.ledger.events := by
  cases storing with
  | failed | refused => exact Or.inr rfl
  | stored hs active =>
    obtain ⟨i, j, hwithin⟩ := hlive _ hs active
    exact Or.inl (.of_session (World.setSession_sessions_self _ _ _) (hwithin.congr rfl))

theorem Recovering.events {out : Except FsmError SessionState × World SessionLedger}
    (recovering : Recovering engine sid w out) : out.2.ledger.events = w.ledger.events := by
  cases recovering with
  | failed | recovered => rfl

/-- **What a call leaves in memory is within its limits**, or the ledger is as it was. -/
theorem perform_within (wf : engine.profile.WellFormed ed) (hlive : LiveWithin engine sid w)
    (htrips : LedgersTrips engine sid w host call) :
    LiveWithin engine sid (perform engine sid host call w).2 ∨
      (perform engine sid host call w).2.ledger.events = w.ledger.events := by
  cases call with
  | start => exact (exec_startSession).within wf
  | submit => exact (exec_submitMilestone).within wf hlive htrips
  | store => exact (exec_storeArtifact).within hlive
  | recover => exact Or.inr (exec_recoverSession).events

/-! ## The moments of a call -/

/-- No step leaves the end of a call. -/
theorem Course.eq_of_settled (h : Course engine host sid call c d) (hc : c.stage = .settled) :
    d = c := by
  rcases ReflTransGen.cases_head h with rfl | ⟨c', hstep, -⟩
  · rfl
  · cases hstep with
    | advance _ hstage => rcases hstage with ⟨rfl, -⟩ | ⟨rfl, -⟩ <;> cases hc
    | trip _ _ hstage => rcases hstage with ⟨rfl, -⟩ | ⟨rfl, -⟩ | ⟨rfl, -⟩ <;> cases hc
    | _ => cases hc

/-- **Each moment but those in front of a breaker** recovers a session within its limits. -/
theorem Budgeted.moment (wf : engine.profile.WellFormed ed) (h : Budgeted engine sid es₀ call c)
    (rest : Course engine host sid call c d)
    (hlive : (∀ l, d.live = some l → l.status = .active → ∃ i j, Within engine l i j) ∨
      d.events = es₀)
    (hcut : ∀ e, d.events[c.events.length]? = some e → e.isRetryBreaker = false)
    (hs : replayEvents sid engine.profile c.events = .ok (some s)) (active : s.status = .active) :
    ∃ i j, Within engine s i j := by
  obtain ⟨hpre, fold, hfold, hsame, hok⟩ := h
  rw [hs] at hfold
  cases hfold
  -- a settled fold is within its limits already; else a check is still due
  rcases (hok s rfl).2 active with hwithin | ⟨hgrown, hstage⟩
  · exact hwithin
  have hlog : c.events <+: d.events := Runs.log_grows (step_growing engine host sid call) rest
  replace hlive := hlive.resolve_right fun hnone =>
    hgrown (hpre.eq_of_length_le (hnone ▸ hlog).length_le).symm
  have hmap : c.live.map SessionState.counted = (some s).map SessionState.counted := by
    rcases hstage with hstage | hstage | hstage <;> rwa [hstage] at hsame
  obtain ⟨l, hl, heq⟩ := Option.map_eq_some_iff.mp hmap
  have hactive : l.status = .active := (SessionState.sameCount heq).status.trans active
  suffices hwithin : ∃ i j, Within engine l i j by
    obtain ⟨i, j, hwithin⟩ := hwithin
    exact ⟨i, j, hwithin.congr heq⟩
  -- what the call does next is the check
  rcases ReflTransGen.cases_head rest with rfl | ⟨c', hstep, rest'⟩
  · exact hlive l hl hactive
  have hlog' := Runs.log_grows (step_growing engine host sid call) rest'
  cases hstep with
  | advance _ hadvance =>
    rcases hadvance with ⟨rfl, -⟩ | ⟨rfl, -⟩ <;> rcases hstage with h | h | h <;> cases h
  -- had the check failed, the next event would be the breaker that is cut
  | @trip s' pos b ledgered t es stage _ _ htrip =>
    obtain ⟨later, hlater⟩ := hlog'
    have hbreaker := hcut (eventAt t sid (.circuitBreakerTriggered b ledgered) pos Json.emptyObject)
      (by rw [← hlater]; simp)
    have hkind : b ≠ .globalTimeout := by
      rcases htrip with ⟨rfl, -⟩ | ⟨-, rfl⟩ | ⟨-, rfl | rfl⟩
      · rcases hstage with h | h | h <;> cases h
      · exact nofun
      · exact nofun
      · exact nofun
    simp [FsmEvent.isRetryBreaker, eventAt, hkind] at hbreaker
  -- the check held: the loop follows it, and the call ends within its limits
  | @loopBack s' pos i j k target t es placed checklist hloops hk htarget =>
    cases hl
    obtain ⟨hi, hj, hplace⟩ := locate_ok placed.located
    have hrange : engine.profile.InRange i k := .of_loopTarget hi hk
    obtain rfl := Course.eq_of_settled rest' rfl
    obtain ⟨i', j', hwithin⟩ := hlive _ rfl hactive
    obtain ⟨rfl, rfl⟩ := place_inj wf hrange hwithin.inRange
      (Option.some.inj ((congrArg some htarget).symm.trans hwithin.here))
    exact ⟨_, j, ⟨hi, hj⟩, hplace ▸ placed.here, hwithin.iteration, hwithin.streak,
      hwithin.approvals⟩
  | _ => rcases hstage with h | h | h <;> cases h

/-! ## Crashes and recoveries -/

variable (engine sid)

/-- No rejected checklist is counted that is not ledgered. -/
def LedgersRejections (w : World SessionLedger) (host : Host) (call : Call) : Prop :=
  ∀ pos evidence output i j missing, call = .submit pos evidence output →
    route engine sid (w.sessions sid) (host.clock w.ticks) pos evidence = .rejected i j missing →
      w.Takes

/-- The world after a call, or after a crash in it: memory is lost, and the ledger holds what
was there and the first `n` events of the call. -/
def occur (w : World SessionLedger) : Act → World SessionLedger
  | .call host call => (perform engine sid host call w).2
  | .crash host call n =>
    let w' := (perform engine sid host call w).2
    w'.crashed (w'.ledger.events.take (w.ledger.events.length + n))

/-- **Calls and crashes, moment by moment.** What every step of a call keeps, the end of a call
and a crash at any moment of it, every run keeps. -/
theorem occur_invariant {I : Snapshot → Prop} {w : World SessionLedger}
    (steps : ∀ {host call c d}, Step engine host sid call c d → I c → I d)
    (ends : ∀ {c}, I c → I { c with stage := .ready })
    (dies : ∀ {c}, I c → I ⟨none, c.events, .ready⟩) (acts : List Act)
    (h : I (snap sid w .ready)) : I (snap sid (acts.foldl (occur engine sid) w) .ready) := by
  induction acts generalizing w with
  | nil => exact h
  | cons x rest ih =>
    refine ih ?_
    cases x with
    | call host call =>
      obtain ⟨stage, course, -⟩ := @perform_course engine host sid call w
      exact ends (Runs.invariant (P := I) steps course h)
    | crash host call n =>
      obtain ⟨stage, course, -⟩ := @perform_course engine host sid call w
      have hlog : (snap sid w .ready).events <+: (snap sid _ stage).events :=
        Runs.log_grows (step_growing engine host sid call) course
      -- the ledger the crash leaves is the ledger of a moment of the call
      obtain ⟨c, hreach, -, hc⟩ := Runs.passes_prefix (step_growing engine host sid call) course
        (List.prefix_take_iff.mpr ⟨hlog, Nat.le_add_right _ n⟩) (List.take_prefix _ _)
      have hdead : I ⟨none, c.events, .ready⟩ := dies (Runs.invariant (P := I) steps hreach h)
      rw [hc] at hdead
      exact hdead

/-- No limit is reached without its breaker: a rejection that reaches one is ledgered
together with the breaker, and no crash parts them. -/
def KeepsTrips (w : World SessionLedger) : Act → Prop
  | .call host call => LedgersTrips engine sid w host call ∧ LedgersRejections engine sid w host call
  | .crash host call n => LedgersTrips engine sid w host call ∧
      ∀ e, (perform engine sid host call w).2.ledger.events[w.ledger.events.length + n]? = some e →
        e.isRetryBreaker = false

/-- Recovery finds a session whose rejections are accounted for, -/
def Accounted (es : List FsmEvent) : Prop :=
  ∃ fold, replayEvents sid engine.profile es = .ok fold ∧
    ∀ s, fold = some s → Accounts engine (macroRejections engine.profile es) s

/-- and which, if it is active, is within its limits. -/
def Solvent (es : List FsmEvent) : Prop :=
  ∀ s, replayEvents sid engine.profile es = .ok (some s) → s.status = .active →
    ∃ i j, Within engine s i j

/-- The `n`th event is no breaker that a rejection trips. -/
def CutsNoTrip (es : List FsmEvent) (n : Nat) : Prop :=
  ∀ e, es[n]? = some e → e.isRetryBreaker = false

/-- Every prefix is accounted for, and within its limits unless a breaker follows it. -/
def Audited (es : List FsmEvent) : Prop :=
  ∀ n, Accounted engine sid (es.take n) ∧ (CutsNoTrip es n → Solvent engine sid (es.take n))

/-- Memory, if there is any, counts what the ledger does. -/
def CountsAgree (w : World SessionLedger) : Prop :=
  w.sessions sid = none ∨ ∃ fold, replayEvents sid engine.profile w.ledger.events = .ok fold ∧
    (w.sessions sid).map SessionState.counted = fold.map SessionState.counted

variable {engine sid}

theorem Audited.whole (h : Audited engine sid es) :
    Accounted engine sid es ∧ Solvent engine sid es := by
  obtain ⟨haccounted, hsolvent⟩ := h es.length
  rw [List.take_length] at haccounted hsolvent
  refine ⟨haccounted, hsolvent fun e he => ?_⟩
  rw [List.getElem?_eq_none (Nat.le_refl _)] at he
  cases he

/-- A call begins within budget. -/
theorem Audited.budgeted (h : Audited engine sid w.ledger.events) (hagrees : CountsAgree engine sid w) :
    Budgeted engine sid w.ledger.events call (snap sid w .ready) := by
  obtain ⟨⟨fold, hfold, haccounts⟩, hsolvent⟩ := h.whole
  refine ⟨List.prefix_rfl, fold, hfold, ?_, fun s hs => ⟨haccounts s hs, fun active => Or.inl ?_⟩⟩
  · rcases hagrees with hnone | ⟨fold', hfold', hsame⟩
    · exact Or.inl (by rw [snap, hnone]; rfl)
    · rw [hfold] at hfold'
      cases hfold'
      refine Or.inr (Eq.trans ?_ hsame)
      rw [snap, Option.map_map]
      rfl
  · exact hsolvent s (hs ▸ hfold) active

theorem Audited.liveWithin (h : Audited engine sid w.ledger.events)
    (hagrees : CountsAgree engine sid w) : LiveWithin engine sid w := by
  intro l hl active
  obtain ⟨-, hsolvent⟩ := h.whole
  rcases hagrees with hnone | ⟨fold, hfold, hsame⟩
  · rw [hl] at hnone
    cases hnone
  · rw [hl] at hsame
    obtain ⟨s, rfl, heq⟩ := Option.map_eq_some_iff.mp hsame.symm
    obtain ⟨i, j, hwithin⟩ := hsolvent s hfold
      ((SessionState.sameCount heq).status.trans active)
    exact ⟨i, j, hwithin.congr heq⟩

/-- **A call keeps the ledger within budget**, at each of its appends. -/
theorem Audited.performed (wf : engine.profile.WellFormed ed) (h : Audited engine sid w.ledger.events)
    (hagrees : CountsAgree engine sid w) (htrips : LedgersTrips engine sid w host call) :
    Audited engine sid (perform engine sid host call w).2.ledger.events := by
  intro n
  obtain ⟨stage, course, -⟩ := @perform_course engine host sid call w
  have hlog : (snap sid w .ready).events <+: (snap sid _ stage).events :=
    Runs.log_grows (step_growing engine host sid call) course
  change w.ledger.events <+: (perform engine sid host call w).2.ledger.events at hlog
  by_cases hn : n < w.ledger.events.length
  · -- the cut is in front of the call
    obtain ⟨later, hlater⟩ := hlog
    obtain ⟨haccounted, hsolvent⟩ := h n
    rw [← hlater, List.take_append_of_le_length (Nat.le_of_lt hn)]
    refine ⟨haccounted, fun hcut => hsolvent fun e he => hcut e ?_⟩
    rw [List.getElem?_append_left hn, he]
  -- the cut is inside the call: some moment of its course has this very ledger
  · have hpre := List.prefix_take_iff.mpr ⟨hlog, Nat.le_of_not_lt hn⟩
    obtain ⟨c, hreach, hrest, hc⟩ := Runs.passes_prefix (step_growing engine host sid call)
      course hpre (List.take_prefix n _)
    have hbudget : Budgeted engine sid w.ledger.events call c :=
      Runs.invariant (fun hstep hc => hc.step wf hstep) hreach (h.budgeted hagrees)
    rw [← hc]
    constructor
    · obtain ⟨-, fold, hfold, -, hok⟩ := hbudget
      exact ⟨fold, hfold, fun s hs => (hok s hs).1⟩
    · intro hcut s hs active
      refine hbudget.moment wf hrest ?_ (fun e he => ?_) hs active
      · refine (perform_within wf (h.liveWithin hagrees) htrips).imp_left fun hlive l hl hactive => ?_
        obtain ⟨s', hs', rfl⟩ := Option.map_eq_some_iff.mp hl
        obtain ⟨i, j, hwithin⟩ := hlive s' hs' hactive
        exact ⟨i, j, hwithin.congr rfl⟩
      -- an event behind the moment is the event behind the cut
      · rw [hc, List.length_take] at he
        rcases Nat.le_total n (perform engine sid host call w).2.ledger.events.length with hle | hge
        · rw [Nat.min_eq_left hle] at he
          exact hcut e he
        · rw [Nat.min_eq_right hge, snap, List.getElem?_eq_none (Nat.le_refl _)] at he
          cases he

/-- A call that ledgers what it counts leaves memory and ledger counting the same. -/
theorem CountsAgree.performed (wf : engine.profile.WellFormed ed) (h : Audited engine sid w.ledger.events)
    (hagrees : CountsAgree engine sid w) (hrejections : LedgersRejections engine sid w host call) :
    CountsAgree engine sid (perform engine sid host call w).2 := by
  obtain ⟨stage, course, stops⟩ := @perform_course engine host sid call w
  have hbudget : Budgeted engine sid w.ledger.events call (snap sid _ stage) :=
    Runs.invariant (fun hstep hc => hc.step wf hstep) course (h.budgeted hagrees)
  obtain ⟨-, fold, hfold, hsame, -⟩ := hbudget
  have hnone : (snap sid (perform engine sid host call w).2 stage).live = none →
      CountsAgree engine sid (perform engine sid host call w).2 :=
    fun hlive => Or.inl (Option.map_eq_none_iff.mp hlive)
  have heq : (snap sid (perform engine sid host call w).2 stage).live.map SessionState.counted =
      fold.map SessionState.counted → CountsAgree engine sid (perform engine sid host call w).2 := by
    intro hlive
    refine Or.inr ⟨fold, hfold, Eq.trans ?_ hlive⟩
    rw [snap, Option.map_map]
    rfl
  cases stops with
  | ready => exact hsame.elim hnone heq
  | unborn | stillborn => exact hnone hsame
  -- a strike whose rejection was not taken is ruled out
  | bumped hcall hroute refused =>
    cases (hrejections _ _ _ _ _ _ hcall hroute).symm.trans refused
  | settled | refused | struck | landed | spent | passed => exact heq hsame

/-- A ledger cut where no breaker follows. -/
theorem Audited.take {n : Nat} (h : Audited engine sid es) (hcut : CutsNoTrip es n) :
    Audited engine sid (es.take n) := by
  intro k
  rw [List.take_take]
  refine ⟨(h _).1, fun hk => (h _).2 fun e he => ?_⟩
  -- either the second cut is the shorter one, or it is the first
  rcases Nat.lt_or_ge k n with hlt | hge
  · rw [Nat.min_eq_left (Nat.le_of_lt hlt)] at he
    exact hk e (by rw [List.getElem?_take_of_lt hlt, he])
  · rw [Nat.min_eq_right hge] at he
    exact hcut e he

/-- **Calls and crashes keep the ledger within budget.** -/
theorem Audited.occur (wf : engine.profile.WellFormed ed) {x : Act}
    (hx : KeepsTrips engine sid w x) (h : Audited engine sid w.ledger.events)
    (hagrees : CountsAgree engine sid w) :
    Audited engine sid (occur engine sid w x).ledger.events ∧
      CountsAgree engine sid (occur engine sid w x) := by
  cases x with
  | call host call =>
    obtain ⟨htrips, hrejections⟩ := hx
    exact ⟨h.performed wf hagrees htrips, hagrees.performed wf h hrejections⟩
  | crash host call n =>
    obtain ⟨htrips, hcut⟩ := hx
    exact ⟨(h.performed wf hagrees htrips).take hcut, Or.inl rfl⟩

theorem audited_nil : Audited engine sid [] := by
  intro n
  rw [List.take_nil]
  exact ⟨⟨none, rfl, nofun⟩, fun _ s hs => nomatch hs⟩

/-- A submission changes nothing while no session is active. -/
theorem Submission.inactive {evidence : ChecklistEvidence} {output : Option Json}
    {out : Except FsmError StepOutcome × World SessionLedger}
    (submission : Submission engine host sid pos evidence output w out)
    (h : ∀ s, w.sessions sid = some s → s.status ≠ .active) : ∃ e, out = (.error e, w) := by
  cases submission with
  | refused => exact ⟨_, rfl⟩
  | late hc | handled hc =>
    obtain ⟨hs, active, -⟩ := checkSubmission_ok.mp hc
    exact absurd active (h _ hs)

variable (engine sid)

/-- What a run's ledger holds, and what can still be done behind it. -/
structure BudgetsHold (w : World SessionLedger) : Prop where
  /-- A prefix that no breaker was to follow recovers, if active, to a session within its
  limits. -/
  recovered : ∀ n, CutsNoTrip w.ledger.events n → Solvent engine sid (w.ledger.events.take n)
  /-- Since the last start, no macro has more rejections than it allows. -/
  bounded : ∀ n s, replayEvents sid engine.profile (w.ledger.events.take n) = .ok (some s) →
    ∀ i < engine.profile.pipeline.length,
      (macroRejections engine.profile (w.ledger.events.take n)).rejected (macroIdAt engine i) ≤
        rejectionLimit engine i
  /-- Once a macro has used them up, no session is recovered active, and every submission
  is refused. -/
  spent : ∀ i < engine.profile.pipeline.length, rejectionLimit engine i ≤
      (macroRejections engine.profile w.ledger.events).rejected (macroIdAt engine i) →
    (∀ s, replayEvents sid engine.profile w.ledger.events = .ok (some s) → s.status ≠ .active) ∧
    ∀ host pos evidence output, ∃ e,
      perform engine sid host (.submit pos evidence output) w = (.error e, w)

variable {engine sid}

theorem Audited.budgetsHold (wf : engine.profile.WellFormed ed)
    (h : Audited engine sid w.ledger.events) (hagrees : CountsAgree engine sid w) :
    BudgetsHold engine sid w where
  recovered n := (h n).2
  bounded n s hs i hi := by
    obtain ⟨⟨fold, hfold, haccounts⟩, -⟩ := h n
    rw [hs] at hfold
    cases hfold
    exact (haccounts s rfl).bounded hi
  spent i hi hspent := by
    obtain ⟨⟨fold, hfold, haccounts⟩, hsolvent⟩ := h.whole
    -- an active session would have one rejection to spare
    have hrecovered : ∀ s, replayEvents sid engine.profile w.ledger.events = .ok (some s) →
        s.status ≠ .active := by
      intro s hs
      rw [hs] at hfold
      cases hfold
      exact (haccounts s rfl).spent wf hi hspent (hsolvent s hs)
    refine ⟨hrecovered, fun host pos evidence output => ?_⟩
    -- memory agrees with the ledger on the status
    have hlive : ∀ l, w.sessions sid = some l → l.status ≠ .active := by
      intro l hl
      rcases hagrees with hnone | ⟨fold', hfold', hsame⟩
      · rw [hl] at hnone
        cases hnone
      · rw [hl] at hsame
        obtain ⟨s, rfl, heq⟩ := Option.map_eq_some_iff.mp hsame.symm
        rw [← (SessionState.sameCount heq).status]
        exact hrecovered s hfold'
    have hsubmission : Submission engine host sid pos evidence output w _ := exec_submitMilestone
    obtain ⟨e, he⟩ := hsubmission.inactive hlive
    refine ⟨e, ?_⟩
    rw [perform, he]
    rfl

/-- A reliable ledger takes every breaker, -/
theorem ledgersTrips_of_reliable (h : w.ledger.Reliable) : LedgersTrips engine sid w host call := by
  intro pos evidence output s _ _
  unfold TripLedgered
  split
  · exact fun _ _ => h _
  · exact fun _ _ => h _
  · trivial

/-- and every rejection. -/
theorem ledgersRejections_of_reliable (h : w.ledger.Reliable) :
    LedgersRejections engine sid w host call :=
  fun _ _ _ _ _ _ _ _ => h _

theorem occur_reliable {x : Act} (h : w.ledger.Reliable) :
    (occur engine sid w x).ledger.Reliable := by
  cases x with
  | call host call => exact perform_reliable h
  | crash host call n => exact perform_reliable h

/-- **Retry budgets survive crashes.** In every run of calls and crashes in which no
rejection that reaches a limit is ledgered without its breaker, the budgets hold. -/
theorem budgets_survive {vendor : Vendor} {library : Library} {p : Profile} {config : FsmConfig}
    {acts : List Act} (hvalid : validateProfile vendor.toSchemas library p = .ok ())
    (hfresh : w.Fresh sid)
    (hacts : Runs.Along (occur (new vendor p config) sid) (KeepsTrips (new vendor p config) sid)
      w acts) :
    BudgetsHold (new vendor p config) sid (acts.foldl (occur (new vendor p config) sid) w) := by
  have wf : (new vendor p config).profile.WellFormed vendor.ed := validateProfile_wellFormed hvalid
  have hrun := hacts.invariant (I := fun w => Audited (new vendor p config) sid w.ledger.events ∧
    CountsAgree (new vendor p config) sid w) (fun w x hx ⟨h, hagrees⟩ => h.occur wf hx hagrees)
    ⟨hfresh.1 ▸ audited_nil, Or.inl hfresh.2⟩
  exact hrun.1.budgetsHold wf hrun.2

/-- A crash in the second rejection, behind its event, and the recovery from it. -/
theorem budgets_survive_recovered :
    BudgetsHold (Sample.engine [Sample.checklist]) "s1"
      ([.call Sample.host (.start none), .call Sample.host (Sample.submit "check" .empty).2,
          .crash Sample.host (Sample.submit "check" .empty).2 1, .call Sample.host .recover].foldl
        (occur (Sample.engine [Sample.checklist]) "s1") (Sample.world fun _ => .ok ())) := by
  have hreliable : (Sample.world fun _ => .ok ()).ledger.Reliable := fun _ => rfl
  have hcalm : ∀ {w host call}, w.ledger.Reliable →
      LedgersTrips (Sample.engine [Sample.checklist]) "s1" w host call ∧
        LedgersRejections (Sample.engine [Sample.checklist]) "s1" w host call :=
    fun h => ⟨ledgersTrips_of_reliable h, ledgersRejections_of_reliable h⟩
  refine budgets_survive Sample.checklist_valid (Sample.world_fresh _ _)
    ⟨hcalm hreliable, hcalm (occur_reliable hreliable),
      ⟨(hcalm (occur_reliable (occur_reliable hreliable))).1, ?_⟩,
      hcalm (occur_reliable (occur_reliable (occur_reliable hreliable))), trivial⟩
  intro e he
  cases he

/-- Cut in front of the breaker of its third rejection, a session is recovered active with
its rejections used up, and then rejected a fourth time, or completed. -/
theorem budget_overrun :
    let engine := Sample.engine [Sample.checklist]
    let reject := (Sample.submit "check" .empty).2
    let crashed := [.call Sample.host (.start none), .call Sample.host reject,
      .call Sample.host reject, .crash Sample.host reject 1, .call Sample.host .recover].foldl
        (occur engine "s1") (Sample.world fun _ => .ok ())
    rejectionLimit engine 0 = 3 ∧
      (crashed.sessions "s1").map (fun s => (s.status, s.macroIteration)) = some (.active, 3) ∧
      (macroRejections engine.profile
        (occur engine "s1" crashed (.call Sample.host reject)).ledger.events).rejected "plan" = 4 ∧
      ((occur engine "s1" crashed (.call Sample.host
        (Sample.submit "check" Sample.done).2)).sessions "s1").map (·.status) = some .completed := by
  decide +kernel

end ProfileFsmEngine

end ProtocolEnforcer
