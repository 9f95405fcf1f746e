import ProtocolEnforcer.Fsm.Directory
import ProtocolEnforcer.Fsm.StepBound

/-!
# A validated profile never gets stuck

What the validator checks is what the engine looks up. In every state reached by calls and
restarts, the position of an active session names a sub-state of the profile, every index
the engine takes from it is in range, and a submission there is answered; only a completion
can fail, in its own ways.
-/

namespace ProtocolEnforcer

/-- Every library name of the profile resolves, and there is entropy. -/
structure Host.Provides (host : Host) (p : Profile) : Prop where
  entropy : ∃ bytes, host.getrandom = .ok bytes
  skills : ∀ m ∈ p.pipeline, ∀ sub ∈ m.subStates, ∀ name, sub.inject.bind (·.skill) = some name →
    ∃ content, host.library.resolve .skill name = .ok content
  protocols : ∀ m ∈ p.pipeline, ∀ sub ∈ m.subStates, ∀ name,
    sub.inject.bind (·.protocol) = some name →
      ∃ content, host.library.resolve .protocol name = .ok content

/-- A macro that is not empty has a sub-state at the next enabled index. -/
theorem nextEnabledIndex_lt {m : StateDef} {j : Nat} (h : j < m.subStates.length) :
    nextEnabledIndex m j < m.subStates.length := by
  unfold nextEnabledIndex
  cases hidx : (m.subStates.drop (j + 1)).findIdx? (·.enabled) with
  | none =>
    show m.subStates.length - 1 < _
    omega
  | some k =>
    obtain ⟨hk, -⟩ := List.findIdx?_eq_some_iff_getElem.mp hidx
    rw [List.length_drop] at hk
    show k + (j + 1) < _
    omega

theorem firstEnabledIndex_lt {m : StateDef} {k : Nat} (h : firstEnabledIndex m = .ok k) :
    k < m.subStates.length := by
  unfold firstEnabledIndex at h
  split at h
  · rename_i i hi
    cases h
    exact (List.findIdx?_eq_some_iff_getElem.mp hi).1
  · cases h

/-! ## What a host provides -/

section

variable {engine : ProfileFsmEngine} {ed : Ed25519} {host : Host} {i j : Nat}

theorem Host.Provides.renders (h : host.Provides engine.profile) (hrange : engine.profile.InRange i j)
    (initialContext : Option Json) :
    ∃ injected, renderInjection engine.vendor.toStringPretty ((engine.profile.stateAt i).subAt j)
      (engine.profile.stateAt i) host.library initialContext = .ok injected := by
  have hm := Profile.stateAt_mem hrange.macroIdx
  have hsub : (engine.profile.stateAt i).subAt j ∈ (engine.profile.stateAt i).subStates :=
    List.mem_of_getElem? (StateDef.getElem?_subAt hrange.subIdx)
  exact renderInjection_ok (h.skills _ hm _ hsub) (h.protocols _ hm _ hsub) initialContext

/-- A sub-state can be landed on. -/
theorem Host.Provides.lands (h : host.Provides engine.profile) (hrange : engine.profile.InRange i j)
    (initialContext : Option Json) : engine.landingError host i j initialContext = none := by
  obtain ⟨injected, hr⟩ := h.renders hrange initialContext
  obtain ⟨bytes, hbytes⟩ := h.entropy
  have hn : newChallengeHex host.getrandom = .ok (toHex bytes) := by
    rw [hbytes]
    rfl
  rw [ProfileFsmEngine.landingError, hr]
  dsimp only
  by_cases hgate : engine.profile.typeAt i j = .humanApproval
  · rw [issueFor_gate hgate hn]
  · rw [issueFor_other hgate]

/-- A looping macro has a target, and it renders. -/
theorem Host.Provides.loops (h : host.Provides engine.profile) (wf : engine.profile.WellFormed ed)
    (hi : i < engine.profile.pipeline.length) (hloops : engine.loops i = true) :
    engine.loopError host i = none := by
  have hloop : (engine.profile.stateAt i).loopState = true := (Bool.and_eq_true_iff.mp hloops).2
  obtain ⟨k, hk⟩ := wf.loopTarget (Profile.stateAt_mem hi) hloop
  obtain ⟨injected, hr⟩ := h.renders (.of_loopTarget hi hk) none
  have htarget : renderLoopTarget engine.vendor.toStringPretty (engine.profile.stateAt i)
      host.library = .ok (⟨(engine.profile.stateAt i).stateId,
        ((engine.profile.stateAt i).subAt k).id⟩, injected) := by
    rw [renderLoopTarget, hk]
    dsimp only
    rw [hr]
    rfl
  rw [ProfileFsmEngine.loopError, htarget]

end

namespace ProfileFsmEngine

variable {engine : ProfileFsmEngine} {sid : String} {ed : Ed25519} {host : Host} {i j k : Nat}
  {pos : Position} {s : SessionState} {w : World SessionLedger}

/-! ## Answers -/

/-- An outcome or a tripped breaker; or, with nothing left to do but to complete the last
macro, one of the errors of a completion. -/
def Answered (engine : ProfileFsmEngine) (i j : Nat) (evidence : ChecklistEvidence) {α : Type}
    (r : Except FsmError α) : Prop :=
  isStep r = true ∨
    i + 1 = engine.profile.pipeline.length ∧ engine.profile.typeAt i j = .checklist ∧
      missingCriteria (criteriaAt engine i j) evidence = [] ∧
      ∃ e, r = .error e ∧ CompletionError e

theorem Answered.map {evidence : ChecklistEvidence} {α β : Type} {f : α → β}
    {r : Except FsmError α} (h : Answered engine i j evidence r) :
    Answered engine i j evidence (r.map f) := by
  rcases h with hstep | ⟨hend, checklist, hmet, e, rfl, he⟩
  · exact Or.inl (isStep_map.trans hstep)
  · exact Or.inr ⟨hend, checklist, hmet, e, rfl, he⟩

theorem Landing.answers {initialContext : Option Json} {α : Type}
    {f : Position × RenderedInjection → α}
    {out : Except FsmError (Position × RenderedInjection) × World SessionLedger}
    (land : Landing engine host sid i j initialContext w s out) (hledger : w.ledger.Reliable)
    (h : host.Provides engine.profile) (hrange : engine.profile.InRange i j) :
    isStep (out.1.map f) = true := by
  cases land with
  | unlandable fails => exact absurd (fails.symm.trans (h.lands hrange _)) nofun
  | unchallenged _ _ _ refused => exact hledger.elim refused
  | arrived | challenged => rfl

theorem Advance.answers {out : Except FsmError StepOutcome × World SessionLedger}
    (wf : engine.profile.WellFormed ed) (adv : Advance engine host sid i j pos w s out)
    (hledger : w.ledger.Reliable) (h : host.Provides engine.profile)
    (hrange : engine.profile.InRange i j) (hty : engine.profile.typeAt i j ≠ .checklist) :
    isStep out.1 = true := by
  cases adv with
  | refused refused => exact hledger.elim refused
  | moved taken hk hnext land =>
    have hafter := wf.nextEnabled hrange hty
    rw [← hk] at hafter
    exact land.answers hledger h (.of_enabled hrange.macroIdx hafter.here)

theorem Tripped.answers {b : CircuitBreakerType}
    {out : Except FsmError StepOutcome × World SessionLedger} (trip : Tripped host sid b pos w s out)
    (hledger : w.ledger.Reliable) : isStep out.1 = true := by
  cases trip with
  | refused refused => exact hledger.elim refused
  | failed => rfl

/-- **A submission at a place of the profile is answered.** -/
theorem Handling.answers {evidence : ChecklistEvidence} {output : Option Json}
    {out : Except FsmError StepOutcome × World SessionLedger} (wf : engine.profile.WellFormed ed)
    (handling : Handling engine host sid (engine.profile.place i j) evidence output w s out)
    (hledger : w.ledger.Reliable) (h : host.Provides engine.profile)
    (hrange : engine.profile.InRange i j) : Answered engine i j evidence out.1 := by
  cases handling with
  | lost hroute =>
    have hlost := routeAt_eq hroute
    exact absurd ((locate_place wf hrange).symm.trans hlost) nofun
  | plain hroute advance =>
    obtain ⟨hlocate, -, hty⟩ := routeAt_eq hroute
    obtain ⟨rfl, rfl⟩ := indices_of_locate wf hrange hlocate
    exact Or.inl (advance.answers wf hledger h hrange hty)
  | approved hroute accept =>
    obtain ⟨hlocate, gate, -⟩ := routeAt_eq hroute
    obtain ⟨rfl, rfl⟩ := indices_of_locate wf hrange hlocate
    cases accept with
    | refused refused => exact hledger.elim refused
    | accepted taken advance =>
      exact Or.inl (advance.answers (w := approvedAt ..) wf hledger h hrange (by rw [gate]; decide))
  | passed hroute advance =>
    obtain ⟨hlocate, -, -, hlast⟩ := routeAt_eq hroute
    obtain ⟨rfl, rfl⟩ := indices_of_locate wf hrange hlocate
    have hlen : i + 1 < engine.profile.pipeline.length := by
      have := hrange.macroIdx
      omega
    cases advance with
    | refused refused => exact hledger.elim refused
    | stranded _ _ refused => exact hledger.elim refused
    | unentered taken none =>
      obtain ⟨k, hk, -⟩ := firstEnabledIndex_spec (wf.stateAt hlen)
      exact absurd (none.symm.trans hk) nofun
    | moved taken hk hnext taken' land =>
      exact Or.inl (land.answers hledger h (.of_enabled hlen (wf.firstEnabled hlen hk).here))
  | final hroute complete =>
    obtain ⟨hlocate, checklist, hmet, hlast⟩ := routeAt_eq hroute
    obtain ⟨rfl, rfl⟩ := indices_of_locate wf hrange hlocate
    have hend : i + 1 = engine.profile.pipeline.length := by
      have := hrange.macroIdx
      omega
    cases complete with
    | unverified fails =>
      exact Or.inr ⟨hend, checklist, hmet, _, rfl, verifySessionArtifacts_error fails⟩
    | violated _ fails => exact Or.inr ⟨hend, checklist, hmet, _, rfl, contractResult_error fails⟩
    | untraced _ _ refused => exact hledger.elim refused
    | refused _ _ refused => exact hledger.elim refused
    | stranded _ _ _ refused => exact hledger.elim refused
    | completed => exact Or.inl rfl
  | rejected hroute reject =>
    obtain ⟨hlocate, -⟩ := routeAt_eq hroute
    obtain ⟨rfl, rfl⟩ := indices_of_locate wf hrange hlocate
    cases reject with
    | refused refused => exact hledger.elim refused
    | loopRefused _ _ _ _ refused => exact hledger.elim refused
    | tripped taken trips trip => exact Or.inl (trip.answers (w := struckAt ..) hledger)
    | loopStuck _ _ hloops stuck =>
      exact absurd (stuck.symm.trans (h.loops wf hrange.macroIdx hloops)) nofun
    | looped | rejected => exact Or.inl rfl
  | unapproved hroute refuse =>
    cases refuse with
    | refused refused => exact hledger.elim refused
    | tripped taken capped trip => exact Or.inl (trip.answers (w := refusedAt ..) hledger)
    | counted => exact Or.inl rfl

theorem Submission.answers {evidence : ChecklistEvidence} {output : Option Json}
    {out : Except FsmError StepOutcome × World SessionLedger} (wf : engine.profile.WellFormed ed)
    (submission : Submission engine host sid (engine.profile.place i j) evidence output w out)
    (hs : w.sessions sid = some s) (active : s.status = .active)
    (here : s.position = some (engine.profile.place i j)) (hledger : w.ledger.Reliable)
    (h : host.Provides engine.profile) (hrange : engine.profile.InRange i j) :
    Answered engine i j evidence out.1 := by
  have hcheck : checkSubmission sid (engine.profile.place i j) (w.sessions sid) = .ok s :=
    checkSubmission_ok.mpr ⟨hs, active, here⟩
  cases submission with
  | refused fails => exact absurd (hcheck.symm.trans fails) nofun
  | late hc hlate trip => exact Or.inl (trip.answers (w := w.tick) hledger)
  | handled hc hlate handling => exact handling.answers (w := w.tick) wf hledger h hrange

/-! ## Indices -/

/-- The indices a submission at sub-state `j` of macro `i` takes are in range. -/
structure Indexes (engine : ProfileFsmEngine) (i j : Nat) : Prop where
  /-- `pipeline[macro_idx]`, and `pipeline.len() - 1`. -/
  macroIdx : i < engine.profile.pipeline.length
  /-- `sub_states[sub_idx]`, and `sub_states.len() - 1`. -/
  subIdx : j < (engine.profile.stateAt i).subStates.length
  /-- What `step_checklist` expects to find. -/
  found : (engine.profile.stateAt i).subStates.find?
    (·.id = (engine.profile.place i j).subStateId) = some ((engine.profile.stateAt i).subAt j)
  /-- `sub_states[next_idx]`. -/
  nextIdx : nextEnabledIndex (engine.profile.stateAt i) j < (engine.profile.stateAt i).subStates.length
  /-- `pipeline[next_macro_idx]`, and its `sub_states[next_sub_idx]`. -/
  nextMacroIdx : i ≠ engine.profile.pipeline.length - 1 → i + 1 < engine.profile.pipeline.length ∧
    ∃ k, firstEnabledIndex (engine.profile.stateAt (i + 1)) = .ok k ∧
      k < (engine.profile.stateAt (i + 1)).subStates.length
  /-- `sub_states[idx]` of a loop-back. -/
  loopIdx : loops engine i = true → ∃ k,
    (engine.profile.stateAt i).firstEnabledExecuteIndex = some k ∧
      k < (engine.profile.stateAt i).subStates.length

theorem indexes_of_inRange (wf : engine.profile.WellFormed ed) (h : engine.profile.InRange i j) :
    Indexes engine i j where
  macroIdx := h.macroIdx
  subIdx := h.subIdx
  found := by
    have hidx := findIdx?_of_nodup (wf.stateAt h.macroIdx).subIds h.subIdx
    rw [← getElem!_pos _ j h.subIdx] at hidx
    rw [List.find?_eq_bind_findIdx?_getElem?, Profile.place, StateDef.subAt, hidx, Option.bind_some,
      List.getElem?_eq_getElem h.subIdx, getElem!_pos _ j h.subIdx]
  nextIdx := nextEnabledIndex_lt h.subIdx
  nextMacroIdx hlast := by
    have hlen : i + 1 < engine.profile.pipeline.length := by
      have := h.macroIdx
      omega
    obtain ⟨k, hk, -⟩ := firstEnabledIndex_spec (wf.stateAt hlen)
    exact ⟨hlen, k, hk, firstEnabledIndex_lt hk⟩
  loopIdx hloops := by
    obtain ⟨k, hk⟩ := wf.loopTarget (Profile.stateAt_mem h.macroIdx)
      (Bool.and_eq_true_iff.mp hloops).2
    exact ⟨k, hk, (Profile.InRange.of_loopTarget h.macroIdx hk).subIdx⟩

/-! ## Refusals -/

/-- A refused approval. -/
def isRefusal (e : FsmEvent) : Bool :=
  match e.eventType with
  | .approvalRejected _ _ _ => true
  | _ => false

/-- The refused approvals of a ledger. -/
def refusals (es : List FsmEvent) : Nat := es.countP isRefusal

theorem refusals_other {es : List FsmEvent} {e : FsmEvent} (h : isRefusal e = false) :
    refusals (es ++ [e]) = refusals es := by
  rw [refusals, List.countP_append, List.countP_singleton, h, if_neg Bool.false_ne_true]
  rfl

theorem refusals_snoc {es : List FsmEvent} {e : FsmEvent} :
    refusals (es ++ [e]) ≤ refusals es + 1 := by
  rw [refusals, List.countP_append, List.countP_singleton, refusals]
  split <;> omega

/-- The refusals in a row behind one more event. -/
def refusalStep (n : UInt32) (e : FsmEvent) : UInt32 :=
  match e.eventType with
  | .sessionStarted _ _ _ | .approvalChallengeIssued _ _ _ => 0
  | .approvalRejected _ _ _ => n + 1
  | _ => n

theorem recoverEvent_refusals {profile : Profile} {s' : SessionState} {e : FsmEvent}
    (h : recoverEvent profile s e = .ok s') (hty : ∀ a b c, e.eventType ≠ .sessionStarted a b c) :
    s'.consecutiveApprovalRejections = refusalStep s.consecutiveApprovalRejections e := by
  unfold refusalStep
  cases he : e.eventType with
  | sessionStarted a b c => exact absurd he (hty a b c)
  | macroAdvanced fromMacro toMacro =>
    obtain ⟨pos, rfl⟩ := recoverEvent_resets he h
    rfl
  | _ =>
    unfold recoverEvent at h
    rw [he] at h
    cases h
    rfl

theorem foldl_refusalStep_le {es : List FsmEvent} {n : UInt32} :
    (es.foldl refusalStep n).toNat ≤ n.toNat + refusals es := by
  induction es using List.reverseRecOn with
  | nil => exact Nat.le_add_right _ _
  | append_singleton es e ih =>
    rw [List.foldl_concat]
    generalize es.foldl refusalStep n = m at *
    cases he : e.eventType with
    | sessionStarted | approvalChallengeIssued =>
      simp only [refusalStep, he]
      exact Nat.zero_le _
    | approvalRejected =>
      have hone : refusals (es ++ [e]) = refusals es + 1 := by
        rw [refusals, List.countP_append, List.countP_singleton, isRefusal, he]
        rfl
      have hadd : (m + 1).toNat ≤ m.toNat + 1 := by
        rw [UInt32.toNat_add]
        exact Nat.mod_le _ _
      simp only [refusalStep, he]
      omega
    | _ =>
      simp only [refusalStep, he]
      rw [refusals_other (by rw [isRefusal, he])]
      exact ih

/-- No session has been refused more approvals in a row than its ledger holds. -/
theorem refusals_le {es : List FsmEvent} (h : replayEvents sid engine.profile es = .ok (some s)) :
    s.consecutiveApprovalRejections.toNat ≤ refusals es := by
  have hread : s.consecutiveApprovalRejections = es.foldl refusalStep 0 := by
    refine replayEvents_read (f := SessionState.consecutiveApprovalRejections) ?_ ?_ 0 h
    · intro a e s _ _ _ hty hs
      rw [(recoverStart_fresh hs).2.1, refusalStep, hty]
    · intro e s s' hne hev
      have hcount := recoverEvent_refusals hev hne
      exact hcount
  rw [hread]
  exact Nat.le_trans foldl_refusalStep_le (Nat.le_of_eq (Nat.zero_add _))

theorem Landing.refusals_eq {initialContext : Option Json}
    {out : Except FsmError (Position × RenderedInjection) × World SessionLedger}
    (land : Landing engine host sid i j initialContext w s out) :
    refusals out.2.ledger.events = refusals w.ledger.events := by
  cases land with
  | unlandable | arrived | unchallenged => rfl
  | challenged => exact refusals_other rfl

theorem Advance.refusals_eq {out : Except FsmError StepOutcome × World SessionLedger}
    (adv : Advance engine host sid i j pos w s out) :
    refusals out.2.ledger.events = refusals w.ledger.events := by
  cases adv with
  | refused => rfl
  | moved taken hk hnext land => exact land.refusals_eq.trans (refusals_other rfl)

theorem Tripped.refusals_eq {b : CircuitBreakerType}
    {out : Except FsmError StepOutcome × World SessionLedger}
    (trip : Tripped host sid b pos w s out) :
    refusals out.2.ledger.events = refusals w.ledger.events := by
  cases trip with
  | refused => rfl
  | failed => exact refusals_other rfl

/-- A submission is refused at most one approval. -/
theorem Handling.refusals_le {evidence : ChecklistEvidence} {output : Option Json}
    {out : Except FsmError StepOutcome × World SessionLedger}
    (handling : Handling engine host sid pos evidence output w s out) :
    refusals out.2.ledger.events ≤ refusals w.ledger.events + 1 := by
  have same : ∀ {es : List FsmEvent}, refusals es = refusals w.ledger.events →
      refusals es ≤ refusals w.ledger.events + 1 :=
    fun heq => Nat.le_succ_of_le (Nat.le_of_eq heq)
  cases handling with
  | lost => exact same rfl
  | plain hroute advance => exact same advance.refusals_eq
  | approved hroute accept =>
    cases accept with
    | refused => exact same rfl
    | accepted taken advance => exact same (advance.refusals_eq.trans (refusals_other rfl))
  | passed hroute advance =>
    cases advance with
    | refused => exact same rfl
    | unentered | stranded => exact same (refusals_other rfl)
    | moved taken hk hnext taken' land =>
      exact same (land.refusals_eq.trans ((refusals_other rfl).trans (refusals_other rfl)))
  | final hroute complete =>
    cases complete with
    | unverified | untraced | refused => exact same rfl
    | violated | stranded => exact same (refusals_other rfl)
    | completed => exact same ((refusals_other rfl).trans (refusals_other rfl))
  | rejected hroute reject =>
    cases reject with
    | refused => exact same rfl
    | tripped taken trips trip => exact same (trip.refusals_eq.trans (refusals_other rfl))
    | loopStuck | loopRefused | rejected => exact same (refusals_other rfl)
    | looped => exact same ((refusals_other rfl).trans (refusals_other rfl))
  | unapproved hroute refuse =>
    cases refuse with
    | refused => exact same rfl
    | tripped taken capped trip => exact trip.refusals_eq ▸ refusals_snoc
    | counted => exact refusals_snoc

/-- Whether a call is a submission. -/
def Call.isSubmission : Call → Bool
  | .submit _ _ _ => true
  | _ => false

theorem perform_refusals {call : Call} :
    refusals (perform engine sid host call w).2.ledger.events ≤
      refusals w.ledger.events + if Call.isSubmission call then 1 else 0 := by
  cases call with
  | start ctx =>
    have starting := @exec_startSession engine host sid ctx w
    show refusals (Effect.exec (startSession engine host sid ctx) w).2.ledger.events ≤ _
    generalize Effect.exec (startSession engine host sid ctx) w = out at *
    refine Nat.le_of_eq ?_
    cases starting with
    | invalid | unentered => rfl
    | refused valid entry refused ledger =>
      dsimp only
      rw [ledger]
      rfl
    | stuck valid entry taken land | started valid entry taken land =>
      exact land.refusals_eq.trans (refusals_other rfl)
  | submit pos evidence output =>
    have submission := @exec_submitMilestone engine host sid pos evidence output w
    show refusals (Effect.exec (submitMilestone engine host sid pos evidence output) w).2.ledger.events ≤ _
    generalize Effect.exec (submitMilestone engine host sid pos evidence output) w = out at *
    cases submission with
    | refused => exact Nat.le_add_right _ _
    | late hc hlate trip => exact Nat.le_succ_of_le (Nat.le_of_eq trip.refusals_eq)
    | handled hc hlate handling => exact handling.refusals_le
  | store stepId data mimeType =>
    have storing := @exec_storeArtifact engine host sid stepId data mimeType w
    show refusals (Effect.exec (storeArtifact engine host sid stepId data mimeType) w).2.ledger.events ≤ _
    generalize Effect.exec (storeArtifact engine host sid stepId data mimeType) w = out at *
    refine Nat.le_of_eq ?_
    cases storing with
    | failed | refused => rfl
    | stored => exact refusals_other rfl
  | recover => exact Nat.le_of_eq (congrArg refusals (exec_recoverSession).events)

/-! ## Runs of calls and restarts -/

/-- No counter is at the maximum of its type. -/
structure CountersFit (s : SessionState) : Prop where
  iteration : s.macroIteration.toNat + 1 < 2 ^ 32
  streak : s.consecutiveIdenticalRejections.toNat + 1 < 2 ^ 32
  refusals : s.consecutiveApprovalRejections.toNat + 1 < 2 ^ 32

/-- A session counts within its limits, and its refusals within the submissions. -/
theorem Within.countersFit {n : Nat} (h : Within engine s i j)
    (hrefusals : s.consecutiveApprovalRejections.toNat ≤ n) (hn : n + 1 < 2 ^ 32) :
    CountersFit s where
  iteration := by
    have hlt := h.iteration
    have hmax := (engine.profile.stateAt i).maxIterations.toNat_lt
    rw [rejectionLimit] at hlt
    omega
  streak := by
    have hlt := h.streak
    have hmax := engine.profile.settings.oscillationDetectionThreshold.toNat_lt
    rw [oscillationLimit] at hlt
    omega
  refusals := by omega

/-- Whether an act is a submission. -/
def isSubmission : Act → Bool
  | .call _ call => Call.isSubmission call
  | .crash _ _ _ => false

/-- An act that interrupts no call: a call, or a restart, which is a crash in a call that
appends nothing. -/
def Whole : Act → Prop
  | .call _ _ | .crash _ .recover _ => True
  | .crash _ _ _ => False

/-- Memory and ledger count within the limits, and no more refusals than `n`. -/
structure Sound (engine : ProfileFsmEngine) (sid : String) (w : World SessionLedger) (n : Nat) :
    Prop where
  reliable : w.ledger.Reliable
  audited : Audited engine sid w.ledger.events
  agrees : CountsAgree engine sid w
  refusals : refusals w.ledger.events ≤ n

theorem sound_of_fresh (hfresh : w.Fresh sid) (hledger : w.ledger.Reliable) :
    Sound engine sid w 0 where
  reliable := hledger
  audited := hfresh.1 ▸ audited_nil
  agrees := Or.inl hfresh.2
  refusals := by
    rw [hfresh.1]
    exact Nat.le_refl 0

theorem Sound.occur {n : Nat} (wf : engine.profile.WellFormed ed) (h : Sound engine sid w n)
    {x : Act} (hx : Whole x) :
    Sound engine sid (occur engine sid w x) (n + if isSubmission x then 1 else 0) := by
  have hkeeps : KeepsTrips engine sid w x := by
    cases x with
    | call host call =>
      exact ⟨ledgersTrips_of_reliable h.reliable, ledgersRejections_of_reliable h.reliable⟩
    | crash host call k =>
      cases call with
      | recover =>
        refine ⟨ledgersTrips_of_reliable h.reliable, fun e he => ?_⟩
        have hsame : (perform engine sid host .recover w).2.ledger.events = w.ledger.events :=
          (exec_recoverSession).events
        rw [hsame, List.getElem?_eq_none (Nat.le_add_right _ _)] at he
        cases he
      | start | submit | store => exact hx.elim
  obtain ⟨haudited, hagrees⟩ := h.audited.occur wf hkeeps h.agrees
  refine ⟨occur_reliable h.reliable, haudited, hagrees, ?_⟩
  cases x with
  | call host call => exact Nat.le_trans perform_refusals (Nat.add_le_add_right h.refusals _)
  | crash host call k =>
    cases call with
    | recover =>
      have hsame : (perform engine sid host .recover w).2.ledger.events = w.ledger.events :=
        (exec_recoverSession).events
      refine Nat.le_trans (List.Sublist.countP_le (List.take_sublist _ _)) ?_
      rw [hsame]
      exact Nat.le_trans h.refusals (Nat.le_add_right _ _)
    | start | submit | store => exact hx.elim

theorem Sound.run {n : Nat} (wf : engine.profile.WellFormed ed) (h : Sound engine sid w n)
    {acts : List Act} (hacts : ∀ x ∈ acts, Whole x) :
    Sound engine sid (acts.foldl (ProfileFsmEngine.occur engine sid) w)
      (n + acts.countP isSubmission) := by
  induction acts generalizing w n with
  | nil => exact h
  | cons x rest ih =>
    have hrest := ih (h.occur wf (hacts x (List.mem_cons_self ..)))
      fun y hy => hacts y (List.mem_cons_of_mem _ hy)
    rw [List.foldl_cons, List.countP_cons, Nat.add_comm (List.countP _ _), ← Nat.add_assoc]
    exact hrest

/-- An active session that is not stuck at sub-state `j` of macro `i`. -/
structure NotStuck {L : Type} [LedgerPort L] (engine : ProfileFsmEngine) (sid : String)
    (w : World L) (s : SessionState) (i j : Nat) : Prop where
  here : s.position = some (engine.profile.place i j)
  indexes : Indexes engine i j
  counters : CountersFit s
  answers : ∀ host evidence output, host.Provides engine.profile → Answered engine i j evidence
    (perform engine sid host (.submit (engine.profile.place i j) evidence output) w).1

theorem Sound.notStuck {n : Nat} (wf : engine.profile.WellFormed ed) (h : Sound engine sid w n)
    (hn : n + 1 < 2 ^ 32) (hs : w.sessions sid = some s) (active : s.status = .active) :
    ∃ i j, NotStuck engine sid w s i j := by
  obtain ⟨i, j, within⟩ := h.audited.liveWithin h.agrees s hs active
  have hrefusals : s.consecutiveApprovalRejections.toNat ≤ n := by
    rcases h.agrees with hnone | ⟨fold, hfold, hsame⟩
    · rw [hs] at hnone
      cases hnone
    · rw [hs] at hsame
      obtain ⟨f, rfl, heq⟩ := Option.map_eq_some_iff.mp hsame.symm
      rw [← (SessionState.sameCount heq).approvals]
      exact Nat.le_trans (refusals_le hfold) h.refusals
  refine ⟨i, j, within.here, indexes_of_inRange wf within.inRange,
    within.countersFit hrefusals hn, fun host evidence output hprovides => ?_⟩
  have submission : Submission engine host sid (engine.profile.place i j) evidence output w
      (Effect.exec (submitMilestone engine host sid (engine.profile.place i j) evidence output) w) :=
    exec_submitMilestone
  have hanswer : Answered engine i j evidence _ :=
    submission.answers wf hs active within.here h.reliable hprovides within.inRange
  exact hanswer.map

section

variable {vendor : Vendor} {p : Profile} {config : FsmConfig} {acts : List Act}

/-- The engine of a profile some host validates steps through a well-formed one. -/
theorem wellFormed_of_validated (hvalid : validated (new vendor p config) host = .ok ()) :
    (new vendor p config).profile.WellFormed vendor.ed := by
  have hprofile : validateProfile vendor.toSchemas host.validation p.withEnabledMacrosOnly =
      .ok () := by
    unfold validated at hvalid
    split at hvalid
    · assumption
    · cases hvalid
  have wf := validateProfile_wellFormed hprofile
  rw [Profile.withEnabledMacrosOnly_idem] at wf
  exact wf

/-- A start that answers has validated the profile. -/
theorem wellFormed_of_started {L : Type} [LedgerPort L] {w : World L}
    {initialContext : Option Json} {r : Reply}
    (hstart : (perform (new vendor p config) sid host (.start initialContext) w).1 = .ok r) :
    (new vendor p config).profile.WellFormed vendor.ed := by
  cases hvalid : validated (new vendor p config) host with
  | ok u => exact wellFormed_of_validated hvalid
  | error e =>
    have hexec : Effect.exec (startSession (new vendor p config) host sid initialContext) w =
        (.error e, w) := by
      rw [startSession, hvalid, Effect.exec_bind_error (Effect.exec_lift _ _)]
    unfold perform at hstart
    dsimp only at hstart
    rw [hexec] at hstart
    cases hstart

end

/-! ## Any sessions -/

/-- The ledger's own session sees no more submissions than there are, -/
theorem countP_ownAct (own : String) (acts : List (String × Act)) :
    (acts.flatMap (ownAct own)).countP isSubmission ≤ acts.countP (isSubmission ·.2) := by
  induction acts with
  | nil => exact Nat.le_refl _
  | cons x acts ih =>
    have hone : (ownAct own x).countP isSubmission ≤ if isSubmission x.2 then 1 else 0 := by
      obtain ⟨sid, act⟩ := x
      unfold ownAct
      split
      · exact Nat.le_of_eq List.countP_singleton
      · cases act with
        | call => exact Nat.zero_le _
        | crash => exact Nat.zero_le _
    rw [List.flatMap_cons, List.countP_append, List.countP_cons]
    omega

/-- and only whole acts. -/
theorem whole_ownAct (own : String) {acts : List (String × Act)} (h : ∀ x ∈ acts, Whole x.2) :
    ∀ act ∈ acts.flatMap (ownAct own), Whole act := by
  intro act hact
  obtain ⟨⟨sid, act'⟩, hx, hmem⟩ := List.mem_flatMap.mp hact
  unfold ownAct at hmem
  split at hmem
  · rw [List.mem_singleton.mp hmem]
    exact h _ hx
  · cases act' with
    | call => cases hmem
    | crash =>
      rw [List.mem_singleton.mp hmem]
      trivial

/-- Over the directory a session that is not stuck over its own file is not stuck either. -/
theorem NotStuck.ofView {own : String} {w : World DirectoryLedger} {v : World SessionLedger}
    (view : OwnView own w v) (h : NotStuck engine own v s i j) : NotStuck engine own w s i j where
  here := h.here
  indexes := h.indexes
  counters := h.counters
  answers host evidence output hprovides := by
    rw [view.performed.1]
    exact h.answers host evidence output hprovides

section

variable {vendor : Vendor} {p : Profile} {config : FsmConfig} {acts : List (String × Act)}
  {w : World DirectoryLedger}

/-- **A validated profile never gets stuck.** For a profile some start of which has answered,
in every state reached by calls on any sessions of one engine and restarts, with a ledger that
takes every append and every start that passes validation of the session the ledger was opened
for: an active session stands at a sub-state of the profile, the indices taken there are in
range, no counter is at its maximum, and every submission there is answered. -/
theorem never_stuck_when_own {sid₀ : String} {w₀ : World DirectoryLedger}
    {initialContext : Option Json} {r : Reply}
    (hstart : (perform (new vendor p config) sid₀ host (.start initialContext) w₀).1 = .ok r)
    (hw : Untouched w) (hacts : ∀ x ∈ acts, Whole x.2)
    (hown : ∀ x ∈ acts, StartsOwn (new vendor p config) w.ledger.sessionId (x.1, x.2.made))
    (hsubmissions : acts.countP (isSubmission ·.2) + 1 < 2 ^ 32) {s : SessionState}
    (hs : (acts.foldl (happens (new vendor p config)) w).sessions sid = some s)
    (active : s.status = .active) :
    ∃ i j, NotStuck (new vendor p config) sid (acts.foldl (happens (new vendor p config)) w)
      s i j := by
  have wf : (new vendor p config).profile.WellFormed vendor.ed := wellFormed_of_started hstart
  have view := hw.ownView.run hown
  obtain rfl := view.own_of_live hs
  have hbegin : Sound (new vendor p config) w.ledger.sessionId (unopened w.ticks) 0 :=
    sound_of_fresh unopened_fresh unopened_reliable
  have hsound := hbegin.run wf (whole_ownAct w.ledger.sessionId hacts)
  have hcount := countP_ownAct w.ledger.sessionId acts
  obtain ⟨i, j, hfree⟩ := hsound.notStuck wf (by omega) (view.session.symm.trans hs) active
  exact ⟨i, j, hfree.ofView view⟩

end

end ProfileFsmEngine

namespace Sample

/-- `s1` is started, restarted and recovered, while `s2` is submitted to and recovered. -/
def restartedActs : List (String × Act) :=
  [("s1", .call host (.start none)), ("s2", .call host (submit "check" done).2),
    ("s2", .crash host .recover 0), ("s2", .call host .recover), ("s1", .call host .recover)]

/-- Two macros, each with a checklist. -/
def shipped : Profile where
  name := "shipped"
  version := "1"
  pipeline :=
    [{ stateId := "plan", name := "Plan", subStates := [draft, checklist] },
      { stateId := "ship", name := "Ship", subStates := [{ checklist with id := "final" }] }]

/-- `s1` goes on to the second macro, and `s2`, started on the same ledger, takes a step in the
first. -/
def mixedActs : List (String × Act) :=
  [("s1", .call host (.start none)), ("s1", .call host (submit "draft" .empty).2),
    ("s2", .call host (.start none)), ("s1", .call host (submit "check" done).2),
    ("s2", .call host (submit "draft" .empty).2), ("s1", .call host .recover)]

end Sample

namespace ProfileFsmEngine

/-- At its gate. -/
theorem never_stuck_when_own_recovered :
    ∃ s, (Sample.restartedActs.foldl (happens (Sample.engine [Sample.signoff, Sample.checklist]))
        Sample.directory).sessions "s1" = some s ∧
      ∃ i j, NotStuck (Sample.engine [Sample.signoff, Sample.checklist]) "s1"
        (Sample.restartedActs.foldl (happens (Sample.engine [Sample.signoff, Sample.checklist]))
          Sample.directory) s i j := by
  have hstart : ∃ r, (perform (.new Sample.vendor
      (Sample.profile [Sample.signoff, Sample.checklist]) Sample.config) "s1" Sample.host
      (.start none) Sample.directory).1 = .ok r := ⟨_, rfl⟩
  obtain ⟨r, hr⟩ := hstart
  have hacts : ∀ x ∈ Sample.restartedActs, Whole x.2 := by
    simp [Sample.restartedActs, Whole]
  have hown : ∀ x ∈ Sample.restartedActs,
      StartsOwn (Sample.engine [Sample.signoff, Sample.checklist]) "s1" (x.1, x.2.made) := by
    simp [Sample.restartedActs, Sample.submit, StartsOwn, Act.made]
  have hstatus : ((Sample.restartedActs.foldl
      (happens (Sample.engine [Sample.signoff, Sample.checklist])) Sample.directory).sessions
      "s1").map (·.status) = some .active := by
    decide +kernel
  obtain ⟨s, hs, hactive⟩ := Option.map_eq_some_iff.mp hstatus
  have hfew : Sample.restartedActs.countP (isSubmission ·.2) + 1 < 2 ^ 32 := by decide +kernel
  unfold Sample.engine at hs ⊢
  exact ⟨s, hs, never_stuck_when_own hr Sample.directory_untouched hacts hown hfew hs hactive⟩

/-- Two sessions on one ledger: `s1` is recovered at a sub-state of the first macro in the
second, where no submission finds it. -/
theorem stuck_between_sessions :
    (perform (.new Sample.vendor Sample.shipped Sample.config) "s1" Sample.host (.start none)
      Sample.directory).1.isOk ∧
    Untouched Sample.directory ∧ (∀ x ∈ Sample.mixedActs, Whole x.2) ∧
    Sample.host.Provides Sample.shipped ∧
    let engine := new Sample.vendor Sample.shipped Sample.config
    let w := Sample.mixedActs.foldl (happens engine) Sample.directory
    (w.sessions "s1").map (fun s => (s.status, s.position)) =
        some (.active, some ⟨"ship", "check"⟩) ∧
      (perform engine "s1" Sample.host (.submit ⟨"ship", "check"⟩ Sample.done none) w).1 =
        .error (.internal "unknown sub-state 'check'") := by
  have hacts : ∀ x ∈ Sample.mixedActs, Whole x.2 := by
    simp [Sample.mixedActs, Whole]
  have hprovides : Sample.host.Provides Sample.shipped :=
    ⟨⟨_, rfl⟩, by simp [Sample.shipped, Sample.draft, Sample.checklist],
      by simp [Sample.shipped, Sample.draft, Sample.checklist]⟩
  refine ⟨by decide +kernel, Sample.directory_untouched, hacts, hprovides, by decide +kernel, ?_⟩
  rfl

end ProfileFsmEngine

end ProtocolEnforcer
