import ProtocolEnforcer.Fsm.Fidelity

/-!
# Crashes between two appends

A crash between two appends leaves a prefix of the events a run appended. What
recovery makes of it can be read off one event: the last that touches position,
status or challenge, its anchor. `Says` tells what each anchor says about the
recovered session, so that a prefix wedges a gate exactly when its anchor is an
approval, or a move onto a gate whose challenge is not ledgered yet.
-/

namespace ProtocolEnforcer

open Relation

/-- The events after which recovery has changed position, status or challenge. -/
def FsmEvent.isAnchor (e : FsmEvent) : Bool :=
  match e.eventType with
  | .sessionStarted _ _ _ | .subStateAdvanced _ _ | .macroAdvanced _ _ | .macroLoopedBack _ _ _
  | .approvalChallengeIssued _ _ _ | .approvalAccepted _ _ _ _ | .circuitBreakerTriggered _ _
  | .sessionCompleted _ _ => true
  | _ => false

/-- The last anchor of a list of events. -/
def lastAnchor (events : List FsmEvent) : Option FsmEvent :=
  (events.filter (·.isAnchor)).getLast?

section

variable {es : List FsmEvent} {e : FsmEvent}

theorem lastAnchor_anchor (h : e.isAnchor = true) : lastAnchor (es ++ [e]) = some e := by
  rw [lastAnchor, List.filter_append, List.filter_cons_of_pos h, List.filter_nil,
    List.getLast?_concat]

theorem lastAnchor_other (h : e.isAnchor = false) : lastAnchor (es ++ [e]) = lastAnchor es := by
  have hneg : ¬e.isAnchor = true := by rw [h]; decide
  rw [lastAnchor, List.filter_append, List.filter_cons_of_neg hneg, List.filter_nil,
    List.append_nil, lastAnchor]

theorem mem_of_lastAnchor (h : lastAnchor es = some e) : e ∈ es :=
  (List.mem_filter.mp (List.mem_of_getLast? h)).1

end

namespace ProfileFsmEngine

variable (engine : ProfileFsmEngine) (sid : String)

/-- What an anchor says about the session `s` recovered behind it. -/
inductive Says (s : SessionState) : FsmEvent → Prop where
  | started {t m k pipelineId version hash pos payload} (active : s.status = .active)
      (free : s.pendingApproval = none) (entry : entryPoint engine = .ok (m, k))
      (here : s.position = some (engine.profile.place 0 k)) :
      Says s (eventAt t sid (.sessionStarted pipelineId version hash) pos payload)
  | advanced {t i k fromSub} (active : s.status = .active) (free : s.pendingApproval = none)
      (here : s.position = some (engine.profile.place i k)) :
      Says s (eventAt t sid (.subStateAdvanced fromSub (engine.profile.place i k).subStateId)
        (engine.profile.place i k) Json.emptyObject)
  | nextMacro {t i k fromMacro pos} (active : s.status = .active)
      (free : s.pendingApproval = none) (hi : i < engine.profile.pipeline.length)
      (hk : firstEnabledIndex (engine.profile.stateAt i) = .ok k)
      (here : s.position = some (engine.profile.place i k)) :
      Says s (eventAt t sid (.macroAdvanced fromMacro (engine.profile.stateAt i).stateId) pos
        Json.emptyObject)
  | loopedBack {t i k fromSub toSub n pos} (execute : engine.profile.typeAt i k = .execute)
      (here : s.position = some (engine.profile.place i k)) :
      Says s (eventAt t sid (.macroLoopedBack fromSub toSub n) pos Json.emptyObject)
  | challenged {t i k nonce} (gate : engine.profile.typeAt i k = .humanApproval)
      (here : s.position = some (engine.profile.place i k))
      (pending : s.pendingApproval = some ⟨(engine.profile.place i k).macroId,
        (engine.profile.place i k).subStateId, nonce⟩) :
      Says s (eventAt t sid (.approvalChallengeIssued (engine.profile.place i k).macroId
        (engine.profile.place i k).subStateId nonce) (engine.profile.place i k) Json.emptyObject)
  | approved {t i k macroId subStateId nonce signature pos} (active : s.status = .active)
      (free : s.pendingApproval = none) (gate : engine.profile.typeAt i k = .humanApproval)
      (here : s.position = some (engine.profile.place i k)) :
      Says s (eventAt t sid (.approvalAccepted macroId subStateId nonce signature) pos
        Json.emptyObject)
  | tripped {t b ledgered pos} (failed : s.status = .failed) :
      Says s (eventAt t sid (.circuitBreakerTriggered b ledgered) pos Json.emptyObject)
  | completed {t path digest pos} (completed : s.status = .completed) :
      Says s (eventAt t sid (.sessionCompleted path digest) pos Json.emptyObject)

/-- The invariant of every moment: nothing has been started, or the anchor says what
recovery makes of the events, and memory stands where they do. -/
def AnchorHolds (c : Snapshot) : Prop :=
  (c.live = none ∧ c.events = []) ∨
    ∃ s e, Folds engine sid c.events (some s) ∧ lastAnchor c.events = some e ∧
      Says engine sid s e ∧
      ∀ l, c.live = some l → l.position = s.position ∧ l.status = s.status

variable {engine sid}

section

variable {es : List FsmEvent} {e : FsmEvent} {s l l' t : SessionState}

/-- An anchor appended behind a recovered session. -/
theorem AnchorHolds.anchor {stage : Stage} (hfold : Folds engine sid (es ++ [e]) (some t))
    (hanchor : e.isAnchor = true) (hsaid : Says engine sid t e)
    (hlive : l.position = t.position ∧ l.status = t.status) :
    AnchorHolds engine sid ⟨some l, es ++ [e], stage⟩ := by
  refine Or.inr ⟨t, e, hfold, lastAnchor_anchor hanchor, hsaid, ?_⟩
  rintro _ h
  cases h
  exact hlive

/-- What an anchor says depends on position, status and challenge alone. -/
theorem Says.congr (h : Says engine sid s e) (hpos : t.position = s.position)
    (hstatus : t.status = s.status) (hpending : t.pendingApproval = s.pendingApproval) :
    Says engine sid t e := by
  cases h with
  | started active free entry here =>
    exact .started (hstatus.trans active) (hpending.trans free) entry (hpos.trans here)
  | advanced active free here =>
    exact .advanced (hstatus.trans active) (hpending.trans free) (hpos.trans here)
  | nextMacro active free hi hk here =>
    exact .nextMacro (hstatus.trans active) (hpending.trans free) hi hk (hpos.trans here)
  | loopedBack execute here => exact .loopedBack execute (hpos.trans here)
  | challenged gate here pending =>
    exact .challenged gate (hpos.trans here) (hpending.trans pending)
  | approved active free gate here =>
    exact .approved (hstatus.trans active) (hpending.trans free) gate (hpos.trans here)
  | tripped failed => exact .tripped (hstatus.trans failed)
  | completed completed => exact .completed (hstatus.trans completed)

/-- Another event appended behind a recovered session. -/
theorem AnchorHolds.other {stage : Stage} {event : FsmEvent}
    (hfold : Folds engine sid (es ++ [event]) (some t)) (hother : event.isAnchor = false)
    (hlast : lastAnchor es = some e) (hsaid : Says engine sid s e)
    (hpos : t.position = s.position) (hstatus : t.status = s.status)
    (hpending : t.pendingApproval = s.pendingApproval)
    (hlive : l.position = s.position ∧ l.status = s.status) :
    AnchorHolds engine sid ⟨some l, es ++ [event], stage⟩ := by
  refine Or.inr ⟨t, e, hfold, (lastAnchor_other hother).trans hlast,
    hsaid.congr hpos hstatus hpending, ?_⟩
  rintro _ h
  cases h
  exact ⟨hlive.1.trans hpos.symm, hlive.2.trans hstatus.symm⟩

/-- Behind a session in memory there is a recovered one at the same place. -/
theorem AnchorHolds.fold {stage : Stage} (h : AnchorHolds engine sid ⟨some l, es, stage⟩) :
    ∃ s e, Folds engine sid es (some s) ∧ lastAnchor es = some e ∧ Says engine sid s e ∧
      l.position = s.position ∧ l.status = s.status := by
  obtain ⟨hnone, -⟩ | ⟨s, e, hfold, hlast, hsaid, hlive⟩ := h
  · cases hnone
  · exact ⟨s, e, hfold, hlast, hsaid, hlive l rfl⟩

end

/-- **One step keeps the invariant.** -/
theorem AnchorHolds.step {ed : Ed25519} {host : Host} {call : Call} {c d : Snapshot}
    (wf : engine.profile.WellFormed ed) (h : AnchorHolds engine sid c)
    (hstep : Step engine host sid call c d) : AnchorHolds engine sid d := by
  cases hstep with
  | @start ctx m k pos t live es hcall entry hpos =>
    subst hpos
    -- a restart inherits whatever the ledger folded to before
    have hfold : ∃ fold, Folds engine sid es fold := by
      rcases h with ⟨-, rfl⟩ | ⟨s, e, hfold, -⟩
      · exact ⟨none, none, rfl, rfl⟩
      · exact ⟨_, hfold⟩
    obtain ⟨fold, hfold⟩ := hfold
    exact .anchor (hfold.start entry rfl) rfl
      (.started rfl rfl entry (congrArg some (entryPoint_place entry))) ⟨rfl, rfl⟩
  | unborn | abort =>
    -- no memory is left, and the ledger's anchor is unchanged
    rcases h with ⟨-, hnil⟩ | ⟨s, e, hfold, hlast, hsaid, -⟩
    · exact Or.inl ⟨rfl, hnil⟩
    · exact Or.inr ⟨s, e, hfold, hlast, hsaid, nofun⟩
  | arrive => exact h
  | @issue s i j nonce t es pos here hpos gate minted =>
    obtain ⟨f, e, hfold, -, -, hp, hst⟩ := h.fold
    subst hpos
    exact .anchor (hfold.snoc nofun rfl rfl) rfl
      (.challenged gate (hp.symm.trans here) rfl) ⟨hp, hst⟩
  | @advance s pos i j k next t es stage placed hstage hk hnext =>
    obtain ⟨f, e, hfold, -, -, hp, hst⟩ := h.fold
    obtain ⟨-, -, hplace⟩ := locate_ok placed.located
    subst hnext
    have hmac : (engine.profile.place i k).macroId = pos.macroId := by rw [hplace]; rfl
    exact .anchor (hfold.snoc nofun (recoverEvent_subStateAdvanced
      (hp.symm.trans placed.here) hmac) rfl) rfl
      (.advanced (hst.symm.trans placed.active) rfl rfl) ⟨rfl, hst⟩
  | @approve s pos i j signature nonce evidence output t es placed hcall gate verdict =>
    obtain ⟨f, e, hfold, -, -, hp, hst⟩ := h.fold
    obtain ⟨-, -, hplace⟩ := locate_ok placed.located
    exact .anchor (hfold.snoc nofun rfl rfl) rfl
      (.approved (hst.symm.trans placed.active) rfl gate
        ((hp.symm.trans placed.here).trans (congrArg some hplace))) ⟨hp, hst⟩
  | refuse placed hcall gate verdict =>
    -- a refusal is no anchor: the last one still says where the session is
    obtain ⟨f, e, hfold, hlast, hsaid, hlive⟩ := h.fold
    exact .other (hfold.snoc nofun rfl rfl) rfl hlast hsaid rfl rfl rfl hlive
  | trip active here hstage =>
    obtain ⟨f, e, hfold, -, -, hp, -⟩ := h.fold
    exact .anchor (hfold.snoc nofun rfl rfl) rfl (.tripped rfl) ⟨hp, rfl⟩
  | strike placed hcall checklist hmissing =>
    obtain ⟨f, e, hfold, hlast, hsaid, hlive⟩ := h.fold
    -- the strike is counted in memory only
    refine Or.inr ⟨f, e, hfold, hlast, hsaid, ?_⟩
    rintro _ hl
    cases hl
    exact hlive
  | reject placed hcall checklist hmissing =>
    obtain ⟨f, e, hfold, hlast, hsaid, hlive⟩ := h.fold
    exact .other (hfold.snoc nofun rfl rfl) rfl hlast hsaid rfl rfl rfl hlive
  | @loopBack s pos i j k target t es placed checklist hloops hk htarget =>
    obtain ⟨f, e, hfold, -, -, hp, hst⟩ := h.fold
    obtain ⟨-, -, hplace⟩ := locate_ok placed.located
    obtain ⟨⟨sub, hsub, -, hexec⟩, -⟩ := firstEnabledExecuteIndex_spec hk
    subst htarget
    have hmac : (engine.profile.place i k).macroId = pos.macroId := by rw [hplace]; rfl
    have execute : engine.profile.typeAt i k = .execute := by
      rw [Profile.typeAt_eq hsub, hexec]
    exact .anchor (hfold.snoc nofun (recoverEvent_macroLoopedBack
      (hp.symm.trans placed.here) hmac) rfl) rfl (.loopedBack execute rfl) ⟨rfl, hst⟩
  | pass placed hcall checklist hmet =>
    obtain ⟨f, e, hfold, hlast, hsaid, hlive⟩ := h.fold
    exact .other (hfold.snoc nofun rfl rfl) rfl hlast hsaid rfl rfl rfl hlive
  | @nextMacro s pos i j k next t es placed checklist hlast hk hnext =>
    obtain ⟨f, e, hfold, -, -, hp, hst⟩ := h.fold
    subst hnext
    exact .anchor (hfold.snoc nofun (recoverEvent_macroAdvanced wf hlast hk) rfl) rfl
      (.nextMacro (hst.symm.trans placed.active) rfl hlast hk rfl) ⟨rfl, hst⟩
  | complete placed checklist hlast =>
    obtain ⟨f, e, hfold, -⟩ := h.fold
    exact .anchor (hfold.snoc nofun rfl rfl) rfl (.completed rfl) ⟨rfl, rfl⟩
  | violate placed checklist =>
    obtain ⟨f, e, hfold, hlast, hsaid, hlive⟩ := h.fold
    exact .other (hfold.snoc nofun rfl rfl) rfl hlast hsaid rfl rfl rfl hlive
  | store active hcall =>
    obtain ⟨f, e, hfold, hlast, hsaid, hlive⟩ := h.fold
    exact .other (hfold.snoc nofun rfl rfl) rfl hlast hsaid rfl rfl rfl hlive
  | @recover live s es hcall hs =>
    rcases h with ⟨-, rfl⟩ | ⟨f, e, hfold, hlast, hsaid, -⟩
    · cases hs
    -- the recovered session is the fold itself
    · refine Or.inr ⟨f, e, hfold, hlast, hsaid, ?_⟩
      obtain ⟨s₀, hs₀, heq⟩ := hfold
      rw [hs] at hs₀
      cases hs₀
      cases heq
      rintro _ hl
      cases hl
      exact ⟨rfl, rfl⟩

/-! ## Prefixes -/

variable (engine sid)

/-- A session recovered from `es`, active and at a gate, holds a challenge for that
gate that `es` ledgers, and a signature over it is an approval. -/
def Unwedged (es : List FsmEvent) : Prop :=
  ∀ s i j, replayEvents sid engine.profile es = .ok (some s) → s.status = .active →
    engine.profile.typeAt i j = .humanApproval →
    s.position = some (engine.profile.place i j) →
    ∃ nonce t, s.pendingApproval = some ⟨(engine.profile.place i j).macroId,
        (engine.profile.place i j).subStateId, nonce⟩ ∧
      eventAt t sid (.approvalChallengeIssued (engine.profile.place i j).macroId
        (engine.profile.place i j).subStateId nonce) (engine.profile.place i j)
          Json.emptyObject ∈ es ∧
      ∀ evidence signature pubkey, submittedSignature evidence = some signature →
        ((engine.profile.stateAt i).subAt j).approverPubkey = some pubkey →
        verifyApprovalHex engine.vendor.ed pubkey sid (engine.profile.place i j).macroId
          (engine.profile.place i j).subStateId nonce signature = true →
        routeAt engine sid s (engine.profile.place i j) evidence = .approved i j signature nonce

/-- The anchor of `es` is neither an approval nor a move onto a gate. -/
def CutIsSafe (es : List FsmEvent) : Prop :=
  ∀ e, lastAnchor es = some e →
    match e.eventType with
    | .sessionStarted _ _ _ => ∀ m k, entryPoint engine = .ok (m, k) →
        engine.profile.typeAt 0 k ≠ .humanApproval
    | .subStateAdvanced _ toSub => ∀ i k, e.stepId = some (engine.profile.place i k).stepId →
        toSub = (engine.profile.place i k).subStateId →
        engine.profile.typeAt i k ≠ .humanApproval
    | .macroAdvanced _ toMacro => ∀ i k, toMacro = (engine.profile.stateAt i).stateId →
        firstEnabledIndex (engine.profile.stateAt i) = .ok k →
        engine.profile.typeAt i k ≠ .humanApproval
    | .approvalAccepted _ _ _ _ => False
    | _ => True

variable {engine sid} {ed : Ed25519} {es : List FsmEvent}

/-- A session recovered without a challenge stands on no gate of an open prefix. -/
theorem Unwedged.ungated (h : Unwedged engine sid es) {s : SessionState} {i j : Nat}
    (hreplay : replayEvents sid engine.profile es = .ok (some s)) (active : s.status = .active)
    (free : s.pendingApproval = none) (here : s.position = some (engine.profile.place i j)) :
    engine.profile.typeAt i j ≠ .humanApproval := by
  intro gate
  obtain ⟨nonce, t, hsome, -⟩ := h s i j hreplay active gate here
  rw [free] at hsome
  cases hsome

/-- A prefix that wedges no gate was cut safely. -/
theorem Unwedged.cutIsSafe (h : Unwedged engine sid es) (wf : engine.profile.WellFormed ed)
    {s : SessionState} {e : FsmEvent}
    (hreplay : replayEvents sid engine.profile es = .ok (some s))
    (hlast : lastAnchor es = some e) (hsaid : Says engine sid s e) : CutIsSafe engine es := by
  intro e' he'
  rw [hlast] at he'
  cases he'
  -- an anchor that leaves no challenge cannot have put the session at a gate
  cases hsaid with
  | started active free entry here =>
    rintro m' k' entry'
    rw [entry] at entry'
    cases entry'
    exact h.ungated hreplay active free here
  | advanced active free here =>
    rintro i' k' hstep hsub
    have hplace := place_eq_of_stepId (Option.some.inj hstep) hsub
    exact h.ungated hreplay active free (here.trans (congrArg some hplace))
  | nextMacro active free hi hk here =>
    rintro i' k' hmac hk' gate
    -- macro ids are distinct, so the event names this very macro
    obtain rfl := stateId_inj wf hi
      (Profile.inRange_of_typeAt (by rw [gate]; decide)).macroIdx hmac
    rw [hk] at hk'
    cases hk'
    exact h.ungated hreplay active free here gate
  | approved active free gate here => exact h.ungated hreplay active free here gate
  | loopedBack | challenged | tripped | completed => trivial

/-- A prefix that was cut safely wedges no gate. -/
theorem CutIsSafe.unwedged (h : CutIsSafe engine es) (wf : engine.profile.WellFormed ed)
    {s : SessionState} {e : FsmEvent}
    (hreplay : replayEvents sid engine.profile es = .ok (some s))
    (hlast : lastAnchor es = some e) (hsaid : Says engine sid s e) : Unwedged engine sid es := by
  intro s' i j hs' active gate hpos
  rw [hreplay] at hs'
  cases hs'
  have hrange : engine.profile.InRange i j :=
    Profile.inRange_of_typeAt (by rw [gate]; decide)
  have hcut := h e hlast
  -- the anchor says where recovery stands; only a challenge can stand at a gate
  cases hsaid with
  | started _ _ entry here =>
    obtain ⟨rfl, hk, hlen⟩ := entryPoint_ok entry
    obtain ⟨rfl, rfl⟩ := place_unique wf hrange
      (.of_enabled hlen (wf.firstEnabled hlen hk).here) hpos here
    exact absurd gate (hcut _ _ entry)
  | advanced _ _ here =>
    have hplace := Option.some.inj (here.symm.trans hpos)
    exact absurd gate (hcut i j (congrArg (fun p => some (Position.stepId p)) hplace)
      (congrArg Position.subStateId hplace))
  | nextMacro _ _ hi hk here =>
    obtain ⟨rfl, rfl⟩ := place_unique wf hrange
      (.of_enabled hi (wf.firstEnabled hi hk).here) hpos here
    exact absurd gate (hcut _ _ rfl hk)
  | loopedBack execute here =>
    obtain ⟨rfl, rfl⟩ := place_unique wf hrange
      (Profile.inRange_of_typeAt (by rw [execute]; decide)) hpos here
    rw [execute] at gate
    cases gate
  | challenged gate' here pending =>
    obtain ⟨rfl, rfl⟩ := place_unique wf hrange
      (Profile.inRange_of_typeAt (by rw [gate']; decide)) hpos here
    -- the anchor is the challenge itself, and it is on the ledger
    refine ⟨_, _, pending, mem_of_lastAnchor hlast, ?_⟩
    intro evidence signature pubkey hsig hkey hverify
    unfold routeAt
    rw [locate_place wf hrange, pending]
    dsimp only
    rw [gate]
    dsimp only
    rw [check_of_verify hsig hkey hverify]
  | approved => exact hcut.elim
  | tripped failed => exact absurd (active.symm.trans failed) nofun
  | completed completed => exact absurd (active.symm.trans completed) nofun

/-- **A crash and the gate.** For a validated profile, every run from a fresh world, its
appends failing or not, and every prefix of the events it appended: what recovery makes
of the prefix can be opened by the approver exactly when the cut is not behind an
approval and not between a move onto a gate and its challenge. -/
theorem crash_unwedged_iff {vendor : Vendor} {library : Library} {p : Profile}
    {config : FsmConfig} {w : World SessionLedger} {calls : List (Host × Call)}
    (hvalid : validateProfile vendor.toSchemas library p = .ok ()) (hfresh : w.Fresh sid)
    (hpre : es <+: (runCalls (new vendor p config) sid w calls).ledger.events) :
    Unwedged (new vendor p config) sid es ↔ CutIsSafe (new vendor p config) es := by
  have wf : (new vendor p config).profile.WellFormed vendor.ed := validateProfile_wellFormed hvalid
  have hnil : (snap sid w .ready).events <+: es := by
    rw [snap, hfresh.1]
    exact List.nil_prefix
  -- a prefix of the ledger is the whole ledger at some moment of the run
  obtain ⟨c, hmoves, -, rfl⟩ := Runs.passes_prefix move_growing (run_moves w calls) hnil hpre
  have hbegin : AnchorHolds (new vendor p config) sid (snap sid w .ready) :=
    Or.inl ⟨by rw [snap, hfresh.2]; rfl, hfresh.1⟩
  have hcut : AnchorHolds (new vendor p config) sid c := by
    refine Runs.invariant (fun hmove hc => ?_) hmoves hbegin
    cases hmove with
    | step hstep => exact hc.step wf hstep
    | next => exact hc
  rcases hcut with ⟨-, hempty⟩ | ⟨f, e, ⟨f₀, hreplay, hf⟩, hlast, hsaid, -⟩
  · rw [hempty]
    -- nothing is recovered from an empty ledger
    exact iff_of_true (fun s i j h => by cases h) (fun e h => by cases h)
  · obtain ⟨s, rfl, rfl⟩ := Option.map_eq_some_iff.mp hf
    have hsaid : Says (new vendor p config) sid s e := hsaid.congr rfl rfl rfl
    exact ⟨fun h => h.cutIsSafe wf hreplay hlast hsaid,
      fun h => h.unwedged wf hreplay hlast hsaid⟩

/-- Cut behind the challenge of its entry gate, a session can be opened. -/
theorem crash_unwedged_challenged :
    Unwedged (Sample.engine [Sample.signoff, Sample.checklist]) "s1"
      (runCalls (Sample.engine [Sample.signoff, Sample.checklist]) "s1"
        (Sample.world fun _ => .ok ()) [(Sample.host, .start none)]).ledger.events := by
  have hvalid : validateProfile Sample.vendor.toSchemas Sample.library
      (Sample.profile [Sample.signoff, Sample.checklist]) = .ok () := by decide +kernel
  refine (crash_unwedged_iff hvalid (Sample.world_fresh _ _) List.prefix_rfl).mpr ?_
  intro e he
  cases he
  trivial

/-- Cut before the challenge of its entry gate, or between an approval and its move, a
session is recovered active, at the gate, and without a challenge. -/
theorem crash_wedges_gate :
    let engine := Sample.engine [Sample.signoff, Sample.checklist]
    let es := (runCalls engine "s1" (Sample.world fun _ => .ok ())
      [(Sample.host, .start none), Sample.submit "signoff" Sample.signed]).ledger.events
    let recovered := fun n => (replayEvents "s1" engine.profile (es.take n)).toOption.join.map
      fun s => (s.status, s.position, s.pendingApproval)
    engine.profile.typeAt 0 0 = .humanApproval ∧
      recovered 1 = some (.active, some (engine.profile.place 0 0), none) ∧
      recovered 3 = some (.active, some (engine.profile.place 0 0), none) := by
  decide +kernel

end ProfileFsmEngine

end ProtocolEnforcer
