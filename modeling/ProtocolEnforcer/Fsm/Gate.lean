import ProtocolEnforcer.Fsm.Directory
import ProtocolEnforcer.Fsm.Nonces
import ProtocolEnforcer.Fsm.Restart

/-!
# A gate is not passed without the human

`GateHolds` is the invariant of the course that ties a parked challenge, the
position and the ledger together; `GateSafe` is what it says between two calls of
a run in which appends, library lookups and minting succeed.
-/

namespace ProtocolEnforcer

open Relation

namespace ProfileFsmEngine

variable (engine : ProfileFsmEngine) (host : Host) (sid : String)

/-- What the host answers lets every landing succeed: references resolve, and there is
entropy. -/
structure Serves : Prop where
  skill : ∀ i j name, ((engine.profile.stateAt i).subAt j).inject.bind (·.skill) = some name →
    ∃ content, host.library.resolve .skill name = .ok content
  «protocol» : ∀ i j name,
    ((engine.profile.stateAt i).subAt j).inject.bind (·.protocol) = some name →
    ∃ content, host.library.resolve .protocol name = .ok content
  entropy : ∃ bytes, host.getrandom = .ok bytes

/-- What the host would mint is not in the ledger yet. -/
def MintsFresh (es : List FsmEvent) : Prop :=
  ∀ nonce ∈ issuedNonces es, newChallengeHex host.getrandom ≠ .ok nonce

/-- The session's position is a gate of the profile. -/
def AtGate (s : SessionState) : Prop :=
  ∃ i j, engine.profile.typeAt i j = .humanApproval ∧
    s.position = some (engine.profile.place i j)

/-- At a gate there is a challenge. -/
def Challenged (s : SessionState) : Prop := AtGate engine s → s.pendingApproval.isSome

/-- The invariant of the course. -/
structure GateHolds (call : Call) (c : Snapshot) : Prop where
  faithful : Faithful engine sid call c
  begun : c.stage = .ready → Folds engine sid c.events c.live
  sound : SoundLedger engine sid c.events
  fresh : c.stage ≠ .settled → MintsFresh host c.events
  range : ∀ i j, c.stage = .landed i j → engine.profile.InRange i j ∧
    ∀ s, c.live = some s → s.position = some (engine.profile.place i j)
  challenged : (∀ i j, c.stage ≠ .landed i j) → ∀ s, c.live = some s → Challenged engine s

variable {engine host sid}

theorem Serves.landingError (h : Serves engine host) (i j : Nat) (initialContext : Option Json) :
    landingError engine host i j initialContext = none := by
  obtain ⟨injected, hr⟩ : ∃ injected, renderInjection engine.vendor.toStringPretty
      ((engine.profile.stateAt i).subAt j) (engine.profile.stateAt i) host.library
      initialContext = .ok injected :=
    renderInjection_ok (h.skill i j) (h.protocol i j) initialContext
  obtain ⟨bytes, hb⟩ := h.entropy
  have hn : newChallengeHex host.getrandom = .ok (toHex bytes) := by
    rw [hb]
    rfl
  unfold ProfileFsmEngine.landingError
  rw [hr]
  by_cases hgate : ((engine.profile.stateAt i).subAt j).subStateType = .humanApproval
  · dsimp only
    rw [issueFor_gate hgate hn]
  · dsimp only
    rw [issueFor_other hgate]

/-- A sub-state that is no gate is no gate's place. -/
theorem not_atGate {ed : Ed25519} (wf : engine.profile.WellFormed ed) {s : SessionState} {i j : Nat}
    (hrange : engine.profile.InRange i j) (here : s.position = some (engine.profile.place i j))
    (ungated : engine.profile.typeAt i j ≠ .humanApproval) : ¬AtGate engine s := by
  rintro ⟨i', j', gate, here'⟩
  obtain ⟨rfl, rfl⟩ := place_unique wf hrange
    (Profile.inRange_of_typeAt (by rw [gate]; decide)) here here'
  exact ungated gate

theorem Placed.not_atGate {ed : Ed25519} (wf : engine.profile.WellFormed ed) {s : SessionState}
    {pos : Position} {i j : Nat} (placed : Placed engine s pos i j)
    (ungated : engine.profile.typeAt i j ≠ .humanApproval) : ¬AtGate engine s := by
  obtain ⟨hi, hj, rfl⟩ := locate_ok placed.located
  exact ProfileFsmEngine.not_atGate wf ⟨hi, hj⟩ placed.here ungated

theorem MintsFresh.other {es : List FsmEvent} {e : FsmEvent} (h : MintsFresh host es)
    (he : e.issuedNonce = none) : MintsFresh host (es ++ [e]) := by
  rw [MintsFresh, issuedNonces_snoc, he, Option.toList_none, List.append_nil]
  exact h

/-- Position and challenge decide. -/
theorem Challenged.congr {s s' : SessionState} (h : Challenged engine s)
    (hpos : s'.position = s.position) (hpending : s'.pendingApproval = s.pendingApproval) :
    Challenged engine s' := by
  rintro ⟨i, j, gate, here⟩
  rw [hpending]
  exact h ⟨i, j, gate, hpos.symm.trans here⟩

theorem challenged_of_not_atGate {s : SessionState} (h : ¬AtGate engine s) :
    Challenged engine s := fun hat => absurd hat h

/-- **One step keeps the invariant.** -/
theorem GateHolds.step {ed : Ed25519} {call : Call} {c d : Snapshot}
    (wf : engine.profile.WellFormed ed) (h : GateHolds engine host sid call c)
    (hstep : Step engine host sid call c d) : GateHolds engine host sid call d := by
  -- by the source's cases: only `issue`, `approve` and the landings touch a challenge
  have hfaithful := h.faithful.step wf hstep
  obtain ⟨-, begun, sound, fresh, range, challenged⟩ := h
  cases hstep with
  | @start ctx m k pos t live es hcall entry hpos =>
    obtain ⟨rfl, hk, hlen⟩ := entryPoint_ok entry
    -- the session starts without a challenge; `landed` says one is still owed
    refine ⟨hfaithful, nofun, sound.other rfl rfl, fun _ => (fresh nofun).other rfl, ?_,
      fun hno => absurd rfl (hno 0 k)⟩
    rintro i j hstage
    cases hstage
    refine ⟨.of_enabled hlen (wf.firstEnabled hlen hk).here, ?_⟩
    rintro s hs
    cases hs
    exact congrArg some (hpos.trans (entryPoint_place entry))
  | unborn | abort => exact ⟨hfaithful, nofun, sound, fun _ => fresh nofun, nofun, nofun⟩
  | @arrive s i j es here ungated =>
    -- a landing that issues nothing landed on no gate
    obtain ⟨hrange, hplace⟩ := range i j rfl
    refine ⟨hfaithful, nofun, sound, fun hne => absurd rfl hne, nofun, ?_⟩
    rintro - s' hs'
    exact challenged_of_not_atGate (not_atGate wf hrange (hplace s' hs') ungated)
  | issue here hpos gate minted =>
    refine ⟨hfaithful, nofun, sound.issue rfl fun hmem => fresh nofun _ hmem minted,
      fun hne => absurd rfl hne, nofun, ?_⟩
    rintro - s' hs' -
    cases hs'
    rfl
  | @advance s pos i j k next t es stage placed hstage hk hnext =>
    obtain ⟨hi, hj, -⟩ := locate_ok placed.located
    have hlist := not_checklist_of_advance hstage
    have hsettled : stage ≠ .settled := by rcases hstage with ⟨rfl, -⟩ | ⟨rfl, -⟩ <;> decide
    refine ⟨hfaithful, nofun, sound.other rfl rfl, fun _ => (fresh hsettled).other rfl, ?_,
      fun hno => absurd rfl (hno i k)⟩
    rintro i' j' hstage'
    cases hstage'
    refine ⟨.of_enabled hi (hk ▸ wf.nextEnabled ⟨hi, hj⟩ hlist).here, ?_⟩
    rintro s' hs'
    cases hs'
    exact congrArg some hnext
  | @approve s pos i j signature nonce evidence output t es placed hcall gate verdict =>
    obtain ⟨-, -, hplace⟩ := locate_ok placed.located
    -- the challenge verified against is the one the ledger has open
    obtain ⟨-, hpending, pubkey, hkey, hverify⟩ := check_accepted verdict
    have hopen : openChallenge es = some ⟨pos.macroId, pos.subStateId, nonce⟩ :=
      (begun rfl).pending.symm.trans hpending
    exact ⟨hfaithful, nofun,
      sound.accept rfl ⟨hopen, i, j, pubkey, gate, hplace.symm, hkey, hverify⟩,
      fun _ => (fresh nofun).other rfl, nofun, fun _ => challenged nofun⟩
  | refuse placed hcall gate verdict =>
    refine ⟨hfaithful, nofun, sound.other rfl rfl, fun _ => (fresh nofun).other rfl, nofun, ?_⟩
    rintro - s' hs'
    cases hs'
    exact (challenged nofun _ rfl).congr rfl rfl
  | @trip s pos b ledgered t es stage active here hstage =>
    have hlanded : ∀ i j, stage ≠ .landed i j := by
      rcases hstage with ⟨rfl, -⟩ | ⟨rfl, -⟩ | ⟨rfl, -⟩ <;> nofun
    refine ⟨hfaithful, nofun, sound.other rfl rfl, fun hne => absurd rfl hne, nofun, ?_⟩
    rintro - s' hs'
    cases hs'
    exact (challenged hlanded _ rfl).congr rfl rfl
  | strike placed hcall checklist hmissing =>
    refine ⟨hfaithful, nofun, sound, fun _ => fresh nofun, nofun, ?_⟩
    rintro - s' hs'
    cases hs'
    exact (challenged nofun _ rfl).congr rfl rfl
  | reject placed hcall checklist hmissing =>
    refine ⟨hfaithful, nofun, sound.other rfl rfl, fun _ => (fresh nofun).other rfl, nofun, ?_⟩
    exact fun _ => challenged nofun
  | @loopBack s pos i j k target t es placed checklist hloops hk htarget =>
    refine ⟨hfaithful, nofun, sound.other rfl rfl, fun hne => absurd rfl hne, nofun, ?_⟩
    rintro - s' hs'
    cases hs'
    obtain ⟨⟨sub, hsub, henabled, hexec⟩, -⟩ := firstEnabledExecuteIndex_spec hk
    -- a loop lands on an execute step, where no challenge is due
    refine challenged_of_not_atGate (not_atGate wf
      (.of_enabled (locate_ok placed.located).1 ⟨sub, hsub, henabled⟩) (congrArg some htarget) ?_)
    rw [Profile.typeAt_eq hsub, hexec]
    decide
  | pass placed hcall checklist hmet =>
    exact ⟨hfaithful, nofun, sound.other rfl rfl, fun _ => (fresh nofun).other rfl, nofun,
      fun _ => challenged nofun⟩
  | @nextMacro s pos i j k next t es placed checklist hlast hk hnext =>
    refine ⟨hfaithful, nofun, sound.other rfl rfl, fun _ => (fresh nofun).other rfl, ?_,
      fun hno => absurd rfl (hno (i + 1) k)⟩
    rintro i' j' hstage'
    cases hstage'
    refine ⟨.of_enabled hlast (wf.firstEnabled hlast hk).here, ?_⟩
    rintro s' hs'
    cases hs'
    exact congrArg some hnext
  | complete placed checklist hlast =>
    refine ⟨hfaithful, nofun, sound.other rfl rfl, fun hne => absurd rfl hne, nofun, ?_⟩
    rintro - s' hs' ⟨i', j', -, here⟩
    cases hs'
    cases here
  | violate placed checklist =>
    exact ⟨hfaithful, nofun, sound.other rfl rfl, fun hne => absurd rfl hne, nofun,
      fun _ => challenged nofun⟩
  | store active hcall =>
    refine ⟨hfaithful, nofun, sound.other rfl rfl, fun hne => absurd rfl hne, nofun, ?_⟩
    rintro - s' hs'
    cases hs'
    exact (challenged nofun _ rfl).congr rfl rfl
  | @recover live s es hcall hs =>
    refine ⟨hfaithful, nofun, sound, fun hne => absurd rfl hne, nofun, ?_⟩
    -- what is recovered is what was in memory
    obtain ⟨s₀, hs₀, heq⟩ := begun rfl
    rw [hs] at hs₀
    cases hs₀
    rintro - s' hs'
    exact challenged nofun s' (heq.symm.trans hs')

/-! ## Leaving a gate -/

/-- A submission at `pos` with a signature over the latest challenge. -/
def Authorised (engine : ProfileFsmEngine) (sid : String) (es : List FsmEvent) (pos : Position)
    (call : Call) : Prop :=
  ∃ evidence output signature i j pubkey nonce, call = .submit pos evidence output ∧
    submittedSignature evidence = some signature ∧ locate engine pos = .ok (i, j) ∧
    ((engine.profile.stateAt i).subAt j).approverPubkey = some pubkey ∧
    latestNonce es = some nonce ∧
    verifyApprovalHex engine.vendor.ed pubkey sid pos.macroId pos.subStateId nonce signature = true

/-- At a moment of a call that began as `c₀` at the gate `pos`: authorised, or still there. -/
def Stays (engine : ProfileFsmEngine) (sid : String) (c₀ : Snapshot) (pos : Position) (call : Call)
    (c : Snapshot) : Prop :=
  Authorised engine sid c₀.events pos call ∨
    (c.stage = .ready → c = c₀) ∧ c.stage ≠ .spent ∧
      ∃ s, c.live = some s ∧ s.position = some pos

theorem Stays.step {ed : Ed25519} {call : Call} {c₀ c d : Snapshot} {pos : Position}
    (wf : engine.profile.WellFormed ed) (hfold : Folds engine sid c₀.events c₀.live)
    (hpos : ∀ s, s.position = some pos → AtGate engine s) (hcall : ∀ ctx, call ≠ .start ctx)
    (h : Stays engine sid c₀ pos call c) (hstep : Step engine host sid call c d) :
    Stays engine sid c₀ pos call d := by
  rcases h with hauth | ⟨hbegin, hspent, s₀, hlive, here₀⟩
  · exact Or.inl hauth
  cases hstep with
  | start heq | unborn heq | abort heq => exact absurd heq (hcall _)
  | advance placed hstage =>
    cases hlive
    -- an execute step is no gate, and a gate was not yet spent
    rcases hstage with ⟨-, ungated, -⟩ | ⟨rfl, -⟩
    · exact absurd (hpos _ here₀) (placed.not_atGate wf ungated)
    · exact absurd rfl hspent
  | @approve s pos' i j signature nonce evidence output t es placed heq gate verdict =>
    cases hlive
    cases hbegin rfl
    obtain rfl := Option.some.inj (placed.here.symm.trans here₀)
    -- the signature verified is over the pending challenge, the ledger's latest
    obtain ⟨hsig, hpending, pubkey, hkey, hverify⟩ := check_accepted verdict
    have hlatest := latestNonce_of_open (hfold.pending.symm.trans hpending)
    exact Or.inl ⟨evidence, output, signature, i, j, pubkey, nonce, heq, hsig, placed.located,
      hkey, hlatest, hverify⟩
  -- the checklist's moves do not start at a gate
  | loopBack placed checklist | nextMacro placed checklist | complete placed checklist =>
    cases hlive
    exact absurd (hpos _ here₀) (placed.not_atGate wf (by rw [checklist]; decide))
  | recover heq hs =>
    cases hbegin rfl
    obtain ⟨s₁, hs₁, hmap⟩ := hfold
    rw [hs] at hs₁
    cases hs₁
    rw [hlive] at hmap
    cases hmap
    exact Or.inr ⟨nofun, nofun, _, rfl, here₀⟩
  | arrive | issue | refuse | trip | strike | reject | pass | violate | store =>
    cases hlive
    exact Or.inr ⟨nofun, nofun, _, rfl, here₀⟩

/-! ## Between two calls -/

/-- Between two calls: memory is what the ledger folds to, the ledger is sound, and at
a gate there is a challenge. -/
structure GateSafe (engine : ProfileFsmEngine) (sid : String) (w : World SessionLedger) : Prop where
  synced : Synced engine sid w
  sound : SoundLedger engine sid w.ledger.events
  challenged : ∀ s, (w.sessions sid).map SessionState.timeless = some s → Challenged engine s

/-- What a call of the run may rely on. -/
structure Sustained (engine : ProfileFsmEngine) (sid : String) (w : World SessionLedger)
    (host : Host) (call : Call) : Prop where
  serves : Serves engine host
  fresh : MintsFresh host w.ledger.events

theorem gateSafe_of_fresh {w : World SessionLedger} (h : w.Fresh sid) : GateSafe engine sid w where
  synced := synced_of_fresh h
  sound := by
    rw [h.1]
    exact soundLedger_nil
  challenged := by
    rw [h.2]
    nofun

section

variable {ed : Ed25519} {w : World SessionLedger} {call : Call}

/-- Where a call of such a run can end. -/
theorem Stops.quiet {reply : Except FsmError Reply} {stage : Stage}
    (wf : engine.profile.WellFormed ed) (hledger : w.ledger.Reliable) (hserves : Serves engine host)
    (h : Stops engine host sid w call reply stage) :
    stage = .ready ∨ stage = .settled ∨ stage = .refused ∨ stage = .struck := by
  -- with entropy and a ledger that takes it, a landing cannot fail
  have hland : ∀ i j ctx n, ¬LandingFails engine host w i j ctx n := by
    rintro i j ctx n (⟨e, he⟩ | ⟨-, hrefuses⟩)
    · rw [hserves.landingError] at he
      cases he
    · exact hledger.not_refuses hrefuses
  cases h with
  | ready => exact Or.inl rfl
  | settled => exact Or.inr (Or.inl rfl)
  | refused => exact Or.inr (Or.inr (Or.inl rfl))
  | struck => exact Or.inr (Or.inr (Or.inr rfl))
  | landed _ _ why =>
    obtain ⟨i, j, ctx, n, hfails⟩ := why
    exact absurd hfails (hland i j ctx n)
  | bumped _ _ refused | unborn _ _ _ refused => exact absurd ⟨_, refused⟩ hledger.not_refuses
  | spent _ _ _ refused => exact absurd ⟨_, refused⟩ hledger.not_refuses
  | stillborn _ _ _ _ _ why => exact absurd why (hland _ _ _ _)
  | passed _ why =>
    rcases why with ⟨n, hrefuses⟩ | ⟨i, e, hnone, hi⟩
    · exact absurd hrefuses hledger.not_refuses
    · obtain ⟨k, hk, -⟩ := firstEnabledIndex_spec (wf.stateAt hi)
      rw [hk] at hnone
      cases hnone

theorem GateSafe.gateHolds (h : GateSafe engine sid w) (hfresh : MintsFresh host w.ledger.events) :
    GateHolds engine host sid call (snap sid w .ready) := by
  obtain ⟨⟨_, hfold, hparked, rfl⟩, sound, challenged⟩ := h
  exact ⟨⟨_, hfold, hparked, Or.inr rfl⟩, fun _ => hfold, sound, fun _ => hfresh, nofun,
    fun _ => challenged⟩

/-- **One call of such a run keeps it safe.** -/
theorem GateSafe.after (wf : engine.profile.WellFormed ed) (h : GateSafe engine sid w)
    (hledger : w.ledger.Reliable) (hcall : Sustained engine sid w host call) :
    GateSafe engine sid (perform engine sid host call w).2 := by
  obtain ⟨stage, course, stops⟩ := @perform_course engine host sid call w
  have holds : GateHolds engine host sid call
      (snap sid (perform engine sid host call w).2 stage) :=
    Runs.invariant (fun hstep hc => hc.step wf hstep) course (h.gateHolds hcall.fresh)
  obtain ⟨⟨fold, hfold, hparked, hmatch⟩, begun, sound, -, -, challenged⟩ := holds
  rcases stops.quiet wf hledger hcall.serves with rfl | rfl | rfl | rfl
  · exact ⟨h.synced.of_snap (course.eq_of_ready rfl), sound, challenged nofun⟩
  · exact ⟨⟨fold, hfold, hparked, hmatch⟩, sound, challenged nofun⟩
  · exact ⟨⟨fold, hfold, hparked, hmatch⟩, sound, challenged nofun⟩
  · exact ⟨⟨fold, hfold, hparked, hmatch⟩, sound, challenged nofun⟩

/-- A call that is no start leaves a gate only when authorised. -/
theorem GateSafe.leaves (wf : engine.profile.WellFormed ed) (h : GateSafe engine sid w)
    {s : SessionState} {i j : Nat} (hs : w.sessions sid = some s)
    (gate : engine.profile.typeAt i j = .humanApproval)
    (here : s.position = some (engine.profile.place i j)) (hcall : ∀ ctx, call ≠ .start ctx)
    (hleft : ((perform engine sid host call w).2.sessions sid).map (·.position) ≠
      some (some (engine.profile.place i j))) :
    Authorised engine sid w.ledger.events (engine.profile.place i j) call := by
  obtain ⟨stage, course, -⟩ := @perform_course engine host sid call w
  obtain ⟨⟨_, hfold, -, rfl⟩, -, -⟩ := h
  have hbegin : Stays engine sid (snap sid w .ready) (engine.profile.place i j) call
      (snap sid w .ready) :=
    Or.inr ⟨fun _ => rfl, nofun, s.timeless, by rw [snap, hs]; rfl, here⟩
  have hend := Runs.invariant (P := Stays engine sid (snap sid w .ready)
      (engine.profile.place i j) call)
    (fun hstep hc => hc.step wf hfold (fun s' hs' => ⟨i, j, gate, hs'⟩) hcall hstep)
    course hbegin
  rcases hend with hauth | ⟨-, -, s', hlive, here'⟩
  · exact hauth
  · obtain ⟨s₁, hs₁, rfl⟩ := Option.map_eq_some_iff.mp hlive
    rw [hs₁] at hleft
    exact absurd (congrArg some here') hleft

/-! ## Runs -/

variable {vendor : Vendor} {library : Library} {p : Profile} {config : FsmConfig}
  {calls : List (Host × Call)}

/-- A run of such calls is safe throughout. -/
theorem gateSafe_run (hvalid : validateProfile vendor.toSchemas library p = .ok ())
    (hfresh : w.Fresh sid) (hledger : w.ledger.Reliable)
    (hcalls : Along (new vendor p config) sid (Sustained (new vendor p config) sid) w calls) :
    GateSafe (new vendor p config) sid (runCalls (new vendor p config) sid w calls) :=
  (hcalls.invariant (I := fun w => GateSafe (new vendor p config) sid w ∧ w.ledger.Reliable)
    (fun _ _ hcall ⟨hsafe, hrel⟩ =>
      ⟨hsafe.after (new_wellFormed hvalid) hrel hcall,
        perform_reliable hrel⟩)
    ⟨gateSafe_of_fresh hfresh, hledger⟩).1

/-- The challenge a safe session holds. -/
theorem GateSafe.pending (h : GateSafe engine sid w) {s : SessionState}
    (hs : w.sessions sid = some s) :
    (s.pendingApproval.isSome ↔ AtGate engine s) ∧
      ∀ c, s.pendingApproval = some c → s.position = some ⟨c.macroId, c.subStateId⟩ ∧
        latestNonce w.ledger.events = some c.challenge := by
  obtain ⟨⟨_, hfold, hparked, rfl⟩, -, challenged⟩ := h
  rw [hs] at hfold hparked challenged
  have hfold : Folds engine sid w.ledger.events (some s.timeless) := hfold
  have hpending : s.pendingApproval = openChallenge w.ledger.events := hfold.pending
  refine ⟨⟨fun hsome => ?_, challenged s.timeless rfl⟩, fun c hc => ⟨?_, ?_⟩⟩
  · obtain ⟨c, hc⟩ := Option.isSome_iff_exists.mp hsome
    obtain ⟨i, j, gate, here, -⟩ := hparked _ rfl c hc
    exact ⟨i, j, gate, here⟩
  · obtain ⟨i, j, -, here, hm, hsub⟩ := hparked _ rfl c hc
    rw [hm, hsub]
    exact here
  · exact latestNonce_of_open (hpending.symm.trans hc)

end

/-! ## Runs on any sessions -/

/-- What a call on any session may rely on. -/
structure SustainedAny (engine : ProfileFsmEngine) (w : World DirectoryLedger)
    (x : String × Host × Call) : Prop where
  serves : Serves engine x.2.1
  fresh : MintsFresh x.2.1 (w.ledger.eventsOf w.ledger.sessionId)

section

variable {ed : Ed25519} {own : String} {w : World DirectoryLedger} {v : World SessionLedger}
  {x : String × Host × Call}

/-- The ledger's own session is between two calls of a safe run. -/
def OwnSafe (engine : ProfileFsmEngine) (own : String) (w : World DirectoryLedger) : Prop :=
  ∃ v, OwnView own w v ∧ GateSafe engine own v

/-- **One call on any session keeps it safe.** -/
theorem OwnSafe.after (wf : engine.profile.WellFormed ed) (h : OwnSafe engine own w)
    (hown : StartsOwn engine own x) (hcall : SustainedAny engine w x) :
    OwnSafe engine own (afterAny engine w x) := by
  obtain ⟨v, view, safe⟩ := h
  by_cases hx : x.1 = own
  · have hfresh : MintsFresh x.2.1 v.ledger.events := by
      have hmints := hcall.fresh
      rwa [view.ledger.opened, view.events_eq] at hmints
    unfold afterAny
    rw [hx]
    exact ⟨_, view.performed.2, safe.after wf view.ledger.taken ⟨hcall.serves, hfresh⟩⟩
  · rw [view.idle hown hx]
    exact ⟨v, view, safe⟩

variable {vendor : Vendor} {library : Library} {p : Profile} {config : FsmConfig}
  {calls : List (String × Host × Call)}

/-- **A gate is not passed without the human.** In every run of calls on any sessions of one
engine in which appends, library lookups and minting succeed, every minted nonce is fresh, and
every start that passes validation is of the session the ledger was opened for: a session holds
a challenge exactly at a gate, that gate's and the latest one; a call other than its start takes
it off the gate only if it is its own, with a signature over that challenge under the gate's
key; and each approval in the ledger carries the nonce of the nearest earlier challenge, with no
movement in between, verifies, and is the only one to carry it. -/
theorem gate_needs_human_when_own (hvalid : validateProfile vendor.toSchemas library p = .ok ())
    (hw : Untouched w)
    (hcalls : Runs.Along (afterAny (new vendor p config)) (SustainedAny (new vendor p config)) w
      calls)
    (hown : ∀ x ∈ calls, StartsOwn (new vendor p config) w.ledger.sessionId x) :
    let engine := new vendor p config
    let w' := calls.foldl (afterAny engine) w
    (∀ sid s, w'.sessions sid = some s → (s.pendingApproval.isSome ↔ AtGate engine s) ∧
      ∀ c, s.pendingApproval = some c → s.position = some ⟨c.macroId, c.subStateId⟩ ∧
        latestNonce (w'.ledger.eventsOf sid) = some c.challenge) ∧
    (∀ sid s i j x, w'.sessions sid = some s → engine.profile.typeAt i j = .humanApproval →
      s.position = some (engine.profile.place i j) → StartsOwn engine w.ledger.sessionId x →
      (x.1 = sid → ∀ ctx, x.2.2 ≠ .start ctx) →
      ((afterAny engine w' x).sessions sid).map (·.position) ≠
        some (some (engine.profile.place i j)) →
      x.1 = sid ∧
        Authorised engine sid (w'.ledger.eventsOf sid) (engine.profile.place i j) x.2.2) ∧
    (∀ sid k e macroId subStateId nonce signature, (w'.ledger.eventsOf sid)[k]? = some e →
      e.eventType = .approvalAccepted macroId subStateId nonce signature →
      (∃ pre c mid, (w'.ledger.eventsOf sid).take k = pre ++ c :: mid ∧
        c.eventType = .approvalChallengeIssued macroId subStateId nonce ∧
        ∀ x ∈ mid, x.issuedNonce = none ∧ x.isMovement = false ∧ x.acceptedNonce = none) ∧
      ∃ i j pubkey, engine.profile.typeAt i j = .humanApproval ∧
        engine.profile.place i j = ⟨macroId, subStateId⟩ ∧
        ((engine.profile.stateAt i).subAt j).approverPubkey = some pubkey ∧
        verifyApprovalHex vendor.ed pubkey sid macroId subStateId nonce signature = true) ∧
    ∀ sid, (acceptedNonces (w'.ledger.eventsOf sid)).Nodup := by
  intro engine w'
  have wf : engine.profile.WellFormed vendor.ed := new_wellFormed hvalid
  have hrun : OwnSafe engine w.ledger.sessionId w' :=
    (hcalls.and (.of_forall hown)).invariant (fun _ _ hx h => h.after wf hx.2 hx.1)
      ⟨_, hw.ownView, gateSafe_of_fresh unopened_fresh⟩
  obtain ⟨v, view, safe⟩ := hrun
  refine ⟨fun sid s hs => ?_, fun sid s i j x hs gate here hstart hcall hleft => ?_, ?_,
    fun sid => ?_⟩
  · obtain rfl := view.own_of_live hs
    rw [view.events_eq]
    exact safe.pending (view.session.symm.trans hs)
  · obtain rfl := view.own_of_live hs
    by_cases hx : x.1 = w.ledger.sessionId
    · obtain ⟨y, host, call⟩ := x
      cases hx
      have hview : OwnView w.ledger.sessionId (perform engine w.ledger.sessionId host call w').2
          (perform engine w.ledger.sessionId host call v).2 := view.performed.2
      have hmoved : ((perform engine w.ledger.sessionId host call v).2.sessions
          w.ledger.sessionId).map (·.position) ≠ some (some (engine.profile.place i j)) := by
        rw [← hview.session]
        exact hleft
      rw [view.events_eq]
      exact ⟨rfl, safe.leaves wf (view.session.symm.trans hs) gate here (hcall rfl) hmoved⟩
    · -- a call on another session leaves it where it is
      rw [view.idle hstart hx, hs] at hleft
      exact absurd (congrArg some here) hleft
  · intro sid k e macroId subStateId nonce signature hk hty
    obtain rfl := view.own_of_event hk
    rw [view.events_eq] at hk ⊢
    obtain ⟨hopen, hkey⟩ := safe.sound.earned hk hty
    exact ⟨openChallenge_eq_some hopen, hkey⟩
  · by_cases hsid : sid = w.ledger.sessionId
    · rw [hsid, view.events_eq]
      exact safe.sound.acceptedOnce
    · have hnone : w'.ledger.eventsOf sid = [] := view.ledger.others sid hsid
      rw [hnone]
      exact List.nodup_nil

end

end ProfileFsmEngine

namespace Sample

open ProfileFsmEngine

/-- A host with other entropy. -/
def hostWith (b : UInt8) : Host := { host with getrandom := .ok (List.replicate 32 b) }

/-- A step, a gate and a checklist. -/
def gated : ProfileFsmEngine := engine [draft, signoff, checklist]

theorem gated_valid : validateProfile vendor.toSchemas library
    (profile [draft, signoff, checklist]) = .ok () := by
  decide +kernel

/-- The gate of `s1` passed with the one signature the signer gave, after a recovery. -/
def approval : List (String × Host × Call) :=
  [("s1", hostWith 0, .start none), ("s1", host, .submit ⟨"plan", "draft"⟩ .empty none),
    ("s2", hostWith 1, .submit ⟨"plan", "draft"⟩ .empty none), ("s1", hostWith 1, .recover),
    ("s1", hostWith 1, .submit ⟨"plan", "signoff"⟩ signed none)]

/-- `s1` goes to its gate, and `s2` is started on the same ledger. -/
def strayed : List (String × Host × Call) :=
  [("s1", hostWith 0, .start none), ("s1", host, .submit ⟨"plan", "draft"⟩ .empty none),
    ("s2", hostWith 1, .start none)]

/-- Sub-states without references are served by any host with entropy. -/
theorem serves {subStates : List SubStateDef} (h : ∀ sub ∈ subStates, sub.inject = none)
    {host : Host} (hb : ∃ bytes, host.getrandom = .ok bytes) : Serves (engine subStates) host := by
  have hnone : ∀ i j, (((engine subStates).profile.stateAt i).subAt j).inject = none := by
    intro i j
    rcases i with _ | i
    · show (subStates[j]!).inject = none
      by_cases hj : j < subStates.length
      · rw [getElem!_pos subStates j hj]
        exact h _ (List.getElem_mem hj)
      · rw [getElem!_neg subStates j hj]
        rfl
    · rfl
  refine ⟨fun i j name hname => ?_, fun i j name hname => ?_, hb⟩
  · rw [hnone] at hname
    cases hname
  · rw [hnone] at hname
    cases hname

end Sample

namespace ProfileFsmEngine

/-- One approval, of the one challenge, with calls on `s2` in between. -/
theorem gate_needs_human_when_own_approved :
    (acceptedNonces ((Sample.approval.foldl (afterAny Sample.gated) Sample.directory).ledger.eventsOf
      "s1")).Nodup := by
  have hserves : ∀ host : Host, (∃ bytes, host.getrandom = .ok bytes) → Serves Sample.gated host :=
    fun _ => Sample.serves (by decide)
  have hcalls : Runs.Along (afterAny Sample.gated) (SustainedAny Sample.gated) Sample.directory
      Sample.approval := by
    refine ⟨⟨hserves _ ⟨_, rfl⟩, ?_⟩, ⟨hserves _ ⟨_, rfl⟩, ?_⟩, ⟨hserves _ ⟨_, rfl⟩, ?_⟩,
      ⟨hserves _ ⟨_, rfl⟩, ?_⟩, ⟨hserves _ ⟨_, rfl⟩, ?_⟩, trivial⟩ <;>
      · unfold MintsFresh
        decide +kernel
  have hown : ∀ x ∈ Sample.approval, StartsOwn Sample.gated "s1" x := by
    simp [Sample.approval, StartsOwn]
  obtain ⟨-, -, -, hnodup⟩ :=
    gate_needs_human_when_own Sample.gated_valid Sample.directory_untouched hcalls hown
  exact hnodup "s1"

example : acceptedNonces ((Sample.approval.foldl (afterAny Sample.gated)
    Sample.directory).ledger.eventsOf "s1") = [toHex Sample.entropy] := by decide +kernel

/-- `s2` is started while `s1` is at its gate: a recovery of `s1` takes it off the gate. -/
theorem gate_left_unsigned :
    validateProfile Sample.vendor.toSchemas Sample.library
      (Sample.profile [Sample.draft, Sample.signoff, Sample.checklist]) = .ok () ∧
    Untouched Sample.directory ∧
    Runs.Along (afterAny Sample.gated) (SustainedAny Sample.gated) Sample.directory
      Sample.strayed ∧
    let w := Sample.strayed.foldl (afterAny Sample.gated) Sample.directory
    let w' := afterAny Sample.gated w ("s1", Sample.hostWith 3, .recover)
    (w.sessions "s1").map (·.position) = some (some ⟨"plan", "signoff"⟩) ∧
      (w'.sessions "s1").map (·.position) = some (some ⟨"plan", "draft"⟩) ∧
      ¬Authorised Sample.gated "s1" (w.ledger.eventsOf "s1") ⟨"plan", "signoff"⟩ .recover := by
  have hserves : ∀ host : Host, (∃ bytes, host.getrandom = .ok bytes) → Serves Sample.gated host :=
    fun _ => Sample.serves (by decide)
  refine ⟨Sample.gated_valid, Sample.directory_untouched, ?_, ?_, ?_, ?_⟩
  · refine ⟨⟨hserves _ ⟨_, rfl⟩, ?_⟩, ⟨hserves _ ⟨_, rfl⟩, ?_⟩, ⟨hserves _ ⟨_, rfl⟩, ?_⟩,
      trivial⟩ <;>
      · unfold MintsFresh
        decide +kernel
  · decide +kernel
  · decide +kernel
  · rintro ⟨_, _, _, _, _, _, _, hcall, -⟩
    cases hcall

end ProfileFsmEngine

end ProtocolEnforcer
