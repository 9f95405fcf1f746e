import ProtocolEnforcer.Fsm.Positions
import ProtocolEnforcer.Fsm.Simulation

/-!
# Memory and the ledger

The state recovery folds from the ledger, next to the state in memory, at every
moment of the course. `Faithful` is the invariant: the two are equal but at three
stages, and there it says by how much they differ. A call that ends at one of
these stages leaves a memory that a restart would not reproduce; no other does.
-/

namespace ProtocolEnforcer

open Relation

namespace ProfileFsmEngine

variable (engine : ProfileFsmEngine) (sid : String)

/-- The fold over `events`, without wall-clock fields. -/
def Folds (events : List FsmEvent) (s : Option SessionState) : Prop :=
  ∃ s₀, replayEvents sid engine.profile events = .ok s₀ ∧ s₀.map SessionState.timeless = s

/-- A parked challenge names the gate the session stands on. -/
def Parked (s : SessionState) : Prop :=
  ∀ c, s.pendingApproval = some c → ∃ i j, engine.profile.typeAt i j = .humanApproval ∧
    s.position = some (engine.profile.place i j) ∧
    c.macroId = (engine.profile.place i j).macroId ∧
    c.subStateId = (engine.profile.place i j).subStateId

/-- How the session in memory and the recovered one compare at a stage. -/
def Matches (call : Call) (stage : Stage) (live fold : Option SessionState) : Prop :=
  match stage with
  | .ready => live = none ∨ live = fold
  | .bumped => ∃ pos evidence output s, call = .submit pos evidence output ∧ fold = some s ∧
      live = some (s.strikeOut (sortedKeys evidence.keys))
  | .spent => ∃ s, live = some s ∧ fold = some { s with pendingApproval := none }
  | .unborn | .stillborn => live = none
  | .landed _ _ | .refused | .struck | .passed | .settled => live = fold

/-- **The invariant of the course.** -/
def Faithful (call : Call) (c : Snapshot) : Prop :=
  ∃ fold, Folds engine sid c.events fold ∧ (∀ s, fold = some s → Parked engine s) ∧
    Matches call c.stage c.live fold

variable {engine sid}

/-! ## One turn of the fold -/

section

variable {profile : Profile} {s : SessionState} {event : FsmEvent}

/-- The fold does not read the wall clock. -/
theorem recoverEvent_timeless (profile : Profile) (s : SessionState) (event : FsmEvent) :
    (recoverEvent profile s.timeless event).map SessionState.timeless =
      (recoverEvent profile s event).map SessionState.timeless := by
  unfold recoverEvent
  cases event.eventType with
  | macroAdvanced fromMacro toMacro =>
    dsimp only
    cases profile.pipeline.find? (·.stateId = toMacro) with
    | none => rfl
    | some m =>
      dsimp only
      cases firstEnabledIndex m <;> rfl
  | _ => rfl

end

section

variable {es : List FsmEvent} {event : FsmEvent} {s s' t : SessionState}

/-- The folded session is one without wall-clock fields. -/
theorem Folds.timeless (h : Folds engine sid es (some s)) : s.timeless = s := by
  obtain ⟨s₀, -, heq⟩ := h
  obtain ⟨s₁, -, rfl⟩ := Option.map_eq_some_iff.mp heq
  rfl

/-- A ledger folds to one session. -/
theorem Folds.unique {fold fold' : Option SessionState} (h : Folds engine sid es fold)
    (h' : Folds engine sid es fold') : fold = fold' := by
  obtain ⟨s₀, hs₀, rfl⟩ := h
  obtain ⟨s₁, hs₁, rfl⟩ := h'
  rw [hs₀] at hs₁
  cases hs₁
  rfl

/-- One more event that is not a start. -/
theorem Folds.snoc (h : Folds engine sid es (some s))
    (hty : ∀ a b c, event.eventType ≠ .sessionStarted a b c)
    (hev : recoverEvent engine.profile s event = .ok s') (ht : s'.timeless = t) :
    Folds engine sid (es ++ [event]) (some t) := by
  obtain ⟨s₀, hs₀, heq⟩ := h
  obtain ⟨s₁, rfl, rfl⟩ := Option.map_eq_some_iff.mp heq
  have hmap := recoverEvent_timeless engine.profile s₁ event
  rw [hev] at hmap
  cases hrec : recoverEvent engine.profile s₁ event with
  | error e =>
    rw [hrec] at hmap
    cases hmap
  | ok s₂ =>
    rw [hrec] at hmap
    refine ⟨some { s₂ with updatedAt := event.timestamp }, ?_, ?_⟩
    · rw [replayEvents_snoc hs₀, recoverStep_some hty, hrec]
      rfl
    · rw [Option.map_some, ← ht]
      exact congrArg some (Except.ok.inj hmap).symm

/-- A start folds to the fresh session of the profile's entry point. -/
theorem Folds.start {fold : Option SessionState} {m : StateDef} {k : Nat} {t : Time}
    {pipelineId version : String} {hash : Option String} {pos : Position} {context : Json}
    (h : Folds engine sid es fold) (entry : entryPoint engine = .ok (m, k))
    (hname : pipelineId = engine.profile.name) :
    Folds engine sid (es ++ [eventAt t sid (.sessionStarted pipelineId version hash) pos
        (.object [("initial_context", context)])])
      (some (freshSession engine sid 0 context ⟨m.stateId, (m.subAt k).id⟩)) := by
  obtain ⟨s₀, hs₀, -⟩ := h
  subst hname
  refine ⟨some (freshSession engine sid t context ⟨m.stateId, (m.subAt k).id⟩), ?_, rfl⟩
  rw [replayEvents_snoc hs₀]
  unfold recoverStep
  dsimp only [eventAt]
  unfold entryPoint at entry
  unfold recoverStart
  cases hp : engine.profile.pipeline.head? with
  | none =>
    rw [hp] at entry
    cases entry
  | some first =>
    rw [hp] at entry
    dsimp only at entry ⊢
    cases hk : firstEnabledIndex first with
    | error e =>
      rw [hk] at entry
      cases entry
    | ok k' =>
      rw [hk] at entry
      cases entry
      rfl

/-! ## Small steps -/

/-- A move within a macro. -/
theorem moveTo_eq {pos next : Position} (here : s.position = some pos)
    (hmac : next.macroId = pos.macroId) :
    s.moveTo next.subStateId = { s with position := some next, pendingApproval := none } := by
  rw [SessionState.moveTo, here, Option.map_some, ← hmac]

/-- The fold's three moves. -/
theorem recoverEvent_subStateAdvanced {pos next at' : Position} {time : Time} {fromSub : String}
    {payload : Json} (here : s.position = some pos) (hmac : next.macroId = pos.macroId) :
    recoverEvent engine.profile s
        (eventAt time sid (.subStateAdvanced fromSub next.subStateId) at' payload) =
      .ok { s with position := some next, pendingApproval := none } :=
  congrArg Except.ok (moveTo_eq here hmac)

theorem recoverEvent_macroLoopedBack {pos next at' : Position} {time : Time} {fromSub : String}
    {n : UInt32} {payload : Json} (here : s.position = some pos)
    (hmac : next.macroId = pos.macroId) :
    recoverEvent engine.profile s
        (eventAt time sid (.macroLoopedBack fromSub next.subStateId n) at' payload) =
      .ok { s with position := some next, pendingApproval := none } :=
  congrArg Except.ok (moveTo_eq here hmac)

theorem recoverEvent_macroAdvanced {ed : Ed25519} {i k : Nat} {at' : Position} {time : Time}
    {fromMacro : String} {payload : Json} (wf : engine.profile.WellFormed ed)
    (hi : i < engine.profile.pipeline.length)
    (hk : firstEnabledIndex (engine.profile.stateAt i) = .ok k) :
    recoverEvent engine.profile s (eventAt time sid
        (.macroAdvanced fromMacro (engine.profile.place i k).macroId) at' payload) =
      .ok { s.resetMacro with
        position := some (engine.profile.place i k), pendingApproval := none } := by
  simp only [recoverEvent, eventAt, Profile.place, find?_stateAt wf hi, hk]
  rfl

/-- No challenge is parked at a sub-state that is no gate. -/
theorem Parked.none_of_checklist {ed : Ed25519} {pos : Position} {i j : Nat}
    (h : Parked engine s) (wf : engine.profile.WellFormed ed) (placed : Placed engine s pos i j)
    (checklist : engine.profile.typeAt i j = .checklist) : s.pendingApproval = none := by
  cases hp : s.pendingApproval with
  | none => rfl
  | some c =>
    obtain ⟨i', j', gate, here, -, -⟩ := h c hp
    obtain ⟨rfl, rfl⟩ := located_unique wf placed.here placed.located
      (Profile.inRange_of_typeAt (by rw [gate]; decide)) here
    rw [checklist] at gate
    cases gate

/-- A session without a challenge has none misplaced. -/
theorem Parked.of_none (h : s.pendingApproval = none) : Parked engine s := by
  intro c hc
  rw [h] at hc
  cases hc

/-- A rejection recovery counts from the ledger is the one counted in memory. -/
theorem strikeOut_timeless {keys : List String} (h : s.timeless = s) :
    { s.strike keys with macroIteration := (s.strikeOut keys).macroIteration }.timeless =
      s.strikeOut keys := by
  rw [← h]
  rfl

/-- Where a call begins, what is in memory is what recovery folds. -/
theorem Matches.of_ready {call : Call} {fold : Option SessionState}
    (h : Matches call .ready (some s) fold) : fold = some s :=
  (h.resolve_left nofun).symm

/-- One more event behind a recovered session. -/
theorem Faithful.snoc {call : Call} {stage : Stage} {live : Option SessionState}
    (hfold : Folds engine sid es (some s)) (hty : ∀ a b c, event.eventType ≠ .sessionStarted a b c)
    (hev : recoverEvent engine.profile s event = .ok s') (ht : s'.timeless = t)
    (hparked : Parked engine t) (hmatch : Matches call stage live (some t)) :
    Faithful engine sid call ⟨live, es ++ [event], stage⟩ := by
  refine ⟨some t, hfold.snoc hty hev ht, ?_, hmatch⟩
  rintro _ ⟨⟩
  exact hparked

/-- **One step keeps the invariant.** -/
theorem Faithful.step {ed : Ed25519} {host : Host} {call : Call} {c d : Snapshot}
    (wf : engine.profile.WellFormed ed) (h : Faithful engine sid call c)
    (hstep : Step engine host sid call c d) : Faithful engine sid call d := by
  obtain ⟨fold, hfold, hparked, hmatch⟩ := h
  cases hstep with
  | start hcall entry hpos =>
    subst hpos
    refine ⟨_, hfold.start entry rfl, ?_, rfl⟩
    rintro _ ⟨⟩
    exact Parked.of_none rfl
  | unborn | abort => exact ⟨fold, hfold, hparked, rfl⟩
  | arrive here ungated => exact ⟨fold, hfold, hparked, hmatch⟩
  | @issue s i j nonce t es pos here hpos gate minted =>
    cases (show some s = fold from hmatch)
    refine .snoc hfold nofun rfl (congrArg (SessionState.park · _) hfold.timeless) ?_ rfl
    rintro c ⟨⟩
    subst hpos
    exact ⟨i, j, gate, here, rfl, rfl⟩
  | @advance s pos i j k next t es stage placed hstage hk hnext =>
    obtain ⟨-, -, hplace⟩ := locate_ok placed.located
    have hmac : next.macroId = pos.macroId := by rw [hnext, hplace]; rfl
    -- recovery has dropped the challenge of a gate left behind already
    obtain ⟨s', hs', hsame, here⟩ : ∃ s', fold = some s' ∧
        s'.reposition next 0 = s.reposition next 0 ∧ s'.position = some pos := by
      rcases hstage with ⟨rfl, -⟩ | ⟨rfl, -⟩
      · exact ⟨s, hmatch.of_ready, rfl, placed.here⟩
      · obtain ⟨s', hlive, hfold'⟩ := hmatch
        cases hlive
        exact ⟨_, hfold', rfl, placed.here⟩
    subst hs'
    refine .snoc hfold nofun (recoverEvent_subStateAdvanced here hmac) ?_ (.of_none rfl) rfl
    rw [← hsame, ← hfold.timeless]
    rfl
  | @approve s pos i j signature nonce evidence output t es placed hcall gate verdict =>
    obtain rfl := hmatch.of_ready
    refine .snoc hfold nofun rfl rfl (.of_none rfl) ⟨s, rfl, ?_⟩
    rw [← hfold.timeless]
    rfl
  | @refuse s pos i j reason evidence output t es placed hcall gate verdict =>
    obtain rfl := hmatch.of_ready
    refine .snoc hfold nofun rfl (congrArg SessionState.countRefusal hfold.timeless) ?_ rfl
    exact hparked s rfl
  | @trip s pos b ledgered t es stage active here hstage =>
    have hlive : some s = fold := by
      rcases hstage with ⟨rfl, -⟩ | ⟨rfl, -⟩ | ⟨rfl, -⟩
      · exact hmatch.of_ready.symm
      · exact hmatch
      · exact hmatch
    cases hlive
    refine .snoc hfold nofun rfl (congrArg (fun s => { s with status := .failed }) hfold.timeless)
      ?_ rfl
    exact hparked s rfl
  | @strike s pos i j evidence output es placed hcall checklist hmissing =>
    exact ⟨fold, hfold, hparked, pos, evidence, output, s, hcall, hmatch.of_ready, rfl⟩
  | @reject s pos i j missing evidence output t es placed hcall checklist hmissing =>
    obtain ⟨pos', evidence', output', s₁, hcall', hs₁, hlive⟩ := hmatch
    rw [hcall] at hcall'
    cases hcall'
    cases hlive
    subst hs₁
    refine .snoc hfold nofun rfl (strikeOut_timeless hfold.timeless) ?_ rfl
    exact hparked s₁ rfl
  | @loopBack s pos i j k target t es placed checklist hloops hk htarget =>
    cases (show some s = fold from hmatch)
    obtain ⟨-, -, hplace⟩ := locate_ok placed.located
    have hmac : target.macroId = pos.macroId := by rw [htarget, hplace]; rfl
    have hnone : s.pendingApproval = none := (hparked s rfl).none_of_checklist wf placed checklist
    refine .snoc hfold nofun (recoverEvent_macroLoopedBack placed.here hmac) ?_ ?_ rfl
    · rw [← hnone, ← hfold.timeless]
      rfl
    · exact .of_none hnone
  | @pass s pos i j evidence output t es placed hcall checklist hmet =>
    obtain rfl := hmatch.of_ready
    exact .snoc hfold nofun rfl hfold.timeless (hparked s rfl) rfl
  | @nextMacro s pos i j k next t es placed checklist hlast hk hnext =>
    cases (show some s = fold from hmatch)
    subst hnext
    refine .snoc hfold nofun (recoverEvent_macroAdvanced wf hlast hk) ?_ (.of_none rfl) rfl
    rw [← hfold.timeless]
    rfl
  | @complete s pos i j path digest t es placed checklist hlast =>
    cases (show some s = fold from hmatch)
    have hnone : s.pendingApproval = none := (hparked s rfl).none_of_checklist wf placed checklist
    refine .snoc hfold nofun rfl
      (congrArg (fun s => { s with status := .completed, position := none }) hfold.timeless) ?_ rfl
    exact .of_none hnone
  | @violate s pos i j reason t es placed checklist =>
    obtain rfl := hmatch.of_ready
    exact .snoc hfold nofun rfl hfold.timeless (hparked s rfl) rfl
  | @store s pos artifactRef stepId data mimeType t es active hcall =>
    obtain rfl := hmatch.of_ready
    refine .snoc hfold nofun rfl (congrArg (fun s => { s with
      artifacts := insertArtifact s.artifacts artifactRef.path artifactRef }) hfold.timeless) ?_ rfl
    exact hparked s rfl
  | @recover live s es hcall hs =>
    obtain ⟨s₀, hs₀, heq⟩ := hfold
    rw [hs] at hs₀
    cases hs₀
    subst heq
    exact ⟨_, ⟨some s, hs, rfl⟩, hparked, rfl⟩

end

end ProfileFsmEngine

end ProtocolEnforcer
