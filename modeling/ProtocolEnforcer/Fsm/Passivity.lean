import ProtocolEnforcer.Fsm.Calls

/-!
# Hooks are inert

The served path carries hooks and reads none. `unhooked` empties every hook list of a
profile; each function of the validator, the engine and recovery gives the same for both
profiles, from the accessors up, so one call does, and a run of calls on any sessions.
-/

namespace ProtocolEnforcer

/-! ## Profiles -/

def SubStateDef.unhooked (sub : SubStateDef) : SubStateDef := { sub with hooks := [] }

def StateDef.unhooked (m : StateDef) : StateDef :=
  { m with hooks := [], subStates := m.subStates.map SubStateDef.unhooked }

/-- The profile with every hook list of its macros and sub-states emptied. -/
def Profile.unhooked (p : Profile) : Profile :=
  { p with pipeline := p.pipeline.map StateDef.unhooked }

namespace SubStateDef

variable (sub : SubStateDef)

@[simp] theorem unhooked_id : sub.unhooked.id = sub.id := rfl
@[simp] theorem unhooked_type : sub.unhooked.subStateType = sub.subStateType := rfl
@[simp] theorem unhooked_enabled : sub.unhooked.enabled = sub.enabled := rfl
@[simp] theorem unhooked_criteria : sub.unhooked.criteria = sub.criteria := rfl
@[simp] theorem unhooked_inject : sub.unhooked.inject = sub.inject := rfl
@[simp] theorem unhooked_verify : sub.unhooked.verify = sub.verify := rfl
@[simp] theorem unhooked_approverPubkey : sub.unhooked.approverPubkey = sub.approverPubkey := rfl
@[simp] theorem unhooked_approvalPrompt : sub.unhooked.approvalPrompt = sub.approvalPrompt := rfl

end SubStateDef

/-- What is looked up in a list whose entries all change is the changed entry. -/
theorem getElem!_map_of_default {α : Type} [Inhabited α] {f : α → α} (hf : f default = default)
    (xs : List α) (i : Nat) : (xs.map f)[i]! = f xs[i]! := by
  rw [List.getElem!_eq_getElem?_getD, List.getElem!_eq_getElem?_getD, List.getElem?_map]
  cases xs[i]? with
  | none => exact hf.symm
  | some x => rfl

namespace StateDef

variable (m : StateDef)

@[simp] theorem unhooked_stateId : m.unhooked.stateId = m.stateId := rfl
@[simp] theorem unhooked_name : m.unhooked.name = m.name := rfl
@[simp] theorem unhooked_systemPrompt : m.unhooked.systemPrompt = m.systemPrompt := rfl
@[simp] theorem unhooked_enabled : m.unhooked.enabled = m.enabled := rfl
@[simp] theorem unhooked_maxIterations : m.unhooked.maxIterations = m.maxIterations := rfl
@[simp] theorem unhooked_loopState : m.unhooked.loopState = m.loopState := rfl
@[simp] theorem unhooked_subStates :
    m.unhooked.subStates = m.subStates.map SubStateDef.unhooked := rfl

@[simp] theorem unhooked_subAt (idx : Nat) : m.unhooked.subAt idx = (m.subAt idx).unhooked :=
  getElem!_map_of_default rfl m.subStates idx

@[simp] theorem unhooked_firstEnabledExecuteIndex :
    m.unhooked.firstEnabledExecuteIndex = m.firstEnabledExecuteIndex := by
  rw [firstEnabledExecuteIndex, unhooked_subStates, List.findIdx?_map]
  rfl

end StateDef

namespace Profile

variable (p : Profile)

@[simp] theorem unhooked_name : p.unhooked.name = p.name := rfl
@[simp] theorem unhooked_version : p.unhooked.version = p.version := rfl
@[simp] theorem unhooked_settings : p.unhooked.settings = p.settings := rfl
@[simp] theorem unhooked_outputContract : p.unhooked.outputContract = p.outputContract := rfl
@[simp] theorem unhooked_pipeline : p.unhooked.pipeline = p.pipeline.map StateDef.unhooked := rfl

@[simp] theorem unhooked_stateAt (idx : Nat) : p.unhooked.stateAt idx = (p.stateAt idx).unhooked :=
  getElem!_map_of_default rfl p.pipeline idx

@[simp] theorem unhooked_place (i j : Nat) : p.unhooked.place i j = p.place i j := by
  simp [place]

@[simp] theorem unhooked_withEnabledMacrosOnly :
    p.unhooked.withEnabledMacrosOnly = p.withEnabledMacrosOnly.unhooked := by
  unfold withEnabledMacrosOnly unhooked
  rw [List.filter_map]
  rfl

end Profile

/-! ## The validator -/

section

variable (schemas : Schemas) (lib : Library) (m : StateDef) (p : Profile)

theorem checklistIndices_unhooked : checklistIndices m.unhooked = checklistIndices m := by
  rw [checklistIndices, StateDef.unhooked_subStates, List.findIdxs_map]
  rfl

theorem checkSingleTrailingChecklist_unhooked :
    checkSingleTrailingChecklist m.unhooked = checkSingleTrailingChecklist m := by
  unfold checkSingleTrailingChecklist
  rw [checklistIndices_unhooked]
  split
  · rename_i idx _
    rw [StateDef.unhooked_subStates, List.length_map, List.getElem?_map, Option.any_map]
    rfl
  · rfl
  · rfl

theorem validateMacro_unhooked :
    validateMacro schemas lib m.unhooked = validateMacro schemas lib m := by
  have hids : checkDuplicateSubIds m.unhooked = checkDuplicateSubIds m := by
    rw [checkDuplicateSubIds, StateDef.unhooked_subStates, List.map_map]
    rfl
  have hsubs : m.unhooked.subStates.flatMap (validateSub schemas lib m.unhooked) =
      m.subStates.flatMap (validateSub schemas lib m) := by
    rw [StateDef.unhooked_subStates, List.flatMap_map]
    rfl
  unfold validateMacro
  rw [hids, hsubs, checkSingleTrailingChecklist_unhooked, StateDef.unhooked_subStates,
    List.isEmpty_map]
  rfl

theorem checkLoopState_unhooked : checkLoopState p.unhooked = checkLoopState p := by
  have hlast : p.unhooked.pipeline.getLast?.map (·.stateId) = p.pipeline.getLast?.map (·.stateId) := by
    rw [Profile.unhooked_pipeline, List.getLast?_map, Option.map_map]
    rfl
  unfold checkLoopState
  rw [hlast, Profile.unhooked_pipeline, List.flatMap_map]
  simp

/-- **The validator finds the same violations.** -/
theorem validateProfile_unhooked :
    validateProfile schemas lib p.unhooked = validateProfile schemas lib p := by
  have hids : checkDuplicateMacroIds p.unhooked = checkDuplicateMacroIds p := by
    rw [checkDuplicateMacroIds, Profile.unhooked_pipeline, List.map_map]
    rfl
  have hmacros : p.unhooked.pipeline.flatMap (validateMacro schemas lib) =
      p.pipeline.flatMap (validateMacro schemas lib) := by
    rw [Profile.unhooked_pipeline, List.flatMap_map]
    simp [validateMacro_unhooked]
  unfold validateProfile violations
  rw [hids, hmacros, Profile.unhooked_withEnabledMacrosOnly, checkLoopState_unhooked,
    Profile.unhooked_pipeline, Profile.unhooked_pipeline, List.isEmpty_map, List.isEmpty_map]
  rfl

end

/-! ## Indices, rendering and gates -/

section

variable (m : StateDef) (sub : SubStateDef)

@[simp] theorem firstEnabledIndex_unhooked : firstEnabledIndex m.unhooked = firstEnabledIndex m := by
  unfold firstEnabledIndex
  rw [StateDef.unhooked_subStates, List.findIdx?_map]
  rfl

@[simp] theorem nextEnabledIndex_unhooked (j : Nat) :
    nextEnabledIndex m.unhooked j = nextEnabledIndex m j := by
  unfold nextEnabledIndex
  rw [StateDef.unhooked_subStates, ← List.map_drop, List.findIdx?_map, List.length_map]
  rfl

@[simp] theorem renderInjection_unhooked {toStringPretty : Json → String} (library : Library)
    (initialContext : Option Json) :
    renderInjection toStringPretty sub.unhooked m.unhooked library initialContext =
      renderInjection toStringPretty sub m library initialContext := rfl

@[simp] theorem renderLoopTarget_unhooked {toStringPretty : Json → String} (library : Library) :
    renderLoopTarget toStringPretty m.unhooked library =
      renderLoopTarget toStringPretty m library := by
  unfold renderLoopTarget
  simp

@[simp] theorem issueFor_unhooked (getrandom : Except String Bytes) (position : Position) :
    issueFor getrandom sub.unhooked position = issueFor getrandom sub position := rfl

@[simp] theorem check_unhooked (ed : Ed25519) (sid : String) (pos : Position)
    (pending : Option ApprovalChallenge) (evidence : ChecklistEvidence) :
    check ed sid pos sub.unhooked pending evidence = check ed sid pos sub pending evidence := rfl

end

/-! ## Recovery -/

section

variable (sid : String) (p : Profile)

theorem recoverStart_unhooked (pipelineId : String) (event : FsmEvent) :
    recoverStart sid p.unhooked pipelineId event = recoverStart sid p pipelineId event := by
  unfold recoverStart
  rw [Profile.unhooked_pipeline, List.head?_map]
  cases p.pipeline.head? with
  | none => rfl
  | some first => simp

theorem recoverEvent_unhooked (s : SessionState) (event : FsmEvent) :
    recoverEvent p.unhooked s event = recoverEvent p s event := by
  unfold recoverEvent
  cases event.eventType with
  | macroAdvanced fromMacro toMacro =>
    dsimp only
    rw [Profile.unhooked_pipeline, List.find?_map]
    cases hfind : p.pipeline.find? (·.stateId = toMacro) with
    | none =>
      rw [show p.pipeline.find? ((fun m : StateDef => decide (m.stateId = toMacro)) ∘
        StateDef.unhooked) = none from hfind]
      rfl
    | some next =>
      rw [show p.pipeline.find? ((fun m : StateDef => decide (m.stateId = toMacro)) ∘
        StateDef.unhooked) = some next from hfind]
      simp
  | _ => rfl

theorem replayEvents_unhooked (events : List FsmEvent) :
    replayEvents sid p.unhooked events = replayEvents sid p events := by
  have hstep : recoverStep sid p.unhooked = recoverStep sid p := by
    funext state event
    unfold recoverStep
    simp only [recoverStart_unhooked, recoverEvent_unhooked]
  rw [replayEvents, hstep, replayEvents]

theorem recoverProfileSession_unhooked {L : Type} [LedgerPort L] (ledger : L) :
    recoverProfileSession sid ledger p.unhooked = recoverProfileSession sid ledger p := by
  unfold recoverProfileSession
  simp only [replayEvents_unhooked]

end

/-! ## The engine -/

namespace ProfileFsmEngine

/-- The engine of the profile without hooks. -/
def unhooked (engine : ProfileFsmEngine) : ProfileFsmEngine :=
  { engine with profile := engine.profile.unhooked }

theorem new_unhooked (vendor : Vendor) (p : Profile) (config : FsmConfig) :
    new vendor p.unhooked config = (new vendor p config).unhooked := by
  rw [new, Profile.unhooked_withEnabledMacrosOnly]
  rfl

section

variable {L : Type} [LedgerPort L] (engine : ProfileFsmEngine) (host : Host) (sid : String)

@[simp] theorem unhooked_profile : engine.unhooked.profile = engine.profile.unhooked := rfl
@[simp] theorem unhooked_vendor : engine.unhooked.vendor = engine.vendor := rfl
@[simp] theorem unhooked_config : engine.unhooked.config = engine.config := rfl

@[simp] theorem enterSub_unhooked (i j : Nat) (initialContext : Option Json) :
    enterSub (L := L) engine.unhooked host sid i j initialContext =
      enterSub engine host sid i j initialContext := by
  unfold enterSub
  simp

@[simp] theorem landOn_unhooked (i j : Nat) :
    landOn (L := L) engine.unhooked host sid i j = landOn engine host sid i j := by
  unfold landOn
  simp

@[simp] theorem advancePlain_unhooked (i j : Nat) (pos : Position) :
    advancePlain (L := L) engine.unhooked host sid i j pos = advancePlain engine host sid i j pos := by
  unfold advancePlain
  simp

@[simp] theorem applyLoopBack_unhooked (i : Nat) (pos : Position) (missing : List String)
    (macroIteration : UInt32) :
    applyLoopBack (L := L) engine.unhooked host sid i pos missing macroIteration =
      applyLoopBack engine host sid i pos missing macroIteration := by
  unfold applyLoopBack
  simp

@[simp] theorem rejectChecklist_unhooked (i : Nat) (pos : Position) (missing : List String)
    (evidence : ChecklistEvidence) :
    rejectChecklist (L := L) engine.unhooked host sid i pos missing evidence =
      rejectChecklist engine host sid i pos missing evidence := by
  unfold rejectChecklist
  simp

@[simp] theorem advanceMacro_unhooked (i : Nat) (pos : Position) :
    advanceMacro (L := L) engine.unhooked host sid i pos = advanceMacro engine host sid i pos := by
  unfold advanceMacro
  simp

theorem verifyRefs_unhooked (store : ArtifactStore) (refs : List ArtifactRef) :
    verifyRefs engine.unhooked host store refs = verifyRefs engine host store refs := by
  induction refs with
  | nil => rfl
  | cons a refs ih =>
    rw [verifyRefs, verifyRefs, ih]
    rfl

@[simp] theorem verifySessionArtifacts_unhooked (session : Option SessionState) :
    verifySessionArtifacts engine.unhooked host sid session =
      verifySessionArtifacts engine host sid session := by
  unfold verifySessionArtifacts
  simp only [verifyRefs_unhooked]
  rfl

@[simp] theorem writeContract_unhooked (pos : Position) (output : Option Json) :
    writeContract (L := L) engine.unhooked host sid pos output =
      writeContract engine host sid pos output := rfl

@[simp] theorem completeFinalMacro_unhooked (pos : Position) (output : Option Json) :
    completeFinalMacro (L := L) engine.unhooked host sid pos output =
      completeFinalMacro engine host sid pos output := by
  unfold completeFinalMacro
  simp

@[simp] theorem stepChecklist_unhooked (i j : Nat) (pos : Position) (evidence : ChecklistEvidence)
    (output : Option Json) :
    stepChecklist (L := L) engine.unhooked host sid i j pos evidence output =
      stepChecklist engine host sid i j pos evidence output := by
  unfold stepChecklist
  simp

@[simp] theorem stepApproval_unhooked (i j : Nat) (pos : Position) (evidence : ChecklistEvidence) :
    stepApproval (L := L) engine.unhooked host sid i j pos evidence =
      stepApproval engine host sid i j pos evidence := by
  unfold stepApproval
  simp [refuseApproval, acceptApproval]

@[simp] theorem dispatch_unhooked (i j : Nat) (pos : Position) (evidence : ChecklistEvidence)
    (output : Option Json) :
    dispatch (L := L) engine.unhooked host sid i j pos evidence output =
      dispatch engine host sid i j pos evidence output := by
  unfold dispatch
  simp

@[simp] theorem locate_unhooked (pos : Position) : locate engine.unhooked pos = locate engine pos := by
  unfold locate
  rw [unhooked_profile, Profile.unhooked_pipeline, List.findIdx?_map]
  simp only [Profile.unhooked_stateAt, StateDef.unhooked_subStates, List.findIdx?_map]
  rfl

@[simp] theorem timedOut_unhooked (elapsed : Nat) :
    timedOut engine.unhooked elapsed = timedOut engine elapsed := rfl

theorem submitMilestone_unhooked (pos : Position) (evidence : ChecklistEvidence)
    (output : Option Json) :
    submitMilestone (L := L) engine.unhooked host sid pos evidence output =
      submitMilestone engine host sid pos evidence output := by
  unfold submitMilestone
  simp

theorem entryPoint_unhooked :
    entryPoint engine.unhooked = (entryPoint engine).map fun entry => (entry.1.unhooked, entry.2) := by
  unfold entryPoint
  rw [unhooked_profile, Profile.unhooked_pipeline, List.head?_map]
  cases engine.profile.pipeline.head? with
  | none => rfl
  | some first =>
    rw [Option.map_some]
    dsimp only
    rw [firstEnabledIndex_unhooked]
    cases firstEnabledIndex first <;> rfl

theorem validated_unhooked : validated engine.unhooked host = validated engine host := by
  unfold validated
  simp [validateProfile_unhooked]

@[simp] theorem launch_unhooked (k : Nat) (position : Position) (context : Json)
    (initialContext : Option Json) :
    launch (L := L) engine.unhooked host sid k position context initialContext =
      launch engine host sid k position context initialContext := by
  unfold launch
  simp

@[simp] theorem freshSession_unhooked (t : Time) (context : Json) (position : Position) :
    freshSession engine.unhooked sid t context position =
      freshSession engine sid t context position := rfl

theorem startSession_unhooked (initialContext : Option Json) :
    startSession (L := L) engine.unhooked host sid initialContext =
      startSession engine host sid initialContext := by
  unfold startSession
  rw [validated_unhooked, entryPoint_unhooked, Effect.lift_map_bind]
  simp

theorem storeArtifact_unhooked (stepId : String) (data : Bytes) (mimeType : String) :
    storeArtifact (L := L) engine.unhooked host sid stepId data mimeType =
      storeArtifact engine host sid stepId data mimeType := rfl

theorem recoverSession_unhooked :
    recoverSession (L := L) engine.unhooked sid = recoverSession engine sid := by
  unfold recoverSession
  simp [recoverProfileSession_unhooked]

/-- **One call** answers the same and leaves the same world. -/
theorem perform_unhooked (call : Call) (w : World L) :
    perform engine.unhooked sid host call w = perform engine sid host call w := by
  cases call with
  | start => simp only [perform, startSession_unhooked]
  | submit => simp only [perform, submitMilestone_unhooked]
  | store => simp only [perform, storeArtifact_unhooked]
  | recover => simp only [perform, recoverSession_unhooked]

/-- A run of calls on any sessions: what each call answers, and the world they leave. -/
def performAll (w : World L) :
    List (String × Host × Call) → List (Except FsmError Reply) × World L
  | [] => ([], w)
  | (sid, host, call) :: calls =>
    let (reply, w) := perform engine sid host call w
    let (replies, w) := performAll w calls
    (reply :: replies, w)

theorem performAll_unhooked (w : World L) (calls : List (String × Host × Call)) :
    performAll engine.unhooked w calls = performAll engine w calls := by
  induction calls generalizing w with
  | nil => rfl
  | cons x calls ih =>
    obtain ⟨sid, host, call⟩ := x
    rw [performAll, performAll, perform_unhooked]
    simp only [ih]

end

/-- **Hooks are inert.** For every profile, the validator finds the same violations with
its hooks and without them; and over every ledger, from every world and for every run of
calls on any sessions, whatever the outside answers, the two engines answer the same,
hold the same sessions and leave the same ledger. -/
theorem hooks_inert (vendor : Vendor) (p : Profile) (config : FsmConfig) :
    (∀ library, validateProfile vendor.toSchemas library p.unhooked =
      validateProfile vendor.toSchemas library p) ∧
    ∀ {L : Type} [LedgerPort L] (w : World L) (calls : List (String × Host × Call)),
      performAll (new vendor p.unhooked config) w calls =
        performAll (new vendor p config) w calls := by
  refine ⟨fun library => validateProfile_unhooked _ _ _, fun w calls => ?_⟩
  rw [new_unhooked, performAll_unhooked]

end ProfileFsmEngine

end ProtocolEnforcer
