import ProtocolEnforcer.Core.Keyed
import ProtocolEnforcer.Fsm.Calls
import ProtocolEnforcer.Ledger.Metrics
import ProtocolEnforcer.Manifest.ValidProfile

/-!
# Positions in the step ids of the ledger

The engine writes a position as `macro/sub-state`; the reader of the metrics splits that at its
first `/`. The validator keeps `:` out of the ids, for the sake of the approval signatures, but
not `/`. So positions survive exactly in the profiles whose macros have no `/` in their ids;
sub-states may.
-/

namespace ProtocolEnforcer

open Metrics

/-- A position of a profile, and the sub-state that is there. -/
def Profile.At (p : Profile) (pos : Position) (sub : SubStateDef) : Prop :=
  ∃ m ∈ p.pipeline, m.stateId = pos.macroId ∧ sub ∈ m.subStates ∧ sub.id = pos.subStateId

/-- The events of a session of `p`, each with the position that its step id was written for. -/
def Profile.Writes (p : Profile) (trace : List (Option Position × FsmEvent)) : Prop :=
  ∀ x ∈ trace, x.2.stepId = x.1.map Position.stepId ∧ ∀ pos ∈ x.1, ∃ sub, p.At pos sub

/-- Positions survive their step ids: they are read back, two of them have two step ids, and
what is read back finds its sub-state. So the metrics of a session have its refusals where
they happened. -/
structure Profile.StepIdsSurvive (p : Profile) : Prop where
  decode : ∀ pos sub, p.At pos sub → splitStepId pos.stepId = (pos.macroId, pos.subStateId)
  distinct : ∀ pos sub pos' sub', p.At pos sub → p.At pos' sub' → pos ≠ pos' →
    pos.stepId ≠ pos'.stepId
  found : ∀ pos sub, p.At pos sub →
    lookupSub (some p) (splitStepId pos.stepId).1 (splitStepId pos.stepId).2 = some sub
  attributed : ∀ trace, p.Writes trace →
    ∀ s ∈ (computeSessionMetrics (trace.map Prod.snd) (some p)).steps, ∃ pos sub, p.At pos sub ∧
      s.macroId = pos.macroId ∧ s.subStateId = pos.subStateId ∧
      s.subStateType = some sub.subStateType.display ∧
      s.criteriaCount = sub.criteria.map List.length ∧
      s.rejections = trace.countP fun x => x.1 = some pos && isRefusal x.2.eventType

section

variable {schemas : Schemas} {lib : Library} {p : Profile} {pos pos' : Position}
  {sub sub' : SubStateDef}

/-- A position is read back exactly when its macro has no `/` in its id. -/
theorem splitStepId_stepId :
    splitStepId pos.stepId = (pos.macroId, pos.subStateId) ↔ '/' ∉ pos.macroId.toList := by
  rw [Position.stepId]
  exact splitStepId_append_iff

/-- In a validated profile each position finds its sub-state. -/
theorem lookupSub_at (h : validateProfile schemas lib p = .ok ()) (hat : p.At pos sub) :
    lookupSub (some p) pos.macroId pos.subStateId = some sub := by
  have passes := validateProfile_ok_iff.mp h
  obtain ⟨m, hm, hstateId, hsub, hid⟩ := hat
  have wf := validateMacro_wellFormed (passes.macros m hm)
  show ((p.pipeline.find? (·.stateId = pos.macroId)).bind fun state =>
    state.subStates.find? (·.id = pos.subStateId)) = some sub
  rw [← hstateId, find?_of_nodup passes.macroIds hm, Option.bind_some, ← hid,
    find?_of_nodup wf.subIds hsub]

/-- Every macro of a validated profile has a position. -/
theorem exists_at (h : validateProfile schemas lib p = .ok ()) {m : StateDef}
    (hm : m ∈ p.pipeline) : ∃ subId sub, p.At ⟨m.stateId, subId⟩ sub := by
  have wf := validateMacro_wellFormed ((validateProfile_ok_iff.mp h).macros m hm)
  obtain ⟨sub, hsub⟩ := List.exists_mem_of_ne_nil _ wf.nonempty
  exact ⟨sub.id, sub, m, hm, rfl, hsub, rfl⟩

/-- The refusals that the metrics have for a position are those that happened there. -/
theorem rejections_at {trace : List (Option Position × FsmEvent)} (hwrites : p.Writes trace)
    (hdistinct : ∀ pos', (∃ sub', p.At pos' sub') → pos'.stepId = pos.stepId → pos' = pos) :
    (stepMetrics (trace.map Prod.snd) (some p) pos.stepId).rejections =
      trace.countP fun x => x.1 = some pos && isRefusal x.2.eventType := by
  rw [stepMetrics_rejections, List.countP_map]
  refine List.countP_congr fun x hx => ?_
  obtain ⟨hstep, hat⟩ := hwrites x hx
  have hhere : x.2.stepId = some pos.stepId ↔ x.1 = some pos := by
    rw [hstep]
    cases hpos : x.1 with
    | none => simp
    | some pos' =>
      rw [Option.map_some, Option.some.injEq, Option.some.injEq]
      exact ⟨hdistinct pos' (hat pos' hpos), congrArg Position.stepId⟩
  simp only [Function.comp_apply, Bool.and_eq_true, decide_eq_true_eq, hhere]
  exact and_comm

/-- **Positions survive their step ids exactly where no macro has a `/` in its id.** -/
theorem step_ids_survive_iff (h : validateProfile schemas lib p = .ok ()) :
    p.StepIdsSurvive ↔ ∀ m ∈ p.pipeline, '/' ∉ m.stateId.toList := by
  constructor
  · intro hsurvive m hm
    obtain ⟨subId, sub, hat⟩ := exists_at h hm
    exact splitStepId_stepId.mp (hsurvive.decode _ sub hat)
  · intro hslash
    have decode : ∀ pos sub, p.At pos sub →
        splitStepId pos.stepId = (pos.macroId, pos.subStateId) := by
      rintro pos sub ⟨m, hm, hstateId, -⟩
      exact splitStepId_stepId.mpr (hstateId ▸ hslash m hm)
    have hinj : ∀ pos sub pos' sub', p.At pos sub → p.At pos' sub' →
        pos.stepId = pos'.stepId → pos = pos' := by
      intro pos sub pos' sub' hat hat' heq
      have hparts := (decode pos sub hat).symm.trans (heq ▸ decode pos' sub' hat')
      cases pos
      cases pos'
      cases hparts
      rfl
    have found : ∀ pos sub, p.At pos sub →
        lookupSub (some p) (splitStepId pos.stepId).1 (splitStepId pos.stepId).2 = some sub :=
      fun pos sub hat => by
        rw [decode pos sub hat]
        exact lookupSub_at h hat
    refine ⟨decode, fun pos sub pos' sub' hat hat' hne heq =>
      hne (hinj pos sub pos' sub' hat hat' heq), found, fun trace hwrites s hs => ?_⟩
    obtain ⟨sid, hsid, rfl⟩ := List.mem_map.mp hs
    obtain ⟨e, he, hstep⟩ := mem_stepOrder.mp hsid
    obtain ⟨⟨at', e⟩, hx, rfl⟩ := List.mem_map.mp he
    obtain ⟨hwritten, hat⟩ := hwrites _ hx
    obtain ⟨pos, rfl, rfl⟩ := Option.map_eq_some_iff.mp (hwritten.symm.trans hstep)
    obtain ⟨sub, hat⟩ := hat pos rfl
    have hsplit := decode pos sub hat
    have hlookup : lookupProfile (some p) pos.macroId pos.subStateId =
        (some sub.subStateType.display, sub.criteria.map List.length) := by
      rw [lookupProfile, lookupSub_at h hat]
    refine ⟨pos, sub, hat, ?_, ?_, ?_, ?_, rejections_at hwrites
      fun pos' ⟨sub', hat'⟩ heq => hinj pos' sub' pos sub hat' hat heq⟩
    · exact congrArg Prod.fst hsplit
    · exact congrArg Prod.snd hsplit
    · show (lookupProfile (some p) (splitStepId pos.stepId).1 (splitStepId pos.stepId).2).1 = _
      rw [hsplit, hlookup]
    · show (lookupProfile (some p) (splitStepId pos.stepId).1 (splitStepId pos.stepId).2).2 = _
      rw [hsplit, hlookup]

end

namespace Sample

/-- Two macros whose ids run into those of their sub-states. -/
def slashed : Profile :=
  let slashing (stateId subId : String) : StateDef :=
    { stateId, name := stateId
      subStates := [{ id := subId, subStateType := .checklist, criteria := some ["done"] }] }
  { name := "slashed", version := "1", pipeline := [slashing "a" "b/c", slashing "a/b" "c"] }

end Sample

theorem step_ids_survive_drafted :
    (Sample.profile [Sample.draft, Sample.checklist]).StepIdsSurvive :=
  (step_ids_survive_iff Sample.drafted_valid).mpr (by decide)

/-- Two positions of a validated profile with one step id, which is read back as the other. -/
theorem step_ids_collide :
    validateProfile Sample.vendor.toSchemas Sample.library Sample.slashed = .ok () ∧
    ¬Sample.slashed.StepIdsSurvive ∧
    (⟨"a", "b/c"⟩ : Position).stepId = (⟨"a/b", "c"⟩ : Position).stepId ∧
    splitStepId (⟨"a/b", "c"⟩ : Position).stepId = ("a", "b/c") := by
  have hstep : (⟨"a", "b/c"⟩ : Position).stepId = (⟨"a/b", "c"⟩ : Position).stepId := by decide
  refine ⟨by decide, fun hsurvive => ?_, hstep, by decide⟩
  have hfirst : Sample.slashed.At ⟨"a", "b/c"⟩ _ :=
    ⟨_, List.mem_cons_self, rfl, List.mem_cons_self, rfl⟩
  have hsecond : Sample.slashed.At ⟨"a/b", "c"⟩ _ :=
    ⟨_, List.mem_cons_of_mem _ List.mem_cons_self, rfl, List.mem_cons_self, rfl⟩
  exact hsurvive.distinct _ _ _ _ hfirst hsecond (by decide) hstep

end ProtocolEnforcer
