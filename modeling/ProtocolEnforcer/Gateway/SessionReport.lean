import ProtocolEnforcer.Fsm.Entries
import ProtocolEnforcer.Fsm.StepIds
import ProtocolEnforcer.Gateway.Wire
import ProtocolEnforcer.Ledger.StepReport

/-!
# The metrics of a session are those of its run

The metrics are computed offline, from the ledger and the profile file alone. For a session that
was started once they say what the machine says: the status a client was told, each step where
the profile has it, no step of a macro that was not reached, and a passed step in every macro
that was left behind. Appends may fail and the process may die at any of them.
-/

namespace ProtocolEnforcer

open Metrics

namespace ProfileFsmEngine

variable (engine : ProfileFsmEngine) (sid : String)

/-- What the metrics say of the sub-state with these indices, where a session `s` was there. -/
structure StepTold (s : SessionState) (step : StepMetrics) (i j : Nat) : Prop where
  inRange : engine.profile.InRange i j
  macroId : step.macroId = (engine.profile.place i j).macroId
  subStateId : step.subStateId = (engine.profile.place i j).subStateId
  subStateType : step.subStateType = some (engine.profile.typeAt i j).display
  criteriaCount : step.criteriaCount =
    ((engine.profile.stateAt i).subAt j).criteria.map List.length
  reached : ∀ i' j', engine.profile.InRange i' j' →
    s.position = some (engine.profile.place i' j') → i ≤ i'
  passed : step.passed = true → engine.profile.typeAt i j = .checklist
  refused : 0 < step.rejections →
    engine.profile.typeAt i j = .checklist ∨ engine.profile.typeAt i j = .humanApproval
  approvals : step.approvalRejections =
    if engine.profile.typeAt i j = .humanApproval then step.rejections else 0
  criteria : ∀ x ∈ step.rejectedCriteria, x.1 ∈ criteriaAt engine i j

/-- A step of macro `i` is passed. -/
def MacroPassed (m : SessionMetrics) (i : Nat) : Prop :=
  ∃ step ∈ m.steps, step.passed = true ∧ step.macroId = macroIdAt engine i

/-- The metrics `m` report the session `s`. -/
structure Reports (s : SessionState) (m : SessionMetrics) : Prop where
  session : m.sessionId = sid
  pipeline : m.pipelineId = some engine.profile.name
  status : m.status = sessionStatusStr s.status
  steps : ∀ step ∈ m.steps, ∃ i j, StepTold engine s step i j
  behind : ∀ i j, engine.profile.InRange i j → s.position = some (engine.profile.place i j) →
    ∀ i' < i, MacroPassed engine m i'
  done : s.status = .completed → ∀ i < engine.profile.pipeline.length, MacroPassed engine m i

variable {engine sid} {es : List FsmEvent} {e e' : FsmEvent} {i j i' j' : Nat}
  {p : Profile} {ed : Ed25519}

theorem isRefusal_of_isApprovalRejected {eventType : FsmEventType}
    (h : isApprovalRejected eventType = true) : Metrics.isRefusal eventType = true := by
  cases eventType with
  | approvalRejected => rfl
  | _ => cases h

/-! ## Session -/

/-- The pipeline of the last start, where all starts are of one. -/
theorem pipelineId_eq {name : String}
    (h : ∀ e ∈ es, ∀ pid version hash, e.eventType = .sessionStarted pid version hash → pid = name)
    (hstart : 0 < starts es) : pipelineId es = some name := by
  induction es using List.reverseRecOn with
  | nil => exact absurd hstart (Nat.lt_irrefl 0)
  | append_singleton es e ih =>
    have hlast := h e (List.mem_append_right _ (List.mem_singleton_self e))
    rw [pipelineId, List.foldl_concat]
    split
    · rename_i hty
      rw [hlast _ _ _ hty]
    · rename_i hother
      have hsame : starts (es ++ [e]) = starts es := by
        have hnone : e.startTime = none := by
          unfold FsmEvent.startTime
          split
          · rename_i hty
            exact absurd hty (hother _ _ _)
          · rfl
        rw [starts, starts, List.countP_append, List.countP_singleton, hnone]
        rfl
      exact ih (fun e' he' => h e' (List.mem_append_left _ he')) (hsame ▸ hstart)

/-- The status is that of the entry that ends the session, if there is one. -/
theorem status_eq {status : SessionStatus} (ends : ∀ e ∈ es, ∀ status' ∈ e.ends, status = status')
    (ended : status ≠ .active → ∃ e ∈ es, e.ends = some status) :
    Metrics.status es = sessionStatusStr status := by
  unfold Metrics.status
  split
  · rename_i hcompleted
    obtain ⟨e, he, hkind⟩ := List.any_eq_true.mp hcompleted
    have hends : e.ends = some .completed := by
      unfold FsmEvent.ends
      cases hty : e.eventType <;> simp [hty] at hkind ⊢
    rw [ends e he _ hends]
    rfl
  split
  · rename_i hfailed
    obtain ⟨e, he, hkind⟩ := List.any_eq_true.mp hfailed
    have hends : e.ends = some .failed := by
      unfold FsmEvent.ends
      cases hty : e.eventType <;> simp [hty] at hkind ⊢
    rw [ends e he _ hends]
    rfl
  · rename_i hcompleted hfailed
    by_cases hactive : status = .active
    · rw [hactive]
      rfl
    · obtain ⟨e, he, hends⟩ := ended hactive
      refine absurd hends ?_
      have hkind := fun h => hcompleted (List.any_eq_true.mpr ⟨e, he, h⟩)
      have hkind' := fun h => hfailed (List.any_eq_true.mpr ⟨e, he, h⟩)
      unfold FsmEvent.ends
      cases hty : e.eventType <;> simp [hty] at hkind hkind' ⊢

/-! ## Steps -/

/-- A sub-state the engine steps through is one of the profile file. -/
theorem at_of_inRange (h : p.withEnabledMacrosOnly.InRange i j) :
    p.At (p.withEnabledMacrosOnly.place i j) ((p.withEnabledMacrosOnly.stateAt i).subAt j) := by
  obtain ⟨hm, -⟩ := List.mem_filter.mp (Profile.stateAt_mem h.macroIdx)
  exact ⟨_, hm, rfl, List.mem_of_getElem? (StateDef.getElem?_subAt h.subIdx), rfl⟩

section

variable (hslash : ∀ m ∈ engine.profile.pipeline, '/' ∉ m.stateId.toList)

include hslash

theorem splitStepId_place (h : engine.profile.InRange i j) :
    splitStepId (engine.profile.place i j).stepId =
      ((engine.profile.place i j).macroId, (engine.profile.place i j).subStateId) :=
  splitStepId_stepId.mpr (hslash _ (Profile.stateAt_mem h.macroIdx))

/-- Entries with one step id are of one sub-state. -/
theorem Entry.unique (wf : engine.profile.WellFormed ed) (h : Entry engine sid i j e)
    (h' : Entry engine sid i' j' e') (hstep : e.stepId = e'.stepId) : i = i' ∧ j = j' := by
  have heq : (engine.profile.place i j).stepId = (engine.profile.place i' j').stepId :=
    Option.some.inj (h.step.symm.trans (hstep.trans h'.step))
  have hsplit := (splitStepId_place hslash h.inRange).symm.trans
    ((congrArg splitStepId heq).trans (splitStepId_place hslash h'.inRange))
  refine place_inj wf h.inRange h'.inRange ?_
  rw [Position.mk.injEq]
  exact ⟨congrArg Prod.fst hsplit, congrArg Prod.snd hsplit⟩

/-- What stands in the ledger at a step fits the sub-state the step is of. -/
theorem Told.fits (wf : engine.profile.WellFormed ed) {s : SessionState}
    (h : Told engine sid es s) (entry : Entry engine sid i j e) (he' : e' ∈ es)
    (hstep : e'.stepId = e.stepId) : Fits engine i j e'.eventType := by
  obtain ⟨i', j', entry'⟩ := h.entries e' he'
  obtain ⟨rfl, rfl⟩ := entry.unique hslash wf entry' hstep.symm
  exact entry'.fits

/-- **Each step is reported where it is.** -/
theorem Told.step {schemas : Schemas} {lib : Library} {s : SessionState} {step : StepMetrics}
    (wf : engine.profile.WellFormed ed) (hvalid : validateProfile schemas lib p = .ok ())
    (hprofile : engine.profile = p.withEnabledMacrosOnly) (h : Told engine sid es s)
    (hstep : step ∈ (computeSessionMetrics es (some p)).steps) :
    ∃ i j, StepTold engine s step i j := by
  obtain ⟨stepId, hmem, rfl⟩ := List.mem_map.mp hstep
  obtain ⟨e, he, hid⟩ := mem_stepOrder.mp hmem
  obtain ⟨i, j, entry⟩ := h.entries e he
  obtain rfl : stepId = (engine.profile.place i j).stepId :=
    Option.some.inj (hid.symm.trans entry.step)
  have fits (e' : FsmEvent) (he' : e' ∈ es)
      (hid' : e'.stepId = some (engine.profile.place i j).stepId) : Fits engine i j e'.eventType :=
    h.fits hslash wf entry he' (hid'.trans hid.symm)
  have hsplit := splitStepId_place hslash entry.inRange
  have hlookup : lookupProfile (some p) (engine.profile.place i j).macroId
      (engine.profile.place i j).subStateId = (some (engine.profile.typeAt i j).display,
        ((engine.profile.stateAt i).subAt j).criteria.map List.length) := by
    rw [lookupProfile, lookupSub_at hvalid (hprofile ▸ at_of_inRange (hprofile ▸ entry.inRange))]
    rw [hprofile]
    rfl
  have hrejections : (stepMetrics es (some p) (engine.profile.place i j).stepId).rejections =
      es.countP fun e' => Metrics.isRefusal e'.eventType &&
        decide (e'.stepId = some (engine.profile.place i j).stepId) := stepMetrics_rejections _
  refine ⟨i, j, entry.inRange, congrArg Prod.fst hsplit, congrArg Prod.snd hsplit, ?_, ?_, ?_, ?_,
    ?_, ?_, ?_⟩
  · show (lookupProfile (some p) (splitStepId _).1 (splitStepId _).2).1 = _
    rw [hsplit, hlookup]
  · show (lookupProfile (some p) (splitStepId _).1 (splitStepId _).2).2 = _
    rw [hsplit, hlookup]
  · intro i' j' hrange here
    obtain ⟨i₁, hle, j₁, entry₁⟩ := (h.upTo i' j' hrange here).entries e he
    obtain ⟨rfl, -⟩ := entry.unique hslash wf entry₁ rfl
    exact hle
  · intro hpassed
    obtain ⟨e', he', hid', hpass⟩ := (stepMetrics_passed fun e' he' _ => by
      obtain ⟨_, _, entry'⟩ := h.entries e' he'
      rw [entry'.step]
      rfl).mp hpassed
    exact (fits e' he' hid').passed hpass
  · intro hpos
    rw [hrejections, List.countP_pos_iff] at hpos
    obtain ⟨e', he', hrefusal⟩ := hpos
    rw [Bool.and_eq_true, decide_eq_true_eq] at hrefusal
    have hfits := (fits e' he' hrefusal.2).refused hrefusal.1
    split at hfits
    · exact Or.inr hfits
    · exact Or.inl hfits
  · -- at a gate every refusal is one of an approval, elsewhere none is
    rw [hrejections, stepMetrics_approvalRejections]
    have hkind (e' : FsmEvent) (he' : e' ∈ es)
        (hid' : e'.stepId = some (engine.profile.place i j).stepId) :
        isApprovalRejected e'.eventType = true ↔ Metrics.isRefusal e'.eventType = true ∧
          engine.profile.typeAt i j = .humanApproval := by
      have hfits := (fits e' he' hid').refused
      constructor
      · intro happ
        have hrefusal := isRefusal_of_isApprovalRejected happ
        rw [if_pos happ] at hfits
        exact ⟨hrefusal, hfits hrefusal⟩
      · rintro ⟨hrefusal, gate⟩
        by_contra hnot
        rw [if_neg hnot, gate] at hfits
        cases hfits hrefusal
    split
    · rename_i gate
      refine List.countP_congr fun e' he' => ?_
      simp only [Bool.and_eq_true, decide_eq_true_eq]
      refine and_congr_left fun hid' => ?_
      rw [hkind e' he' hid', and_iff_left gate]
    · rename_i hother
      refine List.countP_eq_zero.mpr fun e' he' => ?_
      rw [Bool.and_eq_true, decide_eq_true_eq]
      rintro ⟨happ, hid'⟩
      exact hother ((hkind e' he' hid').mp happ).2
  · intro x hx
    obtain ⟨e', he', hid', hitem⟩ := mem_rejectedCriteria.mp (List.mem_map_of_mem hx)
    exact (fits e' he' hid').items hitem

/-- A macro that the ledger passes is reported as passed. -/
theorem PassedIn.reported {profile : Option Profile} (h : PassedIn engine sid es i)
    (hsteps : ∀ e ∈ es, e.stepId.isSome = true) :
    MacroPassed engine (computeSessionMetrics es profile) i := by
  obtain ⟨e, he, hpass, j, entry⟩ := h
  refine ⟨stepMetrics es profile (engine.profile.place i j).stepId,
    List.mem_map_of_mem (mem_stepOrder.mpr ⟨e, he, entry.step⟩),
    (stepMetrics_passed fun e' he' _ => hsteps e' he').mpr ⟨e, he, entry.step, hpass⟩, ?_⟩
  exact congrArg Prod.fst (splitStepId_place hslash entry.inRange)

/-- **What is told is reported.** -/
theorem Told.reports {schemas : Schemas} {lib : Library} {s : SessionState}
    (wf : engine.profile.WellFormed ed) (hvalid : validateProfile schemas lib p = .ok ())
    (hprofile : engine.profile = p.withEnabledMacrosOnly) (h : Told engine sid es s)
    (hstart : 0 < starts es) :
    Reports engine sid s (computeSessionMetrics es (some p)) := by
  have hsteps : ∀ e ∈ es, e.stepId.isSome = true := fun e he => by
    obtain ⟨_, _, entry⟩ := h.entries e he
    rw [entry.step]
    rfl
  refine ⟨?_, ?_, status_eq h.ends h.ended, fun step => h.step hslash wf hvalid hprofile,
    fun i j hrange here i' hlt => ((h.upTo i j hrange here).behind i' hlt).reported hslash hsteps,
    fun hdone i hi => (h.done hdone i hi).reported hslash hsteps⟩
  · cases es with
    | nil => exact absurd hstart (Nat.lt_irrefl 0)
    | cons e es =>
      obtain ⟨_, _, entry⟩ := h.entries e (List.mem_cons_self ..)
      exact entry.session
  · refine pipelineId_eq (fun e he pid version hash hty => ?_) hstart
    obtain ⟨_, _, entry⟩ := h.entries e he
    have hfits := entry.fits
    rw [hty] at hfits
    exact hfits

end

end ProfileFsmEngine

namespace Sample

open ProfileFsmEngine

/-- A checklist is rejected, and then the process dies on the entry that accepts it. -/
def lostAcceptance : List Act :=
  [.call host (.start none), .call host (submit "draft" .empty).2,
    .call host (submit "check" .empty).2, .crash host (submit "check" done).2 1,
    .call host .recover]

def acceptanceLost : World SessionLedger :=
  lostAcceptance.foldl (occur (engine [draft, checklist]) "s1") (world fun _ => .ok ())

end Sample

namespace ProfileFsmEngine

end ProfileFsmEngine

end ProtocolEnforcer
