import ProtocolEnforcer.Fsm.Restart

/-!
# Forced order

Positions move by hops: to the next enabled sub-state, back to the first enabled
`execute` sub-state, or from a met checklist to the next macro. `Progress` is what a
call's course keeps of the position it began at, and `Onward` what hops have covered,
so that a completed session has been everywhere.
-/

namespace ProtocolEnforcer

open Relation

/-- An enabled sub-state of a macro of the (normalized) pipeline. -/
structure Profile.EnabledAt (p : Profile) (i j : Nat) : Prop where
  macroIdx : i < p.pipeline.length
  sub : ∃ sub, (p.stateAt i).subStates[j]? = some sub ∧ sub.enabled = true

theorem Profile.EnabledAt.inRange {p : Profile} {i j : Nat} (h : p.EnabledAt i j) :
    p.InRange i j :=
  .of_enabled h.macroIdx h.sub

/-- An enabled sub-state of an enabled macro has its place in the normalized pipeline, -/
theorem Profile.enabledAt_of_mem {p : Profile} {m : StateDef} {sub : SubStateDef}
    (hm : m ∈ p.pipeline) (henabled : m.enabled = true) (hsub : sub ∈ m.subStates)
    (hsubEnabled : sub.enabled = true) :
    ∃ i j, p.withEnabledMacrosOnly.EnabledAt i j ∧
      p.withEnabledMacrosOnly.place i j = ⟨m.stateId, sub.id⟩ := by
  have hkept : m ∈ p.withEnabledMacrosOnly.pipeline := List.mem_filter.mpr ⟨hm, henabled⟩
  obtain ⟨i, hi, hmi⟩ := List.mem_iff_getElem.mp hkept
  rw [Profile.getElem_stateAt hi] at hmi
  subst hmi
  obtain ⟨j, hj⟩ := List.mem_iff_getElem?.mp hsub
  refine ⟨i, j, ⟨hi, sub, hj, hsubEnabled⟩, ?_⟩
  rw [Profile.place, StateDef.subAt_eq hj]

/-- and nothing else has. -/
theorem Profile.EnabledAt.mem {p : Profile} {i j : Nat}
    (h : p.withEnabledMacrosOnly.EnabledAt i j) :
    ∃ m ∈ p.pipeline, m.enabled = true ∧ ∃ sub ∈ m.subStates, sub.enabled = true ∧
      p.withEnabledMacrosOnly.place i j = ⟨m.stateId, sub.id⟩ := by
  obtain ⟨sub, hsub, henabled⟩ := h.sub
  obtain ⟨hm, hmEnabled⟩ := List.mem_filter.mp (Profile.stateAt_mem h.macroIdx)
  refine ⟨_, hm, hmEnabled, sub, List.mem_of_getElem? hsub, henabled, ?_⟩
  rw [Profile.place, StateDef.subAt_eq hsub]

/-- The place of a macro's last sub-state, its checklist. -/
def Profile.checklistPlace (p : Profile) (i : Nat) : Position :=
  p.place i ((p.stateAt i).subStates.length - 1)

/-- The step id a `MilestoneAccepted` event carries. -/
def FsmEvent.acceptedStep (e : FsmEvent) : Option String :=
  match e.eventType with
  | .milestoneAccepted _ => e.stepId
  | _ => none

/-- The step ids of the accepted checklists, in order. -/
def acceptedSteps (es : List FsmEvent) : List String := es.filterMap (·.acceptedStep)

def FsmEvent.isCompletion (e : FsmEvent) : Bool :=
  match e.eventType with
  | .sessionCompleted _ _ => true
  | _ => false

/-- The ledger holds a `SessionCompleted`. -/
def completed (es : List FsmEvent) : Bool := es.any (·.isCompletion)

section

variable {es : List FsmEvent} {e : FsmEvent}

theorem acceptedSteps_snoc :
    acceptedSteps (es ++ [e]) = acceptedSteps es ++ e.acceptedStep.toList := by
  rw [acceptedSteps, List.filterMap_append]
  cases h : e.acceptedStep <;> simp [acceptedSteps, h]

theorem acceptedSteps_other (h : e.acceptedStep = none) :
    acceptedSteps (es ++ [e]) = acceptedSteps es := by
  rw [acceptedSteps_snoc, h, Option.toList_none, List.append_nil]

theorem completed_snoc : completed (es ++ [e]) = (completed es || e.isCompletion) := by
  rw [completed, List.any_append, List.any_cons, List.any_nil, Bool.or_false]
  rfl

theorem completed_other (h : e.isCompletion = false) : completed (es ++ [e]) = completed es := by
  rw [completed_snoc, h, Bool.or_false]

end

namespace ProfileFsmEngine

variable (engine : ProfileFsmEngine) (sid : String)

/-- The call submits, at the checklist `pos`, a present value for every criterion. -/
def Met (call : Call) (pos : Position) (i j : Nat) : Prop :=
  locate engine pos = .ok (i, j) ∧ engine.profile.typeAt i j = .checklist ∧
    ∃ evidence output, call = .submit pos evidence output ∧
      ∀ c ∈ criteriaAt engine i j, ∃ v, evidence.get c = some v ∧ isPresent v = true

/-- The moves of a position in one call, with the checklists accepted on the way. -/
inductive Hop (call : Call) : Option Position → Option Position → List String → Prop where
  | stay {p} : Hop call p p []
  | next {i j k} (hty : engine.profile.typeAt i j ≠ .checklist)
      (hk : NextEnabled (engine.profile.stateAt i) j k) (hi : i < engine.profile.pipeline.length) :
      Hop call (some (engine.profile.place i j)) (some (engine.profile.place i k)) []
  | loopBack {i j k} (checklist : engine.profile.typeAt i j = .checklist)
      (hk : FirstEnabledExecute (engine.profile.stateAt i) k)
      (hi : i < engine.profile.pipeline.length) :
      Hop call (some (engine.profile.place i j)) (some (engine.profile.place i k)) []
  | nextMacro {i j k} (met : Met engine call (engine.profile.place i j) i j)
      (hk : FirstEnabled (engine.profile.stateAt (i + 1)) k)
      (hi : i + 1 < engine.profile.pipeline.length) :
      Hop call (some (engine.profile.place i j)) (some (engine.profile.place (i + 1) k))
        [(engine.profile.place i j).stepId]
  | complete {i j} (met : Met engine call (engine.profile.place i j) i j)
      (hi : i + 1 = engine.profile.pipeline.length) :
      Hop call (some (engine.profile.place i j)) none [(engine.profile.place i j).stepId]

/-- A moment of a call that began with `s₀` in memory and `es₀` in the ledger. -/
def Progress (call : Call) (s₀ : SessionState) (es₀ : List FsmEvent) (c : Snapshot) : Prop :=
  ∃ s, c.live = some s ∧ completed c.events = s.position.isNone ∧
    match c.stage with
    | .ready => s = s₀ ∧ c.events = es₀
    | .refused | .struck | .bumped | .spent =>
      s.position = s₀.position ∧ acceptedSteps c.events = acceptedSteps es₀
    | .passed => s.position = s₀.position ∧ ∃ pos i j, s₀.position = some pos ∧
        Met engine call pos i j ∧ acceptedSteps c.events = acceptedSteps es₀ ++ [pos.stepId]
    | .landed _ _ | .settled => ∃ added, Hop engine call s₀.position s.position added ∧
        acceptedSteps c.events = acceptedSteps es₀ ++ added
    | .unborn | .stillborn => False

variable {engine sid}

/-- The checklist that has passed is the one the session stands at. -/
theorem Placed.met {call : Call} {s s₀ : SessionState} {es es₀ : List FsmEvent} {pos : Position}
    {i j : Nat} (placed : Placed engine s pos i j)
    (hpassed : s.position = s₀.position ∧ ∃ pos i j, s₀.position = some pos ∧
      Met engine call pos i j ∧ acceptedSteps es = acceptedSteps es₀ ++ [pos.stepId]) :
    s₀.position = some pos ∧ Met engine call pos i j ∧
      acceptedSteps es = acceptedSteps es₀ ++ [pos.stepId] := by
  obtain ⟨hsame, pos', i', j', hpos', met, haccepted⟩ := hpassed
  obtain rfl := Option.some.inj (placed.here.symm.trans (hsame.trans hpos'))
  obtain ⟨rfl, rfl⟩ := Prod.mk.inj (Except.ok.inj (placed.located.symm.trans met.1))
  exact ⟨hpos', met, haccepted⟩

/-- **One step keeps it.** -/
theorem Progress.step {ed : Ed25519} {host : Host} {call : Call} {s₀ : SessionState}
    {es₀ : List FsmEvent} {c d : Snapshot} (wf : engine.profile.WellFormed ed)
    (hfold : Folds engine sid es₀ (some s₀)) (hcall : ∀ ctx, call ≠ .start ctx)
    (h : Progress engine call s₀ es₀ c) (hstep : Step engine host sid call c d) :
    Progress engine call s₀ es₀ d := by
  obtain ⟨s, hlive, hdone, hstage⟩ := h
  cases hstep with
  | start heq | unborn heq | abort heq => exact absurd heq (hcall _)
  | arrive => exact ⟨s, hlive, hdone, hstage⟩
  -- a gate's challenge changes neither position nor what has been accepted
  | issue here hpos gate minted =>
    cases hlive
    obtain ⟨added, hop, haccepted⟩ := hstage
    exact ⟨_, rfl, (completed_other rfl).trans hdone, added, hop,
      (acceptedSteps_other rfl).trans haccepted⟩
  | @advance _ pos i j k next t es stage placed hadvance hk hnext =>
    cases hlive
    obtain ⟨hi, hj, hplace⟩ := locate_ok placed.located
    -- an execute step moves straight away, a gate only behind its approval
    have hbefore : s.position = s₀.position ∧ acceptedSteps es = acceptedSteps es₀ := by
      rcases hadvance with ⟨rfl, -⟩ | ⟨rfl, -⟩
      · exact ⟨congrArg _ hstage.1, congrArg _ hstage.2⟩
      · exact hstage
    have hty := not_checklist_of_advance hadvance
    refine ⟨_, rfl, (completed_other rfl).trans (hdone.trans ?_), [], ?_, ?_⟩
    · rw [placed.here]
      rfl
    · rw [← hbefore.1, placed.here, hplace]
      show Hop engine call _ (some next) []
      rw [hnext, hk]
      exact .next hty (wf.nextEnabled ⟨hi, hj⟩ hty) hi
    · rw [acceptedSteps_other rfl, hbefore.2, List.append_nil]
  | approve | refuse =>
    cases hlive
    obtain ⟨rfl, hes⟩ := hstage
    cases hes
    exact ⟨_, rfl, (completed_other rfl).trans hdone, rfl, acceptedSteps_other rfl⟩
  -- a breaker fails the session where it stands
  | @trip _ pos b ledgered t es stage active here htrip =>
    cases hlive
    have hbefore : s.position = s₀.position ∧ acceptedSteps es = acceptedSteps es₀ := by
      rcases htrip with ⟨rfl, -⟩ | ⟨rfl, -⟩ | ⟨rfl, -⟩
      · exact ⟨congrArg _ hstage.1, congrArg _ hstage.2⟩
      · exact hstage
      · exact hstage
    refine ⟨_, rfl, (completed_other rfl).trans hdone, [], ?_, ?_⟩
    · rw [← hbefore.1]
      exact .stay
    · rw [acceptedSteps_other rfl, hbefore.2, List.append_nil]
  | strike =>
    cases hlive
    obtain ⟨rfl, hes⟩ := hstage
    cases hes
    exact ⟨_, rfl, hdone, rfl, rfl⟩
  | reject =>
    cases hlive
    exact ⟨_, rfl, (completed_other rfl).trans hdone, hstage.1,
      (acceptedSteps_other rfl).trans hstage.2⟩
  -- the only move backwards, and within one macro
  | @loopBack _ pos i j k target t es placed checklist hloops hk htarget =>
    cases hlive
    obtain ⟨hi, -, hplace⟩ := locate_ok placed.located
    refine ⟨_, rfl, (completed_other rfl).trans (hdone.trans ?_), [], ?_, ?_⟩
    · rw [placed.here]
      rfl
    · rw [← hstage.1, placed.here, hplace]
      show Hop engine call _ (some target) []
      rw [htarget]
      exact .loopBack checklist (firstEnabledExecuteIndex_spec hk) hi
    · rw [acceptedSteps_other rfl, hstage.2, List.append_nil]
  -- the checklist is on the ledger before the session moves
  | @pass _ pos i j evidence output t es placed heq checklist hmet =>
    cases hlive
    obtain ⟨rfl, hes⟩ := hstage
    cases hes
    refine ⟨_, rfl, (completed_other rfl).trans hdone, rfl, pos, i, j, placed.here,
      ⟨placed.located, checklist, evidence, output, heq, missingCriteria_eq_nil.mp hmet⟩, ?_⟩
    rw [acceptedSteps_snoc]
    rfl
  | @nextMacro _ pos i j k next t es placed checklist hlast hk hnext =>
    cases hlive
    obtain ⟨hpos', met, haccepted⟩ := placed.met hstage
    obtain ⟨-, -, hplace⟩ := locate_ok placed.located
    refine ⟨_, rfl, (completed_other rfl).trans (hdone.trans ?_), [pos.stepId], ?_, ?_⟩
    · rw [placed.here]
      rfl
    · rw [hpos', hplace]
      show Hop engine call _ (some next) _
      rw [hnext]
      exact .nextMacro (hplace ▸ met) (wf.firstEnabled hlast hk) hlast
    · rw [acceptedSteps_other rfl, haccepted]
  | @complete _ pos i j path digest t es placed checklist hlast =>
    cases hlive
    obtain ⟨hpos', met, haccepted⟩ := placed.met hstage
    obtain ⟨-, -, hplace⟩ := locate_ok placed.located
    refine ⟨_, rfl, ?_, [pos.stepId], ?_, ?_⟩
    · rw [completed_snoc]
      exact Bool.or_true _
    · rw [hpos', hplace]
      exact .complete (hplace ▸ met) hlast
    · rw [acceptedSteps_other rfl, haccepted]
  | violate | store =>
    cases hlive
    obtain ⟨rfl, hes⟩ := hstage
    cases hes
    refine ⟨_, rfl, (completed_other rfl).trans hdone, [], .stay, ?_⟩
    rw [acceptedSteps_other rfl, List.append_nil]
  -- recovery puts in memory what the ledger folds to, which is `s₀`
  | @recover _ s' es heq hs =>
    cases hlive
    obtain ⟨rfl, hes⟩ := hstage
    cases hes
    obtain ⟨s₁, hs₁, hmap⟩ := hfold
    rw [hs] at hs₁
    cases hs₁
    cases hmap
    exact ⟨_, rfl, hdone, [], .stay, (List.append_nil _).symm⟩

/-! ## What hops cover -/

variable (engine)

/-- A trail of positions never returns to an earlier macro. -/
def InPipelineOrder (trail : List (Option Position)) : Prop :=
  trail.Pairwise fun p q => ∀ i j i' j', engine.profile.InRange i j → engine.profile.InRange i' j' →
    p = some (engine.profile.place i j) → q = some (engine.profile.place i' j') → i ≤ i'

/-- The checklists of the first `n` macros, as step ids. -/
def checklistSteps (n : Nat) : List String :=
  (List.range n).map fun i => (engine.profile.checklistPlace i).stepId

/-- What a session at `p` has behind it: the trail of its positions and its ledger. -/
inductive Onward (trail : List (Option Position)) (es : List FsmEvent) : Option Position → Prop where
  /-- Everything enabled up to the position has been visited, and the macros before it
  have been accepted. -/
  | underway {i j} (here : engine.profile.EnabledAt i j)
      (covered : ∀ i' j', engine.profile.EnabledAt i' j' → i' < i ∨ i' = i ∧ j' ≤ j →
        some (engine.profile.place i' j') ∈ trail)
      (below : ∀ i' j', engine.profile.InRange i' j' →
        some (engine.profile.place i' j') ∈ trail → i' ≤ i)
      (accepted : acceptedSteps es = checklistSteps engine i) :
      Onward trail es (some (engine.profile.place i j))
  | finished (covered : ∀ i' j', engine.profile.EnabledAt i' j' →
        some (engine.profile.place i' j') ∈ trail)
      (accepted : acceptedSteps es = checklistSteps engine engine.profile.pipeline.length) :
      Onward trail es none

variable {engine} {ed : Ed25519}

theorem checklistPlace_eq (wf : engine.profile.WellFormed ed) {i j : Nat}
    (h : engine.profile.InRange i j) (checklist : engine.profile.typeAt i j = .checklist) :
    engine.profile.checklistPlace i = engine.profile.place i j := by
  have hlen := (wf.checklist_iff h).mp checklist
  rw [Profile.checklistPlace, ← hlen, Nat.add_sub_cancel]

theorem checklistSteps_succ (n : Nat) :
    checklistSteps engine (n + 1) =
      checklistSteps engine n ++ [(engine.profile.checklistPlace n).stepId] := by
  rw [checklistSteps, List.range_succ, List.map_append, checklistSteps, List.map_singleton]

/-- At its checklist, everything enabled in a macro is at or before the position. -/
theorem le_checklist (wf : engine.profile.WellFormed ed) {i j j' : Nat}
    (h : engine.profile.InRange i j) (checklist : engine.profile.typeAt i j = .checklist)
    (h' : engine.profile.InRange i j') : j' ≤ j := by
  have hlen := (wf.checklist_iff h).mp checklist
  have hlt := h'.subIdx
  omega

/-- An index between two enabled neighbours is not enabled. -/
theorem le_of_nextEnabled {i j k j' : Nat} (hk : NextEnabled (engine.profile.stateAt i) j k)
    (h' : engine.profile.EnabledAt i j') (hle : j' ≤ k) : j' ≤ j ∨ j' = k := by
  by_contra hno
  obtain ⟨sub, hsub, henabled⟩ := h'.sub
  have hskip := hk.skips j' sub (by omega) (by omega) hsub
  rw [hskip] at henabled
  cases henabled

/-- Nothing enabled stands before the first enabled index. -/
theorem eq_of_firstEnabled {i k j' : Nat} (hk : FirstEnabled (engine.profile.stateAt i) k)
    (h' : engine.profile.EnabledAt i j') (hle : j' ≤ k) : j' = k := by
  by_contra hne
  obtain ⟨sub, hsub, henabled⟩ := h'.sub
  have hskip := hk.skips j' sub (by omega) hsub
  rw [hskip] at henabled
  cases henabled

section

variable {trail : List (Option Position)} {es es' : List FsmEvent} {p q : Option Position}
  {call : Call} {added : List String} {i j : Nat}

/-- What is behind a session at a place whose indices are known. -/
theorem Onward.at_place (wf : engine.profile.WellFormed ed) (hrange : engine.profile.InRange i j)
    (h : Onward engine trail es (some (engine.profile.place i j))) :
    engine.profile.EnabledAt i j ∧
      (∀ i' j', engine.profile.EnabledAt i' j' → i' < i ∨ i' = i ∧ j' ≤ j →
        some (engine.profile.place i' j') ∈ trail) ∧
      (∀ i' j', engine.profile.InRange i' j' →
        some (engine.profile.place i' j') ∈ trail → i' ≤ i) ∧
      acceptedSteps es = checklistSteps engine i := by
  generalize hp : some (engine.profile.place i j) = p at h
  cases h with
  | underway here covered below accepted =>
    obtain ⟨rfl, rfl⟩ := place_inj wf hrange here.inRange (Option.some.inj hp)
    exact ⟨here, covered, below, accepted⟩
  | finished => cases hp

/-- The trail stays in order when it goes on at a macro not before its last. -/
theorem InPipelineOrder.snoc (h : InPipelineOrder engine trail)
    (hq : ∀ i j i' j', engine.profile.InRange i j → engine.profile.InRange i' j' →
      some (engine.profile.place i j) ∈ trail → q = some (engine.profile.place i' j') → i ≤ i') :
    InPipelineOrder engine (trail ++ [q]) := by
  refine List.pairwise_append.mpr ⟨h, List.pairwise_singleton _ _, ?_⟩
  intro p hp q' hq' i j i' j' hrange hrange' hpi hqi
  rw [List.mem_singleton.mp hq'] at hqi
  exact hq i j i' j' hrange hrange' (hpi ▸ hp) hqi

/-- The trail goes on at a place of macro `i`. -/
theorem Onward.arrive (wf : engine.profile.WellFormed ed) (here : engine.profile.EnabledAt i j)
    (covered : ∀ i' j', engine.profile.EnabledAt i' j' → i' < i ∨ i' = i ∧ j' ≤ j →
      some (engine.profile.place i' j') ∈ trail ∨ i' = i ∧ j' = j)
    (below : ∀ i' j', engine.profile.InRange i' j' →
      some (engine.profile.place i' j') ∈ trail → i' ≤ i)
    (accepted : acceptedSteps es = checklistSteps engine i)
    (horder : InPipelineOrder engine trail) :
    Onward engine (trail ++ [some (engine.profile.place i j)]) es
        (some (engine.profile.place i j)) ∧
      InPipelineOrder engine (trail ++ [some (engine.profile.place i j)]) := by
  refine ⟨.underway here ?_ ?_ accepted, horder.snoc ?_⟩
  · intro i' j' henabled hle
    rcases covered i' j' henabled hle with hmem | ⟨rfl, rfl⟩
    · exact List.mem_append_left _ hmem
    · exact List.mem_append_right _ (List.mem_singleton.mpr rfl)
  · intro i' j' hrange hmem
    rcases List.mem_append.mp hmem with hmem | hlast
    · exact below i' j' hrange hmem
    · exact (place_inj wf hrange here.inRange
        (Option.some.inj (List.mem_singleton.mp hlast))).1.le
  · intro i₁ j₁ i' j' hrange hrange' hmem heq
    obtain ⟨rfl, rfl⟩ := place_inj wf here.inRange hrange' (Option.some.inj heq)
    exact below i₁ j₁ hrange hmem

/-- **A hop carries on.** -/
theorem Onward.hop (wf : engine.profile.WellFormed ed) (h : Onward engine trail es p)
    (horder : InPipelineOrder engine trail) (hop : Hop engine call p q added)
    (haccepted : acceptedSteps es' = acceptedSteps es ++ added) :
    Onward engine (trail ++ [q]) es' q ∧ InPipelineOrder engine (trail ++ [q]) := by
  cases hop with
  -- every sub-state behind stays behind, whatever the hop
  | stay =>
    rw [List.append_nil] at haccepted
    cases h with
    | underway here covered below accepted =>
      exact Onward.arrive wf here (fun i' j' henabled hle => Or.inl (covered i' j' henabled hle)) below
        (haccepted.trans accepted) horder
    | finished covered accepted =>
      exact ⟨.finished (fun i' j' henabled => List.mem_append_left _ (covered i' j' henabled))
        (haccepted.trans accepted), horder.snoc fun _ _ _ _ _ _ _ hq => nomatch hq⟩
  | @next i j k hty hk hi =>
    obtain ⟨sub, hsub, -⟩ := hk.here
    have hlen := (List.getElem?_eq_some_iff.mp hsub).1
    obtain ⟨-, covered, below, accepted⟩ := h.at_place wf ⟨hi, hk.lt.trans hlen⟩
    rw [List.append_nil] at haccepted
    refine Onward.arrive wf ⟨hi, hk.here⟩ ?_ below (haccepted.trans accepted) horder
    -- what is between the old place and the new one is disabled
    rintro i' j' henabled (hlt | ⟨rfl, hle⟩)
    · exact Or.inl (covered i' j' henabled (Or.inl hlt))
    · rcases le_of_nextEnabled hk henabled hle with hle | rfl
      · exact Or.inl (covered _ j' henabled (Or.inr ⟨rfl, hle⟩))
      · exact Or.inr ⟨rfl, rfl⟩
  | @loopBack i j k checklist hk hi =>
    have hrange := Profile.inRange_of_typeAt (p := engine.profile) (i := i) (j := j)
      (by rw [checklist]; decide)
    obtain ⟨-, covered, below, accepted⟩ := h.at_place wf hrange
    obtain ⟨sub, hsub, henabled, -⟩ := hk.here
    rw [List.append_nil] at haccepted
    refine Onward.arrive wf ⟨hi, sub, hsub, henabled⟩ ?_ below (haccepted.trans accepted) horder
    -- a loop goes back, and the checklist is its macro's last sub-state
    rintro i' j' henabled' (hlt | ⟨rfl, -⟩)
    · exact Or.inl (covered i' j' henabled' (Or.inl hlt))
    · exact Or.inl (covered _ j' henabled' (Or.inr ⟨rfl, le_checklist wf hrange checklist
        henabled'.inRange⟩))
  | @nextMacro i j k met hk hi =>
    obtain ⟨hloc, checklist, -⟩ := met
    have hrange := inRange_of_locate hloc
    obtain ⟨-, covered, below, accepted⟩ := h.at_place wf hrange
    refine Onward.arrive wf ⟨hi, hk.here⟩ ?_ ?_ ?_ horder
    -- the finished macro is covered up to its checklist
    · rintro i' j' henabled (hlt | ⟨rfl, hle⟩)
      · rcases Nat.lt_succ_iff_lt_or_eq.mp hlt with hlt | rfl
        · exact Or.inl (covered i' j' henabled (Or.inl hlt))
        · exact Or.inl (covered _ j' henabled (Or.inr ⟨rfl, le_checklist wf hrange checklist
            henabled.inRange⟩))
      · exact Or.inr ⟨rfl, eq_of_firstEnabled hk henabled hle⟩
    · intro i' j' hrange' hmem
      exact (below i' j' hrange' hmem).trans (Nat.le_succ i)
    · rw [haccepted, accepted, checklistSteps_succ, checklistPlace_eq wf hrange checklist]
  | @complete i j met hi =>
    obtain ⟨hloc, checklist, -⟩ := met
    have hrange := inRange_of_locate hloc
    obtain ⟨-, covered, -, accepted⟩ := h.at_place wf hrange
    refine ⟨.finished ?_ ?_, horder.snoc fun _ _ _ _ _ _ _ hq => nomatch hq⟩
    · intro i' j' henabled
      have hlt := henabled.macroIdx
      refine List.mem_append_left _ (covered i' j' henabled ?_)
      rcases Nat.lt_or_ge i' i with hlt' | hge
      · exact Or.inl hlt'
      · obtain rfl : i' = i := by omega
        exact Or.inr ⟨rfl, le_checklist wf hrange checklist henabled.inRange⟩
    · rw [haccepted, accepted, ← hi, checklistSteps_succ, checklistPlace_eq wf hrange checklist]

end

/-! ## Runs of one started session -/

variable (engine) (sid : String)

/-- The position of the session in memory. -/
def positionIn (w : World SessionLedger) : Option Position :=
  (w.sessions sid).bind (·.position)

/-- The positions after each call of a run. -/
def trail (w : World SessionLedger) : List (Host × Call) → List (Option Position)
  | [] => []
  | (host, call) :: rest =>
    positionIn sid (perform engine sid host call w).2 ::
      trail (perform engine sid host call w).2 rest

/-- A world between two calls of a started session, behind the positions of `trail`. -/
structure OnCourse (trail : List (Option Position)) (w : World SessionLedger) : Prop where
  live : ∃ s, w.sessions sid = some s
  synced : Synced engine sid w
  reliable : w.ledger.Reliable
  onward : Onward engine trail w.ledger.events (positionIn sid w)
  order : InPipelineOrder engine trail
  ended : completed w.ledger.events = (positionIn sid w).isNone

variable {engine sid} {host : Host} {call : Call} {w : World SessionLedger}

theorem positionIn_of_timeless {s : SessionState}
    (h : (w.sessions sid).map SessionState.timeless = some s) : positionIn sid w = s.position := by
  obtain ⟨s', hs', rfl⟩ := Option.map_eq_some_iff.mp h
  rw [positionIn, hs', Option.bind_some]
  rfl

/-- **A call is a hop.** -/
theorem OnCourse.hop (host : Host) {behind : List (Option Position)} (wf : engine.profile.WellFormed ed)
    (h : OnCourse engine sid behind w) (hcall : ∀ ctx, call ≠ .start ctx) :
    ∃ added, Hop engine call (positionIn sid w)
        (positionIn sid (perform engine sid host call w).2) added ∧
      acceptedSteps (perform engine sid host call w).2.ledger.events =
        acceptedSteps w.ledger.events ++ added ∧
      completed (perform engine sid host call w).2.ledger.events =
        (positionIn sid (perform engine sid host call w).2).isNone ∧
      ∃ s, (perform engine sid host call w).2.sessions sid = some s := by
  obtain ⟨s, hs⟩ := h.live
  -- a synced session is what its ledger folds to, so the call begins ready
  obtain ⟨fold, hfold, -, hmem⟩ := h.synced
  rw [hs, Option.map_some] at hmem
  subst hmem
  have hpos : positionIn sid w = s.timeless.position := positionIn_of_timeless (by rw [hs]; rfl)
  have hready : Progress engine call s.timeless w.ledger.events (snap sid w .ready) :=
    ⟨s.timeless, by rw [snap, hs]; rfl, h.ended.trans (by rw [hpos]), rfl, rfl⟩
  obtain ⟨stage, course, stops⟩ := @perform_course engine host sid call w
  obtain ⟨s', hlive, hdone, hstage⟩ :=
    Runs.invariant (fun hstep hc => hc.step wf hfold hcall hstep) course hready
  have hpos' := positionIn_of_timeless hlive
  have hs' : ∃ s, (perform engine sid host call w).2.sessions sid = some s :=
    (Option.map_eq_some_iff.mp hlive).imp fun _ => And.left
  rw [hpos, hpos']
  -- a call that stops early has moved nothing
  have stays : ∀ {es}, s'.position = s.timeless.position →
      acceptedSteps es = acceptedSteps w.ledger.events →
      ∃ added, Hop engine call s.timeless.position s'.position added ∧
        acceptedSteps es = acceptedSteps w.ledger.events ++ added := by
    intro es hsame haccepted
    exact ⟨[], hsame ▸ .stay, by rw [haccepted, List.append_nil]⟩
  suffices ∃ added, Hop engine call s.timeless.position s'.position added ∧
      acceptedSteps (perform engine sid host call w).2.ledger.events =
        acceptedSteps w.ledger.events ++ added by
    obtain ⟨added, hop, haccepted⟩ := this
    exact ⟨added, hop, haccepted, hdone, hs'⟩
  cases stops with
  | ready => exact stays (congrArg _ hstage.1) (congrArg _ hstage.2)
  | settled | landed => exact hstage
  | refused | struck | bumped | spent => exact stays hstage.1 hstage.2
  | passed hcall why =>
    -- a passed checklist is always moved on from
    rcases why with ⟨n, hrefused⟩ | ⟨i, e, hnone, hi⟩
    · exact absurd hrefused h.reliable.not_refuses
    · obtain ⟨k, hk, -⟩ := firstEnabledIndex_spec (wf.stateAt hi)
      cases hnone.symm.trans hk
  | unborn heq | stillborn heq => exact absurd heq (hcall _)

/-- **And keeps the session on its course.** -/
theorem OnCourse.after {behind : List (Option Position)} (wf : engine.profile.WellFormed ed)
    (h : OnCourse engine sid behind w) (hcall : ∀ ctx, call ≠ .start ctx) :
    OnCourse engine sid (behind ++ [positionIn sid (perform engine sid host call w).2])
      (perform engine sid host call w).2 := by
  obtain ⟨added, hop, haccepted, hended, hlive⟩ := h.hop host wf hcall
  obtain ⟨honward, horder⟩ := h.onward.hop wf h.order hop haccepted
  exact ⟨hlive, h.synced.after_reliable wf h.reliable fun ctx heq => absurd heq (hcall ctx),
    perform_reliable h.reliable, honward, horder, hended⟩

theorem OnCourse.run {behind : List (Option Position)} (wf : engine.profile.WellFormed ed)
    {calls : List (Host × Call)} (h : OnCourse engine sid behind w)
    (hcalls : ∀ x ∈ calls, ∀ ctx, x.2 ≠ .start ctx) :
    OnCourse engine sid (behind ++ trail engine sid w calls) (runCalls engine sid w calls) := by
  induction calls generalizing behind w with
  | nil =>
    rw [trail, List.append_nil]
    exact h
  | cons x rest ih =>
    rw [trail, List.append_cons]
    exact ih (h.after wf (hcalls x (List.mem_cons_self ..)))
      fun y hy => hcalls y (List.mem_cons_of_mem _ hy)

/-- A landing that succeeds moves nothing and accepts nothing. -/
theorem Landing.still {i j : Nat} {initialContext : Option Json} {s : SessionState}
    {r : Position × RenderedInjection} {w' : World SessionLedger}
    (land : Landing engine host sid i j initialContext w s (.ok r, w'))
    (hs : w.sessions sid = some s) :
    (∃ s', w'.sessions sid = some s' ∧ s'.position = s.position) ∧
      acceptedSteps w'.ledger.events = acceptedSteps w.ledger.events ∧
      completed w'.ledger.events = completed w.ledger.events := by
  cases land with
  | arrived => exact ⟨⟨s, hs, rfl⟩, rfl, rfl⟩
  | challenged =>
    exact ⟨⟨_, World.setSession_sessions_self _ _ _, rfl⟩, acceptedSteps_other rfl,
      completed_other rfl⟩

/-- A start that answers sets the session on its course. -/
theorem OnCourse.started (wf : engine.profile.WellFormed ed) {initialContext : Option Json}
    {r : Reply} (hfresh : w.Fresh sid) (hledger : w.ledger.Reliable)
    (hstart : (perform engine sid host (.start initialContext) w).1 = .ok r) :
    OnCourse engine sid [positionIn sid (perform engine sid host (.start initialContext) w).2]
      (perform engine sid host (.start initialContext) w).2 := by
  have hsync : Synced engine sid (perform engine sid host (.start initialContext) w).2 :=
    (synced_of_fresh hfresh).after_reliable wf hledger fun _ _ => ⟨r, hstart⟩
  have hrel : (perform engine sid host (.start initialContext) w).2.ledger.Reliable :=
    perform_reliable hledger
  have starting := @exec_startSession engine host sid initialContext w
  unfold perform at hstart hsync hrel ⊢
  dsimp only at hstart hsync hrel ⊢
  generalize Effect.exec (startSession engine host sid initialContext) w = out at *
  cases starting with
  | invalid | unentered | refused | stuck => cases hstart
  | @started m k p injected view w' valid entry taken land =>
    obtain ⟨⟨s, hs, hpos⟩, haccepted, hdone⟩ :=
      land.still (World.setSession_sessions_self _ _ _)
    -- a fresh ledger has accepted nothing and completed nothing
    have hnone : acceptedSteps w'.ledger.events = [] := by
      rw [haccepted, startedAt, World.logged_events, acceptedSteps_other rfl]
      show acceptedSteps w.ledger.events = []
      rw [hfresh.1]
      rfl
    have hopen : completed w'.ledger.events = false := by
      rw [hdone, startedAt, World.logged_events, completed_other rfl]
      show completed w.ledger.events = false
      rw [hfresh.1]
      rfl
    have hhere : positionIn sid w' = some (engine.profile.place 0 k) := by
      rw [positionIn, hs, Option.bind_some, hpos, ← entryPoint_place entry]
      rfl
    obtain ⟨rfl, hk, hlen⟩ := entryPoint_ok entry
    have hfirst := wf.firstEnabled hlen hk
    -- in front of the first enabled sub-state there is none
    have covered : ∀ i' j', engine.profile.EnabledAt i' j' → i' < 0 ∨ i' = 0 ∧ j' ≤ k →
        some (engine.profile.place i' j') ∈ ([] : List (Option Position)) ∨ i' = 0 ∧ j' = k := by
      rintro i' j' henabled (hlt | ⟨rfl, hle⟩)
      · exact absurd hlt (Nat.not_lt_zero _)
      · exact Or.inr ⟨rfl, eq_of_firstEnabled hfirst henabled hle⟩
    obtain ⟨honward, horder⟩ := Onward.arrive wf ⟨hlen, hfirst.here⟩ covered nofun hnone .nil
    exact ⟨⟨s, hs⟩, hsync, hrel, hhere ▸ honward, hhere ▸ horder, by rw [hopen, hhere]; rfl⟩

section

variable {vendor : Vendor} {library : Library} {p : Profile} {config : FsmConfig}
  {calls : List (Host × Call)} {initialContext : Option Json} {r : Reply}

/-- **Forced order.** In a run of one started session, with a ledger that takes every
append, the position always names an enabled sub-state of an enabled macro until the
session completes, each further call is a hop, and a completed session has been at every
enabled sub-state, macros in pipeline order, each macro's checklist accepted once. -/
theorem forced_order {sid : String}
    (hvalid : validateProfile vendor.toSchemas library p = .ok ()) (hfresh : w.Fresh sid)
    (hledger : w.ledger.Reliable)
    (hstart : (perform (new vendor p config) sid host (.start initialContext) w).1 = .ok r)
    (hcalls : ∀ x ∈ calls, ∀ ctx, x.2 ≠ .start ctx) :
    let engine := new vendor p config
    let run := (host, .start initialContext) :: calls
    let reached := runCalls engine sid w run
    (∀ pos, positionIn sid reached = some pos → ∃ m ∈ p.pipeline, m.enabled = true ∧
      ∃ sub ∈ m.subStates, sub.enabled = true ∧ pos = ⟨m.stateId, sub.id⟩) ∧
    (positionIn sid reached = none ↔ completed reached.ledger.events = true) ∧
    (∀ host call, (∀ ctx, call ≠ .start ctx) → ∃ added, Hop engine call (positionIn sid reached)
      (positionIn sid (perform engine sid host call reached).2) added) ∧
    (completed reached.ledger.events = true →
      (∀ m ∈ p.pipeline, m.enabled = true → ∀ sub ∈ m.subStates, sub.enabled = true →
        some ⟨m.stateId, sub.id⟩ ∈ trail engine sid w run) ∧
      InPipelineOrder engine (trail engine sid w run) ∧
      acceptedSteps reached.ledger.events =
        checklistSteps engine engine.profile.pipeline.length) := by
  intro engine run reached
  have wf : engine.profile.WellFormed vendor.ed := new_wellFormed hvalid
  have hcourse : OnCourse engine sid (trail engine sid w run) reached :=
    (OnCourse.started wf hfresh hledger hstart).run wf hcalls
  obtain ⟨-, -, -, honward, horder, hended⟩ := id hcourse
  refine ⟨?_, ?_, fun host call hcall => ?_, fun hdone => ?_⟩
  -- a position names an enabled sub-state
  · intro pos hpos
    rw [hpos] at honward
    generalize hp : some pos = q at honward
    cases honward with
    | underway here =>
      obtain ⟨m, hm, henabled, sub, hsub, hsubEnabled, hplace⟩ := here.mem
      exact ⟨m, hm, henabled, sub, hsub, hsubEnabled, (Option.some.inj hp).trans hplace⟩
    | finished => cases hp
  · rw [hended, Option.isNone_iff_eq_none]
  -- a further call is a hop
  · obtain ⟨added, hop, -⟩ := hcourse.hop host wf hcall
    exact ⟨added, hop⟩
  -- at the end every place is on the trail
  · rw [hended, Option.isNone_iff_eq_none] at hdone
    rw [hdone] at honward
    cases honward with
    | finished covered accepted =>
      refine ⟨fun m hm henabled sub hsub hsubEnabled => ?_, horder, accepted⟩
      obtain ⟨i, j, hat, hplace⟩ := Profile.enabledAt_of_mem hm henabled hsub hsubEnabled
      exact hplace ▸ covered i j hat

/-- Drafted, rejected once, and accepted. -/
theorem forced_order_completed :
    let engine := Sample.engine [Sample.draft, Sample.checklist]
    let run := [(Sample.host, .start none), Sample.submit "draft" .empty,
      Sample.submit "check" .empty, Sample.submit "check" Sample.done]
    let reached := runCalls engine "s1" (Sample.world fun _ => .ok ()) run
    completed reached.ledger.events = true ∧
    (∀ m ∈ (Sample.profile [Sample.draft, Sample.checklist]).pipeline, m.enabled = true →
      ∀ sub ∈ m.subStates, sub.enabled = true →
        some ⟨m.stateId, sub.id⟩ ∈ trail engine "s1" (Sample.world fun _ => .ok ()) run) ∧
    InPipelineOrder engine (trail engine "s1" (Sample.world fun _ => .ok ()) run) ∧
    acceptedSteps reached.ledger.events =
      checklistSteps engine engine.profile.pipeline.length := by
  unfold Sample.engine
  dsimp only
  obtain ⟨r, hstart⟩ : ∃ r, (perform (.new Sample.vendor
      (Sample.profile [Sample.draft, Sample.checklist]) Sample.config) "s1" Sample.host
      (.start none) (Sample.world fun _ => .ok ())).1 = .ok r := ⟨_, rfl⟩
  have hcalls : ∀ x ∈ [Sample.submit "draft" .empty, Sample.submit "check" .empty,
      Sample.submit "check" Sample.done], ∀ ctx, x.2 ≠ .start ctx := by
    simp [Sample.submit]
  obtain ⟨-, -, -, hwhole⟩ :=
    forced_order Sample.drafted_valid (Sample.world_fresh _ _) (fun _ => rfl) hstart hcalls
  refine (and_iff_left_of_imp hwhole).mpr ?_
  decide +kernel

end

end ProfileFsmEngine

end ProtocolEnforcer
