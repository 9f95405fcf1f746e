import ProtocolEnforcer.Core.Keyed
import ProtocolEnforcer.Fsm.Course

/-!
# Positions and indices

The engine keeps a position as two ids and looks the indices up on every
submission. In a well-formed profile ids and indices are the same thing.
-/

namespace ProtocolEnforcer

/-- The indices name a sub-state of the profile. -/
structure Profile.InRange (p : Profile) (i j : Nat) : Prop where
  macroIdx : i < p.pipeline.length
  subIdx : j < (p.stateAt i).subStates.length

namespace Profile

variable {p : Profile} {ed : Ed25519} {i j : Nat}

theorem getElem_stateAt (h : i < p.pipeline.length) : p.pipeline[i] = p.stateAt i :=
  (getElem!_pos p.pipeline i h).symm

theorem stateAt_mem (h : i < p.pipeline.length) : p.stateAt i ∈ p.pipeline := by
  rw [← getElem_stateAt h]
  exact List.getElem_mem h

theorem WellFormed.stateAt (wf : p.WellFormed ed) (h : i < p.pipeline.length) :
    (p.stateAt i).WellFormed ed :=
  wf.macros (stateAt_mem h)

/-- Past its end a profile holds nothing but `inject` sub-states. -/
theorem inRange_of_typeAt (h : p.typeAt i j ≠ .inject) : p.InRange i j := by
  have hj : j < (p.stateAt i).subStates.length := by
    by_contra hj
    refine h ?_
    rw [typeAt, StateDef.subAt, getElem!_neg (p.stateAt i).subStates j hj]
    rfl
  refine ⟨?_, hj⟩
  by_contra hi
  rw [stateAt, getElem!_neg p.pipeline i hi] at hj
  exact Nat.not_lt_zero j hj

end Profile

theorem StateDef.getElem?_subAt {m : StateDef} {j : Nat} (h : j < m.subStates.length) :
    m.subStates[j]? = some (m.subAt j) := by
  rw [List.getElem?_eq_getElem h, StateDef.subAt, getElem!_pos _ j h]

theorem StateDef.subAt_eq {m : StateDef} {j : Nat} {sub : SubStateDef}
    (h : m.subStates[j]? = some sub) : m.subAt j = sub := by
  obtain ⟨hj, hsub⟩ := List.getElem?_eq_some_iff.mp h
  rw [StateDef.subAt, getElem!_pos _ j hj, hsub]

namespace Profile

variable {p : Profile} {ed : Ed25519} {i j k : Nat}

theorem typeAt_eq {sub : SubStateDef} (h : (p.stateAt i).subStates[j]? = some sub) :
    p.typeAt i j = sub.subStateType := by
  rw [typeAt, StateDef.subAt_eq h]

/-- The checklist is the last sub-state of its macro. -/
theorem WellFormed.checklist_iff (wf : p.WellFormed ed) (h : p.InRange i j) :
    p.typeAt i j = .checklist ↔ j + 1 = (p.stateAt i).subStates.length :=
  (wf.stateAt h.macroIdx).checklist (StateDef.getElem?_subAt h.subIdx)

/-- Behind any other sub-state there is a next enabled one. -/
theorem WellFormed.nextEnabled (wf : p.WellFormed ed) (h : p.InRange i j)
    (hty : p.typeAt i j ≠ .checklist) :
    NextEnabled (p.stateAt i) j (nextEnabledIndex (p.stateAt i) j) := by
  refine nextEnabledIndex_spec (wf.stateAt h.macroIdx) ?_
  have hne := mt (wf.checklist_iff h).mpr hty
  have hlt := h.subIdx
  omega

theorem InRange.of_enabled (hi : i < p.pipeline.length)
    (h : ∃ sub, (p.stateAt i).subStates[k]? = some sub ∧ sub.enabled = true) : p.InRange i k := by
  obtain ⟨sub, hsub, -⟩ := h
  exact ⟨hi, (List.getElem?_eq_some_iff.mp hsub).1⟩

/-- The target of a loop-back is a sub-state of the macro. -/
theorem InRange.of_loopTarget (hi : i < p.pipeline.length)
    (hk : (p.stateAt i).firstEnabledExecuteIndex = some k) : p.InRange i k := by
  obtain ⟨⟨sub, hsub, henabled, -⟩, -⟩ := firstEnabledExecuteIndex_spec hk
  exact .of_enabled hi ⟨sub, hsub, henabled⟩

/-- The first enabled sub-state of a macro of the pipeline. -/
theorem WellFormed.firstEnabled (wf : p.WellFormed ed) (hi : i < p.pipeline.length)
    (hk : firstEnabledIndex (p.stateAt i) = .ok k) : FirstEnabled (p.stateAt i) k := by
  obtain ⟨k', hk', hfirst⟩ := firstEnabledIndex_spec (wf.stateAt hi)
  rw [hk] at hk'
  cases hk'
  exact hfirst

end Profile

namespace ProfileFsmEngine

variable {engine : ProfileFsmEngine} {ed : Ed25519} {i j i' j' : Nat}

/-- A well-formed profile has an entry point. -/
theorem entryPoint_of_wellFormed (wf : engine.profile.WellFormed ed) :
    ∃ m k, entryPoint engine = .ok (m, k) := by
  unfold entryPoint
  cases hp : engine.profile.pipeline with
  | nil => exact absurd hp wf.nonempty
  | cons m rest =>
    have hm : m ∈ engine.profile.pipeline := hp ▸ List.mem_cons_self
    obtain ⟨k, hk, -⟩ := firstEnabledIndex_spec (wf.macros hm)
    exact ⟨m, k, by simp [hk, Except.map]⟩

/-- Looking a place up gives its indices back. -/
theorem locate_place (wf : engine.profile.WellFormed ed) (h : engine.profile.InRange i j) :
    locate engine (engine.profile.place i j) = .ok (i, j) := by
  have hi : engine.profile.pipeline.findIdx?
      (·.stateId = (engine.profile.place i j).macroId) = some i := by
    rw [Profile.place, ← Profile.getElem_stateAt h.macroIdx]
    exact findIdx?_of_nodup wf.macroIds h.macroIdx
  have hj : (engine.profile.stateAt i).subStates.findIdx?
      (·.id = (engine.profile.place i j).subStateId) = some j := by
    rw [Profile.place, StateDef.subAt, getElem!_pos _ j h.subIdx]
    exact findIdx?_of_nodup (wf.stateAt h.macroIdx).subIds h.subIdx
  rw [locate, hi]
  dsimp only
  rw [hj]

/-- What a place is looked up as are its indices. -/
theorem indices_of_locate (wf : engine.profile.WellFormed ed) (h : engine.profile.InRange i j)
    (hlocate : locate engine (engine.profile.place i j) = .ok (i', j')) : i = i' ∧ j = j' := by
  rw [locate_place wf h] at hlocate
  cases hlocate
  exact ⟨rfl, rfl⟩

/-- Two sub-states at one place are the same sub-state. -/
theorem place_inj (wf : engine.profile.WellFormed ed) (h : engine.profile.InRange i j)
    (h' : engine.profile.InRange i' j')
    (heq : engine.profile.place i j = engine.profile.place i' j') : i = i' ∧ j = j' := by
  have hloc := locate_place wf h'
  rw [← heq, locate_place wf h] at hloc
  exact ⟨congrArg Prod.fst (Except.ok.inj hloc), congrArg Prod.snd (Except.ok.inj hloc)⟩

/-- What stands at two places has them in common, -/
theorem place_unique {at' : Option Position} (wf : engine.profile.WellFormed ed)
    (h : engine.profile.InRange i j) (h' : engine.profile.InRange i' j')
    (here : at' = some (engine.profile.place i j))
    (here' : at' = some (engine.profile.place i' j')) : i = i' ∧ j = j' :=
  place_inj wf h h' (Option.some.inj (here.symm.trans here'))

/-- and its place is where it is located. -/
theorem located_unique {at' : Option Position} {pos : Position}
    (wf : engine.profile.WellFormed ed) (here : at' = some pos)
    (located : locate engine pos = .ok (i, j)) (h : engine.profile.InRange i' j')
    (here' : at' = some (engine.profile.place i' j')) : i = i' ∧ j = j' := by
  obtain ⟨hi, hj, rfl⟩ := locate_ok located
  exact place_unique wf ⟨hi, hj⟩ h here here'

/-- Distinct macros have distinct ids. -/
theorem stateId_inj (wf : engine.profile.WellFormed ed) (h : i < engine.profile.pipeline.length)
    (h' : i' < engine.profile.pipeline.length)
    (heq : (engine.profile.stateAt i).stateId = (engine.profile.stateAt i').stateId) : i = i' := by
  have hidx := findIdx?_of_nodup wf.macroIds h
  have hidx' := findIdx?_of_nodup wf.macroIds h'
  rw [Profile.getElem_stateAt] at hidx hidx'
  rw [heq, hidx'] at hidx
  exact (Option.some.inj hidx).symm

/-- Places of one step id and one sub-state id are one place. -/
theorem place_eq_of_stepId {pos pos' : Position} (h : pos.stepId = pos'.stepId)
    (hsub : pos.subStateId = pos'.subStateId) : pos = pos' := by
  obtain ⟨m, s⟩ := pos
  obtain ⟨m', s'⟩ := pos'
  cases hsub
  have hm := congrArg String.toList h
  simp only [Position.stepId, String.toList_append, List.append_assoc] at hm
  rw [String.toList_inj.mp (List.append_cancel_right hm)]

/-- An advance within a macro leaves its place. -/
theorem place_next_ne (wf : engine.profile.WellFormed ed) (h : engine.profile.InRange i j)
    (hty : engine.profile.typeAt i j ≠ .checklist) :
    engine.profile.place i (nextEnabledIndex (engine.profile.stateAt i) j) ≠
      engine.profile.place i j := by
  have hnext := wf.nextEnabled h hty
  intro heq
  have := (place_inj wf (.of_enabled h.macroIdx hnext.here) h heq).2
  have := hnext.lt
  omega

/-- So does an advance to the next macro. -/
theorem place_macro_ne (wf : engine.profile.WellFormed ed) (h : engine.profile.InRange i j)
    (hi : i + 1 < engine.profile.pipeline.length)
    (hk : firstEnabledIndex (engine.profile.stateAt (i + 1)) = .ok j') :
    engine.profile.place (i + 1) j' ≠ engine.profile.place i j := by
  intro heq
  have := (place_inj wf (.of_enabled hi (wf.firstEnabled hi hk).here) h heq).1
  omega

theorem inRange_of_locate {pos : Position} (h : locate engine pos = .ok (i, j)) :
    engine.profile.InRange i j :=
  ⟨(locate_ok h).1, (locate_ok h).2.1⟩

/-- The macro a `MacroAdvanced` names is the one at its index. -/
theorem find?_stateAt (wf : engine.profile.WellFormed ed) (h : i < engine.profile.pipeline.length) :
    engine.profile.pipeline.find? (·.stateId = (engine.profile.stateAt i).stateId) =
      some (engine.profile.stateAt i) := by
  rw [← Profile.getElem_stateAt h]
  exact find?_of_nodup wf.macroIds (List.getElem_mem h)

end ProfileFsmEngine

end ProtocolEnforcer
