import Mathlib.Data.List.Basic
import Mathlib.Data.List.Nodup
import ProtocolEnforcer.Manifest.Validator

/-!
# What a validated profile is

`validate_profile` returns texts; the engine relies on structure. This module
turns "no violations" into that structure: `StateDef.WellFormed` is what every
macro of a validated profile satisfies, and `Profile.WellFormed` what its
normalization (disabled macros removed) satisfies, which is the profile the
engine steps through.
-/

namespace ProtocolEnforcer

/-- A macro with distinct sub-state ids, one enabled checklist with criteria at
its end, and an approver key on each gate. -/
structure StateDef.WellFormed (ed : Ed25519) (m : StateDef) : Prop where
  nonempty : m.subStates ≠ []
  subIds : (m.subStates.map (·.id)).Nodup
  /-- The checklist is the last sub-state and no other one. -/
  checklist : ∀ {j sub}, m.subStates[j]? = some sub →
    (sub.subStateType = .checklist ↔ j + 1 = m.subStates.length)
  lastEnabled : ∀ {sub}, m.subStates.getLast? = some sub → sub.enabled = true
  criteria : ∀ {sub}, sub ∈ m.subStates → sub.subStateType = .checklist →
    ∃ c cs, sub.criteria = some (c :: cs)
  approver : ∀ {sub}, sub ∈ m.subStates → sub.subStateType = .humanApproval →
    ∃ key, sub.approverPubkey = some key ∧ isValidApproverPubkey ed key = true

/-- A pipeline of enabled well-formed macros with distinct ids, in which a
looping macro has a loop-back target and is not the last one. -/
structure Profile.WellFormed (ed : Ed25519) (p : Profile) : Prop where
  nonempty : p.pipeline ≠ []
  macroIds : (p.pipeline.map (·.stateId)).Nodup
  macros : ∀ {m}, m ∈ p.pipeline → m.WellFormed ed
  enabled : ∀ {m}, m ∈ p.pipeline → m.enabled = true
  loopTarget : ∀ {m}, m ∈ p.pipeline → m.loopState = true →
    ∃ k, m.firstEnabledExecuteIndex = some k
  loopNotLast : ∀ {m}, p.pipeline.getLast? = some m → m.loopState = false

/-! ## From texts to structure -/

@[simp] theorem violationIf_eq_nil {c : Bool} {text : String} :
    violationIf c text = [] ↔ c = false := by
  cases c <;> simp [violationIf]

theorem duplicates_eq_nil :
    ∀ {seen ids : List String}, duplicates seen ids = [] →
      ids.Nodup ∧ ∀ id ∈ ids, id ∉ seen
  | _, [], _ => ⟨List.nodup_nil, by simp⟩
  | seen, id :: ids, h => by
    rw [duplicates] at h
    split at h
    · cases h
    · rename_i hid
      obtain ⟨hnodup, hseen⟩ := duplicates_eq_nil h
      refine ⟨List.nodup_cons.mpr ⟨fun hmem => hseen id hmem (by simp), hnodup⟩, ?_⟩
      intro x hx
      rcases List.mem_cons.mp hx with rfl | hx
      · exact hid
      · exact fun hmem => hseen x hx (List.mem_cons_of_mem _ hmem)

theorem duplicates_of_nodup {ids : List String} (hnodup : ids.Nodup) :
    ∀ {seen : List String}, (∀ id ∈ ids, id ∉ seen) → duplicates seen ids = [] := by
  induction ids with
  | nil => exact fun _ => rfl
  | cons id ids ih =>
    intro seen hseen
    obtain ⟨hid, hrest⟩ := List.nodup_cons.mp hnodup
    rw [duplicates, if_neg (hseen id List.mem_cons_self)]
    refine ih hrest fun x hx hmem => ?_
    rcases List.mem_cons.mp hmem with rfl | hmem
    · exact hid hx
    · exact hseen x (List.mem_cons_of_mem _ hx) hmem

theorem duplicates_eq_nil_iff {ids : List String} : duplicates [] ids = [] ↔ ids.Nodup :=
  ⟨fun h => (duplicates_eq_nil h).1, fun h => duplicates_of_nodup h fun _ _ => List.not_mem_nil⟩

section

variable {schemas : Schemas} {lib : Library} {m : StateDef}

/-- A list of sub-states with one checklist, at its end and enabled. -/
def EndsInChecklist (subStates : List SubStateDef) : Prop :=
  ∃ subs last, subStates = subs ++ [last] ∧ (∀ sub ∈ subs, sub.subStateType ≠ .checklist) ∧
    last.subStateType = .checklist ∧ last.enabled = true

theorem checklistIndices_concat {subs : List SubStateDef} {last : SubStateDef}
    (h : m.subStates = subs ++ [last]) : checklistIndices m =
      subs.findIdxs (·.subStateType == .checklist) ++
        if last.subStateType == .checklist then [subs.length] else [] := by
  rw [checklistIndices, h, List.findIdxs_append, List.findIdxs_singleton, Nat.zero_add]

/-- No violation about the checklist: there is one, the last sub-state, and it is enabled. -/
theorem checkSingleTrailingChecklist_eq_nil :
    checkSingleTrailingChecklist m = [] ↔ EndsInChecklist m.subStates := by
  unfold checkSingleTrailingChecklist
  constructor
  · intro h
    split at h
    · rename_i idx hidx
      rw [List.append_eq_nil_iff, violationIf_eq_nil, violationIf_eq_nil] at h
      obtain ⟨hlast, henabled⟩ := h
      rcases List.eq_nil_or_concat' m.subStates with hnil | ⟨subs, last, hsubs⟩
      · rw [checklistIndices, hnil] at hidx
        cases hidx
      have hidx' : idx = subs.length := by simpa [hsubs] using hlast
      subst hidx'
      have hinit : subs.length ∉ subs.findIdxs (·.subStateType == .checklist) := fun hmem =>
        Nat.lt_irrefl _ (List.lt_add_of_mem_findIdxs _ hmem)
      rw [checklistIndices_concat hsubs] at hidx
      split at hidx
      · rename_i htype
        have hnone := List.append_cancel_right (hidx.trans (List.nil_append _).symm)
        rw [List.findIdxs_eq_nil_iff] at hnone
        refine ⟨subs, last, hsubs, fun sub hsub heq => ?_, eq_of_beq htype, ?_⟩
        · simpa [heq] using hnone sub hsub
        · simpa [hsubs] using henabled
      · rw [List.append_nil] at hidx
        exact absurd (hidx ▸ List.mem_singleton_self _) hinit
    · cases h
    · cases h
  · rintro ⟨subs, last, hsubs, hothers, htype, henabled⟩
    have hnone : subs.findIdxs (·.subStateType == .checklist) = [] :=
      List.findIdxs_eq_nil_iff.mpr fun sub hsub => beq_eq_false_iff_ne.mpr (hothers sub hsub)
    rw [checklistIndices_concat hsubs, hnone, htype]
    simp [hsubs, henabled]

theorem checkCriteria_eq_nil {sub : SubStateDef} (h : checkCriteria m sub = [])
    (hty : sub.subStateType = .checklist) : ∃ c cs, sub.criteria = some (c :: cs) := by
  unfold checkCriteria at h
  rw [hty] at h
  cases hc : sub.criteria with
  | none => simp [hc] at h
  | some cs =>
    cases cs with
    | nil => simp [hc] at h
    | cons c cs => exact ⟨c, cs, rfl⟩

theorem checkApproval_eq_nil {sub : SubStateDef} (h : checkApproval schemas m sub = [])
    (hty : sub.subStateType = .humanApproval) :
    ∃ key, sub.approverPubkey = some key ∧ isValidApproverPubkey schemas.ed key = true := by
  unfold checkApproval at h
  rw [hty] at h
  cases hk : sub.approverPubkey with
  | none => simp [hk] at h
  | some key => exact ⟨key, rfl, by simpa [hk] using h⟩

/-- What the rules ask of a macro. -/
structure StateDef.Passes (schemas : Schemas) (lib : Library) (m : StateDef) : Prop where
  noColon : Text.hasChar m.stateId ':' = false
  subIds : (m.subStates.map (·.id)).Nodup
  checklist : EndsInChecklist m.subStates
  subs : ∀ sub ∈ m.subStates, validateSub schemas lib m sub = []

theorem validateMacro_eq_nil : validateMacro schemas lib m = [] ↔ m.Passes schemas lib := by
  rw [validateMacro, List.append_eq_nil_iff, violationIf_eq_nil]
  constructor
  · rintro ⟨hcolon, h⟩
    split at h
    · cases h
    simp only [List.append_eq_nil_iff, checkDuplicateSubIds, List.map_eq_nil_iff,
      duplicates_eq_nil_iff, checkSingleTrailingChecklist_eq_nil, List.flatMap_eq_nil_iff] at h
    exact ⟨hcolon, h.1.1, h.1.2, h.2⟩
  · rintro ⟨hcolon, hids, hchecklist, hsubs⟩
    refine ⟨hcolon, ?_⟩
    rw [if_neg]
    · simp only [List.append_eq_nil_iff, checkDuplicateSubIds, List.map_eq_nil_iff,
        duplicates_eq_nil_iff, checkSingleTrailingChecklist_eq_nil, List.flatMap_eq_nil_iff]
      exact ⟨⟨hids, hchecklist⟩, hsubs⟩
    · obtain ⟨subs, last, hsubs, -⟩ := hchecklist
      simp [hsubs]

/-- A macro without violations is well formed. -/
theorem validateMacro_wellFormed (h : validateMacro schemas lib m = []) :
    m.WellFormed schemas.ed := by
  obtain ⟨-, hids, ⟨subs, last, hsplit, hothers, htype, henabled⟩, hsubs⟩ :=
    validateMacro_eq_nil.mp h
  have hsub : ∀ sub ∈ m.subStates, checkCriteria m sub = [] ∧ checkApproval schemas m sub = [] := by
    intro sub hmem
    have hnone := hsubs sub hmem
    simp only [validateSub, List.append_eq_nil_iff] at hnone
    exact ⟨hnone.1.1.1.2, hnone.2⟩
  refine ⟨?_, hids, fun {j sub} hj => ?_, fun {sub} hlast => ?_,
    fun hmem => checkCriteria_eq_nil (hsub _ hmem).1,
    fun hmem => checkApproval_eq_nil (hsub _ hmem).2⟩
  · rw [hsplit]
    exact List.concat_ne_nil _ _
  · rw [hsplit, List.getElem?_append] at hj
    rw [hsplit, List.length_append, List.length_singleton]
    split at hj
    · have hlt : j < subs.length := ‹_›
      exact iff_of_false (hothers sub (List.mem_of_getElem? hj)) (by omega)
    · obtain ⟨hlt, rfl⟩ := List.getElem?_eq_some_iff.mp hj
      rw [List.length_singleton] at hlt
      exact iff_of_true (by simpa using htype) (by omega)
  · rw [hsplit, List.getLast?_concat] at hlast
    exact Option.some.inj hlast ▸ henabled

/-- The enabled macros have no violation about loops. -/
theorem checkLoopState_eq_nil {p : Profile} : checkLoopState p = [] ↔
    ∀ m ∈ p.pipeline, m.loopState = true → m.firstEnabledExecuteIndex.isSome = true ∧
      p.pipeline.getLast?.map (·.stateId) ≠ some m.stateId := by
  rw [checkLoopState, List.flatMap_eq_nil_iff]
  refine forall₂_congr fun m _ => ?_
  cases m.loopState <;> simp

/-- Filtering the enabled macros once more changes nothing. -/
theorem Profile.withEnabledMacrosOnly_idem (p : Profile) :
    p.withEnabledMacrosOnly.withEnabledMacrosOnly = p.withEnabledMacrosOnly := by
  unfold withEnabledMacrosOnly
  simp

theorem violations_eq_nil {p : Profile} :
    violations schemas lib p = [] ↔ validateProfile schemas lib p = .ok () := by
  unfold validateProfile
  split <;> rename_i h
  · exact iff_of_true h rfl
  · exact iff_of_false h nofun

/-- What the rules ask of a profile as a whole: of its macros, and of the enabled ones. -/
structure Profile.Passes (schemas : Schemas) (lib : Library) (p : Profile) : Prop where
  nonempty : p.pipeline ≠ []
  macroIds : (p.pipeline.map (·.stateId)).Nodup
  macros : ∀ m ∈ p.pipeline, validateMacro schemas lib m = []
  someEnabled : p.withEnabledMacrosOnly.pipeline ≠ []
  loops : checkLoopState p.withEnabledMacrosOnly = []
  contract : ∀ contract ∈ p.outputContract, checkOutputContract schemas contract = []

/-- A profile validates when it passes the rules. -/
theorem validateProfile_ok_iff {p : Profile} :
    validateProfile schemas lib p = .ok () ↔ p.Passes schemas lib := by
  rw [← violations_eq_nil]
  simp only [violations, checkDuplicateMacroIds, List.append_eq_nil_iff, violationIf_eq_nil,
    List.map_eq_nil_iff, duplicates_eq_nil_iff, List.flatMap_eq_nil_iff]
  constructor
  · rintro ⟨⟨⟨⟨⟨hne, hids⟩, hmacros⟩, hsome⟩, hloops⟩, hcontract⟩
    have hne : p.pipeline ≠ [] := List.isEmpty_eq_false_iff.mp hne
    refine ⟨hne, hids, hmacros, ?_, hloops, fun contract hmem => ?_⟩
    · simpa [hne] using hsome
    · rw [Option.mem_def.mp hmem] at hcontract
      exact hcontract
  · rintro ⟨hne, hids, hmacros, hsome, hloops, hcontract⟩
    refine ⟨⟨⟨⟨⟨List.isEmpty_eq_false_iff.mpr hne, hids⟩, hmacros⟩, ?_⟩, hloops⟩, ?_⟩
    · rw [List.isEmpty_eq_false_iff.mpr hsome]
      rfl
    · cases hc : p.outputContract with
      | none => rfl
      | some contract => exact hcontract contract hc

/-- **The normalization of a validated profile is well formed.** -/
theorem validateProfile_wellFormed {p : Profile} (h : validateProfile schemas lib p = .ok ()) :
    p.withEnabledMacrosOnly.WellFormed schemas.ed := by
  have passes := validateProfile_ok_iff.mp h
  have hsub : p.withEnabledMacrosOnly.pipeline.Sublist p.pipeline := List.filter_sublist
  refine ⟨passes.someEnabled, passes.macroIds.sublist (hsub.map _), ?_, ?_, ?_, ?_⟩
  · exact fun hm => validateMacro_wellFormed (passes.macros _ (hsub.subset hm))
  · exact fun hm => (List.mem_filter.mp hm).2
  · exact fun hm hl => Option.isSome_iff_exists.mp (checkLoopState_eq_nil.mp passes.loops _ hm hl).1
  · intro m hm
    cases hl : m.loopState with
    | false => rfl
    | true =>
      have := (checkLoopState_eq_nil.mp passes.loops _ (List.mem_of_getLast? hm) hl).2
      rw [hm] at this
      exact absurd rfl this

/-- **The normalization of a validated profile validates.** Ids stay distinct and macros stay
as they are; the rules about the loop and about the enabled macros are of the normalization
already. -/
theorem validateProfile_normalized {p : Profile} (h : validateProfile schemas lib p = .ok ()) :
    validateProfile schemas lib p.withEnabledMacrosOnly = .ok () := by
  have passes := validateProfile_ok_iff.mp h
  have hsub : p.withEnabledMacrosOnly.pipeline.Sublist p.pipeline := List.filter_sublist
  refine validateProfile_ok_iff.mpr ⟨passes.someEnabled, passes.macroIds.sublist (hsub.map _),
    fun m hm => passes.macros m (hsub.subset hm), ?_, ?_, passes.contract⟩
  · rw [Profile.withEnabledMacrosOnly_idem]
    exact passes.someEnabled
  · rw [Profile.withEnabledMacrosOnly_idem]
    exact passes.loops

end

end ProtocolEnforcer
