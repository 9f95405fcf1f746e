import Mathlib.Data.List.Basic
import ProtocolEnforcer.Manifest.HookValidator
import ProtocolEnforcer.Manifest.ValidProfile

/-!
# What valid hooks are

`validate_hooks` returns texts, too. What "no violations" says of a checklist with a verify
hook: each of its criteria is attested by one of its verify hooks, and what these attest is a
criterion or a candidate.
-/

namespace ProtocolEnforcer

section

variable {lib : HookLibrary} {href : HookRef} {h : HookDef} {hooks : List HookRef}
  {criteria candidates : List String} {loc : String}

/-- The reference has this definition, in line or in the library. -/
def HookRef.Defines (lib : HookLibrary) (href : HookRef) (h : HookDef) : Prop :=
  href.inline = some h ∨ ∃ id, href.id = some id ∧ lib.resolveHook id = .ok h

/-- The reference is to a hook that is bound to the `verify` event. -/
def HookRef.Verifies (lib : HookLibrary) (href : HookRef) (h : HookDef) : Prop :=
  href.Defines lib h ∧ .verify ∈ h.events

/-- `resolve_effective_def` selects this definition, bound to `verify`. -/
def HookRef.Attests (lib : HookLibrary) (href : HookRef) (h : HookDef) : Prop :=
  resolveEffectiveDef lib href = some h ∧ .verify ∈ h.events

/-- The hooks of a macro and of its sub-states pass every rule. -/
def StateYaml.HooksValid (lib : HookLibrary) (state : StateYaml) : Prop :=
  validateMacroHooks lib state = [] ∧ ∀ sub ∈ state.subStates, validateSubHooks lib state sub = []

/-! ## From texts to structure -/

theorem validateHooks_ok {p : ProfileYaml} :
    validateHooks lib p = .ok () ↔ ∀ state ∈ p.pipeline, state.HooksValid lib := by
  have hviolations : hookViolations lib p = [] ↔ ∀ state ∈ p.pipeline, state.HooksValid lib := by
    simp only [hookViolations, StateYaml.HooksValid, List.flatMap_eq_nil_iff,
      List.append_eq_nil_iff]
  rw [← hviolations, validateHooks]
  split <;> rename_i hv
  · exact iff_of_true rfl hv
  · exact iff_of_false nofun hv

theorem resolveEffectiveDef_defines (hdef : resolveEffectiveDef lib href = some h) :
    href.Defines lib h := by
  unfold resolveEffectiveDef at hdef
  split at hdef
  · rename_i id hid _
    cases hr : lib.resolveHook id with
    | error e =>
      rw [hr] at hdef
      cases hdef
    | ok h' =>
      rw [hr] at hdef
      cases hdef
      exact Or.inr ⟨id, hid, hr⟩
  · rename_i hinline
    cases hdef
    exact Or.inl hinline
  · cases hdef

/-- In a valid reference the two ways to find the definition agree. -/
theorem resolveEffectiveDef_eq {criteria? : Option (List String)}
    (hvalid : validateHookRef lib loc href criteria? candidates = [])
    (hdef : href.Defines lib h) : resolveEffectiveDef lib href = some h := by
  unfold validateHookRef at hvalid
  unfold resolveEffectiveDef
  split at hvalid
  · rename_i id hid hinline
    rcases hdef with hh | ⟨id', hid', hh⟩
    · exact nomatch hinline.symm.trans hh
    · obtain rfl := Option.some.inj (hid.symm.trans hid')
      rw [hid, hinline]
      exact congrArg Except.toOption hh
  · rename_i inline hid hinline
    rcases hdef with hh | ⟨id', hid', -⟩
    · rw [hid, hinline]
      exact hinline.symm.trans hh
    · exact nomatch hid.symm.trans hid'
  · cases hvalid
  · cases hvalid

theorem verifies_iff_attests {criteria? : Option (List String)}
    (hvalid : validateHookRef lib loc href criteria? candidates = []) :
    href.Verifies lib h ↔ href.Attests lib h :=
  and_congr_left fun _ => ⟨resolveEffectiveDef_eq hvalid, resolveEffectiveDef_defines⟩

/-- The hook names criteria exactly if it verifies, and each is one or a candidate. -/
theorem checkVerifyHook_eq_nil :
    checkVerifyHook loc (some criteria) candidates h = [] ↔
      (.verify ∈ h.events ↔ h.verifyCriteria ≠ []) ∧
        ∀ key ∈ h.verifyCriteria, key ∈ criteria ∨ key ∈ candidates := by
  unfold checkVerifyHook
  by_cases hverify : HookEvent.verify ∈ h.events
  · cases hc : h.verifyCriteria with
    | nil => simp [hverify]
    | cons key keys =>
      simp only [hverify, List.contains_eq_mem, decide_true, if_true, List.isEmpty_cons,
        Bool.false_eq_true, if_false, List.append_eq_nil_iff, violationIf_eq_nil,
        List.flatMap_eq_nil_iff, Option.isNone_some, true_and, ne_eq, reduceCtorEq,
        not_false_eq_true, Bool.and_eq_false_iff, Bool.not_eq_false', decide_eq_true_eq]
  · cases hc : h.verifyCriteria <;> simp [hverify]

/-- A valid reference has a definition that passes every rule. -/
theorem validateHookRef_eq_nil {criteria? : Option (List String)} :
    validateHookRef lib loc href criteria? candidates = [] ↔
      ∃ h, resolveEffectiveDef lib href = some h ∧
        (∀ id, href.id = some id → checkVersionPin loc id href.version h = []) ∧
        checkVerifyHook loc criteria? candidates h = [] ∧ checkHookKind loc h = [] ∧
        checkHookCommand loc h = [] := by
  obtain ⟨id?, version, args, inline?⟩ := href
  unfold validateHookRef resolveEffectiveDef
  cases id? with
  | none =>
    cases inline? with
    | none => simp
    | some inline => simp
  | some id =>
    cases inline? with
    | none =>
      cases hr : lib.resolveHook id with
      | error e => simp [hr, Except.toOption]
      | ok h => simp [hr, Except.toOption]
    | some inline => simp

/-- Under other criteria a valid reference stays valid where its targets do. -/
theorem validateHookRef_criteria {old : List String}
    (hvalid : validateHookRef lib loc href (some old) candidates = []) :
    validateHookRef lib loc href (some criteria) candidates = [] ↔
      ∀ h, href.Attests lib h → ∀ key ∈ h.verifyCriteria, key ∈ criteria ∨ key ∈ candidates := by
  obtain ⟨h, hdef, hpin, hverify, hkind, hcommand⟩ := validateHookRef_eq_nil.mp hvalid
  rw [checkVerifyHook_eq_nil] at hverify
  rw [validateHookRef_eq_nil]
  constructor
  · rintro ⟨h', hdef', -, hverify', -⟩ h'' ⟨hdef'', -⟩
    obtain rfl := Option.some.inj (hdef'.symm.trans hdef'')
    exact (checkVerifyHook_eq_nil.mp hverify').2
  · intro htargets
    refine ⟨h, hdef, hpin, checkVerifyHook_eq_nil.mpr ⟨hverify.1, fun key hkey => ?_⟩, hkind,
      hcommand⟩
    exact htargets h ⟨hdef, hverify.1.mpr (List.ne_nil_of_mem hkey)⟩ key hkey

/-- The definitions of the verify hooks. -/
theorem mem_verifyDefs :
    h ∈ (hooks.filterMap (resolveEffectiveDef lib)).filter (·.events.contains .verify) ↔
      ∃ href ∈ hooks, href.Attests lib h := by
  simp only [List.mem_filter, List.mem_filterMap, List.contains_eq_mem, decide_eq_true_eq,
    HookRef.Attests]
  constructor
  · rintro ⟨⟨href, hmem, hdef⟩, hverify⟩
    exact ⟨href, hmem, hdef, hverify⟩
  · rintro ⟨href, hmem, hdef, hverify⟩
    exact ⟨⟨href, hmem, hdef⟩, hverify⟩

/-- Some verify hook attests the criterion. -/
def Covered (lib : HookLibrary) (hooks : List HookRef) (c : String) : Prop :=
  ∃ href ∈ hooks, ∃ h, href.Attests lib h ∧ c ∈ h.verifyCriteria

theorem checkReverseCoverage_eq_nil :
    checkReverseCoverage lib loc criteria hooks = [] ↔
      ((∃ href ∈ hooks, ∃ h, href.Attests lib h) → ∀ c ∈ criteria, Covered lib hooks c) := by
  unfold checkReverseCoverage
  dsimp only
  split
  · rename_i hnone
    refine iff_of_true rfl ?_
    rintro ⟨href, hmem, h, hattests⟩
    have hdef := mem_verifyDefs.mpr ⟨href, hmem, hattests⟩
    rw [List.isEmpty_iff.mp hnone] at hdef
    cases hdef
  · rename_i hsome
    have hany : ∃ href ∈ hooks, ∃ h, href.Attests lib h := by
      obtain ⟨h, hdef⟩ := List.exists_mem_of_ne_nil _ (List.isEmpty_eq_false_iff.mp
        (Bool.eq_false_iff.mpr hsome))
      obtain ⟨href, hmem, hattests⟩ := mem_verifyDefs.mp hdef
      exact ⟨href, hmem, h, hattests⟩
    rw [List.flatMap_eq_nil_iff, imp_iff_right hany]
    refine forall₂_congr fun c _ => ?_
    rw [violationIf_eq_nil, Bool.not_eq_false', List.contains_iff_mem, List.mem_flatMap]
    constructor
    · rintro ⟨h, hdef, hc⟩
      obtain ⟨href, hmem, hattests⟩ := mem_verifyDefs.mp hdef
      exact ⟨href, hmem, h, hattests, hc⟩
    · rintro ⟨href, hmem, h, hattests, hc⟩
      exact ⟨h, mem_verifyDefs.mpr ⟨href, hmem, hattests⟩, hc⟩

/-- The `candidates` argument lists the key. -/
def HookRef.Lists (href : HookRef) (key : String) : Prop :=
  ∃ raw, href.args.lookup "candidates" = some raw ∧
    ∃ entry ∈ raw.toList.splitOn ',', trim (String.ofList entry) = key

theorem mem_collectCandidateScratchKeys {key : String} :
    key ∈ collectCandidateScratchKeys lib hooks ↔
      key ≠ "" ∧ ∃ href ∈ hooks, ∃ h, href.Attests lib h ∧ href.Lists key := by
  simp only [collectCandidateScratchKeys, List.mem_filter, List.mem_map, List.mem_flatMap,
    List.mem_filterMap, Option.any_eq_true, List.contains_eq_mem, decide_eq_true_eq]
  constructor
  · rintro ⟨⟨_, ⟨raw, ⟨href, ⟨hmem, h, hdef, hverify⟩, hraw⟩, entry, hentry, rfl⟩, rfl⟩, hne⟩
    exact ⟨hne, href, hmem, h, ⟨hdef, hverify⟩, raw, hraw, entry, hentry, rfl⟩
  · rintro ⟨hne, href, hmem, h, ⟨hdef, hverify⟩, raw, hraw, entry, hentry, rfl⟩
    exact ⟨⟨_, ⟨raw, ⟨href, ⟨hmem, h, hdef, hverify⟩, hraw⟩, entry, hentry, rfl⟩, rfl⟩, hne⟩

end

end ProtocolEnforcer
