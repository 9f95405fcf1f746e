import ProtocolEnforcer.Core.Keyed
import ProtocolEnforcer.Manifest.ValidProfile

/-!
# The authoring warnings (`ProfileManager::validate_profile` in `profile_manager.rs`)

The manager looks at a profile as it is written and warns of a `loop: true` that
`protocol_start` will reject; the strict validator decides that on the enabled macros alone.
So the two part over disabled macros: a looping macro that is disabled is warned of and not
rejected, and one that is last but for disabled macros is rejected without a warning. A profile
with an error of its own gets no warnings at all.
-/

namespace ProtocolEnforcer

namespace ProfileManager

/-! ## The warn-only validator -/

def errors (p : Profile) : List String :=
  violationIf (p.name = "") "Profile name cannot be empty" ++
    violationIf p.pipeline.isEmpty "Pipeline must have at least one state" ++
    p.pipeline.zipIdx.flatMap fun (state, si) =>
      violationIf (state.stateId = "") ("State " ++ toString si ++ " has empty state_id")

/-- The warnings of one macro. -/
def stateWarnings (lastMacroId : Option String) (state : StateDef) : List String :=
  violationIf state.subStates.isEmpty ("State '" ++ state.stateId ++ "' has no sub_states") ++
    violationIf (!state.subStates.any (·.subStateType == .checklist))
      ("State '" ++ state.stateId ++ "' has no checklist sub-state") ++
    if state.loopState then
      violationIf state.firstEnabledExecuteIndex.isNone
          ("State '" ++ state.stateId ++ "' has loop: true but no enabled execute sub-state " ++
            "(the loop-back target) -- protocol_start will reject this") ++
        violationIf (lastMacroId = some state.stateId)
          ("State '" ++ state.stateId ++ "' has loop: true on the final pipeline macro " ++
            "(forbidden -- protocol_start will reject this)")
    else []

def warnings (p : Profile) : List String :=
  p.pipeline.flatMap (stateWarnings (p.pipeline.getLast?.map (·.stateId)))

/-- `ProfileManager::validate_profile`: the warnings, if there is no error. -/
def validateProfile (p : Profile) : Except (List String) (List String) :=
  match errors p with
  | [] => .ok (warnings p)
  | es => .error es

end ProfileManager

/-! ## The two rules -/

/-- The rules about `loop: true`: Rule 9 asks for a loop-back target, Rule 10 forbids the final
macro. -/
inductive LoopRule where
  | target
  | final

namespace LoopRule

/-- What the manager warns of, for a macro id. -/
def warning (rule : LoopRule) (id : String) : String :=
  match rule with
  | target => "State '" ++ id ++ "' has loop: true but no enabled execute sub-state " ++
      "(the loop-back target) -- protocol_start will reject this"
  | final => "State '" ++ id ++ "' has loop: true on the final pipeline macro " ++
      "(forbidden -- protocol_start will reject this)"

/-- What the strict validator reports. -/
def violation (rule : LoopRule) (id : String) : String :=
  match rule with
  | target => "macro '" ++ id ++ "': loop: true requires at least one enabled " ++
      "execute sub-state (the loop-back target), found none"
  | final => "macro '" ++ id ++ "': loop: true is forbidden on the final " ++
      "pipeline macro (the delivery step must not cycle)"

/-- The manager warns of a macro under a rule. -/
def Warns (p : Profile) (rule : LoopRule) (m : StateDef) : Prop :=
  ∃ ws, ProfileManager.validateProfile p = .ok ws ∧ rule.warning m.stateId ∈ ws

/-- The strict validator reports the violation: `check_loop_state` finds it, and all that it
finds is returned. -/
def Reports (schemas : Schemas) (lib : Library) (p : Profile) (rule : LoopRule) (m : StateDef) :
    Prop :=
  rule.violation m.stateId ∈ checkLoopState p.withEnabledMacrosOnly ∧
    ∃ vs, validateProfile schemas lib p = .error vs ∧
      checkLoopState p.withEnabledMacrosOnly ⊆ vs

/-- The rule is broken by a macro of a pipeline with this last macro. -/
def Broken (rule : LoopRule) (lastMacroId : Option String) (m : StateDef) : Prop :=
  m.loopState = true ∧
    match rule with
    | target => m.firstEnabledExecuteIndex = none
    | final => lastMacroId = some m.stateId

end LoopRule

/-- A profile with a name whose macros have ids. -/
def Profile.Named (p : Profile) : Prop := p.name ≠ "" ∧ ∀ m ∈ p.pipeline, m.stateId ≠ ""

/-! ## Texts that end differently -/

theorem mem_violationIf {c : Bool} {text v : String} :
    v ∈ violationIf c text ↔ c = true ∧ v = text := by
  cases c <;> simp [violationIf]

/-- The last two characters of a text. -/
def ending (s : String) : List Char := s.toList.reverse.take 2

/-- A text ends as its last part does. -/
theorem ending_append (a b : String) (h : 2 ≤ b.toList.length) : ending (a ++ b) = ending b := by
  rw [ending, String.toList_append, List.reverse_append,
    List.take_append_of_le_length (by rwa [List.length_reverse])]
  rfl

/-- Two texts around an id are the same for the same id. -/
theorem around_inj {pre a b s t : String} : pre ++ a ++ s ++ t = pre ++ b ++ s ++ t ↔ a = b := by
  refine ⟨fun h => ?_, fun h => h ▸ rfl⟩
  have hchars := congrArg String.toList h
  simp only [String.toList_append] at hchars
  exact String.toList_inj.mp (List.append_cancel_left
    (List.append_cancel_right (List.append_cancel_right hchars)))

namespace LoopRule

variable {rule rule' : LoopRule} {id id' : String} {lastMacroId : Option String} {m : StateDef}
  {p : Profile} {schemas : Schemas} {lib : Library}

/-- Decidable form of a rule's condition, as both validators compute it. -/
def breaks (rule : LoopRule) (lastMacroId : Option String) (m : StateDef) : Bool :=
  match rule with
  | target => m.firstEnabledExecuteIndex.isNone
  | final => lastMacroId = some m.stateId

theorem broken_iff : rule.Broken lastMacroId m ↔
    m.loopState = true ∧ rule.breaks lastMacroId m = true := by
  cases rule <;> simp [Broken, breaks]

theorem ending_warning :
    ending (rule.warning id) = match rule with | target => ['s', 'i'] | final => [')', 's'] := by
  cases rule <;> rw [warning, ending_append _ _ (by decide)] <;> decide

theorem ending_violation :
    ending (rule.violation id) = match rule with | target => ['e', 'n'] | final => [')', 'e'] := by
  cases rule <;> rw [violation, ending_append _ _ (by decide)] <;> decide

/-- A warning says which rule and which macro it is about, -/
theorem warning_inj : rule.warning id = rule'.warning id' ↔ rule = rule' ∧ id = id' := by
  cases rule <;> cases rule'
  case target.target | final.final => exact around_inj.trans (by simp)
  case target.final | final.target =>
    refine iff_of_false (fun h => ?_) (fun h => nomatch h.1)
    have hend := congrArg ending h
    rw [ending_warning, ending_warning] at hend
    exact absurd hend (by decide)

/-- and so does a violation. -/
theorem violation_inj : rule.violation id = rule'.violation id' ↔ rule = rule' ∧ id = id' := by
  cases rule <;> cases rule'
  case target.target | final.final => exact around_inj.trans (by simp)
  case target.final | final.target =>
    refine iff_of_false (fun h => ?_) (fun h => nomatch h.1)
    have hend := congrArg ending h
    rw [ending_violation, ending_violation] at hend
    exact absurd hend (by decide)

/-- Of two texts that say which rule and which macro they are about, one is pushed for each
rule that is broken. -/
theorem mem_pushed {text : LoopRule → String → String}
    (hinj : ∀ {r r' a b}, text r a = text r' b ↔ r = r' ∧ a = b) :
    text rule id ∈ violationIf (target.breaks lastMacroId m) (text target m.stateId) ++
        violationIf (final.breaks lastMacroId m) (text final m.stateId) ↔
      id = m.stateId ∧ rule.breaks lastMacroId m = true := by
  rw [List.mem_append, mem_violationIf, mem_violationIf, hinj, hinj]
  cases rule <;> simp [and_comm]

/-- The manager warns of a macro under its own id, where it breaks the rule. -/
theorem mem_stateWarnings : rule.warning id ∈ ProfileManager.stateWarnings lastMacroId m ↔
    id = m.stateId ∧ rule.Broken lastMacroId m := by
  have hother (text : String) (hend : ending text ≠ ending (rule.warning id)) :
      rule.warning id ≠ text := fun heq => hend (heq ▸ rfl)
  have hempty : rule.warning id ≠ "State '" ++ m.stateId ++ "' has no sub_states" := by
    refine hother _ ?_
    rw [ending_append _ _ (by decide), ending_warning]
    cases rule <;> decide
  have hnone : rule.warning id ≠ "State '" ++ m.stateId ++ "' has no checklist sub-state" := by
    refine hother _ ?_
    rw [ending_append _ _ (by decide), ending_warning]
    cases rule <;> decide
  rw [ProfileManager.stateWarnings, List.mem_append, List.mem_append, mem_violationIf,
    mem_violationIf, or_iff_right (fun h => h.elim (fun h => hempty h.2) fun h => hnone h.2),
    broken_iff]
  cases m.loopState with
  | false => simp
  | true => exact (mem_pushed warning_inj).trans (by simp)

/-- So does the strict validator. -/
theorem mem_checkLoopState : rule.violation id ∈ checkLoopState p ↔
    ∃ m ∈ p.pipeline, id = m.stateId ∧
      rule.Broken (p.pipeline.getLast?.map (·.stateId)) m := by
  rw [checkLoopState, List.mem_flatMap]
  refine exists_congr fun m => and_congr_right fun _ => ?_
  rw [broken_iff]
  cases m.loopState with
  | false => simp
  | true => exact (mem_pushed violation_inj).trans (by simp)

/-! ## What each of them decides -/

theorem errors_eq_nil (hne : p.pipeline ≠ []) : ProfileManager.errors p = [] ↔ p.Named := by
  simp only [ProfileManager.errors, List.append_eq_nil_iff, violationIf_eq_nil,
    List.flatMap_eq_nil_iff, List.isEmpty_eq_false_iff, decide_eq_false_iff_not, Profile.Named,
    and_iff_left hne, and_congr_right_iff]
  refine fun _ => ⟨fun h m hm => ?_, fun h x hx => h _ (List.fst_mem_of_mem_zipIdx hx)⟩
  obtain ⟨i, hi, rfl⟩ := List.mem_iff_getElem.mp hm
  exact h (p.pipeline[i], i) (List.mem_zipIdx_iff_getElem?.mpr (List.getElem?_eq_getElem hi))

/-- The manager warns where the macro breaks the rule among all macros, of a profile without
errors. -/
theorem warns_iff (hnodup : (p.pipeline.map (·.stateId)).Nodup) (hm : m ∈ p.pipeline) :
    rule.Warns p m ↔ p.Named ∧ rule.Broken (p.pipeline.getLast?.map (·.stateId)) m := by
  have hne : p.pipeline ≠ [] := List.ne_nil_of_mem hm
  have hwarns : rule.warning m.stateId ∈ ProfileManager.warnings p ↔
      rule.Broken (p.pipeline.getLast?.map (·.stateId)) m := by
    rw [ProfileManager.warnings, List.mem_flatMap]
    simp only [mem_stateWarnings]
    exact exists_key_iff hnodup hm
  rw [Warns, ProfileManager.validateProfile, ← errors_eq_nil hne, ← hwarns]
  cases ProfileManager.errors p with
  | nil => simp
  | cons e es => simp

/-- What the check of the loops finds, the strict validator returns. -/
theorem checkLoopState_returned (h : checkLoopState p.withEnabledMacrosOnly ≠ []) :
    ∃ vs, validateProfile schemas lib p = .error vs ∧
      checkLoopState p.withEnabledMacrosOnly ⊆ vs := by
  have hsub : checkLoopState p.withEnabledMacrosOnly ⊆ violations schemas lib p :=
    fun v hv => List.mem_append_left _ (List.mem_append_right _ hv)
  rw [validateProfile]
  split
  · rename_i hnone
    rw [hnone] at hsub
    exact absurd (List.subset_nil.mp hsub) h
  · exact ⟨_, rfl, hsub⟩

/-- The strict validator reports where it breaks the rule among the enabled ones. -/
theorem reports_iff (hnodup : (p.pipeline.map (·.stateId)).Nodup) (hm : m ∈ p.pipeline) :
    rule.Reports schemas lib p m ↔ m.enabled = true ∧
      rule.Broken (p.withEnabledMacrosOnly.pipeline.getLast?.map (·.stateId)) m := by
  have hfinds : rule.violation m.stateId ∈ checkLoopState p.withEnabledMacrosOnly ↔
      m.enabled = true ∧
        rule.Broken (p.withEnabledMacrosOnly.pipeline.getLast?.map (·.stateId)) m := by
    rw [mem_checkLoopState, ← exists_key_iff hnodup hm (p := fun m => m.enabled = true ∧
      rule.Broken (p.withEnabledMacrosOnly.pipeline.getLast?.map (·.stateId)) m)]
    refine exists_congr fun m' => ?_
    rw [show m' ∈ p.withEnabledMacrosOnly.pipeline ↔ m' ∈ p.pipeline ∧ m'.enabled = true from
      List.mem_filter]
    tauto
  rw [Reports, ← hfinds]
  exact ⟨fun h => h.1, fun h => ⟨h, checkLoopState_returned (List.ne_nil_of_mem h)⟩⟩

/-- A macro is the last one when nothing is behind it. -/
theorem last_iff {pipeline before behind : List StateDef}
    (hnodup : (pipeline.map (·.stateId)).Nodup) (hsplit : pipeline = before ++ m :: behind) :
    pipeline.getLast?.map (·.stateId) = some m.stateId ↔ behind = [] := by
  subst hsplit
  rw [List.getLast?_append_cons]
  cases hlast : behind.getLast? with
  | none =>
    obtain rfl := List.getLast?_eq_none_iff.mp hlast
    simp
  | some b =>
    have hb : b ∈ behind := List.mem_of_getLast? hlast
    have hne : b.stateId ≠ m.stateId := by
      rw [List.map_append, List.map_cons] at hnodup
      have hbehind := (List.nodup_cons.mp (List.nodup_append.mp hnodup).2.1).1
      exact ne_of_mem_of_not_mem (List.mem_map_of_mem hb) hbehind
    rw [List.getLast?_cons, hlast]
    exact iff_of_false (fun h => hne (Option.some.inj h)) (List.ne_nil_of_mem hb)

end LoopRule

/-! ## Where they agree -/

/-- When the warnings of a macro predict the strict validator, the macros in `behind` standing
behind it. -/
def Profile.Predicted (p : Profile) (m : StateDef) (behind : List StateDef) : Prop :=
  m.loopState = true →
    (p.Named → m.enabled = true → behind = [] ∨ ∃ m' ∈ behind, m'.enabled = true) ∧
    (p.Named → m.enabled = false → m.firstEnabledExecuteIndex ≠ none ∧ behind ≠ []) ∧
    (¬p.Named → m.enabled = true →
      m.firstEnabledExecuteIndex ≠ none ∧ ∃ m' ∈ behind, m'.enabled = true)

/-- **Where the warnings predict the strict validator.** In a profile without errors of its own:
for an enabled looping macro when it is the last one or an enabled one is behind it, and for a
disabled one when it has a loop-back target and is not the last. In a profile with such an
error nothing is warned of, which is right for a looping macro that is disabled or breaks
neither rule. -/
theorem warnings_predict_iff {schemas : Schemas} {lib : Library} {p : Profile} {m : StateDef}
    {before behind : List StateDef} (hnodup : (p.pipeline.map (·.stateId)).Nodup)
    (hsplit : p.pipeline = before ++ m :: behind) :
    (∀ rule : LoopRule, rule.Warns p m ↔ rule.Reports schemas lib p m) ↔
      p.Predicted m behind := by
  have hm : m ∈ p.pipeline := hsplit ▸ List.mem_append_right _ List.mem_cons_self
  have hlast := LoopRule.last_iff hnodup hsplit
  have hlastEnabled (henabled : m.enabled = true) :
      p.withEnabledMacrosOnly.pipeline.getLast?.map (·.stateId) = some m.stateId ↔
        ¬∃ m' ∈ behind, m'.enabled = true := by
    have hids : (p.withEnabledMacrosOnly.pipeline.map (·.stateId)).Nodup :=
      hnodup.sublist (List.filter_sublist.map _)
    have hfilter : p.withEnabledMacrosOnly.pipeline =
        before.filter (·.enabled) ++ m :: behind.filter (·.enabled) := by
      rw [Profile.withEnabledMacrosOnly, hsplit, List.filter_append,
        List.filter_cons_of_pos henabled]
    rw [LoopRule.last_iff hids hfilter, List.filter_eq_nil_iff]
    simp
  have hrules (P : LoopRule → Prop) : (∀ rule, P rule) ↔ P .target ∧ P .final :=
    ⟨fun h => ⟨h _, h _⟩, fun h rule => by cases rule <;> simp [h]⟩
  rw [hrules, LoopRule.warns_iff hnodup hm, LoopRule.warns_iff hnodup hm,
    LoopRule.reports_iff hnodup hm, LoopRule.reports_iff hnodup hm]
  simp only [LoopRule.Broken, hlast, Profile.Predicted]
  cases m.loopState with
  | false => simp
  | true =>
    cases henabled : m.enabled with
    | true =>
      rw [hlastEnabled henabled]
      have hempty : behind = [] → ¬∃ m' ∈ behind, m'.enabled = true := by
        rintro rfl ⟨m', hm', -⟩
        cases hm'
      generalize (∃ m' ∈ behind, m'.enabled = true) = someEnabled at hempty ⊢
      by_cases hnamed : p.Named
      · simp only [hnamed, true_and, true_implies, not_true, false_implies, and_true]
        tauto
      · simp only [hnamed, false_and, false_iff, true_and, true_implies, false_implies, not_not,
          not_false_eq_true]
    | false =>
      by_cases hnamed : p.Named
      · simp [hnamed]
      · simp [hnamed]

namespace Sample

/-- A looping macro with work in it, -/
def looper : StateDef where
  stateId := "draft"
  name := "Draft"
  loopState := true
  subStates := [{ id := "write", subStateType := .execute },
    { id := "check", subStateType := .checklist, criteria := some ["done"] }]

/-- and another macro behind it. -/
def shipping (enabled : Bool) : StateDef where
  stateId := "ship"
  name := "Ship"
  enabled := enabled
  subStates := [{ id := "check", subStateType := .checklist, criteria := some ["done"] }]

def looping (shipped : Bool) : Profile :=
  { name := "looping", version := "1", pipeline := [looper, shipping shipped] }

def anySchema : Schemas := ⟨⟨fun _ => false, fun _ _ _ => false⟩, fun _ => none⟩

def noLibrary : Library := ⟨"./library", fun _ => .error .notFound⟩

end Sample

/-- With an enabled macro behind it the looping one is warned of as it is rejected. -/
theorem warnings_predict_shipped :
    (LoopRule.target.Warns (Sample.looping true) Sample.looper ↔
      LoopRule.target.Reports Sample.anySchema Sample.noLibrary (Sample.looping true)
        Sample.looper) ∧
    (LoopRule.final.Warns (Sample.looping true) Sample.looper ↔
      LoopRule.final.Reports Sample.anySchema Sample.noLibrary (Sample.looping true)
        Sample.looper) := by
  have hpredicted : (Sample.looping true).Predicted Sample.looper [Sample.shipping true] :=
    fun _ => ⟨fun _ _ => Or.inr ⟨_, List.mem_cons_self, rfl⟩, fun _ => nofun,
      fun _ _ => ⟨by decide, _, List.mem_cons_self, rfl⟩⟩
  have hsplit : (Sample.looping true).pipeline =
      [] ++ Sample.looper :: [Sample.shipping true] := rfl
  have hagree : ∀ rule : LoopRule, rule.Warns (Sample.looping true) Sample.looper ↔
      rule.Reports Sample.anySchema Sample.noLibrary (Sample.looping true) Sample.looper :=
    (warnings_predict_iff (by decide) hsplit).mpr hpredicted
  exact ⟨hagree .target, hagree .final⟩

/-- With that macro disabled it is the final one, which is rejected and not warned of. -/
theorem warnings_miss_final :
    ((Sample.looping false).pipeline.map (·.stateId)).Nodup ∧
    Sample.looper ∈ (Sample.looping false).pipeline ∧
    ¬LoopRule.final.Warns (Sample.looping false) Sample.looper ∧
    LoopRule.final.Reports Sample.anySchema Sample.noLibrary (Sample.looping false)
      Sample.looper := by
  have hids : ((Sample.looping false).pipeline.map (·.stateId)).Nodup := by decide
  have hmem : Sample.looper ∈ (Sample.looping false).pipeline := List.mem_cons_self
  refine ⟨hids, hmem, fun hwarns => ?_, (LoopRule.reports_iff hids hmem).mpr ⟨rfl, rfl, rfl⟩⟩
  have hlast := ((LoopRule.warns_iff hids hmem).mp hwarns).2.2
  exact absurd hlast (by decide)

end ProtocolEnforcer
