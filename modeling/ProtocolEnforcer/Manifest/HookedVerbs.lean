import Mathlib.Data.List.InsertIdx
import ProtocolEnforcer.Manifest.AllOrNothing
import ProtocolEnforcer.Manifest.ValidHooks

/-!
# Editor verbs and the hooks of a profile

Only the four hook verbs ask the hook validator before they save. Of the others, all but one
change nothing that its rules read, or take macros and sub-states away, or add scaffolds
without hooks. `set_criteria` is the one: it gives a checklist other criteria without a look
at the verify hooks that attest them.
-/

namespace ProtocolEnforcer

open FileTask Effect

variable {lib : HookLibrary} {p : ProfileYaml} {state : StateYaml} {sub : SubStateYaml}
  {macroId subId : String}

/-! ## Scaffolds -/

theorem scaffoldSub_hooks {subType : SubStateType} {name : String} :
    validateSubHooks lib state (scaffoldSub subId subType name) = [] := by
  cases subType <;> rfl

theorem scaffoldMacro_hooks {stateId name : String} :
    (scaffoldMacro stateId name).HooksValid lib := by
  refine ⟨rfl, fun sub hsub => ?_⟩
  rw [List.mem_singleton.mp hsub]
  exact scaffoldSub_hooks

/-! ## One macro, one sub-state -/

section

variable (hp : validateHooks lib p = .ok ())
include hp

/-- With another macro in the place of one, the hooks are valid exactly if its are. -/
theorem validateHooks_put {put : StateYaml → ProfileYaml}
    (h : findMacro p macroId = .ok (state, put)) :
    state.HooksValid lib ∧
      ∀ state', validateHooks lib (put state') = .ok () ↔ state'.HooksValid lib := by
  obtain ⟨i, -, hput⟩ := bind_eq_ok.mp h
  cases hput
  rw [validateHooks_ok] at hp
  refine ⟨hp _ (List.getElem_mem i.isLt), fun state' => ?_⟩
  rw [validateHooks_ok]
  constructor
  · exact fun hall => hall state' (List.mem_set i.isLt state')
  · intro hstate' x hx
    rcases List.mem_or_eq_of_mem_set hx with hx | rfl
    · exact hp x hx
    · exact hstate'

/-- With another sub-state of the same macro in the place of one, exactly if its are. -/
theorem validateHooks_putSub {put : SubStateYaml → ProfileYaml}
    (h : findSub p macroId subId = .ok (sub, put)) :
    ∃ state, validateSubHooks lib state sub = [] ∧
      ∀ sub', validateHooks lib (put sub') = .ok () ↔ validateSubHooks lib state sub' = [] := by
  obtain ⟨⟨state, putMacro⟩, hfound, h⟩ := bind_eq_ok.mp h
  obtain ⟨i, -, hput⟩ := bind_eq_ok.mp h
  cases hput
  obtain ⟨⟨hmacroHooks, hsubs⟩, hall⟩ := validateHooks_put hp hfound
  refine ⟨state, hsubs _ (List.getElem_mem i.isLt), fun sub' => ?_⟩
  refine (hall _).trans ⟨fun hvalid => hvalid.2 sub' (List.mem_set i.isLt sub'), fun hsub' => ?_⟩
  refine ⟨hmacroHooks, fun x hx => ?_⟩
  rcases List.mem_or_eq_of_mem_set hx with hx | rfl
  · exact hsubs x hx
  · exact hsub'

end

theorem mem_of_mem_moveElement {α : Type} {xs : List α} {i : Fin xs.length} {«to» : Nat} {x : α}
    (h : x ∈ moveElement xs i «to») : x ∈ xs := by
  rcases List.eq_or_mem_of_mem_insertIdx h with rfl | h
  · exact List.getElem_mem i.isLt
  · exact List.mem_of_mem_eraseIdx h

/-! ## The changes -/

/-- The change, its checks passed, leaves valid hooks valid. -/
def Change.KeepsHooks (lib : HookLibrary) (c : Change) : Prop :=
  ∀ ⦃p p'⦄, c.mutate p = .ok p' → c.checks p' = .ok () → validateHooks lib p = .ok () →
    validateHooks lib p' = .ok ()

theorem changeMacro_keepsHooks {change : StateYaml → StateYaml} {p' : ProfileYaml}
    (h : changeMacro macroId change p = .ok p') (hp : validateHooks lib p = .ok ())
    (hchange : ∀ state : StateYaml, state.HooksValid lib → (change state).HooksValid lib) :
    validateHooks lib p' = .ok () := by
  obtain ⟨⟨state, put⟩, hfound, hput⟩ := bind_eq_ok.mp h
  cases hput
  obtain ⟨hstate, hall⟩ := validateHooks_put hp hfound
  exact (hall _).mpr (hchange state hstate)

theorem changeSub_keepsHooks {change : SubStateYaml → SubStateYaml} {p' : ProfileYaml}
    (h : changeSub macroId subId change p = .ok p') (hp : validateHooks lib p = .ok ())
    (hchange : ∀ (state : StateYaml) sub,
      validateSubHooks lib state (change sub) = validateSubHooks lib state sub) :
    validateHooks lib p' = .ok () := by
  obtain ⟨⟨sub, put⟩, hsub, hput⟩ := bind_eq_ok.mp h
  cases hput
  obtain ⟨state, hnone, hall⟩ := validateHooks_putSub hp hsub
  exact (hall _).mpr ((hchange state sub).trans hnone)

namespace ProfileEditor

variable {editor : ProfileEditor} {verb : Verb} {c : Change}

/-- What the hook validator accepted is valid. -/
theorem hookChange_keepsHooks {name : String} {mutate : Mutation} :
    (editor.hookChange name mutate).KeepsHooks editor.library :=
  fun _ _ _ hchecks _ => mapError_eq_ok.mp hchecks

/-- **All changes but one leave valid hooks valid.** -/
theorem change_keepsHooks (h : editor.change verb = some c)
    (hcriteria : ∀ name macroId subId criteria, verb ≠ .setCriteria name macroId subId criteria) :
    c.KeepsHooks editor.library := by
  cases verb with
  | create | clone | delete | rename | preview => cases h
  | setCriteria => exact absurd rfl (hcriteria _ _ _ _)
  | attachMacroHook | detachMacroHook | attachSubHook | detachSubHook =>
    cases h
    exact hookChange_keepsHooks
  | setDescription | setSettings =>
    cases h
    intro p p' hp _ hvalid
    cases hp
    exact hvalid
  | addMacro =>
    cases h
    intro p p' hp _ hvalid
    cases hp
    rw [validateHooks_ok] at hvalid ⊢
    intro state hstate
    rcases List.eq_or_mem_of_mem_insertIdx hstate with rfl | hstate
    · exact scaffoldMacro_hooks
    · exact hvalid state hstate
  | removeMacro | moveMacro =>
    cases h
    intro p p' hp _ hvalid
    obtain ⟨i, -, hp⟩ := bind_eq_ok.mp hp
    cases hp
    rw [validateHooks_ok] at hvalid ⊢
    exact fun state hstate => hvalid state (by
      first
      | exact List.mem_of_mem_eraseIdx hstate
      | exact mem_of_mem_moveElement hstate)
  | removeSub | moveSub =>
    cases h
    intro p p' hp _ hvalid
    obtain ⟨⟨state, put⟩, hfound, hp⟩ := bind_eq_ok.mp hp
    obtain ⟨i, -, hp⟩ := bind_eq_ok.mp hp
    cases hp
    obtain ⟨⟨hmacroHooks, hsubs⟩, hall⟩ := validateHooks_put hvalid hfound
    refine (hall _).mpr ⟨hmacroHooks, fun sub hsub => hsubs sub ?_⟩
    first
    | exact List.mem_of_mem_eraseIdx hsub
    | exact mem_of_mem_moveElement hsub
  | addSub =>
    cases h
    intro p p' hp _ hvalid
    dsimp only at hp
    refine changeMacro_keepsHooks hp hvalid fun state hstate => ⟨hstate.1, fun sub hsub => ?_⟩
    rcases List.eq_or_mem_of_mem_insertIdx hsub with rfl | hsub
    · exact scaffoldSub_hooks
    · exact hstate.2 sub hsub
  | setMacroName | setMacroDescription | setMacroMaxIterations | setMacroLoop | enableMacro
  | disableMacro =>
    cases h
    intro p p' hp _ hvalid
    dsimp only at hp
    exact changeMacro_keepsHooks hp hvalid fun state hstate => hstate
  | _ =>
    cases h
    intro p p' hp _ hvalid
    dsimp only [changeInject] at hp
    exact changeSub_keepsHooks hp hvalid fun state sub => rfl

end ProfileEditor

/-! ## Other criteria -/

/-- The criteria fit the verify hooks: there are none, or they attest every criterion, and
attest nothing but criteria and candidates. -/
def CriteriaAttested (lib : HookLibrary) (criteria : List String) (hooks : List HookRef) : Prop :=
  (∀ href ∈ hooks, ∀ h, ¬href.Attests lib h) ∨
    (∀ c ∈ criteria, Covered lib hooks c) ∧
      ∀ href ∈ hooks, ∀ h, href.Attests lib h → ∀ key ∈ h.verifyCriteria,
        key ∈ criteria ∨ key ∈ collectCandidateScratchKeys lib hooks

theorem validateSubHooks_criteria {criteria : List String}
    (hchecklist : sub.subStateType = .checklist) (hvalid : validateSubHooks lib state sub = []) :
    validateSubHooks lib state { sub with criteria := some criteria } = [] ↔
      CriteriaAttested lib criteria sub.hooks := by
  simp only [validateSubHooks, SubStateYaml.checklistCriteria, hchecklist, if_true,
    Option.getD_some, List.append_eq_nil_iff, List.flatMap_eq_nil_iff,
    checkReverseCoverage_eq_nil] at hvalid ⊢
  rw [forall₂_congr fun href hmem => validateHookRef_criteria (hvalid.1 href hmem)]
  unfold CriteriaAttested
  constructor
  · rintro ⟨htargets, hcovers⟩
    by_cases hany : ∃ href ∈ sub.hooks, ∃ h, href.Attests lib h
    · exact Or.inr ⟨hcovers hany, htargets⟩
    · exact Or.inl fun href hmem h hattests => hany ⟨href, hmem, h, hattests⟩
  · rintro (hnone | ⟨hcovers, htargets⟩)
    · refine ⟨fun href hmem h hattests => absurd hattests (hnone href hmem h), ?_⟩
      rintro ⟨href, hmem, h, hattests⟩
      exact absurd hattests (hnone href hmem h)
    · exact ⟨htargets, fun _ => hcovers⟩

/-- What `set_criteria` makes of valid hooks. -/
theorem setCriteria_keepsHooks {criteria : List String} {p' : ProfileYaml}
    (h : (do
      let (sub, put) ← findSub p macroId subId
      if sub.subStateType ≠ .checklist then
        throw (.validation ["sub-state '" ++ subId ++
          "' is not a checklist; only checklist sub-states have criteria"])
      else return put { sub with criteria := some criteria } : Except EditError ProfileYaml) =
      .ok p') (hp : validateHooks lib p = .ok ()) :
    validateHooks lib p' = .ok () ↔
      ∀ sub put, findSub p macroId subId = .ok (sub, put) →
        CriteriaAttested lib criteria sub.hooks := by
  obtain ⟨⟨sub, put⟩, hfound, h⟩ := bind_eq_ok.mp h
  dsimp only at h
  split at h
  · cases h
  · rename_i hchecklist
    cases h
    obtain ⟨state, hnone, hall⟩ := validateHooks_putSub hp hfound
    refine (hall _).trans ((validateSubHooks_criteria (not_not.mp hchecklist) hnone).trans ?_)
    constructor
    · rintro hattested sub' put' hfound'
      cases hfound.symm.trans hfound'
      exact hattested
    · exact fun hattested => hattested sub put hfound

/-! ## Calls -/

/-- The profile that a verb works on. -/
def Verb.source : Verb → Option String
  | create .. => none
  | clone source .. => some source
  | delete name | rename name .. | preview name _ | setDescription name _ | setSettings name ..
  | addMacro name .. | removeMacro name _ | moveMacro name .. | setMacroName name ..
  | setMacroDescription name .. | setMacroMaxIterations name .. | setMacroLoop name ..
  | enableMacro name _ | disableMacro name _ | addSub name .. | removeSub name ..
  | moveSub name .. | setSubName name .. | setSubDescription name .. | enableSub name ..
  | disableSub name .. | setCriteria name .. | setVerify name .. | setPrompt name ..
  | setContext name .. | attachSkill name .. | detachSkill name .. | attachProtocol name ..
  | detachProtocol name .. | attachMacroHook name .. | detachMacroHook name ..
  | attachSubHook name .. | detachSubHook name .. => some name

/-- If the verb gives a checklist of `p` other criteria, they fit its verify hooks. -/
def Verb.KeepsAttested (verb : Verb) (lib : HookLibrary) (p : ProfileYaml) : Prop :=
  ∀ name macroId subId criteria, verb = .setCriteria name macroId subId criteria →
    ∀ sub put, findSub p macroId subId = .ok (sub, put) → CriteriaAttested lib criteria sub.hooks

namespace ProfileEditor

section

variable (editor : ProfileEditor) (d : Disk String) (call : EditorCall)

/-- What a call that saves a profile makes it of. -/
inductive Makes : ProfileYaml → Prop where
  | created {name description force} (hverb : call.verb = .create name description force) :
      Makes (scaffoldProfile call.stamp.now name description)
  | cloned {source newName force p bytes} (hverb : call.verb = .clone source newName force)
      (hload : (editor.serving call).Loads d source p bytes) :
      Makes (p.clone call.stamp.now newName)
  | renamed {name newName force p bytes} (hverb : call.verb = .rename name newName force)
      (hload : (editor.serving call).Loads d name p bytes) : Makes { p with name := newName }
  | changed {c p p' bytes} (hchange : (editor.serving call).change call.verb = some c)
      (hload : (editor.serving call).Loads d c.name p bytes) (changes : c.mutate p = .ok p')
      (checked : c.checks p' = .ok ()) : Makes p'

/-- The call leaves the profile in a file. -/
def Saves (p : ProfileYaml) : Prop :=
  ∃ target text, (editor.serving call).yaml.toString p = .ok text ∧
    editor.after d call (pathFor target) = some (bytesOf text)

end

variable {editor : ProfileEditor} {d : Disk String} {call : EditorCall} {p p' : ProfileYaml}

theorem Stored.saves {target : String}
    (h : Stored (editor.serving call) d call.stamp target p (editor.serve d call).2) :
    editor.Saves d call p := by
  obtain ⟨text, m, hsavable, hs⟩ := h.savable
  exact ⟨target, text, hsavable.written, after_target hs⟩

/-- **A verb that answers a profile has made it of what it loaded, and saved it.** -/
theorem serve_makes (hsaves : ∀ name mutate, call.verb ≠ .preview name mutate)
    (hok : (editor.serve d call).1 = .ok (some p')) :
    editor.Makes d call p' ∧ editor.Saves d call p' := by
  have answered : ∀ {p}, (editor.serve d call).1 = .ok (some p) → p' = p := fun h =>
    Option.some.inj (Except.ok.inj (hok.symm.trans h))
  have notError : ∀ {e}, (editor.serve d call).1 ≠ .error e := fun h => nomatch hok.symm.trans h
  cases hchange : (editor.serving call).change call.verb with
  | some c =>
    rcases serve_change (d := d) hchange with ⟨changed, profile, text, h, hcarries, hs⟩ | ⟨e, h, -⟩
    · obtain rfl := answered h
      obtain ⟨bytes, hload⟩ := hcarries.source
      exact ⟨.changed hchange hload hcarries.changes hcarries.checked, c.name, text,
        hcarries.savable.written, after_target hs⟩
    · exact absurd h notError
  | none =>
    cases hverb : call.verb with
    | create name description force =>
      rcases serve_stores (d := d) hverb rfl create_spec with ⟨p, h, rfl, hs⟩ | ⟨e, h, -⟩
      · obtain rfl := answered h
        exact ⟨.created hverb, hs.saves⟩
      · exact absurd h notError
    | clone source newName force =>
      rcases serve_stores (d := d) hverb rfl clone_spec with
        ⟨p, h, ⟨profile, bytes, hload, rfl⟩, hs⟩ | ⟨e, h, -⟩
      · obtain rfl := answered h
        exact ⟨.cloned hverb hload, hs.saves⟩
      · exact absurd h notError
    | rename name newName force =>
      rcases serve_rename (d := d) hverb with ⟨profile, text, h, hmoves, hs⟩ | ⟨e, h, -⟩ |
        ⟨e, profile, text, h, -⟩
      · obtain rfl := answered h
        obtain ⟨bytes, hload⟩ := hmoves.source
        refine ⟨.renamed hverb hload, newName, text, hmoves.savable.written, ?_⟩
        rcases hs with ⟨-, hs⟩ | ⟨hne, -, hs⟩
        · exact after_target hs
        · exact after_moved hs hne
      · exact absurd h notError
      · exact absurd h notError
    | delete name =>
      rcases serve_delete (d := d) hverb with ⟨h, -⟩ | ⟨e, h, -⟩
      · cases hok.symm.trans h
      · exact absurd h notError
    | preview name mutate => exact absurd hverb (hsaves name mutate)
    | _ =>
      rw [hverb] at hchange
      cases hchange

theorem change_source {verb : Verb} {c : Change} (h : editor.change verb = some c) :
    verb.source = some c.name := by
  cases verb with
  | create | clone | delete | rename | preview => cases h
  | _ =>
    cases h
    rfl

/-- **When a verb leaves the hooks valid.** For every profile whose hooks are valid: a verb that
saves one made of it saves valid hooks if and only if it does not give a checklist criteria that
do not fit its verify hooks. -/
theorem verb_keeps_hooks_iff
    (hload : ∀ name ∈ call.verb.source, ∃ bytes, (editor.serving call).Loads d name p bytes)
    (hhooks : validateHooks call.library p = .ok ())
    (hsaves : ∀ name mutate, call.verb ≠ .preview name mutate)
    (hok : (editor.serve d call).1 = .ok (some p')) :
    editor.Saves d call p' ∧
      (validateHooks call.library p' = .ok () ↔ call.verb.KeepsAttested call.library p) := by
  obtain ⟨hmakes, hsaved⟩ := serve_makes hsaves hok
  refine ⟨hsaved, ?_⟩
  -- only `set_criteria` asks anything
  have keeps : (∀ name macroId subId criteria,
      call.verb ≠ .setCriteria name macroId subId criteria) →
      call.verb.KeepsAttested call.library p := by
    intro hother name macroId subId criteria hverb
    exact absurd hverb (hother name macroId subId criteria)
  -- what the verb has loaded is `p`
  have loaded : ∀ {name q bytes}, call.verb.source = some name →
      (editor.serving call).Loads d name q bytes → q = p := by
    intro name q bytes hsource hq
    obtain ⟨bytes', hp⟩ := hload name hsource
    exact hq.unique hp
  cases hmakes with
  | created hverb =>
    refine iff_of_true ?_ (keeps fun _ _ _ _ h => nomatch hverb.symm.trans h)
    rw [validateHooks_ok]
    intro state hstate
    rw [List.mem_singleton.mp hstate]
    exact scaffoldMacro_hooks
  | cloned hverb hq =>
    obtain rfl := loaded (hverb ▸ rfl) hq
    exact iff_of_true hhooks (keeps fun _ _ _ _ h => nomatch hverb.symm.trans h)
  | renamed hverb hq =>
    obtain rfl := loaded (hverb ▸ rfl) hq
    exact iff_of_true hhooks (keeps fun _ _ _ _ h => nomatch hverb.symm.trans h)
  | changed hchange hq changes checked =>
    obtain rfl := loaded (change_source hchange) hq
    by_cases hcriteria : ∃ name macroId subId criteria,
        call.verb = .setCriteria name macroId subId criteria
    · obtain ⟨name, macroId, subId, criteria, hverb⟩ := hcriteria
      rw [hverb] at hchange ⊢
      cases hchange
      rw [setCriteria_keepsHooks changes hhooks]
      constructor
      · rintro hattested _ _ _ _ h
        cases h
        exact hattested
      · exact fun h => h name macroId subId criteria rfl
    · have hother : ∀ name macroId subId criteria,
          call.verb ≠ .setCriteria name macroId subId criteria :=
        fun _ _ _ _ h => hcriteria ⟨_, _, _, _, h⟩
      exact iff_of_true (change_keepsHooks hchange hother changes checked hhooks) (keeps hother)

end ProfileEditor

/-! ## A checklist and its verify hook

A directory with a profile whose checklist has a hook that attests `criterion_1`. -/

namespace Sample

def attesting : HookDef :=
  { id := "tests", version := "1.0.0", kind := .mutate, events := [.verify],
    command := "run-tests", verifyCriteria := ["criterion_1"] }

def attested (criteria : List String) : ProfileYaml :=
  { authored "base" false with
    pipeline := [{ scaffoldMacro "phase1" "Phase 1" with
      subStates := [{ scaffoldSub "checklist" .checklist "Checklist" with
        criteria := some criteria
        hooks := [{ inline := some attesting }] }] }] }

/-- What `serde_yaml` writes for it. -/
def attestedText (criteria : List String) : String :=
  "name: base\nversion: 1.0.0\ndescription: d\nprotected: false\ncreated_at: ''\n" ++
    "cloned_from: null\nsettings:\n  oscillation_detection_threshold: 3\n" ++
    "  auto_loop_on_checklist_failure: true\n  global_timeout_seconds: 3600\n" ++
    "  approval_rejection_cap: 10\npipeline:\n" ++
    "- state_id: phase1\n  name: Phase 1\n  description: ''\n  system_prompt: null\n" ++
    "  enabled: true\n  max_iterations: 3\n  loop: false\n  icon: null\n  sub_states:\n" ++
    "  - id: checklist\n    type: checklist\n    name: Checklist\n    description: ''\n" ++
    "    enabled: true\n    criteria:\n" ++
    String.join (criteria.map fun c => "    - " ++ c ++ "\n") ++
    "    inject: null\n    verify: null\n    approver_pubkey: null\n" ++
    "    approval_prompt: null\n    hooks:\n    - id: null\n      version: null\n" ++
    "      args: \x7b\x7d\n      inline:\n        id: tests\n        version: 1.0.0\n" ++
    "        kind: mutate\n        events:\n        - verify\n        command: run-tests\n" ++
    "        timeout_ms: 10000\n        output_cap_bytes: 1048576\n" ++
    "        fail_open: null\n        inputs: \x7b\x7d\n        verify_criteria:\n" ++
    "        - criterion_1\n  hooks: []\noutput_contract: null\n"

/-- `serde_yaml` on these profiles. -/
def attestedFormat : ProfileFormat where
  fromStr text :=
    if text = attestedText ["criterion_1"] then .ok (attested ["criterion_1"])
    else .error "expected the profile"
  toString profile := .ok (attestedText
    (profile.pipeline.flatMap (·.subStates.flatMap (·.criteria.getD []))))

def attestedEditor : ProfileEditor := { profileEditor with yaml := attestedFormat }

def attestedDir : Disk String := fun file =>
  if file = "base.yaml" then some (bytesOf (attestedText ["criterion_1"])) else none

/-- `set_criteria` on the checklist. -/
def settingCriteria (criteria : List String) : EditorCall where
  verb := .setCriteria "base" "phase1" "checklist" criteria
  library := emptyLibrary
  stamp := ⟨"2026-08-13T00:00:00+00:00", 1, 1⟩
  fault _ := none

theorem attested_loads : attestedEditor.Loads attestedDir "base" (attested ["criterion_1"])
    (bytesOf (attestedText ["criterion_1"])) where
  safe := by decide
  file := by rw [attestedDir, if_pos (by decide)]
  parsed := by
    rw [fromUtf8Lossy_of_fromUtf8 (Utf8.fromUtf8_bytesOf _)]
    simp only [attestedEditor, attestedFormat, ↓reduceIte]

theorem attested_written {criteria : List String} :
    attestedEditor.yaml.toString (attested criteria) = .ok (attestedText criteria) := by
  simp [attestedEditor, attestedFormat, attested, scaffoldMacro, authored]

theorem settingCriteria_ok {criteria : List String}
    (hvalid : validateProfile attestedEditor.schemas emptyLibrary.toLibrary
      (attested criteria).served = .ok ()) :
    (attestedEditor.serve attestedDir (settingCriteria criteria)).1 =
      .ok (some (attested criteria)) := by
  have hcarries : ∀ c,
      (attestedEditor.serving (settingCriteria criteria)).change
        (settingCriteria criteria).verb = some c →
      (attestedEditor.serving (settingCriteria criteria)).Carries attestedDir
        (settingCriteria criteria).fault c (attested ["criterion_1"]) (attested criteria)
        (attestedText criteria) := by
    rintro c hchange
    cases hchange
    exact {
      asked := rfl
      source := ⟨_, attested_loads.safe, attested_loads.file, attested_loads.parsed⟩
      unprotected := rfl
      changes := rfl
      savable := ⟨hvalid, attested_written⟩
      checked := rfl
      undisturbed := fun _ _ => rfl }
  exact ProfileEditor.serve_carries rfl (hcarries _ rfl)

end Sample

namespace ProfileEditor

/-- Criteria that the hook attests are saved with valid hooks. -/
theorem verb_keeps_hooks_attested :
    validateHooks Sample.emptyLibrary (Sample.attested ["criterion_1"]) = .ok () ↔
      (Sample.settingCriteria ["criterion_1"]).verb.KeepsAttested Sample.emptyLibrary
        (Sample.attested ["criterion_1"]) := by
  have hload : ∀ name ∈ (Sample.settingCriteria ["criterion_1"]).verb.source, ∃ bytes,
      (Sample.attestedEditor.serving (Sample.settingCriteria ["criterion_1"])).Loads
        Sample.attestedDir name (Sample.attested ["criterion_1"]) bytes := by
    rintro name hname
    cases hname
    exact ⟨_, Sample.attested_loads.safe, Sample.attested_loads.file, Sample.attested_loads.parsed⟩
  exact (verb_keeps_hooks_iff hload (by decide) nofun (Sample.settingCriteria_ok (by decide))).2

/-- A criterion that no verify hook attests is saved as well. -/
theorem verb_breaks_hooks :
    Sample.attestedEditor.Loads Sample.attestedDir "base" (Sample.attested ["criterion_1"])
        (bytesOf (Sample.attestedText ["criterion_1"])) ∧
      validateProfile Sample.attestedEditor.schemas Sample.emptyLibrary.toLibrary
        (Sample.attested ["criterion_1"]).served = .ok () ∧
      validateHooks Sample.emptyLibrary (Sample.attested ["criterion_1"]) = .ok () ∧
      (Sample.attestedEditor.serve Sample.attestedDir
        (Sample.settingCriteria ["criterion_1", "criterion_2"])).1 =
        .ok (some (Sample.attested ["criterion_1", "criterion_2"])) ∧
      validateHooks Sample.emptyLibrary (Sample.attested ["criterion_1", "criterion_2"]) ≠
        .ok () :=
  ⟨Sample.attested_loads, by decide, by decide, Sample.settingCriteria_ok (by decide), by decide⟩

end ProfileEditor

end ProtocolEnforcer
