import ProtocolEnforcer.Manifest.EditorVerbs

/-!
# The verbs that change a profile

All verbs but the lifecycle ones are one program, `carry`, with a change of their own: load,
look, change, validate, compare and save. What they change of a profile is never its name.
-/

namespace ProtocolEnforcer

open FileTask

/-- What a verb makes of a loaded profile, what it asks before it loads anything, and what
it asks of the outcome. -/
structure Change where
  name : String
  asks : Except EditError Unit := .ok ()
  mutate : Mutation
  checks : ProfileYaml → Except EditError Unit := fun _ => .ok ()

namespace ProfileEditor

variable (editor : ProfileEditor) (stamp : EditStamp)

/-- `edit` and `edit_with_hook_validation` as one program. -/
def carry (c : Change) : Edit ProfileYaml := do
  lift c.asks
  let (profile, path, originalBytes) ← editor.loadWithBytes c.name
  ensure (!profile.protected) (.protected c.name)
  let profile ← lift (c.mutate profile)
  editor.validate profile
  lift (c.checks profile)
  editor.atomicSaveCas stamp path originalBytes profile
  return profile

theorem apply_eq (name : String) (mutate : Mutation) :
    editor.apply stamp name mutate = editor.carry stamp { name := name, mutate := mutate } := rfl

/-- A change that the hook validator looks at. -/
def hookChange (name : String) (mutate : Mutation) : Change where
  name := name
  mutate := mutate
  checks profile := (validateHooks editor.library profile).mapError .validation

theorem editWithHookValidation_eq (name : String) (mutate : Mutation) :
    editor.editWithHookValidation stamp name mutate =
      editor.carry stamp (editor.hookChange name mutate) := rfl

/-- The change of a verb, for the verbs that change a profile. -/
def change : Verb → Option Change
  | .create .. | .clone .. | .delete _ | .rename .. | .preview .. => none
  | .setDescription name description =>
    some { name := name, mutate := fun p => .ok { p with description := description } }
  | .setSettings name threshold autoLoop timeout =>
    some { name := name, mutate := fun p => .ok { p with
      settings := applySettings p.settings threshold autoLoop timeout } }
  | .addMacro name stateId macroName position =>
    some { name := name, mutate := fun p => .ok { p with
      pipeline := p.pipeline.insertIdx
        (min (position.getD p.pipeline.length) p.pipeline.length)
        (scaffoldMacro stateId macroName) } }
  | .removeMacro name macroId =>
    some { name := name, mutate := fun p => do
      let i ← positionOr p.pipeline (·.stateId = macroId) (macroNotFound macroId)
      return { p with pipeline := p.pipeline.eraseIdx i } }
  | .moveMacro name macroId «to» =>
    some { name := name, mutate := fun p => do
      let i ← positionOr p.pipeline (·.stateId = macroId) (macroNotFound macroId)
      return { p with pipeline := moveElement p.pipeline i «to» } }
  | .setMacroName name macroId newName =>
    some { name := name, mutate := changeMacro macroId ({ · with name := newName }) }
  | .setMacroDescription name macroId description =>
    some { name := name, mutate := changeMacro macroId ({ · with description := description }) }
  | .setMacroMaxIterations name macroId maxIterations =>
    some { name := name, mutate := changeMacro macroId ({ · with
      maxIterations := maxIterations }) }
  | .setMacroLoop name macroId loopState =>
    some { name := name, mutate := changeMacro macroId ({ · with loopState := loopState }) }
  | .enableMacro name macroId =>
    some { name := name, mutate := changeMacro macroId ({ · with enabled := true }) }
  | .disableMacro name macroId =>
    some { name := name, mutate := changeMacro macroId ({ · with enabled := false }) }
  | .addSub name macroId subId subType subName position =>
    some { name := name, mutate := changeMacro macroId fun state => { state with
      subStates := state.subStates.insertIdx
        (min (position.getD (defaultPosition state subType)) state.subStates.length)
        (scaffoldSub subId subType subName) } }
  | .removeSub name macroId subId =>
    some { name := name, mutate := fun p => do
      let (state, put) ← findMacro p macroId
      let i ← positionOr state.subStates (·.id = subId) (subNotFound macroId subId)
      return put { state with subStates := state.subStates.eraseIdx i } }
  | .moveSub name macroId subId «to» =>
    some { name := name, mutate := fun p => do
      let (state, put) ← findMacro p macroId
      let i ← positionOr state.subStates (·.id = subId) (subNotFound macroId subId)
      return put { state with subStates := moveElement state.subStates i «to» } }
  | .setSubName name macroId subId newName =>
    some { name := name, mutate := changeSub macroId subId ({ · with name := newName }) }
  | .setSubDescription name macroId subId description =>
    some { name := name, mutate := changeSub macroId subId ({ · with
      description := description }) }
  | .enableSub name macroId subId =>
    some { name := name, mutate := changeSub macroId subId ({ · with enabled := true }) }
  | .disableSub name macroId subId =>
    some { name := name, mutate := changeSub macroId subId ({ · with enabled := false }) }
  | .setCriteria name macroId subId criteria =>
    some { name := name, mutate := fun p => do
      let (sub, put) ← findSub p macroId subId
      if sub.subStateType ≠ .checklist then
        throw (.validation ["sub-state '" ++ subId ++
          "' is not a checklist; only checklist sub-states have criteria"])
      else return put { sub with criteria := some criteria } }
  | .setVerify name macroId subId verify =>
    some { name := name, mutate := changeSub macroId subId ({ · with
      verify := if verify.isEmpty then none else some verify }) }
  | .setPrompt name macroId subId prompt =>
    some { name := name, mutate := changeInject macroId subId ({ · with prompt := prompt }) }
  | .setContext name macroId subId context =>
    some { name := name, mutate := changeInject macroId subId ({ · with context := context }) }
  | .attachSkill name macroId subId skill =>
    some {
      name := name
      asks := if editor.library.resolves .skill skill then .ok ()
        else .error (.validation ["unresolved skill '" ++ skill ++ "'"])
      mutate := changeInject macroId subId ({ · with skill := some skill }) }
  | .detachSkill name macroId subId =>
    some { name := name, mutate := changeSub macroId subId fun sub =>
      { sub with inject := sub.inject.map ({ · with skill := none }) } }
  | .attachProtocol name macroId subId «protocol» =>
    some {
      name := name
      asks := if editor.library.resolves .protocol «protocol» then .ok ()
        else .error (.validation ["unresolved protocol '" ++ «protocol» ++ "'"])
      mutate := changeInject macroId subId ({ · with «protocol» := some «protocol» }) }
  | .detachProtocol name macroId subId =>
    some { name := name, mutate := changeSub macroId subId fun sub =>
      { sub with inject := sub.inject.map ({ · with «protocol» := none }) } }
  | .attachMacroHook name macroId hookRef =>
    some (editor.hookChange name (changeMacro macroId fun state =>
      { state with hooks := state.hooks ++ [hookRef] }))
  | .detachMacroHook name macroId index =>
    some (editor.hookChange name fun p => do
      let (state, put) ← findMacro p macroId
      if index ≥ state.hooks.length then
        throw (.validation
          ["macro '" ++ macroId ++ "' has no hook at index " ++ toString index])
      else return put { state with hooks := state.hooks.eraseIdx index })
  | .attachSubHook name macroId subId hookRef =>
    some (editor.hookChange name (changeSub macroId subId fun sub =>
      { sub with hooks := sub.hooks ++ [hookRef] }))
  | .detachSubHook name macroId subId index =>
    some (editor.hookChange name fun p => do
      let (sub, put) ← findSub p macroId subId
      if index ≥ sub.hooks.length then
        throw (.validation
          ["sub-state '" ++ subId ++ "' has no hook at index " ++ toString index])
      else return put { sub with hooks := sub.hooks.eraseIdx index })

variable {editor stamp} {verb : Verb} {c : Change}

/-- **A verb that changes a profile is its change, carried through.** -/
theorem perform_change (h : editor.change verb = some c) :
    editor.perform stamp verb = some <$> editor.carry stamp c := by
  cases verb with
  | create | clone | delete | rename | preview => cases h
  | _ =>
    cases h
    rfl

theorem change_targets (h : editor.change verb = some c) : verb.targets = [c.name] := by
  cases verb with
  | create | clone | delete | rename | preview => cases h
  | _ =>
    cases h
    rfl

end ProfileEditor

/-! ## The name stays -/

/-- The change leaves the profile its name. -/
def Mutation.KeepsName (mutate : Mutation) : Prop :=
  ∀ ⦃p p'⦄, mutate p = .ok p' → p'.name = p.name

section

variable {p : ProfileYaml} {macroId subId : String}

theorem bind_eq_ok {ε α β : Type} {x : Except ε α} {f : α → Except ε β} {b : β} :
    (x >>= f) = .ok b ↔ ∃ a, x = .ok a ∧ f a = .ok b := by
  cases x with
  | ok a => exact ⟨fun h => ⟨a, rfl, h⟩, fun ⟨_, ha, h⟩ => Except.ok.inj ha ▸ h⟩
  | error e => exact ⟨nofun, fun ⟨_, ha, _⟩ => nomatch ha⟩

theorem findMacro_name {state : StateYaml} {put : StateYaml → ProfileYaml}
    (h : findMacro p macroId = .ok (state, put)) (state' : StateYaml) :
    (put state').name = p.name := by
  obtain ⟨i, -, hput⟩ := bind_eq_ok.mp h
  cases hput
  rfl

theorem findSub_name {sub : SubStateYaml} {put : SubStateYaml → ProfileYaml}
    (h : findSub p macroId subId = .ok (sub, put)) (sub' : SubStateYaml) :
    (put sub').name = p.name := by
  obtain ⟨⟨state, put'⟩, hstate, h⟩ := bind_eq_ok.mp h
  obtain ⟨i, -, hput⟩ := bind_eq_ok.mp h
  cases hput
  exact findMacro_name hstate _

theorem changeMacro_keepsName {change : StateYaml → StateYaml} :
    (changeMacro macroId change).KeepsName := by
  intro p p' h
  obtain ⟨⟨state, put⟩, hstate, hput⟩ := bind_eq_ok.mp h
  cases hput
  exact findMacro_name hstate _

theorem changeSub_keepsName {change : SubStateYaml → SubStateYaml} :
    (changeSub macroId subId change).KeepsName := by
  intro p p' h
  obtain ⟨⟨sub, put⟩, hsub, hput⟩ := bind_eq_ok.mp h
  cases hput
  exact findSub_name hsub _

end

/-- **No verb changes the name of a profile it has loaded.** -/
theorem ProfileEditor.change_keepsName {editor : ProfileEditor} {verb : Verb} {c : Change}
    (h : editor.change verb = some c) : c.mutate.KeepsName := by
  cases verb with
  | create | clone | delete | rename | preview => cases h
  | setDescription | setSettings | addMacro =>
    cases h
    intro p p' hp
    cases hp
    rfl
  | removeMacro | moveMacro =>
    cases h
    intro p p' hp
    obtain ⟨i, -, hp⟩ := bind_eq_ok.mp hp
    cases hp
    rfl
  | removeSub | moveSub =>
    cases h
    intro p p' hp
    obtain ⟨⟨state, put⟩, hstate, hp⟩ := bind_eq_ok.mp hp
    obtain ⟨i, -, hp⟩ := bind_eq_ok.mp hp
    cases hp
    exact findMacro_name hstate _
  | setCriteria =>
    cases h
    intro p p' hp
    obtain ⟨⟨sub, put⟩, hsub, hp⟩ := bind_eq_ok.mp hp
    dsimp only at hp
    split at hp
    · cases hp
    · cases hp
      exact findSub_name hsub _
  | detachMacroHook =>
    cases h
    intro p p' hp
    obtain ⟨⟨state, put⟩, hstate, hp⟩ := bind_eq_ok.mp hp
    dsimp only at hp
    split at hp
    · cases hp
    · cases hp
      exact findMacro_name hstate _
  | detachSubHook =>
    cases h
    intro p p' hp
    obtain ⟨⟨sub, put⟩, hsub, hp⟩ := bind_eq_ok.mp hp
    dsimp only at hp
    split at hp
    · cases hp
    · cases hp
      exact findSub_name hsub _
  | setMacroName | setMacroDescription | setMacroMaxIterations | setMacroLoop | enableMacro
  | disableMacro | addSub | attachMacroHook =>
    cases h
    dsimp only [hookChange]
    exact changeMacro_keepsName
  | _ =>
    cases h
    dsimp only [hookChange, changeInject]
    exact changeSub_keepsName

end ProtocolEnforcer
