import ProtocolEnforcer.Manifest.Editor

/-!
# The editor's verbs (`macro_ops.rs`, `sub_ops.rs`, `injection_ops.rs`, `hook_ops.rs`)

The changes that the verbs make to a loaded profile, the verbs, and all of them as one
type of calls.
-/

namespace ProtocolEnforcer

open FileTask

/-! ## Finding macros and sub-states -/

def macroNotFound (macroId : String) : EditError :=
  .validation ["macro '" ++ macroId ++ "' not found"]

def subNotFound (macroId subId : String) : EditError :=
  .validation ["sub-state '" ++ subId ++ "' not found in macro '" ++ macroId ++ "'"]

/-- The position of the first element with a property. -/
def positionOr {α : Type} (xs : List α) (p : α → Bool) (e : EditError) :
    Except EditError (Fin xs.length) :=
  match xs.findFinIdx? p with
  | some i => .ok i
  | none => .error e

/-- `find_macro`: the macro, and the profile with another in its place. -/
def findMacro (p : ProfileYaml) (macroId : String) :
    Except EditError (StateYaml × (StateYaml → ProfileYaml)) := do
  let i ← positionOr p.pipeline (·.stateId = macroId) (macroNotFound macroId)
  return (p.pipeline.get i, fun state => { p with pipeline := p.pipeline.set i state })

/-- `find_sub`: the sub-state, and the profile with another in its place. -/
def findSub (p : ProfileYaml) (macroId subId : String) :
    Except EditError (SubStateYaml × (SubStateYaml → ProfileYaml)) := do
  let (state, put) ← findMacro p macroId
  let i ← positionOr state.subStates (·.id = subId) (subNotFound macroId subId)
  return (state.subStates.get i,
    fun sub => put { state with subStates := state.subStates.set i sub })

/-- `Vec::remove` and `Vec::insert` of the same element. -/
def moveElement {α : Type} (xs : List α) (from' : Fin xs.length) («to» : Nat) : List α :=
  (xs.eraseIdx from').insertIdx (min «to» (xs.length - 1)) (xs.get from')

/-- A change of one macro. -/
def changeMacro (macroId : String) (change : StateYaml → StateYaml) : Mutation := fun p => do
  let (state, put) ← findMacro p macroId
  return put (change state)

/-- A change of one sub-state. -/
def changeSub (macroId subId : String) (change : SubStateYaml → SubStateYaml) : Mutation :=
  fun p => do
    let (sub, put) ← findSub p macroId subId
    return put (change sub)

/-- A change of what a sub-state injects, from the empty injection if there is none. -/
def changeInject (macroId subId : String) (change : Injection → Injection) : Mutation :=
  changeSub macroId subId fun sub => { sub with inject := some (change (sub.inject.getD {})) }

/-- `apply_settings`. -/
def applySettings (settings : ProfileSettings) (oscillationDetectionThreshold : Option UInt32)
    (autoLoopOnChecklistFailure : Option Bool) (globalTimeoutSeconds : Option Nat) :
    ProfileSettings :=
  { settings with
    oscillationDetectionThreshold :=
      oscillationDetectionThreshold.getD settings.oscillationDetectionThreshold
    autoLoopOnChecklistFailure :=
      autoLoopOnChecklistFailure.getD settings.autoLoopOnChecklistFailure
    globalTimeoutSeconds := globalTimeoutSeconds.getD settings.globalTimeoutSeconds }

namespace ProfileEditor

variable (editor : ProfileEditor) (stamp : EditStamp) (name : String)

/-! ## Profile -/

def setDescription (description : String) : Edit ProfileYaml :=
  editor.apply stamp name fun p => .ok { p with description := description }

def setSettings (oscillationDetectionThreshold : Option UInt32)
    (autoLoopOnChecklistFailure : Option Bool) (globalTimeoutSeconds : Option Nat) :
    Edit ProfileYaml :=
  editor.apply stamp name fun p => .ok { p with
    settings := applySettings p.settings oscillationDetectionThreshold
      autoLoopOnChecklistFailure globalTimeoutSeconds }

/-! ## Macros -/

section

variable (macroId : String)

def addMacro (stateId macroName : String) (position : Option Nat) : Edit ProfileYaml :=
  editor.apply stamp name fun p => .ok { p with
    pipeline := p.pipeline.insertIdx
      (min (position.getD p.pipeline.length) p.pipeline.length)
      (scaffoldMacro stateId macroName) }

def removeMacro : Edit ProfileYaml :=
  editor.apply stamp name fun p => do
    let i ← positionOr p.pipeline (·.stateId = macroId) (macroNotFound macroId)
    return { p with pipeline := p.pipeline.eraseIdx i }

def moveMacro («to» : Nat) : Edit ProfileYaml :=
  editor.apply stamp name fun p => do
    let i ← positionOr p.pipeline (·.stateId = macroId) (macroNotFound macroId)
    return { p with pipeline := moveElement p.pipeline i «to» }

def setMacroName (newName : String) : Edit ProfileYaml :=
  editor.apply stamp name (changeMacro macroId ({ · with name := newName }))

def setMacroDescription (description : String) : Edit ProfileYaml :=
  editor.apply stamp name (changeMacro macroId ({ · with description := description }))

def setMacroMaxIterations (maxIterations : UInt32) : Edit ProfileYaml :=
  editor.apply stamp name (changeMacro macroId ({ · with maxIterations := maxIterations }))

def setMacroLoop (loopState : Bool) : Edit ProfileYaml :=
  editor.apply stamp name (changeMacro macroId ({ · with loopState := loopState }))

def setMacroEnabled (enabled : Bool) : Edit ProfileYaml :=
  editor.apply stamp name (changeMacro macroId ({ · with enabled := enabled }))

def enableMacro : Edit ProfileYaml := editor.setMacroEnabled stamp name macroId true

def disableMacro : Edit ProfileYaml := editor.setMacroEnabled stamp name macroId false

end

/-! ## Sub-states -/

section

variable (macroId subId : String)

/-- Where a new sub-state goes by default: a checklist last, any other before the first
checklist. -/
def defaultPosition (state : StateYaml) (subType : SubStateType) : Nat :=
  if subType = .checklist then state.subStates.length
  else (state.subStates.findIdx? (·.subStateType = .checklist)).getD state.subStates.length

def addSub (subType : SubStateType) (subName : String) (position : Option Nat) :
    Edit ProfileYaml :=
  editor.apply stamp name (changeMacro macroId fun state => { state with
    subStates := state.subStates.insertIdx
      (min (position.getD (defaultPosition state subType)) state.subStates.length)
      (scaffoldSub subId subType subName) })

def removeSub : Edit ProfileYaml :=
  editor.apply stamp name fun p => do
    let (state, put) ← findMacro p macroId
    let i ← positionOr state.subStates (·.id = subId) (subNotFound macroId subId)
    return put { state with subStates := state.subStates.eraseIdx i }

def moveSub («to» : Nat) : Edit ProfileYaml :=
  editor.apply stamp name fun p => do
    let (state, put) ← findMacro p macroId
    let i ← positionOr state.subStates (·.id = subId) (subNotFound macroId subId)
    return put { state with subStates := moveElement state.subStates i «to» }

def setSubName (newName : String) : Edit ProfileYaml :=
  editor.apply stamp name (changeSub macroId subId ({ · with name := newName }))

def setSubDescription (description : String) : Edit ProfileYaml :=
  editor.apply stamp name (changeSub macroId subId ({ · with description := description }))

def setSubEnabled (enabled : Bool) : Edit ProfileYaml :=
  editor.apply stamp name (changeSub macroId subId ({ · with enabled := enabled }))

def enableSub : Edit ProfileYaml := editor.setSubEnabled stamp name macroId subId true

def disableSub : Edit ProfileYaml := editor.setSubEnabled stamp name macroId subId false

def setCriteria (criteria : List String) : Edit ProfileYaml :=
  editor.apply stamp name fun p => do
    let (sub, put) ← findSub p macroId subId
    if sub.subStateType ≠ .checklist then
      throw (.validation ["sub-state '" ++ subId ++
        "' is not a checklist; only checklist sub-states have criteria"])
    else return put { sub with criteria := some criteria }

def setVerify (verify : List VerifyYaml) : Edit ProfileYaml :=
  editor.apply stamp name (changeSub macroId subId
    ({ · with verify := if verify.isEmpty then none else some verify }))

/-! ## Injections -/

def setPrompt (prompt : Option String) : Edit ProfileYaml :=
  editor.apply stamp name (changeInject macroId subId ({ · with prompt := prompt }))

def setContext (context : Option String) : Edit ProfileYaml :=
  editor.apply stamp name (changeInject macroId subId ({ · with context := context }))

def attachSkill (skill : String) : Edit ProfileYaml := do
  ensure (editor.library.resolves .skill skill)
    (.validation ["unresolved skill '" ++ skill ++ "'"])
  editor.apply stamp name (changeInject macroId subId ({ · with skill := some skill }))

def detachSkill : Edit ProfileYaml :=
  editor.apply stamp name (changeSub macroId subId fun sub =>
    { sub with inject := sub.inject.map ({ · with skill := none }) })

def attachProtocol («protocol» : String) : Edit ProfileYaml := do
  ensure (editor.library.resolves .protocol «protocol»)
    (.validation ["unresolved protocol '" ++ «protocol» ++ "'"])
  editor.apply stamp name (changeInject macroId subId ({ · with «protocol» := some «protocol» }))

def detachProtocol : Edit ProfileYaml :=
  editor.apply stamp name (changeSub macroId subId fun sub =>
    { sub with inject := sub.inject.map ({ · with «protocol» := none }) })

/-! ## Hooks -/

def attachMacroHook (hookRef : HookRef) : Edit ProfileYaml :=
  editor.editWithHookValidation stamp name (changeMacro macroId fun state =>
    { state with hooks := state.hooks ++ [hookRef] })

def detachMacroHook (index : Nat) : Edit ProfileYaml :=
  editor.editWithHookValidation stamp name fun p => do
    let (state, put) ← findMacro p macroId
    if index ≥ state.hooks.length then
      throw (.validation ["macro '" ++ macroId ++ "' has no hook at index " ++ toString index])
    else return put { state with hooks := state.hooks.eraseIdx index }

def attachSubHook (hookRef : HookRef) : Edit ProfileYaml :=
  editor.editWithHookValidation stamp name (changeSub macroId subId fun sub =>
    { sub with hooks := sub.hooks ++ [hookRef] })

def detachSubHook (index : Nat) : Edit ProfileYaml :=
  editor.editWithHookValidation stamp name fun p => do
    let (sub, put) ← findSub p macroId subId
    if index ≥ sub.hooks.length then
      throw (.validation
        ["sub-state '" ++ subId ++ "' has no hook at index " ++ toString index])
    else return put { sub with hooks := sub.hooks.eraseIdx index }

end

end ProfileEditor

/-! ## Calls -/

/-- A verb with its arguments. -/
inductive Verb where
  | create (name description : String) (force : Bool)
  | clone (source newName : String) (force : Bool)
  | delete (name : String)
  | rename (name newName : String) (force : Bool)
  | preview (name : String) (mutate : Mutation)
  | setDescription (name description : String)
  | setSettings (name : String) (oscillationDetectionThreshold : Option UInt32)
      (autoLoopOnChecklistFailure : Option Bool) (globalTimeoutSeconds : Option Nat)
  | addMacro (name stateId macroName : String) (position : Option Nat)
  | removeMacro (name macroId : String)
  | moveMacro (name macroId : String) («to» : Nat)
  | setMacroName (name macroId newName : String)
  | setMacroDescription (name macroId description : String)
  | setMacroMaxIterations (name macroId : String) (maxIterations : UInt32)
  | setMacroLoop (name macroId : String) (loopState : Bool)
  | enableMacro (name macroId : String)
  | disableMacro (name macroId : String)
  | addSub (name macroId subId : String) (subType : SubStateType) (subName : String)
      (position : Option Nat)
  | removeSub (name macroId subId : String)
  | moveSub (name macroId subId : String) («to» : Nat)
  | setSubName (name macroId subId newName : String)
  | setSubDescription (name macroId subId description : String)
  | enableSub (name macroId subId : String)
  | disableSub (name macroId subId : String)
  | setCriteria (name macroId subId : String) (criteria : List String)
  | setVerify (name macroId subId : String) (verify : List VerifyYaml)
  | setPrompt (name macroId subId : String) (prompt : Option String)
  | setContext (name macroId subId : String) (context : Option String)
  | attachSkill (name macroId subId skill : String)
  | detachSkill (name macroId subId : String)
  | attachProtocol (name macroId subId «protocol» : String)
  | detachProtocol (name macroId subId : String)
  | attachMacroHook (name macroId : String) (hookRef : HookRef)
  | detachMacroHook (name macroId : String) (index : Nat)
  | attachSubHook (name macroId subId : String) (hookRef : HookRef)
  | detachSubHook (name macroId subId : String) (index : Nat)

/-- The profiles a verb is to write or remove. -/
def Verb.targets : Verb → List String
  | preview _ _ => []
  | clone _ newName _ => [newName]
  | rename name newName _ => [name, newName]
  | create name .. | delete name | setDescription name _ | setSettings name ..
  | addMacro name .. | removeMacro name _ | moveMacro name .. | setMacroName name ..
  | setMacroDescription name .. | setMacroMaxIterations name .. | setMacroLoop name ..
  | enableMacro name _ | disableMacro name _ | addSub name .. | removeSub name ..
  | moveSub name .. | setSubName name .. | setSubDescription name .. | enableSub name ..
  | disableSub name .. | setCriteria name .. | setVerify name .. | setPrompt name ..
  | setContext name .. | attachSkill name .. | detachSkill name .. | attachProtocol name ..
  | detachProtocol name .. | attachMacroHook name .. | detachMacroHook name ..
  | attachSubHook name .. | detachSubHook name .. => [name]

/-- What an editor does for a verb; nothing but success comes back from `delete`. -/
def ProfileEditor.perform (editor : ProfileEditor) (stamp : EditStamp) :
    Verb → Edit (Option ProfileYaml)
  | .create name description force => some <$> editor.create stamp name description force
  | .clone source newName force => some <$> editor.clone stamp source newName force
  | .delete name => (fun _ => none) <$> editor.delete name
  | .rename name newName force => some <$> editor.rename stamp name newName force
  | .preview name mutate => some <$> editor.preview stamp name mutate
  | .setDescription name description => some <$> editor.setDescription stamp name description
  | .setSettings name threshold autoLoop timeout =>
    some <$> editor.setSettings stamp name threshold autoLoop timeout
  | .addMacro name stateId macroName position =>
    some <$> editor.addMacro stamp name stateId macroName position
  | .removeMacro name macroId => some <$> editor.removeMacro stamp name macroId
  | .moveMacro name macroId «to» => some <$> editor.moveMacro stamp name macroId «to»
  | .setMacroName name macroId newName => some <$> editor.setMacroName stamp name macroId newName
  | .setMacroDescription name macroId description =>
    some <$> editor.setMacroDescription stamp name macroId description
  | .setMacroMaxIterations name macroId maxIterations =>
    some <$> editor.setMacroMaxIterations stamp name macroId maxIterations
  | .setMacroLoop name macroId loopState =>
    some <$> editor.setMacroLoop stamp name macroId loopState
  | .enableMacro name macroId => some <$> editor.enableMacro stamp name macroId
  | .disableMacro name macroId => some <$> editor.disableMacro stamp name macroId
  | .addSub name macroId subId subType subName position =>
    some <$> editor.addSub stamp name macroId subId subType subName position
  | .removeSub name macroId subId => some <$> editor.removeSub stamp name macroId subId
  | .moveSub name macroId subId «to» => some <$> editor.moveSub stamp name macroId subId «to»
  | .setSubName name macroId subId newName =>
    some <$> editor.setSubName stamp name macroId subId newName
  | .setSubDescription name macroId subId description =>
    some <$> editor.setSubDescription stamp name macroId subId description
  | .enableSub name macroId subId => some <$> editor.enableSub stamp name macroId subId
  | .disableSub name macroId subId => some <$> editor.disableSub stamp name macroId subId
  | .setCriteria name macroId subId criteria =>
    some <$> editor.setCriteria stamp name macroId subId criteria
  | .setVerify name macroId subId verify =>
    some <$> editor.setVerify stamp name macroId subId verify
  | .setPrompt name macroId subId prompt =>
    some <$> editor.setPrompt stamp name macroId subId prompt
  | .setContext name macroId subId context =>
    some <$> editor.setContext stamp name macroId subId context
  | .attachSkill name macroId subId skill =>
    some <$> editor.attachSkill stamp name macroId subId skill
  | .detachSkill name macroId subId => some <$> editor.detachSkill stamp name macroId subId
  | .attachProtocol name macroId subId «protocol» =>
    some <$> editor.attachProtocol stamp name macroId subId «protocol»
  | .detachProtocol name macroId subId => some <$> editor.detachProtocol stamp name macroId subId
  | .attachMacroHook name macroId hookRef =>
    some <$> editor.attachMacroHook stamp name macroId hookRef
  | .detachMacroHook name macroId index =>
    some <$> editor.detachMacroHook stamp name macroId index
  | .attachSubHook name macroId subId hookRef =>
    some <$> editor.attachSubHook stamp name macroId subId hookRef
  | .detachSubHook name macroId subId index =>
    some <$> editor.detachSubHook stamp name macroId subId index

/-- One call: a verb, what the library holds by then, the clock, and which of its file
operations fail. -/
structure EditorCall where
  verb : Verb
  library : HookLibrary
  stamp : EditStamp
  fault : Nat → Option FileFault

namespace ProfileEditor

variable (editor : ProfileEditor) (d : Disk String) (call : EditorCall)

/-- A call on a profiles directory: its answer, and where its run ends. -/
def serve : Except EditError (Option ProfileYaml) × FileProg.State String :=
  FileProg.exec call.fault
    (({ editor with library := call.library } : ProfileEditor).perform call.stamp call.verb).run
    { disk := d }

theorem serve_eq : editor.serve d call = Effect.exec (effect call.fault
    (({ editor with library := call.library } : ProfileEditor).perform call.stamp call.verb))
    { disk := d } := rfl

/-- The profiles directory after a call. -/
def after : Disk String := (editor.serve d call).2.disk

end ProfileEditor

end ProtocolEnforcer
