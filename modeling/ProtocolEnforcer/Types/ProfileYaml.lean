import ProtocolEnforcer.Types.Profile

/-!
# Profiles as they are on disk (`crates/types/src/profile.rs`)

What an author writes and the editor loads, changes and saves: `Profile` with all its
fields. `served` forgets the texts that the engine and the strict validator do not read.
-/

namespace ProtocolEnforcer

/-- `VerifyCheck`. -/
structure VerifyYaml where
  criterion : String
  command : String
  expectExit : Int32 := 0

/-- `SubStateDef`. -/
structure SubStateYaml where
  id : String
  subStateType : SubStateType
  name : String
  description : String := ""
  enabled : Bool := true
  criteria : Option (List String) := none
  inject : Option Injection := none
  verify : Option (List VerifyYaml) := none
  approverPubkey : Option String := none
  approvalPrompt : Option String := none
  hooks : List HookRef := []

/-- `StateDef`. -/
structure StateYaml where
  stateId : String
  name : String
  description : String := ""
  systemPrompt : Option String := none
  enabled : Bool := true
  maxIterations : UInt32 := 3
  loopState : Bool := false
  icon : Option String := none
  subStates : List SubStateYaml := []
  hooks : List HookRef := []

/-- `Profile`. -/
structure ProfileYaml where
  name : String
  version : String
  description : String
  «protected» : Bool := false
  createdAt : String := ""
  clonedFrom : Option String := none
  settings : ProfileSettings := {}
  pipeline : List StateYaml
  outputContract : Option OutputContract := none

def VerifyYaml.served (check : VerifyYaml) : VerifyCheck := ⟨check.criterion⟩

def SubStateYaml.served (sub : SubStateYaml) : SubStateDef where
  id := sub.id
  subStateType := sub.subStateType
  enabled := sub.enabled
  criteria := sub.criteria
  inject := sub.inject
  verify := sub.verify.map (·.map VerifyYaml.served)
  approverPubkey := sub.approverPubkey
  approvalPrompt := sub.approvalPrompt
  hooks := sub.hooks

def StateYaml.served (state : StateYaml) : StateDef where
  stateId := state.stateId
  name := state.name
  systemPrompt := state.systemPrompt
  enabled := state.enabled
  maxIterations := state.maxIterations
  loopState := state.loopState
  subStates := state.subStates.map SubStateYaml.served
  hooks := state.hooks

/-- The profile as the engine and the strict validator read it. -/
def ProfileYaml.served (profile : ProfileYaml) : Profile where
  name := profile.name
  version := profile.version
  settings := profile.settings
  pipeline := profile.pipeline.map StateYaml.served
  outputContract := profile.outputContract

/-- `Profile::clone` with a new name; `now` is `Utc::now().to_rfc3339()`. -/
def ProfileYaml.clone (profile : ProfileYaml) (now newName : String) : ProfileYaml :=
  { profile with
    name := newName
    «protected» := false
    clonedFrom := some profile.name
    createdAt := now }

end ProtocolEnforcer
