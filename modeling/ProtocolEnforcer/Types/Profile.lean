import ProtocolEnforcer.Types.Hooks

/-!
# Profiles (`crates/types/src/profile.rs`, `crates/types/src/common.rs`)

The data-driven state machine a session is driven through: a pipeline of
macro-states, each a list of sub-states, both with the hooks attached to them. Names,
descriptions and icons are left out: the modelled functions read the name of a macro
and nothing else of them. JSON values are `serde_json::Value`.
-/

namespace ProtocolEnforcer

/-- `serde_json::Value`; a number is kept as its text. -/
inductive Json where
  | null
  | bool (b : Bool)
  | number (text : String)
  | string (s : String)
  | array (xs : List Json)
  | object (fields : List (String × Json))

namespace Json

/-- `Value::get` with a string key. -/
def get (j : Json) (key : String) : Option Json :=
  match j with
  | .object fields => fields.lookup key
  | _ => none

/-- `Value::as_str`. -/
def asStr : Json → Option String
  | .string s => some s
  | _ => none

/-- `Value::as_object`, as the keys of the object. -/
def objectKeys : Json → Option (List String)
  | .object fields => some (fields.map Prod.fst)
  | _ => none

/-- `Value::is_null`. -/
def isNull : Json → Bool
  | .null => true
  | _ => false

end Json

inductive SubStateType where
  | inject
  | execute
  | review
  | checklist
  | humanApproval
  deriving DecidableEq, Repr

/-- The `Display` of a sub-state type. -/
def SubStateType.display : SubStateType → String
  | .inject => "inject"
  | .execute => "execute"
  | .review => "review"
  | .checklist => "checklist"
  | .humanApproval => "human_approval"

/-- What a sub-state injects: every field optional. -/
structure Injection where
  prompt : Option String := none
  skill : Option String := none
  «protocol» : Option String := none
  context : Option String := none

/-- A driver-side check; the strict validator reads its criterion. -/
structure VerifyCheck where
  criterion : String

structure SubStateDef where
  id : String
  subStateType : SubStateType
  enabled : Bool := true
  criteria : Option (List String) := none
  inject : Option Injection := none
  verify : Option (List VerifyCheck) := none
  approverPubkey : Option String := none
  approvalPrompt : Option String := none
  hooks : List HookRef := []

instance : Inhabited SubStateDef := ⟨{ id := "", subStateType := .inject }⟩

structure StateDef where
  stateId : String
  name : String
  systemPrompt : Option String := none
  enabled : Bool := true
  maxIterations : UInt32 := 3
  loopState : Bool := false
  subStates : List SubStateDef := []
  hooks : List HookRef := []

instance : Inhabited StateDef := ⟨{ stateId := "", name := "" }⟩

/-- `sub_states[idx]`, at an index the engine has looked up before. -/
def StateDef.subAt (m : StateDef) (idx : Nat) : SubStateDef := m.subStates[idx]!

/-- The index of the first enabled `execute` sub-state, the loop-back target. -/
def StateDef.firstEnabledExecuteIndex (m : StateDef) : Option Nat :=
  m.subStates.findIdx? fun s => s.enabled && s.subStateType == .execute

structure ProfileSettings where
  oscillationDetectionThreshold : UInt32 := 3
  autoLoopOnChecklistFailure : Bool := true
  globalTimeoutSeconds : Nat := 3600
  approvalRejectionCap : UInt32 := 10

structure OutputContract where
  schema : Json
  destination : String

structure Profile where
  name : String
  version : String
  settings : ProfileSettings := {}
  pipeline : List StateDef
  outputContract : Option OutputContract := none

/-- `pipeline[idx]`, at an index the engine has looked up before. -/
def Profile.stateAt (p : Profile) (idx : Nat) : StateDef := p.pipeline[idx]!

/-- The profile the engine steps through: disabled macros removed. -/
def Profile.withEnabledMacrosOnly (p : Profile) : Profile :=
  { p with pipeline := p.pipeline.filter (·.enabled) }

end ProtocolEnforcer
