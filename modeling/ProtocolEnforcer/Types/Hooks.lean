/-!
# Hooks (`crates/types/src/hooks.rs`)

Executable extensions that a profile attaches to its macros and sub-states. The driver
runs them; on the served path they are data.
-/

namespace ProtocolEnforcer

/-- The lifecycle point a hook is bound to. -/
inductive HookEvent where
  | preMacroEnter
  | preSubstateEnter
  | verify
  | postSubstateExit
  | postMacroExit
  | onReject
  | onLoopBack
  deriving DecidableEq, Repr

/-- The fail policy a hook event belongs to. -/
inductive HookEventClass where
  | verify
  | preDrive
  | advisory
  deriving DecidableEq, Repr

namespace HookEvent

def «class» : HookEvent → HookEventClass
  | verify => .verify
  | preMacroEnter | preSubstateEnter => .preDrive
  | postSubstateExit | postMacroExit | onReject | onLoopBack => .advisory

/-- `{:?}` of an event. -/
def debug : HookEvent → String
  | preMacroEnter => "PreMacroEnter"
  | preSubstateEnter => "PreSubstateEnter"
  | verify => "Verify"
  | postSubstateExit => "PostSubstateExit"
  | postMacroExit => "PostMacroExit"
  | onReject => "OnReject"
  | onLoopBack => "OnLoopBack"

end HookEvent

inductive HookKind where
  | validate
  | mutate
  deriving DecidableEq, Repr

/-- A hook of the hook library, or one inlined in a reference. A `BTreeMap` is the list of
its entries in the order of their keys. -/
structure HookDef where
  id : String
  version : String
  kind : HookKind
  events : List HookEvent
  command : String
  timeoutMs : UInt64 := 10000
  outputCapBytes : Nat := 1024 * 1024
  failOpen : Option Bool := none
  inputs : List (String × String) := []
  verifyCriteria : List String := []

/-- A hook attached to a macro or a sub-state. -/
structure HookRef where
  id : Option String := none
  version : Option String := none
  args : List (String × String) := []
  inline : Option HookDef := none

end ProtocolEnforcer
