import ProtocolEnforcer.Core.EscapeDebug
import ProtocolEnforcer.Manifest.Validator
import ProtocolEnforcer.Types.ProfileYaml

/-!
# The hook validator (`crates/manifest/src/hook_validator.rs`)

The rules the hooks of a profile have to pass before the editor saves one and before a
driver runs them. The served path never asks them.
-/

namespace ProtocolEnforcer

/-! ## The hook library (`crates/library/src/lib.rs`) -/

inductive HookError where
  | notFound (id : String)
  | io (message : String)
  | parse (id message : String)

/-- A library directory with the parser of its hooks. -/
structure HookLibrary extends Library where
  pathExists : String → Bool
  /-- `serde_yaml::from_str`. -/
  hookFromStr : String → Except String HookDef

/-- `Library::resolve_hook`. -/
def HookLibrary.resolveHook (lib : HookLibrary) (id : String) : Except HookError HookDef :=
  if !isSafeName id then .error (.notFound id)
  else
    let dir := UnixPath.join lib.root "hooks"
    let yamlPath := UnixPath.join dir (id ++ ".yaml")
    let ymlPath := UnixPath.join dir (id ++ ".yml")
    match lib.readToString (if lib.pathExists yamlPath then yamlPath else ymlPath) with
    | .ok content => (lib.hookFromStr content).mapError (.parse id)
    | .error .notFound => .error (.notFound id)
    | .error (.other message) => .error (.io message)

/-! ## The rules -/

section

variable (lib : HookLibrary)

/-- `resolve_effective_def`: inline, or from the library; nothing for a malformed reference. -/
def resolveEffectiveDef (href : HookRef) : Option HookDef :=
  match href.id, href.inline with
  | some id, none => (lib.resolveHook id).toOption
  | none, some inline => some inline
  | _, _ => none

/-- The keys that the verify hooks of a sub-state list in their `candidates`. -/
def collectCandidateScratchKeys (hooks : List HookRef) : List String :=
  (hooks.filter fun href => (resolveEffectiveDef lib href).any (·.events.contains .verify))
    |>.filterMap (·.args.lookup "candidates")
    |>.flatMap (fun raw => (raw.toList.splitOn ',').map String.ofList)
    |>.map trim
    |>.filter (· ≠ "")

/-- H3 and H7: a verify hook sits on a checklist and names what it attests. -/
def checkVerifyHook (loc : String) (checklistCriteria : Option (List String))
    (candidateScratchKeys : List String) (hook : HookDef) : List String :=
  if hook.events.contains .verify then
    violationIf checklistCriteria.isNone
        (loc ++ ": hook bound to the `verify` event is only allowed on a checklist " ++
          "sub-state (never a macro, never a non-checklist sub-state)") ++
      if hook.verifyCriteria.isEmpty then
        [loc ++ ": hook bound to the `verify` event must declare a non-empty " ++
          "`verify_criteria` (the criteria it attests, stripped on failure)"]
      else
        match checklistCriteria with
        | none => []
        | some criteria => hook.verifyCriteria.flatMap fun target =>
            violationIf (!criteria.contains target && !candidateScratchKeys.contains target)
              (loc ++ ": verify_criteria entry '" ++ target ++ "' is neither one of the " ++
                "checklist's declared criteria nor a scratch-key consumed by " ++
                "another hook's `candidates` allowlist on this sub-state")
  else
    violationIf (!hook.verifyCriteria.isEmpty)
      (loc ++ ": verify_criteria is only meaningful on a `verify`-bound hook " ++
        "(this hook is not bound to the `verify` event)")

/-- H5: a hook that validates is bound to pre-drive events only. -/
def checkHookKind (loc : String) (hook : HookDef) : List String :=
  match hook.kind with
  | .mutate => []
  | .validate => hook.events.flatMap fun event =>
      match event.class with
      | .verify => [loc ++ ": `validate` kind hook is forbidden on the `verify` event"]
      | .advisory => [loc ++ ": `validate` kind hook is forbidden on advisory event " ++
          event.debug ++ " (validate is only allowed on pre-drive events)"]
      | .preDrive => []

/-- H6 and H8: positive guardrails, and no absolute path in the command. -/
def checkHookCommand (loc : String) (hook : HookDef) : List String :=
  violationIf (hook.timeoutMs = 0) (loc ++ ": hook timeout_ms must be > 0") ++
    violationIf (hook.outputCapBytes = 0) (loc ++ ": hook output_cap_bytes must be > 0") ++
    violationIf ((hook.command.toList.splitOnP isWhiteSpace).any (·.head? = some '/'))
      (loc ++ ": hook `command` must not contain an absolute path (found in " ++
        Text.debugQuote hook.command ++
        ") — use a path relative to the driver's work_dir instead")

/-- H4: a library reference pins the library's version. -/
def checkVersionPin (loc id : String) (version : Option String) (hook : HookDef) :
    List String :=
  violationIf (version ≠ some hook.version)
    (loc ++ ": hook '" ++ id ++ "' version pin mismatch: ref=" ++ version.getD "None" ++
      " lib=" ++ hook.version)

/-- `validate_hook_ref`. -/
def validateHookRef (loc : String) (href : HookRef) (checklistCriteria : Option (List String))
    (candidateScratchKeys : List String) : List String :=
  let checkDef (hook : HookDef) : List String :=
    checkVerifyHook loc checklistCriteria candidateScratchKeys hook ++ checkHookKind loc hook ++
      checkHookCommand loc hook
  match href.id, href.inline with
  | some id, none =>
    match lib.resolveHook id with
    | .ok hook => checkVersionPin loc id href.version hook ++ checkDef hook
    | .error _ => [loc ++ ": unresolved hook '" ++ id ++ "'"]
  | none, some inline => checkDef inline
  | some _, some _ => [loc ++ ": hook ref must set exactly one of `id` or `inline` " ++
      "(has_id=true has_inline=true)"]
  | none, none => [loc ++ ": hook ref must set exactly one of `id` or `inline` " ++
      "(has_id=false has_inline=false)"]

/-- H-RC: with a verify hook on the sub-state, every criterion is covered by one. -/
def checkReverseCoverage (loc : String) (criteria : List String) (hooks : List HookRef) :
    List String :=
  let verifyDefs := (hooks.filterMap (resolveEffectiveDef lib)).filter
    (·.events.contains .verify)
  if verifyDefs.isEmpty then []
  else
    let covered := verifyDefs.flatMap (·.verifyCriteria)
    criteria.flatMap fun criterion => violationIf (!covered.contains criterion)
      (loc ++ ": checklist criterion '" ++ criterion ++ "' is verified " ++
        "(sub-state has ≥1 verify hook) but no verify hook's " ++
        "`verify_criteria` covers it — it would pass admit unchecked")

/-- A checklist's criteria; `none` for any other sub-state. -/
def SubStateYaml.checklistCriteria (sub : SubStateYaml) : Option (List String) :=
  if sub.subStateType = .checklist then some (sub.criteria.getD []) else none

def validateMacroHooks (state : StateYaml) : List String :=
  let macroLoc := "macro '" ++ state.stateId ++ "'"
  state.hooks.flatMap fun href => validateHookRef lib macroLoc href none []

def validateSubHooks (state : StateYaml) (sub : SubStateYaml) : List String :=
  let subLoc := "macro '" ++ state.stateId ++ "' sub-state '" ++ sub.id ++ "'"
  let candidateScratchKeys := collectCandidateScratchKeys lib sub.hooks
  (sub.hooks.flatMap fun href =>
      validateHookRef lib subLoc href sub.checklistCriteria candidateScratchKeys) ++
    match sub.checklistCriteria with
    | some criteria => checkReverseCoverage lib subLoc criteria sub.hooks
    | none => []

/-- All violations of a profile's hooks, in the order they are found. -/
def hookViolations (profile : ProfileYaml) : List String :=
  profile.pipeline.flatMap fun state =>
    validateMacroHooks lib state ++ state.subStates.flatMap (validateSubHooks lib state)

/-- `validate_hooks`. -/
def validateHooks (profile : ProfileYaml) : Except (List String) Unit :=
  match hookViolations lib profile with
  | [] => .ok ()
  | vs => .error vs

end

end ProtocolEnforcer
