import ProtocolEnforcer.Core.Text
import ProtocolEnforcer.Core.UnixPath
import ProtocolEnforcer.Notary.Approval
import ProtocolEnforcer.Types.Profile

/-!
# The strict profile validator (`crates/manifest/src/profile_validator.rs`)

Every rule a profile has to pass before a session starts, with the texts of its
violations, and the library resolver (`crates/library/src/lib.rs`) the injection
rule asks. The JSON Schema crate is a parameter.
-/

namespace ProtocolEnforcer

/-! ## The library -/

inductive LibKind where
  | skill
  | «protocol»

def LibKind.dirName : LibKind → String
  | .skill => "skills"
  | .protocol => "protocols"

inductive LibError where
  | notFound (name : String)
  | io (message : String)

def LibError.display : LibError → String
  | .notFound name => "library entry not found: " ++ name
  | .io message => "library IO error: " ++ message

/-- Why a file could not be read. -/
inductive ReadError where
  | notFound
  | other (message : String)

/-- A library directory, and what reading its files answers. -/
structure Library where
  root : String
  readToString : String → Except ReadError String

/-- `is_safe_name`: names that could leave the library directory are refused. -/
def isSafeName (name : String) : Bool :=
  name ≠ "" && !Text.hasChar name '/' && !Text.hasChar name '\\' && !Text.hasSub name ".."

/-- `Library::resolve`. -/
def Library.resolve (lib : Library) (kind : LibKind) (name : String) :
    Except LibError String :=
  if !isSafeName name then .error (.notFound name)
  else
    match lib.readToString
        (UnixPath.join (UnixPath.join lib.root kind.dirName) (name ++ ".md")) with
    | .ok content => .ok content
    | .error .notFound => .error (.notFound name)
    | .error (.other message) => .error (.io message)

/-- Whether a reference resolves (`.is_err()` is its negation). -/
def Library.resolves (lib : Library) (kind : LibKind) (name : String) : Bool :=
  match lib.resolve kind name with
  | .ok _ => true
  | .error _ => false

/-! ## The rules -/

/-- The packages the validator calls. -/
structure Schemas where
  ed : Ed25519
  /-- `jsonschema` with Draft 7: the error of compiling a schema. -/
  schemaError : Json → Option String

section

variable (schemas : Schemas) (lib : Library)

/-- One violation, when the condition holds. -/
def violationIf (c : Bool) (text : String) : List String := if c then [text] else []

/-- The ids that a `HashSet` of the ones before them already holds. -/
def duplicates : (seen : List String) → List String → List String
  | _, [] => []
  | seen, id :: ids =>
    if id ∈ seen then id :: duplicates seen ids else duplicates (id :: seen) ids

def checkDuplicateMacroIds (profile : Profile) : List String :=
  (duplicates [] (profile.pipeline.map (·.stateId))).map fun id =>
    "duplicate macro state_id: " ++ id

def checkDuplicateSubIds (state : StateDef) : List String :=
  (duplicates [] (state.subStates.map (·.id))).map fun id =>
    "macro '" ++ state.stateId ++ "': duplicate sub-state id: " ++ id

/-- The indices of a macro's checklist sub-states. -/
def checklistIndices (state : StateDef) : List Nat :=
  state.subStates.findIdxs (·.subStateType == .checklist)

/-- Exactly one checklist, last, not disabled. -/
def checkSingleTrailingChecklist (state : StateDef) : List String :=
  match checklistIndices state with
  | [idx] =>
    violationIf (idx ≠ state.subStates.length - 1)
        ("macro '" ++ state.stateId ++ "': checklist sub-state must be last") ++
      violationIf (!(state.subStates[idx]?.any (·.enabled)))
        ("macro '" ++ state.stateId ++ "': checklist sub-state must not be disabled")
  | [] => ["macro '" ++ state.stateId ++
      "': must have exactly one checklist sub-state, found none"]
  | idxs => ["macro '" ++ state.stateId ++
      "': must have exactly one checklist sub-state, found " ++ toString idxs.length]

/-- The prefix that names the sub-state a violation is about. -/
def subLabel (state : StateDef) (sub : SubStateDef) : String :=
  "macro '" ++ state.stateId ++ "' sub-state '" ++ sub.id ++ "': "

def checkCriteria (state : StateDef) (sub : SubStateDef) : List String :=
  match sub.subStateType with
  | .checklist =>
    violationIf (!(sub.criteria.any fun c => c ≠ []))
      (subLabel state sub ++ "checklist must have non-empty criteria")
  | _ =>
    violationIf sub.criteria.isSome
      (subLabel state sub ++ "non-checklist sub-state must not have criteria")

def checkInjection (state : StateDef) (sub : SubStateDef) : List String :=
  match sub.inject with
  | none => []
  | some inject =>
    (match inject.skill with
      | none => []
      | some skill => violationIf (!lib.resolves .skill skill)
          (subLabel state sub ++ "unresolved skill '" ++ skill ++ "'")) ++
    (match inject.protocol with
      | none => []
      | some «protocol» => violationIf (!lib.resolves .protocol «protocol»)
          (subLabel state sub ++ "unresolved protocol '" ++ «protocol» ++ "'"))

/-- Every verify check targets a declared criterion. -/
def checkVerify (state : StateDef) (sub : SubStateDef) : List String :=
  match sub.verify with
  | none => []
  | some checks => checks.flatMap fun check =>
      violationIf (!((sub.criteria.getD []).contains check.criterion))
        (subLabel state sub ++ "verify check targets criterion '" ++ check.criterion ++
          "' which is not in the sub-state's criteria")

/-- An approver key on every gate and nowhere else. -/
def checkApproval (state : StateDef) (sub : SubStateDef) : List String :=
  match sub.approverPubkey, sub.subStateType == .humanApproval with
  | some key, true =>
    violationIf (!isValidApproverPubkey schemas.ed key)
      (subLabel state sub ++ "approver_pubkey is not a valid 32-byte hex Ed25519 public key")
  | none, true =>
    [subLabel state sub ++
      "human_approval sub-state requires approver_pubkey (hex Ed25519 public key)"]
  | some _, false =>
    [subLabel state sub ++ "approver_pubkey is only allowed on a human_approval sub-state" ++
      " (found on type '" ++ sub.subStateType.display ++ "')"]
  | none, false => []

def validateSub (state : StateDef) (sub : SubStateDef) : List String :=
  violationIf (Text.hasChar sub.id ':')
      (subLabel state sub ++
        "id must not contain ':' (reserved as the approval-signature field separator)") ++
    checkCriteria state sub ++ checkInjection lib state sub ++ checkVerify state sub ++
    checkApproval schemas state sub

def validateMacro (state : StateDef) : List String :=
  violationIf (Text.hasChar state.stateId ':')
      ("macro '" ++ state.stateId ++ "': state_id must not contain ':' " ++
        "(reserved as the approval-signature field separator)") ++
    if state.subStates.isEmpty then
      ["macro '" ++ state.stateId ++ "': sub_states must not be empty"]
    else
      checkDuplicateSubIds state ++ checkSingleTrailingChecklist state ++
        state.subStates.flatMap (validateSub schemas lib state)

/-- A looping macro has a loop-back target and is not the final one. -/
def checkLoopState (profile : Profile) : List String :=
  let lastMacroId := profile.pipeline.getLast?.map (·.stateId)
  profile.pipeline.flatMap fun state =>
    if !state.loopState then []
    else
      violationIf state.firstEnabledExecuteIndex.isNone
          ("macro '" ++ state.stateId ++ "': loop: true requires at least one enabled " ++
            "execute sub-state (the loop-back target), found none") ++
        violationIf (lastMacroId = some state.stateId)
          ("macro '" ++ state.stateId ++ "': loop: true is forbidden on the final " ++
            "pipeline macro (the delivery step must not cycle)")

def checkOutputContract (contract : OutputContract) : List String :=
  (match schemas.schemaError contract.schema with
    | some e => ["output_contract.schema is not a valid JSON Schema: " ++ e]
    | none => []) ++
  violationIf (!Text.hasSub contract.destination "\x7bsession_id\x7d")
    "output_contract.destination must contain \x7bsession_id\x7d" ++
  violationIf (Text.hasChar contract.destination '\x00')
    "output_contract.destination must not contain a NUL byte" ++
  violationIf (UnixPath.isAbsolute contract.destination)
    ("output_contract.destination must be a relative path, got absolute '" ++
      contract.destination ++ "'") ++
  violationIf ((UnixPath.components contract.destination).contains .parentDir)
    ("output_contract.destination must not contain a '..' path component: '" ++
      contract.destination ++ "'")

/-- All violations of a profile, in the order they are found. -/
def violations (profile : Profile) : List String :=
  violationIf profile.pipeline.isEmpty "pipeline must not be empty" ++
    checkDuplicateMacroIds profile ++
    profile.pipeline.flatMap (validateMacro schemas lib) ++
    violationIf (profile.withEnabledMacrosOnly.pipeline.isEmpty && !profile.pipeline.isEmpty)
      "at least one macro must be enabled" ++
    checkLoopState profile.withEnabledMacrosOnly ++
    match profile.outputContract with
    | some contract => checkOutputContract schemas contract
    | none => []

/-- `validate_profile`. -/
def validateProfile (profile : Profile) : Except (List String) Unit :=
  match violations schemas lib profile with
  | [] => .ok ()
  | vs => .error vs

end

end ProtocolEnforcer
