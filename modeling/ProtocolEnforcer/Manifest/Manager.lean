import ProtocolEnforcer.Manifest.Editor

/-!
# The profile manager (`crates/manifest/src/profile_manager.rs`)

The older way to change profiles, beside the editor and over the same directory. It writes in
place and without a compare, and a verb that changes the profile in a file saves it under the
name that the profile itself gives.
-/

namespace ProtocolEnforcer

open FileTask

/-- The manager of a profiles directory, and the package it parses with. -/
structure ProfileManager where
  yaml : ProfileFormat
  profilesDir : String

/-- A manager's work: its errors are texts. -/
abbrev Manage := FileTask String String

/-- `fs::read_to_string`, its error behind some text. -/
def readToString (path context : String) : Manage String := do
  let bytes ← read path fun e => context ++ e
  lift (match fromUtf8 bytes with
    | some content => .ok content
    | none => .error (context ++ "stream did not contain valid UTF-8"))

/-- The one macro that `create_empty_profile` writes. -/
def emptyPhase : StateYaml where
  stateId := "phase1"
  name := "Phase 1"
  description := "Customize this phase"
  icon := some "1️⃣"
  subStates := [
    { id := "inject", subStateType := .inject, name := "Inject Context"
      description := "Inject relevant context" },
    { id := "execute", subStateType := .execute, name := "Execute"
      description := "Execute the work" },
    { id := "checklist", subStateType := .checklist, name := "Checklist Gate"
      description := "Validate completion", criteria := some ["item_1"] }]

namespace ProfileManager

variable (manager : ProfileManager)

def invalidName (name : String) : String := "Invalid profile name: '" ++ name ++ "'"

/-- `load_profile`. -/
def loadProfile (name : String) : Manage ProfileYaml := do
  ensure (isSafeName name) (invalidName name)
  let there ← pathExists (pathFor name)
  ensure there ("Profile '" ++ name ++ "' not found at " ++
    Text.debugPath (UnixPath.join manager.profilesDir (pathFor name)))
  let content ← readToString (pathFor name) "Failed to read profile: "
  lift ((manager.yaml.fromStr content).mapError fun e => "Failed to parse profile: " ++ e)

/-- `check_target_not_protected`. -/
def checkTargetNotProtected (name : String) : Manage Unit := do
  let there ← pathExists (pathFor name)
  onlyIf there do
    let content ← readToString (pathFor name) "Failed to read existing profile: "
    let existing ← lift ((manager.yaml.fromStr content).mapError fun e =>
      "Failed to parse existing profile: " ++ e)
    ensure (!existing.protected)
      ("Profile '" ++ name ++ "' is protected on disk and cannot be overwritten")

/-- `save_profile`. -/
def saveProfile (profile : ProfileYaml) : Manage Unit := do
  ensure (isSafeName profile.name) (invalidName profile.name)
  ensure (!profile.protected)
    ("Profile '" ++ profile.name ++ "' is protected and cannot be modified")
  manager.checkTargetNotProtected profile.name
  let content ← lift ((manager.yaml.toString profile).mapError fun e =>
    "Failed to serialize profile: " ++ e)
  write (.overwrite (pathFor profile.name) (bytesOf content)) fun e =>
    "Failed to write profile: " ++ e

/-! ## Whole profiles -/

/-- `clone_profile`; `now` is `Utc::now().to_rfc3339()`. -/
def cloneProfile (now sourceName newName : String) : Manage ProfileYaml := do
  ensure (isSafeName sourceName) (invalidName sourceName)
  ensure (isSafeName newName) (invalidName newName)
  let source ← manager.loadProfile sourceName
  let profile := { source with
    name := newName
    «protected» := false
    clonedFrom := some sourceName
    createdAt := now }
  manager.saveProfile profile
  return profile

/-- `create_empty_profile`. -/
def createEmptyProfile (now name description : String) : Manage ProfileYaml := do
  ensure (isSafeName name) (invalidName name)
  let profile : ProfileYaml :=
    { name, version := "1.0.0", description, createdAt := now, pipeline := [emptyPhase] }
  manager.saveProfile profile
  return profile

/-- `delete_profile`. -/
def deleteProfile (name : String) : Manage Unit := do
  ensure (isSafeName name) (invalidName name)
  let profile ← manager.loadProfile name
  ensure (!profile.protected) ("Profile '" ++ name ++ "' is protected and cannot be deleted")
  write (.remove (pathFor name)) fun e => "Failed to delete profile: " ++ e

/-! ## States of a profile -/

/-- What `add_state`, `remove_state` and `move_state` begin with. -/
def loadOpen (profileName : String) : Manage ProfileYaml := do
  let profile ← manager.loadProfile profileName
  ensure (!profile.protected) "Cannot modify protected profile"
  return profile

def addState (profileName : String) (state : StateYaml) (position : Option Nat) :
    Manage Unit := do
  let profile ← manager.loadOpen profileName
  let idx := min (position.getD profile.pipeline.length) profile.pipeline.length
  manager.saveProfile { profile with pipeline := profile.pipeline.insertIdx idx state }

def removeState (profileName stateId : String) : Manage StateYaml := do
  let profile ← manager.loadOpen profileName
  match profile.pipeline.findFinIdx? (·.stateId = stateId) with
  | some idx =>
    manager.saveProfile { profile with pipeline := profile.pipeline.eraseIdx idx }
    return profile.pipeline.get idx
  | none => throw ("State '" ++ stateId ++ "' not found")

def moveState (profileName : String) («from» «to» : Nat) : Manage Unit := do
  let profile ← manager.loadOpen profileName
  if h : «from» < profile.pipeline.length ∧ «to» < profile.pipeline.length then
    manager.saveProfile { profile with
      pipeline := (profile.pipeline.eraseIdx «from»).insertIdx «to»
        (profile.pipeline.get ⟨«from», h.1⟩) }
  else throw "Position out of bounds"

end ProfileManager

/-! ## Calls -/

/-- A verb of the manager with its arguments. -/
inductive ManagerVerb where
  | save (profile : ProfileYaml)
  | clone (sourceName newName : String)
  | createEmpty (name description : String)
  | delete (name : String)
  | addState (profileName : String) (state : StateYaml) (position : Option Nat)
  | removeState (profileName stateId : String)
  | moveState (profileName : String) («from» «to» : Nat)

/-- What a verb of the manager answers. -/
inductive ManagerReply where
  | done
  | profile (p : ProfileYaml)
  | state (s : StateYaml)

/-- The profile a verb is to write or remove, by the name it is called with. -/
def ManagerVerb.target : ManagerVerb → String
  | save profile => profile.name
  | clone _ newName => newName
  | createEmpty name _ | delete name | addState name .. | removeState name _ | moveState name .. =>
    name

def ProfileManager.perform (manager : ProfileManager) (now : String) :
    ManagerVerb → Manage ManagerReply
  | .save profile => (fun _ => .done) <$> manager.saveProfile profile
  | .clone sourceName newName => .profile <$> manager.cloneProfile now sourceName newName
  | .createEmpty name description => .profile <$> manager.createEmptyProfile now name description
  | .delete name => (fun _ => .done) <$> manager.deleteProfile name
  | .addState profileName state position =>
    (fun _ => .done) <$> manager.addState profileName state position
  | .removeState profileName stateId => .state <$> manager.removeState profileName stateId
  | .moveState profileName «from» «to» =>
    (fun _ => .done) <$> manager.moveState profileName «from» «to»

end ProtocolEnforcer
