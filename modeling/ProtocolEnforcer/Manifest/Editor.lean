import ProtocolEnforcer.Core.FileProg
import ProtocolEnforcer.Manifest.HookValidator

/-!
# The profile editor (`crates/manifest/src/editor`)

Every verb of `ProfileEditor` as a program over the files of the profiles directory, in
the order in which the code makes its file operations. A file is named by its name in that
directory; `serde_yaml` is a parameter, and so is what the library holds. The verbs that
change a loaded profile differ in the change alone, and all but the hook verbs go through
`apply`.
-/

namespace ProtocolEnforcer

/-- Every error an editor verb can return. -/
inductive EditError where
  | notFound (name : String)
  | «protected» (name : String)
  | unsafeName (name : String)
  | alreadyExists (name : String)
  | validation (violations : List String)
  | conflict
  | io (message : String)
  deriving DecidableEq

/-- `serde_yaml` at `Profile`. -/
structure ProfileFormat where
  fromStr : String → Except String ProfileYaml
  toString : ProfileYaml → Except String String

/-- The editor of a profiles directory, and the packages it is built on. -/
structure ProfileEditor where
  yaml : ProfileFormat
  schemas : Schemas
  profilesDir : String
  library : HookLibrary

/-- What a call reads off the clock and the process. -/
structure EditStamp where
  /-- `Utc::now().to_rfc3339()`. -/
  now : String
  pid : Nat
  nanos : Nat

/-- An editor's work: a program over the files of the profiles directory. -/
abbrev Edit := FileTask String EditError

/-- A change of a loaded profile, the `mutate` of a verb. -/
abbrev Mutation := ProfileYaml → Except EditError ProfileYaml

/-- `path_for`. -/
def pathFor (name : String) : String := name ++ ".yaml"

/-- The temporary file that `atomic_write` puts next to its target. -/
def tmpPath (stamp : EditStamp) (fileName : String) : String :=
  "." ++ fileName ++ ".tmp-" ++ toString stamp.pid ++ "-" ++ toString stamp.nanos

/-- `atomic_write`. A path in the profiles directory has a parent and a name. -/
def atomicWrite (stamp : EditStamp) (path : String) (content : Bytes) : Edit Unit := do
  let tmp := tmpPath stamp path
  FileTask.write (.overwrite tmp content) .io
  tryCatch (FileTask.write (.rename tmp path) .io) fun e => do
    tryCatch (FileTask.write (.remove tmp) .io) fun _ => pure ()
    throw e

/-! ## Scaffolds -/

/-- `scaffold_sub`: a checklist comes with a placeholder criterion. -/
def scaffoldSub (subId : String) (subType : SubStateType) (name : String) : SubStateYaml where
  id := subId
  subStateType := subType
  name := name
  criteria := if subType = .checklist then some ["criterion_1"] else none

/-- `scaffold_macro`. -/
def scaffoldMacro (stateId name : String) : StateYaml where
  stateId := stateId
  name := name
  subStates := [scaffoldSub "checklist" .checklist "Checklist"]

/-- `scaffold_profile`. -/
def scaffoldProfile (now name description : String) : ProfileYaml where
  name := name
  version := "1.0.0"
  description := description
  createdAt := now
  pipeline := [scaffoldMacro "phase1" "Phase 1"]

/-! ## Loading and saving -/

open FileTask

/-- `ProfileManager::profile_exists`. -/
def profileExists (name : String) : Edit Bool :=
  if isSafeName name then pathExists (pathFor name) else pure false

namespace ProfileEditor

variable (editor : ProfileEditor) (stamp : EditStamp)

/-- `ProfileManager::load_profile`, with its error wrapped. -/
def loadProfile (name : String) (wrap : String → EditError) : Edit ProfileYaml := do
  ensure (isSafeName name) (wrap ("Invalid profile name: '" ++ name ++ "'"))
  let there ← pathExists (pathFor name)
  ensure there (wrap ("Profile '" ++ name ++ "' not found at " ++
    Text.debugPath (UnixPath.join editor.profilesDir (pathFor name))))
  let bytes ← read (pathFor name) fun e => wrap ("Failed to read profile: " ++ e)
  let content ← lift (match fromUtf8 bytes with
    | some content => .ok content
    | none => .error (wrap "Failed to read profile: stream did not contain valid UTF-8"))
  lift ((editor.yaml.fromStr content).mapError fun e => wrap ("Failed to parse profile: " ++ e))

/-- `load_with_bytes`: the profile, its path and the bytes it was read from. -/
def loadWithBytes (name : String) : Edit (ProfileYaml × String × Bytes) := do
  ensure (isSafeName name) (.unsafeName name)
  let there ← pathExists (pathFor name)
  ensure there (.notFound name)
  let bytes ← read (pathFor name) .io
  let profile ← lift ((editor.yaml.fromStr (fromUtf8Lossy bytes)).mapError fun e =>
    .io ("parse error: " ++ e))
  return (profile, pathFor name, bytes)

/-- `validate_profile`. -/
def validate (profile : ProfileYaml) : Edit Unit :=
  lift ((validateProfile editor.schemas editor.library.toLibrary profile.served).mapError
    .validation)

/-- `serde_yaml::to_string` and `atomic_write`. -/
def save (path : String) (profile : ProfileYaml) : Edit Unit := do
  let content ← lift ((editor.yaml.toString profile).mapError fun e =>
    .io ("serialize error: " ++ e))
  atomicWrite stamp path (bytesOf content)

/-- The compare of compare-and-swap: the file still holds what was loaded. -/
def unchanged (path : String) (originalBytes : Bytes) : Edit Unit := do
  let current ← read path .io
  ensure (current = originalBytes) .conflict

/-- `atomic_save_cas`. -/
def atomicSaveCas (path : String) (originalBytes : Bytes) (profile : ProfileYaml) :
    Edit Unit := do
  unchanged path originalBytes
  editor.save stamp path profile

/-! ## The ways to change a profile -/

/-- `edit`: what the verbs that change a profile go through. -/
def edit (name : String) (persist : Bool) (mutate : Mutation) : Edit ProfileYaml := do
  let (profile, path, originalBytes) ← editor.loadWithBytes name
  ensure (!(persist && profile.protected)) (.protected name)
  let profile ← lift (mutate profile)
  editor.validate profile
  onlyIf persist (editor.atomicSaveCas stamp path originalBytes profile)
  return profile

def apply (name : String) (mutate : Mutation) : Edit ProfileYaml :=
  editor.edit stamp name true mutate

def preview (name : String) (mutate : Mutation) : Edit ProfileYaml :=
  editor.edit stamp name false mutate

/-- `edit_with_hook_validation`. -/
def editWithHookValidation (name : String) (mutate : Mutation) : Edit ProfileYaml := do
  let (profile, path, originalBytes) ← editor.loadWithBytes name
  ensure (!profile.protected) (.protected name)
  let profile ← lift (mutate profile)
  editor.validate profile
  lift ((validateHooks editor.library profile).mapError .validation)
  editor.atomicSaveCas stamp path originalBytes profile
  return profile

/-! ## Lifecycle (`lifecycle_ops.rs`) -/

/-- What `create` and `clone` ask of a profile that is already there. -/
def checkExisting (name : String) (force : Bool) : Edit Unit := do
  let there ← profileExists name
  onlyIf there do
    ensure force (.alreadyExists name)
    let existing ← editor.loadProfile name .io
    ensure (!existing.protected) (.protected name)

def create (name description : String) (force : Bool) : Edit ProfileYaml := do
  ensure (isSafeName name) (.unsafeName name)
  editor.checkExisting name force
  let profile := scaffoldProfile stamp.now name description
  editor.validate profile
  editor.save stamp (pathFor name) profile
  return profile

def clone (source newName : String) (force : Bool) : Edit ProfileYaml := do
  ensure (isSafeName newName) (.unsafeName newName)
  let sourceProfile ← editor.loadProfile source fun _ => .notFound source
  editor.checkExisting newName force
  let cloned := sourceProfile.clone stamp.now newName
  editor.validate cloned
  editor.save stamp (pathFor newName) cloned
  return cloned

def delete (name : String) : Edit Unit := do
  let (profile, path, _) ← editor.loadWithBytes name
  ensure (!profile.protected) (.protected name)
  write (.remove path) .io

/-- `rename` looks at what the target holds for its existence only. -/
def rename (name newName : String) (force : Bool) : Edit ProfileYaml := do
  ensure (isSafeName newName) (.unsafeName newName)
  let (profile, oldPath, originalBytes) ← editor.loadWithBytes name
  ensure (!profile.protected) (.protected name)
  onlyIf (decide (name ≠ newName)) do
    let there ← profileExists newName
    ensure (!there || force) (.alreadyExists newName)
  let profile := { profile with name := newName }
  editor.validate profile
  unchanged oldPath originalBytes
  editor.save stamp (pathFor newName) profile
  onlyIf (decide (oldPath ≠ pathFor newName)) (write (.remove oldPath) .io)
  return profile

/-! ## What loading and saving do -/

section

open Effect

variable {fault : Nat → Option FileFault} {α : Type} {d : Disk String} {n : Nat}
  {Q : α → FileProg.State String → Prop} {R : FileProg.State String → Prop}

/-- What there is to load under a name. -/
structure Loads (d : Disk String) (name : String) (profile : ProfileYaml) (bytes : Bytes) :
    Prop where
  safe : isSafeName name = true
  file : d (pathFor name) = some bytes
  parsed : editor.yaml.fromStr (fromUtf8Lossy bytes) = .ok profile

variable {editor stamp} {name : String}

/-- A load reads what there is, unless the read fails. -/
theorem loadWithBytes_spec
    (fail : (fault n = none → ∀ profile bytes, ¬editor.Loads d name profile bytes) →
      ∀ m s, Clean d m s → R s) :
    Triple (Clean d n) (effect fault (editor.loadWithBytes name))
      (fun loaded s => (fault n = none ∧ loaded.2.1 = pathFor name ∧
        editor.Loads d name loaded.1 loaded.2.2) ∧ Clean d (n + 1) s) R := by
  refine bind_ensure (fun hsafe => ?_) fun hunsafe => ?_
  · refine bind_pathExists (bind_ensure (fun _ => ?_) fun habsent => ?_)
    · refine bind_read (fun bytes hfault hfile => ?_) fun hread => ?_
      · refine bind_lift (fun profile hparsed => ?_) fun e hparse => ?_
        · exact Triple.pure fun s hs =>
            ⟨⟨hfault, rfl, hsafe, hfile, mapError_eq_ok.mp hparsed⟩, hs⟩
        · refine fail (fun _ profile bytes' h => ?_) _
          rw [Option.some.inj (hfile.symm.trans h.file), h.parsed] at hparse
          cases hparse
      · refine fail (fun hfault profile bytes h => ?_) _
        cases (hread hfault).symm.trans h.file
    · refine fail (fun _ profile bytes h => ?_) _
      rw [h.file] at habsent
      cases habsent
  · refine fail (fun _ profile bytes h => ?_) _
    rw [h.safe] at hunsafe
    cases hunsafe

/-- So does the manager's load, where the file is UTF-8. -/
theorem loadProfile_spec {wrap : String → EditError} (fail : ∀ m s, Clean d m s → R s) :
    Triple (Clean d n) (effect fault (editor.loadProfile name wrap))
      (fun profile s => (∃ bytes, editor.Loads d name profile bytes) ∧ Clean d (n + 1) s) R := by
  refine bind_ensure (fun hsafe => ?_) fun _ => fail _
  refine bind_pathExists (bind_ensure (fun _ => ?_) fun _ => fail _)
  refine bind_read (fun bytes _ hfile => ?_) fun _ => fail _
  refine bind_lift (fun content hcontent => ?_) fun _ _ => fail _
  have htext : fromUtf8 bytes = some content := by
    cases hutf8 : fromUtf8 bytes with
    | some text =>
      rw [hutf8] at hcontent
      cases hcontent
      rfl
    | none =>
      rw [hutf8] at hcontent
      cases hcontent
  refine lift_spec (fun profile hparsed s hs => ⟨⟨bytes, hsafe, hfile, ?_⟩, hs⟩) fun _ _ => fail _
  rw [fromUtf8Lossy_of_fromUtf8 htext]
  exact mapError_eq_ok.mp hparsed

/-- What was loaded is still there: nothing was written since. -/
theorem unchanged_spec {path : String} {bytes : Bytes} (hfile : d path = some bytes)
    (fail : fault n ≠ none → ∀ s, Clean d (n + 1) s → R s) :
    Triple (Clean d n) (effect fault (unchanged path bytes))
      (fun _ s => fault n = none ∧ Clean d (n + 1) s) R := by
  refine bind_read (fun current hfault hcurrent => ?_) fun hread => ?_
  · obtain rfl := Option.some.inj (hfile.symm.trans hcurrent)
    exact ensure_spec (fun _ s hs => ⟨hfault, hs⟩) fun hdiffers =>
      absurd rfl (of_decide_eq_false hdiffers)
  · exact fail fun hfault => absurd (hfile.symm.trans (hread hfault)) nofun

/-- The two steps of an atomic write that happens. -/
def atomicWrites (stamp : EditStamp) (path : String) (content : Bytes) :
    List (FileWrite String) :=
  [.overwrite (tmpPath stamp path) content, .rename (tmpPath stamp path) path]

/-- What a failed atomic write leaves: its `n`-th or the next operation was made to fail,
and it has changed its temporary file at most. -/
structure AtomicWriteFailed (fault : Nat → Option FileFault) (n : Nat) (stamp : EditStamp)
    (path : String) (s : FileProg.State String) : Prop where
  writes : ∀ w ∈ s.log, w.files = [tmpPath stamp path]
  fault : fault n = none → fault (n + 1) ≠ none

/-- **An atomic write happens as a whole, or changes its temporary file alone.** -/
theorem atomicWrite_spec {path : String} {content : Bytes}
    {Q : Unit → FileProg.State String → Prop}
    (ok : ∀ s, Wrote d (atomicWrites stamp path content) (n + 2) s → fault n = none →
      fault (n + 1) = none → Q () s)
    (fail : ∀ s, AtomicWriteFailed fault n stamp path s → R s) :
    Triple (Clean d n) (effect fault (atomicWrite stamp path content)) Q R := by
  let tmp := tmpPath stamp path
  refine bind_spec (M := fun _ s => fault n = none ∧
    Wrote d [.overwrite tmp content] (n + 1) s) ?_ fun _ => .of_fact fun hfirst => ?_
  · refine write_first (fun hfault s hs => ⟨hfault, hs⟩) fun written hposs s hs => ?_
    refine fail _ ⟨fun w hw => ?_, fun hnone => absurd (hposs hnone) nofun⟩
    rw [hs] at hw
    exact FileWrite.partially_files (w := .overwrite tmp content) hw
  rw [effect_tryCatch]
  refine Triple.tryCatch (write_after (R := AtomicWriteFailed fault n stamp path)
    (fun hfault s hs => ok s hs hfirst hfault) fun written hposs s hs => ?_) fun e => ?_
  · rw [FileWrite.partially_rename, List.append_nil] at hs
    refine ⟨fun w hw => ?_, fun _ hnone => ?_⟩
    · rw [hs, List.mem_singleton] at hw
      rw [hw]
      rfl
    · -- the temporary file is there to be renamed
      have himpossible := hposs hnone
      rw [FileWrite.possible, FileWrite.applyAll, List.foldl_cons, List.foldl_nil,
        FileWrite.apply, Function.update_self] at himpossible
      cases himpossible
  · refine bind_spec (M := fun _ => AtomicWriteFailed fault n stamp path) ?_ fun _ =>
      Triple.throw fail
    rw [effect_tryCatch]
    refine Triple.tryCatch (write_spec (R := AtomicWriteFailed fault n stamp path) ?_ ?_)
      fun _ => Triple.pure fun _ hs => hs
    · refine fun s hs _ => ⟨fun w hw => ?_, hs.fault⟩
      rcases List.mem_append.mp hw with hw | hw
      · exact hs.writes w hw
      · rw [List.mem_singleton.mp hw]
        rfl
    · refine fun s written hs _ => ⟨fun w hw => ?_, hs.fault⟩
      have hw : w ∈ s.log ++ (FileWrite.remove tmp).partially written := hw
      rw [FileWrite.partially_remove, List.append_nil] at hw
      exact hs.writes w hw

end

end ProfileEditor

end ProtocolEnforcer
