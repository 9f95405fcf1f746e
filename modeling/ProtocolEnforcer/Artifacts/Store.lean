import ProtocolEnforcer.Core.EscapeDebug
import ProtocolEnforcer.Core.UnixPath
import ProtocolEnforcer.Notary.Approval
import ProtocolEnforcer.Types.Session

/-!
# The artifact store (`crates/artifacts/src/store.rs`)

Offloaded blobs live under `<root>/.artifacts/<session>/<step>/<uuid>.bin`. What
the file system answers is an argument (`ArtifactIo`); SHA-256 is a parameter.
-/

namespace ProtocolEnforcer

/-- The file system and the UUID source, during one call. -/
structure ArtifactIo where
  /-- `create_dir_all` and the directory's permissions. -/
  createDirAll : String → Except String Unit
  uuid : String
  writeFile : String → Except String Unit
  readFile : String → Except String Bytes

structure ArtifactStore where
  root : String
  baseRoot : String

/-- `is_safe_relative_path`. -/
def isSafeRelativePath (path : String) : Bool :=
  !UnixPath.isAbsolute path && (UnixPath.components path).all fun
    | .normal seg => seg ≠ "" && !Text.hasChar seg '\\' && seg ≠ ".."
    | .curDir => true
    | _ => false

/-- `traversal_error`. -/
def traversalError (what value : String) : ArtifactError :=
  .io ("invalid " ++ what ++ ": path traversal or absolute path detected: " ++
    Text.debugQuote value)

/-- An IO answer as a result of the store. -/
def ArtifactError.ofIo {α : Type} : Except String α → Except ArtifactError α
  | .ok a => .ok a
  | .error e => .error (.io e)

/-- The steps of an artifact's path lead down. -/
theorem safe_names {stepId : String} (h : isSafeRelativePath stepId = true) :
    UnixPath.isAbsolute stepId = false ∧ ∃ names : List String,
      (UnixPath.segments stepId).filterMap UnixPath.component = names.map .normal := by
  rw [isSafeRelativePath, Bool.and_eq_true, Bool.not_eq_true', List.all_eq_true] at h
  refine ⟨h.1, UnixPath.exists_names fun hup => ?_⟩
  have hsafe := h.2 _ (List.mem_append_right _ hup)
  cases hsafe

namespace ArtifactStore

variable (sha256 : Bytes → Bytes) (io : ArtifactIo)

/-- `ArtifactStore::new`. -/
def new (sessionId root : String) : Except ArtifactError ArtifactStore := do
  let artifactRoot := UnixPath.join (UnixPath.join root ".artifacts") sessionId
  ArtifactError.ofIo (io.createDirAll artifactRoot)
  return ⟨artifactRoot, root⟩

/-- `store_with_mime`: write the bytes, read them back, and name them by a path
relative to the store's base. -/
def storeWithMime (store : ArtifactStore) (stepId : String) (data : Bytes) (mime : String) :
    Except ArtifactError ArtifactRef := do
  if stepId = "" ∨ Text.hasChar stepId '\x00' ∨ !isSafeRelativePath stepId then
    throw (traversalError "step_id" stepId)
  else
    let stepDir := UnixPath.join store.root stepId
    ArtifactError.ofIo (io.createDirAll stepDir)
    let filePath := UnixPath.join stepDir (io.uuid ++ ".bin")
    ArtifactError.ofIo (io.writeFile filePath)
    let hash := toHex (sha256 data)
    let written ← ArtifactError.ofIo (io.readFile filePath)
    let verified := toHex (sha256 written)
    if verified ≠ hash then throw (.hashMismatch hash verified)
    else return {
      path := (UnixPath.stripPrefix filePath store.baseRoot).getD filePath
      sha256 := hash, sizeBytes := data.length, mimeType := mime }

/-- The file `store_with_mime` comes to write, if it does. -/
def blobPath (store : ArtifactStore) (stepId : String) : Option String :=
  if stepId = "" ∨ Text.hasChar stepId '\x00' ∨ !isSafeRelativePath stepId then none
  else
    let stepDir := UnixPath.join store.root stepId
    match io.createDirAll stepDir with
    | .error _ => none
    | .ok () => some (UnixPath.join stepDir (io.uuid ++ ".bin"))

/-- `verify`: whether the file still hashes to what the reference says. -/
def verify (store : ArtifactStore) (artifactRef : ArtifactRef) : Except ArtifactError Bool := do
  if !isSafeRelativePath artifactRef.path then
    throw (traversalError "artifact_ref.path" artifactRef.path)
  else
    let bytes ← ArtifactError.ofIo (io.readFile (UnixPath.join store.baseRoot artifactRef.path))
    return toHex (sha256 bytes) = artifactRef.sha256

variable {sha256 io}

/-- A stored artifact is named after the file that was written. -/
theorem storeWithMime_ok {store : ArtifactStore} {stepId mime : String} {data : Bytes}
    {artifactRef : ArtifactRef}
    (h : store.storeWithMime sha256 io stepId data mime = .ok artifactRef) :
    ∃ path, store.blobPath io stepId = some path ∧ io.writeFile path = .ok () ∧
      artifactRef.path = (UnixPath.stripPrefix path store.baseRoot).getD path := by
  unfold storeWithMime at h
  unfold blobPath
  split at h
  · cases h
  rename_i hsafe
  rw [if_neg hsafe]
  dsimp only at h ⊢
  cases hdir : io.createDirAll (UnixPath.join store.root stepId) with
  | error e =>
    rw [hdir] at h
    cases h
  | ok u =>
    rw [hdir] at h
    cases hwrite : io.writeFile (UnixPath.join (UnixPath.join store.root stepId)
        (io.uuid ++ ".bin")) with
    | error e =>
      simp only [ArtifactError.ofIo, hwrite] at h
      cases h
    | ok u =>
      refine ⟨_, rfl, hwrite, ?_⟩
      simp only [ArtifactError.ofIo, hwrite] at h
      cases hread : io.readFile (UnixPath.join (UnixPath.join store.root stepId)
          (io.uuid ++ ".bin")) with
      | error e =>
        rw [hread] at h
        cases h
      | ok written =>
        rw [hread] at h
        simp only [bind, Except.bind] at h
        split at h
        · cases h
        · cases h
          rfl

/-- A store is opened below the root it is given. -/
theorem new_opened {sessionId root : String} {store : ArtifactStore}
    (h : new io sessionId root = .ok store) :
    store = ⟨UnixPath.join (UnixPath.join root ".artifacts") sessionId, root⟩ := by
  unfold new at h
  dsimp only at h
  cases hdir : io.createDirAll (UnixPath.join (UnixPath.join root ".artifacts") sessionId) with
  | error e =>
    rw [hdir] at h
    cases h
  | ok u =>
    rw [hdir] at h
    cases h
    rfl

theorem new_baseRoot {sessionId root : String} {store : ArtifactStore}
    (h : new io sessionId root = .ok store) : store.baseRoot = root := by
  rw [new_opened h]

/-- A reference that verifies carries the hash of the bytes its file holds. -/
theorem verify_true {store : ArtifactStore} {artifactRef : ArtifactRef}
    (h : store.verify sha256 io artifactRef = .ok true) :
    ∃ bytes, io.readFile (UnixPath.join store.baseRoot artifactRef.path) = .ok bytes ∧
      toHex (sha256 bytes) = artifactRef.sha256 := by
  unfold verify at h
  split at h
  · cases h
  cases hread : io.readFile (UnixPath.join store.baseRoot artifactRef.path) with
  | error e =>
    rw [hread] at h
    cases h
  | ok bytes =>
    rw [hread] at h
    exact ⟨bytes, rfl, of_decide_eq_true (Except.ok.inj h)⟩

/-- A safe reference whose file can be read is compared with the file's hash. -/
theorem verify_of_read {store : ArtifactStore} {artifactRef : ArtifactRef} {bytes : Bytes}
    (hsafe : isSafeRelativePath artifactRef.path = true)
    (hread : io.readFile (UnixPath.join store.baseRoot artifactRef.path) = .ok bytes) :
    store.verify sha256 io artifactRef =
      .ok (decide (toHex (sha256 bytes) = artifactRef.sha256)) := by
  rw [verify, hsafe, hread]
  rfl

end ArtifactStore

end ProtocolEnforcer
