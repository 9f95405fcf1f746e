import ProtocolEnforcer.Artifacts.Store
import ProtocolEnforcer.Core.FileProg

/-!
# Streaming writes and hashes (`crates/artifacts/src/store.rs`)

The store of `Artifacts.Store` as a program over files: the blob is written and hashed
piece by piece, read back and hashed again. How large the pieces are is up to the reader
that cuts them; the digest, the size and the file are the same for all of them.

`locate` says which file a path names; nothing here depends on what it says.
-/

namespace ProtocolEnforcer

open Effect FileTask FileWrite

/-- `sha2::Sha256`. -/
structure Sha256 (H : Type) where
  new : H
  update : H → Bytes → H
  finalize : H → Bytes

/-- The digest is that of all the bytes that were fed. -/
def Sha256.Computes {H : Type} (hasher : Sha256 H) (sha256 : Bytes → Bytes) : Prop :=
  ∀ pieces : List Bytes,
    hasher.finalize (pieces.foldl hasher.update hasher.new) = sha256 pieces.flatten

/-- `CHUNK_SIZE`, and the size of the buffers that `verify` reads into. -/
def chunkSize : Nat := 64 * 1024

/-- How many bytes `read` puts into such a buffer, by what is left: none only at the end. -/
structure Reads where
  amount : Bytes → Nat
  left : ∀ rest, amount rest ≤ rest.length
  fits : ∀ rest, amount rest ≤ chunkSize
  goesOn : ∀ rest, rest ≠ [] → 0 < amount rest

/-- `Read for &[u8]` fills the buffer. -/
def Reads.slice : Reads where
  amount rest := min rest.length chunkSize
  left _ := Nat.min_le_left _ _
  fits _ := Nat.min_le_right _ _
  goesOn _ hne := Nat.lt_min.mpr ⟨List.length_pos_iff.mpr hne, by decide⟩

/-- What the outside answers during one call, its files apart. -/
structure BlobIo where
  /-- `create_dir_all` and the directory's permissions. -/
  createDirAll : String → Except String Unit
  uuid : String
  flush : Except String Unit
  /-- The data, as it is cut for writing. -/
  pieces : Reads
  /-- A file, as it is read for hashing. -/
  reads : Reads

namespace ArtifactStore

variable {F H : Type} (hasher : Sha256 H) (locate : List Component → F) (io : BlobIo)

/-- The loop over a file that is hashed. -/
def hashLoop (reads : Reads) (rest : Bytes) (state : H) : H :=
  if _hend : reads.amount rest = 0 then state
  else hashLoop reads (rest.drop (reads.amount rest))
    (hasher.update state (rest.take (reads.amount rest)))
termination_by rest.length
decreasing_by
  have := reads.left rest
  rw [List.length_drop]
  omega

/-- The loop of `write_file_streaming_hash`. -/
def writeLoop (file : F) (rest : Bytes) (state : H) (totalWritten : Nat) :
    FileTask F ArtifactError (H × Nat) :=
  if _hend : io.pieces.amount rest = 0 then return (state, totalWritten)
  else do
    let piece := rest.take (io.pieces.amount rest)
    FileTask.write (.append file piece) .io
    writeLoop file (rest.drop (io.pieces.amount rest)) (hasher.update state piece)
      (totalWritten + io.pieces.amount rest)
termination_by rest.length
decreasing_by
  have := io.pieces.left rest
  rw [List.length_drop]
  omega

/-- `write_file_streaming_hash`: `create_restricted` also truncates. -/
def writeFileStreamingHash (file : F) (data : Bytes) :
    FileTask F ArtifactError (String × Nat) := do
  FileTask.write (.overwrite file []) .io
  let (state, totalWritten) ← writeLoop hasher io file data hasher.new 0
  FileTask.lift (ArtifactError.ofIo io.flush)
  return (toHex (hasher.finalize state), totalWritten)

/-- `verify_hash`. -/
def verifyHash (file : F) : FileTask F ArtifactError String := do
  let bytes ← FileTask.read file .io
  return toHex (hasher.finalize (hashLoop hasher io.reads bytes hasher.new))

/-- Where `store_with_mime` puts a blob. -/
def blobFile (store : ArtifactStore) (uuid stepId : String) : String :=
  UnixPath.join (UnixPath.join store.root stepId) (uuid ++ ".bin")

/-- `store_with_mime_async`. -/
def storeWithMimeAsync (store : ArtifactStore) (stepId : String) (data : Bytes) (mime : String) :
    FileTask F ArtifactError ArtifactRef :=
  if stepId = "" ∨ Text.hasChar stepId '\x00' ∨ !isSafeRelativePath stepId then
    FileTask.lift (.error (traversalError "step_id" stepId))
  else do
    let stepDir := UnixPath.join store.root stepId
    FileTask.lift (ArtifactError.ofIo (io.createDirAll stepDir))
    let filePath := UnixPath.join stepDir (io.uuid ++ ".bin")
    let file := locate (UnixPath.components filePath)
    let (sha256, size) ← writeFileStreamingHash hasher io file data
    let verified ← verifyHash hasher io file
    if verified ≠ sha256 then FileTask.lift (.error (.hashMismatch sha256 verified))
    else return {
      path := (UnixPath.stripPrefix filePath store.baseRoot).getD filePath
      sha256, sizeBytes := size, mimeType := mime }

/-- `verify_async`. -/
def verifyAsync (store : ArtifactStore) (artifactRef : ArtifactRef) :
    FileTask F ArtifactError Bool :=
  if !isSafeRelativePath artifactRef.path then
    FileTask.lift (.error (traversalError "artifact_ref.path" artifactRef.path))
  else do
    let fullPath := UnixPath.join store.baseRoot artifactRef.path
    let bytes ← FileTask.read (locate (UnixPath.components fullPath)) .io
    let hash := toHex (hasher.finalize (hashLoop hasher io.reads bytes hasher.new))
    return hash = artifactRef.sha256

/-- `store_with_mime` gets past its checks. -/
def Accepts (stepId : String) : Prop :=
  ¬(stepId = "" ∨ Text.hasChar stepId '\x00' ∨ !isSafeRelativePath stepId)

/-- Nothing outside makes the call fail. -/
structure Undisturbed (store : ArtifactStore) (stepId : String)
    (fault : Nat → Option FileFault) : Prop where
  dir : io.createDirAll (UnixPath.join store.root stepId) = .ok ()
  flush : io.flush = .ok ()
  files : ∀ n, fault n = none

variable {hasher locate io} {store : ArtifactStore} {stepId mime : String}
  {data rest written : Bytes} {sha256 : Bytes → Bytes} {fault : Nat → Option FileFault}
  {state : H} {totalWritten : Nat} {file : F} {d : Disk F}

/-! ## The loops -/

theorem amount_eq_zero {reads : Reads} : reads.amount rest = 0 ↔ rest = [] := by
  constructor
  · intro hzero
    by_contra hne
    exact absurd (reads.goesOn rest hne) (by omega)
  · rintro rfl
    exact Nat.le_zero.mp (reads.left [])

/-- The hasher is fed what is left, in pieces. -/
theorem hashLoop_feeds (hasher : Sha256 H) (reads : Reads) (rest : Bytes) (state : H) :
    ∃ pieces : List Bytes, pieces.flatten = rest ∧
      hashLoop hasher reads rest state = pieces.foldl hasher.update state := by
  fun_induction hashLoop hasher reads rest state with
  | case1 rest state hend => exact ⟨[], (amount_eq_zero.mp hend).symm, rfl⟩
  | case2 rest state _ ih =>
    obtain ⟨pieces, hflat, hloop⟩ := ih
    refine ⟨rest.take (reads.amount rest) :: pieces, ?_, hloop⟩
    rw [List.flatten_cons, hflat, List.take_append_drop]

/-- **A file hashes to the digest of its bytes**, however it is read. -/
theorem digest_hashLoop (hsha : hasher.Computes sha256) (reads : Reads) (bytes : Bytes) :
    hasher.finalize (hashLoop hasher reads bytes hasher.new) = sha256 bytes := by
  obtain ⟨pieces, hflat, hloop⟩ := hashLoop_feeds hasher reads bytes hasher.new
  rw [hloop, hsha pieces, hflat]

/-- No file but this one is changed. -/
def Only (d : Disk F) (file : F) (s : FileProg.State F) : Prop := ∀ g, g ≠ file → s.disk g = d g

/-- No other file is changed, and this one holds these bytes. -/
def Holds (d : Disk F) (file : F) (bytes : Bytes) (s : FileProg.State F) : Prop :=
  s.disk file = some bytes ∧ Only d file s

variable [DecidableEq F]

theorem Only.wrote {s : FileProg.State F} {ws : List (FileWrite F)} (h : Only d file s)
    (hws : ∀ w ∈ ws, w.files = [file]) : Only d file (s.wrote ws) := by
  intro g hg
  refine (applyAll_other fun w hw hmem => ?_).trans (h g hg)
  rw [hws w hw, List.mem_singleton] at hmem
  exact hg hmem

/-- A write on this file only, and what is left of one that failed. -/
theorem write_only {w : FileWrite F} {bytes : Bytes} {P : FileProg.State F → Prop}
    (hfiles : w.files = [file]) (hpossible : ∀ d : Disk F, w.possible d = true)
    (only : ∀ s, P s → Only d file s)
    (holds : ∀ s, P s → (s.wrote [w]).disk file = some bytes) :
    Triple P (effect fault (FileTask.write w ArtifactError.io))
      (fun _ => Holds d file bytes) (fun s => Only d file s ∧ ∃ n, fault n ≠ none) := by
  refine write_spec (fun s hs _ => ⟨holds s hs, (only s hs).wrote ?_⟩) fun s n hs hleft =>
    ⟨(only s hs).wrote fun w' hw' => (partially_files hw').trans hfiles, s.used, fun hnone => ?_⟩
  · intro w' hw'
    rw [List.mem_singleton.mp hw', hfiles]
  · rw [hpossible] at hleft
    cases hleft hnone

/-- The loop appends what is left, and feeds it to the hasher. -/
theorem writeLoop_spec : Triple (Holds d file written)
    (effect fault (writeLoop hasher io file rest state totalWritten))
    (fun out s => (out.2 = totalWritten + rest.length ∧ ∃ pieces : List Bytes,
      pieces.flatten = rest ∧ out.1 = pieces.foldl hasher.update state) ∧
      Holds d file (written ++ rest) s)
    (fun s => Only d file s ∧ ∃ n, fault n ≠ none) := by
  induction hlen : rest.length using Nat.strong_induction_on
    generalizing rest written state totalWritten with
  | _ len ih =>
    rw [writeLoop]
    split
    · next hend =>
      obtain rfl := amount_eq_zero.mp hend
      refine .pure fun s hs => ⟨⟨by rw [← hlen]; rfl, [], rfl, rfl⟩, ?_⟩
      rwa [List.append_nil]
    · next hmore =>
      have hleft := io.pieces.left rest
      have hdrop : (rest.drop (io.pieces.amount rest)).length =
          rest.length - io.pieces.amount rest := List.length_drop
      refine bind_spec (M := fun _ => Holds d file (written ++ rest.take (io.pieces.amount rest)))
        (write_only rfl (fun _ => rfl) (fun s hs => hs.2) fun s hs => ?_) fun _ => ?_
      · show apply s.disk (.append file _) file = _
        rw [FileWrite.apply, Function.update_self, hs.1, Option.getD_some]
      · refine (ih _ (by omega) rfl).conseq (fun _ hs => hs) (fun out s hs => ?_) fun _ hs => hs
        obtain ⟨⟨htotal, pieces, hflat, hfed⟩, hholds⟩ := hs
        rw [List.append_assoc, List.take_append_drop] at hholds
        have hsize : out.2 = totalWritten + len := by
          rw [htotal]
          omega
        refine ⟨⟨hsize, rest.take (io.pieces.amount rest) :: pieces, ?_, hfed⟩, hholds⟩
        rw [List.flatten_cons, hflat, List.take_append_drop]

/-- **The file, the digest and the size are those of the data**, however it is cut. -/
theorem writeFileStreamingHash_spec (hsha : hasher.Computes sha256) :
    Triple (fun s => s.disk = d) (effect fault (writeFileStreamingHash hasher io file data))
      (fun out s => out = (toHex (sha256 data), data.length) ∧ Holds d file data s)
      (fun s => Only d file s ∧ (io.flush = .ok () → ∃ n, fault n ≠ none)) := by
  refine bind_spec (M := fun _ => Holds d file []) ?_ fun _ => ?_
  · refine (write_only rfl (fun _ => rfl) ?_ fun s hs => ?_).conseq (fun _ hs => hs)
      (fun _ _ hs => hs) fun s hs => ⟨hs.1, fun _ => hs.2⟩
    · exact fun s hs g _ => congrFun hs g
    · exact Function.update_self ..
  refine bind_spec (writeLoop_spec.conseq (fun _ hs => hs) (fun _ _ hs => hs)
    fun s hs => ⟨hs.1, fun _ => hs.2⟩) ?_
  rintro ⟨state, totalWritten⟩
  refine .of_fact ?_
  rintro ⟨rfl, pieces, hflat, rfl⟩
  refine bind_lift (fun _ _ => ?_) fun e herror s hs => ⟨hs.2, fun hflush => ?_⟩
  · refine .pure fun s hs => ⟨?_, hs⟩
    rw [hsha pieces, hflat, Nat.zero_add]
  · rw [hflush] at herror
    cases herror

/-! ## The calls -/

/-- A refused step id is answered at once. -/
theorem storeWithMimeAsync_refused (h : ¬Accepts stepId) (s : FileProg.State F) :
    exec (effect fault (store.storeWithMimeAsync hasher locate io stepId data mime)) s =
      (.error (traversalError "step_id" stepId), s) := by
  rw [storeWithMimeAsync, if_pos (Classical.not_not.mp h), effect_lift, exec_lift]

/-- The reference that a store of `data` returns. -/
def refFor (sha256 : Bytes → Bytes) (store : ArtifactStore) (uuid stepId : String) (data : Bytes)
    (mime : String) : ArtifactRef where
  path := (UnixPath.stripPrefix (store.blobFile uuid stepId) store.baseRoot).getD
    (store.blobFile uuid stepId)
  sha256 := toHex (sha256 data)
  sizeBytes := data.length
  mimeType := mime

/-- **A store** writes the data to the blob's file and no other, and fails only when the
outside does. -/
theorem storeWithMimeAsync_spec (hsha : hasher.Computes sha256) (h : Accepts stepId)
    (hfile : file = locate (UnixPath.components (store.blobFile io.uuid stepId))) :
    Triple (fun s => s.disk = d)
      (effect fault (store.storeWithMimeAsync hasher locate io stepId data mime))
      (fun ref s => (ref = refFor sha256 store io.uuid stepId data mime ∧
        io.createDirAll (UnixPath.join store.root stepId) = .ok ()) ∧ Holds d file data s)
      (fun s => Only d file s ∧ ¬Undisturbed io store stepId fault) := by
  subst hfile
  rw [storeWithMimeAsync, if_neg h]
  refine bind_lift (fun _ hdir => ?_) fun e herror s hs => ⟨?_, fun hquiet => ?_⟩
  rotate_left
  · exact fun g _ => congrFun hs g
  · rw [hquiet.dir] at herror
    cases herror
  have hmade : io.createDirAll (UnixPath.join store.root stepId) = .ok () := by
    cases hd : io.createDirAll (UnixPath.join store.root stepId) with
    | ok u => rfl
    | error e =>
      rw [hd] at hdir
      cases hdir
  refine bind_spec ((writeFileStreamingHash_spec hsha).conseq (fun _ hs => hs) (fun _ _ hs => hs)
    fun s hs => ⟨hs.1, fun hquiet => ?_⟩) ?_
  · obtain ⟨n, hn⟩ := hs.2 hquiet.flush
    exact hn (hquiet.files n)
  rintro ⟨hash, size⟩
  refine .of_fact ?_
  rintro ⟨⟩
  refine bind_spec (M := fun verified s => verified = toHex (sha256 data) ∧ Holds d _ data s)
    (bind_spec (M := fun bytes s => bytes = data ∧ Holds d _ data s)
      (read_spec (fun s bytes hs _ hbytes => ⟨?_, hs⟩) fun s hs hnone => ⟨hs.2, fun hquiet => ?_⟩)
      fun bytes => .of_fact fun hbytes => .pure fun s hs => ⟨?_, hs⟩) fun verified => .of_fact ?_
  · exact Option.some.inj (hbytes.symm.trans hs.1)
  · have hgone := hnone (hquiet.files _)
    rw [hs.1] at hgone
    cases hgone
  · rw [digest_hashLoop hsha, hbytes]
  rintro rfl
  rw [if_neg (not_not_intro rfl)]
  exact .pure fun s hs => ⟨⟨rfl, hmade⟩, hs⟩

/-- A host whose files read as this disk does. -/
def diskHost (locate : List Component → F) (fault : Nat → Option FileFault)
    (s : FileProg.State F) (host : ArtifactIo) : ArtifactIo :=
  { host with readFile := fun p => s.readAnswer fault (locate (UnixPath.components p)) }

/-- What `verify` answers on a disk is what the store of `Artifacts.Store` answers. -/
theorem exec_verifyAsync (hsha : hasher.Computes sha256) (artifactRef : ArtifactRef)
    (host : ArtifactIo) (s : FileProg.State F) :
    (exec (effect fault (store.verifyAsync hasher locate io artifactRef)) s).1 =
      store.verify sha256 (diskHost locate fault s host) artifactRef := by
  rw [verifyAsync, verify]
  split
  · rw [effect_lift, exec_lift]
    rfl
  · have hread : (diskHost locate fault s host).readFile
        (UnixPath.join store.baseRoot artifactRef.path) = s.readAnswer fault (locate
          (UnixPath.components (UnixPath.join store.baseRoot artifactRef.path))) := rfl
    rw [effect_bind, exec_bind, exec_read, hread]
    cases s.readAnswer fault (locate (UnixPath.components
        (UnixPath.join store.baseRoot artifactRef.path))) with
    | error e => rfl
    | ok bytes =>
      show Except.ok (decide (toHex (hasher.finalize
        (hashLoop hasher io.reads bytes hasher.new)) = artifactRef.sha256)) = _
      rw [digest_hashLoop hsha]
      rfl

/-- **What is returned here is what the store of `Artifacts.Store` returns**, where files
hold what was written to them. -/
theorem storeWithMime_refFor (h : Accepts stepId) {host : ArtifactIo}
    (hdir : host.createDirAll (UnixPath.join store.root stepId) = .ok ())
    (hwrite : host.writeFile (store.blobFile host.uuid stepId) = .ok ())
    (hread : host.readFile (store.blobFile host.uuid stepId) = .ok data) :
    store.storeWithMime sha256 host stepId data mime =
      .ok (refFor sha256 store host.uuid stepId data mime) := by
  unfold blobFile at hwrite hread
  rw [storeWithMime, if_neg h]
  simp only [hdir, hwrite, hread, ArtifactError.ofIo]
  exact if_neg (not_not_intro rfl)

end ArtifactStore

end ProtocolEnforcer
