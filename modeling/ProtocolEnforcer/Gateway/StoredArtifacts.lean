import ProtocolEnforcer.Artifacts.Streaming
import ProtocolEnforcer.Core.Runs
import ProtocolEnforcer.Fsm.Completions
import ProtocolEnforcer.Gateway.SessionIds

/-!
# Stored artifacts

`store_with_mime` builds the path of a blob below the session's directory and returns it
relative to the base; `verify` checks that relative path and joins it to the base again.
Both name the same file for every step id that is accepted, `.` and repeated separators
included, so a reference verifies until the bytes of its file change.
-/

namespace ProtocolEnforcer

open Effect FileTask

namespace ArtifactStore

variable {root sid stepId uuid : String} {store : ArtifactStore} {host : ArtifactIo}

/-! ## The path of a blob -/

/-- A name that a safe relative path may have. -/
structure SafeName (name : String) : Prop where
  simple : UnixPath.Simple name
  noBackslash : Text.hasChar name '\\' = false

theorem safeName_allowListed {name e : String} (h : AllowListed name)
    (hname : UnixPath.Simple (name ++ e)) (hext : '\\' ∉ e.toList) : SafeName (name ++ e) where
  simple := hname
  noBackslash := by
    rw [Text.hasChar_eq_false, String.toList_append, List.mem_append, not_or]
    exact ⟨fun hmem => absurd (h.chars _ hmem) (by decide), hext⟩

/-- A safe relative path leads down by safe names. -/
theorem exists_safeNames (h : isSafeRelativePath stepId = true) :
    UnixPath.isAbsolute stepId = false ∧ ∃ names : List String, (∀ name ∈ names, SafeName name) ∧
      (UnixPath.segments stepId).filterMap UnixPath.component = names.map .normal := by
  obtain ⟨habs, names, hnames⟩ := safe_names h
  refine ⟨habs, names, fun name hname => ?_, hnames⟩
  have hmem : Component.normal name ∈ UnixPath.components stepId := by
    rw [UnixPath.components, hnames]
    exact List.mem_append_right _ (List.mem_map_of_mem hname)
  rw [isSafeRelativePath, Bool.and_eq_true, List.all_eq_true] at h
  have hsafe := h.2 _ hmem
  simp only [Bool.and_eq_true, Bool.not_eq_true'] at hsafe
  exact ⟨UnixPath.simple_of_mem_components hmem, hsafe.1.2⟩

/-- A path of safe names is a safe relative path. -/
theorem isSafeRelativePath_names {rel : String} {names : List String}
    (hlead : UnixPath.leading rel = none) (hrel : UnixPath.components rel = names.map .normal)
    (h : ∀ name ∈ names, SafeName name) : isSafeRelativePath rel = true := by
  have habs : UnixPath.isAbsolute rel = false := by
    unfold UnixPath.leading at hlead
    split at hlead
    · cases hlead
    · next hno => exact Bool.eq_false_iff.mpr hno
  rw [isSafeRelativePath, habs, hrel, Bool.not_false, Bool.true_and, List.all_eq_true]
  intro c hc
  obtain ⟨name, hname, rfl⟩ := List.mem_map.mp hc
  have hsafe := h name hname
  have hup : name ≠ ".." := by
    rintro rfl
    exact absurd hsafe.simple.named (by decide)
  simp [hsafe.simple.ne_empty, hsafe.noBackslash, hup]

/-- The blob's path is one of safe names below the session's directory. -/
theorem components_blobFile (hsid : AllowListed sid) (huuid : AllowListed uuid)
    (hnew : new host sid root = .ok store) (h : Accepts stepId) :
    ∃ names : List String, (∀ name ∈ ".artifacts" :: sid :: names, SafeName name) ∧ names ≠ [] ∧
      UnixPath.components (store.blobFile uuid stepId) =
        UnixPath.components root ++ (".artifacts" :: sid :: names).map .normal := by
  unfold Accepts at h
  rw [not_or, not_or, Bool.not_eq_true', Bool.not_eq_false] at h
  obtain ⟨habs, names, hsafe, hnames⟩ := exists_safeNames h.2.2
  have hartifacts : UnixPath.Simple ".artifacts" := ⟨by decide, by decide⟩
  have hbin : UnixPath.Simple (uuid ++ ".bin") := huuid.simple (by decide) (by decide)
  have hself : sid ++ "" = sid := String.append_empty
  refine ⟨names ++ [uuid ++ ".bin"], ?_, by simp, components_blob hsid huuid hnew habs hnames⟩
  have hname := safeName_allowListed (e := "") hsid (hself.symm ▸ hsid.simple_self) (by decide)
  rw [hself] at hname
  rw [List.forall_mem_cons, List.forall_mem_cons, List.forall_mem_append,
    List.forall_mem_singleton]
  exact ⟨⟨hartifacts, by decide⟩, hname, hsafe, safeName_allowListed huuid hbin (by decide)⟩

/-- **The returned path** is safe, and joined to the base again it is the path that was
written. -/
theorem refFor_path {sha256 : Bytes → Bytes} {data : Bytes} {mime : String}
    (hsid : AllowListed sid) (huuid : AllowListed uuid) (hnew : new host sid root = .ok store)
    (h : Accepts stepId) :
    isSafeRelativePath (refFor sha256 store uuid stepId data mime).path = true ∧
      UnixPath.components (UnixPath.join root (refFor sha256 store uuid stepId data mime).path) =
        UnixPath.components (store.blobFile uuid stepId) := by
  obtain ⟨names, hsafe, -, hpath⟩ := components_blobFile hsid huuid hnew h
  obtain ⟨rel, hstrip, hlead, hrel⟩ := UnixPath.stripPrefix_names hpath (List.cons_ne_nil _ _)
  have hbase : store.baseRoot = root := new_baseRoot hnew
  rw [refFor, hbase, hstrip, Option.getD_some]
  refine ⟨isSafeRelativePath_names hlead hrel hsafe, ?_⟩
  rw [UnixPath.components_join, hpath, UnixPath.joined]
  split
  · next hempty =>
    rw [hrel]
    rcases hempty with habs | hnil
    · rw [UnixPath.leading, if_pos habs] at hlead
      cases hlead
    · rw [hnil, List.nil_append]
  · have hown : UnixPath.components rel = (UnixPath.segments rel).filterMap UnixPath.component := by
      rw [UnixPath.components, hlead]
      rfl
    rw [← hrel, hown]

/-! ## What is refused -/

/-- A way up, an absolute path, a backslash or a NUL. -/
def Escapes (stepId : String) : Prop :=
  ['.', '.'] ∈ UnixPath.segments stepId ∨ UnixPath.isAbsolute stepId = true ∨
    Text.hasChar stepId '\\' = true ∨ Text.hasChar stepId '\x00' = true

/-- A backslash is in a name of the path. -/
theorem exists_backslash_name (h : Text.hasChar stepId '\\' = true) :
    ∃ name, .normal name ∈ UnixPath.components stepId ∧ Text.hasChar name '\\' = true := by
  have hmem : '\\' ∈ stepId.toList := Text.hasChar_iff.mp h
  obtain ⟨seg, hseg, hc⟩ := UnixPath.exists_mem_splitOnP (p := (· == '/')) hmem (by decide)
  have hother : ∀ cs : List Char, '\\' ∉ cs → seg ≠ cs := by
    rintro cs hno rfl
    exact hno hc
  refine ⟨String.ofList seg, List.mem_append_right _ (List.mem_filterMap.mpr ⟨seg, ?_, ?_⟩), ?_⟩
  · rwa [UnixPath.segments, List.splitOn_eq_splitOnP]
  · rw [UnixPath.component, if_neg (not_or.mpr ⟨hother _ (by decide), hother _ (by decide)⟩),
      if_neg (hother _ (by decide))]
  · rwa [Text.hasChar_iff, String.toList_ofList]

theorem not_accepts_of_escapes (h : Escapes stepId) : ¬Accepts stepId := by
  unfold Accepts
  rw [not_or, not_or, Bool.not_eq_true', Bool.not_eq_false]
  rintro ⟨-, hnul, hsafe⟩
  obtain ⟨habs, names, hnames, hseg⟩ := exists_safeNames hsafe
  rcases h with hup | h | hback | h
  · have hmem : Component.parentDir ∈ (UnixPath.segments stepId).filterMap UnixPath.component :=
      List.mem_filterMap.mpr ⟨_, hup, by decide⟩
    rw [hseg] at hmem
    obtain ⟨name, -, hname⟩ := List.mem_map.mp hmem
    cases hname
  · rw [habs] at h
    cases h
  · obtain ⟨name, hmem, hname⟩ := exists_backslash_name hback
    rw [isSafeRelativePath, Bool.and_eq_true, List.all_eq_true] at hsafe
    have hno := hsafe.2 _ hmem
    simp only [Bool.and_eq_true, Bool.not_eq_true', hname] at hno
    cases hno.1.2
  · exact hnul h

end ArtifactStore

/-! ## Calls -/

/-- One call of `store_with_mime`, on a store that was opened for a session. -/
structure StoreCall where
  root : String
  sid : String
  valid : validateSessionId sid = .ok ()
  host : ArtifactIo
  store : ArtifactStore
  opened : ArtifactStore.new host sid root = .ok store
  io : BlobIo
  uuid : AllowListed io.uuid
  fault : Nat → Option FileFault
  stepId : String
  data : Bytes
  mime : String

namespace StoreCall

open ArtifactStore

variable {F H : Type} [DecidableEq F] (hasher : Sha256 H) (locate : List Component → F)
  (sha256 : Bytes → Bytes) (c : StoreCall) (d : Disk F)

/-- The path of the blob. -/
def path : List Component := UnixPath.components (c.store.blobFile c.io.uuid c.stepId)

/-- The call on a disk. -/
def run : Except ArtifactError ArtifactRef × FileProg.State F :=
  exec (effect c.fault (c.store.storeWithMimeAsync hasher locate c.io c.stepId c.data c.mime))
    { disk := d }

/-- `verify` on the call's store. -/
def verify (io : BlobIo) (fault : Nat → Option FileFault) (s : FileProg.State F)
    (artifactRef : ArtifactRef) : Except ArtifactError Bool :=
  (exec (effect fault (c.store.verifyAsync hasher locate io artifactRef)) s).1

/-- What a call with an accepted step id owes. -/
structure Owes : Prop where
  /-- The blob is below the session's directory, -/
  below : ∃ names : List String, names ≠ [] ∧
    c.path = UnixPath.components (UnixPath.join (UnixPath.join c.root ".artifacts") c.sid) ++
      names.map .normal
  /-- and is the only file that is written. -/
  elsewhere : ∀ g, g ≠ locate c.path → (c.run hasher locate d).2.disk g = d g
  served : Undisturbed c.io c.store c.stepId c.fault →
    ∃ artifactRef, (c.run hasher locate d).1 = .ok artifactRef
  written : ∀ artifactRef, (c.run hasher locate d).1 = .ok artifactRef →
    (c.run hasher locate d).2.disk (locate c.path) = some c.data ∧
      artifactRef.sizeBytes = c.data.length ∧ artifactRef.sha256 = toHex (sha256 c.data)
  named : ∀ artifactRef, (c.run hasher locate d).1 = .ok artifactRef →
    isSafeRelativePath artifactRef.path = true ∧
      UnixPath.components (UnixPath.join c.root artifactRef.path) = c.path
  verified : ∀ artifactRef, (c.run hasher locate d).1 = .ok artifactRef →
    ∀ io fault (s : FileProg.State F), c.verify hasher locate io fault s artifactRef = .ok true ↔
      ∃ bytes, s.readAnswer fault (locate c.path) = .ok bytes ∧
        toHex (sha256 bytes) = artifactRef.sha256

/-- The file name is new. -/
def Fresh : Prop := Accepts c.stepId → d (locate c.path) = none

variable {hasher locate sha256 c d}

variable (locate d) in
theorem answers (hsha : hasher.Computes sha256) (h : Accepts c.stepId) :
    (∃ artifactRef, (c.run hasher locate d).1 = .ok artifactRef ∧
        artifactRef = refFor sha256 c.store c.io.uuid c.stepId c.data c.mime ∧
        Holds d (locate c.path) c.data (c.run hasher locate d).2) ∨
      (∃ e, (c.run hasher locate d).1 = .error e ∧
        Only d (locate c.path) (c.run hasher locate d).2 ∧
        ¬Undisturbed c.io c.store c.stepId c.fault) := by
  rcases (storeWithMimeAsync_spec hsha h rfl).answers (s := { disk := d }) rfl with
    ⟨artifactRef, hrun, hpost⟩ | ⟨e, hrun, hpost⟩
  · exact Or.inl ⟨artifactRef, hrun, hpost.1.1, hpost.2⟩
  · exact Or.inr ⟨e, hrun, hpost⟩

theorem returned (hsha : hasher.Computes sha256) (h : Accepts c.stepId) {artifactRef : ArtifactRef}
    (hok : (c.run hasher locate d).1 = .ok artifactRef) :
    artifactRef = refFor sha256 c.store c.io.uuid c.stepId c.data c.mime ∧
      Holds d (locate c.path) c.data (c.run hasher locate d).2 := by
  rcases answers locate d hsha h with ⟨_, hrun, hpost⟩ | ⟨e, hrun, -⟩
  · rw [hrun] at hok
    cases hok
    exact hpost
  · rw [hrun] at hok
    cases hok

theorem run_only (hsha : hasher.Computes sha256) (h : Accepts c.stepId) :
    Only d (locate c.path) (c.run hasher locate d).2 := by
  rcases answers locate d hsha h with ⟨_, -, -, hpost⟩ | ⟨_, -, hpost, -⟩
  · exact hpost.2
  · exact hpost

/-- A reference verifies while the bytes of its blob hash to what it says. -/
theorem verify_iff (hsha : hasher.Computes sha256) (h : Accepts c.stepId) {io : BlobIo}
    {fault : Nat → Option FileFault} {s : FileProg.State F} {artifactRef : ArtifactRef}
    (href : artifactRef = refFor sha256 c.store c.io.uuid c.stepId c.data c.mime) :
    c.verify hasher locate io fault s artifactRef = .ok true ↔
      ∃ bytes, s.readAnswer fault (locate c.path) = .ok bytes ∧
        toHex (sha256 bytes) = artifactRef.sha256 := by
  obtain ⟨hsafe, hpath⟩ : isSafeRelativePath artifactRef.path = true ∧
      UnixPath.components (UnixPath.join c.root artifactRef.path) = c.path := by
    rw [href]
    exact refFor_path (validateSessionId_ok.mp c.valid) c.uuid c.opened h
  rw [← new_baseRoot c.opened] at hpath
  have hread : (diskHost locate fault s c.host).readFile
      (UnixPath.join c.store.baseRoot artifactRef.path) = s.readAnswer fault (locate c.path) :=
    congrArg (fun p => s.readAnswer fault (locate p)) hpath
  rw [verify, exec_verifyAsync hsha artifactRef c.host s]
  constructor
  · intro htrue
    obtain ⟨bytes, hbytes, hhash⟩ := verify_true htrue
    exact ⟨bytes, hread.symm.trans hbytes, hhash⟩
  · rintro ⟨bytes, hbytes, hhash⟩
    rw [verify_of_read hsafe (hread.trans hbytes), hhash, decide_eq_true rfl]

theorem owes (hsha : hasher.Computes sha256) (h : Accepts c.stepId) :
    c.Owes hasher locate sha256 d where
  below := by
    have hsid := validateSessionId_ok.mp c.valid
    obtain ⟨names, -, hne, hpath⟩ := components_blobFile hsid c.uuid c.opened h
    refine ⟨names, hne, hpath.trans ?_⟩
    rw [UnixPath.components_join, UnixPath.components_join,
      UnixPath.joined_simple _ (show UnixPath.Simple ".artifacts" from ⟨by decide, by decide⟩),
      UnixPath.joined_simple _ hsid.simple_self]
    simp
  elsewhere := run_only hsha h
  served hquiet := by
    rcases answers locate d hsha h with ⟨artifactRef, hrun, -⟩ | ⟨_, -, -, hno⟩
    · exact ⟨artifactRef, hrun⟩
    · exact absurd hquiet hno
  written _ hok := by
    obtain ⟨rfl, hholds⟩ := returned hsha h hok
    exact ⟨hholds.1, rfl, rfl⟩
  named _ hok := by
    obtain ⟨rfl, -⟩ := returned hsha h hok
    exact refFor_path (validateSessionId_ok.mp c.valid) c.uuid c.opened h
  verified _ hok io fault s := verify_iff hsha h (returned hsha h hok).1

/-- A later call with a new file name leaves a file that is there. -/
theorem run_keeps (hsha : hasher.Computes sha256) {f : F} {bytes : Bytes}
    (hfresh : c.Fresh locate d) (hd : d f = some bytes) :
    (c.run hasher locate d).2.disk f = some bytes := by
  by_cases h : Accepts c.stepId
  · refine (run_only hsha h f ?_).trans hd
    rintro rfl
    rw [hfresh h] at hd
    cases hd
  · rw [run, storeWithMimeAsync_refused h]
    exact hd

/-- A call that returned was one with an accepted step id. -/
theorem accepts_of_ok {artifactRef : ArtifactRef}
    (hok : (c.run hasher locate d).1 = .ok artifactRef) : Accepts c.stepId := by
  by_contra h
  rw [run, storeWithMimeAsync_refused h] at hok
  cases hok

variable (locate) in
/-- **A stored artifact verifies until its bytes change.** A call with an accepted step id
owes what `Owes` says; a step id that could lead out of the session's directory is refused
with nothing written; and after any calls with new file names every reference that was
returned still verifies. -/
theorem stored_artifact_verifies (hsha : hasher.Computes sha256) :
    (∀ (c : StoreCall) (d : Disk F), Accepts c.stepId → c.Owes hasher locate sha256 d) ∧
    (∀ (c : StoreCall) (d : Disk F), Escapes c.stepId →
      c.run hasher locate d = (.error (traversalError "step_id" c.stepId), { disk := d })) ∧
    ∀ (d : Disk F) (before : List StoreCall) (c : StoreCall) (after : List StoreCall),
      Runs.Along (fun d c => (run hasher locate c d).2.disk) (fun d c => c.Fresh locate d) d
        (before ++ c :: after) →
      ∀ artifactRef,
        (c.run hasher locate (before.foldl (fun d c => (run hasher locate c d).2.disk) d)).1 =
          .ok artifactRef →
        ∀ io, c.verify hasher locate io (fun _ => none)
          { disk := (before ++ c :: after).foldl (fun d c => (run hasher locate c d).2.disk) d }
          artifactRef = .ok true := by
  refine ⟨fun c d h => owes hsha h, fun c d h => ?_, ?_⟩
  · exact storeWithMimeAsync_refused (not_accepts_of_escapes h) _
  · intro d before c after hfresh artifactRef hok io
    have haccepts := accepts_of_ok hok
    obtain ⟨href, hholds⟩ := returned hsha haccepts hok
    -- the blob stays as it is while the later calls run
    have hlater := Runs.Along.invariant (I := fun d : Disk F => d (locate c.path) = some c.data)
      (fun d c' hc' hd => run_keeps hsha hc' hd) hfresh.drop.2 hholds.1
    rw [verify_iff hsha haccepts href, List.foldl_append]
    exact ⟨c.data, FileProg.State.readAnswer_some rfl hlater, by rw [href]; rfl⟩

end StoreCall

namespace Sample

/-- SHA-256 that keeps what it is fed, and hashes what `digest` does. -/
def sha256 : Sha256 Bytes := ⟨[], (· ++ ·), digest⟩

theorem sha256_computes : sha256.Computes digest := by
  have hfed : ∀ (pieces : List Bytes) (fed : Bytes),
      pieces.foldl (· ++ ·) fed = fed ++ pieces.flatten := by
    intro pieces
    induction pieces with
    | nil => exact fun fed => (List.append_nil fed).symm
    | cons piece pieces ih =>
      intro fed
      rw [List.foldl_cons, ih, List.flatten_cons, List.append_assoc]
  intro pieces
  simp only [sha256, hfed, List.nil_append]

/-- One byte stored under a composite step id, while nothing fails. -/
def storeCall (stepId : String) : StoreCall where
  root := "/srv"
  sid := "s1"
  valid := validateSessionId_ok.mpr ⟨by decide, by decide, List.all_eq_true.mp (by decide)⟩
  host := host.artifacts
  store := ⟨"/srv/.artifacts/s1", "/srv"⟩
  opened := rfl
  io := {
    createDirAll := fun _ => .ok ()
    uuid := "67e55044-10b1-426f-9247-bb680e5fe0c8"
    flush := .ok ()
    pieces := .slice
    reads := .slice }
  uuid := ⟨by decide, by decide, List.all_eq_true.mp (by decide)⟩
  fault _ := none
  stepId
  data := [1]
  mime := "text/plain"

/-- No bytes, stored next to it. -/
def nextStore : StoreCall :=
  { storeCall "plan/check" with
    io := { (storeCall "plan/check").io with uuid := "0d9a8c1e-5b7f-4c36-8a5e-2f1b3c4d5e6f" }
    uuid := ⟨by decide, by decide, List.all_eq_true.mp (by decide)⟩
    data := [] }

end Sample

namespace StoreCall

open ArtifactStore

/-- A blob under `plan/./check` on an empty disk, which verifies behind the next store too, and
a step id that would lead out. -/
theorem stored_artifact_verifies_composite :
    (Sample.storeCall "plan/./check").Owes (F := List Component) Sample.sha256 id Sample.digest
      (fun _ => none) ∧
    (Sample.storeCall "plan/../../s2").run (F := List Component) Sample.sha256 id (fun _ => none) =
      (.error (traversalError "step_id" "plan/../../s2"), { disk := fun _ => none }) ∧
    ∃ artifactRef,
      ((Sample.storeCall "plan/./check").run Sample.sha256 id fun _ => none).1 = .ok artifactRef ∧
      (Sample.storeCall "plan/./check").verify Sample.sha256 id (Sample.storeCall "").io
        (fun _ => none)
        { disk := (Sample.nextStore.run Sample.sha256 id ((Sample.storeCall "plan/./check").run
            Sample.sha256 id fun _ => none).2.disk).2.disk }
        artifactRef = .ok true := by
  have haccepts : Accepts "plan/./check" := by
    unfold Accepts
    decide
  obtain ⟨howes, hrefuses, hruns⟩ :=
    stored_artifact_verifies (F := List Component) id Sample.sha256_computes
  have hstored := howes (Sample.storeCall "plan/./check") (fun _ => none) haccepts
  obtain ⟨artifactRef, hok⟩ := hstored.served ⟨rfl, rfl, fun _ => rfl⟩
  have hrefused := hrefuses (Sample.storeCall "plan/../../s2") (fun _ => none)
    (Or.inl (by decide))
  -- the second blob has a name of its own
  have hapart : id Sample.nextStore.path ≠ id (Sample.storeCall "plan/./check").path := by
    decide +kernel
  have hfresh : Sample.nextStore.Fresh id
      ((Sample.storeCall "plan/./check").run Sample.sha256 id fun _ => none).2.disk :=
    fun _ => hstored.elsewhere _ hapart
  have hverifies := hruns (fun _ => none) [] (Sample.storeCall "plan/./check") [Sample.nextStore]
    ⟨fun _ => rfl, hfresh, trivial⟩ artifactRef hok (Sample.storeCall "").io
  rw [List.nil_append, List.foldl_cons, List.foldl_cons, List.foldl_nil] at hverifies
  exact ⟨hstored, hrefused, artifactRef, hok, hverifies⟩

end StoreCall

end ProtocolEnforcer
