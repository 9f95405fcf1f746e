import ProtocolEnforcer.Core.Terms
import ProtocolEnforcer.Manifest.Changes
import ProtocolEnforcer.Manifest.Manager
import ProtocolEnforcer.Manifest.Protected

/-!
# Protected profiles among many writers

Editors and managers work on one directory at once, with the operations of all of them in any
order and any of them failing. A profile that is protected keeps its bytes: each program loads
what it is about to replace before it writes, and what it has read of a protected file is still
so when it writes. Again a forced rename onto the profile is the one exception.
-/

namespace ProtocolEnforcer

open FileTask

/-- These bytes are a protected profile. -/
def Locks (yaml : ProfileFormat) (bytes : Bytes) : Prop :=
  ∃ profile, yaml.fromStr (fromUtf8Lossy bytes) = .ok profile ∧ profile.protected = true

section

variable {yaml : ProfileFormat} {bytes : Bytes} {locked name : String} {profile : ProfileYaml}
  {ι : Type} {i : ι}

/-- What is parsed of them is protected. -/
theorem Locks.protected (h : Locks yaml bytes)
    (hparsed : yaml.fromStr (fromUtf8Lossy bytes) = .ok profile) : profile.protected = true := by
  obtain ⟨profile', hparsed', hprotected⟩ := h
  cases hparsed.symm.trans hparsed'
  exact hprotected

/-- So an unprotected profile is of another file. -/
theorem ne_of_open (h : name = locked → profile.protected = true)
    (hopen : (!profile.protected) = true) : name ≠ locked := by
  intro heq
  rw [h heq] at hopen
  cases hopen

/-- The terms on which a file is locked: nobody writes to it. -/
def locking (ι : Type) (locked : String) (bytes : Bytes) : Terms ι String where
  inv d := d (pathFor locked) = some bytes
  may _ f := f ≠ pathFor locked
  own _ _ := False
  apart _ _ h := h

/-- The program keeps its hands off the locked file. -/
abbrev Off (i : ι) (locked : String) (bytes : Bytes) {ε α : Type} (Q : α → Prop)
    (x : FileTask String ε α) : Prop := (locking ι locked bytes).Keeps i Q x

section

variable {ε : Type} {wrap : String → ε}

theorem pathExists_off : Off i locked bytes (fun there => name = locked → there = true)
    (pathExists (pathFor name) : FileTask String ε Bool) := by
  refine .pathExists fun d hfile hname => ?_
  rw [hname, show d (pathFor locked) = some bytes from hfile]
  rfl

theorem read_off : Off i locked bytes (fun got => name = locked → got = bytes)
    (read (pathFor name) wrap) := by
  refine .read fun d got hfile hgot hname => ?_
  rw [hname] at hgot
  exact Option.some.inj (hgot.symm.trans hfile)

theorem write_off {w : FileWrite String} (h : pathFor locked ∉ w.files) :
    Off i locked bytes (fun _ => True) (write w wrap) := by
  refine .write (fun f hf heq => h (heq ▸ hf)) (fun d hfile _ => ?_) fun d written hfile => ?_
  · exact (FileWrite.apply_other h).trans hfile
  · refine (FileWrite.applyAll_other fun w' hw' => ?_).trans hfile
    rwa [FileWrite.partially_files hw']

end

/-- Text that is read as UTF-8 is the text that lossy decoding gives. -/
theorem eq_of_utf8 {ε : Type} {got : Bytes} {e : ε} {content : String}
    (h : (match fromUtf8 got with
      | some content => Except.ok content
      | none => Except.error e) = .ok content) : content = fromUtf8Lossy got := by
  split at h
  · rename_i hutf8
    cases h
    exact (fromUtf8Lossy_of_fromUtf8 hutf8).symm
  · cases h

theorem readToString_off {context : String} : Off i locked bytes
    (fun content => name = locked → content = fromUtf8Lossy bytes)
    (readToString (pathFor name) context) := by
  refine .bind read_off fun got hgot => .lift fun content hcontent hname => ?_
  obtain rfl := hgot hname
  exact eq_of_utf8 hcontent

/-! ## The editor -/

namespace ProfileEditor

variable {editor : ProfileEditor} {stamp : EditStamp}

/-- A save is on the file it names. -/
theorem save_off (hne : name ≠ locked) :
    Off i locked bytes (fun _ => True) (editor.save stamp (pathFor name) profile) := by
  have htmp : ∀ w : FileWrite String, w.files = [tmpPath stamp (pathFor name)] →
      pathFor locked ∉ w.files := fun w hw hmem =>
    pathFor_ne_tmpPath (List.mem_singleton.mp (hw ▸ hmem))
  refine .bind (.lift fun _ _ => trivial) fun content _ => ?_
  refine .bind (write_off (htmp _ rfl)) fun _ _ => .tryCatch (write_off fun hmem => ?_) fun e => ?_
  · rcases List.mem_cons.mp hmem with hmem | hmem
    · exact pathFor_ne_tmpPath hmem
    · exact hne (pathFor_injective (List.mem_singleton.mp hmem)).symm
  · exact .bind (.tryCatch (write_off (htmp _ rfl)) fun _ => .pure trivial) fun _ _ => .throw

theorem atomicSaveCas_off {changed : ProfileYaml} {originalBytes : Bytes} (hne : name ≠ locked) :
    Off i locked bytes (fun _ => True)
      (editor.atomicSaveCas stamp (pathFor name) originalBytes changed) :=
  .bind (.bind read_off fun _ _ => Terms.Keeps.ensure.conseq fun _ _ => trivial) fun _ _ =>
    save_off hne

variable (hlocks : Locks editor.yaml bytes)
include hlocks

theorem loadWithBytes_off : Off i locked bytes
    (fun loaded => loaded.2.1 = pathFor name ∧ (name = locked → loaded.1.protected = true))
    (editor.loadWithBytes name) := by
  refine .bind .ensure fun _ _ => .bind pathExists_off fun there _ => .bind .ensure fun _ _ => ?_
  refine .bind read_off fun got hgot => .bind (.lift fun profile hparsed => ?_) fun profile hprofile =>
    .pure ⟨rfl, hprofile⟩
  rintro rfl
  obtain rfl := hgot rfl
  exact hlocks.protected (mapError_eq_ok.mp hparsed)

theorem loadProfile_off {wrap : String → EditError} : Off i locked bytes
    (fun profile => name = locked → profile.protected = true) (editor.loadProfile name wrap) := by
  refine .bind .ensure fun _ _ => .bind pathExists_off fun there _ => .bind .ensure fun _ _ => ?_
  refine .bind read_off fun got hgot => ?_
  refine .bind (.lift fun content hcontent => eq_of_utf8 hcontent) fun content hcontent =>
    .lift fun profile hparsed hname => ?_
  obtain rfl := hgot hname
  rw [hcontent] at hparsed
  exact hlocks.protected (mapError_eq_ok.mp hparsed)

/-- A verb that changes a profile saves what it has found unprotected. -/
theorem carry_off {c : Change} :
    Off i locked bytes (fun _ => c.name ≠ locked) (editor.carry stamp c) := by
  refine .bind (.lift fun _ _ => trivial) fun _ _ => .bind (loadWithBytes_off hlocks) ?_
  rintro ⟨profile, path, originalBytes⟩ ⟨rfl, hprofile⟩
  refine .bind .ensure fun _ hopen => ?_
  have hne := ne_of_open hprofile hopen
  refine .bind (.lift fun _ _ => trivial) fun changed _ => .bind (.lift fun _ _ => trivial) ?_
  refine fun _ _ => .bind (.lift fun _ _ => trivial) fun _ _ => ?_
  exact .bind (atomicSaveCas_off hne) fun _ _ => .pure hne

/-- A preview writes nothing. -/
theorem preview_off {mutate : Mutation} :
    Off i locked bytes (fun _ => True) (editor.preview stamp name mutate) := by
  refine .bind (loadWithBytes_off hlocks) ?_
  rintro ⟨profile, path, originalBytes⟩ ⟨rfl, -⟩
  refine .bind .ensure fun _ _ => .bind (.lift fun _ _ => trivial) fun changed _ => ?_
  refine .bind (.lift fun _ _ => trivial) fun _ _ => ?_
  exact .bind (.pure trivial) fun _ (_ : True) => .pure trivial

/-- What `create` and `clone` are about to replace is unprotected. -/
theorem checkExisting_off {force : Bool} (hsafe : isSafeName name = true) :
    Off i locked bytes (fun _ => name ≠ locked) (editor.checkExisting name force) := by
  unfold checkExisting profileExists
  rw [if_pos hsafe]
  refine .bind pathExists_off fun there hthere => .onlyIf (fun _ => ?_) fun habsent hname => ?_
  · refine .bind .ensure fun _ _ => .bind (loadProfile_off hlocks) fun existing hexisting => ?_
    exact Terms.Keeps.ensure.conseq fun _ hopen => ne_of_open hexisting hopen
  · rw [hthere hname] at habsent
    cases habsent

theorem create_off {description : String} {force : Bool} :
    Off i locked bytes (fun _ => name ≠ locked) (editor.create stamp name description force) := by
  refine .bind .ensure fun _ hsafe => .bind (checkExisting_off hlocks hsafe) fun _ hne => ?_
  refine .bind (.lift fun _ _ => trivial) fun _ _ => ?_
  exact .bind (save_off hne) fun _ _ => .pure hne

theorem clone_off {source newName : String} {force : Bool} :
    Off i locked bytes (fun _ => newName ≠ locked) (editor.clone stamp source newName force) := by
  refine .bind .ensure fun _ hsafe => .bind (loadProfile_off hlocks) fun sourceProfile _ => ?_
  refine .bind (checkExisting_off hlocks hsafe) fun _ hne => ?_
  refine .bind (.lift fun _ _ => trivial) fun _ _ => ?_
  exact .bind (save_off hne) fun _ _ => .pure hne

theorem delete_off : Off i locked bytes (fun _ => name ≠ locked) (editor.delete name) := by
  refine .bind (loadWithBytes_off hlocks) ?_
  rintro ⟨profile, path, originalBytes⟩ ⟨rfl, hprofile⟩
  refine .bind .ensure fun _ hopen => ?_
  have hne := ne_of_open hprofile hopen
  exact Terms.Keeps.conseq (write_off fun hmem =>
    hne (pathFor_injective (List.mem_singleton.mp hmem)).symm) fun _ _ => hne

/-- A rename writes to its target unseen where it is forced, and only there. -/
theorem rename_off {newName : String} {force : Bool} (hforce : force = true → newName ≠ locked) :
    Off i locked bytes (fun _ => locked ∉ [name, newName])
      (editor.rename stamp name newName force) := by
  refine .bind .ensure fun _ hsafe => .bind (loadWithBytes_off hlocks) ?_
  rintro ⟨profile, path, originalBytes⟩ ⟨rfl, hprofile⟩
  refine .bind .ensure fun _ hopen => ?_
  have hne := ne_of_open hprofile hopen
  refine .bind (Q := fun _ => newName ≠ locked) (.onlyIf (fun _ => ?_) fun hsame => ?_) ?_
  · unfold profileExists
    rw [if_pos hsafe]
    refine .bind pathExists_off fun there hthere => Terms.Keeps.ensure.conseq fun _ hfree hname => ?_
    rw [hthere hname, Bool.not_true, Bool.false_or] at hfree
    exact hforce hfree hname
  · rw [← of_not_not (of_decide_eq_false hsame)]
    exact hne
  intro _ htarget
  refine .bind (.lift fun _ _ => trivial) fun _ _ => ?_
  refine .bind (.bind read_off fun _ _ => Terms.Keeps.ensure.conseq fun _ _ => trivial) fun _ _ => ?_
  refine .bind (save_off htarget) fun _ _ => .bind (.onlyIf (fun _ => write_off fun hmem => ?_)
    fun _ => trivial) fun _ _ => .pure ?_
  · exact hne (pathFor_injective (List.mem_singleton.mp hmem)).symm
  · rw [List.mem_cons, List.mem_singleton]
    exact not_or.mpr ⟨hne.symm, htarget.symm⟩

/-- **A verb keeps its hands off a protected profile**, unless it is a forced rename onto it;
and it has not succeeded where it was to write there. -/
theorem perform_off {verb : Verb} (hrename : ∀ name, verb ≠ .rename name locked true) :
    Off i locked bytes (fun _ => locked ∉ verb.targets) (editor.perform stamp verb) := by
  cases hchange : editor.change verb with
  | some c =>
    rw [perform_change hchange, change_targets hchange]
    refine .map ((carry_off hlocks).conseq fun _ hne => ?_)
    rwa [List.mem_singleton, eq_comm]
  | none =>
    have single : ∀ {α : Type} {name : String} {x : Edit α} {g : α → Option ProfileYaml},
        Off i locked bytes (fun _ => name ≠ locked) x →
        Off i locked bytes (fun _ => locked ∉ [name]) (g <$> x) := fun hx =>
      .map (hx.conseq fun _ hne hmem => hne (List.mem_singleton.mp hmem).symm)
    cases verb with
    | create => exact single (create_off hlocks)
    | clone => exact single (clone_off hlocks)
    | delete => exact single (delete_off hlocks)
    | rename name newName force =>
      refine .map (rename_off hlocks ?_)
      rintro rfl rfl
      exact hrename name rfl
    | preview => exact .map ((preview_off hlocks).conseq fun _ _ => List.not_mem_nil)
    | _ => cases hchange

end ProfileEditor

/-! ## The manager -/

namespace ProfileManager

variable {manager : ProfileManager} (hlocks : Locks manager.yaml bytes)
include hlocks

theorem loadProfile_off : Off i locked bytes
    (fun profile => name = locked → profile.protected = true) (manager.loadProfile name) := by
  refine .bind .ensure fun _ _ => .bind pathExists_off fun there _ => .bind .ensure fun _ _ => ?_
  refine .bind readToString_off fun content hcontent => .lift fun profile hparsed hname => ?_
  rw [hcontent hname] at hparsed
  exact hlocks.protected (mapError_eq_ok.mp hparsed)

theorem checkTargetNotProtected_off :
    Off i locked bytes (fun _ => name ≠ locked) (manager.checkTargetNotProtected name) := by
  refine .bind pathExists_off fun there hthere => .onlyIf (fun _ => ?_) fun habsent hname => ?_
  · refine .bind readToString_off fun content hcontent => ?_
    refine .bind (Q := fun existing => name = locked → existing.protected = true)
      (.lift fun existing hparsed hname => ?_) fun existing hexisting =>
        Terms.Keeps.ensure.conseq fun _ hopen => ne_of_open hexisting hopen
    rw [hcontent hname] at hparsed
    exact hlocks.protected (mapError_eq_ok.mp hparsed)
  · rw [hthere hname] at habsent
    cases habsent

/-- The manager looks at the file that it is to overwrite, not at the profile alone. -/
theorem saveProfile_off :
    Off i locked bytes (fun _ => profile.name ≠ locked) (manager.saveProfile profile) := by
  refine .bind .ensure fun _ _ => .bind .ensure fun _ _ => ?_
  refine .bind (checkTargetNotProtected_off hlocks) fun _ hne => ?_
  refine .bind (.lift fun _ _ => trivial) fun content _ => Terms.Keeps.conseq (write_off fun hmem => ?_)
    fun _ _ => hne
  exact hne (pathFor_injective (List.mem_singleton.mp hmem)).symm

theorem loadOpen_off : Off i locked bytes (fun _ => name ≠ locked) (manager.loadOpen name) :=
  .bind (loadProfile_off hlocks) fun _ hprofile => .bind .ensure fun _ hopen =>
    .pure (ne_of_open hprofile hopen)

/-- **A verb of the manager keeps its hands off a protected profile**, whatever the documents
it loads give as their names. -/
theorem perform_off {now : String} {verb : ManagerVerb} :
    Off i locked bytes (fun _ => verb.target ≠ locked) (manager.perform now verb) := by
  cases verb with
  | save profile => exact .map (saveProfile_off hlocks)
  | clone sourceName newName =>
    refine .map (.bind .ensure fun _ _ => .bind .ensure fun _ _ => ?_)
    refine .bind (loadProfile_off hlocks) fun source _ => ?_
    exact .bind (saveProfile_off hlocks) fun _ hne => .pure hne
  | createEmpty name description =>
    refine .map (.bind .ensure fun _ _ => ?_)
    exact .bind (saveProfile_off hlocks) fun _ hne => .pure hne
  | delete name =>
    refine .map (.bind .ensure fun _ _ => .bind (loadProfile_off hlocks) fun profile hprofile => ?_)
    refine .bind .ensure fun _ hopen => ?_
    have hne := ne_of_open hprofile hopen
    exact Terms.Keeps.conseq (write_off fun hmem =>
      hne (pathFor_injective (List.mem_singleton.mp hmem)).symm) fun _ _ => hne
  | addState profileName state position =>
    refine .map (.bind (loadOpen_off hlocks) fun profile hne => ?_)
    exact (saveProfile_off hlocks).conseq fun _ _ => hne
  | removeState profileName stateId =>
    refine .map (.bind (loadOpen_off hlocks) fun profile hne => ?_)
    split
    · exact .bind (saveProfile_off hlocks) fun _ _ => .pure hne
    · exact .throw
  | moveState profileName «from» «to» =>
    refine .map (.bind (loadOpen_off hlocks) fun profile hne => ?_)
    split
    · exact (saveProfile_off hlocks).conseq fun _ _ => hne
    · exact .throw

end ProfileManager

end

/-! ## All of them together -/

/-- One call on the directory, of an editor or of a manager. -/
inductive ProfileTask where
  | edit (editor : ProfileEditor) (stamp : EditStamp) (verb : Verb)
  | manage (manager : ProfileManager) (now : String) (verb : ManagerVerb)

/-- What such a call answers. -/
inductive TaskAnswer where
  | edited (r : Except EditError (Option ProfileYaml))
  | managed (r : Except String ManagerReply)

def TaskAnswer.isOk : TaskAnswer → Bool
  | edited r => r.isOk
  | managed r => r.isOk

namespace ProfileTask

def yaml : ProfileTask → ProfileFormat
  | edit editor .. => editor.yaml
  | manage manager .. => manager.yaml

def targets : ProfileTask → List String
  | edit _ _ verb => verb.targets
  | manage _ _ verb => [verb.target]

def prog : ProfileTask → FileProg String TaskAnswer
  | edit editor stamp verb => (editor.perform stamp verb).run.bind fun r => .done (.edited r)
  | manage manager now verb => (manager.perform now verb).run.bind fun r => .done (.managed r)

/-- The call is a forced rename onto a name. -/
def ForcesOnto (locked : String) (task : ProfileTask) : Prop :=
  ∃ editor stamp name, task = edit editor stamp (.rename name locked true)

/-- A call keeps its hands off a protected profile, and does not succeed on it. -/
theorem prog_off {ι : Type} {i : ι} {task : ProfileTask} {locked : String} {bytes : Bytes}
    {d : Disk String} (hlocks : Locks task.yaml bytes) (hrename : ¬task.ForcesOnto locked) :
    (locking ι locked bytes).Abides i (fun a => a.isOk = true → locked ∉ task.targets)
      task.prog d := by
  cases task with
  | edit editor stamp verb =>
    refine (ProfileEditor.perform_off hlocks (fun name hverb =>
      hrename ⟨editor, stamp, name, congrArg (edit editor stamp) hverb⟩) d).bind
        fun r hr d' hok => ?_
    cases r with
    | ok profile => exact hr profile rfl
    | error e => cases hok
  | manage manager now verb =>
    refine (ProfileManager.perform_off hlocks d).bind fun r hr d' hok hmem => ?_
    cases r with
    | ok reply => exact hr reply rfl (List.mem_singleton.mp hmem).symm
    | error e => cases hok

/-- **Protected profiles are untouchable together**: however many editors and managers work on
the directory at once, in whatever order their file operations come and whichever of these
fail, a profile that is protected keeps its bytes, and no call that aims at it succeeds, as
long as none of them is a forced rename onto it. -/
theorem protected_together {ι : Type} [DecidableEq ι] {yaml : ProfileFormat}
    {tasks : ι → ProfileTask} {d : Disk String} {locked : String} {bytes : Bytes}
    (hyaml : ∀ i, (tasks i).yaml = yaml) (hfile : d (pathFor locked) = some bytes)
    (hlocks : Locks yaml bytes) (hrename : ∀ i, ¬(tasks i).ForcesOnto locked)
    (turns : List (Turn ι)) :
    let s : Shared ι String TaskAnswer := { disk := d, progs := fun i => (tasks i).prog }
    (turns.foldl Shared.step s).disk (pathFor locked) = some bytes ∧
      ∀ i a, (i, a) ∈ s.answers turns → locked ∈ (tasks i).targets → a.isOk = false := by
  intro s
  have hoff : ∀ i, (locking ι locked bytes).Abides i
      (fun a => a.isOk = true → locked ∉ (tasks i).targets) (s.progs i) s.disk := fun i =>
    prog_off ((hyaml i).symm ▸ hlocks) (hrename i)
  obtain ⟨hdisk, hprogs⟩ := Terms.run hoff hfile turns
  refine ⟨hdisk, fun i a hanswer htarget => ?_⟩
  by_contra hok
  exact (hprogs i).answer (Shared.mem_answers.mp hanswer).2 (Bool.not_eq_false _ ▸ hok) htarget

end ProfileTask

/-! ## Two that aim at a protected profile -/

namespace Sample

/-- An editor and a manager that both want to write `locked`. -/
def onLocked : Bool → ProfileTask
  | false => .edit profileEditor ⟨"2026-08-13T00:00:00+00:00", 1, 1⟩ (.create "locked" "d" true)
  | true => .manage ⟨format, "profiles"⟩ "2026-08-13T00:00:00+00:00" (.clone "base" "locked")

def lockedRace : Shared Bool String TaskAnswer where
  disk := profilesDir
  progs who := (onLocked who).prog

/-- Turn about, the last read made to fail. -/
def lockedTurns : List (Turn Bool) :=
  [⟨false, none⟩, ⟨true, none⟩, ⟨true, none⟩, ⟨false, none⟩, ⟨true, none⟩,
    ⟨true, some { message := "Input/output error (os error 5)" }⟩]

end Sample

namespace ProfileTask

theorem protected_together_race :
    (Sample.lockedTurns.foldl Shared.step Sample.lockedRace).disk "locked.yaml" =
        some (bytesOf (Sample.yamlText "locked" true)) ∧
      ∀ i a, (i, a) ∈ Sample.lockedRace.answers Sample.lockedTurns →
        "locked" ∈ (Sample.onLocked i).targets → a.isOk = false := by
  have hfile : Sample.profilesDir (pathFor "locked") =
      some (bytesOf (Sample.yamlText "locked" true)) := by
    rw [Sample.profilesDir, if_neg (by decide), if_pos (by decide)]
  have hlocks : Locks Sample.format (bytesOf (Sample.yamlText "locked" true)) := by
    obtain ⟨profile, bytes, hbytes, hparsed, hprotected⟩ := Sample.locked_protected
    obtain rfl := Option.some.inj (hbytes.symm.trans hfile)
    exact ⟨profile, hparsed, hprotected⟩
  refine protected_together (fun i => ?_) hfile hlocks (fun i => ?_) Sample.lockedTurns
  · cases i <;> rfl
  · cases i <;> rintro ⟨editor, stamp, name, htask⟩ <;> cases htask

end ProfileTask

end ProtocolEnforcer
