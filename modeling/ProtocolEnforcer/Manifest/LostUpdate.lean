import ProtocolEnforcer.Core.Interleaving
import ProtocolEnforcer.Manifest.Changes
import ProtocolEnforcer.Manifest.Protected

/-!
# Edits of one profile at once

Any number of editors change one profile, each by its own program, with the operations of
all of them in any order. An edit reads the file twice: the second time it compares what it
reads with what it has loaded, and writes only if nothing has changed. Between that compare
and the rename that puts the new file in place, others may still write.
-/

namespace ProtocolEnforcer

open FileTask

/-- One of the edits that run together. -/
structure Editing where
  editor : ProfileEditor
  stamp : EditStamp
  change : Change

namespace Editing

variable (e : Editing)

/-- An edit that is under way. -/
abbrev Running := FileProg String (Except EditError ProfileYaml)

def path : String := pathFor e.change.name

def tmp : String := tmpPath e.stamp e.path

def prog : Running := (e.editor.carry e.stamp e.change).run

/-- What the change makes of the bytes of the file, from their parse to the last check. -/
def rewrite (bytes : Bytes) : Except EditError ProfileYaml := do
  let profile ← (e.editor.yaml.fromStr (fromUtf8Lossy bytes)).mapError fun m =>
    .io ("parse error: " ++ m)
  if profile.protected then throw (.protected e.change.name)
  let profile ← e.change.mutate profile
  (validateProfile e.editor.schemas e.editor.library.toLibrary profile.served).mapError
    .validation
  e.change.checks profile
  return profile

/-! ## The edit, operation by operation -/

/-- The rename has failed: the temporary file is removed. -/
def cleanUp (error : EditError) : Running := .write (.remove e.tmp) fun _ => .done (.error error)

/-- The rename is next. -/
def publish (changed : ProfileYaml) : Running :=
  .write (.rename e.tmp e.path) fun
    | .ok _ => .done (.ok changed)
    | .error m => e.cleanUp (.io m)

/-- The write of the temporary file is next. -/
def store (changed : ProfileYaml) (text : String) : Running :=
  .write (.overwrite e.tmp (bytesOf text)) fun
    | .ok _ => e.publish changed
    | .error m => .done (.error (.io m))

/-- The compare is next. -/
def compareBytes (bytes : Bytes) (changed : ProfileYaml) : Running :=
  .read e.path fun
    | .error m => .done (.error (.io m))
    | .ok current =>
      if current = bytes then
        match e.editor.yaml.toString changed with
        | .ok text => e.store changed text
        | .error m => .done (.error (.io ("serialize error: " ++ m)))
      else .done (.error .conflict)

/-- The read of what the edit is to change is next. -/
def load : Running :=
  .read e.path fun
    | .error m => .done (.error (.io m))
    | .ok bytes =>
      match e.rewrite bytes with
      | .ok changed => e.compareBytes bytes changed
      | .error error => .done (.error error)

theorem ok_bind {ε α β : Type} (a : α) (f : α → Except ε β) : (Except.ok a >>= f) = f a := rfl

theorem lift_bind_run {α β : Type} (r : Except EditError α) (g : α → Edit β) :
    (lift r >>= g).run = match r with
      | .ok a => (g a).run
      | .error error => .done (.error error) := by
  cases r <;> rfl

theorem lift_map_bind_run {α β γ : Type} (r : Except EditError α) (g : α → β) (k : β → Edit γ) :
    ((lift r >>= fun a => pure (g a)) >>= k).run = (lift r >>= fun a => k (g a)).run := by
  cases r <;> rfl

theorem save_run (changed : ProfileYaml) :
    (e.editor.save e.stamp e.path changed >>= fun _ => pure changed : Edit ProfileYaml).run =
      match e.editor.yaml.toString changed with
      | .ok text => e.store changed text
      | .error m => .done (.error (.io ("serialize error: " ++ m))) := by
  unfold ProfileEditor.save
  cases e.editor.yaml.toString changed with
  | error m => rfl
  | ok text =>
    refine congrArg (FileProg.write _) (funext fun written => ?_)
    cases written with
    | error m => rfl
    | ok _ =>
      refine congrArg (FileProg.write _) (funext fun renamed => ?_)
      cases renamed with
      | ok _ => rfl
      | error m =>
        refine congrArg (FileProg.write _) (funext fun removed => ?_)
        cases removed <;> rfl

theorem compareBytes_run (bytes : Bytes) (changed : ProfileYaml) :
    (e.editor.atomicSaveCas e.stamp e.path bytes changed >>= fun _ => pure changed :
      Edit ProfileYaml).run = e.compareBytes bytes changed := by
  refine congrArg (FileProg.read _) (funext fun current => ?_)
  cases current with
  | error m => rfl
  | ok current =>
    dsimp only
    by_cases heq : current = bytes
    · rw [if_pos heq, ← save_run, heq]
      show FileProg.bind (FileProg.bind (ensure (decide (bytes = bytes)) _ : Edit Unit).run _) _ = _
      rw [decide_eq_true rfl]
      rfl
    · rw [if_neg heq]
      show FileProg.bind (FileProg.bind (ensure (decide (current = bytes)) _ : Edit Unit).run _) _ = _
      rw [decide_eq_false heq]
      rfl

theorem load_run (bytes : Bytes) : (do
      let profile ← lift ((e.editor.yaml.fromStr (fromUtf8Lossy bytes)).mapError fun m =>
        .io ("parse error: " ++ m))
      ensure (!profile.protected) (.protected e.change.name)
      let profile ← lift (e.change.mutate profile)
      e.editor.validate profile
      lift (e.change.checks profile)
      e.editor.atomicSaveCas e.stamp e.path bytes profile
      return profile : Edit ProfileYaml).run =
    match e.rewrite bytes with
    | .ok changed => e.compareBytes bytes changed
    | .error error => .done (.error error) := by
  simp only [rewrite, ProfileEditor.validate, ensure, lift_bind_run, ← compareBytes_run]
  cases (e.editor.yaml.fromStr (fromUtf8Lossy bytes)).mapError fun m =>
    EditError.io ("parse error: " ++ m) with
  | error m => rfl
  | ok profile =>
    simp only [ok_bind]
    cases hprotected : profile.protected with
    | true => rfl
    | false =>
      simp only [Bool.not_false, Bool.false_eq_true, ↓reduceIte]
      cases e.change.mutate profile with
      | error m => rfl
      | ok changed =>
        simp only [ok_bind]
        cases (validateProfile e.editor.schemas e.editor.library.toLibrary
          changed.served).mapError EditError.validation with
        | error m => rfl
        | ok _ =>
          simp only [ok_bind]
          cases e.change.checks changed <;> rfl

/-- **The operations of an edit**, in order. -/
theorem prog_eq : e.prog =
    match e.change.asks with
    | .error error => .done (.error error)
    | .ok _ =>
      if isSafeName e.change.name then
        .pathExists e.path fun there =>
          if there then e.load else .done (.error (.notFound e.change.name))
      else .done (.error (.unsafeName e.change.name)) := by
  unfold prog ProfileEditor.carry
  rw [lift_bind_run]
  cases e.change.asks with
  | error error => rfl
  | ok _ =>
    unfold ProfileEditor.loadWithBytes
    cases isSafeName e.change.name with
    | false => rfl
    | true =>
      refine congrArg (FileProg.pathExists _) (funext fun there => ?_)
      cases there with
      | false => rfl
      | true =>
        refine congrArg (FileProg.read _) (funext fun read => ?_)
        cases read with
        | error m => rfl
        | ok bytes =>
          dsimp only
          rw [← load_run]
          exact lift_map_bind_run _ (fun profile => (profile, e.path, bytes)) _

/-! ## What an edit relies on -/

/-- The change makes this profile, written as this text, of the bytes. -/
structure Rewrites (bytes : Bytes) (changed : ProfileYaml) (text : String) : Prop where
  rewritten : e.rewrite bytes = .ok changed
  written : e.editor.yaml.toString changed = .ok text

/-- Where an edit is. Since its compare it relies on the file to hold what it has loaded, and
since its write on the temporary file to hold what it is to put in its place. -/
inductive Stage (d : Disk String) : Running → Prop
  | answered (a : Except EditError ProfileYaml) : Stage d (.done a)
  | opening : Stage d (.pathExists e.path fun there =>
      if there then e.load else .done (.error (.notFound e.change.name)))
  | loading : Stage d e.load
  | comparing {bytes : Bytes} {changed : ProfileYaml} (h : e.rewrite bytes = .ok changed) :
      Stage d (e.compareBytes bytes changed)
  | storing {bytes : Bytes} {changed : ProfileYaml} {text : String}
      (h : e.Rewrites bytes changed text) (file : d e.path = some bytes) :
      Stage d (e.store changed text)
  | publishing {bytes : Bytes} {changed : ProfileYaml} {text : String}
      (h : e.Rewrites bytes changed text) (file : d e.path = some bytes)
      (temporary : d e.tmp = some (bytesOf text)) : Stage d (e.publish changed)
  | cleaning (error : EditError) : Stage d (e.cleanUp error)

/-- The files that an edit relies on for its next operation. -/
def exposed (path : String) : Running → List String
  | .write (.overwrite _ _) _ => [path]
  | .write (.rename src dst) _ => [src, dst]
  | _ => []

variable {e} {d d' : Disk String} {p : Running} {fault : Option FileFault}

theorem path_ne_tmp : e.path ≠ e.tmp := pathFor_ne_tmpPath

/-- An edit starts at its first stage, or has failed by then. -/
theorem stage_prog : e.Stage d e.prog := by
  rw [prog_eq]
  cases e.change.asks with
  | error error => exact .answered _
  | ok _ =>
    cases isSafeName e.change.name with
    | false => exact .answered _
    | true => exact .opening

/-- An edit that is over before its first operation has failed. -/
theorem prog_answer {a : Except EditError ProfileYaml} (h : e.prog.answer? = some a) :
    ∃ error, a = .error error := by
  rw [prog_eq] at h
  cases hasks : e.change.asks with
  | error error =>
    rw [hasks] at h
    cases h
    exact ⟨error, rfl⟩
  | ok _ =>
    rw [hasks] at h
    cases hsafe : isSafeName e.change.name with
    | false =>
      rw [hsafe] at h
      cases h
      exact ⟨_, rfl⟩
    | true =>
      rw [hsafe] at h
      cases h

theorem exposed_prog {path : String} : exposed path e.prog = [] := by
  rw [prog_eq]
  cases e.change.asks with
  | error error => rfl
  | ok _ => cases isSafeName e.change.name <;> rfl

/-- **A stage survives what leaves the exposed files alone.** -/
theorem Stage.stable (h : e.Stage d p) (hsame : ∀ f ∈ exposed e.path p, d' f = d f) :
    e.Stage d' p := by
  cases h with
  | answered a => exact .answered a
  | opening => exact .opening
  | loading => exact .loading
  | comparing h => exact .comparing h
  | storing h hfile => exact .storing h ((hsame _ (List.mem_singleton_self _)).trans hfile)
  | publishing h hfile htmp =>
    refine .publishing h ((hsame _ ?_).trans hfile) ((hsame _ (List.mem_cons_self ..)).trans htmp)
    exact List.mem_cons_of_mem _ (List.mem_singleton_self _)
  | cleaning error => exact .cleaning error

/-- What an operation of an edit does to the file: nothing, or it puts in its place what the
change makes of it, and the edit has succeeded. -/
inductive Effected (e : Editing) (d d' : Disk String) (p p' : Running) : Prop
  | kept (file : d' e.path = d e.path)
      (failed : ∀ changed, p'.answer? = some (.ok changed) → p.answer? = some (.ok changed))
  | committed {bytes : Bytes} {changed : ProfileYaml} {text : String}
      (h : e.Rewrites bytes changed text) (before : d e.path = some bytes)
      (after : d' e.path = some (bytesOf text)) (running : p.answer? = none)
      (answer : p'.answer? = some (.ok changed))

/-- What an edit at a stage comes to by one operation. -/
def Advances (e : Editing) (d : Disk String) (p : Running)
    (r : Running × List (FileWrite String)) : Prop :=
  e.Stage (FileWrite.applyAll d r.2) r.1 ∧ Effected e d (FileWrite.applyAll d r.2) p r.1

theorem Advances.runs {p' : Running} (h : e.Stage d p') (hrunning : p'.answer? = none) :
    Advances e d p (p', []) :=
  ⟨h, .kept rfl fun _ hanswer => absurd (hrunning.symm.trans hanswer) nofun⟩

theorem Advances.fails {error : EditError} {ws : List (FileWrite String)}
    (h : ∀ w ∈ ws, e.path ∉ w.files) : Advances e d p (.done (.error error), ws) :=
  ⟨.answered _, .kept (FileWrite.applyAll_other h) fun _ hanswer =>
    absurd (Option.some.inj hanswer) nofun⟩

theorem Advances.stops {error : EditError} : Advances e d p (.done (.error error), []) :=
  .fails fun _ hw => absurd hw List.not_mem_nil

/-- A write to the temporary file is on that file. -/
theorem path_not_mem_files {w w' : FileWrite String} {written : Option Nat}
    (hw : w.files = [e.tmp]) (h : w' ∈ w.partially written) : e.path ∉ w'.files := by
  rw [FileWrite.partially_files h, hw]
  exact fun hmem => path_ne_tmp (List.mem_singleton.mp hmem)

/-- **What one operation of an edit does.** -/
theorem Stage.next (h : e.Stage d p) : Advances e d p (p.next d fault) := by
  cases h with
  | answered a => exact ⟨.answered a, .kept rfl fun _ h => h⟩
  | opening =>
    show Advances e d _ (if (d e.path).isSome then e.load else _, [])
    cases (d e.path).isSome with
    | true => exact .runs .loading rfl
    | false => exact .stops
  | loading =>
    refine FileProg.next_read (P := Advances e d _) (fun bytes _ => ?_) fun m => .stops
    dsimp only
    cases hrewrite : e.rewrite bytes with
    | ok changed => exact .runs (.comparing hrewrite) rfl
    | error error => exact .stops
  | @comparing bytes changed h =>
    refine FileProg.next_read (P := Advances e d _) (fun current hfile => ?_) fun m => .stops
    dsimp only
    by_cases heq : current = bytes
    · rw [if_pos heq]
      cases htext : e.editor.yaml.toString changed with
      | ok text => exact .runs (.storing ⟨h, htext⟩ (heq ▸ hfile)) rfl
      | error m => exact .stops
    · rw [if_neg heq]
      exact .stops
  | @storing bytes changed text h hfile =>
    refine FileProg.next_write (P := Advances e d _) (fun _ => ?_) fun m written =>
      .fails fun w => path_not_mem_files rfl
    have hsame : FileWrite.applyAll d [.overwrite e.tmp (bytesOf text)] e.path = d e.path :=
      Function.update_of_ne path_ne_tmp ..
    exact ⟨.publishing h (hsame.trans hfile) (Function.update_self ..), .kept hsame fun _ hanswer =>
      absurd (show none = some _ from hanswer) nofun⟩
  | @publishing bytes changed text h hfile htmp =>
    refine FileProg.next_write (P := Advances e d _) (fun _ => ?_) fun m written => ?_
    · refine ⟨.answered _, .committed h hfile ?_ rfl rfl⟩
      show Function.update (Function.update d e.path (d e.tmp)) e.tmp none e.path = _
      rw [Function.update_of_ne path_ne_tmp, Function.update_self, htmp]
    · rw [FileWrite.partially_rename]
      exact .runs (.cleaning _) rfl
  | cleaning error =>
    refine FileProg.next_write (P := Advances e d _) (fun _ => .fails fun w hw => ?_)
      fun m written => .fails fun w => path_not_mem_files rfl
    rw [List.mem_singleton.mp hw]
    exact fun hmem => path_ne_tmp (List.mem_singleton.mp hmem)

/-! ## An edit that nothing stops -/

section

variable {bytes : Bytes} {changed : ProfileYaml} {text : String}

theorem prog_next (hasks : e.change.asks = .ok ()) (hsafe : isSafeName e.change.name = true)
    (hfile : d e.path = some bytes) : e.prog.next d none = (e.load, []) := by
  rw [prog_eq, hasks]
  dsimp only
  rw [if_pos hsafe, FileProg.next, hfile]
  rfl

theorem load_next (h : e.Rewrites bytes changed text) (hfile : d e.path = some bytes) :
    e.load.next d none = (e.compareBytes bytes changed, []) := by
  rw [load, FileProg.next_read_some hfile]
  dsimp only
  rw [h.rewritten]

theorem compareBytes_next (h : e.Rewrites bytes changed text) (hfile : d e.path = some bytes) :
    (e.compareBytes bytes changed).next d none = (e.store changed text, []) := by
  rw [compareBytes, FileProg.next_read_some hfile]
  dsimp only
  rw [if_pos rfl, h.written]

theorem store_next : (e.store changed text).next d none =
    (e.publish changed, [.overwrite e.tmp (bytesOf text)]) := rfl

theorem publish_next :
    (e.publish changed).next (FileWrite.applyAll d [.overwrite e.tmp bytes]) none =
      (.done (.ok changed), [.rename e.tmp e.path]) := by
  have hthere : FileWrite.applyAll d [.overwrite e.tmp bytes] e.tmp = some bytes :=
    Function.update_self ..
  rw [publish, FileProg.next, FileWrite.attempt, FileWrite.possible, hthere]
  rfl

end

/-- The temporary file, put in place. -/
theorem applyAll_published {content : Bytes} :
    FileWrite.applyAll (FileWrite.applyAll d [.overwrite e.tmp content])
      [.rename e.tmp e.path] e.path = some content := by
  simp only [FileWrite.applyAll, List.foldl_cons, List.foldl_nil, FileWrite.apply,
    Function.update_of_ne path_ne_tmp, Function.update_self]

/-! ## Runs of edits -/

section

variable {ι : Type} (edits : ι → Editing)

/-- The edits, before any of them has begun. -/
def start (d : Disk String) : Shared ι String (Except EditError ProfileYaml) where
  disk := d
  progs i := (edits i).prog

/-- The changes of the edits that succeed, made one after the other, each of what the file
holds by then. -/
inductive Applied :
    Option Bytes → List (ι × Except EditError ProfileYaml) → Option Bytes → Prop
  | nil (content : Option Bytes) : Applied content [] content
  | failed {before after : Option Bytes} {i : ι} {error : EditError}
      {rest : List (ι × Except EditError ProfileYaml)} (h : Applied before rest after) :
      Applied before ((i, .error error) :: rest) after
  | saved {bytes : Bytes} {after : Option Bytes} {i : ι} {changed : ProfileYaml} {text : String}
      {rest : List (ι × Except EditError ProfileYaml)}
      (h : (edits i).Rewrites bytes changed text)
      (then' : Applied (some (bytesOf text)) rest after) :
      Applied (some bytes) ((i, .ok changed) :: rest) after

/-- Every edit is where what it relies on holds. -/
def Staged (s : Shared ι String (Except EditError ProfileYaml)) : Prop :=
  ∀ i, (edits i).Stage s.disk (s.progs i)

theorem staged_start {d : Disk String} : Staged edits (start edits d) := fun _ => stage_prog

variable [DecidableEq ι]

/-- The turn writes to no file that another edit relies on. -/
def Undisturbing (path : String) (s : Shared ι String (Except EditError ProfileYaml))
    (t : Turn ι) : Prop :=
  ∀ i, i ≠ t.who → ∀ f ∈ exposed path (s.progs i), ∀ w ∈ s.writes t, f ∉ w.files

/-- No update is lost in a run. An edit that succeeds does so once, with the rename that puts
its outcome in place, so the answers come in the order of the commits: the file ends as what
it was with the changes of all of them made in that order. An edit that finds at its compare
that the file is not what it has loaded answers so. -/
structure NoLostUpdate (path : String) (d : Disk String) (turns : List (Turn ι)) : Prop where
  applied : Applied edits (d path) ((start edits d).answers turns)
    ((turns.foldl Shared.step (start edits d)).disk path)
  once : (((start edits d).answers turns).map Prod.fst).Nodup
  answered : ∀ i changed, (i, .ok changed) ∈ (start edits d).answers turns ↔
    ((turns.foldl Shared.step (start edits d)).progs i).answer? = some (.ok changed)
  overtaken : ∀ before mid rest i, turns = before ++ ⟨i, none⟩ :: (mid ++ ⟨i, none⟩ :: rest) →
    (∀ t ∈ mid, i ≠ t.who) → ∀ s s', before.foldl Shared.step (start edits d) = s →
    (⟨i, none⟩ :: mid).foldl Shared.step s = s' →
    s.progs i = (edits i).load → (s'.progs i).answer? = none → s'.disk path ≠ s.disk path →
    ((s'.step ⟨i, none⟩).progs i).answer? = some (.error .conflict)

variable {edits} {path : String} {s : Shared ι String (Except EditError ProfileYaml)} {t : Turn ι}
  {turns : List (Turn ι)}

/-- What a turn does to the file. -/
theorem Staged.effected (hs : Staged edits s) :
    Effected (edits t.who) s.disk (s.step t).disk (s.progs t.who) ((s.step t).progs t.who) := by
  rw [Shared.step_self]
  exact (hs t.who).next.2

variable (hpath : ∀ i, (edits i).path = path)
include hpath

/-- **An undisturbing turn keeps every edit on its stage.** -/
theorem Staged.step (h : Undisturbing path s t) (hs : Staged edits s) :
    Staged edits (s.step t) := by
  intro i
  by_cases hi : i = t.who
  · subst hi
    rw [Shared.step_self]
    exact (hs t.who).next.1
  · rw [Shared.step_other hi]
    refine (hs i).stable fun f hf => Shared.step_file (h i hi f ?_)
    rwa [← hpath i]

theorem Staged.run (h : Runs.Along Shared.step (Undisturbing path) s turns)
    (hs : Staged edits s) : Staged edits (turns.foldl Shared.step s) :=
  h.invariant (fun _ _ => Staged.step hpath) hs

/-- A file that is there stays there. -/
theorem Staged.present (hs : Staged edits s) (h : (s.disk path).isSome = true) :
    ((s.step t).disk path).isSome = true := by
  rcases hs.effected (t := t) with ⟨hfile, -⟩ | ⟨-, -, hafter, -, -⟩
  · rwa [← hpath t.who, hfile, hpath t.who]
  · rw [← hpath t.who, hafter]
    rfl

/-- **The file is rewritten by the edits that succeed, in the order in which they do.** -/
theorem Staged.applied (h : Runs.Along Shared.step (Undisturbing path) s turns)
    (hs : Staged edits s) :
    Applied edits (s.disk path) (s.answers turns) ((turns.foldl Shared.step s).disk path) := by
  induction turns generalizing s with
  | nil => exact .nil _
  | cons t rest ih =>
    have hrest := ih h.2 (hs.step hpath h.1)
    rw [Shared.answers, List.foldl_cons]
    rcases hs.effected (t := t) with ⟨hfile, hfailed⟩ |
      ⟨hrewrites, hbefore, hafter, hrunning, hanswer⟩
    · rw [hpath t.who] at hfile
      rw [hfile] at hrest
      cases hanswered : s.answered t with
      | none => exact hrest
      | some a =>
        obtain ⟨hnone, hsome⟩ := Shared.answered_eq_some.mp hanswered
        cases a with
        | error error => exact .failed hrest
        | ok changed => cases hnone.symm.trans (hfailed changed hsome)
    · rw [hpath t.who] at hbefore hafter
      rw [hafter] at hrest
      rw [Shared.answered_eq_some.mpr ⟨hrunning, hanswer⟩, hbefore]
      exact .saved hrewrites hrest

/-- **An edit that has been overtaken by its compare answers that there is a conflict.** -/
theorem Staged.overtaken {i : ι} {mid : List (Turn ι)}
    {s' : Shared ι String (Except EditError ProfileYaml)}
    (h : Runs.Along Shared.step (Undisturbing path) s (⟨i, none⟩ :: mid)) (hs : Staged edits s)
    (hmid : ∀ t ∈ mid, i ≠ t.who) (hs' : (⟨i, none⟩ :: mid).foldl Shared.step s = s')
    (hload : s.progs i = (edits i).load) (hrunning : (s'.progs i).answer? = none)
    (hfile : s'.disk path ≠ s.disk path) :
    ((s'.step ⟨i, none⟩).progs i).answer? = some (.error .conflict) := by
  have hprog : s'.progs i = ((edits i).load.next s.disk none).1 := by
    rw [← hs', List.foldl_cons, Shared.run_other hmid, ← hload]
    exact Shared.step_self
  rw [hprog] at hrunning
  cases hbefore : s.disk (edits i).path with
  | none =>
    -- there was nothing to load
    rw [load, FileProg.next_read_none hbefore] at hrunning
    cases hrunning
  | some bytes =>
    rw [load, FileProg.next_read_some hbefore] at hrunning hprog
    dsimp only at hrunning hprog
    cases hrewrite : (edits i).rewrite bytes with
    | error error =>
      rw [hrewrite] at hrunning
      cases hrunning
    | ok changed =>
      rw [hrewrite] at hprog
      dsimp only at hprog
      have hpresent : (s'.disk path).isSome = true := by
        rw [← hs']
        refine (Runs.Along.invariant (I := fun s => Staged edits s ∧ (s.disk path).isSome = true)
          (fun s t ht hs => ⟨hs.1.step hpath ht, hs.1.present hpath hs.2⟩) h ⟨hs, ?_⟩).2
        rw [← hpath i, hbefore]
        rfl
      obtain ⟨current, hcurrent⟩ := Option.isSome_iff_exists.mp hpresent
      have hne : current ≠ bytes := by
        rintro rfl
        exact hfile (hcurrent.trans (hpath i ▸ hbefore).symm)
      have hself := Shared.step_self (s := s') (t := ⟨i, none⟩)
      rw [hprog] at hself
      rw [← hpath i] at hcurrent
      rw [hself, compareBytes, FileProg.next_read_some hcurrent]
      dsimp only
      rw [if_neg hne]
      rfl

end

/-- **No update is lost where no turn writes to what another edit relies on**: in a run of any
number of edits of one profile in which no operation is on the profile's file between another
edit's compare and its rename, nor on a temporary file that another edit is to rename, the
file ends as what it was with the changes of all edits that have succeeded, made in the order
of their commits, each of what was committed last before its own. -/
theorem no_lost_update {ι : Type} [DecidableEq ι] {edits : ι → Editing} {name : String}
    {d : Disk String} {turns : List (Turn ι)} (hname : ∀ i, (edits i).change.name = name)
    (h : Runs.Along Shared.step (Undisturbing (pathFor name)) (start edits d) turns) :
    NoLostUpdate edits (pathFor name) d turns := by
  have hpath : ∀ i, (edits i).path = pathFor name := fun i => congrArg pathFor (hname i)
  refine ⟨(staged_start edits).applied hpath h, Shared.answers_nodup, fun i changed => ?_, ?_⟩
  · rw [Shared.mem_answers]
    refine ⟨fun h => h.2, fun hanswer => ⟨?_, hanswer⟩⟩
    show (edits i).prog.answer? = none
    cases hbegun : (edits i).prog.answer? with
    | none => rfl
    | some a =>
      obtain ⟨error, rfl⟩ := prog_answer hbegun
      cases (Shared.run_done (s := start edits d) hbegun).symm.trans hanswer
  · rintro before mid rest i rfl hmid s s' hs hs' hload hrunning hfile
    have halong := h.drop
    rw [hs] at halong
    have hstaged : Staged edits s := hs ▸ (staged_start edits).run hpath h.take
    have hundisturbed : Runs.Along Shared.step (Undisturbing (pathFor name)) s
        (⟨i, none⟩ :: mid) := halong.take
    exact hstaged.overtaken hpath hundisturbed hmid hs' hload hrunning hfile

end Editing

/-! ## Two edits at once

One changes the description of `base`, the other its oscillation threshold. -/

namespace Sample

/-- What `serde_yaml` writes for `base`, with a description and a threshold. -/
def baseText (description : String) (threshold : UInt32) : String :=
  "name: base\nversion: 1.0.0\ndescription: " ++ description ++ "\nprotected: false\n" ++
    "created_at: ''\ncloned_from: null\nsettings:\n  oscillation_detection_threshold: " ++
    toString threshold ++ "\n  auto_loop_on_checklist_failure: true\n" ++
    "  global_timeout_seconds: 3600\n  approval_rejection_cap: 10\npipeline:\n" ++
    "- state_id: phase1\n  name: Phase 1\n  description: ''\n  system_prompt: null\n" ++
    "  enabled: true\n  max_iterations: 3\n  loop: false\n  icon: null\n  sub_states:\n" ++
    "  - id: checklist\n    type: checklist\n    name: Checklist\n    description: ''\n" ++
    "    enabled: true\n    criteria:\n    - criterion_1\n    inject: null\n" ++
    "    verify: null\n    approver_pubkey: null\n    approval_prompt: null\n" ++
    "    hooks: []\n  hooks: []\noutput_contract: null\n"

def base (description : String) (threshold : UInt32) : ProfileYaml :=
  { authored "base" false with
    description := description
    settings := { oscillationDetectionThreshold := threshold } }

/-- `serde_yaml` on these profiles. -/
def baseFormat : ProfileFormat where
  fromStr text :=
    if text = baseText "d" 3 then .ok (base "d" 3)
    else if text = baseText "first" 3 then .ok (base "first" 3)
    else .error "expected the profile"
  toString profile :=
    .ok (baseText profile.description profile.settings.oscillationDetectionThreshold)

/-- `set_description` on `base`, in one process, -/
def describing : Editing where
  editor := { profileEditor with yaml := baseFormat }
  stamp := ⟨"2026-08-13T00:00:00+00:00", 1, 1⟩
  change := { name := "base", mutate := fun p => .ok { p with description := "first" } }

/-- and `set_settings` in another. -/
def setting : Editing where
  editor := { profileEditor with yaml := baseFormat }
  stamp := ⟨"2026-08-13T00:00:00+00:00", 2, 2⟩
  change := { name := "base", mutate := fun p => .ok { p with
    settings := applySettings p.settings (some 5) none none } }

def editings : Bool → Editing
  | false => describing
  | true => setting

def baseDir : Disk String := fun file =>
  if file = "base.yaml" then some (bytesOf (baseText "d" 3)) else none

theorem describing_rewrites :
    describing.Rewrites (bytesOf (baseText "d" 3)) (base "first" 3) (baseText "first" 3) := by
  refine ⟨?_, rfl⟩
  rw [Editing.rewrite, fromUtf8Lossy_of_fromUtf8 (Utf8.fromUtf8_bytesOf _)]
  simp only [describing, baseFormat, ↓reduceIte]
  rfl

theorem setting_rewrites :
    setting.Rewrites (bytesOf (baseText "d" 3)) (base "d" 5) (baseText "d" 5) := by
  refine ⟨?_, rfl⟩
  rw [Editing.rewrite, fromUtf8Lossy_of_fromUtf8 (Utf8.fromUtf8_bytesOf _)]
  simp only [setting, baseFormat, ↓reduceIte]
  rfl

theorem baseText_ne : baseText "first" 3 ≠ baseText "d" 3 := by decide +kernel

theorem setting_rewrites_first :
    setting.Rewrites (bytesOf (baseText "first" 3)) (base "first" 5) (baseText "first" 5) := by
  refine ⟨?_, rfl⟩
  rw [Editing.rewrite, fromUtf8Lossy_of_fromUtf8 (Utf8.fromUtf8_bytesOf _)]
  simp only [setting, baseFormat, if_neg baseText_ne, ↓reduceIte]
  rfl

/-- Two edits that are under way. -/
def pair (x y : Editing.Running) : Bool → Editing.Running
  | false => x
  | true => y

section

variable {d : Disk String} {x y z : Editing.Running} {ws : List (FileWrite String)}
  {rest : List (Turn Bool)}

theorem turn_false (h : x.next d none = (z, ws)) :
    (⟨d, pair x y⟩ : Shared Bool String _).step ⟨false, none⟩ =
      ⟨FileWrite.applyAll d ws, pair z y⟩ := by
  have hprogs : Function.update (pair x y) false z = pair z y := by
    funext b
    cases b <;> rfl
  rw [Shared.step, Shared.writes, show (pair x y false).next d none = (z, ws) from h, hprogs]

theorem turn_true (h : y.next d none = (z, ws)) :
    (⟨d, pair x y⟩ : Shared Bool String _).step ⟨true, none⟩ =
      ⟨FileWrite.applyAll d ws, pair x z⟩ := by
  have hprogs : Function.update (pair x y) true z = pair x z := by
    funext b
    cases b <;> rfl
  rw [Shared.step, Shared.writes, show (pair x y true).next d none = (z, ws) from h, hprogs]

end

theorem start_editings :
    Editing.start editings baseDir = ⟨baseDir, pair describing.prog setting.prog⟩ := by
  refine congrArg (Shared.mk baseDir) (funext fun b => ?_)
  cases b <;> rfl

/-- Both edits compare before either of them writes. -/
def tangled : List (Turn Bool) :=
  [⟨false, none⟩, ⟨false, none⟩, ⟨false, none⟩, ⟨true, none⟩, ⟨true, none⟩, ⟨true, none⟩,
    ⟨false, none⟩, ⟨false, none⟩, ⟨true, none⟩, ⟨true, none⟩]

/-- The directory as `describing` leaves it. -/
def describedDir : Disk String :=
  FileWrite.applyAll (FileWrite.applyAll baseDir
    [.overwrite describing.tmp (bytesOf (baseText "first" 3))])
    [.rename describing.tmp describing.path]

/-- Both succeed, and what the first has saved is gone. -/
theorem tangled_run :
    (Editing.start editings baseDir).answers tangled =
        [(false, .ok (base "first" 3)), (true, .ok (base "d" 5))] ∧
      (tangled.foldl Shared.step (Editing.start editings baseDir)).disk "base.yaml" =
        some (bytesOf (baseText "d" 5)) := by
  have hfile : baseDir "base.yaml" = some (bytesOf (baseText "d" 3)) := by
    rw [baseDir, if_pos rfl]
  have hpath : describing.path = "base.yaml" := by decide
  have hpath' : setting.path = "base.yaml" := by decide
  have h1 := turn_false (y := setting.prog)
    (Editing.prog_next (e := describing) rfl (by decide) (hpath ▸ hfile))
  have h2 := turn_false (y := setting.prog)
    (Editing.load_next describing_rewrites (hpath ▸ hfile))
  have h3 := turn_false (y := setting.prog)
    (Editing.compareBytes_next describing_rewrites (hpath ▸ hfile))
  have h4 := turn_true (x := describing.store (base "first" 3) (baseText "first" 3))
    (Editing.prog_next (e := setting) rfl (by decide) (hpath' ▸ hfile))
  have h5 := turn_true (x := describing.store (base "first" 3) (baseText "first" 3))
    (Editing.load_next setting_rewrites (hpath' ▸ hfile))
  have h6 := turn_true (x := describing.store (base "first" 3) (baseText "first" 3))
    (Editing.compareBytes_next setting_rewrites (hpath' ▸ hfile))
  have hstored : (describing.store (base "first" 3) (baseText "first" 3)).next baseDir none =
      (describing.publish (base "first" 3),
        [.overwrite describing.tmp (bytesOf (baseText "first" 3))]) := Editing.store_next
  have h7 := turn_false (y := setting.store (base "d" 5) (baseText "d" 5)) hstored
  have hpublished : (describing.publish (base "first" 3)).next (FileWrite.applyAll baseDir
      [.overwrite describing.tmp (bytesOf (baseText "first" 3))]) none =
      (.done (.ok (base "first" 3)), [.rename describing.tmp describing.path]) :=
    Editing.publish_next
  have h8 : _ = (⟨describedDir, _⟩ : Shared Bool String _) :=
    turn_false (y := setting.store (base "d" 5) (baseText "d" 5)) hpublished
  have hstored' : (setting.store (base "d" 5) (baseText "d" 5)).next describedDir none =
      (setting.publish (base "d" 5),
        [.overwrite setting.tmp (bytesOf (baseText "d" 5))]) := Editing.store_next
  have h9 := turn_true (x := .done (.ok (base "first" 3))) hstored'
  have hpublished' : (setting.publish (base "d" 5)).next (FileWrite.applyAll describedDir
      [.overwrite setting.tmp (bytesOf (baseText "d" 5))]) none =
      (.done (.ok (base "d" 5)), [.rename setting.tmp setting.path]) := Editing.publish_next
  have h10 := turn_true (x := .done (.ok (base "first" 3))) hpublished'
  rw [FileWrite.applyAll_nil] at h1 h2 h3 h4 h5 h6
  rw [start_editings, tangled]
  constructor
  · rw [Shared.answers_running h1 rfl, Shared.answers_running h2 rfl, Shared.answers_running h3 rfl,
      Shared.answers_running h4 rfl, Shared.answers_running h5 rfl, Shared.answers_running h6 rfl,
      Shared.answers_running h7 rfl, Shared.answers_answered h8 rfl rfl,
      Shared.answers_running h9 rfl, Shared.answers_answered h10 rfl rfl]
    rfl
  · rw [List.foldl_cons, h1, List.foldl_cons, h2, List.foldl_cons, h3, List.foldl_cons, h4,
      List.foldl_cons, h5, List.foldl_cons, h6, List.foldl_cons, h7, List.foldl_cons, h8,
      List.foldl_cons, h9, List.foldl_cons, h10, List.foldl_nil]
    rw [← hpath']
    dsimp only
    exact Editing.applyAll_published

theorem undisturbing_false {d : Disk String} {x y : Editing.Running} {path : String}
    (h : Editing.exposed path y = []) :
    Editing.Undisturbing path (⟨d, pair x y⟩ : Shared Bool String _) ⟨false, none⟩ := by
  rintro (_ | _) hi f hf
  · exact absurd rfl hi
  · have hf : f ∈ Editing.exposed path y := hf
    rw [h] at hf
    exact absurd hf List.not_mem_nil

theorem undisturbing_true {d : Disk String} {x y : Editing.Running} {path : String}
    (h : Editing.exposed path x = []) :
    Editing.Undisturbing path (⟨d, pair x y⟩ : Shared Bool String _) ⟨true, none⟩ := by
  rintro (_ | _) hi f hf
  · have hf : f ∈ Editing.exposed path x := hf
    rw [h] at hf
    exact absurd hf List.not_mem_nil
  · exact absurd rfl hi

/-- The second edit loads before the first one begins, and compares after it. -/
def overtaking : List (Turn Bool) :=
  [⟨true, none⟩, ⟨true, none⟩, ⟨false, none⟩, ⟨false, none⟩, ⟨false, none⟩, ⟨false, none⟩,
    ⟨false, none⟩, ⟨true, none⟩]

theorem overtaking_undisturbing : Runs.Along Shared.step (Editing.Undisturbing "base.yaml")
    (Editing.start editings baseDir) overtaking := by
  have hfile : baseDir "base.yaml" = some (bytesOf (baseText "d" 3)) := by
    rw [baseDir, if_pos rfl]
  have hpath : describing.path = "base.yaml" := by decide
  have hpath' : setting.path = "base.yaml" := by decide
  rw [start_editings]
  refine ⟨undisturbing_true Editing.exposed_prog, ?_⟩
  rw [turn_true (Editing.prog_next rfl (by decide) (hpath' ▸ hfile)), FileWrite.applyAll_nil]
  refine ⟨undisturbing_true Editing.exposed_prog, ?_⟩
  rw [turn_true (Editing.load_next setting_rewrites (hpath' ▸ hfile)), FileWrite.applyAll_nil]
  refine ⟨undisturbing_false rfl, ?_⟩
  rw [turn_false (Editing.prog_next rfl (by decide) (hpath ▸ hfile)), FileWrite.applyAll_nil]
  refine ⟨undisturbing_false rfl, ?_⟩
  rw [turn_false (Editing.load_next describing_rewrites (hpath ▸ hfile)), FileWrite.applyAll_nil]
  refine ⟨undisturbing_false rfl, ?_⟩
  rw [turn_false (Editing.compareBytes_next describing_rewrites (hpath ▸ hfile)),
    FileWrite.applyAll_nil]
  refine ⟨undisturbing_false rfl, ?_⟩
  rw [turn_false Editing.store_next]
  refine ⟨undisturbing_false rfl, ?_⟩
  rw [turn_false Editing.publish_next]
  exact ⟨undisturbing_true rfl, trivial⟩

end Sample

namespace Editing

/-- The description that was saved first is lost. -/
theorem no_lost_update_fails :
    ¬NoLostUpdate Sample.editings (pathFor "base") Sample.baseDir Sample.tangled := by
  intro h
  have happlied := h.applied
  obtain ⟨hanswers, hfile⟩ := Sample.tangled_run
  have hpath : pathFor "base" = "base.yaml" := by decide
  rw [hanswers, hpath, hfile, Sample.baseDir, if_pos rfl] at happlied
  cases happlied with
  | @saved _ _ _ _ text _ hfirst happlied =>
    obtain rfl := Except.ok.inj (hfirst.written.symm.trans Sample.describing_rewrites.written)
    cases happlied with
    | saved hsecond _ =>
      have hsame : Sample.base "d" 5 = Sample.base "first" 5 :=
        Except.ok.inj (hsecond.rewritten.symm.trans Sample.setting_rewrites_first.rewritten)
      have hdescription : "d" = "first" := congrArg ProfileYaml.description hsame
      exact absurd hdescription (by decide)

/-- An edit that is overtaken before its compare. -/
theorem no_lost_update_overtaking :
    NoLostUpdate Sample.editings (pathFor "base") Sample.baseDir Sample.overtaking :=
  no_lost_update (fun b => by cases b <;> rfl) Sample.overtaking_undisturbing

end Editing

end ProtocolEnforcer
