import ProtocolEnforcer.Core.Runs
import ProtocolEnforcer.Manifest.EditorVerbs

/-!
# Protected profiles and the editor

A verb writes to its target after a load of the target that has found it unprotected:
`apply`, the hook verbs and `delete` load what they change, `create` and `clone` load what
they are about to replace. `rename` loads its source alone, so a forced rename onto a
protected profile goes through. That is the one way: along a run without such a rename, no
write of the editor is on a protected profile's file, and every call that aims at one
fails.
-/

namespace ProtocolEnforcer

open Effect FileTask

/-! ## File names -/

theorem pathFor_injective {name name' : String} (h : pathFor name = pathFor name') :
    name = name' := by
  rw [pathFor, pathFor, ← String.toList_inj, String.toList_append, String.toList_append] at h
  exact String.toList_inj.mp (List.append_cancel_right h)

/-- No temporary file is a profile's file: it ends in a digit. -/
theorem pathFor_ne_tmpPath {stamp : EditStamp} {path name : String} :
    pathFor name ≠ tmpPath stamp path := by
  intro heq
  have hlast := congrArg (fun s : String => s.toList.getLast?) heq
  have hdigits : (toString stamp.nanos).toList = Nat.toDigits 10 stamp.nanos := by
    rw [Nat.toString_eq_repr, Nat.toList_repr]
  have hne : Nat.toDigits 10 stamp.nanos ≠ [] :=
    List.ne_nil_of_length_pos Nat.length_toDigits_pos
  simp only [pathFor, tmpPath, String.toList_append, hdigits] at hlast
  rw [List.getLast?_append_of_ne_nil _ (by decide), List.getLast?_append_of_ne_nil _ hne] at hlast
  have hmem : 'l' ∈ Nat.toDigits 10 stamp.nanos := List.mem_of_getLast? hlast.symm
  exact absurd (Nat.isDigit_of_mem_toDigits (by decide) (by decide) hmem) (by decide)

namespace ProfileEditor

section

variable (editor : ProfileEditor)

/-- The profile on disk under a name is protected. -/
def Protected (d : Disk String) (name : String) : Prop :=
  ∃ profile bytes, d (pathFor name) = some bytes ∧
    editor.yaml.fromStr (fromUtf8Lossy bytes) = .ok profile ∧ profile.protected = true

/-- A forced rename of an unprotected profile onto a protected one that gets as far as its
write: the renamed profile is valid and can be written, and none of the four operations up
to there is made to fail. -/
structure RenamesOnto (d : Disk String) (fault : Nat → Option FileFault) (name newName : String)
    (profile : ProfileYaml) (bytes : Bytes) : Prop where
  distinct : name ≠ newName
  safe : isSafeName newName = true
  target : editor.Protected d newName
  source : editor.Loads d name profile bytes
  unprotected : profile.protected = false
  valid : validateProfile editor.schemas editor.library.toLibrary
    ({ profile with name := newName } : ProfileYaml).served = .ok ()
  text : ∃ text, editor.yaml.toString { profile with name := newName } = .ok text
  undisturbed : ∀ n < 4, fault n = none

end

/-- The writes of a run leave a file alone. -/
def Spares (f : String) (s : FileProg.State String) : Prop := ∀ w ∈ s.log, f ∉ w.files

variable {editor : ProfileEditor} {stamp : EditStamp} {fault : Nat → Option FileFault}
  {d : Disk String} {n : Nat} {s : FileProg.State String} {name locked : String}
  {profile : ProfileYaml} {bytes : Bytes} {mutate : Mutation}

theorem Loads.protected_eq (h : editor.Loads d name profile bytes)
    (hlocked : editor.Protected d name) : profile.protected = true := by
  obtain ⟨profile', bytes', hfile, hparsed, hprotected⟩ := hlocked
  obtain rfl := Option.some.inj (h.file.symm.trans hfile)
  cases h.parsed.symm.trans hparsed
  exact hprotected

/-- What has loaded as unprotected is another profile. -/
theorem Loads.ne (h : editor.Loads d name profile bytes) (hopen : profile.protected = false)
    (hlocked : editor.Protected d locked) : name ≠ locked := by
  rintro rfl
  rw [h.protected_eq hlocked] at hopen
  cases hopen

theorem spares_clean (h : Clean d n s) : Spares (pathFor locked) s := by
  rw [h]
  exact fun _ hw => absurd hw List.not_mem_nil

theorem spares_failed {path : String} (h : AtomicWriteFailed fault n stamp path s) :
    Spares (pathFor locked) s := by
  intro w hw hmem
  rw [h.writes w hw, List.mem_singleton] at hmem
  exact pathFor_ne_tmpPath hmem

theorem spares_atomicWrites {content : Bytes} (hne : name ≠ locked)
    (h : Wrote d (atomicWrites stamp (pathFor name) content) n s) : Spares (pathFor locked) s := by
  intro w hw hmem
  rw [h] at hw
  dsimp only at hw
  rw [atomicWrites, List.mem_cons, List.mem_singleton] at hw
  rcases hw with rfl | rfl
  · exact pathFor_ne_tmpPath (List.mem_singleton.mp hmem)
  · rw [FileWrite.files, List.mem_cons, List.mem_singleton] at hmem
    rcases hmem with hmem | hmem
    · exact pathFor_ne_tmpPath hmem
    · exact hne (pathFor_injective hmem).symm

/-! ## What the parts of a verb write -/

/-- A save is on the file it names. -/
theorem save_spares (hne : name ≠ locked) :
    Triple (Clean d n) (effect fault (editor.save stamp (pathFor name) profile))
      (fun _ => Spares (pathFor locked)) (Spares (pathFor locked)) := by
  refine bind_lift (fun content _ => ?_) fun _ _ _ hs => spares_clean hs
  exact atomicWrite_spec (fun _ hs _ _ => spares_atomicWrites hne hs) fun _ => spares_failed

theorem validate_spec {R : FileProg.State String → Prop}
    (fail : ∀ s, Clean d n s → R s) :
    Triple (Clean d n) (effect fault (editor.validate profile))
      (fun _ s => validateProfile editor.schemas editor.library.toLibrary profile.served =
        .ok () ∧ Clean d n s) R :=
  lift_spec (fun _ hvalid _ hs => ⟨mapError_eq_ok.mp hvalid, hs⟩) fun _ _ => fail

theorem atomicSaveCas_spares (hne : name ≠ locked) (hload : editor.Loads d name profile bytes)
    {changed : ProfileYaml} :
    Triple (Clean d n) (effect fault (editor.atomicSaveCas stamp (pathFor name) bytes changed))
      (fun _ => Spares (pathFor locked)) (Spares (pathFor locked)) :=
  bind_spec (unchanged_spec hload.file fun _ _ => spares_clean) fun _ =>
    .of_fact fun _ => save_spares hne

/-- Removing another profile's file, after writes that spare this one. -/
theorem remove_spares (hne : name ≠ locked) :
    Triple (Spares (pathFor locked))
      (effect fault (write (.remove (pathFor name)) EditError.io : Edit Unit))
      (fun _ => Spares (pathFor locked)) (Spares (pathFor locked)) := by
  refine write_spec (fun s hs _ w hw hmem => ?_) fun s written hs _ w hw hmem => ?_
  · rcases List.mem_append.mp hw with hw | hw
    · exact hs w hw hmem
    · rw [List.mem_singleton.mp hw] at hmem
      exact hne (pathFor_injective (List.mem_singleton.mp hmem)).symm
  · have hw : w ∈ s.log ++ (FileWrite.remove (pathFor name)).partially written := hw
    rw [FileWrite.partially_remove, List.append_nil] at hw
    exact hs w hw hmem

section

variable (hlocked : editor.Protected d locked)
include hlocked

/-- `edit` saves what it has found unprotected. -/
theorem edit_spares {persist : Bool} :
    Triple (Clean d 0) (effect fault (editor.edit stamp name persist mutate))
      (fun _ s => (persist = true → name ≠ locked) ∧ Spares (pathFor locked) s)
      (Spares (pathFor locked)) := by
  refine bind_spec (loadWithBytes_spec fun _ _ _ => spares_clean) ?_
  rintro ⟨profile, path, bytes⟩
  refine .of_fact ?_
  rintro ⟨-, rfl, hload⟩
  refine bind_ensure (fun hensured => ?_) fun _ _ => spares_clean
  have hne : persist = true → name ≠ locked := by
    rintro rfl
    refine hload.ne ?_ hlocked
    simpa using hensured
  refine bind_lift (fun changed _ => ?_) fun _ _ _ => spares_clean
  refine bind_spec (validate_spec fun _ => spares_clean) fun _ => .of_fact fun _ => ?_
  refine bind_spec (M := fun _ => Spares (pathFor locked)) ?_ fun _ =>
    .pure fun _ hs => ⟨hne, hs⟩
  exact onlyIf_spec (fun hpersist => atomicSaveCas_spares (hne hpersist) hload) fun _ _ =>
    spares_clean

theorem apply_spares : Triple (Clean d 0) (effect fault (editor.apply stamp name mutate))
    (fun _ s => name ≠ locked ∧ Spares (pathFor locked) s) (Spares (pathFor locked)) :=
  (edit_spares hlocked).conseq (fun _ hs => hs) (fun _ _ h => ⟨h.1 rfl, h.2⟩) fun _ hs => hs

/-- So do the hook verbs. -/
theorem editWithHookValidation_spares :
    Triple (Clean d 0) (effect fault (editor.editWithHookValidation stamp name mutate))
      (fun _ s => name ≠ locked ∧ Spares (pathFor locked) s) (Spares (pathFor locked)) := by
  refine bind_spec (loadWithBytes_spec fun _ _ _ => spares_clean) ?_
  rintro ⟨profile, path, bytes⟩
  refine .of_fact ?_
  rintro ⟨-, rfl, hload⟩
  refine bind_ensure (fun hopen => ?_) fun _ _ => spares_clean
  have hne : name ≠ locked := hload.ne (Bool.not_eq_true' _ ▸ hopen) hlocked
  refine bind_lift (fun changed _ => ?_) fun _ _ _ => spares_clean
  refine bind_spec (validate_spec fun _ => spares_clean) fun _ => .of_fact fun _ => ?_
  refine bind_lift (fun _ _ => ?_) fun _ _ _ => spares_clean
  exact bind_spec (atomicSaveCas_spares hne hload) fun _ => .pure fun _ hs => ⟨hne, hs⟩

/-- What `create` and `clone` are about to replace is unprotected. -/
theorem checkExisting_spares (hsafe : isSafeName name = true) {force : Bool} :
    Triple (Clean d n) (effect fault (editor.checkExisting name force))
      (fun _ s => name ≠ locked ∧ ∃ m, Clean d m s) (Spares (pathFor locked)) := by
  unfold checkExisting profileExists
  rw [if_pos hsafe]
  refine bind_pathExists (onlyIf_spec (fun _ => ?_) fun habsent s hs => ?_)
  · refine bind_ensure (fun _ => ?_) fun _ _ => spares_clean
    refine bind_spec (loadProfile_spec fun _ _ => spares_clean) fun profile => .of_fact ?_
    rintro ⟨bytes, hload⟩
    exact ensure_spec (fun hopen s hs =>
      ⟨hload.ne (Bool.not_eq_true' _ ▸ hopen) hlocked, _, hs⟩) fun _ _ => spares_clean
  · refine ⟨?_, _, hs⟩
    rintro rfl
    obtain ⟨profile, bytes, hfile, -⟩ := hlocked
    rw [hfile] at habsent
    cases habsent

theorem create_spares {description : String} {force : Bool} :
    Triple (Clean d 0) (effect fault (editor.create stamp name description force))
      (fun _ s => name ≠ locked ∧ Spares (pathFor locked) s) (Spares (pathFor locked)) := by
  refine bind_ensure (fun hsafe => ?_) fun _ _ => spares_clean
  refine bind_spec (checkExisting_spares hlocked hsafe) fun _ => .of_fact fun hne =>
    .of_exists fun m => ?_
  refine bind_spec (validate_spec fun _ => spares_clean) fun _ => .of_fact fun _ => ?_
  exact bind_spec (save_spares hne) fun _ => .pure fun _ hs => ⟨hne, hs⟩

theorem clone_spares {source newName : String} {force : Bool} :
    Triple (Clean d 0) (effect fault (editor.clone stamp source newName force))
      (fun _ s => newName ≠ locked ∧ Spares (pathFor locked) s) (Spares (pathFor locked)) := by
  refine bind_ensure (fun hsafe => ?_) fun _ _ => spares_clean
  refine bind_spec (loadProfile_spec fun _ _ => spares_clean) fun _ => .of_fact fun _ => ?_
  refine bind_spec (checkExisting_spares hlocked hsafe) fun _ => .of_fact fun hne =>
    .of_exists fun m => ?_
  refine bind_spec (validate_spec fun _ => spares_clean) fun _ => .of_fact fun _ => ?_
  exact bind_spec (save_spares hne) fun _ => .pure fun _ hs => ⟨hne, hs⟩

theorem delete_spares : Triple (Clean d 0) (effect fault (editor.delete name))
    (fun _ s => name ≠ locked ∧ Spares (pathFor locked) s) (Spares (pathFor locked)) := by
  refine bind_spec (loadWithBytes_spec fun _ _ _ => spares_clean) ?_
  rintro ⟨profile, path, bytes⟩
  refine .of_fact ?_
  rintro ⟨-, rfl, hload⟩
  refine bind_ensure (fun hopen => ?_) fun _ _ => spares_clean
  have hne : name ≠ locked := hload.ne (Bool.not_eq_true' _ ▸ hopen) hlocked
  exact (remove_spares hne).conseq (fun _ => spares_clean) (fun _ _ hs => ⟨hne, hs⟩) fun _ hs => hs

/-! ## Renaming -/

/-- A rename looks at what its target holds only where it is not forced. -/
theorem rename_spares {newName : String} {force : Bool}
    (hspares : force = true → ∀ profile bytes,
      ¬editor.RenamesOnto d fault name newName profile bytes) :
    Triple (Clean d 0) (effect fault (editor.rename stamp name newName force))
      (fun _ s => locked ∉ [name, newName] ∧ Spares (pathFor locked) s)
      (Spares (pathFor locked)) := by
  refine bind_ensure (fun hsafe => ?_) fun _ _ => spares_clean
  refine bind_spec (loadWithBytes_spec fun _ _ _ => spares_clean) ?_
  rintro ⟨profile, path, bytes⟩
  refine .of_fact ?_
  rintro ⟨hfirst, rfl, hload⟩
  refine bind_ensure (fun hopen => ?_) fun _ _ => spares_clean
  have hopen : profile.protected = false := Bool.not_eq_true' _ ▸ hopen
  have hne : name ≠ locked := hload.ne hopen hlocked
  -- without `force`, the target is not there: it is not the protected one
  refine bind_spec (M := fun _ s => (force = false → newName ≠ locked) ∧ Clean d 1 s) ?_ fun _ =>
    .of_fact fun hfree => ?_
  · refine onlyIf_spec (fun _ => ?_) fun hsame s hs => ⟨fun _ => ?_, hs⟩
    · unfold profileExists
      rw [if_pos hsafe]
      refine bind_pathExists (ensure_spec (fun hensured s hs => ⟨?_, hs⟩) fun _ _ => spares_clean)
      rintro rfl rfl
      obtain ⟨_, _, hfile, -⟩ := hlocked
      rw [hfile] at hensured
      cases hensured
    · rw [← of_not_not (of_decide_eq_false hsame)]
      exact hne
  refine bind_spec (validate_spec fun _ => spares_clean) fun _ => .of_fact fun hvalid => ?_
  refine bind_spec (unchanged_spec hload.file fun _ _ => spares_clean) fun _ =>
    .of_fact fun hsecond => ?_
  by_cases htarget : newName = locked
  · -- forced onto the protected profile: the write is not reached, or fails
    subst htarget
    have hforce : force = true := by
      by_contra hunforced
      exact hfree (Bool.not_eq_true _ ▸ hunforced) rfl
    refine bind_spec (M := fun _ _ => False) ?_ fun _ _ h => h.elim
    refine bind_lift (fun content hcontent => ?_) fun _ _ _ => spares_clean
    refine atomicWrite_spec (fun s _ hthird hfourth => hspares hforce profile bytes ?_)
      fun _ => spares_failed
    exact {
      distinct := hne
      safe := hsafe
      target := hlocked
      source := hload
      unprotected := hopen
      valid := hvalid
      text := ⟨content, mapError_eq_ok.mp hcontent⟩
      undisturbed
        | 0, _ => hfirst
        | 1, _ => hsecond
        | 2, _ => hthird
        | 3, _ => hfourth
        | n + 4, h => absurd h (by omega) }
  · refine bind_spec (save_spares htarget) fun _ => bind_spec (M := fun _ =>
      Spares (pathFor locked)) ?_ fun _ => .pure fun _ hs => ⟨?_, hs⟩
    · exact onlyIf_spec (fun _ => remove_spares hne) fun _ _ hs => hs
    · rw [List.mem_cons, List.mem_singleton]
      exact not_or.mpr ⟨hne.symm, Ne.symm htarget⟩

/-- **No verb but a forced rename writes to a protected profile**, and one that was to has
not succeeded. -/
theorem perform_spares {verb : Verb}
    (hspares : ∀ name newName profile bytes, verb = .rename name newName true →
      ¬editor.RenamesOnto d fault name newName profile bytes) :
    Triple (Clean d 0) (effect fault (editor.perform stamp verb))
      (fun _ s => locked ∉ verb.targets ∧ Spares (pathFor locked) s)
      (Spares (pathFor locked)) := by
  have single : ∀ {α : Type} {name : String} {x : Edit α} {g : α → Option ProfileYaml},
      Triple (Clean d 0) (effect fault x)
        (fun _ s => name ≠ locked ∧ Spares (pathFor locked) s) (Spares (pathFor locked)) →
      Triple (Clean d 0) (effect fault (g <$> x))
        (fun _ s => locked ∉ [name] ∧ Spares (pathFor locked) s) (Spares (pathFor locked)) :=
    fun h => map_spec (h.conseq (fun _ hs => hs)
      (fun _ _ hs => ⟨fun hmem => hs.1 (List.mem_singleton.mp hmem).symm, hs.2⟩) fun _ hs => hs)
  cases verb with
  | create => exact single (create_spares hlocked)
  | clone => exact single (clone_spares hlocked)
  | delete => exact single (delete_spares hlocked)
  | rename name newName force =>
    refine map_spec (rename_spares hlocked ?_)
    rintro rfl profile bytes
    exact hspares name newName profile bytes rfl
  | preview =>
    exact map_spec ((edit_spares hlocked).conseq (fun _ hs => hs)
      (fun _ _ hs => ⟨List.not_mem_nil, hs.2⟩) fun _ hs => hs)
  | attachSkill | attachProtocol =>
    exact single (bind_ensure (fun _ => apply_spares hlocked) fun _ _ => spares_clean)
  | attachMacroHook | detachMacroHook | attachSubHook | detachSubHook =>
    exact single (editWithHookValidation_spares hlocked)
  | _ => exact single (apply_spares hlocked)

end

/-- A rename that meets the conditions writes over its target. -/
theorem rename_overwrites {newName : String}
    (h : editor.RenamesOnto d fault name newName profile bytes) :
    Triple (Clean d 0) (effect fault (editor.rename stamp name newName true))
      (fun _ s => ¬Spares (pathFor newName) s) fun s => ¬Spares (pathFor newName) s := by
  have hload := h.source
  refine bind_ensure (fun _ => ?_) fun hunsafe => absurd (h.safe.symm.trans hunsafe) nofun
  refine bind_spec (loadWithBytes_spec fun hnone _ _ =>
    absurd hload (hnone (h.undisturbed 0 (by decide)) _ _)) ?_
  rintro ⟨profile', path, bytes'⟩
  refine .of_fact ?_
  rintro ⟨-, rfl, hload'⟩
  obtain rfl := Option.some.inj (hload.file.symm.trans hload'.file)
  cases hload.parsed.symm.trans hload'.parsed
  refine bind_ensure (fun _ => ?_) fun hprotected => ?_
  · refine bind_spec (M := fun _ => Clean d 1) ?_ fun _ => ?_
    · refine onlyIf_spec (fun _ => ?_) fun _ _ hs => hs
      unfold profileExists
      rw [if_pos h.safe]
      refine bind_pathExists (ensure_spec (fun _ _ hs => hs) fun hunforced => ?_)
      rw [Bool.or_true] at hunforced
      cases hunforced
    refine bind_lift (fun _ _ => ?_) fun e hinvalid => ?_
    · refine bind_spec (unchanged_spec hload.file fun hfault =>
        absurd (h.undisturbed 1 (by decide)) hfault) fun _ => .of_fact fun _ => ?_
      have wrote : ∀ {s : FileProg.State String} ws, ¬Spares (pathFor newName) s →
          ¬Spares (pathFor newName) (s.wrote ws) := fun ws hs hspares =>
        hs fun w hw => hspares w (List.mem_append_left ws hw)
      refine bind_spec (M := fun _ s => ¬Spares (pathFor newName) s) ?_ fun _ =>
        bind_spec (M := fun _ s => ¬Spares (pathFor newName) s) ?_ fun _ => .pure fun _ hs => hs
      · obtain ⟨text, htext⟩ := h.text
        refine bind_lift (fun content _ => ?_) fun e herror => ?_
        · refine atomicWrite_spec (fun s hs _ _ hspares => ?_) fun s hfailed => ?_
          · refine hspares (.rename (tmpPath stamp (pathFor newName)) (pathFor newName)) ?_
              (List.mem_cons_of_mem _ (List.mem_singleton_self _))
            rw [hs]
            exact List.mem_cons_of_mem _ (List.mem_singleton_self _)
          · exact absurd (h.undisturbed 3 (by decide))
              (hfailed.fault (h.undisturbed 2 (by decide)))
        · rw [htext] at herror
          cases herror
      · exact onlyIf_spec (fun _ => write_spec (fun s hs _ => wrote _ hs) fun s _ hs _ =>
          wrote _ hs) fun _ _ hs => hs
    · rw [h.valid] at hinvalid
      cases hinvalid
  · rw [h.unprotected] at hprotected
    cases hprotected

/-! ## Runs of calls -/

section

variable (editor) (d) (call : EditorCall)

/-- No write of a call is on the file of a protected profile, and a call that aims at one
fails. -/
structure Untouched : Prop where
  files : ∀ name, editor.Protected d name →
    ∀ w ∈ (editor.serve d call).2.log, pathFor name ∉ w.files
  fails : ∀ name, editor.Protected d name → name ∈ call.verb.targets →
    ∃ e, (editor.serve d call).1 = .error e

/-- The call is a forced rename onto a protected profile that gets as far as its write. -/
def Clobbers : Prop :=
  ∃ name newName profile bytes, call.verb = .rename name newName true ∧
    ({ editor with library := call.library } : ProfileEditor).RenamesOnto d call.fault name
      newName profile bytes

/-- Along a run every call leaves the protected profiles untouched, and a profile that is
protected at any moment of it has the same bytes on disk at its end. -/
structure Untouchable (calls : List EditorCall) : Prop where
  each : Runs.Along editor.after editor.Untouched d calls
  kept : ∀ before rest, calls = before ++ rest →
    ∀ name, editor.Protected (before.foldl editor.after d) name →
      calls.foldl editor.after d (pathFor name) = before.foldl editor.after d (pathFor name)

end

variable {call : EditorCall} {calls : List EditorCall}

theorem serve_spares (h : ¬editor.Clobbers d call) (hlocked : editor.Protected d locked) :
    Spares (pathFor locked) (editor.serve d call).2 ∧
      (locked ∈ call.verb.targets → ∃ e, (editor.serve d call).1 = .error e) := by
  have hlocked : ({ editor with library := call.library } : ProfileEditor).Protected d locked :=
    hlocked
  have hspec : Triple (Clean d 0)
      (effect call.fault (({ editor with library := call.library } : ProfileEditor).perform
        call.stamp call.verb))
      (fun _ s => locked ∉ call.verb.targets ∧ Spares (pathFor locked) s)
      (Spares (pathFor locked)) :=
    perform_spares hlocked fun name newName profile bytes hverb hrenames =>
      h ⟨name, newName, profile, bytes, hverb, hrenames⟩
  rw [serve_eq]
  rcases hspec.answers rfl with ⟨saved, -, haim, hs⟩ | ⟨e, herror, hs⟩
  · exact ⟨hs, fun hmem => absurd hmem haim⟩
  · exact ⟨hs, fun _ => ⟨e, herror⟩⟩

theorem serve_overwrites (h : editor.Clobbers d call) :
    ∃ name, editor.Protected d name ∧ ¬Spares (pathFor name) (editor.serve d call).2 := by
  obtain ⟨name, newName, profile, bytes, hverb, hrenames⟩ := h
  have hspec : Triple (Clean d 0)
      (effect call.fault (({ editor with library := call.library } : ProfileEditor).perform
        call.stamp (.rename name newName true)))
      (fun _ s => ¬Spares (pathFor newName) s) fun s => ¬Spares (pathFor newName) s :=
    map_spec (Q := fun _ s => ¬Spares (pathFor newName) s) (rename_overwrites hrenames)
  refine ⟨newName, hrenames.target, ?_⟩
  rw [serve_eq, hverb]
  exact hspec.ends rfl

/-- A call leaves the protected profiles untouched just when it is no such rename. -/
theorem untouched_iff : editor.Untouched d call ↔ ¬editor.Clobbers d call := by
  constructor
  · intro huntouched hclobbers
    obtain ⟨name, hlocked, hwritten⟩ := serve_overwrites hclobbers
    exact hwritten (huntouched.files name hlocked)
  · exact fun h => ⟨fun _ hlocked => (serve_spares h hlocked).1,
      fun _ hlocked => (serve_spares h hlocked).2⟩

/-- A file that no write of a call is on stays as it is. -/
theorem after_eq (h : Spares (pathFor name) (editor.serve d call).2) :
    editor.after d call (pathFor name) = d (pathFor name) := by
  obtain ⟨ws, hlog, hdisk⟩ : ∃ ws, (editor.serve d call).2.log = [] ++ ws ∧
      (editor.serve d call).2.disk = FileWrite.applyAll d ws := FileProg.exec_disk _ _
  rw [after, hdisk]
  exact FileWrite.applyAll_other fun w hw => h w (hlog ▸ hw)

/-- **Protected profiles are untouchable exactly where no forced rename goes onto one**: a
run of editor calls leaves every profile that is protected on disk as it is, and fails every
call that aims at one, if and only if none of its calls is a forced rename of an unprotected
profile onto a protected one that gets as far as its write. -/
theorem protected_untouchable_iff : editor.Untouchable d calls ↔
    Runs.Along editor.after (fun d call => ¬editor.Clobbers d call) d calls := by
  constructor
  · exact fun h => (Runs.Along.congr fun _ _ => untouched_iff).mp h.each
  · intro h
    have each := (Runs.Along.congr fun _ _ => untouched_iff).mpr h
    refine ⟨each, ?_⟩
    rintro before rest rfl name hlocked
    rw [List.foldl_append]
    -- what is protected stays the same file, and so protected
    refine Runs.Along.invariant (I := fun d' => d' (pathFor name) =
      before.foldl editor.after d (pathFor name)) (fun d' call huntouched heq => ?_) each.drop rfl
    have hlocked' : editor.Protected d' name := by
      rw [Protected, heq]
      exact hlocked
    exact (after_eq (huntouched.files name hlocked')).trans heq

end ProfileEditor

/-! ## A rename onto a protected profile

A directory with `base` and the protected `locked`. -/

namespace Sample

/-- What `serde_yaml` writes for a profile with one checklist. -/
def yamlText (name : String) (protected' : Bool) : String :=
  "name: " ++ name ++ "\nversion: 1.0.0\ndescription: d\nprotected: " ++
    toString protected' ++ "\ncreated_at: ''\ncloned_from: null\nsettings:\n" ++
    "  oscillation_detection_threshold: 3\n  auto_loop_on_checklist_failure: true\n" ++
    "  global_timeout_seconds: 3600\n  approval_rejection_cap: 10\npipeline:\n" ++
    "- state_id: phase1\n  name: Phase 1\n  description: ''\n  system_prompt: null\n" ++
    "  enabled: true\n  max_iterations: 3\n  loop: false\n  icon: null\n  sub_states:\n" ++
    "  - id: checklist\n    type: checklist\n    name: Checklist\n    description: ''\n" ++
    "    enabled: true\n    criteria:\n    - criterion_1\n    inject: null\n" ++
    "    verify: null\n    approver_pubkey: null\n    approval_prompt: null\n" ++
    "    hooks: []\n  hooks: []\noutput_contract: null\n"

def authored (name : String) (protected' : Bool) : ProfileYaml where
  name := name
  version := "1.0.0"
  description := "d"
  «protected» := protected'
  pipeline := [scaffoldMacro "phase1" "Phase 1"]

/-- `serde_yaml` on these profiles. -/
def format : ProfileFormat where
  fromStr text :=
    if text = yamlText "base" false then .ok (authored "base" false)
    else if text = yamlText "locked" true then .ok (authored "locked" true)
    else .error "expected one of the two profiles"
  toString profile := .ok (yamlText profile.name profile.protected)

def emptyLibrary : HookLibrary where
  root := "./library"
  readToString _ := .error .notFound
  pathExists _ := false
  hookFromStr _ := .error "expected a mapping"

def profileEditor : ProfileEditor where
  yaml := format
  schemas := ⟨⟨fun _ => false, fun _ _ _ => false⟩, fun _ => none⟩
  profilesDir := "profiles"
  library := emptyLibrary

def profilesDir : Disk String := fun file =>
  if file = "base.yaml" then some (bytesOf (yamlText "base" false))
  else if file = "locked.yaml" then some (bytesOf (yamlText "locked" true))
  else none

def renameOntoLocked : EditorCall where
  verb := .rename "base" "locked" true
  library := emptyLibrary
  stamp := ⟨"2026-08-13T00:00:00+00:00", 1, 1⟩
  fault _ := none

theorem base_loads : profileEditor.Loads profilesDir "base" (authored "base" false)
    (bytesOf (yamlText "base" false)) where
  safe := by decide
  file := by rw [profilesDir, if_pos (by decide)]
  parsed := by
    rw [fromUtf8Lossy_of_fromUtf8 (Utf8.fromUtf8_bytesOf _)]
    simp only [profileEditor, format, ↓reduceIte]

theorem locked_protected : profileEditor.Protected profilesDir "locked" := by
  refine ⟨authored "locked" true, bytesOf (yamlText "locked" true), ?_, ?_, rfl⟩
  · rw [profilesDir, if_neg (by decide), if_pos (by decide)]
  have hne : yamlText "locked" true ≠ yamlText "base" false := by decide +kernel
  rw [fromUtf8Lossy_of_fromUtf8 (Utf8.fromUtf8_bytesOf _)]
  simp only [profileEditor, format, if_neg hne, ↓reduceIte]

end Sample

namespace ProfileEditor

/-- Nothing stops it: `locked` is overwritten. -/
theorem protected_untouchable_fails :
    Sample.profileEditor.Protected Sample.profilesDir "locked" ∧
      ¬Sample.profileEditor.Untouchable Sample.profilesDir [Sample.renameOntoLocked] := by
  refine ⟨Sample.locked_protected, fun h => untouched_iff.mp h.each.1 ?_⟩
  refine ⟨"base", "locked", Sample.authored "base" false, bytesOf (Sample.yamlText "base" false),
    rfl, ?_⟩
  exact {
    distinct := by decide
    safe := by decide
    target := Sample.locked_protected
    source := ⟨Sample.base_loads.safe, Sample.base_loads.file, Sample.base_loads.parsed⟩
    unprotected := rfl
    valid := by rfl
    text := ⟨_, rfl⟩
    undisturbed := fun _ _ => rfl }

end ProfileEditor

end ProtocolEnforcer
