import ProtocolEnforcer.Manifest.Changes
import ProtocolEnforcer.Manifest.Protected

/-!
# All or nothing

Every way to change a profile ends in one atomic write, so a verb that fails has changed no
profile's file, and one that succeeds has put what it answers where it belongs. There are two
ways around that. A rename removes the old file after it has written the new one: where the
removal fails, the verb does, and the new file stays. And a verb that changes the profile of
a file writes it back to that file, whatever name the profile in it has.
-/

namespace ProtocolEnforcer

open Effect FileTask

namespace ProfileEditor

section

variable (editor : ProfileEditor) (d : Disk String) (fault : Nat → Option FileFault)

/-- The profile is valid, and this is what it is written as. -/
structure Savable (profile : ProfileYaml) (text : String) : Prop where
  valid : validateProfile editor.schemas editor.library.toLibrary profile.served = .ok ()
  written : editor.yaml.toString profile = .ok text

/-- A change that gets to its end: the profile that it loads, the one that it saves, and what
that one is written as. None of its four operations is made to fail. -/
structure Carries (c : Change) (profile changed : ProfileYaml) (text : String) : Prop where
  asked : c.asks = .ok ()
  source : ∃ bytes, editor.Loads d c.name profile bytes
  unprotected : profile.protected = false
  changes : c.mutate profile = .ok changed
  savable : editor.Savable changed text
  checked : c.checks changed = .ok ()
  undisturbed : ∀ n < 4, fault n = none

/-- A rename that gets as far as writing the new file. -/
structure Moves (name newName : String) (force : Bool) (profile : ProfileYaml) (text : String) :
    Prop where
  safe : isSafeName newName = true
  source : ∃ bytes, editor.Loads d name profile bytes
  unprotected : profile.protected = false
  free : name = newName ∨ d (pathFor newName) = none ∨ force = true
  savable : editor.Savable { profile with name := newName } text
  undisturbed : ∀ n < 4, fault n = none

end

variable {editor : ProfileEditor} {stamp : EditStamp} {fault : Nat → Option FileFault}
  {d : Disk String} {n : Nat} {s : FileProg.State String} {name newName : String}
  {profile profile' changed : ProfileYaml} {bytes bytes' : Bytes} {text : String} {c : Change}

/-- Nothing but temporary files has been written. -/
def Aside (s : FileProg.State String) : Prop := ∀ name, Spares (pathFor name) s

theorem aside_clean (h : Clean d n s) : Aside s := fun _ => spares_clean h

theorem aside_failed {path : String} (h : AtomicWriteFailed fault n stamp path s) : Aside s :=
  fun _ => spares_failed h

/-- A file loads as one profile only. -/
theorem Loads.unique (h : editor.Loads d name profile bytes)
    (h' : editor.Loads d name profile' bytes') : profile = profile' := by
  obtain rfl := Option.some.inj (h.file.symm.trans h'.file)
  exact Except.ok.inj (h.parsed.symm.trans h'.parsed)

/-! ## One save -/

theorem save_spec {Q : Unit → FileProg.State String → Prop} {R : FileProg.State String → Prop}
    (ok : ∀ text s, editor.yaml.toString profile = .ok text → fault n = none →
      fault (n + 1) = none →
      Wrote d (atomicWrites stamp (pathFor name) (bytesOf text)) (n + 2) s → Q () s)
    (fail : ∀ s, Aside s → (∀ text, editor.yaml.toString profile = .ok text →
      fault n = none → fault (n + 1) ≠ none) → R s) :
    Triple (Clean d n) (effect fault (editor.save stamp (pathFor name) profile)) Q R := by
  refine bind_lift (fun content hcontent => ?_) fun e herror s hs => ?_
  · have hwritten := mapError_eq_ok.mp hcontent
    exact atomicWrite_spec (fun s hs hfirst hsecond => ok content s hwritten hfirst hsecond hs)
      fun s hs => fail s (aside_failed hs) fun _ _ => hs.fault
  · refine fail s (aside_clean hs) fun text htext => ?_
    rw [htext] at herror
    cases herror

/-- **A change is carried to its end, or nothing but temporary files is written.** -/
theorem carry_spec : Triple (Clean d 0) (effect fault (editor.carry stamp c))
    (fun changed s => ∃ profile text, editor.Carries d fault c profile changed text ∧
      Wrote d (atomicWrites stamp (pathFor c.name) (bytesOf text)) 4 s)
    (fun s => Aside s ∧ ∀ profile changed text, ¬editor.Carries d fault c profile changed text) := by
  refine bind_lift (fun _ hasked => ?_) fun e herror s hs => ⟨aside_clean hs, fun _ _ _ h => ?_⟩
  swap
  · rw [h.asked] at herror
    cases herror
  refine bind_spec (loadWithBytes_spec fun hnone m s hs =>
    ⟨aside_clean hs, fun _ _ _ h => ?_⟩) ?_
  · obtain ⟨bytes, hload⟩ := h.source
    exact hnone (h.undisturbed 0 (by decide)) _ _ hload
  rintro ⟨profile, path, bytes⟩
  refine .of_fact ?_
  rintro ⟨hfirst, rfl, hload⟩
  -- what a change that gets to its end loads is this profile
  have hsame : ∀ {profile' changed text}, editor.Carries d fault c profile' changed text →
      profile' = profile := fun h => h.source.elim fun _ hsource => hsource.unique hload
  refine bind_ensure (fun hopen => ?_) fun hprotected s hs =>
    ⟨aside_clean hs, fun _ _ _ h => ?_⟩
  swap
  · rw [← hsame h, h.unprotected] at hprotected
    cases hprotected
  refine bind_lift (fun changed hchanges => ?_) fun e herror s hs =>
    ⟨aside_clean hs, fun _ _ _ h => ?_⟩
  swap
  · rw [← hsame h, h.changes] at herror
    cases herror
  have hresult : ∀ {profile' changed' text}, editor.Carries d fault c profile' changed' text →
      changed' = changed := fun h => by
    obtain rfl := hsame h
    exact Except.ok.inj (h.changes.symm.trans hchanges)
  refine bind_lift (fun _ hvalid => ?_) fun e herror s hs => ⟨aside_clean hs, fun _ _ _ h => ?_⟩
  swap
  · rw [← hresult h, h.savable.valid] at herror
    cases herror
  refine bind_lift (fun _ hchecked => ?_) fun e herror s hs => ⟨aside_clean hs, fun _ _ _ h => ?_⟩
  swap
  · rw [← hresult h, h.checked] at herror
    cases herror
  refine bind_spec (M := fun _ s => ∃ text, editor.Carries d fault c profile changed text ∧
    Wrote d (atomicWrites stamp (pathFor c.name) (bytesOf text)) 4 s) ?_ fun _ =>
    .pure fun s ⟨text, hcarries, hs⟩ => ⟨profile, text, hcarries, hs⟩
  refine bind_spec (unchanged_spec hload.file fun hfault s hs =>
    ⟨aside_clean hs, fun _ _ _ h => hfault (h.undisturbed 1 (by decide))⟩) fun _ =>
    .of_fact fun hsecond => ?_
  refine save_spec (fun text s hwritten hthird hfourth hs => ⟨text, ?_, hs⟩) fun s hs hnone =>
    ⟨hs, fun _ _ _ h => ?_⟩
  · exact {
      asked := hasked
      source := ⟨bytes, hload⟩
      unprotected := Bool.not_eq_true' _ ▸ hopen
      changes := hchanges
      savable := ⟨mapError_eq_ok.mp hvalid, hwritten⟩
      checked := hchecked
      undisturbed
        | 0, _ => hfirst
        | 1, _ => hsecond
        | 2, _ => hthird
        | 3, _ => hfourth
        | n + 4, h => absurd h (by omega) }
  · obtain rfl := hresult h
    exact hnone _ h.savable.written (h.undisturbed 2 (by decide)) (h.undisturbed 3 (by decide))

/-! ## What is on disk after it -/

section

variable {target : String} {content : Bytes}

theorem applyAll_atomicWrites :
    FileWrite.applyAll d (atomicWrites stamp (pathFor target) content) (pathFor target) =
      some content := by
  rw [atomicWrites, FileWrite.applyAll, List.foldl_cons, List.foldl_cons, List.foldl_nil]
  simp only [FileWrite.apply, Function.update_of_ne pathFor_ne_tmpPath, Function.update_self]

theorem applyAll_atomicWrites_other (hne : name ≠ target) :
    FileWrite.applyAll d (atomicWrites stamp (pathFor target) content) (pathFor name) =
      d (pathFor name) := by
  let ws := atomicWrites stamp (pathFor target) content
  have hspares : Spares (pathFor name) ⟨FileWrite.applyAll d ws, ws, 0⟩ :=
    spares_atomicWrites hne.symm rfl
  exact FileWrite.applyAll_other fun w hw => hspares w hw

end

/-! ## Renaming -/

/-- The writes of a rename that has an old file to remove. -/
def moveWrites (stamp : EditStamp) (name newName : String) (content : Bytes) :
    List (FileWrite String) :=
  atomicWrites stamp (pathFor newName) content ++ [.remove (pathFor name)]

/-- What a rename of `profile` that succeeds has written. -/
def Moved (fault : Nat → Option FileFault) (d : Disk String) (stamp : EditStamp)
    (name newName : String) (text : String) (s : FileProg.State String) : Prop :=
  (name = newName ∧ Wrote d (atomicWrites stamp (pathFor newName) (bytesOf text)) 4 s) ∨
    (name ≠ newName ∧ fault 4 = none ∧
      Wrote d (moveWrites stamp name newName (bytesOf text)) 5 s)

/-- What it leaves where only the removal of the old file has failed. -/
def HalfMoved (fault : Nat → Option FileFault) (d : Disk String) (stamp : EditStamp)
    (name newName : String) (text : String) (s : FileProg.State String) : Prop :=
  name ≠ newName ∧ fault 4 ≠ none ∧
    Wrote d (atomicWrites stamp (pathFor newName) (bytesOf text)) 5 s

/-- **A rename happens as a whole, happens up to the removal of the old file, or writes
nothing but temporary files.** -/
theorem rename_spec {force : Bool} :
    Triple (Clean d 0) (effect fault (editor.rename stamp name newName force))
      (fun moved s => ∃ profile text, editor.Moves d fault name newName force profile text ∧
        moved = { profile with name := newName } ∧ Moved fault d stamp name newName text s)
      (fun s =>
        (Aside s ∧ ∀ profile text, ¬editor.Moves d fault name newName force profile text) ∨
        ∃ profile text, editor.Moves d fault name newName force profile text ∧
          HalfMoved fault d stamp name newName text s) := by
  refine bind_ensure (fun hsafe => ?_) fun hunsafe s hs =>
    .inl ⟨aside_clean hs, fun _ _ h => ?_⟩
  swap
  · rw [h.safe] at hunsafe
    cases hunsafe
  refine bind_spec (loadWithBytes_spec fun hnone m s hs =>
    .inl ⟨aside_clean hs, fun _ _ h => ?_⟩) ?_
  · obtain ⟨bytes, hload⟩ := h.source
    exact hnone (h.undisturbed 0 (by decide)) _ _ hload
  rintro ⟨profile, path, bytes⟩
  refine .of_fact ?_
  rintro ⟨hfirst, rfl, hload⟩
  have hsame : ∀ {profile' text}, editor.Moves d fault name newName force profile' text →
      profile' = profile := fun h => h.source.elim fun _ hsource => hsource.unique hload
  refine bind_ensure (fun hopen => ?_) fun hprotected s hs =>
    .inl ⟨aside_clean hs, fun _ _ h => ?_⟩
  swap
  · rw [← hsame h, h.unprotected] at hprotected
    cases hprotected
  -- the name is its own or free, or `force` makes it so
  refine bind_spec (M := fun _ s => (name = newName ∨ d (pathFor newName) = none ∨
    force = true) ∧ Clean d 1 s) ?_ fun _ => .of_fact fun hfree => ?_
  · refine onlyIf_spec (fun hdistinct => ?_) fun hsame s hs =>
      ⟨.inl (of_not_not (of_decide_eq_false hsame)), hs⟩
    unfold profileExists
    rw [if_pos hsafe]
    refine bind_pathExists (ensure_spec (fun hensured s hs => ⟨.inr ?_, hs⟩) fun hrefused s hs =>
      .inl ⟨aside_clean hs, fun _ _ h => ?_⟩)
    · cases hthere : d (pathFor newName) with
      | none => exact .inl rfl
      | some there =>
        rw [hthere] at hensured
        exact .inr hensured
    · rcases h.free with heq | habsent | hforce
      · exact of_decide_eq_true hdistinct heq
      · rw [habsent] at hrefused
        cases hrefused
      · rw [hforce, Bool.or_true] at hrefused
        cases hrefused
  refine bind_lift (fun _ hvalid => ?_) fun e herror s hs =>
    .inl ⟨aside_clean hs, fun _ _ h => ?_⟩
  swap
  · obtain rfl := hsame h
    rw [h.savable.valid] at herror
    cases herror
  refine bind_spec (unchanged_spec hload.file fun hfault s hs =>
    .inl ⟨aside_clean hs, fun _ _ h => hfault (h.undisturbed 1 (by decide))⟩) fun _ =>
    .of_fact fun hsecond => ?_
  refine bind_spec (M := fun _ s => ∃ text, editor.Moves d fault name newName force profile text ∧
    Wrote d (atomicWrites stamp (pathFor newName) (bytesOf text)) 4 s) ?_ fun _ =>
    .of_exists fun text => .of_fact fun hmoves => ?_
  · refine save_spec (fun text s hwritten hthird hfourth hs => ⟨text, ?_, hs⟩)
      fun s hs hnone => .inl ⟨hs, fun _ _ h => ?_⟩
    · exact {
        safe := hsafe
        source := ⟨bytes, hload⟩
        unprotected := Bool.not_eq_true' _ ▸ hopen
        free := hfree
        savable := ⟨mapError_eq_ok.mp hvalid, hwritten⟩
        undisturbed
          | 0, _ => hfirst
          | 1, _ => hsecond
          | 2, _ => hthird
          | 3, _ => hfourth
          | n + 4, h => absurd h (by omega) }
    · obtain rfl := hsame h
      exact hnone _ h.savable.written (h.undisturbed 2 (by decide)) (h.undisturbed 3 (by decide))
  refine bind_spec (M := fun _ s => Moved fault d stamp name newName text s) ?_ fun _ =>
    .pure fun s hs => ⟨profile, text, hmoves, rfl, hs⟩
  refine onlyIf_spec (fun hdiffers => ?_) fun hsame s hs => .inl ⟨?_, hs⟩
  · have hne : name ≠ newName := by
      rintro rfl
      exact of_decide_eq_true hdiffers rfl
    refine write_after (fun hfault s hs => .inr ⟨hne, hfault, hs⟩) fun written hposs s hs =>
      .inr ⟨profile, text, hmoves, hne, fun hfault => ?_, ?_⟩
    · -- the old file is there to be removed
      have himpossible := hposs hfault
      rw [FileWrite.possible, applyAll_atomicWrites_other hne, hload.file] at himpossible
      cases himpossible
    · rwa [FileWrite.partially_remove, List.append_nil] at hs
  · exact pathFor_injective (of_not_not (of_decide_eq_false hsame))

/-! ## The other verbs -/

/-- What a verb that creates a profile has written. -/
structure Stored (editor : ProfileEditor) (d : Disk String) (stamp : EditStamp) (target : String)
    (p : ProfileYaml) (s : FileProg.State String) : Prop where
  named : p.name = target
  savable : ∃ text m, editor.Savable p text ∧
    Wrote d (atomicWrites stamp (pathFor target) (bytesOf text)) m s

theorem checkExisting_clean {force : Bool} :
    Triple (Clean d n) (effect fault (editor.checkExisting name force))
      (fun _ s => ∃ m, Clean d m s) Aside := by
  unfold checkExisting profileExists
  split
  · refine bind_pathExists (onlyIf_spec (fun _ => ?_) fun _ s hs => ⟨n, hs⟩)
    refine bind_ensure (fun _ => ?_) fun _ _ => aside_clean
    refine bind_spec (loadProfile_spec fun _ _ => aside_clean) fun _ => .of_fact fun _ => ?_
    exact ensure_spec (fun _ s hs => ⟨_, hs⟩) fun _ _ => aside_clean
  · exact .pure fun s hs => ⟨n, hs⟩

/-- What `create` and `clone` end with. -/
theorem store_spec {p : ProfileYaml} {I : ProfileYaml → Prop} (hp : I p) (hname : p.name = name) :
    Triple (Clean d n) (effect fault (do
        editor.validate p
        editor.save stamp (pathFor name) p
        return p))
      (fun p s => I p ∧ Stored editor d stamp name p s) Aside := by
  refine bind_spec (validate_spec fun _ => aside_clean) fun _ => .of_fact fun hvalid => ?_
  refine bind_spec (M := fun _ s => I p ∧ Stored editor d stamp name p s) ?_ fun _ =>
    .pure fun _ hs => hs
  exact save_spec (fun text s hwritten _ _ hs => ⟨hp, hname, text, _, ⟨hvalid, hwritten⟩, hs⟩)
    fun s hs _ => hs

theorem create_spec {description : String} {force : Bool} :
    Triple (Clean d 0) (effect fault (editor.create stamp name description force))
      (fun p s => p = scaffoldProfile stamp.now name description ∧ Stored editor d stamp name p s)
      Aside := by
  refine bind_ensure (fun _ => ?_) fun _ _ => aside_clean
  exact bind_spec checkExisting_clean fun _ => .of_exists fun m => store_spec rfl rfl

theorem clone_spec {source : String} {force : Bool} :
    Triple (Clean d 0) (effect fault (editor.clone stamp source newName force))
      (fun p s => (∃ profile bytes, editor.Loads d source profile bytes ∧
        p = profile.clone stamp.now newName) ∧ Stored editor d stamp newName p s) Aside := by
  refine bind_ensure (fun _ => ?_) fun _ _ => aside_clean
  refine bind_spec (loadProfile_spec fun _ _ => aside_clean) fun profile => .of_fact ?_
  rintro ⟨bytes, hload⟩
  exact bind_spec checkExisting_clean fun _ => .of_exists fun m =>
    store_spec ⟨profile, bytes, hload, rfl⟩ rfl

theorem delete_spec : Triple (Clean d 0) (effect fault (editor.delete name))
    (fun _ s => s.disk = Function.update d (pathFor name) none) Aside := by
  refine bind_spec (loadWithBytes_spec fun _ _ _ => aside_clean) ?_
  rintro ⟨profile, path, bytes⟩
  refine .of_fact ?_
  rintro ⟨-, rfl, -⟩
  refine bind_ensure (fun _ => ?_) fun _ _ => aside_clean
  refine write_first (fun _ s hs => ?_) fun written _ s hs => ?_
  · rw [hs]
    rfl
  · rw [FileWrite.partially_remove] at hs
    exact aside_clean hs

theorem preview_spec {mutate : Mutation} :
    Triple (Clean d 0) (effect fault (editor.preview stamp name mutate))
      (fun _ s => Aside s) Aside := by
  refine bind_spec (loadWithBytes_spec fun _ _ _ => aside_clean) ?_
  rintro ⟨profile, path, bytes⟩
  refine .of_fact ?_
  rintro ⟨-, rfl, -⟩
  refine bind_ensure (fun _ => ?_) fun _ _ => aside_clean
  refine bind_lift (fun changed _ => ?_) fun _ _ _ => aside_clean
  refine bind_spec (validate_spec fun _ => aside_clean) fun _ => .of_fact fun _ => ?_
  exact bind_spec (M := fun _ => Aside) (.pure fun _ => aside_clean) fun _ => .pure fun _ hs => hs

/-! ## Calls -/

section

variable (editor) (d) (call : EditorCall)

/-- The editor, over what the library holds by the time of a call. -/
def serving : ProfileEditor := { editor with library := call.library }

/-- A call that fails leaves every profile's file as it was. One that answers a profile has
put it, valid, in the file of its name, and has changed no other profile's file but the one
that a rename removes. One that answers none, a deletion, is on its target alone. -/
structure AllOrNothing : Prop where
  failed : ∀ e, (editor.serve d call).1 = .error e →
    ∀ name, editor.after d call (pathFor name) = d (pathFor name)
  saved : ∀ p, (∀ name mutate, call.verb ≠ .preview name mutate) →
    (editor.serve d call).1 = .ok (some p) →
    (∃ text, (editor.serving call).Savable p text ∧
      editor.after d call (pathFor p.name) = some (bytesOf text)) ∧
    ∀ name, name ≠ p.name → editor.after d call (pathFor name) = d (pathFor name) ∨
      (∃ newName force, call.verb = .rename name newName force) ∧
        editor.after d call (pathFor name) = none
  deleted : (editor.serve d call).1 = .ok none →
    ∀ name, name ∉ call.verb.targets → editor.after d call (pathFor name) = d (pathFor name)

/-- The call is a rename that gets to its last operation, the removal of the old file, which
is made to fail. The new file was not what it now is. -/
def HalfRenames : Prop :=
  ∃ name newName force profile text, call.verb = .rename name newName force ∧
    (editor.serving call).Moves d call.fault name newName force profile text ∧ name ≠ newName ∧
    call.fault 4 ≠ none ∧ d (pathFor newName) ≠ some (bytesOf text)

/-- The call carries a change through on a file whose profile has another name than the file,
and neither that file nor the one of that name was what the outcome is written as. -/
def Misfiles : Prop :=
  ∃ c profile changed text, (editor.serving call).change call.verb = some c ∧
    (editor.serving call).Carries d call.fault c profile changed text ∧ profile.name ≠ c.name ∧
    ¬(d (pathFor c.name) = some (bytesOf text) ∧ d (pathFor profile.name) = some (bytesOf text))

end

variable {call : EditorCall}

theorem after_aside (h : Aside (editor.serve d call).2) (name : String) :
    editor.after d call (pathFor name) = d (pathFor name) := after_eq (h name)

section

variable {stamp : EditStamp} {target : String} {content : Bytes} {m : Nat}
  (h : Wrote d (atomicWrites stamp (pathFor target) content) m (editor.serve d call).2)
include h

theorem after_target : editor.after d call (pathFor target) = some content := by
  rw [after, h]
  exact applyAll_atomicWrites

theorem after_other (hne : name ≠ target) :
    editor.after d call (pathFor name) = d (pathFor name) := by
  rw [after, h]
  exact applyAll_atomicWrites_other hne

end

section

variable {stamp : EditStamp} {content : Bytes} {m : Nat}
  (h : Wrote d (moveWrites stamp name newName content) m (editor.serve d call).2)
include h

theorem after_move : editor.after d call = Function.update
    (FileWrite.applyAll d (atomicWrites stamp (pathFor newName) content)) (pathFor name) none := by
  rw [after, h]
  exact FileWrite.applyAll_append

theorem after_removed : editor.after d call (pathFor name) = none := by
  rw [after_move h, Function.update_self]

theorem after_moved (hne : name ≠ newName) :
    editor.after d call (pathFor newName) = some content := by
  rw [after_move h, Function.update_of_ne fun heq => hne (pathFor_injective heq).symm]
  exact applyAll_atomicWrites

theorem after_unmoved {name' : String} (hnew : name' ≠ newName) (hold : name' ≠ name) :
    editor.after d call (pathFor name') = d (pathFor name') := by
  rw [after_move h, Function.update_of_ne fun heq => hold (pathFor_injective heq)]
  exact applyAll_atomicWrites_other hnew

end

/-- A call that has failed, and has written to no profile's file. -/
theorem allOrNothing_of_error {e : EditError} (h : (editor.serve d call).1 = .error e)
    (hs : Aside (editor.serve d call).2) : editor.AllOrNothing d call where
  failed _ _ := after_aside hs
  saved _ _ hok := absurd (h.symm.trans hok) nofun
  deleted hok := absurd (h.symm.trans hok) nofun

/-- A call that has saved a profile where it belongs. -/
theorem allOrNothing_of_saved {p : ProfileYaml} (h : (editor.serve d call).1 = .ok (some p))
    (hs : Stored (editor.serving call) d call.stamp p.name p (editor.serve d call).2) :
    editor.AllOrNothing d call := by
  obtain ⟨text, m, hsavable, hs⟩ := hs.savable
  refine ⟨fun e herror => absurd (h.symm.trans herror) nofun, fun p' _ hok => ?_,
    fun hok => absurd (h.symm.trans hok) nofun⟩
  obtain rfl := Option.some.inj (Except.ok.inj (h.symm.trans hok))
  exact ⟨⟨text, hsavable, after_target hs⟩, fun name hne => .inl (after_other hs hne)⟩

/-- A verb that creates a profile saves it, or writes to no profile's file. -/
theorem serve_stores {verb : Verb} {x : Edit ProfileYaml} {I : ProfileYaml → Prop} {target : String}
    (hverb : call.verb = verb)
    (hperform : (editor.serving call).perform call.stamp verb = some <$> x)
    (hx : Triple (Clean d 0) (effect call.fault x)
      (fun p s => I p ∧ Stored (editor.serving call) d call.stamp target p s) Aside) :
    (∃ p, (editor.serve d call).1 = .ok (some p) ∧ I p ∧
      Stored (editor.serving call) d call.stamp target p (editor.serve d call).2) ∨
    ∃ e, (editor.serve d call).1 = .error e ∧ Aside (editor.serve d call).2 := by
  have hspec : Triple (Clean d 0) (effect call.fault (some <$> x))
      (fun r s => ∃ p, r = some p ∧ I p ∧
        Stored (editor.serving call) d call.stamp target p s) Aside :=
    map_spec (hx.conseq (fun _ hs => hs) (fun p _ hs => ⟨p, rfl, hs⟩) fun _ hs => hs)
  rw [← hperform, ← hverb] at hspec
  rcases hspec.answers rfl with ⟨r, hok, p, rfl, hs⟩ | ⟨e, herror, hs⟩
  · exact .inl ⟨p, hok, hs⟩
  · exact .inr ⟨e, herror, hs⟩

/-- So such a verb is all or nothing. -/
theorem allOrNothing_of_stores {verb : Verb} {x : Edit ProfileYaml} {I : ProfileYaml → Prop}
    {target : String} (hverb : call.verb = verb)
    (hperform : (editor.serving call).perform call.stamp verb = some <$> x)
    (hx : Triple (Clean d 0) (effect call.fault x)
      (fun p s => I p ∧ Stored (editor.serving call) d call.stamp target p s) Aside) :
    editor.AllOrNothing d call := by
  rcases serve_stores hverb hperform hx with ⟨p, hok, -, hs⟩ | ⟨e, herror, hs⟩
  · exact allOrNothing_of_saved hok (hs.named ▸ hs)
  · exact allOrNothing_of_error herror hs

/-- A call that makes a change carries it to its end, or writes to no profile's file. -/
theorem serve_change (hchange : (editor.serving call).change call.verb = some c) :
    (∃ changed profile text, (editor.serve d call).1 = .ok (some changed) ∧
      (editor.serving call).Carries d call.fault c profile changed text ∧
      Wrote d (atomicWrites call.stamp (pathFor c.name) (bytesOf text)) 4 (editor.serve d call).2) ∨
    ∃ e, (editor.serve d call).1 = .error e ∧ Aside (editor.serve d call).2 ∧
      ∀ profile changed text,
        ¬(editor.serving call).Carries d call.fault c profile changed text := by
  have hspec : Triple (Clean d 0)
      (effect call.fault (some <$> (editor.serving call).carry call.stamp c))
      (fun r s => ∃ changed profile text, r = some changed ∧
        (editor.serving call).Carries d call.fault c profile changed text ∧
        Wrote d (atomicWrites call.stamp (pathFor c.name) (bytesOf text)) 4 s) _ :=
    map_spec (carry_spec.conseq (fun _ hs => hs)
      (fun changed _ ⟨profile, text, h⟩ => ⟨changed, profile, text, rfl, h⟩) fun _ hs => hs)
  rw [← perform_change hchange] at hspec
  rcases hspec.answers rfl with ⟨r, hok, changed, profile, text, rfl, hcarries, hs⟩ |
    ⟨e, herror, hs, hnone⟩
  · exact .inl ⟨changed, profile, text, hok, hcarries, hs⟩
  · exact .inr ⟨e, herror, hs, hnone⟩

/-- A change that gets to its end is what the call answers. -/
theorem serve_carries (hchange : (editor.serving call).change call.verb = some c)
    (hcarries : (editor.serving call).Carries d call.fault c profile changed text) :
    (editor.serve d call).1 = .ok (some changed) := by
  rcases serve_change (d := d) hchange with ⟨changed', profile', text', hok, hcarries', -⟩ |
    ⟨e, -, -, hnone⟩
  · obtain ⟨bytes, hsource⟩ := hcarries.source
    obtain ⟨bytes', hsource'⟩ := hcarries'.source
    obtain rfl := hsource.unique hsource'
    obtain rfl := Except.ok.inj (hcarries.changes.symm.trans hcarries'.changes)
    exact hok
  · exact absurd hcarries (hnone _ _ _)

/-- A change is, unless it is on a file that has a profile of another name. -/
theorem allOrNothing_of_change (hchange : (editor.serving call).change call.verb = some c) :
    editor.AllOrNothing d call ↔ ¬editor.Misfiles d call := by
  have hmutating : ∀ name mutate, call.verb ≠ .preview name mutate := by
    intro name mutate heq
    rw [heq] at hchange
    cases hchange
  have hrenames : ∀ name newName force, call.verb ≠ .rename name newName force := by
    intro name newName force heq
    rw [heq] at hchange
    cases hchange
  rcases serve_change (d := d) hchange with ⟨changed, profile, text, hok, hcarries, hs⟩ |
    ⟨e, herror, hs, hnone⟩
  · have hname : changed.name = profile.name := change_keepsName hchange hcarries.changes
    constructor
    · rintro h ⟨c', profile', changed', text', hchange', hcarries', hne, hdiffers⟩
      cases hchange.symm.trans hchange'
      obtain ⟨bytes, hsource⟩ := hcarries.source
      obtain ⟨bytes', hsource'⟩ := hcarries'.source
      obtain rfl := hsource.unique hsource'
      obtain rfl := Except.ok.inj (hcarries.changes.symm.trans hcarries'.changes)
      obtain rfl := Except.ok.inj (hcarries.savable.written.symm.trans hcarries'.savable.written)
      obtain ⟨⟨text', hsavable, hfile⟩, hothers⟩ := h.saved changed hmutating hok
      obtain rfl := Except.ok.inj (hcarries.savable.written.symm.trans hsavable.written)
      rw [hname] at hfile hothers
      -- the file of the name is not the one that was written to, which is another
      refine hdiffers ⟨?_, (after_other hs hne).symm.trans hfile⟩
      rcases hothers c.name hne.symm with hsame | ⟨⟨newName, force, hrename⟩, -⟩
      · exact hsame.symm.trans (after_target hs)
      · exact absurd hrename (hrenames _ _ _)
    · intro h
      by_cases hsame : profile.name = c.name
      · refine allOrNothing_of_saved hok ⟨rfl, text, 4, hcarries.savable, ?_⟩
        rw [hname, hsame]
        exact hs
      · have hthere : d (pathFor c.name) = some (bytesOf text) ∧
            d (pathFor profile.name) = some (bytesOf text) := by
          by_contra hdiffers
          exact h ⟨c, profile, changed, text, hchange, hcarries, hsame, hdiffers⟩
        have hkept : ∀ name, editor.after d call (pathFor name) = d (pathFor name) := by
          intro name
          by_cases heq : name = c.name
          · rw [heq, after_target hs, hthere.1]
          · exact after_other hs heq
        refine ⟨fun _ _ => hkept, fun p _ hok' => ?_, fun hok' => absurd (hok.symm.trans hok') nofun⟩
        obtain rfl := Option.some.inj (Except.ok.inj (hok.symm.trans hok'))
        refine ⟨⟨text, hcarries.savable, ?_⟩, fun name _ => .inl (hkept name)⟩
        rw [hname, hkept, hthere.2]
  · refine iff_of_true (allOrNothing_of_error herror hs) ?_
    rintro ⟨c', profile, changed, text, hchange', hcarries, -⟩
    cases hchange.symm.trans hchange'
    exact hnone _ _ _ hcarries

/-- A rename happens as a whole, leaves the old file, or writes to no profile's file. -/
theorem serve_rename {force : Bool} (hverb : call.verb = .rename name newName force) :
    (∃ profile text, (editor.serve d call).1 = .ok (some { profile with name := newName }) ∧
      (editor.serving call).Moves d call.fault name newName force profile text ∧
      Moved call.fault d call.stamp name newName text (editor.serve d call).2) ∨
    (∃ e, (editor.serve d call).1 = .error e ∧ Aside (editor.serve d call).2 ∧
      ∀ profile text,
        ¬(editor.serving call).Moves d call.fault name newName force profile text) ∨
    ∃ e profile text, (editor.serve d call).1 = .error e ∧
      (editor.serving call).Moves d call.fault name newName force profile text ∧
      HalfMoved call.fault d call.stamp name newName text (editor.serve d call).2 := by
  have hspec : Triple (Clean d 0)
      (effect call.fault (some <$> (editor.serving call).rename call.stamp name newName force))
      (fun r s => ∃ profile text,
        (editor.serving call).Moves d call.fault name newName force profile text ∧
        r = some { profile with name := newName } ∧
        Moved call.fault d call.stamp name newName text s) _ :=
    map_spec (rename_spec.conseq (fun _ hs => hs)
      (fun _ _ ⟨profile, text, hmoves, hp, h⟩ => ⟨profile, text, hmoves, congrArg some hp, h⟩)
      fun _ hs => hs)
  have hperform : (editor.serving call).perform call.stamp call.verb =
      some <$> (editor.serving call).rename call.stamp name newName force := by
    rw [hverb]
    rfl
  rw [← hperform] at hspec
  rcases hspec.answers rfl with ⟨r, hok, profile, text, hmoves, rfl, hs⟩ |
    ⟨e, herror, ⟨hs, hnone⟩ | ⟨profile, text, hmoves, hs⟩⟩
  · exact .inl ⟨profile, text, hok, hmoves, hs⟩
  · exact .inr (.inl ⟨e, herror, hs, hnone⟩)
  · exact .inr (.inr ⟨e, profile, text, herror, hmoves, hs⟩)

/-- A rename is, unless only the removal of the old file fails. -/
theorem allOrNothing_of_rename {force : Bool} (hverb : call.verb = .rename name newName force) :
    editor.AllOrNothing d call ↔ ¬editor.HalfRenames d call := by
  have unique : ∀ {profile profile' text text'},
      (editor.serving call).Moves d call.fault name newName force profile text →
      (editor.serving call).Moves d call.fault name newName force profile' text' →
      text = text' := by
    intro profile profile' text text' h h'
    obtain ⟨bytes, hsource⟩ := h.source
    obtain ⟨bytes', hsource'⟩ := h'.source
    obtain rfl := hsource.unique hsource'
    exact Except.ok.inj (h.savable.written.symm.trans h'.savable.written)
  rcases serve_rename (d := d) hverb with ⟨profile, text, hok, hmoves, hs⟩ |
    ⟨e, herror, hs, hnone⟩ | ⟨e, profile, text, herror, hmoves, hne, hfault, hs⟩
  · refine iff_of_true ?_ ?_
    · rcases hs with ⟨-, hs⟩ | ⟨hne, -, hs⟩
      · exact allOrNothing_of_saved hok ⟨rfl, text, 4, hmoves.savable, hs⟩
      · refine ⟨fun e herror => absurd (hok.symm.trans herror) nofun, fun p _ hok' => ?_,
          fun hok' => absurd (hok.symm.trans hok') nofun⟩
        obtain rfl := Option.some.inj (Except.ok.inj (hok.symm.trans hok'))
        refine ⟨⟨text, hmoves.savable, after_moved hs hne⟩, fun name' hne' => ?_⟩
        by_cases heq : name' = name
        · exact .inr ⟨⟨newName, force, heq ▸ hverb⟩, heq ▸ after_removed hs⟩
        · exact .inl (after_unmoved hs hne' heq)
    · rintro ⟨name', newName', force', profile', text', hverb', hmoves', hne', hfault', hdiffers⟩
      cases hverb.symm.trans hverb'
      rcases hs with ⟨hsame, -⟩ | ⟨-, hfault, -⟩
      · exact hne' hsame
      · exact hfault' hfault
  · refine iff_of_true (allOrNothing_of_error herror hs) ?_
    rintro ⟨name', newName', force', profile', text', hverb', hmoves', -⟩
    cases hverb.symm.trans hverb'
    exact hnone _ _ hmoves'
  · constructor
    · rintro h ⟨name', newName', force', profile', text', hverb', hmoves', -, -, hdiffers⟩
      cases hverb.symm.trans hverb'
      obtain rfl := unique hmoves hmoves'
      exact hdiffers ((h.failed e herror newName).symm.trans (after_target hs))
    · intro h
      have hthere : d (pathFor newName) = some (bytesOf text) := by
        by_contra hdiffers
        exact h ⟨name, newName, force, profile, text, hverb, hmoves, hne, hfault, hdiffers⟩
      refine ⟨fun _ _ name' => ?_, fun _ _ hok => absurd (herror.symm.trans hok) nofun,
        fun hok => absurd (herror.symm.trans hok) nofun⟩
      by_cases heq : name' = newName
      · rw [heq, after_target hs, hthere]
      · exact after_other hs heq

/-- A deletion takes the file away, or writes to no profile's file. -/
theorem serve_delete (hverb : call.verb = .delete name) :
    ((editor.serve d call).1 = .ok none ∧
      editor.after d call = Function.update d (pathFor name) none) ∨
    ∃ e, (editor.serve d call).1 = .error e ∧ Aside (editor.serve d call).2 := by
  have hspec : Triple (Clean d 0)
      (effect call.fault ((editor.serving call).perform call.stamp (.delete name)))
      (fun r s => r = none ∧ s.disk = Function.update d (pathFor name) none) Aside :=
    map_spec (delete_spec.conseq (fun _ hs => hs) (fun _ _ hs => ⟨rfl, hs⟩) fun _ hs => hs)
  rw [← hverb] at hspec
  rcases hspec.answers rfl with ⟨r, hok, rfl, hdisk⟩ | ⟨e, herror, hs⟩
  · exact .inl ⟨hok, hdisk⟩
  · exact .inr ⟨e, herror, hs⟩

/-- A deletion is all or nothing. -/
theorem allOrNothing_of_delete (hverb : call.verb = .delete name) :
    editor.AllOrNothing d call := by
  rcases serve_delete (d := d) hverb with ⟨hok, hdisk⟩ | ⟨e, herror, hs⟩
  · refine ⟨fun e herror => absurd (hok.symm.trans herror) nofun,
      fun p _ hok' => absurd (hok.symm.trans hok') nofun, fun _ name' hne => ?_⟩
    rw [hverb, Verb.targets, List.mem_singleton] at hne
    rw [hdisk, Function.update_of_ne fun heq => hne (pathFor_injective heq)]
  · exact allOrNothing_of_error herror hs

/-- So is a preview, which writes nothing. -/
theorem allOrNothing_of_preview {mutate : Mutation} (hverb : call.verb = .preview name mutate) :
    editor.AllOrNothing d call := by
  have hspec : Triple (Clean d 0)
      (effect call.fault ((editor.serving call).perform call.stamp (.preview name mutate)))
      (fun _ s => Aside s) Aside := map_spec preview_spec
  rw [← hverb] at hspec
  have haside : Aside (editor.serve d call).2 := hspec.ends rfl
  exact ⟨fun _ _ => after_aside haside, fun _ hmutating => absurd hverb (hmutating _ _),
    fun _ _ _ => after_aside haside _⟩

/-- **All or nothing, but for two kinds of calls**: with any of its file operations failing, a
verb fails without a trace or succeeds as a whole if and only if it is neither a rename of
which only the removal of the old file fails, nor a change of a profile whose name is not the
one of its file. -/
theorem all_or_nothing_iff : editor.AllOrNothing d call ↔
    ¬editor.HalfRenames d call ∧ ¬editor.Misfiles d call := by
  have notRename : (∀ name newName force, call.verb ≠ .rename name newName force) →
      ¬editor.HalfRenames d call := by
    rintro h ⟨name, newName, force, _, _, hverb, -⟩
    exact h name newName force hverb
  have notChange : (editor.serving call).change call.verb = none → ¬editor.Misfiles d call := by
    rintro h ⟨c, _, _, _, hchange, -⟩
    cases h.symm.trans hchange
  cases hchange : (editor.serving call).change call.verb with
  | some c =>
    refine (allOrNothing_of_change hchange).trans ⟨fun h => ⟨notRename ?_, h⟩, fun h => h.2⟩
    intro name newName force hverb
    rw [hverb] at hchange
    cases hchange
  | none =>
    have hfiled := notChange hchange
    cases hverb : call.verb with
    | rename name newName force =>
      exact (allOrNothing_of_rename hverb).trans ⟨fun h => ⟨h, hfiled⟩, fun h => h.1⟩
    | create name description force =>
      exact iff_of_true (allOrNothing_of_stores hverb rfl create_spec)
        ⟨notRename fun _ _ _ h => absurd (hverb.symm.trans h) nofun, hfiled⟩
    | clone source newName force =>
      exact iff_of_true (allOrNothing_of_stores hverb rfl clone_spec)
        ⟨notRename fun _ _ _ h => absurd (hverb.symm.trans h) nofun, hfiled⟩
    | delete name =>
      exact iff_of_true (allOrNothing_of_delete hverb)
        ⟨notRename fun _ _ _ h => absurd (hverb.symm.trans h) nofun, hfiled⟩
    | preview name mutate =>
      exact iff_of_true (allOrNothing_of_preview hverb)
        ⟨notRename fun _ _ _ h => absurd (hverb.symm.trans h) nofun, hfiled⟩
    | _ =>
      rw [hverb] at hchange
      cases hchange

end ProfileEditor

/-! ## A rename that stops half way -/

namespace Sample

/-- Of the rename of `base`, the removal of `base.yaml` is denied. -/
def renameHalfWay : EditorCall where
  verb := .rename "base" "other" false
  library := emptyLibrary
  stamp := ⟨"2026-08-13T00:00:00+00:00", 1, 1⟩
  fault n := if n = 4 then some ⟨"Permission denied (os error 13)", none⟩ else none

end Sample

namespace ProfileEditor

/-- The rename fails, and `other.yaml` is there. -/
theorem all_or_nothing_fails :
    ¬Sample.profileEditor.AllOrNothing Sample.profilesDir Sample.renameHalfWay := by
  refine fun h => (all_or_nothing_iff.mp h).1 ⟨"base", "other", false,
    Sample.authored "base" false, Sample.yamlText "other" false, rfl, ?_, by decide, nofun, ?_⟩
  · exact {
      safe := by decide
      source := ⟨_, Sample.base_loads.safe, Sample.base_loads.file, Sample.base_loads.parsed⟩
      unprotected := rfl
      free := .inr (.inl rfl)
      savable := ⟨by rfl, rfl⟩
      undisturbed := fun n hn => if_neg (Nat.ne_of_lt hn) }
  · rw [Sample.profilesDir, if_neg (by decide), if_neg (by decide)]
    exact (Option.some_ne_none _).symm

end ProfileEditor

end ProtocolEnforcer
