import ProtocolEnforcer.Core.Keyed
import ProtocolEnforcer.Gateway.Server
import ProtocolEnforcer.Manifest.Protected

/-!
# What a profile's name means (`profile_manager.rs`, `crates/gateway/src/{introspect,paths}.rs`)

`protocol_profile_list` names the files of the profiles directory by their stems,
`protocol_profile_show` loads `<name>.yaml` for a safe name, and `protocol_start` takes a
reference for a name when it is safe and has no extension of a profile itself. The list asks for
less than the other two: it takes `.yml` files, and stems that are no safe names or look like
paths. The three agree exactly where no such file is in the directory.
-/

namespace ProtocolEnforcer

/-! ## File names -/

/-- The name of a file in a directory, as the operating system has it. -/
structure FileName where
  bytes : Bytes
  nonempty : bytes ≠ []
  noSlash : (0x2F : UInt8) ∉ bytes
  noDots : bytes ≠ bytesOf "." ∧ bytes ≠ bytesOf ".."

theorem FileName.ext_bytes {f f' : FileName} (h : f.bytes = f'.bytes) : f = f' := by
  cases f
  cases f'
  cases h
  rfl

/-- What stands before the last dot and behind it. -/
def splitLastDot (bytes : Bytes) : Option (Bytes × Bytes) :=
  match bytes.reverse.dropWhile (· ≠ 0x2E) with
  | [] => none
  | _ :: before => some (before.reverse, (bytes.reverse.takeWhile (· ≠ 0x2E)).reverse)

/-- The stem and the extension of a name: a name whose only dot is its first character has no
extension. -/
def rsplitFileAtDot (bytes : Bytes) : Option Bytes × Option Bytes :=
  match splitLastDot bytes with
  | none => (none, some bytes)
  | some ([], _) => (some bytes, none)
  | some (before, behind) => (some before, some behind)

/-- `Path::extension`. -/
def FileName.extension (f : FileName) : Option Bytes :=
  (rsplitFileAtDot f.bytes).1.bind fun _ => (rsplitFileAtDot f.bytes).2

/-- `Path::file_stem`. -/
def FileName.fileStem (f : FileName) : Option Bytes :=
  (rsplitFileAtDot f.bytes).1.or (rsplitFileAtDot f.bytes).2

/-- A file that the list takes for a profile. -/
def FileName.IsProfile (f : FileName) : Prop :=
  f.extension = some (bytesOf "yaml") ∨ f.extension = some (bytesOf "yml")

instance (f : FileName) : Decidable f.IsProfile :=
  inferInstanceAs (Decidable (f.extension = _ ∨ f.extension = _))

/-- The name a file is listed under, if it is. -/
def FileName.listedAs (f : FileName) : Option String :=
  if f.IsProfile then f.fileStem.map fromUtf8Lossy else none

/-! ## The three readings -/

/-- The profiles directory: its files with what they hold, in the order in which `read_dir`
gives them. -/
structure ProfilesDir where
  files : List (FileName × Bytes)
  nodup : (files.map Prod.fst).Nodup

namespace ProfilesDir

variable (dir : ProfilesDir)

/-- `ProfileManager::list_profiles`. -/
def listProfiles : List String :=
  (dir.files.filterMap (·.1.listedAs)).mergeSort fun a b => decide (a ≤ b)

/-- What the file of this name holds. -/
def file? (bytes : Bytes) : Option Bytes :=
  (dir.files.find? fun f => f.1.bytes = bytes).map (·.2)

/-- `ProfileManager::load_profile`, the directory having this path. -/
def loadProfile (yaml : ProfileFormat) (path name : String) : Except String ProfileYaml :=
  if !isSafeName name then .error ("Invalid profile name: '" ++ name ++ "'")
  else
    match dir.file? (bytesOf (pathFor name)) with
    | none => .error ("Profile '" ++ name ++ "' not found at " ++
        Text.debugPath (UnixPath.join path (pathFor name)))
    | some bytes =>
      match fromUtf8 bytes with
      | none => .error "Failed to read profile: stream did not contain valid UTF-8"
      | some content => (yaml.fromStr content).mapError fun e => "Failed to parse profile: " ++ e

end ProfilesDir

/-- `profiles_dir`. -/
def Gateway.profilesPath {F : Type} (gw : Gateway F) : String :=
  gw.profilesDir.getD "./profiles"

/-- The path of a file in the directory at `path` (`DirEntry::path`). -/
def FileName.pathIn (f : FileName) (path : String) : Bytes :=
  bytesOf (UnixPath.join path "") ++ f.bytes

/-! ## What is asked of them -/

/-- The file is a profile, as YAML of UTF-8 text. -/
def ProfileFormat.Parses (yaml : ProfileFormat) (bytes : Bytes) (profile : ProfileYaml) : Prop :=
  ∃ text, fromUtf8 bytes = some text ∧ yaml.fromStr text = .ok profile

/-- The list, the loader and the resolver agree: no name is listed twice, and a name that a file
is listed under loads that file, and is resolved as a name to the path of that file. -/
structure NamesAgree {F : Type} (gw : Gateway F) (dir : ProfilesDir) (yaml : ProfileFormat) :
    Prop where
  once : dir.listProfiles.Nodup
  loads : ∀ f ∈ dir.files, ∀ name ∈ f.1.listedAs, bytesOf (pathFor name) = f.1.bytes ∧
    ∃ profile, yaml.Parses f.2 profile ∧ dir.loadProfile yaml gw.profilesPath name = .ok profile
  resolves : ∀ f ∈ dir.files, ∀ name ∈ f.1.listedAs,
    (gw.resolveManifestReference name).2 = true ∧
      bytesOf (gw.resolveManifestReference name).1 = f.1.pathIn gw.profilesPath

/-- A name that the loader takes, and that does not look like a path. -/
def Startable (name : String) : Prop :=
  isSafeName name = true ∧ Text.endsWith (Text.asciiLower name) ".yaml" = false ∧
    Text.endsWith (Text.asciiLower name) ".yml" = false

instance (name : String) : Decidable (Startable name) :=
  inferInstanceAs (Decidable (_ ∧ _ ∧ _))

/-! ## Stems and extensions -/

section

variable {F : Type} {gw : Gateway F} {f : FileName} {dir : ProfilesDir} {name : String}
  {yaml : ProfileFormat}

/-- What stands before a `.yaml` is the stem, unless nothing does. -/
theorem rsplitFileAtDot_yaml {stem : Bytes} (hne : stem ≠ []) :
    rsplitFileAtDot (stem ++ bytesOf ".yaml") = (some stem, some (bytesOf "yaml")) := by
  have hdot : bytesOf ".yaml" = [0x2E, 0x79, 0x61, 0x6D, 0x6C] := by decide
  have hsplit : splitLastDot (stem ++ bytesOf ".yaml") = some (stem, bytesOf "yaml") := by
    rw [splitLastDot, hdot, List.reverse_append]
    show some (stem.reverse.reverse, _) = _
    rw [List.reverse_reverse]
    rfl
  rw [rsplitFileAtDot, hsplit]
  cases stem with
  | nil => exact absurd rfl hne
  | cons b bs => rfl

/-- A profile has a stem, so that it is listed. -/
theorem exists_listedAs (h : f.IsProfile) : ∃ name, f.listedAs = some name := by
  have hext : f.extension.isSome = true := by
    rcases h with h | h <;> rw [h] <;> rfl
  rw [FileName.listedAs, if_pos h, FileName.fileStem]
  rw [FileName.extension] at hext
  cases hstem : (rsplitFileAtDot f.bytes).1 with
  | none =>
    rw [hstem] at hext
    cases hext
  | some stem => exact ⟨fromUtf8Lossy stem, rfl⟩

theorem isProfile_of_listedAs (h : f.listedAs = some name) : f.IsProfile := by
  rw [FileName.listedAs] at h
  split at h
  · assumption
  · cases h

theorem ne_empty_of_isSafeName (h : isSafeName name = true) : name ≠ "" := by
  rintro rfl
  cases h

/-- The file of a safe name is listed under that name. -/
theorem listedAs_pathFor (hsafe : isSafeName name = true) (hf : f.bytes = bytesOf (pathFor name)) :
    f.listedAs = some name := by
  have hne : bytesOf name ≠ [] := mt Utf8.bytesOf_eq_nil (ne_empty_of_isSafeName hsafe)
  have hsplit := rsplitFileAtDot_yaml hne
  rw [← Utf8.bytesOf_append, ← pathFor, ← hf] at hsplit
  have hext : f.extension = some (bytesOf "yaml") := by
    rw [FileName.extension, hsplit]
    rfl
  have hprofile : f.IsProfile := Or.inl hext
  rw [FileName.listedAs, if_pos hprofile, FileName.fileStem, hsplit]
  exact congrArg some (fromUtf8Lossy_of_fromUtf8 (Utf8.fromUtf8_bytesOf name))

/-! ## Resolving -/

theorem resolveManifestReference_eq (gw : Gateway F) (name : String) :
    gw.resolveManifestReference name =
      if Startable name then (UnixPath.join gw.profilesPath (pathFor name), true)
      else (name, false) := by
  refine if_congr ?_ rfl rfl
  simp [Startable, and_assoc]

/-- A relative path goes behind the directory. -/
theorem join_relative {path s : String} (h : UnixPath.isAbsolute s = false) :
    UnixPath.join path s = UnixPath.join path "" ++ s := by
  have hempty : UnixPath.isAbsolute "" = false := rfl
  rw [UnixPath.join, UnixPath.join, h, hempty]
  by_cases hend : path = "" ∨ path.toList.getLast? = some '/'
  · simp [hend]
  · simp [hend]

theorem isAbsolute_pathFor (h : isSafeName name = true) :
    UnixPath.isAbsolute (pathFor name) = false := by
  rw [pathFor, UnixPath.isAbsolute_append _ (ne_empty_of_isSafeName h), UnixPath.isAbsolute]
  have hslash : '/' ∉ name.toList := by
    simp only [isSafeName, Bool.and_eq_true, Bool.not_eq_true', Text.hasChar_eq_false] at h
    exact h.1.1.2
  exact beq_eq_false_iff_ne.mpr fun hhead => hslash (List.mem_of_mem_head? hhead)

/-- A name is resolved to the path of the file it is loaded from. -/
theorem resolveManifestReference_path (h : Startable name)
    (hf : f.bytes = bytesOf (pathFor name)) :
    bytesOf (gw.resolveManifestReference name).1 = f.pathIn gw.profilesPath := by
  rw [resolveManifestReference_eq, if_pos h, FileName.pathIn, hf, ← Utf8.bytesOf_append,
    join_relative (isAbsolute_pathFor h.1)]

/-! ## Loading -/

/-- The file of a safe name is what is loaded under it. -/
theorem loadProfile_pathFor {bytes : Bytes} {profile : ProfileYaml} {path : String}
    (hsafe : isSafeName name = true) (hmem : (f, bytes) ∈ dir.files)
    (hf : f.bytes = bytesOf (pathFor name)) (hparse : yaml.Parses bytes profile) :
    dir.loadProfile yaml path name = .ok profile := by
  obtain ⟨text, htext, hyaml⟩ := hparse
  have hnodup : (dir.files.map (·.1.bytes)).Nodup := by
    have hbytes := dir.nodup.map (f := FileName.bytes) fun _ _ => FileName.ext_bytes
    rwa [List.map_map] at hbytes
  have hfile : dir.file? (bytesOf (pathFor name)) = some bytes := by
    rw [ProfilesDir.file?, ← hf]
    exact congrArg (Option.map _) (find?_of_nodup hnodup hmem)
  rw [ProfilesDir.loadProfile, hsafe, hfile]
  simp only [Bool.not_true, Bool.false_eq_true, if_false, htext, hyaml]
  rfl

/-! ## Agreement -/

/-- **Where the three readings of a profile's name agree**: in the directories in which every
`.yaml` or `.yml` file is `<name>.yaml` for a name that is safe and does not end in `.yaml` or
`.yml` itself, in any case of letters. -/
theorem profile_names_agree_iff
    (hparse : ∀ f ∈ dir.files, ∃ profile, yaml.Parses f.2 profile) :
    NamesAgree gw dir yaml ↔ ∀ f ∈ dir.files, f.1.IsProfile →
      ∃ name, Startable name ∧ f.1.bytes = bytesOf (pathFor name) := by
  constructor
  · intro agree f hf hprofile
    obtain ⟨name, hname⟩ := exists_listedAs hprofile
    have hresolved := (agree.resolves f hf name hname).1
    rw [resolveManifestReference_eq] at hresolved
    split at hresolved
    · rename_i hstart
      exact ⟨name, hstart, (agree.loads f hf name hname).1.symm⟩
    · cases hresolved
  · intro hnames
    -- a listed file is the file of the name it is listed under
    have hlisted : ∀ f ∈ dir.files, ∀ name, f.1.listedAs = some name →
        Startable name ∧ f.1.bytes = bytesOf (pathFor name) := by
      intro f hf name hname
      obtain ⟨name', hstart, hbytes⟩ := hnames f hf (isProfile_of_listedAs hname)
      have hsame := (listedAs_pathFor hstart.1 hbytes).symm.trans hname
      exact Option.some.inj hsame ▸ ⟨hstart, hbytes⟩
    refine ⟨?_, fun f hf name hname => ?_, fun f hf name hname => ?_⟩
    · have hfiles : dir.files.Pairwise fun f f' => f.1 ≠ f'.1 :=
        List.pairwise_map.mp dir.nodup
      refine (List.mergeSort_perm _ _).nodup_iff.mpr (List.pairwise_filterMap.mpr ?_)
      refine hfiles.imp_of_mem fun {f f'} hf hf' hne name hname name' hname' heq => hne ?_
      obtain ⟨-, hbytes⟩ := hlisted f hf name hname
      obtain ⟨-, hbytes'⟩ := hlisted f' hf' name' hname'
      exact FileName.ext_bytes (hbytes.trans (heq ▸ hbytes'.symm))
    · obtain ⟨hstart, hbytes⟩ := hlisted f hf name hname
      obtain ⟨profile, hprofile⟩ := hparse f hf
      exact ⟨hbytes.symm, profile, hprofile,
        loadProfile_pathFor hstart.1 hf hbytes hprofile⟩
    · obtain ⟨hstart, hbytes⟩ := hlisted f hf name hname
      refine ⟨?_, resolveManifestReference_path hstart hbytes⟩
      rw [resolveManifestReference_eq, if_pos hstart]

end

namespace Sample

def baseYaml : FileName := ⟨bytesOf "base.yaml", by decide, by decide, by decide⟩

def baseYml : FileName := ⟨bytesOf "base.yml", by decide, by decide, by decide⟩

/-- A directory with one file, which holds the profile `base`. -/
def only (f : FileName) : ProfilesDir := ⟨[(f, bytesOf (yamlText "base" false))], by simp⟩

theorem only_parses (f : FileName) :
    ∀ f' ∈ (only f).files, ∃ profile, format.Parses f'.2 profile := by
  intro f' hf'
  rw [List.mem_singleton.mp hf']
  refine ⟨authored "base" false, yamlText "base" false, Utf8.fromUtf8_bytesOf _, ?_⟩
  simp only [format, ↓reduceIte]

end Sample

theorem profile_names_agree_yaml : NamesAgree Sample.gateway (Sample.only Sample.baseYaml)
    Sample.format :=
  (profile_names_agree_iff (Sample.only_parses _)).mpr fun f hf _ =>
    ⟨"base", by decide, by rw [List.mem_singleton.mp hf]; decide⟩

/-- `base.yml` is listed as `base`, and `base` is not found. -/
theorem profile_names_disagree_yml :
    (∀ f ∈ (Sample.only Sample.baseYml).files, ∃ profile, Sample.format.Parses f.2 profile) ∧
    (Sample.only Sample.baseYml).listProfiles = ["base"] ∧
    (Sample.only Sample.baseYml).loadProfile Sample.format "./profiles" "base" =
      .error "Profile 'base' not found at \"./profiles/base.yaml\"" ∧
    ¬NamesAgree Sample.gateway (Sample.only Sample.baseYml) Sample.format := by
  have hlisted : Sample.baseYml.listedAs = some "base" := by
    have hstem : Sample.baseYml.fileStem = some (bytesOf "base") := by decide
    rw [FileName.listedAs, if_pos (by decide), hstem]
    exact congrArg some (fromUtf8Lossy_of_fromUtf8 (Utf8.fromUtf8_bytesOf "base"))
  have hnames : (Sample.only Sample.baseYml).files.filterMap (·.1.listedAs) = ["base"] := by
    simp only [Sample.only, List.filterMap_cons, List.filterMap_nil, hlisted]
  have hnone : (Sample.only Sample.baseYml).file? (bytesOf (pathFor "base")) = none := by
    have hother : ¬Sample.baseYml.bytes = bytesOf (pathFor "base") := by decide
    simp only [ProfilesDir.file?, Sample.only, List.find?_cons, hother, decide_false,
      List.find?_nil, Option.map_none]
  refine ⟨Sample.only_parses _, ?_, ?_, fun agree => ?_⟩
  · rw [ProfilesDir.listProfiles, hnames, List.mergeSort_singleton]
  · rw [ProfilesDir.loadProfile, if_neg (by decide), hnone]
    exact congrArg Except.error (by decide)
  · have hfile := (agree.loads _ List.mem_cons_self "base" hlisted).1
    exact absurd hfile (by decide)

end ProtocolEnforcer
