import ProtocolEnforcer.Gateway.OutputFiles

/-!
# The two destination gates

A destination is checked when its profile is loaded, as a template, and when the deliverable
is written, joined to the base and normalized. The second check drops `.` and then looks for
the base as it was given. So the two agree for a base without `.` and `..`, as the working
directory is, and for no other: with the base `.`, which stands in where the working directory
cannot be read, the second refuses every destination.
-/

namespace ProtocolEnforcer

open Template UnixPath

/-- `default_output_base`: what `current_dir` answers, or `.`. -/
def defaultOutputBase (currentDir : Except String String) : String :=
  match currentDir with
  | .ok dir => dir
  | .error _ => "."

/-- The names a path leads down. -/
def normalComponents (p : String) : List Component :=
  (components p).filter fun
    | .normal _ => true
    | _ => false

section

variable {schemas : Schemas} {contract : OutputContract} {sid base destination : String}
  {names : List String}

theorem normalComponents_of_names (habs : isAbsolute destination = false)
    (hnames : (segments destination).filterMap component = names.map .normal) :
    normalComponents destination = names.map .normal := by
  have hall : ∀ c ∈ names.map Component.normal,
      (match c with | .normal _ => true | _ => false) = true := by
    intro c hc
    obtain ⟨name, -, rfl⟩ := List.mem_map.mp hc
    rfl
  rw [normalComponents, components, hnames, List.filter_append, List.filter_eq_self.mpr hall]
  unfold leading
  rw [if_neg (by rw [habs]; decide)]
  split <;> rfl

/-- What the load-time gate has seen of the text. -/
theorem checkOutputContract_text (h : checkOutputContract schemas contract = []) :
    '\x00' ∉ contract.destination.toList ∧ isAbsolute contract.destination = false := by
  unfold checkOutputContract at h
  simp only [List.append_eq_nil_iff, violationIf_eq_nil] at h
  obtain ⟨⟨⟨-, hnul⟩, habs⟩, -⟩ := h
  exact ⟨Text.hasChar_eq_false.mp hnul, habs⟩

/-- Filling in an id brings no NUL, -/
theorem replace_noNul (h : '\x00' ∉ destination.toList)
    (hchars : ∀ c ∈ sid.toList, sessionIdChar c = true) :
    Text.hasChar (Text.replace destination sessionIdHole sid) '\x00' = false := by
  rw [Text.hasChar_eq_false, Text.toList_replace]
  intro hmem
  rcases mem_fill hmem with hsid | hthere
  · exact absurd (hchars _ hsid) (by decide)
  · exact h (Text.mem_of_mem_holes hthere)

/-- and no leading separator. -/
theorem replace_relative (h : isAbsolute destination = false) (hne : sid ≠ "")
    (hchars : ∀ c ∈ sid.toList, sessionIdChar c = true) :
    isAbsolute (Text.replace destination sessionIdHole sid) = false := by
  rw [isAbsolute, beq_eq_false_iff_ne] at h ⊢
  rw [Text.toList_replace]
  intro hhead
  cases hholes : Text.holes destination sessionIdHole with
  | nil =>
    rw [hholes] at hhead
    cases hhead
  | cons place rest =>
    rw [hholes] at hhead
    cases place with
    | some c =>
      obtain rfl := Option.some.inj hhead
      exact h (Text.head?_holes (by rw [hholes]; rfl))
    | none =>
      obtain ⟨c, cs, hcs⟩ := List.exists_cons_of_ne_nil (mt String.toList_eq_nil_iff.mp hne)
      rw [fill_none, hcs] at hhead
      obtain rfl := Option.some.inj hhead
      exact absurd (hchars '/' (hcs ▸ List.mem_cons_self)) (by decide)

/-- Confinement behind a base without `.` and `..`. -/
theorem confineOutputDestination_eq_ok (hbase : Straight (components base))
    (hnul : Text.hasChar destination '\x00' = false) (habs : isAbsolute destination = false)
    (hnames : (segments destination).filterMap component = names.map .normal) :
    confineOutputDestination base destination = .ok (components base ++ names.map .normal) := by
  have hbelow : startsWith (components base ++ names.map .normal) (components base) = true :=
    List.isPrefixOf_iff_prefix.mpr (List.prefix_append _ _)
  unfold confineOutputDestination
  rw [if_neg (by rw [hnul]; decide), if_neg (by rw [habs]; decide)]
  dsimp only
  rw [normalizeComponents_join hbase habs hnames]
  dsimp only
  rw [if_pos hbelow]

/-- **The gates agree exactly on a base without `.` and `..`.** There the run-time gate takes
every destination that the load-time gate takes, filled with a valid id, to the base and the
names behind it. -/
theorem destination_gates_agree_iff (haccepted : checkOutputContract schemas contract = [])
    (hsid : validateSessionId sid = .ok ()) (currentDir : Except String String) :
    confineOutputDestination (defaultOutputBase currentDir)
        (Text.replace contract.destination sessionIdHole sid) =
      .ok (components (defaultOutputBase currentDir) ++
        normalComponents (Text.replace contract.destination sessionIdHole sid)) ↔
    Straight (components (defaultOutputBase currentDir)) := by
  obtain ⟨hnonempty, -, hchars⟩ := validateSessionId_ok.mp hsid
  have hne : sid ≠ "" := mt String.toList_eq_nil_iff.mpr hnonempty
  obtain ⟨hnul, habs⟩ := checkOutputContract_text haccepted
  have habs' := replace_relative habs hne hchars
  obtain ⟨names, hnames⟩ := replace_names haccepted hne hchars
  rw [normalComponents_of_names habs' hnames]
  constructor
  · intro h
    obtain ⟨-, hstraight⟩ := confineOutputDestination_straight h
    exact ⟨fun hmem => hstraight.noCurDir (List.mem_append_left _ hmem),
      fun hmem => hstraight.noParentDir (List.mem_append_left _ hmem)⟩
  · exact fun hbase =>
      confineOutputDestination_eq_ok hbase (replace_noNul hnul hchars) habs' hnames

end

namespace Sample

/-- A destination that both gates look at. -/
def filed : OutputContract := ⟨.null, "out/./\x7bsession_id\x7d.json"⟩

theorem s1_valid : validateSessionId "s1" = .ok () :=
  validateSessionId_ok.mpr ⟨by decide, by decide, List.all_eq_true.mp (by decide)⟩

end Sample

theorem destination_gates_agree_srv :
    confineOutputDestination "/srv" "out/./s1.json" =
      .ok [.rootDir, .normal "srv", .normal "out", .normal "s1.json"] :=
  (@destination_gates_agree_iff Sample.vendor.toSchemas Sample.filed "s1" (by decide) Sample.s1_valid
    (.ok "/srv")).mpr ⟨by decide, by decide⟩

/-- Without a working directory a profile loads, and is refused at completion. -/
theorem destination_gates_disagree :
    checkOutputContract Sample.vendor.toSchemas Sample.filed = [] ∧
      validateSessionId "s1" = .ok () ∧
      confineOutputDestination (defaultOutputBase (.error "No such file or directory"))
          (Text.replace Sample.filed.destination sessionIdHole "s1") =
        .error (.outputContractViolation
          "output_contract.destination escapes the output base: 'out/./s1.json'") := by
  refine ⟨by decide, Sample.s1_valid, ?_⟩
  decide

end ProtocolEnforcer
