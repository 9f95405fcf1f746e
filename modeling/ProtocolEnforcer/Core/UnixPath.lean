/-!
# Unix paths

Paths as text, and the component view of them: `components` drops repeated
separators and inner `.` segments, keeps `..`, and marks a leading `/` or `.`.
Two paths name the same file for a program that only joins and compares when
their components agree.
-/

namespace ProtocolEnforcer

/-- One component of a path. -/
inductive Component where
  | rootDir
  | curDir
  | parentDir
  | normal (name : String)
  deriving DecidableEq, Repr

namespace UnixPath

def isAbsolute (p : String) : Bool := p.toList.head? == some '/'

/-- Append a path: an absolute one replaces, any other goes behind a separator. -/
def join (base p : String) : String :=
  if isAbsolute p then p
  else if base = "" ∨ base.toList.getLast? = some '/' then base ++ p
  else base ++ "/" ++ p

/-- The component a segment between separators stands for, if any. -/
def component (segment : List Char) : Option Component :=
  if segment = [] ∨ segment = ['.'] then none
  else if segment = ['.', '.'] then some .parentDir
  else some (.normal (String.ofList segment))

def segments (p : String) : List (List Char) := p.toList.splitOn '/'

/-- The mark a path carries in front of its segments' components. -/
def leading (p : String) : Option Component :=
  if isAbsolute p then some .rootDir
  else if (segments p).head? = some ['.'] then some .curDir
  else none

def components (p : String) : List Component :=
  (leading p).toList ++ (segments p).filterMap component

/-- The path that `names` below `root` spell. -/
def render : List Component → String
  | .rootDir :: cs => "/" ++ relative cs
  | cs => relative cs
where
  relative (cs : List Component) : String :=
    "/".intercalate (cs.map fun
      | .rootDir => ""
      | .curDir => "."
      | .parentDir => ".."
      | .normal name => name)

/-- `Path::starts_with`: component by component. -/
def startsWith (p base : List Component) : Bool := base.isPrefixOf p

/-- Skip the segments that carry the first `n` components. -/
def dropComponents : Nat → List (List Char) → List (List Char)
  | 0, segs => segs
  | _ + 1, [] => []
  | n + 1, seg :: segs =>
    if component seg = none then dropComponents (n + 1) segs else dropComponents n segs

/-- `Path::strip_prefix`: the text behind the components of `base`. -/
def stripPrefix (p base : String) : Option String :=
  if startsWith (components p) (components base) then
    let n := (components base).length
    let segs :=
      if n = 0 then segments p
      else if (leading p).isSome then dropComponents (n - 1) (segments p).tail
      else dropComponents n (segments p)
    some (String.ofList (['/'].intercalate (segs.dropWhile fun s => component s = none)))
  else none

/-- `Path::parent`, component by component. -/
def parent (p : List Component) : List Component := p.dropLast

/-- `join` on a path given by its components. -/
def joined (base : List Component) (p : String) : List Component :=
  if isAbsolute p ∨ base = [] then components p else base ++ (segments p).filterMap component

/-- Where one component leads from a directory. -/
def descend (dir : List Component) : Component → List Component
  | .rootDir => [.rootDir]
  | .curDir => dir
  | .parentDir =>
    match dir.getLast? with
    | some (.normal _) => dir.dropLast
    | _ => dir
  | .normal name => dir ++ [.normal name]

/-- The file a path names from the directory `cwd`, no link being on the way. -/
def resolve (cwd p : List Component) : List Component := p.foldl descend cwd

/-- `p` is a direct child of the directory `dir`. -/
def DirectChild (dir : String) (p : List Component) : Prop :=
  ∃ name, p = components dir ++ [.normal name]

/-- A name that joins as one component. -/
structure Simple (name : String) : Prop where
  noSlash : '/' ∉ name.toList
  named : component name.toList = some (.normal name)

example : components "./ledger//a/../b.jsonl" =
    [.curDir, .normal "ledger", .normal "a", .parentDir, .normal "b.jsonl"] := by decide

/-! ## Names -/

/-- A segment stands for a name, unless it is a way up. -/
theorem component_eq_some {segment : List Char} {c : Component} (h : component segment = some c) :
    c = .parentDir ∨ ∃ name, c = .normal name := by
  unfold component at h
  split at h
  · cases h
  split at h
  · exact Or.inl (Option.some.inj h).symm
  · exact Or.inr ⟨_, (Option.some.inj h).symm⟩

/-- Segments with no way up spell names. -/
theorem exists_names {segs : List (List Char)} (h : .parentDir ∉ segs.filterMap component) :
    ∃ names : List String, segs.filterMap component = names.map .normal := by
  have hnames : ∀ c ∈ segs.filterMap component, ∃ name, Component.normal name = c := by
    intro c hc
    obtain ⟨seg, -, hseg⟩ := List.mem_filterMap.mp hc
    rcases component_eq_some hseg with rfl | ⟨name, rfl⟩
    · exact absurd hc h
    · exact ⟨name, rfl⟩
  generalize segs.filterMap component = cs at hnames
  induction cs with
  | nil => exact ⟨[], rfl⟩
  | cons c cs ih =>
    obtain ⟨name, rfl⟩ := hnames c List.mem_cons_self
    obtain ⟨names, rfl⟩ := ih fun c hc => hnames c (List.mem_cons_of_mem _ hc)
    exact ⟨name :: names, rfl⟩

/-! ## Joining -/

theorem segments_append (a b : String) : segments (a ++ "/" ++ b) = segments a ++ segments b := by
  rw [segments, String.toList_append, String.toList_append, List.append_assoc,
    List.splitOn_eq_splitOnP]
  exact List.splitOnP_append_cons _ _ (by decide)

theorem segments_ne_nil (a : String) : segments a ≠ [] := by
  rw [segments, List.splitOn_eq_splitOnP]
  exact List.splitOnP_ne_nil _ _

theorem isAbsolute_append {a : String} (b : String) (ha : a ≠ "") :
    isAbsolute (a ++ b) = isAbsolute a := by
  have hne : a.toList ≠ [] := mt String.toList_eq_nil_iff.mp ha
  rw [isAbsolute, isAbsolute, String.toList_append, List.head?_append,
    List.head?_eq_some_head hne, Option.some_or]

/-- What stands behind a separator only adds its own components. -/
theorem components_append {a : String} (b : String) (ha : a ≠ "") :
    components (a ++ "/" ++ b) = components a ++ (segments b).filterMap component := by
  have hlead : leading (a ++ "/" ++ b) = leading a := by
    rw [leading, leading, segments_append, String.append_assoc, isAbsolute_append _ ha,
      List.head?_append, List.head?_eq_some_head (segments_ne_nil a), Option.some_or]
  rw [components, components, hlead, segments_append, List.filterMap_append, List.append_assoc]

/-- A trailing separator is no component. -/
theorem components_slash {a : String} (ha : a ≠ "") : components (a ++ "/") = components a := by
  have h := components_append "" ha
  rwa [String.append_empty, show (segments "").filterMap component = [] from rfl,
    List.append_nil] at h

/-- Only the empty path has no components. -/
theorem components_ne_nil {a : String} (ha : a ≠ "") : components a ≠ [] := by
  intro h
  obtain ⟨hlead, hrest⟩ := List.append_eq_nil_iff.mp h
  obtain ⟨c, cs, hcs⟩ := List.exists_cons_of_ne_nil (mt String.toList_eq_nil_iff.mp ha)
  obtain ⟨seg, segs, hsegs⟩ := List.exists_cons_of_ne_nil (segments_ne_nil a)
  rw [leading] at hlead
  split at hlead
  · cases hlead
  rename_i habs
  split at hlead
  · cases hlead
  rename_i hdot
  -- the first segment is neither empty nor `.`, so it is a component
  have hseg : component seg = none := by
    rw [hsegs, List.filterMap_cons] at hrest
    split at hrest
    · assumption
    · cases hrest
  have hne : seg ≠ [] := by
    rintro rfl
    refine habs ?_
    rw [segments, hcs, List.splitOn_eq_splitOnP, List.splitOnP_cons_eq_if_modifyHead] at hsegs
    split at hsegs
    · rename_i hc
      rw [isAbsolute, hcs, List.head?_cons, beq_iff_eq.mp hc]
      rfl
    · obtain ⟨x, xs, hx⟩ := List.exists_cons_of_ne_nil (List.splitOnP_ne_nil (· == '/') cs)
      rw [hx, List.modifyHead_cons] at hsegs
      cases hsegs
  have hne' : seg ≠ ['.'] := by
    rintro rfl
    exact hdot (by rw [hsegs]; rfl)
  rw [component, if_neg (not_or.mpr ⟨hne, hne'⟩)] at hseg
  split at hseg <;> cases hseg

/-- **`join` is `joined`** on components. -/
theorem components_join (base p : String) : components (join base p) = joined (components base) p := by
  unfold join joined
  by_cases habs : isAbsolute p = true
  · rw [if_pos habs, if_pos (Or.inl habs)]
  rw [if_neg habs]
  by_cases hbase : base = ""
  · subst hbase
    rw [if_pos (Or.inl rfl), String.empty_append, if_pos (Or.inr (by decide))]
  rw [if_neg (not_or.mpr ⟨habs, components_ne_nil hbase⟩)]
  by_cases hslash : base.toList.getLast? = some '/'
  · rw [if_pos (Or.inr hslash)]
    obtain ⟨init, hinit⟩ := List.getLast?_eq_some_iff.mp hslash
    obtain ⟨a, rfl⟩ : ∃ a, base = a ++ "/" := by
      refine ⟨String.ofList init, ?_⟩
      rw [← String.toList_inj, hinit, String.toList_append, String.toList_ofList]
      rfl
    by_cases ha : a = ""
    · -- the root directory
      subst ha
      have hroot : isAbsolute ("/" ++ p) = true := isAbsolute_append p (by decide)
      have hsegs : segments ("" ++ "/" ++ p) = [] :: segments p := segments_append "" p
      rw [components, leading, String.empty_append, if_pos hroot]
      rw [String.empty_append] at hsegs
      rw [hsegs]
      rfl
    · rw [components_append p ha, components_slash ha]
  · rw [if_neg (not_or.mpr ⟨hbase, hslash⟩), components_append p hbase]

theorem Simple.not_absolute {name : String} (h : Simple name) : isAbsolute name = false := by
  rw [isAbsolute, beq_eq_false_iff_ne]
  exact fun heq => h.noSlash (List.mem_of_mem_head? heq)

theorem Simple.ne_empty {name : String} (h : Simple name) : name ≠ "" := by
  rintro rfl
  cases h.named

/-- A simple name goes behind the directory. -/
theorem joined_simple {name : String} (base : List Component) (h : Simple name) :
    joined base name = base ++ [.normal name] := by
  have hsegs : segments name = [name.toList] := by
    rw [segments, List.splitOn_eq_splitOnP]
    refine List.splitOnP_eq_singleton fun c hc => beq_eq_false_iff_ne.mpr ?_
    rintro rfl
    exact h.noSlash hc
  have habs := h.not_absolute
  have hcomponents : components name = [.normal name] := by
    have hdot : (segments name).head? ≠ some ['.'] := by
      rw [hsegs]
      rintro heq
      have := h.named
      rw [Option.some.inj heq] at this
      cases this
    rw [components, leading, if_neg (by rw [habs]; decide), if_neg hdot, hsegs]
    simp [h.named]
  unfold joined
  split
  · rename_i hbase
    obtain rfl := hbase.resolve_left (by rw [habs]; decide)
    exact hcomponents
  · rw [hsegs]
    simp [h.named]

/-! ## Rendering -/

/-- Names, below the root or not: what is left of a path once `.` and `..` are folded away. -/
inductive Plain : List Component → Prop where
  | root {names : List String} (simple : ∀ name ∈ names, Simple name) :
      Plain (.rootDir :: names.map .normal)
  | relative {names : List String} (simple : ∀ name ∈ names, Simple name) :
      Plain (names.map .normal)

/-- No separator is left in a piece. -/
theorem of_mem_splitOnP {α : Type} {p : α → Bool} {xs piece : List α} (h : piece ∈ xs.splitOnP p) :
    ∀ x ∈ piece, p x = false := by
  induction xs generalizing piece with
  | nil =>
    rw [List.splitOnP_nil, List.mem_singleton] at h
    rw [h]
    nofun
  | cons x xs ih =>
    obtain ⟨first, rest, hsplit⟩ := List.exists_cons_of_ne_nil (List.splitOnP_ne_nil p xs)
    rw [List.splitOnP_cons_eq_if_modifyHead, hsplit] at h
    rw [hsplit] at ih
    split at h
    · rcases List.mem_cons.mp h with rfl | hmem
      · nofun
      · exact ih hmem
    · rename_i hx
      rw [List.modifyHead_cons] at h
      rcases List.mem_cons.mp h with rfl | hmem
      · rw [List.forall_mem_cons]
        exact ⟨Bool.eq_false_iff.mpr hx, ih List.mem_cons_self⟩
      · exact ih (List.mem_cons_of_mem _ hmem)

/-- What is no separator is left in a piece. -/
theorem exists_mem_splitOnP {α : Type} {p : α → Bool} {xs : List α} {x : α} (h : x ∈ xs)
    (hx : p x = false) : ∃ piece ∈ xs.splitOnP p, x ∈ piece := by
  induction xs with
  | nil => cases h
  | cons y xs ih =>
    obtain ⟨first, rest, hsplit⟩ := List.exists_cons_of_ne_nil (List.splitOnP_ne_nil p xs)
    rw [List.splitOnP_cons_eq_if_modifyHead]
    rw [hsplit] at ih ⊢
    rcases List.mem_cons.mp h with rfl | hmem
    · rw [if_neg (by rw [hx]; decide)]
      exact ⟨_, List.mem_cons_self, List.mem_cons_self⟩
    obtain ⟨piece, hpiece, hmem⟩ := ih hmem
    split
    · exact ⟨piece, List.mem_cons_of_mem _ hpiece, hmem⟩
    · rcases List.mem_cons.mp hpiece with rfl | hpiece
      · exact ⟨_, List.mem_cons_self, List.mem_cons_of_mem _ hmem⟩
      · exact ⟨piece, List.mem_cons_of_mem _ hpiece, hmem⟩

/-- The names of a path's text. -/
theorem simple_of_mem_components {p name : String} (h : .normal name ∈ components p) :
    Simple name := by
  rcases List.mem_append.mp h with hlead | hmem
  · rw [leading] at hlead
    split at hlead
    · cases List.mem_singleton.mp hlead
    split at hlead
    · cases List.mem_singleton.mp hlead
    · cases hlead
  · obtain ⟨seg, hseg, hname⟩ := List.mem_filterMap.mp hmem
    have hslash : '/' ∉ seg := by
      rw [segments, List.splitOn_eq_splitOnP] at hseg
      intro hc
      have hno : ('/' == '/') = false := of_mem_splitOnP hseg _ hc
      cases hno
    have hofList : String.ofList seg = name := by
      unfold component at hname
      split at hname
      · cases hname
      split at hname
      · cases hname
      · exact Component.normal.inj (Option.some.inj hname)
    obtain rfl := hofList
    exact ⟨by rwa [String.toList_ofList], by rwa [String.toList_ofList]⟩

/-- A joined list of names splits at its separators. -/
theorem segments_intercalate {names : List String} (h : ∀ name ∈ names, Simple name)
    (hne : names ≠ []) : segments ("/".intercalate names) = names.map String.toList := by
  have hsep : "/".toList = ['/'] := by decide
  rw [segments, String.toList_intercalate, hsep]
  refine List.splitOn_intercalate '/' (fun l hl => ?_) (mt List.map_eq_nil_iff.mp hne)
  obtain ⟨name, hname, rfl⟩ := List.mem_map.mp hl
  exact (h name hname).noSlash

theorem filterMap_names {names : List String} (h : ∀ name ∈ names, Simple name) :
    (names.map String.toList).filterMap component = names.map .normal := by
  induction names with
  | nil => rfl
  | cons name names ih =>
    rw [List.forall_mem_cons] at h
    rw [List.map_cons, List.filterMap_cons_some h.1.named, ih h.2, List.map_cons]

theorem render_names (names : List String) :
    render.relative (names.map .normal) = "/".intercalate names := by
  rw [render.relative, List.map_map]
  exact congrArg _ (List.map_id names)

/-- **A plain path is read back from its text.** -/
theorem components_render {p : List Component} (h : Plain p) : components (render p) = p := by
  cases h with
  | @root names simple =>
    rw [render, render_names]
    by_cases hne : names = []
    · subst hne
      decide
    · have hsegs : segments ("/" ++ "/".intercalate names) = [] :: names.map String.toList := by
        have happ := segments_append "" ("/".intercalate names)
        rwa [String.empty_append, segments_intercalate simple hne] at happ
      have habs : isAbsolute ("/" ++ "/".intercalate names) = true :=
        isAbsolute_append _ (by decide)
      rw [components, leading, if_pos habs, hsegs]
      exact congrArg (Component.rootDir :: ·) (filterMap_names simple)
  | @relative names simple =>
    cases names with
    | nil => decide
    | cons name names =>
      have hrender : render ((name :: names).map .normal) = "/".intercalate (name :: names) :=
        render_names (name :: names)
      have hsegs := segments_intercalate simple (List.cons_ne_nil name names)
      have hfirst : Simple name := simple name List.mem_cons_self
      have habs : isAbsolute ("/".intercalate (name :: names)) = false := by
        cases names with
        | nil =>
          rw [String.intercalate_singleton]
          exact hfirst.not_absolute
        | cons other names =>
          rw [String.intercalate_cons_cons, String.append_assoc,
            isAbsolute_append _ hfirst.ne_empty]
          exact hfirst.not_absolute
      have hdot : (segments ("/".intercalate (name :: names))).head? ≠ some ['.'] := by
        rw [hsegs]
        intro heq
        have hnamed := hfirst.named
        rw [Option.some.inj heq] at hnamed
        cases hnamed
      rw [hrender, components, leading, if_neg (by rw [habs]; decide), if_neg hdot, hsegs]
      exact filterMap_names simple

/-! ## Stripping -/

/-- Skipping segments skips the components they carry, -/
theorem filterMap_dropComponents (n : Nat) (segs : List (List Char)) :
    (dropComponents n segs).filterMap component = (segs.filterMap component).drop n := by
  induction segs generalizing n with
  | nil => cases n <;> simp [dropComponents]
  | cons seg segs ih =>
    cases n with
    | zero => rfl
    | succ n =>
      rw [dropComponents]
      cases hseg : component seg with
      | none => rw [if_pos rfl, List.filterMap_cons_none hseg, ih]
      | some c => rw [if_neg nofun, List.filterMap_cons_some hseg, List.drop_succ_cons, ih]

/-- and leaves an end of them. -/
theorem dropComponents_suffix (n : Nat) (segs : List (List Char)) :
    dropComponents n segs <:+ segs := by
  induction segs generalizing n with
  | nil => cases n <;> exact List.suffix_rfl
  | cons seg segs ih =>
    cases n with
    | zero => exact List.suffix_rfl
    | succ n =>
      rw [dropComponents]
      split
      · exact (ih (n + 1)).trans (List.suffix_cons seg segs)
      · exact (ih n).trans (List.suffix_cons seg segs)

theorem not_mem_segment {p : String} {seg : List Char} (h : seg ∈ segments p) : '/' ∉ seg := by
  rw [segments, List.splitOn_eq_splitOnP] at h
  intro hc
  have hno : ('/' == '/') = false := of_mem_splitOnP h _ hc
  cases hno

/-- Joined segments are read back. -/
theorem segments_ofList {segs : List (List Char)} (h : ∀ seg ∈ segs, '/' ∉ seg) (hne : segs ≠ []) :
    segments (String.ofList (['/'].intercalate segs)) = segs := by
  rw [segments, String.toList_ofList]
  exact List.splitOn_intercalate '/' h hne

/-- A path that starts with a name carries no mark. -/
theorem leading_eq_none {p : String} {seg : List Char} {segs : List (List Char)}
    (h : segments p = seg :: segs) (hseg : component seg ≠ none) : leading p = none := by
  have habs : isAbsolute p ≠ true := by
    intro habs
    obtain ⟨cs, hcs⟩ := List.head?_eq_some_iff.mp (beq_iff_eq.mp habs)
    rw [segments, hcs, List.splitOn_cons_eq_if_modifyHead, if_pos (beq_self_eq_true _)] at h
    cases h
    exact hseg rfl
  have hdot : (segments p).head? ≠ some ['.'] := by
    rw [h]
    rintro heq
    cases heq
    exact hseg rfl
  rw [leading, if_neg habs, if_neg hdot]

/-- No mark is a name. -/
theorem normal_not_leading {p name : String} : leading p ≠ some (.normal name) := by
  unfold leading
  split
  · nofun
  split <;> nofun

/-- The segments of the names behind a base, as `strip_prefix` finds them. -/
theorem exists_segments_behind {p base : String} {names : List String}
    (h : components p = components base ++ names.map .normal) :
    ∃ segs, segs <:+ segments p ∧ segs.filterMap component = names.map .normal ∧
      stripPrefix p base =
        some (String.ofList (['/'].intercalate (segs.dropWhile fun s => component s = none))) := by
  have hstarts : startsWith (components p) (components base) = true := by
    rw [startsWith, h]
    exact List.isPrefixOf_iff_prefix.mpr (List.prefix_append _ _)
  have hdrop : (components p).drop (components base).length = names.map .normal := by
    rw [h, List.drop_left]
  rw [stripPrefix, if_pos hstarts]
  dsimp only
  cases hn : (components base).length with
  | zero =>
    refine ⟨segments p, List.suffix_rfl, ?_, by rw [if_pos rfl]⟩
    rw [hn, List.drop_zero, components] at hdrop
    cases hlead : leading p with
    | none => rwa [hlead] at hdrop
    | some mark =>
      rw [hlead] at hdrop
      cases names with
      | nil => cases hdrop
      | cons name names =>
        exact absurd (hlead.trans (congrArg _ (List.cons.inj hdrop).1)) normal_not_leading
  | succ n =>
    rw [if_neg (Nat.succ_ne_zero n)]
    rw [hn, components] at hdrop
    cases hlead : leading p with
    | none =>
      refine ⟨dropComponents (n + 1) (segments p), dropComponents_suffix _ _, ?_, rfl⟩
      rw [filterMap_dropComponents, ← hdrop, hlead]
      rfl
    | some mark =>
      refine ⟨dropComponents n (segments p).tail, ?_, ?_, rfl⟩
      · exact (dropComponents_suffix _ _).trans (List.tail_suffix _)
      -- the mark stands for a first segment that carries no component
      obtain ⟨seg, segs, hsegs⟩ := List.exists_cons_of_ne_nil (segments_ne_nil p)
      have hseg : component seg = none := by
        cases hc : component seg with
        | none => rfl
        | some c =>
          rw [leading_eq_none hsegs (by rw [hc]; nofun)] at hlead
          cases hlead
      rw [filterMap_dropComponents, ← hdrop, hlead, hsegs, List.tail_cons,
        List.filterMap_cons_none hseg]
      rfl

/-- **What `strip_prefix` leaves of names behind the base** is a path of these names. -/
theorem stripPrefix_names {p base : String} {names : List String}
    (h : components p = components base ++ names.map .normal) (hne : names ≠ []) :
    ∃ rel, stripPrefix p base = some rel ∧ leading rel = none ∧
      components rel = names.map .normal := by
  obtain ⟨segs, hsuffix, hsegs, hstrip⟩ := exists_segments_behind h
  refine ⟨_, hstrip, ?_⟩
  have hkept : (segs.dropWhile fun s => component s = none).filterMap component =
      names.map .normal := by
    rw [← hsegs]
    clear hsuffix hsegs hstrip
    induction segs with
    | nil => rfl
    | cons seg segs ih =>
      rw [List.dropWhile_cons]
      split
      · next hseg => rw [ih, List.filterMap_cons_none (of_decide_eq_true hseg)]
      · rfl
  have hslash : ∀ seg ∈ segs.dropWhile fun s => component s = none, '/' ∉ seg := fun seg hseg =>
    not_mem_segment (hsuffix.mem (List.dropWhile_sublist _ |>.mem hseg))
  obtain ⟨seg, rest, hcons⟩ : ∃ seg rest,
      (segs.dropWhile fun s => component s = none) = seg :: rest := by
    refine List.exists_cons_of_ne_nil fun hnil => hne ?_
    rw [hnil] at hkept
    exact List.map_eq_nil_iff.mp hkept.symm
  have hfirst : component seg ≠ none := by
    have hhead := List.head?_dropWhile_not (fun s => decide (component s = none)) segs
    rw [hcons] at hhead
    simpa using hhead
  have hread := segments_ofList hslash (by rw [hcons]; exact List.cons_ne_nil _ _)
  have hlead := leading_eq_none (hread.trans hcons) hfirst
  refine ⟨hlead, ?_⟩
  rw [components, hlead, hread, hkept]
  rfl

/-! ## Resolving -/

/-- Names lead down. -/
theorem resolve_names (cwd : List Component) (names : List String) :
    resolve cwd (names.map .normal) = cwd ++ names.map .normal := by
  induction names generalizing cwd with
  | nil => exact (List.append_nil _).symm
  | cons name names ih =>
    show resolve (cwd ++ [.normal name]) _ = _
    rw [ih, List.append_assoc]
    rfl

end UnixPath

end ProtocolEnforcer
