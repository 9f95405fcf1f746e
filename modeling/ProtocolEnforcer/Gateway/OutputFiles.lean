import ProtocolEnforcer.Core.Template
import ProtocolEnforcer.Fsm.OutputContract
import ProtocolEnforcer.Gateway.SessionIds

/-!
# Where deliverables go

A destination is a template whose holes `{session_id}` the engine fills. An id is neither
empty nor made of dots and has no separator, so a filled segment is always a name, other
segments do not depend on the id, and two ids give two lists of names. Confinement puts
these names behind the base and nothing else.
-/

namespace ProtocolEnforcer

open Template UnixPath

/-- A path without `.` and `..`. -/
structure Straight (p : List Component) : Prop where
  noCurDir : .curDir ∉ p
  noParentDir : .parentDir ∉ p

/-- `p` is in the directory `base` or deeper. -/
def StrictlyBelow (base p : List Component) : Prop := base <+: p ∧ base ≠ p

/-! ## Confinement -/

section

variable {e : FsmError} {acc cs ds p : List Component} {base destination : String}

/-- Going up from a plain path leaves one, -/
theorem plain_up {name : String} (h : Plain acc) (hlast : acc.getLast? = some (.normal name)) :
    Plain acc.dropLast := by
  cases h with
  | @root names simple =>
    cases names with
    | nil => cases hlast
    | cons first rest =>
      rw [List.dropLast_cons_of_ne_nil (by simp), ← List.map_dropLast]
      exact .root fun name hname => simple name (List.mem_of_mem_dropLast hname)
  | relative simple =>
    rw [← List.map_dropLast]
    exact .relative fun name hname => simple name (List.mem_of_mem_dropLast hname)

/-- and so does going down. -/
theorem plain_down {name : String} (h : Plain acc) (hname : Simple name) :
    Plain (acc ++ [.normal name]) := by
  have hsnoc : ∀ names : List String, (∀ n ∈ names, Simple n) → ∀ n ∈ names ++ [name], Simple n := by
    intro names simple n hn
    rcases List.mem_append.mp hn with hn | hn
    · exact simple n hn
    · rw [List.mem_singleton.mp hn]
      exact hname
  cases h with
  | @root names simple =>
    have hnames := Plain.root (hsnoc names simple)
    rwa [List.map_append] at hnames
  | @relative names simple =>
    have hnames := Plain.relative (hsnoc names simple)
    rwa [List.map_append] at hnames

/-- The loop folds `.` and `..` away. -/
theorem normalizeComponents_plain (h : Plain acc) (hcs : ∀ name, .normal name ∈ cs → Simple name)
    (hok : normalizeComponents e acc cs = .ok p) : Plain p := by
  induction cs generalizing acc with
  | nil =>
    cases hok
    exact h
  | cons c cs ih =>
    have hrest : ∀ name, .normal name ∈ cs → Simple name :=
      fun name hname => hcs name (List.mem_cons_of_mem _ hname)
    cases c with
    | curDir => exact ih h hrest hok
    | parentDir =>
      rw [normalizeComponents] at hok
      split at hok
      · rename_i hlast
        exact ih (plain_up h hlast) hrest hok
      · cases hok
    | rootDir => exact ih (@Plain.root [] (List.forall_mem_nil _)) hrest hok
    | normal name => exact ih (plain_down h (hcs name List.mem_cons_self)) hrest hok

theorem straight_of_plain (h : Plain p) : Straight p := by
  cases h <;> exact ⟨by simp, by simp⟩

/-- Names stay where they are. -/
theorem normalizeComponents_names (acc : List Component) (names : List String) :
    normalizeComponents e acc (names.map .normal) = .ok (acc ++ names.map .normal) := by
  induction names generalizing acc with
  | nil => rw [List.map_nil, List.append_nil, normalizeComponents]
  | cons name names ih =>
    rw [List.map_cons, normalizeComponents, ih, List.append_assoc, List.singleton_append]

theorem normalizeComponents_append : normalizeComponents e acc (cs ++ ds) =
    (normalizeComponents e acc cs).bind fun b => normalizeComponents e b ds := by
  induction cs generalizing acc with
  | nil => rfl
  | cons c cs ih =>
    cases c with
    | parentDir =>
      rw [List.cons_append, normalizeComponents, normalizeComponents]
      split
      · exact ih
      · rfl
    | curDir | rootDir | normal => exact ih

/-- What confinement has found out when it accepts. -/
theorem confineOutputDestination_ok (h : confineOutputDestination base destination = .ok p) :
    isAbsolute destination = false ∧
      (∃ e, normalizeComponents e [] (components (join base destination)) = .ok p) ∧
      components base <+: p := by
  unfold confineOutputDestination at h
  split at h
  · cases h
  split at h
  · cases h
  rename_i habs
  dsimp only at h
  split at h
  · cases h
  rename_i normalized hnormal
  split at h
  · rename_i hstarts
    cases h
    exact ⟨Bool.not_eq_true _ ▸ habs, ⟨_, hnormal⟩, List.isPrefixOf_iff_prefix.mp hstarts⟩
  · cases h

/-- **What confinement accepts is a plain path**, -/
theorem confineOutputDestination_plain (h : confineOutputDestination base destination = .ok p) :
    Plain p := by
  obtain ⟨-, ⟨e, hnormal⟩, -⟩ := confineOutputDestination_ok h
  exact normalizeComponents_plain (@Plain.relative [] nofun)
    (fun _ hname => simple_of_mem_components hname) hnormal

/-- **that leads down from the base.** -/
theorem confineOutputDestination_straight (h : confineOutputDestination base destination = .ok p) :
    components base <+: p ∧ Straight p := by
  obtain ⟨-, -, hbelow⟩ := confineOutputDestination_ok h
  exact ⟨hbelow, straight_of_plain (confineOutputDestination_plain h)⟩

/-- Such a base is in its normal form already. -/
theorem normalizeComponents_base (h : Straight (components base)) :
    normalizeComponents e [] (components base) = .ok (components base) := by
  obtain ⟨names, hnames⟩ := exists_names fun hup =>
    h.noParentDir (List.mem_append_right (leading base).toList hup)
  have hcurDir := h.noCurDir
  rw [components, hnames] at hcurDir ⊢
  unfold leading at hcurDir ⊢
  split
  · exact normalizeComponents_names [.rootDir] names
  · rename_i habs
    rw [if_neg habs] at hcurDir
    split
    · rename_i hdot
      rw [if_pos hdot] at hcurDir
      exact absurd List.mem_cons_self hcurDir
    · exact normalizeComponents_names [] names

/-- Names behind such a base are normal too. -/
theorem normalizeComponents_join {names : List String} (hbase : Straight (components base))
    (habs : isAbsolute destination = false)
    (hnames : (segments destination).filterMap component = names.map .normal) :
    normalizeComponents e [] (components (join base destination)) =
      .ok (components base ++ names.map .normal) := by
  rw [components_join]
  unfold joined
  by_cases hnil : components base = []
  · -- an empty base: the destination's own mark, if any, is `.`
    rw [if_pos (Or.inr hnil), components, hnames, hnil, List.nil_append]
    unfold leading
    rw [if_neg (by rw [habs]; decide)]
    split
    · exact normalizeComponents_names [] names
    · exact normalizeComponents_names [] names
  · rw [if_neg (not_or.mpr ⟨by rw [habs]; decide, hnil⟩), hnames, normalizeComponents_append,
      normalizeComponents_base hbase]
    exact normalizeComponents_names _ names

/-- **Names that are confined go behind the base.** -/
theorem confineOutputDestination_names {names : List String}
    (hnames : (segments destination).filterMap component = names.map .normal)
    (h : confineOutputDestination base destination = .ok p) :
    p = components base ++ names.map .normal := by
  obtain ⟨habs, ⟨e, hnormal⟩, hbelow⟩ := confineOutputDestination_ok h
  have hbase : Straight (components base) := by
    obtain ⟨-, hstraight⟩ := confineOutputDestination_straight h
    exact ⟨fun hmem => hstraight.noCurDir (hbelow.subset hmem),
      fun hmem => hstraight.noParentDir (hbelow.subset hmem)⟩
  exact Except.ok.inj (hnormal.symm.trans (normalizeComponents_join hbase habs hnames))

end

/-! ## Destinations -/

/-- The placeholder of a destination. -/
def sessionIdHole : String := "\x7bsession_id\x7d"

/-- The segments of a destination, with holes for the id. -/
def pieces (destination : String) : List (Template Char) :=
  (Text.holes destination sessionIdHole).splitOnP (· == some '/')

section

variable {destination sid sid' : String} {piece : Template Char}

theorem segments_fill {text : List Char} {path : String} (hsep : '/' ∉ text)
    (hpath : path.toList = fill text (Text.holes destination sessionIdHole)) :
    segments path = (pieces destination).map (fill text) := by
  rw [segments, hpath, List.splitOn_eq_splitOnP, splitOnP_fill hsep]
  rfl

theorem segments_destination :
    segments destination = (pieces destination).map (fill sessionIdHole.toList) :=
  segments_fill (by decide) (Text.fill_holes (by decide)).symm

theorem segments_replace (hchars : ∀ c ∈ sid.toList, sessionIdChar c = true) :
    segments (Text.replace destination sessionIdHole sid) =
      (pieces destination).map (fill sid.toList) :=
  segments_fill (fun hmem => absurd (hchars '/' hmem) (by decide)) (Text.toList_replace _ _ _)

/-- **A filled hole is a name.** -/
theorem component_fill (hne : sid ≠ "") (hchars : ∀ c ∈ sid.toList, sessionIdChar c = true)
    (hhole : none ∈ piece) :
    component (fill sid.toList piece) =
      some (.normal (String.ofList (fill sid.toList piece))) := by
  obtain ⟨c, cs, hcs⟩ := List.exists_cons_of_ne_nil (mt String.toList_eq_nil_iff.mp hne)
  have hc : c ∈ sid.toList := hcs ▸ List.mem_cons_self
  have hmem : c ∈ fill sid.toList piece := subset_fill hhole hc
  have hdot : c ≠ '.' := by
    rintro rfl
    exact absurd (hchars _ hc) (by decide)
  rw [component, if_neg, if_neg]
  · intro hdots
    rw [hdots] at hmem
    rcases List.mem_cons.mp hmem with heq | hmem
    · exact hdot heq
    · exact hdot (List.mem_singleton.mp hmem)
  · rintro (hnil | hone)
    · rw [hnil] at hmem
      cases hmem
    · rw [hone] at hmem
      exact hdot (List.mem_singleton.mp hmem)

/-- What the strict validator accepts: a hole, and no way up. -/
theorem checkOutputContract_ok {schemas : Schemas} {contract : OutputContract}
    (h : checkOutputContract schemas contract = []) :
    (∃ piece ∈ pieces contract.destination, none ∈ piece) ∧
      ∀ piece ∈ pieces contract.destination,
        component (fill sessionIdHole.toList piece) ≠ some .parentDir := by
  unfold checkOutputContract at h
  simp only [List.append_eq_nil_iff, violationIf_eq_nil] at h
  obtain ⟨⟨⟨⟨-, hhole⟩, -⟩, -⟩, hup⟩ := h
  constructor
  · have hmem : none ∈ Text.holes contract.destination sessionIdHole :=
      Text.mem_holes (by decide) (by simpa [sessionIdHole] using hhole)
    exact exists_mem_splitOnP hmem (by decide)
  · intro piece hpiece hparent
    refine absurd ?_ (Bool.eq_false_iff.mp hup)
    rw [List.contains_iff_mem]
    refine List.mem_append_right _ (List.mem_filterMap.mpr ⟨_, ?_, hparent⟩)
    rw [segments_destination]
    exact List.mem_map_of_mem hpiece

/-- The names a filled destination leads down. -/
theorem replace_names {schemas : Schemas} {contract : OutputContract}
    (haccepted : checkOutputContract schemas contract = []) (hne : sid ≠ "")
    (hchars : ∀ c ∈ sid.toList, sessionIdChar c = true) :
    ∃ names : List String,
      (segments (Text.replace contract.destination sessionIdHole sid)).filterMap component =
        names.map .normal := by
  obtain ⟨-, hup⟩ := checkOutputContract_ok haccepted
  refine exists_names fun hmem => ?_
  rw [segments_replace hchars] at hmem
  obtain ⟨seg, hseg, hparent⟩ := List.mem_filterMap.mp hmem
  obtain ⟨piece, hpiece, rfl⟩ := List.mem_map.mp hseg
  by_cases hhole : none ∈ piece
  · rw [component_fill hne hchars hhole] at hparent
    cases hparent
  · rw [fill_congr hhole] at hparent
    exact hup piece hpiece hparent

/-- Lists that keep the same places agree there. -/
theorem filterMap_inj {α β : Type} {f g : α → Option β} {xs : List α}
    (hsame : ∀ x ∈ xs, (f x).isSome = (g x).isSome) (heq : xs.filterMap f = xs.filterMap g) :
    ∀ x ∈ xs, f x = g x := by
  induction xs with
  | nil => nofun
  | cons y ys ih =>
    have hhead := hsame y List.mem_cons_self
    have htail := fun x hx => hsame x (List.mem_cons_of_mem y hx)
    rw [List.filterMap_cons, List.filterMap_cons] at heq
    cases hf : f y with
    | none =>
      rw [hf] at heq hhead
      have hg : g y = none := Option.isSome_eq_false_iff.mp hhead.symm |> Option.isNone_iff_eq_none.mp
      rw [hg] at heq
      exact List.forall_mem_cons.mpr ⟨hf.trans hg.symm, ih htail heq⟩
    | some b =>
      rw [hf] at heq hhead
      obtain ⟨b', hg⟩ := Option.isSome_iff_exists.mp hhead.symm
      rw [hg] at heq
      obtain ⟨hb, htails⟩ := List.cons.inj heq
      exact List.forall_mem_cons.mpr ⟨by rw [hf, hg, hb], ih htail htails⟩

/-- **Different ids, different names.** -/
theorem replace_injective (hhole : ∃ piece ∈ pieces destination, none ∈ piece)
    (hne : sid ≠ "") (hchars : ∀ c ∈ sid.toList, sessionIdChar c = true) (hne' : sid' ≠ "")
    (hchars' : ∀ c ∈ sid'.toList, sessionIdChar c = true)
    (heq : (segments (Text.replace destination sessionIdHole sid)).filterMap component =
      (segments (Text.replace destination sessionIdHole sid')).filterMap component) :
    sid = sid' := by
  rw [segments_replace hchars, segments_replace hchars', List.filterMap_map,
    List.filterMap_map] at heq
  obtain ⟨piece, hpiece, hhole⟩ := hhole
  -- a segment with a hole is kept, any other is the same for both ids
  have hagree := filterMap_inj (fun piece _ => ?_) heq piece hpiece
  · rw [Function.comp_apply, Function.comp_apply, component_fill hne hchars hhole,
      component_fill hne' hchars' hhole] at hagree
    have hfill := String.ofList_inj.mp (Component.normal.inj (Option.some.inj hagree))
    exact String.toList_inj.mp (fill_injective hhole hfill)
  · by_cases hfree : none ∈ piece
    · rw [Function.comp_apply, Function.comp_apply, component_fill hne hchars hfree,
        component_fill hne' hchars' hfree]
      rfl
    · rw [Function.comp_apply, Function.comp_apply, fill_congr hfree]

/-- A filled hole is one of the names. -/
theorem replace_ne_nil (hhole : ∃ piece ∈ pieces destination, none ∈ piece) (hne : sid ≠ "")
    (hchars : ∀ c ∈ sid.toList, sessionIdChar c = true) :
    (segments (Text.replace destination sessionIdHole sid)).filterMap component ≠ [] := by
  obtain ⟨piece, hpiece, hhole⟩ := hhole
  rw [segments_replace hchars]
  exact List.ne_nil_of_mem (List.mem_filterMap.mpr
    ⟨_, List.mem_map_of_mem hpiece, component_fill hne hchars hhole⟩)

end

/-- **Deliverables are confined and never collide.** A confined destination, whatever the
validator made of it, leads down from the base without `.` and `..`; and a destination that
the validator accepts gives two sessions two files, both strictly below the base. -/
theorem deliverables_apart :
    (∀ base destination p, confineOutputDestination base destination = .ok p →
      components base <+: p ∧ Straight p) ∧
    ∀ schemas contract, checkOutputContract schemas contract = [] → ∀ sid sid' : String,
      sid ≠ "" → (∀ c ∈ sid.toList, sessionIdChar c = true) →
      sid' ≠ "" → (∀ c ∈ sid'.toList, sessionIdChar c = true) → sid ≠ sid' → ∀ base p q,
      confineOutputDestination base (Text.replace contract.destination sessionIdHole sid) = .ok p →
      confineOutputDestination base (Text.replace contract.destination sessionIdHole sid') = .ok q →
      p ≠ q ∧ StrictlyBelow (components base) p ∧ StrictlyBelow (components base) q := by
  refine ⟨fun base destination p => confineOutputDestination_straight, ?_⟩
  intro schemas contract haccepted sid sid' hne hchars hne' hchars' hdistinct base p q hp hq
  obtain ⟨hhole, -⟩ := checkOutputContract_ok haccepted
  obtain ⟨names, hnames⟩ := replace_names haccepted hne hchars
  obtain ⟨names', hnames'⟩ := replace_names haccepted hne' hchars'
  have below : ∀ cs : List Component, cs ≠ [] → StrictlyBelow (components base) (components base ++ cs) :=
    fun cs hcs => ⟨List.prefix_append _ _, fun heq => hcs (List.self_eq_append_right.mp heq)⟩
  rw [confineOutputDestination_names hnames hp, confineOutputDestination_names hnames' hq, ← hnames,
    ← hnames']
  refine ⟨fun heq => hdistinct ?_, below _ (replace_ne_nil hhole hne hchars),
    below _ (replace_ne_nil hhole hne' hchars')⟩
  exact replace_injective hhole hne hchars hne' hchars' (List.append_cancel_left heq)

/-- Two sessions of one profile. -/
theorem deliverables_apart_sessions :
    [Component.rootDir, .normal "srv", .normal "out", .normal "s1.json"] ≠
      [.rootDir, .normal "srv", .normal "out", .normal "s2.json"] := by
  have hfirst : ∀ c ∈ "s1".toList, sessionIdChar c = true := List.all_eq_true.mp (by decide)
  have hsecond : ∀ c ∈ "s2".toList, sessionIdChar c = true := List.all_eq_true.mp (by decide)
  have hapart := deliverables_apart.2 Sample.vendor.toSchemas ⟨.null, "out/./\x7bsession_id\x7d.json"⟩
    (by decide) "s1" "s2" (by decide) hfirst (by decide) hsecond (by decide) "/srv"
    [.rootDir, .normal "srv", .normal "out", .normal "s1.json"]
    [.rootDir, .normal "srv", .normal "out", .normal "s2.json"] (by decide) (by decide)
  exact hapart.1

end ProtocolEnforcer
