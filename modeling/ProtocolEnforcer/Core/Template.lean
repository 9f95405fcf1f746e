import Mathlib.Data.List.Flatten
import ProtocolEnforcer.Core.Text

/-!
# Templates

A template is a text with holes, all to be filled with the same text. Filling is
injective in what is filled in, and a template is split at a separator before or after it
is filled, when the filling holds no separator. `Text.holes` is the template that
`str::replace` fills.
-/

namespace ProtocolEnforcer

/-- A text with holes. -/
abbrev Template (α : Type) := List (Option α)

namespace Template

variable {α : Type}

/-- What stands for one place of a template. -/
def fillAt (text : List α) : Option α → List α
  | some c => [c]
  | none => text

/-- The template with `text` in every hole. -/
def fill (text : List α) (template : Template α) : List α := template.flatMap (fillAt text)

variable {text text' : List α} {template : Template α}

@[simp] theorem fill_nil : fill text [] = [] := rfl

@[simp] theorem fill_some (c : α) : fill text (some c :: template) = c :: fill text template := rfl

@[simp] theorem fill_none : fill text (none :: template) = text ++ fill text template := rfl

/-- Without holes there is nothing to fill. -/
theorem fill_congr (h : none ∉ template) : fill text template = fill text' template := by
  induction template with
  | nil => rfl
  | cons c template ih =>
    cases c with
    | none => exact absurd List.mem_cons_self h
    | some c =>
      rw [fill_some, fill_some, ih fun hmem => h (List.mem_cons_of_mem _ hmem)]

theorem subset_fill (h : none ∈ template) : text ⊆ fill text template :=
  fun _ hc => List.mem_flatMap.mpr ⟨none, h, hc⟩

/-- A filled text has what is filled in and what was there. -/
theorem mem_fill {c : α} (h : c ∈ fill text template) : c ∈ text ∨ some c ∈ template := by
  obtain ⟨place, hplace, hc⟩ := List.mem_flatMap.mp h
  cases place with
  | none => exact .inl hc
  | some c' =>
    rw [List.mem_singleton.mp hc]
    exact .inr hplace

theorem length_fill : (fill text template).length =
    template.countP (·.isSome) + template.countP (·.isNone) * text.length := by
  induction template with
  | nil => simp
  | cons c template ih =>
    cases c with
    | none =>
      rw [fill_none, List.length_append, ih]
      simp only [List.countP_cons, Option.isSome_none, Option.isNone_none, Bool.false_eq_true,
        if_false, if_true, Nat.add_mul, Nat.one_mul]
      omega
    | some c =>
      rw [fill_some, List.length_cons, ih]
      simp only [List.countP_cons, Option.isSome_some, Option.isNone_some, Bool.false_eq_true,
        if_false, if_true, Nat.add_zero]
      omega

/-- **Filling is injective** in what is filled in, when there is a hole. -/
theorem fill_injective (h : none ∈ template) (heq : fill text template = fill text' template) :
    text = text' := by
  have hlen : text.length = text'.length := by
    have hholes : 0 < template.countP (·.isNone) := List.countP_pos_iff.mpr ⟨none, h, rfl⟩
    have hlengths := congrArg List.length heq
    rw [length_fill, length_fill] at hlengths
    exact Nat.eq_of_mul_eq_mul_left hholes (Nat.add_left_cancel hlengths)
  -- the fillings are as long, so they lie side by side up to the first hole
  induction template with
  | nil => cases h
  | cons c template ih =>
    cases c with
    | none => exact (List.append_inj heq hlen).1
    | some c =>
      have h : none ∈ template := (List.mem_cons.mp h).resolve_left nofun
      exact ih h (List.cons.inj heq).2

/-! ## Splitting -/

/-- What is put in front of the first piece. -/
theorem splitOnP_append {p : α → Bool} {front : List α} (h : ∀ c ∈ front, p c = false)
    (rest : List α) : (front ++ rest).splitOnP p = (rest.splitOnP p).modifyHead (front ++ ·) := by
  induction front with
  | nil =>
    rw [List.nil_append]
    cases rest.splitOnP p <;> rfl
  | cons c front ih =>
    rw [List.cons_append, List.splitOnP_cons_eq_if_modifyHead, if_neg (by simp [h c]),
      ih fun c hc => h c (List.mem_cons_of_mem _ hc)]
    cases rest.splitOnP p <;> rfl

/-- **Filling commutes with splitting**, where the filling holds no separator. -/
theorem splitOnP_fill [DecidableEq α] {sep : α} (h : sep ∉ text) :
    (fill text template).splitOnP (· == sep) =
      (template.splitOnP (· == some sep)).map (fill text) := by
  induction template with
  | nil => rfl
  | cons c template ih =>
    have hpieces := List.splitOnP_ne_nil (· == some sep) template
    obtain ⟨piece, pieces, hsplit⟩ := List.exists_cons_of_ne_nil hpieces
    rw [hsplit] at ih
    cases c with
    | none =>
      have hfront : ∀ c ∈ text, (c == sep) = false := fun c hc =>
        beq_eq_false_iff_ne.mpr fun heq => h (heq ▸ hc)
      rw [fill_none, splitOnP_append hfront, ih, List.splitOnP_cons_eq_if_modifyHead,
        if_neg (by simp), hsplit]
      rfl
    | some c =>
      rw [fill_some, List.splitOnP_cons_eq_if_modifyHead, List.splitOnP_cons_eq_if_modifyHead, ih,
        hsplit]
      by_cases hc : c = sep
      · rw [if_pos (by simp [hc]), if_pos (by simp [hc])]
        rfl
      · rw [if_neg (by simp [hc]), if_neg (by simp [hc])]
        rfl

end Template

namespace Text

open Template

/-- The scan of `str::replace`, with a hole for each match. -/
def holesFrom (pat : List Char) : Nat → List Char → Template Char
  | _, [] => []
  | skip + 1, _ :: cs => holesFrom pat skip cs
  | 0, c :: cs =>
    if pat.isPrefixOf (c :: cs) then none :: holesFrom pat (pat.length - 1) cs
    else some c :: holesFrom pat 0 cs

/-- The template that replacing `pat` in `s` fills. -/
def holes (s pat : String) : Template Char := holesFrom pat.toList 0 s.toList

theorem replaceFrom_eq (pat by' : List Char) (skip : Nat) (cs : List Char) :
    replaceFrom pat by' skip cs = fill by' (holesFrom pat skip cs) := by
  fun_induction holesFrom pat skip cs with
  | case1 => rw [replaceFrom, fill_nil]
  | case2 skip c cs ih => rw [replaceFrom, ih]
  | case3 c cs hmatch ih => rw [replaceFrom, if_pos hmatch, ih, fill_none]
  | case4 c cs hmatch ih => rw [replaceFrom, if_neg hmatch, ih, fill_some]

/-- **Replacing is filling.** -/
theorem toList_replace (s pat by' : String) :
    (replace s pat by').toList = fill by'.toList (holes s pat) := by
  rw [replace, String.toList_ofList, replaceFrom_eq, holes]

theorem fill_holesFrom {pat : List Char} (hpat : pat ≠ []) (skip : Nat) (cs : List Char) :
    fill pat (holesFrom pat skip cs) = cs.drop skip := by
  fun_induction holesFrom pat skip cs with
  | case1 => rw [fill_nil, List.drop_nil]
  | case2 skip c cs ih => rw [ih, List.drop_succ_cons]
  | case3 c cs hmatch ih =>
    obtain ⟨rest, hrest⟩ := List.isPrefixOf_iff_prefix.mp hmatch
    have hdrop : cs.drop (pat.length - 1) = rest := by
      have hlen : pat.length = pat.length - 1 + 1 := (Nat.succ_pred (by simpa using hpat)).symm
      have hpast : (pat ++ rest).drop pat.length = rest := List.drop_left
      rwa [hrest, hlen, List.drop_succ_cons] at hpast
    rw [fill_none, ih, hdrop, hrest, List.drop_zero]
  | case4 c cs hmatch ih => rw [fill_some, ih, List.drop_zero, List.drop_zero]

/-- Filled with the pattern, the template is the text itself. -/
theorem fill_holes {s pat : String} (hpat : pat ≠ "") : fill pat.toList (holes s pat) = s.toList :=
  fill_holesFrom (mt String.toList_eq_nil_iff.mp hpat) 0 _

theorem mem_holesFrom {pat cs : List Char} (hpat : pat ≠ []) (h : pat <:+: cs) :
    none ∈ holesFrom pat 0 cs := by
  induction cs with
  | nil => exact absurd (List.infix_nil.mp h) hpat
  | cons c cs ih =>
    rw [holesFrom]
    split
    · exact List.mem_cons_self
    · rename_i hmatch
      rcases List.infix_cons_iff.mp h with hprefix | hinfix
      · exact absurd (List.isPrefixOf_iff_prefix.mpr hprefix) hmatch
      · exact List.mem_cons_of_mem _ (ih hinfix)

theorem mem_of_mem_holesFrom {pat : List Char} {skip : Nat} {cs : List Char} {c : Char}
    (h : some c ∈ holesFrom pat skip cs) : c ∈ cs := by
  induction cs generalizing skip with
  | nil => cases skip <;> cases h
  | cons c' cs ih =>
    cases skip with
    | succ skip => exact List.mem_cons_of_mem _ (ih h)
    | zero =>
      rw [holesFrom] at h
      split at h
      · exact List.mem_cons_of_mem _ (ih ((List.mem_cons.mp h).resolve_left nofun))
      · rcases List.mem_cons.mp h with heq | hmem
        · rw [Option.some.inj heq]
          exact List.mem_cons_self
        · exact List.mem_cons_of_mem _ (ih hmem)

/-- Between the holes is what the text has there. -/
theorem mem_of_mem_holes {s pat : String} {c : Char} (h : some c ∈ holes s pat) : c ∈ s.toList :=
  mem_of_mem_holesFrom h

/-- A template begins as its text does, or with a hole. -/
theorem head?_holes {s pat : String} {c : Char} (h : (holes s pat).head? = some (some c)) :
    s.toList.head? = some c := by
  rw [holes] at h
  cases hs : s.toList with
  | nil =>
    rw [hs] at h
    cases h
  | cons c' cs =>
    rw [hs, holesFrom] at h
    split at h
    · cases h
    · exact Option.some.inj h

/-- A text that contains the pattern has a hole. -/
theorem mem_holes {s pat : String} (hpat : pat ≠ "") (h : hasSub s pat = true) :
    none ∈ holes s pat :=
  mem_holesFrom (mt String.toList_eq_nil_iff.mp hpat) (of_decide_eq_true h)

end Text

end ProtocolEnforcer
