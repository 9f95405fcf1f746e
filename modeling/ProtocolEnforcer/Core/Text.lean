import Mathlib.Data.List.Infix

/-!
# Text operations

The string operations of the Rust standard library that the program uses, on the
characters of a text.
-/

namespace ProtocolEnforcer

namespace Text

/-- `str::contains` with a text pattern. -/
def hasSub (s pat : String) : Bool := pat.toList <:+: s.toList

/-- `str::contains` with a character. -/
def hasChar (s : String) (c : Char) : Bool := s.toList.contains c

theorem hasChar_iff {s : String} {c : Char} : hasChar s c = true ↔ c ∈ s.toList :=
  List.contains_iff_mem

theorem hasChar_eq_false {s : String} {c : Char} : hasChar s c = false ↔ c ∉ s.toList := by
  rw [← Bool.not_eq_true, hasChar_iff]

/-- `str::ends_with`. -/
def endsWith (s suffix : String) : Bool := suffix.toList.isSuffixOf s.toList

/-- `str::to_ascii_lowercase`. -/
def asciiLower (s : String) : String := String.ofList (s.toList.map Char.toLower)

/-- The scan of `str::replace`: `skip` characters of a match are still to be dropped. -/
def replaceFrom (pat by' : List Char) : Nat → List Char → List Char
  | _, [] => []
  | skip + 1, _ :: cs => replaceFrom pat by' skip cs
  | 0, c :: cs =>
    if pat.isPrefixOf (c :: cs) then by' ++ replaceFrom pat by' (pat.length - 1) cs
    else c :: replaceFrom pat by' 0 cs

/-- `str::replace` for a pattern that is not empty. -/
def replace (s pat by' : String) : String :=
  String.ofList (replaceFrom pat.toList by'.toList 0 s.toList)

example : replace "out/\x7bid\x7d/\x7bid\x7d.json" "\x7bid\x7d" "s1" = "out/s1/s1.json" := by
  decide

/-- What stands before the first separator, and what behind it. -/
theorem append_separator_inj {α : Type} {a : α} {xs ys rest rest' : List α} (hx : a ∉ xs)
    (hy : a ∉ ys) (h : xs ++ a :: rest = ys ++ a :: rest') : xs = ys ∧ rest = rest' := by
  induction xs generalizing ys with
  | nil =>
    cases ys with
    | nil => exact ⟨rfl, (List.cons.inj h).2⟩
    | cons y ys => exact absurd (List.cons.inj h).1 (List.ne_of_not_mem_cons hy)
  | cons x xs ih =>
    cases ys with
    | nil => exact absurd (List.cons.inj h).1.symm (List.ne_of_not_mem_cons hx)
    | cons y ys =>
      obtain ⟨rfl, htail⟩ := List.cons.inj h
      obtain ⟨rfl, hrest⟩ := ih (List.not_mem_of_not_mem_cons hx)
        (List.not_mem_of_not_mem_cons hy) htail
      exact ⟨rfl, hrest⟩

end Text

end ProtocolEnforcer
