import Mathlib.Logic.Function.Basic
import ProtocolEnforcer.Core.Utf8

/-!
# Files and what is written to them

A disk holds the bytes of each file, and a program changes it by a list of writes. A write
leaves every file it does not name as it is, and a file that is only created and appended to
keeps what it holds as a prefix.
-/

namespace ProtocolEnforcer

/-- The bytes of each file that there is. -/
abbrev Disk (F : Type) := F → Option Bytes

inductive FileWrite (F : Type) where
  /-- Open with `create` or `create_new`. -/
  | create (file : F)
  /-- `write_all` in append mode. -/
  | append (file : F) (bytes : Bytes)
  /-- `std::fs::write`. -/
  | overwrite (file : F) (bytes : Bytes)
  | rename (src dst : F)
  | remove (file : F)
  deriving DecidableEq

namespace FileWrite

variable {F : Type}

/-- The files a write changes. -/
def files : FileWrite F → List F
  | create file | append file _ | overwrite file _ | remove file => [file]
  | rename src dst => [src, dst]

/-- The file a write takes its bytes from. -/
def source : FileWrite F → Option F
  | rename src _ => some src
  | create _ | append _ _ | overwrite _ _ | remove _ => none

/-- A write that leaves what `f` holds where it is. -/
def Extends (f : F) (w : FileWrite F) : Prop :=
  f ∉ w.files ∨ w = create f ∨ ∃ bytes, w = append f bytes

/-- Creating a file keeps what is there, -/
theorem extends_create (file f : F) : (create file).Extends f := by
  by_cases heq : f = file
  · exact Or.inr (Or.inl (heq ▸ rfl))
  · exact Or.inl (List.not_mem_cons_of_ne_of_not_mem heq List.not_mem_nil)

/-- and so does appending. -/
theorem extends_append (file f : F) (bytes : Bytes) : (append file bytes).Extends f := by
  by_cases heq : f = file
  · exact Or.inr (Or.inr ⟨bytes, heq ▸ rfl⟩)
  · exact Or.inl (List.not_mem_cons_of_ne_of_not_mem heq List.not_mem_nil)

variable [DecidableEq F]

/-- The disk after a write. -/
def apply (d : Disk F) : FileWrite F → Disk F
  | create file => Function.update d file (some ((d file).getD []))
  | append file bytes => Function.update d file (some ((d file).getD [] ++ bytes))
  | overwrite file bytes => Function.update d file (some bytes)
  | rename src dst => Function.update (Function.update d dst (d src)) src none
  | remove file => Function.update d file none

/-- The disk after a list of writes. -/
def applyAll (d : Disk F) (ws : List (FileWrite F)) : Disk F := ws.foldl apply d

variable {d : Disk F} {f : F} {w : FileWrite F} {ws ws' : List (FileWrite F)}

@[simp] theorem applyAll_nil : applyAll d [] = d := rfl

theorem applyAll_append : applyAll d (ws ++ ws') = applyAll (applyAll d ws) ws' :=
  List.foldl_append

/-- A write changes no file but those it names. -/
theorem apply_other (h : f ∉ w.files) : apply d w f = d f := by
  cases w with
  | rename src dst =>
    simp only [files, List.mem_cons, List.not_mem_nil, or_false, not_or] at h
    rw [apply, Function.update_of_ne h.1, Function.update_of_ne h.2]
  | create | append | overwrite | remove =>
    rw [files, List.mem_singleton] at h
    rw [apply, Function.update_of_ne h]

/-- Nor do any number of writes. -/
theorem applyAll_other (h : ∀ w ∈ ws, f ∉ w.files) : applyAll d ws f = d f := by
  induction ws generalizing d with
  | nil => rfl
  | cons w ws ih =>
    have hrest : applyAll (apply d w) ws f = apply d w f :=
      ih fun w hw => h w (List.mem_cons_of_mem _ hw)
    exact hrest.trans (apply_other (h w (List.mem_cons_self ..)))

/-- On files among which it also has its source, a write does the same to disks that agree. -/
theorem apply_congr {d' : Disk F} {P : F → Prop} (hw : ∀ f, w.source = some f → P f)
    (hd : ∀ f, P f → d f = d' f) : ∀ f, P f → apply d w f = apply d' w f := by
  have update : ∀ (e e' : Disk F) (file : F) (v v' : Option Bytes), (P file → v = v') →
      (∀ f, P f → e f = e' f) →
      ∀ f, P f → Function.update e file v f = Function.update e' file v' f := by
    intro e e' file v v' hv he f hf
    by_cases heq : f = file
    · subst heq
      rw [Function.update_self, Function.update_self, hv hf]
    · rw [Function.update_of_ne heq, Function.update_of_ne heq, he f hf]
  cases w with
  | rename src dst =>
    exact update _ _ src _ _ (fun _ => rfl)
      (update _ _ dst _ _ (fun _ => hd src (hw src rfl)) hd)
  | create file => exact update _ _ file _ _ (fun hf => by rw [hd file hf]) hd
  | append file bytes => exact update _ _ file _ _ (fun hf => by rw [hd file hf]) hd
  | overwrite file bytes => exact update _ _ file _ _ (fun _ => rfl) hd
  | remove file => exact update _ _ file _ _ (fun _ => rfl) hd

/-- So do any number of them. -/
theorem applyAll_congr {d' : Disk F} {P : F → Prop}
    (hw : ∀ w ∈ ws, ∀ f, w.source = some f → P f) (hd : ∀ f, P f → d f = d' f) :
    ∀ f, P f → applyAll d ws f = applyAll d' ws f := by
  induction ws generalizing d d' with
  | nil => exact hd
  | cons w ws ih =>
    rw [List.forall_mem_cons] at hw
    exact ih hw.2 (apply_congr hw.1 hd)

/-- A file only created and appended to keeps what it holds. -/
theorem apply_extends {bytes : Bytes} (h : w.Extends f) (hd : d f = some bytes) :
    ∃ bytes', apply d w f = some bytes' ∧ bytes <+: bytes' := by
  rcases h with h | rfl | ⟨more, rfl⟩
  · exact ⟨bytes, (apply_other h).trans hd, List.prefix_rfl⟩
  · refine ⟨bytes, ?_, List.prefix_rfl⟩
    rw [apply, Function.update_self, hd, Option.getD_some]
  · refine ⟨bytes ++ more, ?_, List.prefix_append _ _⟩
    rw [apply, Function.update_self, hd, Option.getD_some]

/-- **So it does over any number of writes.** -/
theorem applyAll_extends {bytes : Bytes} (h : ∀ w ∈ ws, w.Extends f) (hd : d f = some bytes) :
    ∃ bytes', applyAll d ws f = some bytes' ∧ bytes <+: bytes' := by
  induction ws generalizing d bytes with
  | nil => exact ⟨bytes, hd, List.prefix_rfl⟩
  | cons w ws ih =>
    obtain ⟨mid, hmid, hpre⟩ := apply_extends (h w (List.mem_cons_self ..)) hd
    obtain ⟨bytes', hlast, hpre'⟩ := ih (fun w hw => h w (List.mem_cons_of_mem _ hw)) hmid
    exact ⟨bytes', hlast, hpre.trans hpre'⟩

end FileWrite

end ProtocolEnforcer
