import ProtocolEnforcer.Core.Disk
import ProtocolEnforcer.Core.Effect

/-!
# Programs over files

A program that works on files is a tree of its file operations: each node names one
operation and says how to go on from its answer. The tree is the program whatever the
files hold and whatever fails, so that one definition serves for a run on its own, for a
run in which operations fail, and for a run among others.

`exec` runs a program on a disk of its own, with the failures that a given oracle makes;
`effect` turns it into an `Effect`, whose rules then apply.
-/

namespace ProtocolEnforcer

/-- What makes an operation fail. A failed write has left the first `written` bytes in its
file, or has not opened it. -/
structure FileFault where
  message : String
  written : Option Nat := none

/-- The text of `ErrorKind::NotFound`. -/
def noSuchFile : String := "No such file or directory (os error 2)"

/-- A program that works on the files `F` and returns an `α`. -/
inductive FileProg (F α : Type) where
  | done (a : α)
  /-- `Path::exists`. -/
  | pathExists (f : F) (next : Bool → FileProg F α)
  /-- `fs::read`. -/
  | read (f : F) (next : Except String Bytes → FileProg F α)
  /-- An operation that changes files. -/
  | write (w : FileWrite F) (next : Except String Unit → FileProg F α)

namespace FileProg

variable {F α β : Type}

def bind (x : FileProg F α) (g : α → FileProg F β) : FileProg F β :=
  match x with
  | done a => g a
  | pathExists f next => pathExists f fun b => (next b).bind g
  | read f next => read f fun r => (next r).bind g
  | write w next => write w fun r => (next r).bind g

instance : Monad (FileProg F) where
  pure := done
  bind := bind

/-- The state of a run: the disk, the writes so far, and the number of operations so far
that could fail. -/
structure State (F : Type) where
  disk : Disk F
  log : List (FileWrite F) := []
  used : Nat := 0

end FileProg

namespace FileWrite

variable {F : Type}

/-- What a failed write did all the same. -/
def partially (w : FileWrite F) (written : Option Nat) : List (FileWrite F) :=
  match w, written with
  | overwrite file bytes, some n => [overwrite file (bytes.take n)]
  | append file bytes, some n => [append file (bytes.take n)]
  | _, _ => []

/-- Whether the files are there that a write needs. -/
def possible (d : Disk F) : FileWrite F → Bool
  | rename src _ => (d src).isSome
  | remove file => (d file).isSome
  | _ => true

/-- What an attempt to write answers, and what it writes. -/
def attempt (d : Disk F) (w : FileWrite F) : Option FileFault →
    Except String Unit × List (FileWrite F)
  | some fault => (.error fault.message, w.partially fault.written)
  | none => if w.possible d then (.ok (), [w]) else (.error noSuchFile, [])

@[simp] theorem partially_none (w : FileWrite F) : w.partially none = [] := by
  cases w <;> rfl

@[simp] theorem partially_rename (src dst : F) (written : Option Nat) :
    (rename src dst).partially written = [] := by
  cases written <;> rfl

@[simp] theorem partially_remove (file : F) (written : Option Nat) :
    (remove file).partially written = [] := by
  cases written <;> rfl

/-- A failed write is on the files of the write. -/
theorem partially_files {w w' : FileWrite F} {written : Option Nat}
    (h : w' ∈ w.partially written) : w'.files = w.files := by
  unfold partially at h
  split at h
  · rw [List.mem_singleton.mp h]
    rfl
  · rw [List.mem_singleton.mp h]
    rfl
  · exact absurd h List.not_mem_nil

end FileWrite

namespace FileProg

variable {F α β : Type}

/-- What a read answers. -/
def State.readAnswer (s : State F) (fault : Nat → Option FileFault) (f : F) :
    Except String Bytes :=
  match fault s.used, s.disk f with
  | some fault, _ => .error fault.message
  | none, some bytes => .ok bytes
  | none, none => .error noSuchFile

section

variable {s : State F} {fault : Nat → Option FileFault} {f : F} {bytes : Bytes}

theorem State.readAnswer_fault {e : FileFault} (h : fault s.used = some e) :
    s.readAnswer fault f = .error e.message := by
  rw [readAnswer, h]

theorem State.readAnswer_some (h : fault s.used = none) (hf : s.disk f = some bytes) :
    s.readAnswer fault f = .ok bytes := by
  rw [readAnswer, h, hf]

theorem State.readAnswer_none (h : fault s.used = none) (hf : s.disk f = none) :
    s.readAnswer fault f = .error noSuchFile := by
  rw [readAnswer, h, hf]

end

/-- One more operation that could fail. -/
def State.tick (s : State F) : State F := { s with used := s.used + 1 }

variable [DecidableEq F]

/-- After these writes. -/
def State.wrote (s : State F) (ws : List (FileWrite F)) : State F :=
  { disk := FileWrite.applyAll s.disk ws, log := s.log ++ ws, used := s.used + 1 }

/-- Run a program; `fault n` is what happens to the `n`-th operation that can fail. -/
def exec (fault : Nat → Option FileFault) : FileProg F α → State F → α × State F
  | done a, s => (a, s)
  | pathExists f next, s => (next (s.disk f).isSome).exec fault s
  | read f next, s => (next (s.readAnswer fault f)).exec fault s.tick
  | write w next, s =>
    let tried := w.attempt s.disk (fault s.used)
    (next tried.1).exec fault (s.wrote tried.2)

variable {fault : Nat → Option FileFault}

theorem exec_bind (x : FileProg F α) (g : α → FileProg F β) (s : State F) :
    (x >>= g).exec fault s = (g (x.exec fault s).1).exec fault (x.exec fault s).2 := by
  show (x.bind g).exec fault s = _
  induction x generalizing s with
  | done a => rfl
  | pathExists f next ih => exact ih _ s
  | read f next ih => exact ih _ s.tick
  | write w next ih => exact ih _ _

/-- The disk is what the writes of the run made of it. -/
theorem exec_disk (x : FileProg F α) (s : State F) :
    ∃ ws, (x.exec fault s).2.log = s.log ++ ws ∧
      (x.exec fault s).2.disk = FileWrite.applyAll s.disk ws := by
  induction x generalizing s with
  | done a => exact ⟨[], (List.append_nil _).symm, rfl⟩
  | pathExists f next ih => exact ih _ s
  | read f next ih => exact ih _ s.tick
  | write w next ih =>
    obtain ⟨ws, hlog, hdisk⟩ := ih (w.attempt s.disk (fault s.used)).1
      (s.wrote (w.attempt s.disk (fault s.used)).2)
    refine ⟨(w.attempt s.disk (fault s.used)).2 ++ ws, ?_, ?_⟩
    · exact hlog.trans (List.append_assoc _ _ _)
    · exact hdisk.trans FileWrite.applyAll_append.symm

end FileProg

/-- A program over files that may fail with an `ε`. -/
abbrev FileTask (F ε : Type) := ExceptT ε (FileProg F)

namespace FileTask

variable {F ε α β : Type}

/-- `Path::exists`. -/
def pathExists (f : F) : FileTask F ε Bool := ExceptT.mk (.pathExists f fun b => .done (.ok b))

/-- `fs::read`, with its error wrapped. -/
def read (f : F) (wrap : String → ε) : FileTask F ε Bytes :=
  ExceptT.mk (.read f fun r => .done (r.mapError wrap))

/-- A write, with its error wrapped. -/
def write (w : FileWrite F) (wrap : String → ε) : FileTask F ε Unit :=
  ExceptT.mk (.write w fun r => .done (r.mapError wrap))

/-- A result that takes no files. -/
def lift (r : Except ε α) : FileTask F ε α := ExceptT.mk (.done r)

/-- An early return with an error, unless the condition holds. -/
def ensure (c : Bool) (e : ε) : FileTask F ε Unit := lift (if c then .ok () else .error e)

/-- An `if` without an `else`. -/
def onlyIf (c : Bool) (x : FileTask F ε Unit) : FileTask F ε Unit := if c then x else pure ()

variable [DecidableEq F]

/-- A program as a computation over its disk. -/
def effect (fault : Nat → Option FileFault) (x : FileTask F ε α) :
    Effect (FileProg.State F) ε α := fun s => FileProg.exec fault x.run s

variable {fault : Nat → Option FileFault} {s : FileProg.State F}

/-! The operations of a program are those of the computation. -/

theorem effect_lift (r : Except ε α) : effect fault (lift r : FileTask F ε α) = Effect.lift r := by
  cases r <;> rfl

theorem effect_pathExists (f : F) : effect fault (pathExists f : FileTask F ε Bool) =
    Effect.reads fun s => (s.disk f).isSome := rfl

theorem effect_bind (x : FileTask F ε α) (g : α → FileTask F ε β) :
    effect fault (x >>= g) = effect fault x >>= fun a => effect fault (g a) := by
  funext s
  show FileProg.exec fault (x.run >>= ExceptT.bindCont g) s =
    Effect.exec (effect fault x >>= fun a => effect fault (g a)) s
  rw [FileProg.exec_bind, Effect.exec_bind]
  rcases hx : FileProg.exec fault x.run s with ⟨r, s'⟩
  rw [show Effect.exec (effect fault x) s = (r, s') from hx]
  cases r <;> rfl

theorem effect_tryCatch (x : FileTask F ε α) (h : ε → FileTask F ε α) :
    effect fault (tryCatch x h) = tryCatch (effect fault x) fun e => effect fault (h e) := by
  funext s
  show FileProg.exec fault (x.run >>= _) s =
    Effect.exec (tryCatch (effect fault x) fun e => effect fault (h e)) s
  rw [FileProg.exec_bind, Effect.exec_tryCatch]
  rcases hx : FileProg.exec fault x.run s with ⟨r, s'⟩
  rw [show Effect.exec (effect fault x) s = (r, s') from hx]
  cases r <;> rfl

theorem exec_read (f : F) (wrap : String → ε) :
    Effect.exec (effect fault (read f wrap)) s =
      ((s.readAnswer fault f).mapError wrap, s.tick) := rfl

theorem exec_write (w : FileWrite F) (wrap : String → ε) :
    Effect.exec (effect fault (write w wrap)) s =
      ((w.attempt s.disk (fault s.used)).1.mapError wrap,
        s.wrote (w.attempt s.disk (fault s.used)).2) := rfl

theorem effect_map (g : α → β) (x : FileTask F ε α) :
    effect fault (g <$> x) = effect fault x >>= fun a => pure (g a) := by
  show effect fault (x >>= fun a => pure (g a)) = _
  rw [effect_bind]
  rfl

/-! ## Rules

For programs that look before they write: up to the first write the disk is the one the
run has started from. -/

open Effect FileWrite

/-- Wrapping the errors of a result leaves its values. -/
theorem mapError_eq_ok {ε' : Type} {r : Except ε α} {wrap : ε → ε'} {a : α} :
    r.mapError wrap = .ok a ↔ r = .ok a := by
  cases r <;> simp [Except.mapError]

/-- Nothing has been written, and `n` operations that could fail have been tried. -/
def Clean (d : Disk F) (n : Nat) (s : FileProg.State F) : Prop := s = { disk := d, used := n }

/-- These writes have been made. -/
def Wrote (d : Disk F) (ws : List (FileWrite F)) (n : Nat) (s : FileProg.State F) : Prop :=
  s = { disk := applyAll d ws, log := ws, used := n }

theorem Clean.wrote {d : Disk F} {n : Nat} {s : FileProg.State F} (h : Clean d n s) :
    Wrote d [] n s := h

variable {P R : FileProg.State F → Prop} {Q : β → FileProg.State F → Prop} {d : Disk F} {n : Nat}

theorem bind_spec {x : FileTask F ε α} {g : α → FileTask F ε β} {M : α → FileProg.State F → Prop}
    (hx : Triple P (effect fault x) M R) (hg : ∀ a, Triple (M a) (effect fault (g a)) Q R) :
    Triple P (effect fault (x >>= g)) Q R := by
  rw [effect_bind]
  exact .bind hx hg

theorem map_spec {g : α → β} {x : FileTask F ε α}
    (hx : Triple P (effect fault x) (fun a => Q (g a)) R) : Triple P (effect fault (g <$> x)) Q R := by
  rw [effect_map]
  exact .bind hx fun _ => .pure fun _ hs => hs

theorem bind_lift {r : Except ε α} {g : α → FileTask F ε β}
    (ok : ∀ a, r = .ok a → Triple P (effect fault (g a)) Q R)
    (fail : ∀ e, r = .error e → ∀ s, P s → R s) :
    Triple P (effect fault (lift r >>= g)) Q R := by
  rw [effect_bind, effect_lift]
  cases r with
  | ok a =>
    intro s hs
    rw [exec_bind_ok (exec_lift _ _)]
    exact ok a rfl s hs
  | error e =>
    intro s hs
    rw [exec_bind_error (exec_lift _ _)]
    exact fail e rfl s hs

theorem lift_spec {r : Except ε β} (ok : ∀ b, r = .ok b → ∀ s, P s → Q b s)
    (fail : ∀ e, r = .error e → ∀ s, P s → R s) : Triple P (effect fault (lift r)) Q R := by
  intro s hs
  rw [effect_lift, exec_lift]
  cases r with
  | ok b => exact ok b rfl s hs
  | error e => exact fail e rfl s hs

theorem ensure_spec {c : Bool} {e : ε} {Q : Unit → FileProg.State F → Prop}
    (ok : c = true → ∀ s, P s → Q () s) (fail : c = false → ∀ s, P s → R s) :
    Triple P (effect fault (ensure c e)) Q R := by
  cases c with
  | true => exact lift_spec (fun _ _ => ok rfl) nofun
  | false => exact lift_spec nofun fun _ _ => fail rfl

theorem bind_ensure {c : Bool} {e : ε} {g : Unit → FileTask F ε β}
    (ok : c = true → Triple P (effect fault (g ())) Q R)
    (fail : c = false → ∀ s, P s → R s) :
    Triple P (effect fault (ensure c e >>= g)) Q R := by
  cases c with
  | true => exact bind_lift (fun _ _ => ok rfl) nofun
  | false => exact bind_lift nofun fun _ _ => fail rfl

theorem onlyIf_spec {c : Bool} {x : FileTask F ε Unit} {Q : Unit → FileProg.State F → Prop}
    (hx : c = true → Triple P (effect fault x) Q R) (hskip : c = false → ∀ s, P s → Q () s) :
    Triple P (effect fault (onlyIf c x)) Q R := by
  cases c with
  | true => exact hx rfl
  | false => exact .pure (hskip rfl)

theorem bind_pathExists {f : F} {g : Bool → FileTask F ε β}
    (h : Triple (Clean d n) (effect fault (g (d f).isSome)) Q R) :
    Triple (Clean d n) (effect fault (pathExists f >>= g)) Q R := by
  rw [effect_bind, effect_pathExists]
  rintro s rfl
  exact h _ rfl

/-- A read succeeds on a file that is there, unless it is made to fail, -/
theorem read_spec {f : F} {wrap : String → ε} {Q : Bytes → FileProg.State F → Prop}
    (ok : ∀ s bytes, P s → fault s.used = none → s.disk f = some bytes → Q bytes s.tick)
    (fail : ∀ s, P s → (fault s.used = none → s.disk f = none) → R s.tick) :
    Triple P (effect fault (read f wrap)) Q R := by
  intro s hs
  rw [exec_read]
  cases hfault : fault s.used with
  | some e =>
    rw [FileProg.State.readAnswer_fault hfault]
    exact fail s hs fun h => absurd (hfault.symm.trans h) nofun
  | none =>
    cases hfile : s.disk f with
    | some bytes =>
      rw [FileProg.State.readAnswer_some hfault hfile]
      exact ok s bytes hs hfault hfile
    | none =>
      rw [FileProg.State.readAnswer_none hfault hfile]
      exact fail s hs fun _ => hfile

/-- and what follows goes on with its bytes. -/
theorem bind_read {f : F} {wrap : String → ε} {g : Bytes → FileTask F ε β}
    (ok : ∀ bytes, fault n = none → d f = some bytes →
      Triple (Clean d (n + 1)) (effect fault (g bytes)) Q R)
    (fail : (fault n = none → d f = none) → ∀ s, Clean d (n + 1) s → R s) :
    Triple (Clean d n) (effect fault (read f wrap >>= g)) Q R := by
  refine bind_spec (M := fun bytes s => (fault n = none ∧ d f = some bytes) ∧ Clean d (n + 1) s)
    (read_spec ?_ ?_) fun bytes => .of_fact fun h => ok bytes h.1 h.2
  · rintro s bytes rfl hfault hfile
    exact ⟨⟨hfault, hfile⟩, rfl⟩
  · rintro s rfl hnone
    exact fail hnone _ rfl

/-- A write happens, or what is left of it. -/
theorem write_spec {w : FileWrite F} {wrap : String → ε} {Q : Unit → FileProg.State F → Prop}
    (ok : ∀ s, P s → fault s.used = none → Q () (s.wrote [w]))
    (fail : ∀ s written, P s → (fault s.used = none → w.possible s.disk = false) →
      R (s.wrote (w.partially written))) :
    Triple P (effect fault (write w wrap)) Q R := by
  intro s hs
  rw [exec_write]
  cases hfault : fault s.used with
  | some e => exact fail s e.written hs fun h => absurd (hfault.symm.trans h) nofun
  | none =>
    by_cases hposs : w.possible s.disk = true
    · rw [FileWrite.attempt, if_pos hposs]
      exact ok s hs hfault
    · rw [FileWrite.attempt, if_neg hposs]
      have hleft := fail s none hs fun _ => Bool.eq_false_iff.mpr hposs
      rwa [FileWrite.partially_none] at hleft

/-- A write after others. -/
theorem write_after {w : FileWrite F} {ws : List (FileWrite F)} {wrap : String → ε}
    {Q : Unit → FileProg.State F → Prop}
    (ok : fault n = none → ∀ s, Wrote d (ws ++ [w]) (n + 1) s → Q () s)
    (fail : ∀ written, (fault n = none → w.possible (applyAll d ws) = false) →
      ∀ s, Wrote d (ws ++ w.partially written) (n + 1) s → R s) :
    Triple (Wrote d ws n) (effect fault (write w wrap)) Q R := by
  have hwrote : ∀ {s : FileProg.State F} {more}, Wrote d ws n s →
      Wrote d (ws ++ more) (n + 1) (s.wrote more) := by
    rintro s more rfl
    rw [Wrote, applyAll_append]
    rfl
  refine write_spec (fun s hs hfault => ?_) fun s written hs hposs => ?_
  · rw [hs] at hfault
    exact ok hfault _ (hwrote hs)
  · rw [hs] at hposs
    exact fail written hposs _ (hwrote hs)

/-- The first write. -/
theorem write_first {w : FileWrite F} {wrap : String → ε} {Q : Unit → FileProg.State F → Prop}
    (ok : fault n = none → ∀ s, Wrote d [w] (n + 1) s → Q () s)
    (fail : ∀ written, (fault n = none → w.possible d = false) →
      ∀ s, Wrote d (w.partially written) (n + 1) s → R s) :
    Triple (Clean d n) (effect fault (write w wrap)) Q R := by
  have hafter : Triple (Wrote d [] n) (effect fault (write w wrap)) Q R := write_after ok fail
  exact hafter.conseq (fun _ => Clean.wrote) (fun _ _ hs => hs) fun _ hs => hs

end FileTask

end ProtocolEnforcer
