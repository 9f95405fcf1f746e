import ProtocolEnforcer.Core.FileProg
import ProtocolEnforcer.Core.Runs

/-!
# Programs that share a disk

Several programs over files run together. A run of them is a list of turns: a turn names the
program whose next operation happens, and says whether it is made to fail. Between any two
operations of one program, the others may do anything.

What is known of a program between its operations is an assertion on the disk. It survives a
turn of another program that leaves alone the files that it speaks of.
-/

namespace ProtocolEnforcer

namespace FileProg

variable {F α : Type}

/-- The next operation of a program: what is left of the program, and what it has written. -/
def next (d : Disk F) (fault : Option FileFault) :
    FileProg F α → FileProg F α × List (FileWrite F)
  | done a => (done a, [])
  | pathExists f next => (next (d f).isSome, [])
  | read f next => (next (({ disk := d } : State F).readAnswer (fun _ => fault) f), [])
  | write w next => (next (w.attempt d fault).1, (w.attempt d fault).2)

section

variable {d : Disk F} {fault : Option FileFault} {P : FileProg F α × List (FileWrite F) → Prop}

/-- A read answers what the file holds, or fails. -/
theorem next_read {f : F} {cont : Except String Bytes → FileProg F α}
    (ok : ∀ bytes, d f = some bytes → P (cont (.ok bytes), []))
    (fail : ∀ m, P (cont (.error m), [])) : P ((read f cont).next d fault) := by
  show P (cont (({ disk := d } : State F).readAnswer (fun _ => fault) f), [])
  unfold State.readAnswer
  split
  · exact fail _
  · exact ok _ ‹_›
  · exact fail _

section

variable {f : F} {cont : Except String Bytes → FileProg F α}

theorem next_read_some {bytes : Bytes} (h : d f = some bytes) :
    (read f cont).next d none = (cont (.ok bytes), []) := by
  show (cont (({ disk := d } : State F).readAnswer (fun _ => none) f), _) = _
  rw [State.readAnswer_some rfl h]

theorem next_read_none (h : d f = none) :
    (read f cont).next d none = (cont (.error noSuchFile), []) := by
  show (cont (({ disk := d } : State F).readAnswer (fun _ => none) f), _) = _
  rw [State.readAnswer_none rfl h]

end

/-- A write happens, or what is left of it. -/
theorem next_write {w : FileWrite F} {cont : Except String Unit → FileProg F α}
    (ok : w.possible d = true → P (cont (.ok ()), [w]))
    (fail : ∀ m written, P (cont (.error m), w.partially written)) :
    P ((write w cont).next d fault) := by
  unfold next FileWrite.attempt
  cases fault with
  | some fault => exact fail fault.message fault.written
  | none =>
    by_cases hposs : w.possible d = true
    · simp only [if_pos hposs]
      exact ok hposs
    · simp only [if_neg hposs, ← FileWrite.partially_none w]
      exact fail noSuchFile none

end

/-- What a program has come to. -/
def answer? : FileProg F α → Option α
  | done a => some a
  | _ => none

end FileProg

/-- Programs, and the disk that they share. -/
structure Shared (ι F α : Type) where
  disk : Disk F
  progs : ι → FileProg F α

/-- Whose operation is next, and what makes it fail. -/
structure Turn (ι : Type) where
  who : ι
  fault : Option FileFault := none

namespace Shared

variable {ι F α : Type} [DecidableEq ι] [DecidableEq F]

/-- What the program whose turn it is writes. -/
def writes (s : Shared ι F α) (t : Turn ι) : List (FileWrite F) :=
  ((s.progs t.who).next s.disk t.fault).2

def step (s : Shared ι F α) (t : Turn ι) : Shared ι F α where
  disk := FileWrite.applyAll s.disk (s.writes t)
  progs := Function.update s.progs t.who ((s.progs t.who).next s.disk t.fault).1

/-- The answer that a turn brings, if it is the last one of its program. -/
def answered (s : Shared ι F α) (t : Turn ι) : Option α :=
  match (s.progs t.who).answer? with
  | some _ => none
  | none => ((s.step t).progs t.who).answer?

/-- The answers of a run, in the order in which they come. -/
def answers (s : Shared ι F α) : List (Turn ι) → List (ι × α)
  | [] => []
  | t :: rest => ((s.answered t).map fun a => (t.who, a)).toList ++ answers (s.step t) rest

variable {s : Shared ι F α} {t : Turn ι} {i : ι} {f : F}

theorem step_self : (s.step t).progs t.who = ((s.progs t.who).next s.disk t.fault).1 :=
  Function.update_self ..

/-- The other programs stay where they are. -/
theorem step_other (h : i ≠ t.who) : (s.step t).progs i = s.progs i :=
  Function.update_of_ne h ..

theorem run_other {turns : List (Turn ι)} (h : ∀ t ∈ turns, i ≠ t.who) :
    (turns.foldl step s).progs i = s.progs i := by
  induction turns generalizing s with
  | nil => rfl
  | cons t rest ih =>
    refine (ih fun t' ht' => h t' (List.mem_cons_of_mem _ ht')).trans ?_
    exact step_other (h t (List.mem_cons_self ..))

/-- So do the files that nothing is written to. -/
theorem step_file (h : ∀ w ∈ s.writes t, f ∉ w.files) : (s.step t).disk f = s.disk f :=
  FileWrite.applyAll_other h

/-- A program that has come to its answer stays there. -/
theorem step_done {a : α} (h : (s.progs i).answer? = some a) :
    ((s.step t).progs i).answer? = some a := by
  by_cases hi : i = t.who
  · subst hi
    rw [step_self]
    cases hprog : s.progs t.who with
    | done a' => rwa [hprog] at h
    | pathExists | read | write =>
      rw [hprog] at h
      cases h
  · rwa [step_other hi]

theorem answered_eq_some {a : α} : s.answered t = some a ↔
    (s.progs t.who).answer? = none ∧ ((s.step t).progs t.who).answer? = some a := by
  unfold answered
  cases (s.progs t.who).answer? with
  | some b => exact ⟨nofun, fun h => nomatch h.1⟩
  | none => exact ⟨fun h => ⟨rfl, h⟩, fun h => h.2⟩

theorem answers_running {s' : Shared ι F α} {rest : List (Turn ι)} (h : s.step t = s')
    (hnone : (s'.progs t.who).answer? = none) : s.answers (t :: rest) = s'.answers rest := by
  have hanswered : s.answered t = none := by
    cases hanswered : s.answered t with
    | none => rfl
    | some a =>
      have hsome := (answered_eq_some.mp hanswered).2
      rw [h, hnone] at hsome
      cases hsome
  rw [answers, hanswered, h]
  rfl

theorem answers_answered {s' : Shared ι F α} {rest : List (Turn ι)} {a : α} (h : s.step t = s')
    (hnone : (s.progs t.who).answer? = none) (hsome : (s'.progs t.who).answer? = some a) :
    s.answers (t :: rest) = (t.who, a) :: s'.answers rest := by
  rw [answers, answered_eq_some.mpr ⟨hnone, h ▸ hsome⟩, h]
  rfl

/-- A program that is new to its answer has had the turn. -/
theorem answered_of_new {a : α} (hnone : (s.progs i).answer? = none)
    (h : ((s.step t).progs i).answer? = some a) : i = t.who := by
  by_contra hi
  rw [step_other hi, hnone] at h
  cases h

/-- So it does for the rest of a run. -/
theorem run_done {turns : List (Turn ι)} {a : α} (h : (s.progs i).answer? = some a) :
    ((turns.foldl step s).progs i).answer? = some a := by
  induction turns generalizing s with
  | nil => exact h
  | cons t rest ih => exact ih (step_done h)

/-- **What has been answered in a run**: the answers of the programs that it has brought to
their end. -/
theorem mem_answers {turns : List (Turn ι)} {a : α} : (i, a) ∈ s.answers turns ↔
    (s.progs i).answer? = none ∧ ((turns.foldl step s).progs i).answer? = some a := by
  induction turns generalizing s with
  | nil =>
    refine iff_of_false List.not_mem_nil fun ⟨hnone, hsome⟩ => ?_
    cases hnone.symm.trans hsome
  | cons t rest ih =>
    rw [answers, List.mem_append, ih, List.foldl_cons, Option.mem_toList, Option.map_eq_some_iff]
    constructor
    · rintro (⟨b, hb, heq⟩ | ⟨hnone, hsome⟩)
      · cases heq
        obtain ⟨hbefore, hafter⟩ := answered_eq_some.mp hb
        exact ⟨hbefore, run_done hafter⟩
      · refine ⟨?_, hsome⟩
        cases hbefore : (s.progs i).answer? with
        | none => rfl
        | some b => cases (step_done hbefore).symm.trans hnone
    · rintro ⟨hnone, hsome⟩
      cases hafter : ((s.step t).progs i).answer? with
      | none => exact .inr ⟨rfl, hsome⟩
      | some b =>
        obtain rfl := Option.some.inj ((run_done hafter).symm.trans hsome)
        obtain rfl := answered_of_new hnone hafter
        exact .inl ⟨b, answered_eq_some.mpr ⟨hnone, hafter⟩, rfl⟩

/-- A program answers once. -/
theorem answers_nodup {turns : List (Turn ι)} : ((s.answers turns).map Prod.fst).Nodup := by
  induction turns generalizing s with
  | nil => exact List.nodup_nil
  | cons t rest ih =>
    rw [answers]
    cases hanswered : s.answered t with
    | none => exact ih
    | some a =>
      refine List.nodup_cons.mpr ⟨fun hmem => ?_, ih⟩
      obtain ⟨⟨j, b⟩, hb, rfl⟩ := List.mem_map.mp hmem
      cases (answered_eq_some.mp hanswered).2.symm.trans (mem_answers.mp hb).1

end Shared

end ProtocolEnforcer
