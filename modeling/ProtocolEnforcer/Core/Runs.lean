import Mathlib.Data.List.Basic
import Mathlib.Logic.Relation

/-!
# Runs that write a log

A run is a reflexive transitive closure of a step relation. This module holds
the rules for runs that a development about a program with a log uses: the
invariant rule, and the fact that a log that grows one entry at a time passes
through each of its prefixes, which is how a crash between two writes is a state
of the run itself.
-/

namespace ProtocolEnforcer

open Relation

variable {σ α : Type*} {step : σ → σ → Prop} {c d : σ}

namespace Runs

/-- **Invariant rule.** What every step keeps, a run keeps. -/
theorem invariant {P : σ → Prop} (keeps : ∀ {c d}, step c d → P c → P d)
    (h : ReflTransGen step c d) (hc : P c) : P d := by
  induction h with
  | refl => exact hc
  | tail _ hstep ih => exact keeps hstep ih

variable {log : σ → List α}

/-- Each step leaves the log as it is or puts one entry at its end. -/
def Growing (step : σ → σ → Prop) (log : σ → List α) : Prop :=
  ∀ ⦃c d⦄, step c d → log d = log c ∨ ∃ a, log d = log c ++ [a]

theorem log_grows (grows : Growing step log) (h : ReflTransGen step c d) :
    log c <+: log d := by
  induction h with
  | refl => exact List.prefix_rfl
  | tail _ hstep ih =>
    rcases grows hstep with heq | ⟨a, heq⟩
    · rwa [heq]
    · rw [heq]
      exact ih.trans (List.prefix_append _ _)

/-- **Every prefix is passed.** A log that grows one entry at a time shows each
prefix of its final content, from its initial one on, at some point of the run. -/
theorem passes_prefix (grows : Growing step log) (h : ReflTransGen step c d) {p : List α}
    (hc : log c <+: p) (hp : p <+: log d) :
    ∃ m, ReflTransGen step c m ∧ ReflTransGen step m d ∧ log m = p := by
  induction h using ReflTransGen.head_induction_on with
  | refl => exact ⟨d, .refl, .refl, hc.eq_of_length_le hp.length_le⟩
  | @head c m first rest ih =>
    by_cases heq : log c = p
    · exact ⟨c, .refl, .head first rest, heq⟩
    · have hm : log m <+: p := by
        rcases grows first with hsame | ⟨a, hgrow⟩
        · rwa [hsame]
        · -- the entry this step adds is the one `p` has there
          refine List.prefix_of_prefix_length_le (log_grows grows rest) hp ?_
          have hlt : (log c).length < p.length :=
            Nat.lt_of_le_of_ne hc.length_le fun hlen => heq (hc.eq_of_length hlen)
          rw [hgrow, List.length_append, List.length_singleton]
          omega
      obtain ⟨m', hk, hk', hlog⟩ := ih hm
      exact ⟨m', .head first hk, hk', hlog⟩

/-! ## Runs of inputs

A machine that takes inputs runs by `List.foldl`. -/

section

variable {ι : Type*} {next : σ → ι → σ} {P Q : σ → ι → Prop} {s : σ} {xs ys : List ι}

/-- `P` holds of each input of a run, in the state that input meets. -/
def Along (next : σ → ι → σ) (P : σ → ι → Prop) (s : σ) : List ι → Prop
  | [] => True
  | x :: rest => P s x ∧ Along next P (next s x) rest

/-- **Induction along a run**: what each of its inputs keeps, it keeps. -/
theorem Along.invariant {I : σ → Prop} (keeps : ∀ s x, P s x → I s → I (next s x))
    (h : Along next P s xs) (hs : I s) : I (xs.foldl next s) := by
  induction xs generalizing s with
  | nil => exact hs
  | cons x rest ih => exact ih h.2 (keeps s x h.1 hs)

/-- Conditions on the inputs of a run can be taken together. -/
theorem Along.and (h : Along next P s xs) (h' : Along next Q s xs) :
    Along next (fun s x => P s x ∧ Q s x) s xs := by
  induction xs generalizing s with
  | nil => trivial
  | cons x rest ih => exact ⟨⟨h.1, h'.1⟩, ih h.2 h'.2⟩

/-- What holds of every input of a run holds along it. -/
theorem Along.of_forall {P : ι → Prop} (h : ∀ x ∈ xs, P x) : Along next (fun _ x => P x) s xs := by
  induction xs generalizing s with
  | nil => trivial
  | cons x rest ih =>
    exact ⟨h x List.mem_cons_self, ih fun y hy => h y (List.mem_cons_of_mem _ hy)⟩

/-- What follows at each input from an invariant of the run holds along it. -/
theorem Along.imp {I : σ → Prop} (keeps : ∀ s x, P s x → I s → I (next s x))
    (implies : ∀ s x, P s x → I s → Q s x) (h : Along next P s xs) (hs : I s) :
    Along next Q s xs := by
  induction xs generalizing s with
  | nil => trivial
  | cons x rest ih => exact ⟨implies s x h.1 hs, ih h.2 (keeps s x h.1 hs)⟩

/-- A run begins with any part of it, -/
theorem Along.take (h : Along next P s (xs ++ ys)) : Along next P s xs := by
  induction xs generalizing s with
  | nil => trivial
  | cons x rest ih => exact ⟨h.1, ih h.2⟩

/-- and goes on after it. -/
theorem Along.drop (h : Along next P s (xs ++ ys)) : Along next P (xs.foldl next s) ys := by
  induction xs generalizing s with
  | nil => exact h
  | cons x rest ih => exact ih h.2

/-- Conditions that agree on every input agree along every run. -/
theorem Along.congr (h : ∀ s x, P s x ↔ Q s x) : Along next P s xs ↔ Along next Q s xs := by
  induction xs generalizing s with
  | nil => exact Iff.rfl
  | cons x rest ih => exact and_congr (h s x) ih

end

end Runs

end ProtocolEnforcer
