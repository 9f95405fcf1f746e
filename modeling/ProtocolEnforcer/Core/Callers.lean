import Mathlib.Logic.Function.Basic

/-!
# Callers that share a state

Callers that take turns: at its turn a caller makes one step, which may read and change what
all share and moves the caller from its place to another. A run is a list of turns, in any
order.
-/

namespace ProtocolEnforcer

/-- What the callers `ι` share, and where each of them is. -/
structure Callers (ι σ τ : Type) where
  shared : σ
  place : ι → τ

namespace Callers

variable {ι σ τ : Type} [DecidableEq ι]

/-- One step of the caller whose turn it is. -/
def step (next : ι → σ → τ → τ × σ) (c : Callers ι σ τ) (i : ι) : Callers ι σ τ where
  shared := (next i c.shared (c.place i)).2
  place := Function.update c.place i (next i c.shared (c.place i)).1

variable {next : ι → σ → τ → τ × σ} {c : Callers ι σ τ} {i j : ι}

theorem step_self : (c.step next i).place i = (next i c.shared (c.place i)).1 :=
  Function.update_self ..

/-- The others stay where they are. -/
theorem step_other (h : j ≠ i) : (c.step next i).place j = c.place j :=
  Function.update_of_ne h ..

/-- A step that is known. -/
theorem step_eq {t : τ} {s : σ} (h : next i c.shared (c.place i) = (t, s)) :
    c.step next i = ⟨s, Function.update c.place i t⟩ := by
  rw [step, h]

/-- What holds of the one whose turn it is, where it is then, and of the others, where they
are, holds of all. -/
theorem step_places {Q : ι → τ → Prop} (own : Q i (next i c.shared (c.place i)).1)
    (others : ∀ j, j ≠ i → Q j (c.place j)) (j : ι) : Q j ((c.step next i).place j) := by
  by_cases hj : j = i
  · subst hj
    rwa [step_self]
  · rw [step_other hj]
    exact others j hj

/-- **Run rule.** What every step keeps, a run keeps. -/
theorem run {P : Callers ι σ τ → Prop} (keeps : ∀ c i, P c → P (c.step next i)) (h : P c)
    (turns : List ι) : P (turns.foldl (step next) c) :=
  List.foldlRecOn turns (step next) h fun c hc i _ => keeps c i hc

end Callers

end ProtocolEnforcer
