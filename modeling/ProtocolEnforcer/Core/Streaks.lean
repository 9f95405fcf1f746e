import Mathlib.Data.List.DropRight
import Mathlib.Order.Bounds.Defs

/-!
# Streaks

The longest end of a list whose entries are all one value. A counter that sees the entries
one by one has it if it counts on while the value stays the same, and starts at one when it
changes (`streak_concat`).
-/

namespace ProtocolEnforcer

section

variable {α : Type*}

/-- The lengths of the ends of a list whose entries are all equal. -/
def equalEnds (xs : List α) : Set Nat :=
  {n | ∃ ys, ys <:+ xs ∧ ys.length = n ∧ ∀ a ∈ ys, ∀ b ∈ ys, a = b}

variable [DecidableEq α] {xs : List α} {a : α}

/-- How many entries at the end of a list are equal to its last. -/
def streak (xs : List α) : Nat :=
  (xs.rtakeWhile fun x => xs.getLast? = some x).length

@[simp]
theorem streak_nil : streak ([] : List α) = 0 := rfl

/-- One more entry goes on with the streak, or begins one. -/
theorem streak_concat :
    streak (xs ++ [a]) = if xs.getLast? = some a then streak xs + 1 else 1 := by
  have hrun : streak (xs ++ [a]) = (xs.rtakeWhile fun x => some a = some x).length + 1 := by
    rw [streak, List.getLast?_concat, List.rtakeWhile_concat, if_pos (decide_eq_true rfl),
      List.length_append, List.length_singleton]
  rw [hrun]
  by_cases hlast : xs.getLast? = some a
  · rw [if_pos hlast, streak, hlast]
  · rw [if_neg hlast]
    -- the entry before it differs, so nothing of `xs` counts
    have hnone : (xs.rtakeWhile fun x => some a = some x) = [] := by
      rw [List.rtakeWhile_eq_nil_iff]
      intro hne heq
      exact hlast ((List.getLast?_eq_some_getLast hne).trans (of_decide_eq_true heq).symm)
    rw [hnone, List.length_nil]

theorem streak_pos (h : xs ≠ []) : 0 < streak xs := by
  induction xs using List.reverseRecOn with
  | nil => exact absurd rfl h
  | append_singleton xs a _ =>
    rw [streak_concat]
    split
    · exact Nat.succ_pos _
    · exact Nat.one_pos

theorem streak_le_length : streak xs ≤ xs.length :=
  (List.rtakeWhile_suffix _ _).length_le

/-- **A streak is the longest end of equal entries.** -/
theorem streak_isGreatest : IsGreatest (equalEnds xs) (streak xs) := by
  constructor
  · refine ⟨_, List.rtakeWhile_suffix _ _, rfl, ?_⟩
    have hlast : ∀ x ∈ xs.rtakeWhile fun x => xs.getLast? = some x, xs.getLast? = some x := by
      intro x hx
      have h := List.mem_rtakeWhile_imp hx
      exact of_decide_eq_true h
    exact fun a ha b hb => Option.some.inj ((hlast a ha).symm.trans (hlast b hb))
  · rintro _ ⟨ys, ⟨zs, rfl⟩, rfl, hequal⟩
    induction ys using List.reverseRecOn with
    | nil => exact Nat.zero_le _
    | append_singleton init a _ =>
      -- the whole end is equal to its last entry
      have hall : ∀ x ∈ (init ++ [a]).reverse,
          decide ((zs ++ (init ++ [a])).getLast? = some x) = true := by
        intro x hx
        rw [← List.append_assoc, List.getLast?_concat,
          hequal x (List.mem_reverse.mp hx) a (by simp)]
        exact decide_eq_true rfl
      rw [streak, List.rtakeWhile, List.reverse_append, List.takeWhile_append_of_pos hall]
      simp

end

example : streak [1, 2, 2, 1, 1, 1] = 3 := by decide

end ProtocolEnforcer
