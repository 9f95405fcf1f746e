import Mathlib.Algebra.BigOperators.Group.List.Basic
import Mathlib.Algebra.Order.BigOperators.Group.List
import Mathlib.Algebra.Order.Group.Defs
import Mathlib.Algebra.Order.Group.Int
import Mathlib.Tactic.Abel

/-!
# Sums over lists

Two facts about splitting a sum. The elements of a list that have a key are counted once each
when they are counted key by key. And intervals that follow one another cover no more than
what they lie in, also when each length is cut to whole units.
-/

namespace ProtocolEnforcer

/-! ## By key -/

section

variable {α κ M : Type*} [DecidableEq κ] [AddCommMonoid M]

/-- The elements with the key `k`. -/
def withKey (key : α → Option κ) (k : κ) (xs : List α) : List α :=
  xs.filter fun x => key x = some k

/-- One element counts at its own key, and at no other. -/
theorem sum_map_ite_key {keys : List κ} (hnodup : keys.Nodup) {k : κ} (hk : k ∈ keys) (m : M) :
    (keys.map fun k' => if k = k' then m else 0).sum = m := by
  induction keys with
  | nil => cases hk
  | cons k' keys ih =>
    obtain ⟨hnot, hrest⟩ := List.nodup_cons.mp hnodup
    rw [List.map_cons, List.sum_cons]
    by_cases heq : k = k'
    · subst heq
      have hzero : (keys.map fun k' => if k = k' then m else 0).sum = 0 := by
        refine List.sum_eq_zero fun y hy => ?_
        obtain ⟨k', hk', rfl⟩ := List.mem_map.mp hy
        exact if_neg (ne_of_mem_of_not_mem hk' hnot).symm
      rw [if_pos rfl, hzero, add_zero]
    · rw [if_neg heq, zero_add]
      exact ih hrest (List.mem_of_ne_of_mem heq hk)

/-- **A sum key by key is the sum over the elements that have a key.** -/
theorem sum_withKey {key : α → Option κ} {keys : List κ} (hnodup : keys.Nodup) {xs : List α}
    (hkeys : ∀ x ∈ xs, ∀ k ∈ key x, k ∈ keys) (f : α → M) :
    (keys.map fun k => ((withKey key k xs).map f).sum).sum =
      ((xs.filter fun x => (key x).isSome).map f).sum := by
  induction xs with
  | nil =>
    refine List.sum_eq_zero fun y hy => ?_
    obtain ⟨k, -, rfl⟩ := List.mem_map.mp hy
    rfl
  | cons x xs ih =>
    have hrest := ih fun y hy => hkeys y (List.mem_cons_of_mem _ hy)
    cases hx : key x with
    | none =>
      have hskip : ∀ k, withKey key k (x :: xs) = withKey key k xs := fun k => by
        rw [withKey, withKey, List.filter_cons_of_neg (by simp [hx])]
      simp only [hskip]
      rw [hrest, List.filter_cons_of_neg (by simp [hx])]
    | some k =>
      have hk : k ∈ keys := hkeys x List.mem_cons_self k hx
      have hsplit : ∀ k', ((withKey key k' (x :: xs)).map f).sum =
          (if k = k' then f x else 0) + ((withKey key k' xs).map f).sum := by
        intro k'
        by_cases heq : k = k'
        · rw [if_pos heq, withKey, List.filter_cons_of_pos (by simp [hx, heq])]
          rfl
        · rw [if_neg heq, zero_add, withKey, List.filter_cons_of_neg (by simp [hx, heq])]
          rfl
      simp only [hsplit]
      rw [List.sum_map_add, hrest, sum_map_ite_key hnodup hk,
        List.filter_cons_of_pos (by simp [hx])]
      rfl

end

/-! ## Intervals -/

/-- **Intervals that follow one another add up to no more than what they lie in.** -/
theorem sum_intervals_le {ι α : Type*} [AddCommGroup α] [PartialOrder α] [IsOrderedAddMonoid α]
    {lo hi : ι → α} {xs : List ι} {a b : α} (hab : a ≤ b)
    (hsep : xs.Pairwise fun x y => hi x ≤ lo y)
    (hin : ∀ x ∈ xs, a ≤ lo x ∧ lo x ≤ hi x ∧ hi x ≤ b) :
    (xs.map fun x => hi x - lo x).sum ≤ b - a := by
  induction xs generalizing a with
  | nil => simpa using hab
  | cons x xs ih =>
    obtain ⟨hnext, hrest⟩ := List.pairwise_cons.mp hsep
    obtain ⟨hlo, -, hhi⟩ := hin x List.mem_cons_self
    have hbehind : (xs.map fun x => hi x - lo x).sum ≤ b - hi x :=
      ih hhi hrest fun y hy =>
        ⟨hnext y hy, (hin y (List.mem_cons_of_mem _ hy)).2⟩
    calc ((x :: xs).map fun x => hi x - lo x).sum
        = (hi x - lo x) + (xs.map fun x => hi x - lo x).sum := by
          rw [List.map_cons, List.sum_cons]
      _ ≤ (hi x - lo x) + (b - hi x) := by gcongr
      _ = b - lo x := by abel
      _ ≤ b - a := by gcongr

/-- Cutting lengths to whole units loses, and never gains. -/
theorem sum_tdiv_le {ι : Type*} (unit : Int) (hunit : 0 < unit) {f : ι → Int} {xs : List ι}
    (hpos : ∀ x ∈ xs, 0 ≤ f x) :
    (xs.map fun x => (f x).tdiv unit).sum ≤ (xs.map f).sum.tdiv unit := by
  induction xs with
  | nil => simp
  | cons x xs ih =>
    have hrest := ih fun y hy => hpos y (List.mem_cons_of_mem _ hy)
    have hx : 0 ≤ f x := hpos x List.mem_cons_self
    have hxs : 0 ≤ (xs.map f).sum := List.sum_nonneg fun y hy => by
      obtain ⟨z, hz, rfl⟩ := List.mem_map.mp hy
      exact hpos z (List.mem_cons_of_mem _ hz)
    rw [List.map_cons, List.sum_cons, List.map_cons, List.sum_cons]
    have hsuper : (f x).tdiv unit + (xs.map f).sum.tdiv unit ≤ (f x + (xs.map f).sum).tdiv unit := by
      rw [Int.tdiv_eq_ediv_of_nonneg hx, Int.tdiv_eq_ediv_of_nonneg hxs,
        Int.tdiv_eq_ediv_of_nonneg (by omega), Int.le_ediv_iff_mul_le hunit, add_mul]
      exact add_le_add (Int.ediv_mul_le _ hunit.ne') (Int.ediv_mul_le _ hunit.ne')
    omega

end ProtocolEnforcer
