import Mathlib.Data.List.Induction
import Mathlib.Data.List.Nodup
import Mathlib.Order.Defs.LinearOrder
import ProtocolEnforcer.Core.Sums

/-!
# Grouping in one pass

A map kept in the order of its keys, one entry of which is changed for every element that has
a key. In the end each entry is what the elements with its key add up to, in their order; so
where the order does not matter to a group, it does not matter to the map.
-/

namespace ProtocolEnforcer

variable {α β κ : Type*} [LinearOrder κ]

/-- The value of a key is changed by `f`, from `init` where it has none. -/
def upsert (f : β → β) (init : β) (key : κ) : List (κ × β) → List (κ × β)
  | [] => [(key, f init)]
  | (k, b) :: rest =>
    if k = key then (k, f b) :: rest
    else if key < k then (key, f init) :: (k, b) :: rest
    else (k, b) :: upsert f init key rest

/-- Every element is added to the value of its key, if it has one. -/
def groupBy (key : α → Option κ) (add : β → α → β) (init : β) (xs : List α) : List (κ × β) :=
  xs.foldl (fun m x => match key x with
    | none => m
    | some k => upsert (add · x) init k m) []

/-- The keys are in order, each there once. -/
def KeySorted (m : List (κ × β)) : Prop := m.Pairwise fun a b => a.1 < b.1

section

variable {f : β → β} {init b : β} {k key : κ} {m : List (κ × β)}

theorem mem_keys_upsert : k ∈ (upsert f init key m).map Prod.fst ↔ k = key ∨ k ∈ m.map Prod.fst := by
  induction m with
  | nil => simp [upsert]
  | cons entry rest ih =>
    obtain ⟨k', b'⟩ := entry
    rw [upsert]
    split
    · rename_i heq
      subst heq
      simp
    · split
      · simp
      · simp only [List.map_cons, List.mem_cons, ih]
        exact or_left_comm

theorem KeySorted.upsert (h : KeySorted m) : KeySorted (upsert f init key m) := by
  induction m with
  | nil => exact List.pairwise_singleton _ _
  | cons entry rest ih =>
    obtain ⟨k, b⟩ := entry
    obtain ⟨hlt, hrest⟩ := List.pairwise_cons.mp h
    rw [ProtocolEnforcer.upsert]
    split
    · exact List.pairwise_cons.mpr ⟨hlt, hrest⟩
    · rename_i hne
      split
      · rename_i hfirst
        refine List.pairwise_cons.mpr ⟨fun entry hentry => ?_, h⟩
        rcases List.mem_cons.mp hentry with rfl | hentry
        · exact hfirst
        · exact hfirst.trans (hlt entry hentry)
      · rename_i hlast
        refine List.pairwise_cons.mpr ⟨fun entry hentry => ?_, ih hrest⟩
        rcases mem_keys_upsert.mp (List.mem_map_of_mem hentry) with heq | hmem
        · exact heq ▸ lt_of_le_of_ne (not_lt.mp hlast) hne
        · obtain ⟨entry', hentry', heq⟩ := List.mem_map.mp hmem
          exact heq ▸ hlt entry' hentry'

/-- The other entries stay. -/
theorem mem_upsert_other (hne : k ≠ key) : (k, b) ∈ upsert f init key m ↔ (k, b) ∈ m := by
  induction m with
  | nil => simp [upsert, hne]
  | cons entry rest ih =>
    obtain ⟨k', b'⟩ := entry
    rw [upsert]
    split
    · rename_i heq
      subst heq
      simp [hne]
    · split
      · simp [hne]
      · rw [List.mem_cons, List.mem_cons, ih]

/-- The entry of the key is the changed one, or a new one. -/
theorem mem_upsert_self (h : KeySorted m) : (key, b) ∈ upsert f init key m ↔
    (∃ b', (key, b') ∈ m ∧ b = f b') ∨ key ∉ m.map Prod.fst ∧ b = f init := by
  induction m with
  | nil => simp [upsert]
  | cons entry rest ih =>
    obtain ⟨k', b'⟩ := entry
    obtain ⟨hlt, hrest⟩ := List.pairwise_cons.mp h
    rw [upsert]
    split
    · rename_i heq
      subst heq
      have hnot (b : β) : (k', b) ∉ rest := fun hb => lt_irrefl k' (hlt (k', b) hb)
      simp [hnot]
    · rename_i hne
      split
      · rename_i hfirst
        have hnot (b : β) : (key, b) ∉ rest := fun hb => lt_asymm hfirst (hlt _ hb)
        simp [Ne.symm hne, hnot]
      · rw [List.mem_cons, ih hrest]
        simp [Ne.symm hne]

end

section

variable {key : α → Option κ} {add : β → α → β} {init b : β} {xs ys : List α} {x : α} {k : κ}

theorem groupBy_concat : groupBy key add init (xs ++ [x]) =
    match key x with
    | none => groupBy key add init xs
    | some k => upsert (add · x) init k (groupBy key add init xs) := by
  rw [groupBy, List.foldl_concat]
  rfl

theorem keySorted_groupBy : KeySorted (groupBy key add init xs) := by
  induction xs using List.reverseRecOn with
  | nil => exact .nil
  | append_singleton xs x ih =>
    rw [groupBy_concat]
    split
    · exact ih
    · exact ih.upsert

/-- **Each group is what its elements add up to.** -/
theorem mem_groupBy : (k, b) ∈ groupBy key add init xs ↔
    withKey key k xs ≠ [] ∧ b = (withKey key k xs).foldl add init := by
  induction xs using List.reverseRecOn generalizing b with
  | nil => simp [groupBy, withKey]
  | append_singleton xs x ih =>
    have hsplit : withKey key k (xs ++ [x]) = withKey key k xs ++ withKey key k [x] :=
      List.filter_append ..
    rw [groupBy_concat, hsplit]
    cases hx : key x with
    | none =>
      have hnone : withKey key k [x] = [] := by simp [withKey, hx]
      rw [hnone, List.append_nil]
      exact ih
    | some k' =>
      by_cases heq : k' = k
      · subst heq
        have hone : withKey key k' [x] = [x] := by simp [withKey, hx]
        rw [hone, List.foldl_concat]
        dsimp only
        rw [mem_upsert_self keySorted_groupBy]
        have hkeys : k' ∈ (groupBy key add init xs).map Prod.fst ↔ withKey key k' xs ≠ [] := by
          rw [List.mem_map]
          constructor
          · rintro ⟨⟨_, b⟩, hmem, rfl⟩
            exact (ih.mp hmem).1
          · exact fun hne => ⟨(k', _), ih.mpr ⟨hne, rfl⟩, rfl⟩
        rw [hkeys, not_not]
        constructor
        · rintro (⟨b', hmem, rfl⟩ | ⟨hnil, rfl⟩)
          · exact ⟨by simp, by rw [(ih.mp hmem).2]⟩
          · exact ⟨by simp, by rw [hnil, List.foldl_nil]⟩
        · rintro ⟨-, rfl⟩
          by_cases hnil : withKey key k' xs = []
          · exact Or.inr ⟨hnil, by rw [hnil, List.foldl_nil]⟩
          · exact Or.inl ⟨_, ih.mpr ⟨hnil, rfl⟩, rfl⟩
      · have hnone : withKey key k [x] = [] := by simp [withKey, hx, heq]
        rw [hnone, List.append_nil]
        dsimp only
        rw [mem_upsert_other (Ne.symm heq)]
        exact ih

/-- The order of the elements does not matter where it does not matter to a group. -/
theorem groupBy_perm [RightCommutative add] (h : xs.Perm ys) :
    groupBy key add init xs = groupBy key add init ys := by
  have hmem : ∀ entry, entry ∈ groupBy key add init xs ↔ entry ∈ groupBy key add init ys := by
    rintro ⟨k, b⟩
    have hgroup : (withKey key k xs).Perm (withKey key k ys) := h.filter _
    rw [mem_groupBy, mem_groupBy, hgroup.foldl_eq, Ne, Ne, ← List.isEmpty_iff, ← List.isEmpty_iff,
      hgroup.isEmpty_eq]
  have hnodup {xs : List α} : (groupBy key add init xs).Nodup :=
    keySorted_groupBy.imp fun hlt heq => hlt.ne (congrArg Prod.fst heq)
  refine ((List.perm_ext_iff_of_nodup hnodup hnodup).mpr hmem).eq_of_pairwise ?_
    keySorted_groupBy keySorted_groupBy
  exact fun a b _ _ hlt hgt => absurd hgt (lt_asymm hlt)

end

end ProtocolEnforcer
