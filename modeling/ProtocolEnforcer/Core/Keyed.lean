import Mathlib.Data.List.Nodup

/-!
# Lists whose elements have distinct keys

A list that is searched for the first element with a key, or for the index of that element,
finds the one element that has it.
-/

namespace ProtocolEnforcer

variable {α κ : Type*} {key : α → κ} {xs : List α}

/-- What some element with the key of `x` satisfies, `x` does. -/
theorem exists_key_iff {x : α} (hnodup : (xs.map key).Nodup) (hx : x ∈ xs) {p : α → Prop} :
    (∃ y ∈ xs, key x = key y ∧ p y) ↔ p x := by
  constructor
  · rintro ⟨y, hy, hkey, hp⟩
    rwa [List.inj_on_of_nodup_map hnodup hx hy hkey]
  · exact fun hp => ⟨x, hx, rfl, hp⟩

variable [DecidableEq κ]

/-- The first element with a key is the element that has it, -/
theorem find?_of_nodup {x : α} (hnodup : (xs.map key).Nodup) (hx : x ∈ xs) :
    xs.find? (fun y => key y = key x) = some x := by
  induction xs with
  | nil => cases hx
  | cons y xs ih =>
    obtain ⟨hnot, hrest⟩ := List.nodup_cons.mp hnodup
    rcases List.mem_cons.mp hx with rfl | hx
    · exact List.find?_cons_of_pos (decide_eq_true rfl)
    · have hne : key y ≠ key x := fun heq => hnot (heq ▸ List.mem_map_of_mem hx)
      rw [List.find?_cons_of_neg (by simpa using hne)]
      exact ih hrest hx

/-- and the first index is its index. -/
theorem findIdx?_of_nodup {i : Nat} (hnodup : (xs.map key).Nodup) (hi : i < xs.length) :
    xs.findIdx? (fun x => key x = key xs[i]) = some i := by
  rw [List.findIdx?_eq_some_iff_getElem]
  refine ⟨hi, decide_eq_true rfl, fun k hk hkey => ?_⟩
  have hik : i < (xs.map key).length := by rwa [List.length_map]
  have hkk : k < (xs.map key).length := by
    rw [List.length_map]
    omega
  have heq : (xs.map key)[k] = (xs.map key)[i] := by
    rw [List.getElem_map, List.getElem_map]
    exact of_decide_eq_true hkey
  exact absurd ((hnodup.getElem_inj_iff).mp heq) (Nat.ne_of_lt hk)

end ProtocolEnforcer
