import Mathlib.Data.List.Basic

/-!
# Entries that stand

In a log some entries do a thing and some undo it. The thing stands at the end of the log if
an entry did it and no entry behind that one undid it.
-/

namespace ProtocolEnforcer

variable {α : Type*} {did undoes : α → Prop} {log : List α} {x : α}

/-- The log has an entry with `did`, and none with `undoes` behind it. -/
def Stands (did undoes : α → Prop) (log : List α) : Prop :=
  ∃ before entry behind, log = before ++ entry :: behind ∧ did entry ∧ ∀ y ∈ behind, ¬undoes y

namespace Stands

/-- It stands behind one more entry that does it, -/
theorem of_did (h : did x) : Stands did undoes (log ++ [x]) := ⟨log, x, [], rfl, h, nofun⟩

/-- and behind one more that does not undo it. -/
theorem concat (h : Stands did undoes log) (hx : ¬undoes x) : Stands did undoes (log ++ [x]) := by
  obtain ⟨before, entry, behind, rfl, hdid, hbehind⟩ := h
  refine ⟨before, entry, behind ++ [x], by rw [List.append_assoc, List.cons_append], hdid, ?_⟩
  intro y hy
  rcases List.mem_append.mp hy with hy | hy
  · exact hbehind y hy
  · rwa [List.mem_singleton.mp hy]

end Stands

end ProtocolEnforcer
