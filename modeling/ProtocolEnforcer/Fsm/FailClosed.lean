import ProtocolEnforcer.Fsm.Engine
import ProtocolEnforcer.Manifest.ValidHooks

/-!
# Verify hooks are fail-closed

A driver runs a checklist's verify hooks before it submits, and strips what a failed one
attests from the evidence. Where the hooks are valid this works: every criterion is attested
by some verify hook, without its key the engine finds it missing and rejects, and what can be
stripped is a criterion or a key that another verify hook reads.
-/

namespace ProtocolEnforcer

/-- The evidence without some keys. -/
def ChecklistEvidence.removing (ev : ChecklistEvidence) (keys : List String) :
    ChecklistEvidence where
  entries := ev.entries.filter fun entry => entry.1 ∉ keys
  nodup := ev.nodup.sublist (List.filter_sublist.map _)

section

variable {criteria keys : List String} {c : String}

theorem get_removing {ev : ChecklistEvidence} (hc : c ∈ keys) :
    (ev.removing keys).get c = none := by
  rw [ChecklistEvidence.get, List.lookup_eq_none_iff]
  intro entry hentry
  have hkept : entry.1 ∉ keys := of_decide_eq_true (List.mem_filter.mp hentry).2
  rw [bne_iff_ne]
  rintro rfl
  exact hkept hc

/-- A criterion whose key is removed is missing. -/
theorem missingCriteria_removing {ev : ChecklistEvidence} (hcriterion : c ∈ criteria)
    (hc : c ∈ keys) : c ∈ missingCriteria criteria (ev.removing keys) := by
  rw [missingCriteria, List.mem_filter, get_removing hc]
  exact ⟨hcriterion, rfl⟩

/-- A checklist that misses a criterion is rejected. -/
theorem stepChecklist_missing {L : Type} [LedgerPort L] {engine : ProfileFsmEngine} {host : Host}
    {sid : String} {i j : Nat} {pos : Position} {ev : ChecklistEvidence} {output : Option Json}
    (hmissing : c ∈ missingCriteria
      (((engine.profile.stateAt i).subAt j).criteria.getD []) ev) :
    engine.stepChecklist (L := L) host sid i j pos ev output =
      engine.rejectChecklist host sid i pos
        (missingCriteria (((engine.profile.stateAt i).subAt j).criteria.getD []) ev) ev := by
  unfold ProfileFsmEngine.stepChecklist
  dsimp only
  split
  · rename_i hnone
    rw [hnone] at hmissing
    cases hmissing
  · rfl

end

/-- Without the keys that `h` attests the criterion `c` of a checklist is missing, and every
engine that steps through the checklist rejects it. -/
def FailsClosed (sub : SubStateYaml) (h : HookDef) (c : String) : Prop :=
  ∀ ev : ChecklistEvidence,
    c ∈ missingCriteria (sub.criteria.getD []) (ev.removing h.verifyCriteria) ∧
    ∀ {L : Type} [LedgerPort L] (engine : ProfileFsmEngine) (host : Host) (sid : String)
      (i j : Nat) (pos : Position) (output : Option Json),
      (engine.profile.stateAt i).subAt j = sub.served →
      engine.stepChecklist (L := L) host sid i j pos (ev.removing h.verifyCriteria) output =
        engine.rejectChecklist host sid i pos
          (missingCriteria (sub.criteria.getD []) (ev.removing h.verifyCriteria))
          (ev.removing h.verifyCriteria)

theorem failsClosed {sub : SubStateYaml} {h : HookDef} {c : String}
    (hcriterion : c ∈ sub.criteria.getD []) (hc : c ∈ h.verifyCriteria) : FailsClosed sub h c := by
  intro ev
  have hmissing : c ∈ missingCriteria (sub.criteria.getD []) (ev.removing h.verifyCriteria) :=
    missingCriteria_removing hcriterion hc
  refine ⟨hmissing, fun engine host sid i j pos output hsub => ?_⟩
  have hcriteria : ((engine.profile.stateAt i).subAt j).criteria = sub.criteria := by
    rw [hsub]
    rfl
  rw [stepChecklist_missing (hcriteria ▸ hmissing), hcriteria]

/-- **Verify hooks are fail-closed.** On a checklist with a verify hook every criterion is
attested by one whose keys, once removed, make the engine reject; and every key that a verify
hook attests is a criterion or a candidate of one. -/
theorem verify_hooks_fail_closed {lib : HookLibrary} {p : ProfileYaml} {state : StateYaml}
    {sub : SubStateYaml} (hvalid : validateHooks lib p = .ok ()) (hstate : state ∈ p.pipeline)
    (hsub : sub ∈ state.subStates) (hchecklist : sub.subStateType = .checklist)
    (hverify : ∃ href ∈ sub.hooks, ∃ h, href.Verifies lib h) :
    (∀ c ∈ sub.criteria.getD [], ∃ href ∈ sub.hooks, ∃ h, href.Verifies lib h ∧
      c ∈ h.verifyCriteria ∧ FailsClosed sub h c) ∧
    ∀ href ∈ sub.hooks, ∀ h, href.Verifies lib h → ∀ key ∈ h.verifyCriteria,
      key ∈ sub.criteria.getD [] ∨
        ∃ href' ∈ sub.hooks, ∃ h', href'.Verifies lib h' ∧ href'.Lists key := by
  have hnone := (validateHooks_ok.mp hvalid state hstate).2 sub hsub
  rw [validateSubHooks, SubStateYaml.checklistCriteria, if_pos hchecklist,
    List.append_eq_nil_iff, List.flatMap_eq_nil_iff] at hnone
  obtain ⟨hrefs, hcovers⟩ := hnone
  have hattests : ∀ href ∈ sub.hooks, ∀ h, href.Verifies lib h ↔ href.Attests lib h :=
    fun href hmem h => verifies_iff_attests (hrefs href hmem)
  constructor
  · intro c hc
    obtain ⟨href, hmem, h, hverifies⟩ := hverify
    obtain ⟨href', hmem', h', hattests', hcovered⟩ := checkReverseCoverage_eq_nil.mp hcovers
      ⟨href, hmem, h, (hattests href hmem h).mp hverifies⟩ c hc
    exact ⟨href', hmem', h', (hattests href' hmem' h').mpr hattests', hcovered,
      failsClosed hc hcovered⟩
  · intro href hmem h hverifies key hkey
    rcases (validateHookRef_criteria (hrefs href hmem)).mp (hrefs href hmem) h
      ((hattests href hmem h).mp hverifies) key hkey with hcriterion | hcandidate
    · exact Or.inl hcriterion
    · obtain ⟨-, href', hmem', h', hattests', hlists⟩ :=
        mem_collectCandidateScratchKeys.mp hcandidate
      exact Or.inr ⟨href', hmem', h', (hattests href' hmem' h').mpr hattests', hlists⟩

namespace Sample

def hookLibrary : HookLibrary :=
  { root := "library", readToString := fun _ => .error .notFound, pathExists := fun _ => false,
    hookFromStr := fun _ => .error "" }

/-- Attests the criterion and one of the candidates. -/
def testHook : HookDef :=
  { id := "tests", version := "1", kind := .mutate, events := [.verify], command := "run tests",
    verifyCriteria := ["done", "dep_1"] }

def verified : SubStateYaml :=
  { id := "check", subStateType := .checklist, name := "Check", criteria := some ["done"],
    hooks := [{ args := [("candidates", "dep_1, dep_2")], inline := some testHook }] }

def verifiedPlan : StateYaml := { stateId := "plan", name := "Plan", subStates := [verified] }

end Sample

/-- Without the keys of its one verify hook the sample's checklist is rejected. -/
theorem verify_hooks_fail_closed_sample : ∃ href ∈ Sample.verified.hooks, ∃ h,
    href.Verifies Sample.hookLibrary h ∧ "done" ∈ h.verifyCriteria ∧
      FailsClosed Sample.verified h "done" :=
  (verify_hooks_fail_closed
    (p := ⟨"sample", "1", "", false, "", none, {}, [Sample.verifiedPlan], none⟩)
    (by decide) List.mem_cons_self List.mem_cons_self rfl
    ⟨_, List.mem_cons_self, Sample.testHook, Or.inl rfl, List.mem_cons_self⟩).1
    "done" List.mem_cons_self

end ProtocolEnforcer
