import Mathlib.Data.List.Basic
import ProtocolEnforcer.Manifest.ValidProfile
import ProtocolEnforcer.Types.Session

/-!
# Injections and checklist presence (`crates/fsm/src/injection.rs`)

The stateless helpers of the engine: which criteria an evidence map meets, which
sub-state comes next, and the text a sub-state injects. Indices are the source's
`usize` indices into a macro's sub-states.
-/

namespace ProtocolEnforcer

/-- A rendered injection; the names it references, and the concatenated text. -/
structure RenderedInjection where
  prompt : Option String
  skillRef : Option String
  protocolRef : Option String
  context : Option String
  rendered : String
  approvalChallenge : Option String
  approvalPrompt : Option String

/-! ## Presence -/

/-- `is_present`: not `null`, a blank text, `[]` or an empty object. -/
def isPresent : Json → Bool
  | .null => false
  | .string s => trim s ≠ ""
  | .array xs => !xs.isEmpty
  | .object fields => !fields.isEmpty
  | _ => true

/-- `missing_criteria`. -/
def missingCriteria (criteria : List String) (evidence : ChecklistEvidence) : List String :=
  criteria.filter fun c => !((evidence.get c).map isPresent).getD false

/-- Nothing is missing exactly when every criterion has a present value. -/
theorem missingCriteria_eq_nil {criteria : List String} {evidence : ChecklistEvidence} :
    missingCriteria criteria evidence = [] ↔
      ∀ c ∈ criteria, ∃ v, evidence.get c = some v ∧ isPresent v = true := by
  rw [missingCriteria, List.filter_eq_nil_iff]
  refine forall₂_congr fun c _ => ?_
  cases evidence.get c <;> simp

/-! ## Indices -/

/-- `first_enabled_index`. -/
def firstEnabledIndex (m : StateDef) : Except FsmError Nat :=
  match m.subStates.findIdx? (·.enabled) with
  | some i => .ok i
  | none => .error (.manifestInvalid ("macro '" ++ m.stateId ++ "' has no enabled sub-state"))

/-- `next_enabled_index`: the next enabled sub-state, else the last one. -/
def nextEnabledIndex (m : StateDef) (fromIdx : Nat) : Nat :=
  ((m.subStates.drop (fromIdx + 1)).findIdx? (·.enabled)).elim
    (m.subStates.length - 1) (· + (fromIdx + 1))

/-- `k` is the next enabled index after `j`. -/
structure NextEnabled (m : StateDef) (j k : Nat) : Prop where
  lt : j < k
  here : ∃ sub, m.subStates[k]? = some sub ∧ sub.enabled = true
  skips : ∀ l sub, j < l → l < k → m.subStates[l]? = some sub → sub.enabled = false

/-- `k` is the first enabled index. -/
structure FirstEnabled (m : StateDef) (k : Nat) : Prop where
  here : ∃ sub, m.subStates[k]? = some sub ∧ sub.enabled = true
  skips : ∀ l sub, l < k → m.subStates[l]? = some sub → sub.enabled = false

/-- `k` is the first index of an enabled `execute` sub-state. -/
structure FirstEnabledExecute (m : StateDef) (k : Nat) : Prop where
  here : ∃ sub, m.subStates[k]? = some sub ∧ sub.enabled = true ∧ sub.subStateType = .execute
  skips : ∀ l sub, l < k → m.subStates[l]? = some sub →
    ¬(sub.enabled = true ∧ sub.subStateType = .execute)

section

variable {ed : Ed25519} {m : StateDef}

theorem StateDef.WellFormed.last (hm : m.WellFormed ed) :
    ∃ sub, m.subStates[m.subStates.length - 1]? = some sub ∧ sub.enabled = true ∧
      sub.subStateType = .checklist := by
  have hlen : 0 < m.subStates.length := List.length_pos_iff.mpr hm.nonempty
  obtain ⟨sub, hsub⟩ : ∃ sub, m.subStates[m.subStates.length - 1]? = some sub :=
    ⟨_, List.getElem?_eq_getElem (by omega)⟩
  refine ⟨sub, hsub, hm.lastEnabled (by rw [List.getLast?_eq_getElem?, hsub]), ?_⟩
  exact (hm.checklist hsub).mpr (by omega)

/-- Before the end of a well-formed macro there is always a next enabled sub-state. -/
theorem nextEnabledIndex_spec (hm : m.WellFormed ed) {j : Nat}
    (hj : j + 1 < m.subStates.length) : NextEnabled m j (nextEnabledIndex m j) := by
  obtain ⟨last, hlast, henabled, -⟩ := hm.last
  have hsome : ((m.subStates.drop (j + 1)).findIdx? (·.enabled)).isSome := by
    rw [List.findIdx?_isSome, List.any_eq_true]
    refine ⟨last, List.mem_of_getElem? (i := m.subStates.length - 1 - (j + 1)) ?_, henabled⟩
    rw [List.getElem?_drop]
    rwa [show j + 1 + (m.subStates.length - 1 - (j + 1)) = m.subStates.length - 1 by omega]
  obtain ⟨i, hi⟩ := Option.isSome_iff_exists.mp hsome
  rw [nextEnabledIndex, hi, Option.elim_some]
  rw [List.findIdx?_eq_some_iff_getElem] at hi
  obtain ⟨hlt, hen, hskip⟩ := hi
  rw [List.getElem_drop] at hen
  rw [List.length_drop] at hlt
  refine ⟨by omega, ⟨_, List.getElem?_eq_getElem (by omega), ?_⟩, ?_⟩
  · simpa [Nat.add_comm] using hen
  · intro l sub hjl hlk hsub
    obtain ⟨hlen, rfl⟩ := List.getElem?_eq_some_iff.mp hsub
    have := hskip (l - (j + 1)) (by omega)
    rw [List.getElem_drop] at this
    have hidx : j + 1 + (l - (j + 1)) = l := by omega
    simpa [hidx] using this

/-- A well-formed macro has a first enabled sub-state. -/
theorem firstEnabledIndex_spec (hm : m.WellFormed ed) :
    ∃ k, firstEnabledIndex m = .ok k ∧ FirstEnabled m k := by
  obtain ⟨last, hlast, henabled, -⟩ := hm.last
  have hsome : (m.subStates.findIdx? (·.enabled)).isSome := by
    rw [List.findIdx?_isSome, List.any_eq_true]
    exact ⟨last, List.mem_of_getElem? hlast, henabled⟩
  obtain ⟨k, hk⟩ := Option.isSome_iff_exists.mp hsome
  refine ⟨k, by rw [firstEnabledIndex, hk], ?_⟩
  rw [List.findIdx?_eq_some_iff_getElem] at hk
  obtain ⟨hlt, hen, hskip⟩ := hk
  refine ⟨⟨_, List.getElem?_eq_getElem hlt, hen⟩, ?_⟩
  intro l sub hl hsub
  obtain ⟨hlen, rfl⟩ := List.getElem?_eq_some_iff.mp hsub
  simpa using hskip l hl

/-- The loop-back target is an enabled `execute` sub-state, the first of them. -/
theorem firstEnabledExecuteIndex_spec {k : Nat} (hk : m.firstEnabledExecuteIndex = some k) :
    FirstEnabledExecute m k := by
  rw [StateDef.firstEnabledExecuteIndex, List.findIdx?_eq_some_iff_getElem] at hk
  obtain ⟨hlt, hen, hskip⟩ := hk
  refine ⟨⟨_, List.getElem?_eq_getElem hlt, by simpa using hen⟩, ?_⟩
  intro l sub hl hsub
  obtain ⟨hlen, rfl⟩ := List.getElem?_eq_some_iff.mp hsub
  simpa using hskip l hl

end

/-! ## Rendering -/

section

variable (toStringPretty : Json → String)

/-- `merge_initial_context`. -/
def mergeInitialContext (base : Option String) (initial : Option Json) : Option String :=
  match base, (initial.filter (!·.isNull)).map toStringPretty with
  | some b, some i => some (b ++ "\n\n" ++ i)
  | some b, none => some b
  | none, some i => some i
  | none, none => none

/-- One library reference of an injection, resolved. -/
def resolveRef (library : Library) (kind : LibKind) (label : String) :
    Option String → Except FsmError (Option String)
  | none => .ok none
  | some name =>
    match library.resolve kind name with
    | .ok content => .ok (some content)
    | .error e => .error (.libraryUnresolved (label ++ " '" ++ name ++ "': " ++ e.display))

/-- `render_injection`. -/
def renderInjection (sub : SubStateDef) (macroDef : StateDef) (library : Library)
    (initialContext : Option Json) : Except FsmError RenderedInjection := do
  let inject := sub.inject
  let prompt := (inject.bind (·.prompt)).or macroDef.systemPrompt
  let skillName := inject.bind (·.skill)
  let protocolName := inject.bind (·.protocol)
  let baseContext := inject.bind (·.context)
  let context := mergeInitialContext toStringPretty baseContext initialContext
  let skillContent ← resolveRef library .skill "skill" skillName
  let protocolContent ← resolveRef library .protocol "protocol" protocolName
  let parts := prompt.toList ++ skillContent.toList ++ protocolContent.toList ++ context.toList
  return {
    prompt, skillRef := skillName, protocolRef := protocolName, context
    rendered := "\n\n".intercalate parts
    approvalChallenge := none, approvalPrompt := sub.approvalPrompt }

/-- `render_loop_target`. -/
def renderLoopTarget (macroDef : StateDef) (library : Library) :
    Except FsmError (Position × RenderedInjection) :=
  match macroDef.firstEnabledExecuteIndex with
  | none => .error (.manifestInvalid ("macro '" ++ macroDef.stateId ++
      "' has loop-back enabled but no enabled execute sub-state"))
  | some idx => do
    let sub := macroDef.subAt idx
    let injected ← renderInjection toStringPretty sub macroDef library none
    return (⟨macroDef.stateId, sub.id⟩, injected)

variable {toStringPretty}

theorem resolveRef_error {library : Library} {kind : LibKind} {label : String}
    {name : Option String} {e : FsmError} (h : resolveRef library kind label name = .error e) :
    ∃ m, e = .libraryUnresolved m := by
  unfold resolveRef at h
  split at h
  · cases h
  · split at h
    · cases h
    · exact ⟨_, (Except.error.inj h).symm⟩

theorem resolveRef_ok {library : Library} {kind : LibKind} (label : String)
    {ref : Option String}
    (h : ∀ name, ref = some name → ∃ content, library.resolve kind name = .ok content) :
    ∃ content, resolveRef library kind label ref = .ok content := by
  cases ref with
  | none => exact ⟨none, rfl⟩
  | some name =>
    obtain ⟨content, hc⟩ := h name rfl
    exact ⟨some content, by rw [resolveRef, hc]⟩

/-- With its references resolving, an injection renders. -/
theorem renderInjection_ok {sub : SubStateDef} {macroDef : StateDef} {library : Library}
    (hskill : ∀ name, sub.inject.bind (·.skill) = some name →
      ∃ content, library.resolve .skill name = .ok content)
    (hprotocol : ∀ name, sub.inject.bind (·.protocol) = some name →
      ∃ content, library.resolve .protocol name = .ok content) (initialContext : Option Json) :
    ∃ injected, renderInjection toStringPretty sub macroDef library initialContext =
      .ok injected := by
  obtain ⟨skill, hs⟩ := resolveRef_ok "skill" hskill
  obtain ⟨«protocol», hp⟩ := resolveRef_ok "protocol" hprotocol
  unfold renderInjection
  dsimp only
  rw [hs, hp]
  exact ⟨_, rfl⟩

/-- Rendering fails only for want of a library file. -/
theorem renderInjection_error {sub : SubStateDef} {macroDef : StateDef} {library : Library}
    {initialContext : Option Json} {e : FsmError}
    (h : renderInjection toStringPretty sub macroDef library initialContext = .error e) :
    ∃ m, e = .libraryUnresolved m := by
  unfold renderInjection at h
  dsimp only at h
  cases hs : resolveRef library .skill "skill" (sub.inject.bind (·.skill)) with
  | error e' =>
    rw [hs] at h
    cases h
    exact resolveRef_error hs
  | ok skill =>
    cases hp : resolveRef library .protocol "protocol" (sub.inject.bind (·.protocol)) with
    | error e' =>
      rw [hs, hp] at h
      cases h
      exact resolveRef_error hp
    | ok «protocol» =>
      rw [hs, hp] at h
      cases h

/-- A loop-back target that renders is the first enabled `execute` sub-state. -/
theorem renderLoopTarget_ok {macroDef : StateDef} {library : Library}
    {out : Position × RenderedInjection}
    (h : renderLoopTarget toStringPretty macroDef library = .ok out) :
    ∃ k, macroDef.firstEnabledExecuteIndex = some k ∧
      out.1 = ⟨macroDef.stateId, (macroDef.subAt k).id⟩ := by
  unfold renderLoopTarget at h
  split at h
  · cases h
  · rename_i k hk
    dsimp only at h
    cases hr : renderInjection toStringPretty (macroDef.subAt k) macroDef library none with
    | error e =>
      rw [hr] at h
      cases h
    | ok injected =>
      rw [hr] at h
      cases h
      exact ⟨k, hk, rfl⟩

theorem renderLoopTarget_error {macroDef : StateDef} {library : Library} {e : FsmError}
    (h : renderLoopTarget toStringPretty macroDef library = .error e) :
    (∃ m, e = .manifestInvalid m) ∨ ∃ m, e = .libraryUnresolved m := by
  unfold renderLoopTarget at h
  split at h
  · exact Or.inl ⟨_, (Except.error.inj h).symm⟩
  · rename_i k _
    dsimp only at h
    cases hr : renderInjection toStringPretty (macroDef.subAt k) macroDef library none with
    | error e' =>
      rw [hr] at h
      cases h
      exact Or.inr (renderInjection_error hr)
    | ok injected =>
      rw [hr] at h
      cases h

end

end ProtocolEnforcer
