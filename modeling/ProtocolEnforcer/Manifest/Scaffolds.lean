import ProtocolEnforcer.Manifest.HookedVerbs
import ProtocolEnforcer.Manifest.ValidProfile

/-!
# Scaffolds (`scaffold_macro`, `scaffold_sub` in `crates/manifest/src/editor/mod.rs`)

`add_macro` and `add_sub` put a scaffold into a profile and are to leave it valid: a new macro
is a checklist and nothing else, and a new sub-state goes in front of the checklist of its macro.
A macro with a fresh id fits in anywhere, and so does a sub-state of every type but one: a
`human_approval` is asked for the key of its approver, and the scaffold has none.
-/

namespace ProtocolEnforcer

/-! ## Insertion -/

section

variable {α : Type*}

theorem insertIdx_length_append (xs ys : List α) (a : α) :
    (xs ++ ys).insertIdx xs.length a = xs ++ a :: ys := by
  induction xs with
  | nil => rfl
  | cons x xs ih => exact congrArg (x :: ·) ih

theorem exists_insertIdx_eq {xs : List α} {i : Nat} (hi : i ≤ xs.length) (a : α) :
    ∃ before behind, xs = before ++ behind ∧ before.length = i ∧
      xs.insertIdx i a = before ++ a :: behind := by
  have hlength : (xs.take i).length = i := List.length_take_of_le hi
  refine ⟨xs.take i, xs.drop i, (List.take_append_drop i xs).symm, hlength, ?_⟩
  have hinsert := insertIdx_length_append (xs.take i) (xs.drop i) a
  rwa [List.take_append_drop, hlength] at hinsert

end

section

variable {schemas : Schemas} {lib : Library}

/-- A macro with a fresh id that is valid, enabled and does not loop can go anywhere. -/
theorem Profile.Passes.insert {p : Profile} {before behind : List StateDef} {m : StateDef}
    (h : p.Passes schemas lib) (hmacros : p.pipeline = before ++ behind)
    (hfresh : ∀ x ∈ p.pipeline, x.stateId ≠ m.stateId) (hm : validateMacro schemas lib m = [])
    (henabled : m.enabled = true) (hloop : m.loopState = false) :
    ({ p with pipeline := before ++ m :: behind } : Profile).Passes schemas lib := by
  have hmem : ∀ x ∈ before ++ m :: behind, x = m ∨ x ∈ p.pipeline := fun x hx => by
    rw [hmacros]
    simpa [or_left_comm] using hx
  have henabledOnly : ({ p with pipeline := before ++ m :: behind } :
      Profile).withEnabledMacrosOnly.pipeline =
      before.filter (·.enabled) ++ m :: behind.filter (·.enabled) := by
    rw [Profile.withEnabledMacrosOnly, List.filter_append, List.filter_cons_of_pos henabled]
  refine ⟨List.append_ne_nil_of_right_ne_nil _ (List.cons_ne_nil _ _), ?_, fun x hx => ?_, ?_, ?_,
    h.contract⟩
  · rw [List.map_append, List.map_cons, List.nodup_middle, List.nodup_cons, ← List.map_append,
      ← hmacros]
    refine ⟨fun hid => ?_, h.macroIds⟩
    obtain ⟨x, hx, heq⟩ := List.mem_map.mp hid
    exact hfresh x hx heq
  · rcases hmem x hx with rfl | hx
    · exact hm
    · exact h.macros x hx
  · rw [henabledOnly]
    exact List.append_ne_nil_of_right_ne_nil _ (List.cons_ne_nil _ _)
  · rw [checkLoopState_eq_nil, henabledOnly]
    intro x hx hxloop
    have hxmem : x ∈ p.withEnabledMacrosOnly.pipeline := by
      rw [Profile.withEnabledMacrosOnly, hmacros, List.filter_append]
      have hne : x ≠ m := by
        rintro rfl
        cases hloop.symm.trans hxloop
      simpa [hne] using hx
    obtain ⟨htarget, hlast⟩ := checkLoopState_eq_nil.mp h.loops x hxmem hxloop
    refine ⟨htarget, ?_⟩
    -- the last enabled macro is the one it was, or the new one
    rcases List.eq_nil_or_concat' (behind.filter (·.enabled)) with hnil | ⟨rest, last, hconcat⟩
    · rw [hnil, List.getLast?_concat]
      exact fun heq => hfresh x (List.mem_of_mem_filter hxmem) (Option.some.inj heq).symm
    · rw [Profile.withEnabledMacrosOnly, hmacros, List.filter_append, hconcat,
        ← List.append_assoc, List.getLast?_concat] at hlast
      rwa [hconcat, ← List.cons_append, ← List.append_assoc, List.getLast?_concat]

/-- A macro can give way to one with the same id that is enabled and loops where it does. -/
theorem Profile.Passes.replace {p : Profile} {before behind : List StateDef} {m m' : StateDef}
    (h : p.Passes schemas lib) (hmacros : p.pipeline = before ++ m :: behind)
    (hid : m'.stateId = m.stateId) (henabled : m'.enabled = m.enabled)
    (hloop : m'.loopState = m.loopState)
    (htarget : m.firstEnabledExecuteIndex.isSome = true →
      m'.firstEnabledExecuteIndex.isSome = true) :
    ({ p with pipeline := before ++ m' :: behind } : Profile).Passes schemas lib ↔
      validateMacro schemas lib m' = [] := by
  refine ⟨fun h => h.macros m' (List.mem_append_right _ List.mem_cons_self), fun hm' => ?_⟩
  have hids : (before ++ m' :: behind).map (·.stateId) = p.pipeline.map (·.stateId) := by
    rw [hmacros, List.map_append, List.map_append, List.map_cons, List.map_cons, hid]
  have hmem : ∀ x ∈ before ++ m' :: behind, x = m' ∨ x ∈ p.pipeline := fun x hx => by
    rw [hmacros]
    simp only [List.mem_append, List.mem_cons] at hx ⊢
    tauto
  have henabledIds : (({ p with pipeline := before ++ m' :: behind } :
      Profile).withEnabledMacrosOnly.pipeline).map (·.stateId) =
      p.withEnabledMacrosOnly.pipeline.map (·.stateId) := by
    rw [Profile.withEnabledMacrosOnly, Profile.withEnabledMacrosOnly, hmacros,
      List.filter_append, List.filter_append, List.filter_cons, List.filter_cons, henabled]
    split <;> simp [hid]
  refine ⟨List.append_ne_nil_of_right_ne_nil _ (List.cons_ne_nil _ _), hids ▸ h.macroIds,
    fun x hx => ?_, fun hnil => ?_, ?_, h.contract⟩
  · rcases hmem x hx with rfl | hx
    · exact hm'
    · exact h.macros x hx
  · rw [hnil] at henabledIds
    exact h.someEnabled (List.map_eq_nil_iff.mp henabledIds.symm)
  · rw [checkLoopState_eq_nil, ← List.getLast?_map, henabledIds, List.getLast?_map]
    intro x hx hxloop
    obtain ⟨hx, hxenabled⟩ := List.mem_filter.mp hx
    rcases hmem x hx with rfl | hx
    · have hm : m ∈ p.withEnabledMacrosOnly.pipeline := by
        refine List.mem_filter.mpr ⟨hmacros ▸ List.mem_append_right _ List.mem_cons_self, ?_⟩
        exact henabled ▸ hxenabled
      obtain ⟨hm, hlast⟩ := checkLoopState_eq_nil.mp h.loops m hm (hloop ▸ hxloop)
      exact ⟨htarget hm, hid ▸ hlast⟩
    · exact checkLoopState_eq_nil.mp h.loops x (List.mem_filter.mpr ⟨hx, hxenabled⟩) hxloop

/-- A sub-state with a fresh id can go in front of the checklist if it is valid. -/
theorem StateDef.Passes.insert {m : StateDef} {subs : List SubStateDef} {sub last : SubStateDef}
    (h : m.Passes schemas lib) (hsubs : m.subStates = subs ++ [last])
    (hfresh : ∀ x ∈ m.subStates, x.id ≠ sub.id) (htype : sub.subStateType ≠ .checklist) :
    ({ m with subStates := subs ++ [sub, last] } : StateDef).Passes schemas lib ↔
      validateSub schemas lib m sub = [] := by
  constructor
  · exact fun h => h.subs sub (by simp)
  · intro hsub
    refine ⟨h.noColon, ?_, ?_, fun x hx => ?_⟩
    · have hperm : (subs ++ [sub, last]).Perm (sub :: m.subStates) := by
        rw [hsubs]
        exact List.perm_middle
      rw [(hperm.map _).nodup_iff, List.map_cons, List.nodup_cons]
      refine ⟨fun hid => ?_, h.subIds⟩
      obtain ⟨x, hx, heq⟩ := List.mem_map.mp hid
      exact hfresh x hx heq
    · obtain ⟨subs', last', hsubs', hothers, hlast⟩ := h.checklist
      obtain ⟨rfl, hlast'⟩ := List.append_inj' (hsubs.symm.trans hsubs') rfl
      obtain rfl := List.singleton_inj.mp hlast'
      refine ⟨subs ++ [sub], last, by simp, fun x hx => ?_, hlast⟩
      rcases List.mem_append.mp hx with hx | hx
      · exact hothers x hx
      · exact List.mem_singleton.mp hx ▸ htype
    · have hx : x = sub ∨ x ∈ m.subStates := by
        rw [hsubs]
        simpa [or_left_comm] using hx
      rcases hx with rfl | hx
      · exact hsub
      · exact h.subs x hx

theorem checkApproval_keyless {m : StateDef} {sub : SubStateDef} (h : sub.approverPubkey = none) :
    checkApproval schemas m sub = [] ↔ sub.subStateType ≠ .humanApproval := by
  rw [checkApproval, h]
  cases sub.subStateType with
  | humanApproval => exact iff_of_false (List.cons_ne_nil _ _) fun hne => hne rfl
  | _ => exact iff_of_true rfl nofun

/-- A scaffolded sub-state keeps all rules, but for a gate, which has no approver. -/
theorem validateSub_scaffoldSub {m : StateDef} {subId name : String} {subType : SubStateType} :
    validateSub schemas lib m (scaffoldSub subId subType name).served = [] ↔
      ':' ∉ subId.toList ∧ subType ≠ .humanApproval := by
  let sub := (scaffoldSub subId subType name).served
  have hcriteria : checkCriteria m sub = [] := by
    cases subType <;> rfl
  have hinjection : checkInjection lib m sub = [] := rfl
  have hverify : checkVerify m sub = [] := rfl
  rw [validateSub, hcriteria, hinjection, hverify, List.append_nil, List.append_nil,
    List.append_nil, List.append_eq_nil_iff, violationIf_eq_nil, Text.hasChar_eq_false,
    checkApproval_keyless rfl]
  rfl

theorem validateMacro_scaffoldMacro {stateId name : String} (h : ':' ∉ stateId.toList) :
    validateMacro schemas lib (scaffoldMacro stateId name).served = [] := by
  let checklist := (scaffoldSub "checklist" .checklist "Checklist").served
  have hsubs : (scaffoldMacro stateId name).served.subStates = [checklist] := rfl
  have hid : ':' ∉ "checklist".toList := by decide
  refine validateMacro_eq_nil.mpr ⟨Text.hasChar_eq_false.mpr h, ?_, ?_, fun sub hsub => ?_⟩
  · rw [hsubs]
    exact List.nodup_singleton _
  · exact ⟨[], checklist, hsubs, fun _ hmem => absurd hmem List.not_mem_nil, rfl, rfl⟩
  · rw [hsubs, List.mem_singleton] at hsub
    rw [hsub]
    exact validateSub_scaffoldSub.mpr ⟨hid, nofun⟩

end

/-! ## Scaffolding -/

/-- The verb adds a macro with a fresh id, anywhere, or, where such a sub-state goes by default,
a sub-state other than a checklist with an id that is fresh in its macro. The id has no `:`. -/
def Verb.Scaffolds (p : ProfileYaml) : Verb → Prop
  | .addMacro _ stateId _ _ => ':' ∉ stateId.toList ∧ ∀ m ∈ p.pipeline, m.stateId ≠ stateId
  | .addSub _ macroId subId subType _ none =>
    ':' ∉ subId.toList ∧ subType ≠ .checklist ∧
      ∃ m ∈ p.pipeline, m.stateId = macroId ∧ ∀ sub ∈ m.subStates, sub.id ≠ subId
  | _ => False

/-- The verb adds a gate. -/
def Verb.AddsGate (verb : Verb) : Prop :=
  ∃ name macroId subId subName position,
    verb = .addSub name macroId subId .humanApproval subName position

/-- A profile with a scaffold in it: the other macros and the other sub-states are as they were
and in the same order, and the checklist is still last. -/
inductive Scaffolded (p : ProfileYaml) : Verb → ProfileYaml → Prop where
  | addMacro {name stateId macroName : String} {position : Option Nat} {before behind}
      (macros : p.pipeline = before ++ behind)
      (place : before.length = min (position.getD p.pipeline.length) p.pipeline.length) :
      Scaffolded p (.addMacro name stateId macroName position)
        { p with pipeline := before ++ scaffoldMacro stateId macroName :: behind }
  | addSub {name macroId subId subType subName before m behind subs last}
      (macros : p.pipeline = before ++ m :: behind) (found : m.stateId = macroId)
      (subStates : m.subStates = subs ++ [last]) (checklist : last.subStateType = .checklist) :
      Scaffolded p (.addSub name macroId subId subType subName none)
        { p with pipeline := before ++
          { m with subStates := subs ++ [scaffoldSub subId subType subName, last] } :: behind }

section

variable {p p' : ProfileYaml} {verb : Verb} {schemas : Schemas} {lib : Library}

theorem served_macroIds : p.served.pipeline.map (·.stateId) = p.pipeline.map (·.stateId) :=
  List.map_map

theorem served_split {before behind : List StateYaml} {m : StateYaml}
    (h : p.pipeline = before ++ m :: behind) :
    p.served.pipeline = before.map StateYaml.served ++ m.served :: behind.map StateYaml.served := by
  rw [← List.map_cons, ← List.map_append, ← h]
  rfl

/-- A profile stays valid with a new sub-state in front of a checklist, if it is no gate. -/
theorem passes_scaffoldSub {before behind : List StateYaml} {m : StateYaml}
    {subs : List SubStateYaml} {last : SubStateYaml} {subId subName : String}
    {subType : SubStateType} (hp : p.served.Passes schemas lib)
    (hmacros : p.pipeline = before ++ m :: behind) (hsubs : m.subStates = subs ++ [last])
    (hcolon : ':' ∉ subId.toList) (hfresh : ∀ sub ∈ m.subStates, sub.id ≠ subId)
    (htype : subType ≠ .checklist) :
    ({ p with pipeline := before ++ { m with
        subStates := subs ++ [scaffoldSub subId subType subName, last] } :: behind } :
      ProfileYaml).served.Passes schemas lib ↔ subType ≠ .humanApproval := by
  let m' := { m with subStates := subs ++ [scaffoldSub subId subType subName, last] }
  have hm : m.served.Passes schemas lib := validateMacro_eq_nil.mp (hp.macros _ (by
    rw [served_split hmacros]
    exact List.mem_append_right _ List.mem_cons_self))
  have hserved : m.served.subStates = subs.map SubStateYaml.served ++ [last.served] := by
    rw [StateYaml.served, hsubs, List.map_append]
    rfl
  have hserved' : m'.served = { m.served with
      subStates := subs.map SubStateYaml.served ++
        [(scaffoldSub subId subType subName).served, last.served] } := by
    rw [StateYaml.served, List.map_append]
    rfl
  have htarget : m.served.firstEnabledExecuteIndex.isSome = true →
      m'.served.firstEnabledExecuteIndex.isSome = true := by
    rw [hserved', StateDef.firstEnabledExecuteIndex, StateDef.firstEnabledExecuteIndex,
      List.findIdx?_isSome, List.findIdx?_isSome, hserved]
    simp only [List.any_append, List.any_cons, List.any_nil, Bool.or_eq_true]
    tauto
  have hfresh' : ∀ sub ∈ m.served.subStates,
      sub.id ≠ (scaffoldSub subId subType subName).served.id := by
    intro x hx
    obtain ⟨sub, hsub, rfl⟩ := List.mem_map.mp hx
    exact hfresh sub hsub
  have hreplace : ({ p.served with
      pipeline := before.map StateYaml.served ++ m'.served :: behind.map StateYaml.served } :
      Profile).Passes schemas lib ↔ validateMacro schemas lib m'.served = [] :=
    hp.replace (served_split hmacros) rfl rfl rfl htarget
  rw [← List.map_cons, ← List.map_append] at hreplace
  refine hreplace.trans ?_
  rw [hserved', validateMacro_eq_nil, hm.insert hserved hfresh' htype, validateSub_scaffoldSub]
  exact and_iff_right hcolon

/-- **A scaffold leaves a valid profile valid, if it is no gate.** -/
theorem Scaffolded.valid_iff (hp : p.served.Passes schemas lib) (hverb : verb.Scaffolds p)
    (h : Scaffolded p verb p') : p'.served.Passes schemas lib ↔ ¬verb.AddsGate := by
  cases h with
  | @addMacro name stateId macroName position before behind macros place =>
    obtain ⟨hcolon, hfresh⟩ := hverb
    refine iff_of_true ?_ ?_
    · have hserved : p.served.pipeline =
          before.map StateYaml.served ++ behind.map StateYaml.served := by
        rw [← List.map_append, ← macros]
        rfl
      have hfresh' : ∀ x ∈ p.served.pipeline, x.stateId ≠ stateId := by
        intro x hx
        obtain ⟨m, hm, rfl⟩ := List.mem_map.mp hx
        exact hfresh m hm
      have hscaffold : validateMacro schemas lib (scaffoldMacro stateId macroName).served = [] :=
        validateMacro_scaffoldMacro hcolon
      have hinsert := hp.insert hserved hfresh' hscaffold rfl rfl
      rwa [← List.map_cons, ← List.map_append] at hinsert
    · rintro ⟨_, _, _, _, _, h⟩
      cases h
  | @addSub name macroId subId subType subName before m behind subs last macros found subStates
      checklist =>
    obtain ⟨hcolon, htype, m', hm', hid, hfresh⟩ := hverb
    have hnodup : (p.pipeline.map (·.stateId)).Nodup := served_macroIds ▸ hp.macroIds
    have hm : m ∈ p.pipeline := macros ▸ List.mem_append_right _ List.mem_cons_self
    obtain rfl := List.inj_on_of_nodup_map hnodup hm' hm (hid.trans found.symm)
    refine (passes_scaffoldSub hp macros subStates hcolon hfresh htype).trans (not_congr ?_)
    constructor
    · rintro rfl
      exact ⟨name, macroId, subId, subName, none, rfl⟩
    · rintro ⟨_, _, _, _, _, h⟩
      cases h
      rfl

/-- A sub-state other than a checklist goes, by default, in front of the checklist. -/
theorem defaultPosition_eq {m : StateYaml} {subs : List SubStateYaml} {last : SubStateYaml}
    {subType : SubStateType} (hsubs : m.subStates = subs ++ [last])
    (hothers : ∀ sub ∈ subs, sub.subStateType ≠ .checklist)
    (hlast : last.subStateType = .checklist) (htype : subType ≠ .checklist) :
    ProfileEditor.defaultPosition m subType = subs.length := by
  have hnone : subs.findIdx? (·.subStateType = .checklist) = none :=
    List.findIdx?_eq_none_iff.mpr fun sub hsub => decide_eq_false (hothers sub hsub)
  rw [ProfileEditor.defaultPosition, if_neg htype, hsubs, List.findIdx?_append, hnone]
  simp [hlast]

/-- A valid macro ends in its only checklist. -/
theorem exists_checklist {m : StateYaml} (h : validateMacro schemas lib m.served = []) :
    ∃ subs last, m.subStates = subs ++ [last] ∧ (∀ sub ∈ subs, sub.subStateType ≠ .checklist) ∧
      last.subStateType = .checklist := by
  obtain ⟨subs, last, hsubs, hothers, hlast, -⟩ := (validateMacro_eq_nil.mp h).checklist
  obtain ⟨subs, tail, hsplit, rfl, htail⟩ := List.map_eq_append_iff.mp hsubs
  obtain ⟨last, rest, rfl, rfl, hrest⟩ := List.map_eq_cons_iff.mp htail
  obtain rfl := List.map_eq_nil_iff.mp hrest
  exact ⟨subs, last, hsplit, fun sub hsub => hothers _ (List.mem_map_of_mem hsub), hlast⟩

/-- A change of a macro that there is changes it where it stands. -/
theorem changeMacro_eq {macroId : String} {m : StateYaml} (hm : m ∈ p.pipeline)
    (hid : m.stateId = macroId) (change : StateYaml → StateYaml) :
    ∃ before m behind, p.pipeline = before ++ m :: behind ∧ m.stateId = macroId ∧
      changeMacro macroId change p =
        .ok { p with pipeline := before ++ change m :: behind } := by
  have hsome : (p.pipeline.findFinIdx? (·.stateId = macroId)).isSome = true := by
    rw [List.isSome_findFinIdx?, List.any_eq_true]
    exact ⟨m, hm, decide_eq_true hid⟩
  obtain ⟨i, hi⟩ := Option.isSome_iff_exists.mp hsome
  have hfound := of_decide_eq_true (List.findFinIdx?_eq_some_iff.mp hi).1
  refine ⟨p.pipeline.take i, p.pipeline.get i, p.pipeline.drop (i + 1), ?_, hfound, ?_⟩
  · rw [List.get_eq_getElem, List.getElem_cons_drop, List.take_append_drop]
  · have hset : p.pipeline.set i (change (p.pipeline.get i)) =
        p.pipeline.take i ++ change (p.pipeline.get i) :: p.pipeline.drop (i + 1) := by
      rw [List.set_eq_take_append_cons_drop, if_pos i.isLt]
    rw [← hset, changeMacro, findMacro, positionOr, hi]
    rfl

/-- What a scaffolding verb makes of a valid profile is the profile with the scaffold in it. -/
theorem change_scaffolds {editor : ProfileEditor} {c : Change}
    (hp : p.served.Passes schemas lib) (hverb : verb.Scaffolds p)
    (h : editor.change verb = some c) : ∃ p', c.mutate p = .ok p' ∧ Scaffolded p verb p' := by
  cases verb with
  | addMacro name stateId macroName position =>
    cases h
    obtain ⟨before, behind, hsplit, hplace, hinsert⟩ :=
      exists_insertIdx_eq
        (Nat.min_le_right (position.getD p.pipeline.length) p.pipeline.length)
        (scaffoldMacro stateId macroName)
    refine ⟨_, ?_, .addMacro hsplit hplace⟩
    rw [← hinsert]
  | addSub name macroId subId subType subName position =>
    cases position with
    | some position => exact hverb.elim
    | none =>
      cases h
      obtain ⟨-, htype, m, hm, hid, -⟩ := hverb
      obtain ⟨before, m, behind, hmacros, hid, hchange⟩ := changeMacro_eq hm hid fun state =>
        { state with
          subStates := state.subStates.insertIdx
            (min ((none : Option Nat).getD (ProfileEditor.defaultPosition state subType))
              state.subStates.length)
            (scaffoldSub subId subType subName) }
      have hm : m.served ∈ p.served.pipeline := by
        rw [served_split hmacros]
        exact List.mem_append_right _ List.mem_cons_self
      obtain ⟨subs, last, hsubs, hothers, hlast⟩ := exists_checklist (hp.macros _ hm)
      refine ⟨_, hchange, ?_⟩
      rw [Option.getD_none, defaultPosition_eq hsubs hothers hlast htype, hsubs,
        Nat.min_eq_left (by simp), insertIdx_length_append]
      exact .addSub hmacros hid hsubs hlast
  | _ => exact hverb.elim

end

namespace ProfileEditor

/-- What a scaffolding call is to come to: the profile with the scaffold in it passes the strict
validator, and is what the call answers if it can be serialized and no file operation fails. -/
def ScaffoldsValid (editor : ProfileEditor) (d : Disk String) (call : EditorCall)
    (p : ProfileYaml) : Prop :=
  ∃ p', Scaffolded p call.verb p' ∧
    validateProfile editor.schemas call.library.toLibrary p'.served = .ok () ∧
    ∀ text, editor.yaml.toString p' = .ok text → (∀ n < 4, call.fault n = none) →
      (editor.serve d call).1 = .ok (some p')

variable {editor : ProfileEditor} {d : Disk String} {call : EditorCall} {p : ProfileYaml}

/-- **Scaffolds are valid, but for gates.** On every valid profile that is not protected, a verb
that adds a macro or a sub-state with a fresh id succeeds and leaves the rest of the profile as
it was, if and only if it does not add a `human_approval`. -/
theorem scaffolds_valid_iff
    (hload : ∀ name ∈ call.verb.source, ∃ bytes, (editor.serving call).Loads d name p bytes)
    (hopen : p.protected = false)
    (hvalid : validateProfile editor.schemas call.library.toLibrary p.served = .ok ())
    (hscaffolds : call.verb.Scaffolds p) :
    editor.ScaffoldsValid d call p ↔ ¬call.verb.AddsGate := by
  have hpasses := validateProfile_ok_iff.mp hvalid
  constructor
  · rintro ⟨p', hscaffolded, hvalid', -⟩
    exact (hscaffolded.valid_iff hpasses hscaffolds).mp (validateProfile_ok_iff.mp hvalid')
  · intro hgate
    obtain ⟨c, hchange, hasks, hchecks⟩ : ∃ c, (editor.serving call).change call.verb = some c ∧
        c.asks = .ok () ∧ ∀ p, c.checks p = .ok () := by
      cases hverb : call.verb with
      | addMacro | addSub => exact ⟨_, rfl, rfl, fun _ => rfl⟩
      | _ =>
        rw [hverb] at hscaffolds
        exact hscaffolds.elim
    obtain ⟨p', hmutate, hscaffolded⟩ := change_scaffolds hpasses hscaffolds hchange
    have hvalid' := validateProfile_ok_iff.mpr
      ((hscaffolded.valid_iff hpasses hscaffolds).mpr hgate)
    refine ⟨p', hscaffolded, hvalid', fun text hwritten hfault => ?_⟩
    have hcarries : (editor.serving call).Carries d call.fault c p p' text := {
      asked := hasks
      source := hload c.name (change_source hchange)
      unprotected := hopen
      changes := hmutate
      savable := ⟨hvalid', hwritten⟩
      checked := hchecks p'
      undisturbed := hfault }
    exact serve_carries hchange hcarries

end ProfileEditor

/-! ## A sub-state for `base` -/

namespace Sample

/-- What `serde_yaml` writes for a sub-state without injections, checks, approver and hooks. -/
def subText (sub : SubStateYaml) : String :=
  "  - id: " ++ sub.id ++ "\n    type: " ++ sub.subStateType.display ++ "\n    name: " ++
    sub.name ++ "\n    description: ''\n    enabled: true\n    criteria:" ++
    (match sub.criteria with
      | none => " null\n"
      | some criteria => "\n" ++ String.join (criteria.map fun c => "    - " ++ c ++ "\n")) ++
    "    inject: null\n    verify: null\n    approver_pubkey: null\n" ++
    "    approval_prompt: null\n    hooks: []\n"

/-- `serde_yaml` on `base` and on what other such sub-states make of it. -/
def scaffoldFormat : ProfileFormat :=
  { format with
    toString := fun profile => .ok (
      "name: base\nversion: 1.0.0\ndescription: d\nprotected: false\ncreated_at: ''\n" ++
      "cloned_from: null\nsettings:\n  oscillation_detection_threshold: 3\n" ++
      "  auto_loop_on_checklist_failure: true\n  global_timeout_seconds: 3600\n" ++
      "  approval_rejection_cap: 10\npipeline:\n" ++
      "- state_id: phase1\n  name: Phase 1\n  description: ''\n  system_prompt: null\n" ++
      "  enabled: true\n  max_iterations: 3\n  loop: false\n  icon: null\n  sub_states:\n" ++
      String.join (profile.pipeline.flatMap fun m => m.subStates.map subText) ++
      "  hooks: []\noutput_contract: null\n") }

def scaffoldEditor : ProfileEditor := { profileEditor with yaml := scaffoldFormat }

/-- `add_sub` of this type to the macro of `base`. -/
def addingSub (subType : SubStateType) : EditorCall where
  verb := .addSub "base" "phase1" "sign_off" subType "Sign-Off" none
  library := emptyLibrary
  stamp := ⟨"2026-08-13T00:00:00+00:00", 1, 1⟩
  fault _ := none

theorem addingSub_loads {subType : SubStateType} : ∀ name ∈ (addingSub subType).verb.source,
    ∃ bytes, (scaffoldEditor.serving (addingSub subType)).Loads profilesDir name
      (authored "base" false) bytes := by
  intro name hname
  obtain rfl : name = "base" := (Option.some.inj hname).symm
  refine ⟨bytesOf (yamlText "base" false), base_loads.safe, base_loads.file, ?_⟩
  rw [fromUtf8Lossy_of_fromUtf8 (Utf8.fromUtf8_bytesOf _)]
  simp only [ProfileEditor.serving, scaffoldEditor, scaffoldFormat, format, ↓reduceIte]

theorem addingSub_scaffolds {subType : SubStateType} (h : subType ≠ .checklist) :
    (addingSub subType).verb.Scaffolds (authored "base" false) := by
  have hcolon : ':' ∉ "sign_off".toList := by decide
  refine ⟨hcolon, h, scaffoldMacro "phase1" "Phase 1", List.mem_singleton_self _, rfl, ?_⟩
  intro sub hsub
  rw [List.mem_singleton.mp hsub]
  exact fun heq => absurd heq (by decide)

end Sample

namespace ProfileEditor

/-- A review is added in front of the checklist. -/
theorem scaffolds_valid_review : Sample.scaffoldEditor.ScaffoldsValid Sample.profilesDir
    (Sample.addingSub .review) (Sample.authored "base" false) := by
  have hscaffolds : (Sample.addingSub .review).verb.Scaffolds (Sample.authored "base" false) :=
    Sample.addingSub_scaffolds nofun
  refine (scaffolds_valid_iff Sample.addingSub_loads rfl rfl hscaffolds).mpr ?_
  rintro ⟨_, _, _, _, _, hgate⟩
  cases hgate

/-- A gate is refused: the scaffold has no approver. -/
theorem scaffolds_gate_refused :
    validateProfile Sample.scaffoldEditor.schemas Sample.emptyLibrary.toLibrary
      (Sample.authored "base" false).served = .ok () ∧
    (Sample.addingSub .humanApproval).verb.Scaffolds (Sample.authored "base" false) ∧
    (∃ e, (Sample.scaffoldEditor.serve Sample.profilesDir
      (Sample.addingSub .humanApproval)).1 = .error e) ∧
    ¬Sample.scaffoldEditor.ScaffoldsValid Sample.profilesDir (Sample.addingSub .humanApproval)
      (Sample.authored "base" false) := by
  have hvalid : validateProfile Sample.scaffoldEditor.schemas Sample.emptyLibrary.toLibrary
      (Sample.authored "base" false).served = .ok () := rfl
  have hpasses := validateProfile_ok_iff.mp hvalid
  have hscaffolds : (Sample.addingSub .humanApproval).verb.Scaffolds
      (Sample.authored "base" false) := Sample.addingSub_scaffolds nofun
  have hgate : (Sample.addingSub .humanApproval).verb.AddsGate := ⟨_, _, _, _, _, rfl⟩
  have hinvalid : ∀ {p'}, Scaffolded (Sample.authored "base" false)
      (Sample.addingSub .humanApproval).verb p' →
      ¬p'.served.Passes Sample.scaffoldEditor.schemas Sample.emptyLibrary.toLibrary :=
    fun h hp' => (h.valid_iff hpasses hscaffolds).mp hp' hgate
  refine ⟨hvalid, hscaffolds, ?_, ?_⟩
  · have hchange : (Sample.scaffoldEditor.serving (Sample.addingSub .humanApproval)).change
        (Sample.addingSub .humanApproval).verb = some _ := rfl
    rcases serve_change (d := Sample.profilesDir) hchange with
      ⟨changed, p, text, -, hcarries, -⟩ | ⟨e, he, -⟩
    · obtain ⟨bytes, hsource⟩ := hcarries.source
      obtain ⟨bytes', hsource'⟩ := Sample.addingSub_loads _ rfl
      obtain rfl := hsource.unique hsource'
      obtain ⟨p', hmutate, hscaffolded⟩ := change_scaffolds hpasses hscaffolds hchange
      obtain rfl := Except.ok.inj (hcarries.changes.symm.trans hmutate)
      exact absurd (validateProfile_ok_iff.mp hcarries.savable.valid) (hinvalid hscaffolded)
    · exact ⟨e, he⟩
  · rintro ⟨p', hscaffolded, hvalid', -⟩
    exact hinvalid hscaffolded (validateProfile_ok_iff.mp hvalid')

end ProfileEditor

end ProtocolEnforcer
