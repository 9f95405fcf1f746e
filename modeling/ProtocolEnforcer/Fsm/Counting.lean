import ProtocolEnforcer.Fsm.Fidelity

/-!
# What a session counts

A session counts rejected checklists, identical rejections in a row and refused approvals,
each against a limit of its profile. This module holds the limits (`Within`), the counters as
the ledger shows them (`MacroRejections`, `Accounts`), and `SameCounts`, which says how the
counters in memory and the recovered ones compare at each stage of a call.
-/

namespace ProtocolEnforcer

/-- A session reduced to its place, its status and its counters. -/
def SessionState.counted (s : SessionState) : SessionState :=
  { s with
    pipelineId := "", startedAt := 0, updatedAt := 0, initialContext := .null, artifacts := []
    pendingApproval := none }

/-- What reads and writes only what is counted can be done to either of two sessions. -/
theorem SessionState.counted_congr {f : SessionState → SessionState}
    (hf : ∀ s, (f s).counted = (f s.counted).counted) {s t : SessionState}
    (h : s.counted = t.counted) : (f s).counted = (f t).counted := by
  rw [hf s, h, ← hf t]

/-- What counts the same stands at the same place, with the same status and counters. -/
structure SessionState.SameCount (s t : SessionState) : Prop where
  position : s.position = t.position
  status : s.status = t.status
  macroIteration : s.macroIteration = t.macroIteration
  streak : s.consecutiveIdenticalRejections = t.consecutiveIdenticalRejections
  approvals : s.consecutiveApprovalRejections = t.consecutiveApprovalRejections

theorem SessionState.sameCount {s t : SessionState} (h : s.counted = t.counted) :
    s.SameCount t where
  position := show s.counted.position = t.counted.position by rw [h]
  status := show s.counted.status = t.counted.status by rw [h]
  macroIteration := show s.counted.macroIteration = t.counted.macroIteration by rw [h]
  streak := show s.counted.consecutiveIdenticalRejections =
    t.counted.consecutiveIdenticalRejections by rw [h]
  approvals := show s.counted.consecutiveApprovalRejections =
    t.counted.consecutiveApprovalRejections by rw [h]

/-- The macro a ledger stands in, and the rejected checklists of each macro, since the last
start. -/
structure MacroRejections where
  current : String
  rejected : String → Nat

/-- One more rejected checklist. -/
def MacroRejections.reject (c : MacroRejections) : MacroRejections :=
  { c with rejected := Function.update c.rejected c.current (c.rejected c.current + 1) }

theorem MacroRejections.reject_current (c : MacroRejections) :
    c.reject.rejected c.current = c.rejected c.current + 1 := Function.update_self ..

theorem MacroRejections.reject_other (c : MacroRejections) {id : String} (h : id ≠ c.current) :
    c.reject.rejected id = c.rejected id := Function.update_of_ne h ..

/-- One more event. -/
def MacroRejections.next (first : String) (c : MacroRejections) (e : FsmEvent) :
    MacroRejections :=
  match e.eventType with
  | .sessionStarted _ _ _ => ⟨first, fun _ => 0⟩
  | .macroAdvanced _ toMacro => { c with current := toMacro }
  | .milestoneRejected _ _ _ => c.reject
  | _ => c

/-- What the events of a session count. -/
def macroRejections (p : Profile) (es : List FsmEvent) : MacroRejections :=
  es.foldl (MacroRejections.next (p.stateAt 0).stateId) ⟨(p.stateAt 0).stateId, fun _ => 0⟩

theorem macroRejections_snoc {p : Profile} {es : List FsmEvent} {e : FsmEvent} :
    macroRejections p (es ++ [e]) =
      MacroRejections.next (p.stateAt 0).stateId (macroRejections p es) e := by
  rw [macroRejections, List.foldl_concat, macroRejections]

namespace ProfileFsmEngine

variable (engine : ProfileFsmEngine) (sid : String)

/-- The id of the macro with this index. -/
abbrev macroIdAt (i : Nat) : String := (engine.profile.stateAt i).stateId

/-- How many rejected checklists macro `i` allows. -/
def rejectionLimit (i : Nat) : Nat := max 1 (engine.profile.stateAt i).maxIterations.toNat

/-- How many identical rejections in a row the profile allows. -/
def oscillationLimit : Nat := max 1 engine.profile.settings.oscillationDetectionThreshold.toNat

/-- A session in macro `i` none of whose counters has reached its limit. -/
structure Within (s : SessionState) (i j : Nat) : Prop where
  inRange : engine.profile.InRange i j
  here : s.position = some (engine.profile.place i j)
  iteration : s.macroIteration.toNat < rejectionLimit engine i
  streak : s.consecutiveIdenticalRejections.toNat < oscillationLimit engine
  approvals : engine.profile.settings.approvalRejectionCap ≠ 0 →
    s.consecutiveApprovalRejections < engine.profile.settings.approvalRejectionCap

/-- The ledgered rejections of each macro, against the session `s` recovered from it: no more
than it allows in the macro `s` is in, fewer in each before it, none in those behind. -/
inductive Accounts (c : MacroRejections) (s : SessionState) : Prop where
  | underway {i j} (inRange : engine.profile.InRange i j)
      (here : s.position = some (engine.profile.place i j))
      (current : c.current = macroIdAt engine i)
      (count : c.rejected (macroIdAt engine i) = s.macroIteration.toNat)
      (most : c.rejected (macroIdAt engine i) ≤ rejectionLimit engine i)
      (before : ∀ i' < i, c.rejected (macroIdAt engine i') < rejectionLimit engine i')
      (behind : ∀ i', i < i' → i' < engine.profile.pipeline.length →
        c.rejected (macroIdAt engine i') = 0) : Accounts c s
  | finished (inactive : s.status ≠ .active) (gone : s.position = none)
      (before : ∀ i < engine.profile.pipeline.length,
        c.rejected (macroIdAt engine i) < rejectionLimit engine i) : Accounts c s

/-- How the counters in memory and the recovered ones compare at a stage. -/
def SameCounts (call : Call) (stage : Stage) (live fold : Option SessionState) : Prop :=
  match stage with
  | .ready => live = none ∨ live.map SessionState.counted = fold.map SessionState.counted
  | .bumped => ∃ pos evidence output l s, call = .submit pos evidence output ∧ live = some l ∧
      fold = some s ∧ l.counted = (s.strikeOut (sortedKeys evidence.keys)).counted
  | .unborn | .stillborn => live = none
  | .landed _ _ | .spent | .refused | .struck | .passed | .settled =>
    live.map SessionState.counted = fold.map SessionState.counted

variable {engine sid}

theorem rejectionLimit_pos (i : Nat) : 0 < rejectionLimit engine i :=
  Nat.lt_of_lt_of_le Nat.one_pos (Nat.le_max_left _ _)

section

variable {s t : SessionState} {c : MacroRejections} {i j : Nat}

theorem Within.congr (h : Within engine s i j) (heq : s.counted = t.counted) :
    Within engine t i j := by
  obtain ⟨hpos, -, hiteration, hstreak, happrovals⟩ := SessionState.sameCount heq
  exact ⟨h.inRange, hpos ▸ h.here, hiteration ▸ h.iteration, hstreak ▸ h.streak,
    happrovals ▸ h.approvals⟩

/-- A session with room left in its macro counts one more without wrapping. -/
theorem Within.bump (h : Within engine s i j) :
    (s.macroIteration + 1).toNat = s.macroIteration.toNat + 1 := by
  have hlt := h.iteration
  have hmax : rejectionLimit engine i ≤ 2 ^ 32 - 1 := by
    have := (engine.profile.stateAt i).maxIterations.toNat_lt
    rw [rejectionLimit]
    omega
  rw [UInt32.toNat_add]
  exact Nat.mod_eq_of_lt (by show _ + 1 < 2 ^ 32; omega)

/-- The same counters, moved to another sub-state. -/
theorem Within.moved {k : Nat} (h : Within engine s i j)
    (hrange : engine.profile.InRange i k) :
    Within engine { s with position := some (engine.profile.place i k) } i k :=
  ⟨hrange, rfl, h.iteration, h.streak, h.approvals⟩

/-- The next macro starts counting anew. -/
theorem Within.nextMacro {i' k : Nat} (h : Within engine s i j)
    (hrange : engine.profile.InRange i' k) :
    Within engine { s.resetMacro with position := some (engine.profile.place i' k) } i' k :=
  ⟨hrange, rfl, rejectionLimit_pos _, Nat.lt_of_lt_of_le Nat.one_pos (Nat.le_max_left _ _),
    h.approvals⟩

/-- A challenge starts counting refusals anew. -/
theorem Within.park (h : Within engine s i j) (challenge : ApprovalChallenge) :
    Within engine (s.park challenge) i j :=
  ⟨h.inRange, h.here, h.iteration, h.streak, fun hcap => UInt32.pos_iff_ne_zero.mpr hcap⟩

theorem Within.fresh {k : Nat} (sid : String) (t : Time) (context : Json) {pos : Position}
    (hrange : engine.profile.InRange i k) (hpos : pos = engine.profile.place i k) :
    Within engine (freshSession engine sid t context pos) i k :=
  ⟨hrange, congrArg some hpos, rejectionLimit_pos _,
    Nat.lt_of_lt_of_le Nat.one_pos (Nat.le_max_left _ _), fun hcap => UInt32.pos_iff_ne_zero.mpr hcap⟩

/-- Accounts stay as they are while place, iteration and status do. -/
theorem Accounts.congr {c' : MacroRejections} (h : Accounts engine c s) (hc : c' = c)
    (hpos : t.position = s.position) (hcount : t.macroIteration = s.macroIteration)
    (hstatus : s.status ≠ .active → t.status ≠ .active) : Accounts engine c' t := by
  subst hc
  cases h with
  | underway inRange here current count most before behind =>
    exact .underway inRange (hpos.trans here) current (hcount ▸ count) most before behind
  | finished inactive gone before => exact .finished (hstatus inactive) (hpos.trans gone) before

/-- The accounts of a session whose place is known. -/
theorem Accounts.at_place {ed : Ed25519} (wf : engine.profile.WellFormed ed)
    (h : Accounts engine c s) (hrange : engine.profile.InRange i j)
    (hpos : s.position = some (engine.profile.place i j)) :
    c.current = macroIdAt engine i ∧
      c.rejected (macroIdAt engine i) = s.macroIteration.toNat ∧
      (∀ i' < i, c.rejected (macroIdAt engine i') < rejectionLimit engine i') ∧
      ∀ i', i < i' → i' < engine.profile.pipeline.length →
        c.rejected (macroIdAt engine i') = 0 := by
  cases h with
  | underway inRange here current count most before behind =>
    obtain ⟨rfl, rfl⟩ := place_unique wf hrange inRange hpos here
    exact ⟨current, count, before, behind⟩
  | finished _ gone => exact absurd (hpos.symm.trans gone) nofun

/-- No macro has more rejections than it allows. -/
theorem Accounts.bounded (h : Accounts engine c s) (hi : i < engine.profile.pipeline.length) :
    c.rejected (macroIdAt engine i) ≤ rejectionLimit engine i := by
  cases h with
  | @underway i' _ inRange here current count most before behind =>
    rcases Nat.lt_trichotomy i i' with hlt | rfl | hgt
    · exact Nat.le_of_lt (before i hlt)
    · exact most
    · rw [behind i hgt hi]
      exact Nat.zero_le _
  | finished _ _ before => exact Nat.le_of_lt (before i hi)

/-- A session with a macro whose rejections are used up is not within its limits. -/
theorem Accounts.spent {ed : Ed25519} (wf : engine.profile.WellFormed ed)
    (h : Accounts engine c s) (hi : i < engine.profile.pipeline.length)
    (hspent : rejectionLimit engine i ≤ c.rejected (macroIdAt engine i))
    (within : s.status = .active → ∃ i j, Within engine s i j) : s.status ≠ .active := by
  intro hactive
  obtain ⟨i₁, j₁, hwithin⟩ := within hactive
  obtain ⟨-, count, before, behind⟩ := h.at_place wf hwithin.inRange hwithin.here
  have hpos : 0 < rejectionLimit engine i := rejectionLimit_pos i
  rcases Nat.lt_trichotomy i i₁ with hlt | rfl | hgt
  · have := before i hlt
    omega
  · have := hwithin.iteration
    omega
  · have := behind i hgt hi
    omega

/-- Memory and ledger count the same. -/
theorem SameCounts.fold {call : Call} {stage : Stage} {fold : Option SessionState}
    (h : SameCounts call stage (some s) fold) (hstage : stage ≠ .bumped) :
    ∃ f, fold = some f ∧ f.counted = s.counted := by
  have hmap : (some s).map SessionState.counted = fold.map SessionState.counted := by
    cases stage with
    | ready => exact h.resolve_left nofun
    | bumped => exact absurd rfl hstage
    | unborn | stillborn => cases h
    | _ => exact h
  obtain ⟨f, hf, heq⟩ := Option.map_eq_some_iff.mp hmap.symm
  exact ⟨f, hf, heq⟩

end

/-- One more event behind a recovered session. -/
theorem replayEvents_concat {es : List FsmEvent} {e : FsmEvent} {s s' : SessionState}
    (h : replayEvents sid engine.profile es = .ok (some s))
    (hty : ∀ a b c, e.eventType ≠ .sessionStarted a b c)
    (hev : recoverEvent engine.profile s e = .ok s') :
    replayEvents sid engine.profile (es ++ [e]) =
      .ok (some { s' with updatedAt := e.timestamp }) := by
  rw [replayEvents_snoc h, recoverStep_some hty, hev]
  rfl

end ProfileFsmEngine

end ProtocolEnforcer
