import ProtocolEnforcer.Core.Standing
import ProtocolEnforcer.Fsm.Budgets
import ProtocolEnforcer.Fsm.Crash
import ProtocolEnforcer.Fsm.Order

/-!
# A completed session is signed off

Every enabled gate of a completed session has an approval in the ledger that anyone can check
under the gate's key, and the approval stands: nothing behind it took the session back to the
gate or before it. So work that is done again is approved again. Appends may fail, and the
process may die between any two of them, in the runs this is about.
-/

namespace ProtocolEnforcer

open Relation

namespace ProfileFsmEngine

variable (engine : ProfileFsmEngine) (sid : String)

/-- The event is an approval of the gate with these indices, and verifies under its key. -/
def Approves (i j : Nat) (e : FsmEvent) : Prop :=
  ∃ nonce signature pubkey, e.eventType = .approvalAccepted (engine.profile.place i j).macroId
      (engine.profile.place i j).subStateId nonce signature ∧
    ((engine.profile.stateAt i).subAt j).approverPubkey = some pubkey ∧
    verifyApprovalHex engine.vendor.ed pubkey sid (engine.profile.place i j).macroId
      (engine.profile.place i j).subStateId nonce signature = true

/-- The event takes the session to the sub-state with these indices or before it: a start, or
a loop back in its macro. -/
def GoesBack (i j : Nat) (e : FsmEvent) : Prop :=
  match e.eventType with
  | .sessionStarted _ _ _ => True
  | .macroLoopedBack _ toSub _ => ∃ k ≤ j, e.stepId = some (engine.profile.place i k).stepId ∧
      toSub = (engine.profile.place i k).subStateId
  | _ => False

/-- An approval of the gate stands. -/
def SignedOff (es : List FsmEvent) (i j : Nat) : Prop :=
  Stands (Approves engine sid i j) (GoesBack engine i j) es

/-- An enabled gate. -/
def GateAt (i j : Nat) : Prop :=
  engine.profile.EnabledAt i j ∧ engine.profile.typeAt i j = .humanApproval

/-- What the ledger holds of a session: the gates behind its position are signed off, and when
it has completed all of them. -/
structure Cleared (es : List FsmEvent) (s : SessionState) : Prop where
  behind : ∀ i j, engine.profile.InRange i j → s.position = some (engine.profile.place i j) →
    ∀ i' j', GateAt engine i' j' → i' < i ∨ i' = i ∧ j' < j → SignedOff engine sid es i' j'
  done : s.status = .completed → ∀ i j, GateAt engine i j → SignedOff engine sid es i j

/-- The invariant of every moment: what recovery makes of the ledger is cleared, and an
approval that has just been ledgered stands. -/
def Clears (c : Snapshot) : Prop :=
  ∀ s, Folds engine sid c.events (some s) → Cleared engine sid c.events s ∧
    (c.stage = .spent → ∀ i j, engine.profile.typeAt i j = .humanApproval →
      s.position = some (engine.profile.place i j) → SignedOff engine sid c.events i j)

variable {engine sid}

section

variable {es : List FsmEvent} {e : FsmEvent} {s t : SessionState} {stage : Stage} {i j k : Nat}

/-- An event that is no start and no loop back takes no session back. -/
theorem not_goesBack (hstart : ∀ p v h, e.eventType ≠ .sessionStarted p v h)
    (hloop : ∀ f t n, e.eventType ≠ .macroLoopedBack f t n) : ¬GoesBack engine i j e := by
  unfold GoesBack
  split
  · rename_i hty
    exact absurd hty (hstart _ _ _)
  · rename_i hty
    exact absurd hty (hloop _ _ _)
  · exact id

/-- The gates stay signed off behind such an event, where the session stays. -/
theorem Cleared.snoc (h : Cleared engine sid es s) (hstart : ∀ p v h, e.eventType ≠ .sessionStarted p v h)
    (hloop : ∀ f t n, e.eventType ≠ .macroLoopedBack f t n) (hpos : t.position = s.position)
    (hstatus : t.status = .completed → s.status = .completed) :
    Cleared engine sid (es ++ [e]) t where
  behind i j hrange here i' j' gate hlt :=
    (h.behind i j hrange (hpos.symm.trans here) i' j' gate hlt).concat (not_goesBack hstart hloop)
  done hdone i j gate := (h.done (hstatus hdone) i j gate).concat (not_goesBack hstart hloop)

/-- A session in memory stands where the recovered one does, so either can be looked at. -/
theorem Clears.iff_live (anchor : AnchorHolds engine sid ⟨some t, es, stage⟩) :
    Clears engine sid ⟨some t, es, stage⟩ ↔ Cleared engine sid es t ∧
      (stage = .spent → ∀ i j, engine.profile.typeAt i j = .humanApproval →
        t.position = some (engine.profile.place i j) → SignedOff engine sid es i j) := by
  obtain ⟨f, -, hfold, -, -, hpos, hstatus⟩ := anchor.fold
  constructor
  · intro h
    obtain ⟨hcleared, hspent⟩ := h f hfold
    exact ⟨⟨fun i j hrange here => hcleared.behind i j hrange (hpos.symm.trans here),
      fun hdone => hcleared.done (hstatus.symm.trans hdone)⟩,
      fun hs i j gate here => hspent hs i j gate (hpos.symm.trans here)⟩
  · rintro ⟨hcleared, hspent⟩ f' hfold'
    obtain rfl := Option.some.inj (hfold.unique hfold')
    exact ⟨⟨fun i j hrange here => hcleared.behind i j hrange (hpos.trans here),
      fun hdone => hcleared.done (hstatus.trans hdone)⟩,
      fun hs i j gate here => hspent hs i j gate (hpos.trans here)⟩

/-- A step that leaves the ledger as it is signs nothing off, and takes nothing back. -/
theorem Clears.silent {live live' : Option SessionState} {stage' : Stage}
    (h : Clears engine sid ⟨live, es, stage⟩) (hstage : stage' ≠ .spent) :
    Clears engine sid ⟨live', es, stage'⟩ :=
  fun f hfold => ⟨(h f hfold).1, fun hspent => absurd hspent hstage⟩

/-- An event that leaves the session where it stands. -/
theorem Clears.stay {stage' : Stage} (h : Clears engine sid ⟨some s, es, stage⟩)
    (anchor : AnchorHolds engine sid ⟨some s, es, stage⟩)
    (anchor' : AnchorHolds engine sid ⟨some t, es ++ [e], stage'⟩)
    (hstart : ∀ p v h, e.eventType ≠ .sessionStarted p v h)
    (hloop : ∀ f t n, e.eventType ≠ .macroLoopedBack f t n) (hpos : t.position = s.position)
    (hstatus : t.status = .completed → s.status = .completed) (hstage : stage' ≠ .spent) :
    Clears engine sid ⟨some t, es ++ [e], stage'⟩ := by
  obtain ⟨hcleared, -⟩ := (Clears.iff_live anchor).mp h
  exact (Clears.iff_live anchor').mpr ⟨hcleared.snoc hstart hloop hpos hstatus,
    fun hspent => absurd hspent hstage⟩

/-- Once the gate a session stands at is signed off, all gates up to it are. -/
theorem Cleared.upTo (h : Cleared engine sid es s) (hrange : engine.profile.InRange i j)
    (here : s.position = some (engine.profile.place i j))
    (hgate : engine.profile.typeAt i j = .humanApproval → SignedOff engine sid es i j) :
    ∀ i' j', GateAt engine i' j' → i' < i ∨ i' = i ∧ j' ≤ j → SignedOff engine sid es i' j' := by
  rintro i' j' gate (hlt | ⟨rfl, hle⟩)
  · exact h.behind i j hrange here i' j' gate (Or.inl hlt)
  · rcases Nat.lt_or_eq_of_le hle with hlt | rfl
    · exact h.behind i' j hrange here i' j' gate (Or.inr ⟨rfl, hlt⟩)
    · exact hgate gate.2

/-- A session that is under way has only the gates behind it to be signed off. -/
theorem Cleared.underway {ed : Ed25519} (wf : engine.profile.WellFormed ed)
    (hrange : engine.profile.InRange i j) (here : s.position = some (engine.profile.place i j))
    (active : s.status = .active)
    (behind : ∀ i' j', GateAt engine i' j' → i' < i ∨ i' = i ∧ j' < j →
      SignedOff engine sid es i' j') : Cleared engine sid es s where
  behind i₁ j₁ hrange' here' := by
    obtain ⟨rfl, rfl⟩ := place_unique wf hrange hrange' here here'
    exact behind
  done hdone := by
    rw [active] at hdone
    cases hdone

/-- A loop back takes no gate back that stands before its target. -/
theorem not_goesBack_of_lt {ed : Ed25519} {i' j' : Nat} {time : Time} {fromSub : String}
    {n : UInt32} {payload : Json} (wf : engine.profile.WellFormed ed)
    (hk : engine.profile.InRange i k) (hj' : engine.profile.InRange i' j')
    (hlt : i' < i ∨ i' = i ∧ j' < k) :
    ¬GoesBack engine i' j' (eventAt time sid
      (.macroLoopedBack fromSub (engine.profile.place i k).subStateId n)
      (engine.profile.place i k) payload) := by
  rintro ⟨k', hle, hstep, hsub⟩
  obtain ⟨rfl, rfl⟩ := place_inj wf hk ⟨hj'.macroIdx, Nat.lt_of_le_of_lt hle hj'.subIdx⟩
    (place_eq_of_stepId (Option.some.inj hstep) hsub)
  omega

/-- **One step keeps the gates signed off.** -/
theorem Clears.step {ed : Ed25519} {host : Host} {call : Call} {c d : Snapshot}
    (wf : engine.profile.WellFormed ed) (anchor : AnchorHolds engine sid c)
    (h : Clears engine sid c) (hstep : Step engine host sid call c d) : Clears engine sid d := by
  have anchor' := anchor.step wf hstep
  cases hstep with
  | unborn | abort | arrive | strike | recover => exact h.silent nofun
  -- nothing enabled stands before the entry point
  | @start ctx m k pos t live es hcall entry hpos =>
    obtain ⟨rfl, hk, hlen⟩ := entryPoint_ok entry
    have hfirst := wf.firstEnabled hlen hk
    subst hpos
    refine (Clears.iff_live anchor').mpr ⟨.underway wf (.of_enabled hlen hfirst.here) rfl rfl ?_,
      nofun⟩
    rintro i' j' gate (hlt | ⟨rfl, hlt⟩)
    · exact absurd hlt (Nat.not_lt_zero i')
    · exact absurd (eq_of_firstEnabled hfirst gate.1 hlt.le) hlt.ne
  | issue here hpos gate minted => exact h.stay anchor anchor' nofun nofun rfl id nofun
  -- a gate is left behind its approval, and nothing enabled is skipped
  | @advance s pos i j k next t es stage placed hstage hk hnext =>
    obtain ⟨hi, hj, hplace⟩ := locate_ok placed.located
    have hnextEnabled := wf.nextEnabled ⟨hi, hj⟩ (not_checklist_of_advance hstage)
    obtain ⟨hcleared, hspent⟩ := (Clears.iff_live anchor).mp h
    have here := placed.here.trans (congrArg some hplace)
    have upTo := hcleared.upTo ⟨hi, hj⟩ here fun gate => by
      rcases hstage with ⟨-, ungated, -⟩ | ⟨hs, -⟩
      · exact absurd gate ungated
      · exact hspent hs i j gate here
    subst hk hnext
    refine (Clears.iff_live anchor').mpr ⟨.underway wf (.of_enabled hi hnextEnabled.here) rfl
      placed.active ?_, nofun⟩
    intro i' j' gate hlt
    refine (upTo i' j' gate ?_).concat (not_goesBack nofun nofun)
    rcases hlt with hlt | ⟨rfl, hlt⟩
    · exact Or.inl hlt
    · exact Or.inr ⟨rfl, (le_of_nextEnabled hnextEnabled gate.1 hlt.le).resolve_right hlt.ne⟩
  -- the approval that has just been ledgered stands
  | @approve s pos i j signature nonce evidence output t es placed hcall gate verdict =>
    obtain ⟨hi, hj, hplace⟩ := locate_ok placed.located
    obtain ⟨hcleared, -⟩ := (Clears.iff_live anchor).mp h
    refine (Clears.iff_live anchor').mpr ⟨hcleared.snoc nofun nofun rfl id, ?_⟩
    intro _ i₁ j₁ gate₁ here₁
    obtain ⟨rfl, rfl⟩ := located_unique wf placed.here placed.located
      (Profile.inRange_of_typeAt (by rw [gate₁]; decide)) here₁
    obtain ⟨-, -, pubkey, hkey, hverify⟩ := check_accepted verdict
    rw [hplace] at hverify
    exact .of_did ⟨nonce, signature, pubkey, by rw [hplace]; rfl, hkey, hverify⟩
  | refuse placed hcall gate verdict => exact h.stay anchor anchor' nofun nofun rfl id nofun
  | trip active here hstage => exact h.stay anchor anchor' nofun nofun rfl nofun nofun
  | reject placed hcall checklist hmissing =>
    exact h.stay anchor anchor' nofun nofun rfl id nofun
  -- what stands before the loop's target has not been undone
  | @loopBack s pos i j k target t es placed checklist hloops hk htarget =>
    obtain ⟨hi, hj, hplace⟩ := locate_ok placed.located
    have hrange : engine.profile.InRange i k := .of_loopTarget hi hk
    obtain ⟨hcleared, -⟩ := (Clears.iff_live anchor).mp h
    have upTo := hcleared.upTo ⟨hi, hj⟩ (placed.here.trans (congrArg some hplace)) fun gate => by
      rw [checklist] at gate
      cases gate
    subst htarget
    refine (Clears.iff_live anchor').mpr ⟨.underway wf hrange rfl placed.active ?_, nofun⟩
    intro i' j' gate hlt
    refine (upTo i' j' gate ?_).concat (not_goesBack_of_lt wf hrange gate.1.inRange hlt)
    exact hlt.imp_right fun ⟨hi', hlt⟩ =>
      ⟨hi', hlt.le.trans (le_checklist wf ⟨hi, hj⟩ checklist hrange)⟩
  | pass placed hcall checklist hmet => exact h.stay anchor anchor' nofun nofun rfl id nofun
  | @nextMacro s pos i j k next t es placed checklist hlast hk hnext =>
    obtain ⟨hi, hj, hplace⟩ := locate_ok placed.located
    have hfirst := wf.firstEnabled hlast hk
    obtain ⟨hcleared, -⟩ := (Clears.iff_live anchor).mp h
    have upTo := hcleared.upTo ⟨hi, hj⟩ (placed.here.trans (congrArg some hplace)) fun gate => by
      rw [checklist] at gate
      cases gate
    subst hnext
    refine (Clears.iff_live anchor').mpr ⟨.underway wf (.of_enabled hlast hfirst.here) rfl
      placed.active ?_, nofun⟩
    intro i' j' gate hlt
    refine (upTo i' j' gate ?_).concat (not_goesBack nofun nofun)
    rcases hlt with hlt | ⟨rfl, hlt⟩
    · refine (Nat.lt_succ_iff_lt_or_eq.mp hlt).imp_right ?_
      rintro rfl
      exact ⟨rfl, le_checklist wf ⟨hi, hj⟩ checklist gate.1.inRange⟩
    · exact absurd (eq_of_firstEnabled hfirst gate.1 hlt.le) hlt.ne
  -- a completed session has every gate behind it
  | @complete s pos i j path digest t es placed checklist hlast =>
    obtain ⟨hi, hj, hplace⟩ := locate_ok placed.located
    obtain ⟨hcleared, -⟩ := (Clears.iff_live anchor).mp h
    have upTo := hcleared.upTo ⟨hi, hj⟩ (placed.here.trans (congrArg some hplace)) fun gate => by
      rw [checklist] at gate
      cases gate
    refine (Clears.iff_live anchor').mpr ⟨⟨nofun, fun _ i' j' gate => ?_⟩, nofun⟩
    have hi' : i' < i + 1 := Nat.lt_of_lt_of_eq gate.1.macroIdx hlast.symm
    refine (upTo i' j' gate ?_).concat (not_goesBack nofun nofun)
    refine (Nat.lt_succ_iff_lt_or_eq.mp hi').imp_right ?_
    rintro rfl
    exact ⟨rfl, le_checklist wf ⟨hi, hj⟩ checklist gate.1.inRange⟩
  | violate placed checklist => exact h.stay anchor anchor' nofun nofun rfl id nofun
  | store active hcall => exact h.stay anchor anchor' nofun nofun rfl id nofun

end

/-- Nothing is lost of the ledger in a crash. -/
theorem AnchorHolds.dies {c : Snapshot} (h : AnchorHolds engine sid c) :
    AnchorHolds engine sid ⟨none, c.events, .ready⟩ := by
  rcases h with ⟨-, hnil⟩ | ⟨s, e, hfold, hlast, hsaid, -⟩
  · exact Or.inl ⟨rfl, hnil⟩
  · exact Or.inr ⟨s, e, hfold, hlast, hsaid, nofun⟩

end ProfileFsmEngine

end ProtocolEnforcer
