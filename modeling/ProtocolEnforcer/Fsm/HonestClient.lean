import Mathlib.Data.List.Dedup
import ProtocolEnforcer.Fsm.Gate
import ProtocolEnforcer.Fsm.NeverStuck
import ProtocolEnforcer.Notary.Seal

/-!
# An honest client finishes

What a client has to do at its session's position: at a checklist, evidence for each
criterion; at a gate, the approver's signature over the session's challenge; anywhere else,
anything. From every reachable state such a client completes the session, in as many
submissions as there are enabled sub-states from its position on.
-/

namespace ProtocolEnforcer

/-! ## The way to the end -/

/-- The enabled sub-states of a macro from index `j` on. -/
def StateDef.enabledFrom (m : StateDef) (j : Nat) : Nat := (m.subStates.drop j).countP (·.enabled)

/-- The submissions from sub-state `j` of macro `i` on: one there, and one at each enabled
sub-state behind it. -/
def Profile.toGo (p : Profile) (i j : Nat) : Nat :=
  1 + (p.stateAt i).enabledFrom (j + 1) + ((p.pipeline.drop (i + 1)).map (·.enabledFrom 0)).sum

section

variable {m : StateDef} {j k : Nat}

/-- Up to the next enabled sub-state there is that one. -/
theorem StateDef.enabledFrom_next (hjk : j ≤ k)
    (here : ∃ sub, m.subStates[k]? = some sub ∧ sub.enabled = true)
    (skips : ∀ l sub, j ≤ l → l < k → m.subStates[l]? = some sub → sub.enabled = false) :
    m.enabledFrom j = 1 + m.enabledFrom (k + 1) := by
  -- by the number of disabled sub-states in between
  induction hjk using Nat.decreasingInduction with
  | self =>
    obtain ⟨sub, hsub, henabled⟩ := here
    obtain ⟨hk, rfl⟩ := List.getElem?_eq_some_iff.mp hsub
    rw [enabledFrom, List.drop_eq_getElem_cons hk, List.countP_cons_of_pos henabled, enabledFrom,
      Nat.add_comm]
  | of_succ j hjk ih =>
    obtain ⟨sub, hsub, -⟩ := here
    have hj : j < m.subStates.length :=
      Nat.lt_trans hjk (List.getElem?_eq_some_iff.mp hsub).1
    have hoff := skips j _ (Nat.le_refl j) hjk (List.getElem?_eq_getElem hj)
    rw [enabledFrom, List.drop_eq_getElem_cons hj, List.countP_cons_of_neg (by rw [hoff]; decide)]
    exact ih fun l sub hl => skips l sub (Nat.le_of_succ_le hl)

theorem NextEnabled.enabledFrom (h : NextEnabled m j k) :
    m.enabledFrom (j + 1) = 1 + m.enabledFrom (k + 1) :=
  m.enabledFrom_next h.lt h.here h.skips

theorem FirstEnabled.enabledFrom (h : FirstEnabled m k) :
    m.enabledFrom 0 = 1 + m.enabledFrom (k + 1) :=
  m.enabledFrom_next (Nat.zero_le k) h.here fun l sub _ => h.skips l sub

end

namespace Profile

variable {p : Profile} {ed : Ed25519} {i j k : Nat}

/-- Moving on within a macro is one submission, -/
theorem toGo_next (h : NextEnabled (p.stateAt i) j k) : p.toGo i j = p.toGo i k + 1 := by
  rw [toGo, toGo, h.enabledFrom]
  omega

/-- so is entering the next one, -/
theorem toGo_nextMacro (wf : p.WellFormed ed) (hrange : p.InRange i j)
    (hty : p.typeAt i j = .checklist) (hlen : i + 1 < p.pipeline.length)
    (h : FirstEnabled (p.stateAt (i + 1)) k) : p.toGo i j = p.toGo (i + 1) k + 1 := by
  have hend : (p.stateAt i).enabledFrom (j + 1) = 0 := by
    rw [StateDef.enabledFrom, (wf.checklist_iff hrange).mp hty, List.drop_length]
    rfl
  rw [toGo, hend, List.drop_eq_getElem_cons hlen, List.map_cons, List.sum_cons,
    getElem_stateAt hlen, h.enabledFrom, toGo]
  omega

/-- and the last checklist is the last one. -/
theorem toGo_last (wf : p.WellFormed ed) (hrange : p.InRange i j)
    (hty : p.typeAt i j = .checklist) (hlast : i = p.pipeline.length - 1) : p.toGo i j = 1 := by
  have hlen := hrange.macroIdx
  have hall : p.pipeline.drop (i + 1) = [] := List.drop_of_length_le (by omega)
  rw [toGo, StateDef.enabledFrom, (wf.checklist_iff hrange).mp hty, List.drop_length, hall]
  rfl

theorem toGo_pos : 0 < p.toGo i j := by
  rw [toGo]
  omega

end Profile

/-! ## What the client submits -/

/-- Every criterion ticked off. -/
def ChecklistEvidence.ticked (criteria : List String) : ChecklistEvidence where
  entries := criteria.dedup.map fun c => (c, .bool true)
  nodup := by
    rw [List.map_map]
    exact (List.map_id _).symm ▸ List.nodup_dedup criteria

/-- A signature under the gate's evidence key. -/
def ChecklistEvidence.approval (signature : String) : ChecklistEvidence where
  entries := [(approvalEvidenceKey, .string signature)]
  nodup := List.nodup_singleton _

theorem lookup_map_pair {α β : Type} [DecidableEq α] {b : β} {a : α} {xs : List α} (h : a ∈ xs) :
    (xs.map fun x => (x, b)).lookup a = some b := by
  induction xs with
  | nil => cases h
  | cons x xs ih =>
    rw [List.map_cons, List.lookup_cons]
    by_cases heq : a = x
    · rw [beq_iff_eq.mpr heq]
    · rw [beq_eq_false_iff_ne.mpr heq]
      exact ih ((List.mem_cons.mp h).resolve_left heq)

theorem missingCriteria_ticked (criteria : List String) :
    missingCriteria criteria (.ticked criteria) = [] := by
  rw [missingCriteria_eq_nil]
  intro c hc
  exact ⟨.bool true, lookup_map_pair (List.mem_dedup.mpr hc), rfl⟩

/-- A signature in hex is submitted as it is. -/
theorem submittedSignature_approval {signature : Bytes} (h : signature ≠ []) :
    submittedSignature (.approval (toHex signature)) = some (toHex signature) := by
  have hget : (ChecklistEvidence.approval (toHex signature)).get approvalEvidenceKey =
      some (.string (toHex signature)) := by
    rw [ChecklistEvidence.get, ChecklistEvidence.approval, List.lookup_cons, beq_self_eq_true]
  have hsome : toHex signature ≠ "" := by
    intro hempty
    have hread := fromHex_toHex signature
    rw [hempty] at hread
    exact h (Option.some.inj hread).symm
  rw [submittedSignature, hget, Option.bind_some, Json.asStr, Option.map_some,
    trim_digits digits_toHex, Option.filter_some, if_pos (decide_eq_true hsome)]

namespace ProfileFsmEngine

variable (engine : ProfileFsmEngine) (keys : SigningKeys) (seeds : Position → Bytes) (sid : String)

/-- What an honest client submits at its session's position: the gate's approver signs with
the seed it has for that position. -/
def honestEvidence (s : SessionState) (pos : Position) : ChecklistEvidence :=
  match locate engine pos with
  | .error _ => .empty
  | .ok (i, j) =>
    match engine.profile.typeAt i j, s.pendingApproval with
    | .checklist, _ => .ticked (criteriaAt engine i j)
    | .humanApproval, some c =>
      .approval (signApproval keys (seeds pos) sid c.macroId c.subStateId c.challenge)
    | _, _ => .empty

/-- One turn of an honest client: a submission at the session's position, with the output that
is completed with. -/
def turn (w : World SessionLedger) (x : Host × Option Json) : World SessionLedger :=
  match w.sessions sid with
  | none => w
  | some s =>
    match s.position with
    | none => w
    | some pos =>
      (perform engine sid x.1 (.submit pos (honestEvidence engine keys seeds sid s pos) x.2) w).2

/-- The approvers hold the seeds of the gates' keys. -/
def HoldsSeeds : Prop :=
  ∀ i j, engine.profile.typeAt i j = .humanApproval →
    (seeds (engine.profile.place i j)).length = 32 ∧
    ∃ pubkey, ((engine.profile.stateAt i).subAt j).approverPubkey = some pubkey ∧
      verifyingKeyFromHex engine.vendor.ed pubkey =
        some (keys.verifyingKey (seeds (engine.profile.place i j)))

/-- What a turn relies on: references resolve, the nonce is new, the session is in time, its
artifacts are intact, and the output meets the contract. -/
structure Hospitable (w : World SessionLedger) (x : Host × Option Json) : Prop where
  serves : Serves engine x.1
  fresh : MintsFresh x.1 w.ledger.events
  inTime : ∀ s, w.sessions sid = some s →
    timedOut engine (elapsedSeconds s.startedAt (x.1.clock w.ticks)) = false
  intact : ∀ s, w.sessions sid = some s → verifySessionArtifacts engine x.1 sid (some s) = .ok ()
  meets : ∃ written, contractResult engine x.1 sid x.2 = .ok written

/-- `n` turns are left to the session. -/
def TurnsLeft (w : World SessionLedger) (n : Nat) : Prop :=
  ∃ s, w.sessions sid = some s ∧
    (n = 0 ∧ s.status = .completed ∨
      s.status = .active ∧ ∃ i j, engine.profile.InRange i j ∧
        s.position = some (engine.profile.place i j) ∧ n = engine.profile.toGo i j)

variable {engine keys seeds sid} {ed : Ed25519} {host : Host} {s : SessionState} {i j : Nat}
  {w : World SessionLedger} {library : Library}

section

variable (wf : engine.profile.WellFormed ed) (hrange : engine.profile.InRange i j)
include wf hrange

theorem honestEvidence_checklist (hty : engine.profile.typeAt i j = .checklist) :
    honestEvidence engine keys seeds sid s (engine.profile.place i j) =
      .ticked (criteriaAt engine i j) := by
  unfold honestEvidence
  rw [locate_place wf hrange]
  dsimp only
  rw [hty]

/-- What is submitted at a gate is accepted. -/
theorem verdictAt_honest (hkeys : keys.Lawful engine.vendor.ed)
    (hseeds : HoldsSeeds engine keys seeds) (gate : engine.profile.typeAt i j = .humanApproval)
    {nonce : String} (hpending : s.pendingApproval = some
      ⟨(engine.profile.place i j).macroId, (engine.profile.place i j).subStateId, nonce⟩) :
    verdictAt engine sid s (engine.profile.place i j) i j
        (honestEvidence engine keys seeds sid s (engine.profile.place i j)) =
      .accepted (signApproval keys (seeds (engine.profile.place i j)) sid
        (engine.profile.place i j).macroId (engine.profile.place i j).subStateId nonce) nonce := by
  obtain ⟨hlength, pubkey, hkey, hpoint⟩ := hseeds i j gate
  have hevidence : honestEvidence engine keys seeds sid s (engine.profile.place i j) =
      .approval (signApproval keys (seeds (engine.profile.place i j)) sid
        (engine.profile.place i j).macroId (engine.profile.place i j).subStateId nonce) := by
    unfold honestEvidence
    rw [locate_place wf hrange]
    dsimp only
    rw [gate, hpending]
  rw [verdictAt, hpending, hevidence]
  refine check_of_verify (submittedSignature_approval ?_) hkey ?_
  · rw [← List.length_pos_iff, hkeys.sign_length _ _ hlength]
    decide
  · unfold verifyApprovalHex signApproval
    rw [hpoint, signatureFromHex_toHex hkeys hlength]
    exact hkeys.verifies _ _ hlength

end

/-! ## A turn -/

/-- A landing leaves the session active at its new position. -/
theorem Landing.turnsLeft {i' j' : Nat} {initialContext : Option Json}
    {out : Except FsmError (Position × RenderedInjection) × World SessionLedger}
    (land : Landing engine host sid i' j' initialContext w s out) (hs : w.sessions sid = some s)
    (active : s.status = .active) (hrange : engine.profile.InRange i j)
    (here : s.position = some (engine.profile.place i j)) :
    TurnsLeft engine sid out.2 (engine.profile.toGo i j) := by
  cases land with
  | unlandable | arrived | unchallenged =>
    exact ⟨s, hs, Or.inr ⟨active, i, j, hrange, here, rfl⟩⟩
  | challenged =>
    exact ⟨_, World.setSession_sessions_self _ _ _, Or.inr ⟨active, i, j, hrange, here, rfl⟩⟩

theorem Advance.turnsLeft {pos : Position} {out : Except FsmError StepOutcome × World SessionLedger}
    (wf : engine.profile.WellFormed ed) (hledger : w.ledger.Reliable)
    (adv : Advance engine host sid i j pos w s out) (active : s.status = .active)
    (hrange : engine.profile.InRange i j) (hty : engine.profile.typeAt i j ≠ .checklist) :
    TurnsLeft engine sid out.2 (engine.profile.toGo i j - 1) := by
  cases adv with
  | refused refused => exact hledger.elim refused
  | @moved k next f out taken hk hnext land =>
    have hafter := wf.nextEnabled hrange hty
    rw [← hk] at hafter
    subst hnext
    rw [Profile.toGo_next hafter, Nat.add_sub_cancel]
    exact land.turnsLeft (World.setSession_sessions_self _ _ _) active
      (.of_enabled hrange.macroIdx hafter.here) rfl

/-- **What an honest client submits is taken**, and brings the session one turn on. -/
theorem Handling.turnsLeft {output : Option Json}
    {out : Except FsmError StepOutcome × World SessionLedger} (wf : engine.profile.WellFormed ed)
    (hledger : w.ledger.Reliable) (hkeys : keys.Lawful engine.vendor.ed)
    (hseeds : HoldsSeeds engine keys seeds)
    (handling : Handling engine host sid (engine.profile.place i j)
      (honestEvidence engine keys seeds sid s (engine.profile.place i j)) output w s out)
    (active : s.status = .active) (hrange : engine.profile.InRange i j)
    (hpending : engine.profile.typeAt i j = .humanApproval → ∃ nonce, s.pendingApproval = some
      ⟨(engine.profile.place i j).macroId, (engine.profile.place i j).subStateId, nonce⟩)
    (intact : verifySessionArtifacts engine host sid (some s) = .ok ())
    (meets : ∃ written, contractResult engine host sid output = .ok written) :
    TurnsLeft engine sid out.2 (engine.profile.toGo i j - 1) := by
  cases handling with
  | lost hroute =>
    have hlost := routeAt_eq hroute
    exact absurd ((locate_place wf hrange).symm.trans hlost) nofun
  | plain hroute advance =>
    obtain ⟨hlocate, -, hty⟩ := routeAt_eq hroute
    obtain ⟨rfl, rfl⟩ := indices_of_locate wf hrange hlocate
    exact advance.turnsLeft wf hledger active hrange hty
  | approved hroute accept =>
    obtain ⟨hlocate, gate, -⟩ := routeAt_eq hroute
    obtain ⟨rfl, rfl⟩ := indices_of_locate wf hrange hlocate
    cases accept with
    | refused refused => exact hledger.elim refused
    | accepted taken advance =>
      exact advance.turnsLeft (w := approvedAt ..) wf hledger active hrange (by rw [gate]; decide)
  | passed hroute advance =>
    obtain ⟨hlocate, checklist, -, hlast⟩ := routeAt_eq hroute
    obtain ⟨rfl, rfl⟩ := indices_of_locate wf hrange hlocate
    have hlen : i + 1 < engine.profile.pipeline.length := by
      have := hrange.macroIdx
      omega
    cases advance with
    | refused refused => exact hledger.elim refused
    | stranded _ _ refused => exact hledger.elim refused
    | unentered taken none =>
      obtain ⟨k, hk, -⟩ := firstEnabledIndex_spec (wf.stateAt hlen)
      exact absurd (none.symm.trans hk) nofun
    | @moved k next f out taken hk hnext taken' land =>
      have hfirst := wf.firstEnabled hlen hk
      subst hnext
      rw [Profile.toGo_nextMacro wf hrange checklist hlen hfirst, Nat.add_sub_cancel]
      exact land.turnsLeft (World.setSession_sessions_self _ _ _) active
        (.of_enabled hlen hfirst.here) rfl
  | final hroute complete =>
    obtain ⟨hlocate, checklist, -, hlast⟩ := routeAt_eq hroute
    obtain ⟨rfl, rfl⟩ := indices_of_locate wf hrange hlocate
    obtain ⟨written, meets⟩ := meets
    cases complete with
    | unverified fails => exact absurd (intact.symm.trans fails) nofun
    | violated _ fails => exact absurd (meets.symm.trans fails) nofun
    | untraced _ _ refused => exact hledger.elim refused
    | refused _ _ refused => exact hledger.elim refused
    | stranded _ _ _ refused => exact hledger.elim refused
    | completed =>
      rw [Profile.toGo_last wf hrange checklist hlast]
      exact ⟨_, World.setSession_sessions_self _ _ _, Or.inl ⟨rfl, rfl⟩⟩
  | rejected hroute reject =>
    obtain ⟨hlocate, checklist, hmissing, hne⟩ := routeAt_eq hroute
    obtain ⟨rfl, rfl⟩ := indices_of_locate wf hrange hlocate
    rw [honestEvidence_checklist wf hrange checklist, missingCriteria_ticked] at hmissing
    exact absurd hmissing hne
  | unapproved hroute refuse =>
    obtain ⟨hlocate, gate, hverdict⟩ := routeAt_eq hroute
    obtain ⟨rfl, rfl⟩ := indices_of_locate wf hrange hlocate
    obtain ⟨nonce, hpending⟩ := hpending gate
    exact absurd ((verdictAt_honest wf hrange hkeys hseeds gate hpending).symm.trans hverdict) nofun

/-- At a gate a safe session holds that gate's challenge. -/
theorem GateSafe.pending_at (h : GateSafe engine sid w) (hs : w.sessions sid = some s)
    (here : s.position = some (engine.profile.place i j))
    (gate : engine.profile.typeAt i j = .humanApproval) :
    ∃ nonce, s.pendingApproval = some
      ⟨(engine.profile.place i j).macroId, (engine.profile.place i j).subStateId, nonce⟩ := by
  obtain ⟨hiff, hplace⟩ := h.pending hs
  obtain ⟨c, hc⟩ := Option.isSome_iff_exists.mp (hiff.mpr ⟨i, j, gate, here⟩)
  obtain ⟨hpos, -⟩ := hplace c hc
  refine ⟨c.challenge, ?_⟩
  rw [hc, Option.some.inj (here.symm.trans hpos)]

/-- The call of a turn. -/
theorem turn_eq {x : Host × Option Json} {pos : Position} (hs : w.sessions sid = some s)
    (here : s.position = some pos) :
    turn engine keys seeds sid w x =
      (perform engine sid x.1 (.submit pos (honestEvidence engine keys seeds sid s pos) x.2) w).2 := by
  rw [turn, hs]
  dsimp only
  rw [here]

/-- Between turns: a session that a turn is left to, in a world where gates are safe. -/
structure Driven (engine : ProfileFsmEngine) (sid : String) (w : World SessionLedger) (n : Nat) :
    Prop where
  safe : GateSafe engine sid w
  reliable : w.ledger.Reliable
  left : TurnsLeft engine sid w n

/-- **One turn.** -/
theorem Driven.turn {x : Host × Option Json} {n : Nat} (wf : engine.profile.WellFormed ed)
    (hkeys : keys.Lawful engine.vendor.ed) (hseeds : HoldsSeeds engine keys seeds)
    (h : Driven engine sid w (n + 1)) (hx : Hospitable engine sid w x) :
    Driven engine sid (ProfileFsmEngine.turn engine keys seeds sid w x) n := by
  obtain ⟨s, hs, ⟨hn, -⟩ | ⟨active, i, j, hrange, here, hn⟩⟩ := h.left
  · cases hn
  rw [turn_eq hs here]
  refine ⟨h.safe.after wf h.reliable ⟨hx.serves, hx.fresh⟩, perform_reliable h.reliable, ?_⟩
  have submission : Submission engine x.1 sid (engine.profile.place i j)
      (honestEvidence engine keys seeds sid s (engine.profile.place i j)) x.2 w
      (Effect.exec (submitMilestone engine x.1 sid (engine.profile.place i j)
        (honestEvidence engine keys seeds sid s (engine.profile.place i j)) x.2) w) :=
    exec_submitMilestone
  have hcheck : checkSubmission sid (engine.profile.place i j) (w.sessions sid) = .ok s :=
    checkSubmission_ok.mpr ⟨hs, active, here⟩
  unfold perform
  dsimp only
  generalize Effect.exec (submitMilestone engine x.1 sid _ _ x.2) w = out at submission
  cases submission with
  | refused fails => exact absurd (hcheck.symm.trans fails) nofun
  | late hc hlate =>
    cases Except.ok.inj (hcheck.symm.trans hc)
    exact absurd ((hx.inTime s hs).symm.trans hlate) nofun
  | handled hc hlate handling =>
    cases Except.ok.inj (hcheck.symm.trans hc)
    have hleft := handling.turnsLeft (w := w.tick) wf h.reliable hkeys hseeds active hrange
      (h.safe.pending_at hs here) (hx.intact s hs) hx.meets
    rwa [← hn, Nat.add_sub_cancel] at hleft

/-- Turns until none is left. -/
theorem Driven.turns {turns : List (Host × Option Json)} {n : Nat}
    (wf : engine.profile.WellFormed ed) (hkeys : keys.Lawful engine.vendor.ed)
    (hseeds : HoldsSeeds engine keys seeds) (h : Driven engine sid w (turns.length + n))
    (hturns : Runs.Along (ProfileFsmEngine.turn engine keys seeds sid) (Hospitable engine sid) w turns) :
    Driven engine sid (turns.foldl (ProfileFsmEngine.turn engine keys seeds sid) w) n := by
  induction turns generalizing w with
  | nil => exact (Nat.zero_add n).symm ▸ h
  | cons x rest ih =>
    have h : Driven engine sid w (rest.length + n + 1) := by
      rwa [List.length_cons, Nat.succ_add] at h
    exact ih (h.turn wf hkeys hseeds hturns.1) hturns.2

/-! ## Runs -/

variable {vendor : Vendor} {p : Profile} {config : FsmConfig} {calls : List (Host × Call)}

/-- The active session of a run stands at a sub-state of the profile. -/
theorem inRange_of_run (wf : engine.profile.WellFormed ed) (hfresh : w.Fresh sid)
    (hledger : w.ledger.Reliable) (hs : (runCalls engine sid w calls).sessions sid = some s)
    (active : s.status = .active) :
    ∃ i j, engine.profile.InRange i j ∧ s.position = some (engine.profile.place i j) := by
  have hacts : (calls.map fun x => Act.call x.1 x.2).foldl (occur engine sid) w =
      runCalls engine sid w calls := List.foldl_map
  have hwhole : ∀ x ∈ calls.map fun x => Act.call x.1 x.2, Whole x :=
    List.forall_mem_map.mpr fun _ _ => trivial
  have hsound := (sound_of_fresh hfresh hledger).run wf hwhole
  rw [hacts] at hsound
  obtain ⟨i, j, within⟩ := hsound.audited.liveWithin hsound.agrees s hs active
  exact ⟨i, j, within.inRange, within.here⟩

/-- **An honest client finishes.** In every run from a fresh world in which appends, library
lookups and minting succeed, whatever was submitted: an active session stands at a sub-state of
the profile, and as long as it is in time, its artifacts are intact and the output meets the
contract, a client with the approvers' keys completes it in exactly as many submissions as
there are enabled sub-states from there on. -/
theorem honest_client_completes (hvalid : validateProfile vendor.toSchemas library p = .ok ())
    (hfresh : w.Fresh sid) (hledger : w.ledger.Reliable)
    (hcalls : Along (new vendor p config) sid (Sustained (new vendor p config) sid) w calls)
    (hkeys : keys.Lawful vendor.ed) (hseeds : HoldsSeeds (new vendor p config) keys seeds)
    (hs : (runCalls (new vendor p config) sid w calls).sessions sid = some s)
    (active : s.status = .active) :
    let engine := new vendor p config
    let w' := runCalls engine sid w calls
    ∃ i j, engine.profile.InRange i j ∧ s.position = some (engine.profile.place i j) ∧
      ∀ turns, turns.length ≤ engine.profile.toGo i j →
        Runs.Along (turn engine keys seeds sid) (Hospitable engine sid) w' turns →
        ∃ s', (turns.foldl (turn engine keys seeds sid) w').sessions sid = some s' ∧
          s'.status = if turns.length = engine.profile.toGo i j then .completed else .active := by
  have wf : (new vendor p config).profile.WellFormed vendor.ed := new_wellFormed hvalid
  obtain ⟨i, j, hrange, here⟩ := inRange_of_run wf hfresh hledger hs active
  refine ⟨i, j, hrange, here, fun turns hle hturns => ?_⟩
  have hdriven : Driven (new vendor p config) sid (runCalls (new vendor p config) sid w calls)
      (turns.length + ((new vendor p config).profile.toGo i j - turns.length)) := by
    rw [Nat.add_sub_cancel' hle]
    refine ⟨gateSafe_run hvalid hfresh hledger hcalls, ?_, s, hs,
      Or.inr ⟨active, i, j, hrange, here, rfl⟩⟩
    exact hcalls.invariant (I := fun w => w.ledger.Reliable)
      (fun _ _ _ h => perform_reliable h) hledger
  obtain ⟨s', hs', hend⟩ := (hdriven.turns wf hkeys hseeds hturns).left
  refine ⟨s', hs', ?_⟩
  rcases hend with ⟨hn, completed⟩ | ⟨active', i', j', -, -, hn⟩
  · rw [completed, if_pos (Nat.le_antisymm hle (Nat.sub_eq_zero_iff_le.mp hn))]
  · have hpos := (new vendor p config).profile.toGo_pos (i := i') (j := j')
    rw [active', if_neg (by omega)]

end ProfileFsmEngine

namespace Sample

open ProfileFsmEngine

def gateMessage : Bytes := bytesOf (approvalMessage "s1" "plan" "signoff" (toHex entropy))

def gateSignature : Bytes := (fromHex signature).getD []

/-- The gate's approver. -/
def approver : SigningKeys := signerOf gateMessage gateSignature

/-- The vendor in whose eyes the approver signs. -/
def signingVendor : Vendor := { vendor with ed := verifierOf gateMessage gateSignature }

def signedEngine : ProfileFsmEngine :=
  .new signingVendor (profile [draft, signoff, checklist]) config

/-- The approver's seed, for every gate. -/
def seeds (_ : Position) : Bytes := (fromHex seedHex).getD []

/-- Started, with the draft to do. -/
def draftDue : World SessionLedger :=
  runCalls signedEngine "s1" (world fun _ => .ok ()) [(hostWith 0, .start none)]

/-- A draft, a signature and a checklist. -/
def threeTurns : List (Host × Option Json) := [(host, none), (hostWith 1, none), (hostWith 2, none)]

theorem signedEngine_serves {host : Host} (hb : ∃ bytes, host.getrandom = .ok bytes) :
    Serves signedEngine host := by
  have hserves : Serves (engine [draft, signoff, checklist]) host := serves (by decide) hb
  obtain ⟨skill, «protocol», entropy⟩ := hserves
  exact ⟨skill, «protocol», entropy⟩

/-- The one gate is the approver's. -/
theorem holdsSeeds : HoldsSeeds signedEngine approver seeds := by
  intro i j gate
  rcases i with _ | i
  · rcases j with _ | _ | _ | j
    · cases gate
    · refine ⟨by decide, publicKey, rfl, ?_⟩
      decide +kernel
    · cases gate
    · cases gate
  · cases gate

theorem hospitable {w : World SessionLedger} {host : Host}
    (hb : ∃ bytes, host.getrandom = .ok bytes)
    (hw : MintsFresh host w.ledger.events ∧ ((w.sessions "s1").map fun s =>
      (timedOut signedEngine (elapsedSeconds s.startedAt (host.clock w.ticks)),
        verifySessionArtifacts signedEngine host "s1" (some s))) = some (false, .ok ())) :
    Hospitable signedEngine "s1" w (host, none) where
  serves := signedEngine_serves hb
  fresh := hw.1
  inTime s h := by
    have hs := hw.2
    rw [h] at hs
    exact congrArg Prod.fst (Option.some.inj hs)
  intact s h := by
    have hs := hw.2
    rw [h] at hs
    exact congrArg Prod.snd (Option.some.inj hs)
  meets := ⟨none, rfl⟩

end Sample

namespace ProfileFsmEngine

/-- Drafted, signed off and checked. -/
theorem honest_client_completes_signed :
    ((Sample.threeTurns.foldl (turn Sample.signedEngine Sample.approver Sample.seeds "s1")
      Sample.draftDue).sessions "s1").map (·.status) = some .completed := by
  have hvalid : validateProfile Sample.signingVendor.toSchemas Sample.library
      (Sample.profile [Sample.draft, Sample.signoff, Sample.checklist]) = .ok () := by
    decide +kernel
  have hcalls : Along Sample.signedEngine "s1" (Sustained Sample.signedEngine "s1")
      (Sample.world fun _ => .ok ()) [(Sample.hostWith 0, .start none)] := by
    refine ⟨⟨Sample.signedEngine_serves ⟨_, rfl⟩, ?_⟩, trivial⟩
    unfold MintsFresh
    decide +kernel
  have hturns : Runs.Along (turn Sample.signedEngine Sample.approver Sample.seeds "s1")
      (Hospitable Sample.signedEngine "s1") Sample.draftDue Sample.threeTurns := by
    refine ⟨Sample.hospitable ⟨_, rfl⟩ ?_, Sample.hospitable ⟨_, rfl⟩ ?_,
      Sample.hospitable ⟨_, rfl⟩ ?_, trivial⟩ <;>
      · unfold MintsFresh
        decide +kernel
  obtain ⟨s, hs, active⟩ : ∃ s, Sample.draftDue.sessions "s1" = some s ∧ s.status = .active := by
    have hstatus : (Sample.draftDue.sessions "s1").map (·.status) = some .active := by decide +kernel
    exact Option.map_eq_some_iff.mp hstatus
  obtain ⟨i, j, hrange, here, hfinish⟩ := honest_client_completes hvalid (Sample.world_fresh "s1" _)
    (fun _ => rfl) hcalls (Sample.signerOf_lawful (by decide +kernel)) Sample.holdsSeeds hs active
  have hplace : s.position = some (Sample.signedEngine.profile.place 0 0) := by
    have hposition : (Sample.draftDue.sessions "s1").bind (·.position) =
        some (Sample.signedEngine.profile.place 0 0) := by decide +kernel
    rwa [hs] at hposition
  obtain ⟨rfl, rfl⟩ := place_unique (new_wellFormed hvalid) hrange (by constructor <;> decide) here
    hplace
  obtain ⟨s', hs', hend⟩ := hfinish Sample.threeTurns (by decide) hturns
  rw [if_pos (by decide)] at hend
  unfold Sample.draftDue Sample.signedEngine Sample.approver
  rw [hs', Option.map_some, hend]

end ProfileFsmEngine

end ProtocolEnforcer
