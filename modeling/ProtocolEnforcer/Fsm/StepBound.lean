import Mathlib.Algebra.GroupWithZero.Nat
import Mathlib.Data.Prod.Lex
import ProtocolEnforcer.Fsm.Budgets
import ProtocolEnforcer.Fsm.Restart

/-!
# How long a session can go on

The steps left to a session, macro by macro: the macros behind its own, the rejections its
macro still allows, the sub-states in front of it on the way to the checklist, and the
refused approvals its gate still allows. Every submission that returns, or trips a breaker,
spends one of them, whatever is submitted.
-/

namespace ProtocolEnforcer

/-- The steps a macro allows: each of its passes meets each of its sub-states, and each gate
as often as its cap. -/
def StateDef.steps (m : StateDef) (cap : Nat) : Nat :=
  max 1 m.maxIterations.toNat * (m.subStates.length * cap)

/-- The steps a pipeline allows. -/
def Profile.steps (p : Profile) : Nat :=
  (p.pipeline.map (·.steps p.settings.approvalRejectionCap.toNat)).sum

/-! ## One pass -/

/-- The steps left of a pass over `n` sub-states at number `j`, after `a` refusals there. -/
def passLeft (n c j a : Nat) : Nat := (n - 1 - j) * c + (c - a)

section

variable {n c j k a b : Nat}

theorem passLeft_pos (ha : a < c) : 0 < passLeft n c j a := by
  rw [passLeft]
  omega

theorem passLeft_le (hj : j < n) : passLeft n c j a ≤ n * c := by
  have hmul : (n - 1 - j) * c + c ≤ n * c := by
    rw [← Nat.succ_mul]
    exact Nat.mul_le_mul_right c (by omega)
  rw [passLeft]
  omega

/-- A later sub-state has fewer steps in front of it. -/
theorem passLeft_next (hjk : j < k) (hk : k < n) (ha : a < c) :
    passLeft n c k b < passLeft n c j a := by
  have hmul : (n - 1 - k) * c + c ≤ (n - 1 - j) * c := by
    rw [← Nat.succ_mul]
    exact Nat.mul_le_mul_right c (by omega)
  rw [passLeft, passLeft]
  omega

/-- So has the same one after another refusal. -/
theorem passLeft_refused (ha : a < c) : passLeft n c j (a + 1) < passLeft n c j a := by
  rw [passLeft, passLeft]
  omega

end

namespace ProfileFsmEngine

variable (engine : ProfileFsmEngine) (sid : String)

/-- `approval_rejection_cap`. -/
abbrev cap : Nat := engine.profile.settings.approvalRejectionCap.toNat

/-- The steps of the macros from `i` on. -/
def stepsFrom (i : Nat) : Nat := ((engine.profile.pipeline.drop i).map (·.steps (cap engine))).sum

/-- The steps left to a session at these indices. -/
def stepsLeft (s : SessionState) (i j : Nat) : Nat :=
  stepsFrom engine (i + 1) +
    ((rejectionLimit engine i - 1 - s.macroIteration.toNat) *
        ((engine.profile.stateAt i).subStates.length * cap engine) +
      passLeft (engine.profile.stateAt i).subStates.length (cap engine) j
        s.consecutiveApprovalRejections.toNat)

variable {engine sid} {ed : Ed25519} {s s' : SessionState} {i j k : Nat}

theorem stepsFrom_eq (hi : i < engine.profile.pipeline.length) :
    stepsFrom engine i =
      rejectionLimit engine i * ((engine.profile.stateAt i).subStates.length * cap engine) +
        stepsFrom engine (i + 1) := by
  rw [stepsFrom, List.drop_eq_getElem_cons hi, List.map_cons, List.sum_cons, stepsFrom,
    Profile.getElem_stateAt hi]
  rfl

/-- A macro that is entered has no more than all its steps left. -/
theorem stepsLeft_entered (h : Within engine s i j) : stepsLeft engine s i j ≤ stepsFrom engine i := by
  have hpass := passLeft_le (c := cap engine)
    (a := s.consecutiveApprovalRejections.toNat) h.inRange.subIdx
  have hpasses : (rejectionLimit engine i - 1 - s.macroIteration.toNat) *
      ((engine.profile.stateAt i).subStates.length * cap engine) +
        (engine.profile.stateAt i).subStates.length * cap engine ≤
      rejectionLimit engine i * ((engine.profile.stateAt i).subStates.length * cap engine) := by
    rw [← Nat.succ_mul]
    have hpos : 0 < rejectionLimit engine i := rejectionLimit_pos i
    exact Nat.mul_le_mul_right _ (by omega)
  rw [stepsFrom_eq h.inRange.macroIdx, stepsLeft]
  omega

section

variable (hcap : engine.profile.settings.approvalRejectionCap ≠ 0)
include hcap

theorem Within.below_cap (h : Within engine s i j) :
    s.consecutiveApprovalRejections.toNat < cap engine :=
  UInt32.lt_iff_toNat_lt.mp (h.approvals hcap)

/-- A session below its cap counts one more refusal without wrapping. -/
theorem Within.bump_refusals (h : Within engine s i j) :
    (s.consecutiveApprovalRejections + 1).toNat = s.consecutiveApprovalRejections.toNat + 1 := by
  have hlt := h.below_cap hcap
  have hmax : cap engine < 2 ^ 32 := engine.profile.settings.approvalRejectionCap.toNat_lt
  rw [UInt32.toNat_add]
  exact Nat.mod_eq_of_lt (by show _ + 1 < 2 ^ 32; omega)

/-- Moving on within a macro spends a step. -/
theorem stepsLeft_moved (h : Within engine s i j) (h' : Within engine s' i k)
    (hjk : j < k) (hsame : s'.macroIteration = s.macroIteration) :
    stepsLeft engine s' i k < stepsLeft engine s i j := by
  have hpass := passLeft_next (b := s'.consecutiveApprovalRejections.toNat) hjk h'.inRange.subIdx
    (h.below_cap hcap)
  rw [stepsLeft, stepsLeft, hsame]
  omega

/-- So does leaving a macro for the next one, -/
theorem stepsLeft_nextMacro (h : Within engine s i j)
    (h' : Within engine s' (i + 1) k) : stepsLeft engine s' (i + 1) k < stepsLeft engine s i j := by
  have hpass := passLeft_pos (n := (engine.profile.stateAt i).subStates.length) (j := j)
    (h.below_cap hcap)
  have hentered := stepsLeft_entered h'
  rw [stepsLeft.eq_def engine s i j]
  omega

/-- a rejection, wherever in the macro it leads, -/
theorem stepsLeft_rejected (h : Within engine s i j) (h' : Within engine s' i k)
    (hcount : s'.macroIteration = s.macroIteration + 1) :
    stepsLeft engine s' i k < stepsLeft engine s i j := by
  have hpass := passLeft_pos (n := (engine.profile.stateAt i).subStates.length) (j := j)
    (h.below_cap hcap)
  have hpass' := passLeft_le (c := cap engine)
    (a := s'.consecutiveApprovalRejections.toNat) h'.inRange.subIdx
  have hbump : s'.macroIteration.toNat = s.macroIteration.toNat + 1 := by
    rw [hcount]
    exact h.bump
  have hiteration := h'.iteration
  have hpasses : (rejectionLimit engine i - 1 - s'.macroIteration.toNat) *
      ((engine.profile.stateAt i).subStates.length * cap engine) +
        (engine.profile.stateAt i).subStates.length * cap engine =
      (rejectionLimit engine i - 1 - s.macroIteration.toNat) *
        ((engine.profile.stateAt i).subStates.length * cap engine) := by
    rw [← Nat.succ_mul]
    congr 1
    omega
  rw [stepsLeft, stepsLeft]
  omega

/-- and a refused approval. -/
theorem stepsLeft_refused (h : Within engine s i j)
    (hsame : s'.macroIteration = s.macroIteration)
    (hcount : s'.consecutiveApprovalRejections = s.consecutiveApprovalRejections + 1) :
    stepsLeft engine s' i j < stepsLeft engine s i j := by
  have hlt := h.below_cap hcap
  have hbump : s'.consecutiveApprovalRejections.toNat =
      s.consecutiveApprovalRejections.toNat + 1 := by
    rw [hcount]
    exact h.bump_refusals hcap
  have hpass := passLeft_refused (n := (engine.profile.stateAt i).subStates.length) (j := j) hlt
  rw [stepsLeft, stepsLeft, hsame, hbump]
  omega

end

/-! ## What spends a step -/

variable (engine sid)

/-- A step of a session at sub-state `j` of macro `i`: to a later sub-state, to the next
macro, anywhere in the macro with one more rejection, nowhere with one more refusal, or to
its end. -/
inductive Spends (s : SessionState) (i j : Nat) (s' : SessionState) : Prop where
  | moved (k : Nat) (within : Within engine s' i k) (onward : j < k)
      (same : s'.macroIteration = s.macroIteration)
  | nextMacro (k : Nat) (within : Within engine s' (i + 1) k)
  | rejected (k : Nat) (within : Within engine s' i k)
      (count : s'.macroIteration = s.macroIteration + 1)
  | refused (within : Within engine s' i j) (same : s'.macroIteration = s.macroIteration)
      (count : s'.consecutiveApprovalRejections = s.consecutiveApprovalRejections + 1)
  | ended (inactive : s'.status ≠ .active)

/-- Macros, rejections, sub-states and refusals left to a session. -/
def leftOf (s : SessionState) : Nat ×ₗ Nat ×ₗ Nat ×ₗ Nat :=
  match s.status, s.position.map (locate engine) with
  | .active, some (.ok (i, j)) =>
    toLex (engine.profile.pipeline.length - i,
      toLex (rejectionLimit engine i - s.macroIteration.toNat,
        toLex ((engine.profile.stateAt i).subStates.length - j,
          cap engine - s.consecutiveApprovalRejections.toNat)))
  | _, _ => toLex (0, toLex (0, toLex (0, 0)))

/-- The same of the session in memory. -/
def left (w : World SessionLedger) : Nat ×ₗ Nat ×ₗ Nat ×ₗ Nat :=
  (w.sessions sid).elim (toLex (0, toLex (0, toLex (0, 0)))) (leftOf engine)

/-- The session in memory, if it is active, has no more than `n` steps left. -/
def AtMost (w : World SessionLedger) (n : Nat) : Prop :=
  ∀ s, w.sessions sid = some s → s.status = .active →
    ∃ i j, Within engine s i j ∧ stepsLeft engine s i j ≤ n

variable {engine sid}

theorem leftOf_within (wf : engine.profile.WellFormed ed) (h : Within engine s i j)
    (active : s.status = .active) :
    leftOf engine s = toLex (engine.profile.pipeline.length - i,
      toLex (rejectionLimit engine i - s.macroIteration.toNat,
        toLex ((engine.profile.stateAt i).subStates.length - j,
          cap engine - s.consecutiveApprovalRejections.toNat))) := by
  rw [leftOf, active, h.here, Option.map_some, locate_place wf h.inRange]

theorem leftOf_inactive (h : s.status ≠ .active) :
    leftOf engine s = toLex (0, toLex (0, toLex (0, 0))) := by
  unfold leftOf
  split
  · exact absurd ‹_› h
  · rfl

/-- **A step leaves fewer**, in the order macros, rejections, sub-states, refusals. -/
theorem Spends.leftOf_lt (wf : engine.profile.WellFormed ed)
    (hcap : engine.profile.settings.approvalRejectionCap ≠ 0) (hspends : Spends engine s i j s')
    (h : Within engine s i j) (active : s.status = .active) : leftOf engine s' < leftOf engine s := by
  have hi := h.inRange.macroIdx
  rw [leftOf_within wf h active]
  by_cases active' : s'.status = .active
  · cases hspends with
    | moved k within onward same =>
      have hk := within.inRange.subIdx
      rw [leftOf_within wf within active', same]
      refine Prod.Lex.toLex_lt_toLex.mpr (Or.inr ⟨rfl, Prod.Lex.toLex_lt_toLex.mpr
        (Or.inr ⟨rfl, Prod.Lex.toLex_lt_toLex.mpr (Or.inl ?_)⟩)⟩)
      dsimp only
      omega
    | nextMacro k within =>
      rw [leftOf_within wf within active']
      refine Prod.Lex.toLex_lt_toLex.mpr (Or.inl ?_)
      dsimp only
      omega
    | rejected k within count =>
      have hbump := h.bump
      have hlimit := h.iteration
      rw [leftOf_within wf within active', count, hbump]
      refine Prod.Lex.toLex_lt_toLex.mpr (Or.inr ⟨rfl, Prod.Lex.toLex_lt_toLex.mpr (Or.inl ?_)⟩)
      dsimp only
      omega
    | refused within same count =>
      have hbump := h.bump_refusals hcap
      have hlimit := h.below_cap hcap
      rw [leftOf_within wf within active', same, count, hbump]
      refine Prod.Lex.toLex_lt_toLex.mpr (Or.inr ⟨rfl, Prod.Lex.toLex_lt_toLex.mpr
        (Or.inr ⟨rfl, Prod.Lex.toLex_lt_toLex.mpr (Or.inr ⟨rfl, ?_⟩)⟩)⟩)
      dsimp only
      omega
    | ended inactive => exact absurd active' inactive
  · rw [leftOf_inactive active']
    refine Prod.Lex.toLex_lt_toLex.mpr (Or.inl ?_)
    dsimp only
    omega

/-- **And one fewer in all.** -/
theorem Spends.atMost (hcap : engine.profile.settings.approvalRejectionCap ≠ 0)
    (hspends : Spends engine s i j s') (h : Within engine s i j) {n : Nat}
    (hn : stepsLeft engine s i j ≤ n) {w : World SessionLedger} (hs' : w.sessions sid = some s') :
    0 < n ∧ AtMost engine sid w (n - 1) := by
  have hpos : 0 < stepsLeft engine s i j := by
    have := passLeft_pos (n := (engine.profile.stateAt i).subStates.length) (j := j)
      (h.below_cap hcap)
    rw [stepsLeft]
    omega
  refine ⟨Nat.lt_of_lt_of_le hpos hn, fun t ht active => ?_⟩
  rw [hs'] at ht
  cases ht
  suffices ∃ i' j', Within engine s' i' j' ∧ stepsLeft engine s' i' j' < stepsLeft engine s i j by
    obtain ⟨i', j', within, hlt⟩ := this
    exact ⟨i', j', within, by omega⟩
  cases hspends with
  | moved k within onward same => exact ⟨i, k, within, stepsLeft_moved hcap h within onward same⟩
  | nextMacro k within => exact ⟨i + 1, k, within, stepsLeft_nextMacro hcap h within⟩
  | rejected k within count => exact ⟨i, k, within, stepsLeft_rejected hcap h within count⟩
  | refused within same count => exact ⟨i, j, within, stepsLeft_refused hcap h same count⟩
  | ended inactive => exact absurd active inactive

/-! ## Calls -/

variable {host : Host} {pos : Position} {w : World SessionLedger}

/-- A landing changes none of what is counted but the refusals. -/
theorem Landing.kept {i' j' : Nat} {initialContext : Option Json}
    {out : Except FsmError (Position × RenderedInjection) × World SessionLedger}
    (land : Landing engine host sid i' j' initialContext w s out) (hs : w.sessions sid = some s)
    (h : Within engine s i j) :
    ∃ s', out.2.sessions sid = some s' ∧ Within engine s' i j ∧
      s'.macroIteration = s.macroIteration := by
  cases land with
  | unlandable | arrived | unchallenged => exact ⟨s, hs, h, rfl⟩
  | challenged => exact ⟨_, World.setSession_sessions_self _ _ _, h.park _, rfl⟩

theorem Advance.spends {out : Except FsmError StepOutcome × World SessionLedger}
    (wf : engine.profile.WellFormed ed) (hledger : w.ledger.Reliable)
    (adv : Advance engine host sid i j pos w s out) (h : Within engine s i j)
    (hty : engine.profile.typeAt i j ≠ .checklist) :
    ∃ s', out.2.sessions sid = some s' ∧ Spends engine s i j s' := by
  cases adv with
  | refused refused => exact hledger.elim refused
  | @moved k next f out taken hk hnext land =>
    have hafter := wf.nextEnabled h.inRange hty
    rw [← hk] at hafter
    subst hnext
    obtain ⟨s', hs', within, hsame⟩ := land.kept (World.setSession_sessions_self _ _ _)
      ((h.moved (.of_enabled h.inRange.macroIdx hafter.here)).congr rfl)
    exact ⟨s', hs', .moved k within hafter.lt hsame⟩

/-- A breaker that is ledgered ends the session. -/
theorem Tripped.ends {b : CircuitBreakerType}
    {out : Except FsmError StepOutcome × World SessionLedger} (hledger : w.ledger.Reliable)
    (trip : Tripped host sid b pos w s out) :
    ∃ s', out.2.sessions sid = some s' ∧ s'.status ≠ .active := by
  cases trip with
  | refused refused => exact hledger.elim refused
  | failed => exact ⟨_, World.setSession_sessions_self _ _ _, nofun⟩

/-- Whether a reply is one a step is made with: an outcome, or a tripped breaker. -/
def isStep {α : Type} : Except FsmError α → Bool
  | .ok _ => true
  | .error (.circuitBreaker _ _) => true
  | .error _ => false

theorem not_isStep_of_completionError {α : Type} {e : FsmError} (h : CompletionError e) :
    isStep (.error e : Except FsmError α) = false := by
  rcases h with ⟨m, rfl⟩ | ⟨a, rfl⟩ | ⟨m, rfl | rfl⟩ <;> rfl

/-- **What an active session answers**: it spends a step, or stays as it is and fails. -/
theorem Handling.spends {evidence : ChecklistEvidence} {output : Option Json}
    {out : Except FsmError StepOutcome × World SessionLedger} (wf : engine.profile.WellFormed ed)
    (hledger : w.ledger.Reliable) (handling : Handling engine host sid pos evidence output w s out)
    (hs : w.sessions sid = some s) (h : Within engine s i j) (here : pos = engine.profile.place i j) :
    (∃ s', out.2.sessions sid = some s' ∧ Spends engine s i j s') ∨
      out.2.sessions sid = some s ∧ isStep out.1 = false := by
  subst here
  cases handling with
  | lost hroute =>
    have hlost := routeAt_eq hroute
    exact absurd ((locate_place wf h.inRange).symm.trans hlost) nofun
  | plain hroute advance =>
    obtain ⟨hlocate', -, hty⟩ := routeAt_eq hroute
    obtain ⟨rfl, rfl⟩ := indices_of_locate wf h.inRange hlocate'
    exact Or.inl (advance.spends wf hledger h hty)
  | approved hroute accept =>
    obtain ⟨hlocate', gate, -⟩ := routeAt_eq hroute
    obtain ⟨rfl, rfl⟩ := indices_of_locate wf h.inRange hlocate'
    cases accept with
    | refused refused => exact hledger.elim refused
    | accepted taken advance =>
      exact Or.inl (advance.spends (w := approvedAt ..) wf hledger h (by rw [gate]; decide))
  | passed hroute advance =>
    obtain ⟨hlocate', -, -, hlast⟩ := routeAt_eq hroute
    obtain ⟨rfl, rfl⟩ := indices_of_locate wf h.inRange hlocate'
    have hlen : i + 1 < engine.profile.pipeline.length := by
      have := h.inRange.macroIdx
      omega
    cases advance with
    | refused refused => exact hledger.elim refused
    | stranded _ _ refused => exact hledger.elim refused
    | unentered taken none =>
      obtain ⟨k, hk, -⟩ := firstEnabledIndex_spec (wf.stateAt hlen)
      exact absurd (none.symm.trans hk) nofun
    | @moved k next f out taken hk hnext taken' land =>
      have hrange := Profile.InRange.of_enabled hlen (wf.firstEnabled hlen hk).here
      subst hnext
      obtain ⟨s', hs', within, -⟩ := land.kept (World.setSession_sessions_self _ _ _)
        ((h.nextMacro hrange).congr rfl)
      exact Or.inl ⟨s', hs', .nextMacro k within⟩
  | final hroute complete =>
    cases complete with
    | unverified fails =>
      exact Or.inr ⟨hs, not_isStep_of_completionError (verifySessionArtifacts_error fails)⟩
    | violated verified fails =>
      exact Or.inr ⟨hs, not_isStep_of_completionError (contractResult_error fails)⟩
    | untraced _ _ refused => exact hledger.elim refused
    | refused _ _ refused => exact hledger.elim refused
    | stranded _ _ _ refused => exact hledger.elim refused
    | completed => exact Or.inl ⟨_, World.setSession_sessions_self _ _ _, .ended nofun⟩
  | rejected hroute reject =>
    obtain ⟨hlocate', -⟩ := routeAt_eq hroute
    obtain ⟨rfl, rfl⟩ := indices_of_locate wf h.inRange hlocate'
    cases reject with
    | refused refused => exact hledger.elim refused
    | loopRefused _ _ _ _ refused => exact hledger.elim refused
    | tripped taken trips trip =>
      obtain ⟨s', hs', inactive⟩ := trip.ends (w := struckAt ..) hledger
      exact Or.inl ⟨s', hs', .ended inactive⟩
    | loopStuck taken holds | rejected taken holds =>
      exact Or.inl ⟨_, World.setSession_sessions_self _ _ _, .rejected j (h.struck holds) rfl⟩
    | looped taken holds hloops renders hk htarget =>
      have hrange := Profile.InRange.of_loopTarget h.inRange.macroIdx hk
      subst htarget
      exact Or.inl ⟨_, World.setSession_sessions_self _ _ _,
        .rejected _ (((h.struck holds).moved hrange).congr rfl) rfl⟩
  | unapproved hroute refuse =>
    obtain ⟨hlocate', -⟩ := routeAt_eq hroute
    obtain ⟨rfl, rfl⟩ := indices_of_locate wf h.inRange hlocate'
    cases refuse with
    | refused refused => exact hledger.elim refused
    | tripped taken capped trip =>
      obtain ⟨s', hs', inactive⟩ := trip.ends (w := refusedAt ..) hledger
      exact Or.inl ⟨s', hs', .ended inactive⟩
    | counted taken below =>
      exact Or.inl ⟨_, World.setSession_sessions_self _ _ _, .refused (h.refused below) rfl rfl⟩

theorem checkSubmission_error {session : Option SessionState} {e : FsmError}
    (h : checkSubmission sid pos session = .error e) :
    isStep (.error e : Except FsmError StepOutcome) = false := by
  rcases checkSubmission_kind h with rfl | ⟨_, rfl⟩ | ⟨_, rfl⟩ | ⟨_, _, rfl⟩ <;> rfl

theorem isStep_map {α β : Type} {f : α → β} {r : Except FsmError α} :
    isStep (r.map f) = isStep r := by
  cases r with
  | ok a => rfl
  | error e => cases e <;> rfl

variable (engine sid)

/-- The session in memory has spent a step. -/
def Spent (w w' : World SessionLedger) : Prop :=
  ∃ s i j s', w.sessions sid = some s ∧ s.status = .active ∧ Within engine s i j ∧
    w'.sessions sid = some s' ∧ Spends engine s i j s'

/-- A submission that is answered with an outcome or a tripped breaker. -/
def stepMade (call : Call) (reply : Except FsmError Reply) : Bool :=
  match call with
  | .submit _ _ _ => isStep reply
  | _ => false

/-- How many steps a run of calls makes. -/
def stepsMade (w : World SessionLedger) : List (Host × Call) → Nat
  | [] => 0
  | (host, call) :: rest =>
    (if stepMade call (perform engine sid host call w).1 then 1 else 0) +
      stepsMade (perform engine sid host call w).2 rest

variable {engine sid}

theorem Submission.spends {evidence : ChecklistEvidence} {output : Option Json}
    {out : Except FsmError StepOutcome × World SessionLedger} (wf : engine.profile.WellFormed ed)
    (hledger : w.ledger.Reliable) (hlive : LiveWithin engine sid w)
    (submission : Submission engine host sid pos evidence output w out) :
    Spent engine sid w out.2 ∨ out.2.sessions sid = w.sessions sid ∧ isStep out.1 = false := by
  cases submission with
  | refused fails => exact Or.inr ⟨rfl, checkSubmission_error fails⟩
  | late hc hlate trip =>
    obtain ⟨hs, active, -⟩ := checkSubmission_ok.mp hc
    obtain ⟨i, j, h⟩ := hlive _ hs active
    obtain ⟨s', hs', inactive⟩ := trip.ends (w := w.tick) hledger
    exact Or.inl ⟨_, i, j, s', hs, active, h, hs', .ended inactive⟩
  | handled hc hlate handling =>
    obtain ⟨hs, active, here⟩ := checkSubmission_ok.mp hc
    obtain ⟨i, j, h⟩ := hlive _ hs active
    have hpos : pos = engine.profile.place i j := Option.some.inj (here.symm.trans h.here)
    rcases handling.spends (w := w.tick) wf hledger hs h hpos with ⟨s', hs', hspends⟩ | ⟨hs', hr⟩
    · exact Or.inl ⟨_, i, j, s', hs, active, h, hs', hspends⟩
    · exact Or.inr ⟨hs'.trans hs.symm, hr⟩

/-- A recovery of what is in memory changes nothing that is counted. -/
theorem Synced.recovered {s : SessionState} (h : Synced engine sid w)
    (hs : replayEvents sid engine.profile w.ledger.events = .ok (some s)) :
    (some s).map SessionState.counted = (w.sessions sid).map SessionState.counted := by
  obtain ⟨fold, ⟨fold₀, hfold, rfl⟩, -, hmem⟩ := h
  rw [hs] at hfold
  cases hfold
  obtain ⟨l, hl, heq⟩ := Option.map_eq_some_iff.mp hmem
  rw [hl]
  have hcounted : s.counted = l.counted := by
    show s.timeless.counted = l.timeless.counted
    rw [heq]
  exact congrArg some hcounted

/-- **What a call that starts nothing does**: it spends a step, or what the session counts
stays as it is and no step is made. -/
theorem perform_spends {call : Call} (wf : engine.profile.WellFormed ed)
    (hledger : w.ledger.Reliable) (hsync : Synced engine sid w) (hlive : LiveWithin engine sid w)
    (hcall : ∀ ctx, call ≠ .start ctx) :
    Spent engine sid w (perform engine sid host call w).2 ∨
      ((perform engine sid host call w).2.sessions sid).map SessionState.counted =
          (w.sessions sid).map SessionState.counted ∧
        stepMade call (perform engine sid host call w).1 = false := by
  cases call with
  | start ctx => exact absurd rfl (hcall ctx)
  | submit pos evidence output =>
    rcases (exec_submitMilestone).spends wf hledger hlive with hspent | ⟨hs, hr⟩
    · exact Or.inl hspent
    · exact Or.inr ⟨congrArg _ hs, isStep_map.trans hr⟩
  | store stepId data mimeType =>
    refine Or.inr ⟨?_, rfl⟩
    have storing : Storing host sid w
        (Effect.exec (storeArtifact engine host sid stepId data mimeType) w) := exec_storeArtifact
    unfold perform
    dsimp only
    generalize Effect.exec (storeArtifact engine host sid stepId data mimeType) w = out at *
    cases storing with
    | failed | refused => rfl
    | stored hs active taken =>
      rw [World.setSession_sessions_self, hs]
      rfl
  | recover =>
    refine Or.inr ⟨?_, rfl⟩
    have recovering : Recovering engine sid w _ := exec_recoverSession
    unfold perform
    dsimp only
    generalize Effect.exec (recoverSession engine sid) w = out at *
    cases recovering with
    | failed => rfl
    | recovered hs =>
      rw [World.setSession_sessions_self]
      exact hsync.recovered hs

/-- Sessions that count the same have as much left. -/
theorem AtMost.congr {w' : World SessionLedger} {n : Nat} (h : AtMost engine sid w n)
    (heq : (w'.sessions sid).map SessionState.counted =
      (w.sessions sid).map SessionState.counted) : AtMost engine sid w' n := by
  intro s' hs' active
  rw [hs'] at heq
  obtain ⟨s, hs, hcounted⟩ := Option.map_eq_some_iff.mp heq.symm
  have hsame := SessionState.sameCount hcounted
  obtain ⟨i, j, within, hn⟩ := h s hs (hsame.status.trans active)
  refine ⟨i, j, within.congr hcounted, ?_⟩
  rw [stepsLeft, ← hsame.macroIteration, ← hsame.approvals]
  exact hn

theorem AtMost.liveWithin {n : Nat} (h : AtMost engine sid w n) : LiveWithin engine sid w := by
  intro s hs active
  obtain ⟨i, j, within, -⟩ := h s hs active
  exact ⟨i, j, within⟩

/-- A started session between two calls, with no more than `n` steps left. -/
structure Underway (engine : ProfileFsmEngine) (sid : String) (w : World SessionLedger) (n : Nat) :
    Prop where
  reliable : w.ledger.Reliable
  synced : Synced engine sid w
  atMost : AtMost engine sid w n

/-- **A step that is made is one fewer left.** -/
theorem Underway.after {call : Call} {n : Nat} (wf : engine.profile.WellFormed ed)
    (hcap : engine.profile.settings.approvalRejectionCap ≠ 0) (h : Underway engine sid w n)
    (hcall : ∀ ctx, call ≠ .start ctx) :
    ∃ m, Underway engine sid (perform engine sid host call w).2 m ∧
      (if stepMade call (perform engine sid host call w).1 then 1 else 0) + m ≤ n := by
  have hsync : Synced engine sid (perform engine sid host call w).2 :=
    h.synced.after_reliable wf h.reliable fun ctx heq => absurd heq (hcall ctx)
  rcases perform_spends wf h.reliable h.synced h.atMost.liveWithin hcall with hspent | ⟨hsame, hnone⟩
  · obtain ⟨s, i, j, s', hs, active, within, hs', hspends⟩ := hspent
    obtain ⟨i', j', within', hn⟩ := h.atMost s hs active
    obtain ⟨rfl, rfl⟩ := place_unique wf within.inRange within'.inRange within.here within'.here
    obtain ⟨hpos, hleft⟩ := hspends.atMost hcap within hn hs'
    refine ⟨n - 1, ⟨perform_reliable h.reliable, hsync, hleft⟩, ?_⟩
    split <;> omega
  · refine ⟨n, ⟨perform_reliable h.reliable, hsync, h.atMost.congr hsame⟩, ?_⟩
    rw [hnone, if_neg Bool.false_ne_true, Nat.zero_add]

theorem Underway.run {calls : List (Host × Call)} {n : Nat} (wf : engine.profile.WellFormed ed)
    (hcap : engine.profile.settings.approvalRejectionCap ≠ 0) (h : Underway engine sid w n)
    (hcalls : ∀ x ∈ calls, ∀ ctx, x.2 ≠ .start ctx) :
    ∃ m, Underway engine sid (runCalls engine sid w calls) m ∧
      stepsMade engine sid w calls + m ≤ n := by
  induction calls generalizing w n with
  | nil => exact ⟨n, h, Nat.le_of_eq (Nat.zero_add n)⟩
  | cons x rest ih =>
    obtain ⟨host, call⟩ := x
    have hafter : ∃ m, Underway engine sid (perform engine sid host call w).2 m ∧
        (if stepMade call (perform engine sid host call w).1 then 1 else 0) + m ≤ n :=
      h.after wf hcap (hcalls _ (List.mem_cons_self ..))
    obtain ⟨m, hm, hn⟩ := hafter
    obtain ⟨m', hm', hn'⟩ := ih hm fun y hy => hcalls y (List.mem_cons_of_mem _ hy)
    refine ⟨m', hm', ?_⟩
    rw [stepsMade, Nat.add_assoc]
    exact Nat.le_trans (Nat.add_le_add_left hn' _) hn

/-- A step that is made leaves fewer macros, rejections, sub-states and refusals. -/
theorem Underway.left_lt {call : Call} {n : Nat} (wf : engine.profile.WellFormed ed)
    (hcap : engine.profile.settings.approvalRejectionCap ≠ 0) (h : Underway engine sid w n)
    (hstep : stepMade call (perform engine sid host call w).1 = true) :
    left engine sid (perform engine sid host call w).2 < left engine sid w := by
  have hcall : ∀ ctx, call ≠ .start ctx := by
    rintro ctx rfl
    cases hstep
  rcases perform_spends wf h.reliable h.synced h.atMost.liveWithin hcall with hspent | ⟨-, hnone⟩
  · obtain ⟨s, i, j, s', hs, active, within, hs', hspends⟩ := hspent
    rw [left, left, hs, hs']
    exact hspends.leftOf_lt wf hcap within active
  · rw [hnone] at hstep
    cases hstep

/-- A start that answers leaves no more than the steps of the pipeline. -/
theorem AtMost.started (wf : engine.profile.WellFormed ed) {initialContext : Option Json}
    {r : Reply} (hstart : (perform engine sid host (.start initialContext) w).1 = .ok r) :
    AtMost engine sid (perform engine sid host (.start initialContext) w).2
      engine.profile.steps := by
  have starting := @exec_startSession engine host sid initialContext w
  unfold perform at hstart ⊢
  dsimp only at hstart ⊢
  generalize Effect.exec (startSession engine host sid initialContext) w = out at *
  cases starting with
  | invalid | unentered | refused | stuck => cases hstart
  | @started m k p injected view w' valid entry taken land =>
    obtain ⟨rfl, hk, hlen⟩ := entryPoint_ok entry
    have hrange := Profile.InRange.of_enabled hlen (wf.firstEnabled hlen hk).here
    intro s hs _
    obtain ⟨s', hs', within, -⟩ := land.kept (World.setSession_sessions_self _ _ _)
      (Within.fresh sid _ _ hrange rfl)
    rw [hs] at hs'
    cases hs'
    refine ⟨0, k, within, Nat.le_trans (stepsLeft_entered within) ?_⟩
    rw [stepsFrom, List.drop_zero]
    exact Nat.le_refl _

end ProfileFsmEngine

/-- A gate and a checklist, with an approval rejection cap of two. -/
def Sample.capped : Profile :=
  let p := Sample.profile [Sample.signoff, Sample.checklist]
  { p with settings := { p.settings with approvalRejectionCap := 2 } }

namespace ProfileFsmEngine

section

variable {host : Host} {w : World SessionLedger} {vendor : Vendor} {library : Library}
  {p : Profile} {config : FsmConfig} {calls : List (Host × Call)} {initialContext : Option Json}
  {r : Reply}

/-- **Every session ends after a bounded number of steps.** With a ledger that takes every
append, the submissions of a started session that are answered with an outcome or a breaker
are no more than the enabled macros allow, and each leaves fewer macros, rejections,
sub-states and refusals, in this order. -/
theorem steps_bounded {sid : String}
    (hvalid : validateProfile vendor.toSchemas library p = .ok ())
    (hcap : p.settings.approvalRejectionCap ≠ 0) (hfresh : w.Fresh sid)
    (hledger : w.ledger.Reliable)
    (hstart : (perform (new vendor p config) sid host (.start initialContext) w).1 = .ok r)
    (hcalls : ∀ x ∈ calls, ∀ ctx, x.2 ≠ .start ctx) :
    let engine := new vendor p config
    let begun := (perform engine sid host (.start initialContext) w).2
    let reached := runCalls engine sid begun calls
    stepsMade engine sid begun calls ≤ p.withEnabledMacrosOnly.steps ∧
    ∀ host call, stepMade call (perform engine sid host call reached).1 = true →
      left engine sid (perform engine sid host call reached).2 < left engine sid reached := by
  intro engine begun reached
  have wf : engine.profile.WellFormed vendor.ed := new_wellFormed hvalid
  have hsync : Synced engine sid begun :=
    (synced_of_fresh hfresh).after_reliable wf hledger fun _ _ => ⟨r, hstart⟩
  have hbegun : AtMost engine sid begun p.withEnabledMacrosOnly.steps := .started wf hstart
  obtain ⟨m, hreached, hsteps⟩ :=
    Underway.run wf hcap ⟨perform_reliable hledger, hsync, hbegun⟩ hcalls
  exact ⟨Nat.le_trans (Nat.le_add_right _ m) hsteps,
    fun _ _ hstep => hreached.left_lt wf hcap hstep⟩

/-- A gate with a cap of two, refused, passed, and a checklist rejected and met. -/
theorem steps_bounded_completed :
    let engine := new Sample.vendor Sample.capped Sample.config
    let begun := (perform engine "s1" Sample.host (.start none) (Sample.world fun _ => .ok ())).2
    let calls := [Sample.submit "signoff" .empty, Sample.submit "signoff" Sample.signed,
      Sample.submit "check" .empty, Sample.submit "check" Sample.done,
      Sample.submit "check" Sample.done]
    stepsMade engine "s1" begun calls = 4 ∧ stepsMade engine "s1" begun calls ≤ 12 := by
  have hvalid : validateProfile Sample.vendor.toSchemas Sample.library Sample.capped = .ok () := by
    decide +kernel
  obtain ⟨r, hstart⟩ : ∃ r, (perform (new Sample.vendor Sample.capped Sample.config) "s1"
      Sample.host (.start none) (Sample.world fun _ => .ok ())).1 = .ok r := ⟨_, rfl⟩
  constructor
  · decide +kernel
  · exact (steps_bounded hvalid (by decide) (Sample.world_fresh _ _) (fun _ => rfl) hstart
      (by simp [Sample.submit])).1

end

end ProfileFsmEngine

end ProtocolEnforcer
