import Mathlib.Algebra.Group.Nat.Defs
import Mathlib.Data.Finset.Sort
import Mathlib.Data.String.Basic
import ProtocolEnforcer.Core.Streaks
import ProtocolEnforcer.Fsm.FailedSteps
import ProtocolEnforcer.Fsm.Restart

/-!
# Which rejection trips a breaker

The counters of a session are closed forms of what was submitted. Behind the rejections of a
macro, in the order they were made, the iteration is their number, and the identical
rejections are the streak their key sets end with. So a breaker is due at the first rejection
whose number or whose streak reaches its limit; the session fails there, and nowhere before.
In between there may be loop-backs, artifacts, broken contracts and recoveries.
-/

namespace ProtocolEnforcer

/-- The keys of a submission's evidence. -/
def ChecklistEvidence.keySet (ev : ChecklistEvidence) : Finset String := ev.keys.toFinset

/-- The keys a session keeps of a rejection are the key set, sorted. -/
theorem sortedKeys_eq (ev : ChecklistEvidence) : sortedKeys ev.keys = ev.keySet.sort := by
  have hperm : (sortedKeys ev.keys).Perm ev.keys := List.perm_insertionSort _ _
  have hset : (sortedKeys ev.keys).toFinset = ev.keySet := List.toFinset_eq_of_perm _ _ hperm
  rw [← hset]
  exact ((List.toFinset_sort _ (hperm.nodup_iff.mpr ev.nodup)).mpr
    (List.pairwise_insertionSort _ _)).symm

theorem finset_sort_inj {K K' : Finset String} : K.sort = K'.sort ↔ K = K' := by
  constructor
  · intro h
    have hset := congrArg List.toFinset h
    rwa [Finset.sort_toFinset, Finset.sort_toFinset] at hset
  · rintro rfl
    rfl

/-- The rejections of the macro a session is in, after a submission with this route. -/
def Route.strikes (evidence : ChecklistEvidence) (Ks : List (Finset String)) :
    Route → List (Finset String)
  | .rejected _ _ _ => Ks ++ [evidence.keySet]
  | .passed _ _ => []
  | _ => Ks

/-- A session reduced to its status and what it counts of a macro. -/
def SessionState.tally (s : SessionState) : SessionStatus × UInt32 × UInt32 × List String :=
  (s.status, s.macroIteration, s.consecutiveIdenticalRejections, s.lastRejectedEvidenceKeys)

/-- What a session has counted of a macro whose rejections had these key sets. -/
structure Tallies (Ks : List (Finset String)) (s : SessionState) : Prop where
  iteration : s.macroIteration.toNat = Ks.length
  identical : s.consecutiveIdenticalRejections.toNat = streak Ks
  last : ∀ K, Ks.getLast? = some K → s.lastRejectedEvidenceKeys = K.sort

section

variable {Ks : List (Finset String)} {s t : SessionState}

theorem Tallies.congr (h : Tallies Ks s) (heq : t.tally = s.tally) : Tallies Ks t := by
  injection heq with _ heq
  injection heq with hiteration heq
  injection heq with hidentical hlast
  exact ⟨hiteration ▸ h.iteration, hidentical ▸ h.identical, hlast ▸ h.last⟩

/-- A macro that has rejected nothing. -/
theorem Tallies.nil (hiteration : s.macroIteration = 0)
    (hidentical : s.consecutiveIdenticalRejections = 0) : Tallies [] s :=
  ⟨by rw [hiteration]; rfl, by rw [hidentical]; rfl, nofun⟩

theorem Tallies.succ_toNat {n : UInt32} {k : Nat} (h : n.toNat = k) (hk : k + 1 < 2 ^ 32) :
    (n + 1).toNat = k + 1 := by
  rw [UInt32.toNat_add, h]
  exact Nat.mod_eq_of_lt hk

/-- **One more rejection** counts on from the last one exactly if its keys are the same; that
there was a last one is told by the streak. -/
theorem Tallies.strikeOut (h : Tallies Ks s) (hlen : Ks.length + 1 < 2 ^ 32)
    (evidence : ChecklistEvidence) :
    Tallies (Ks ++ [evidence.keySet]) (s.strikeOut (sortedKeys evidence.keys)) := by
  refine ⟨?_, ?_, ?_⟩
  · rw [List.length_append, List.length_singleton]
    exact succ_toNat h.iteration hlen
  · rw [streak_concat]
    have hsame : (s.consecutiveIdenticalRejections > 0 &&
        sortedKeys evidence.keys = s.lastRejectedEvidenceKeys) = true ↔
          Ks.getLast? = some evidence.keySet := by
      rw [Bool.and_eq_true, decide_eq_true_iff, decide_eq_true_iff, gt_iff_lt,
        UInt32.lt_iff_toNat_lt, h.identical]
      cases hlast : Ks.getLast? with
      | none =>
        rw [List.getLast?_eq_none_iff.mp hlast]
        simp
      | some K =>
        have hpos : 0 < streak Ks := streak_pos (by rintro rfl; cases hlast)
        rw [h.last K hlast, sortedKeys_eq, finset_sort_inj, Option.some_inj]
        exact ⟨fun h => h.2.symm, fun h => ⟨hpos, h.symm⟩⟩
    show (if _ then _ else _ : UInt32).toNat = _
    by_cases heq : Ks.getLast? = some evidence.keySet
    · rw [if_pos heq, if_pos (hsame.mpr heq)]
      exact succ_toNat h.identical (Nat.lt_of_le_of_lt (Nat.succ_le_succ streak_le_length) hlen)
    · rw [if_neg heq, if_neg (mt hsame.mp heq)]
      rfl
  · intro K hK
    rw [List.getLast?_concat] at hK
    cases hK
    exact sortedKeys_eq evidence

end

namespace ProfileFsmEngine

variable (engine : ProfileFsmEngine) (sid : String)

/-! ## When a breaker is due -/

/-- The breaker that is due behind these rejections of macro `i`. -/
def dueBreaker (i : Nat) (Ks : List (Finset String)) : Option CircuitBreakerType :=
  if (engine.profile.stateAt i).maxIterations.toNat ≤ Ks.length then some .maxIterations
  else if engine.profile.settings.oscillationDetectionThreshold.toNat ≤ streak Ks then
    some .repetitiveLoop
  else none

/-- The rejections of macro `i`, by their number, behind which a breaker is due. -/
def dueAt (i : Nat) (Ks : List (Finset String)) : Set Nat :=
  {n | 0 < n ∧ n ≤ Ks.length ∧ dueBreaker engine i (Ks.take n) ≠ none}

variable {engine sid} {ed : Ed25519} {host : Host} {w : World SessionLedger}
  {Ks : List (Finset String)} {K : Finset String} {s t : SessionState} {pos : Position}
  {i j k : Nat}

/-- The breaker a session trips is the one that is due behind its rejections. -/
theorem strikeBreaker_due (h : Tallies Ks s) :
    strikeBreaker engine i s = dueBreaker engine i Ks := by
  rw [strikeBreaker, dueBreaker, ← h.iteration, ← h.identical]
  simp only [ge_iff_le, UInt32.le_iff_toNat_le]

theorem dueAt_nil : dueAt engine i [] = ∅ :=
  Set.eq_empty_of_forall_notMem fun _ ⟨hpos, hle, _⟩ => absurd hle (Nat.not_le_of_gt hpos)

/-- Up to the last rejection, one more changes nothing. -/
theorem mem_dueAt_concat {n : Nat} (hn : n ≤ Ks.length) :
    n ∈ dueAt engine i (Ks ++ [K]) ↔ n ∈ dueAt engine i Ks := by
  have hle : n ≤ (Ks ++ [K]).length := by
    rw [List.length_append]
    omega
  show (_ ∧ _ ∧ dueBreaker engine i ((Ks ++ [K]).take n) ≠ none) ↔ _
  rw [List.take_append_of_le_length hn]
  exact ⟨fun h => ⟨h.1, hn, h.2.2⟩, fun h => ⟨h.1, hle, h.2.2⟩⟩

theorem length_mem_dueAt :
    (Ks ++ [K]).length ∈ dueAt engine i (Ks ++ [K]) ↔ dueBreaker engine i (Ks ++ [K]) ≠ none := by
  show (_ ∧ _ ∧ dueBreaker engine i ((Ks ++ [K]).take _) ≠ none) ↔ _
  rw [List.take_length]
  exact ⟨fun h => h.2.2, fun h => ⟨by simp, Nat.le_refl _, h⟩⟩

theorem dueAt_concat (h : dueAt engine i Ks = ∅) (hdue : dueBreaker engine i (Ks ++ [K]) = none) :
    dueAt engine i (Ks ++ [K]) = ∅ := by
  refine Set.eq_empty_of_forall_notMem fun n hn => ?_
  rcases Nat.lt_or_ge Ks.length n with hlt | hle
  · have hlen : n = (Ks ++ [K]).length := by
      have hle := hn.2.1
      rw [List.length_append, List.length_singleton] at hle ⊢
      omega
    subst hlen
    exact length_mem_dueAt.mp hn hdue
  · exact Set.notMem_empty n (h ▸ (mem_dueAt_concat hle).mp hn)

theorem isLeast_dueAt (h : dueAt engine i Ks = ∅)
    (hdue : dueBreaker engine i (Ks ++ [K]) ≠ none) :
    IsLeast (dueAt engine i (Ks ++ [K])) (Ks ++ [K]).length := by
  refine ⟨length_mem_dueAt.mpr hdue, fun n hn => ?_⟩
  by_contra hlt
  have hle : n ≤ Ks.length := by
    rw [List.length_append, List.length_singleton] at hlt
    omega
  exact Set.notMem_empty n (h ▸ (mem_dueAt_concat hle).mp hn)

/-- While no breaker is due the counters do not wrap: `max_iterations` is a `u32` itself. -/
theorem length_lt_of_dueAt (h : dueAt engine i Ks = ∅) : Ks.length + 1 < 2 ^ 32 := by
  rcases Nat.eq_zero_or_pos Ks.length with hzero | hpos
  · rw [hzero]
    decide
  have hnone : dueBreaker engine i Ks = none := by
    by_contra hdue
    refine Set.notMem_empty Ks.length (h ▸ ⟨hpos, Nat.le_refl _, ?_⟩)
    rwa [List.take_length]
  have hmax := (engine.profile.stateAt i).maxIterations.toNat_lt
  unfold dueBreaker at hnone
  split at hnone
  · cases hnone
  · omega

/-! ## Sessions and their rejections -/

variable (engine) in
/-- An active session in macro `i`, behind whose rejections no breaker was due. -/
structure Spared (i j : Nat) (Ks : List (Finset String)) (s : SessionState) : Prop where
  inRange : engine.profile.InRange i j
  here : s.position = some (engine.profile.place i j)
  active : s.status = .active
  tallies : Tallies Ks s
  undue : dueAt engine i Ks = ∅

variable (engine) in
/-- What has become of a session whose macro has had these rejections. -/
inductive Counted (Ks : List (Finset String)) (s : SessionState) : Prop where
  | underway {i j : Nat} (h : Spared engine i j Ks s)
  | tripped {i j : Nat} (inRange : engine.profile.InRange i j)
      (here : s.position = some (engine.profile.place i j)) (failed : s.status = .failed)
      (tallies : Tallies Ks s) (due : IsLeast (dueAt engine i Ks) Ks.length)
  | finished (completed : s.status = .completed) (tallies : Tallies Ks s)

/-- Moved within its macro. -/
theorem Spared.moved (h : Spared engine i j Ks s) (hk : engine.profile.InRange i k)
    (here : t.position = some (engine.profile.place i k)) (heq : t.tally = s.tally) :
    Spared engine i k Ks t :=
  ⟨hk, here, (congrArg Prod.fst heq).trans h.active, h.tallies.congr heq, h.undue⟩

/-- Changed in what it does not count. -/
theorem Spared.congr (h : Spared engine i j Ks s) (hpos : t.position = s.position)
    (heq : t.tally = s.tally) : Spared engine i j Ks t :=
  h.moved h.inRange (hpos.trans h.here) heq

theorem Counted.congr (h : Counted engine Ks s) (hpos : t.position = s.position)
    (heq : t.tally = s.tally) : Counted engine Ks t := by
  have hstatus : t.status = s.status := congrArg Prod.fst heq
  cases h with
  | underway h => exact .underway (h.congr hpos heq)
  | tripped inRange here failed tallies due =>
    exact .tripped inRange (hpos.trans here) (hstatus.trans failed) (tallies.congr heq) due
  | finished completed tallies =>
    exact .finished (hstatus.trans completed) (tallies.congr heq)

/-- A macro that is entered has rejected nothing. -/
theorem Spared.entered (hrange : engine.profile.InRange i j)
    (here : s.position = some (engine.profile.place i j)) (active : s.status = .active)
    (hiteration : s.macroIteration = 0) (hidentical : s.consecutiveIdenticalRejections = 0) :
    Spared engine i j [] s :=
  ⟨hrange, here, active, .nil hiteration hidentical, dueAt_nil⟩

/-- An active session is at the place it is located at. -/
theorem Counted.located (wf : engine.profile.WellFormed ed) (h : Counted engine Ks s)
    (active : s.status = .active) (here : s.position = some pos)
    (located : locate engine pos = .ok (i, j)) : Spared engine i j Ks s := by
  cases h with
  | underway h =>
    obtain ⟨rfl, rfl⟩ := located_unique wf here located h.inRange h.here
    exact h
  | tripped _ _ failed => exact absurd (active.symm.trans failed) nofun
  | finished completed => exact absurd (active.symm.trans completed) nofun

theorem Landing.counted {initialContext : Option Json}
    {out : Except FsmError (Position × RenderedInjection) × World SessionLedger}
    (land : Landing engine host sid k j initialContext w s out) (hs : w.sessions sid = some s)
    (h : Spared engine i j Ks s) :
    ∃ s', out.2.sessions sid = some s' ∧ Counted engine Ks s' := by
  cases land with
  | unlandable | arrived | unchallenged => exact ⟨s, hs, .underway h⟩
  | challenged =>
    exact ⟨_, World.setSession_sessions_self _ _ _, .underway (h.congr rfl rfl)⟩

theorem Advance.counted {out : Except FsmError StepOutcome × World SessionLedger}
    (wf : engine.profile.WellFormed ed) (advance : Advance engine host sid i j pos w s out)
    (hs : w.sessions sid = some s) (h : Spared engine i j Ks s)
    (hty : engine.profile.typeAt i j ≠ .checklist) :
    ∃ s', out.2.sessions sid = some s' ∧ Counted engine Ks s' := by
  cases advance with
  | refused => exact ⟨s, hs, .underway h⟩
  | moved taken hk hnext land =>
    have hrange := Profile.InRange.of_enabled h.inRange.macroIdx (wf.nextEnabled h.inRange hty).here
    subst hk hnext
    exact land.counted (World.setSession_sessions_self _ _ _) (h.moved hrange rfl rfl)

theorem MacroAdvance.counted {out : Except FsmError StepOutcome × World SessionLedger}
    (wf : engine.profile.WellFormed ed) (hledger : w.ledger.Reliable)
    (advance : MacroAdvance engine host sid i pos w s out) (active : s.status = .active)
    (hi : i + 1 < engine.profile.pipeline.length) :
    ∃ s', out.2.sessions sid = some s' ∧ Counted engine [] s' := by
  cases advance with
  | refused refused | stranded _ _ refused => exact hledger.elim refused
  | unentered _ fails =>
    -- every macro of a valid profile has an enabled sub-state
    obtain ⟨k, hk, -⟩ := firstEnabledIndex_spec (wf.stateAt hi)
    rw [hk] at fails
    cases fails
  | moved _ hk hnext _ land =>
    subst hnext
    exact land.counted (World.setSession_sessions_self _ _ _)
      (.entered (.of_enabled hi (wf.firstEnabled hi hk).here) rfl active rfl rfl)

theorem Completion.counted {output : Option Json}
    {out : Except FsmError StepOutcome × World SessionLedger} (hledger : w.ledger.Reliable)
    (complete : Completion engine host sid pos output w s out) (hs : w.sessions sid = some s)
    (h : Spared engine i j Ks s) :
    ∃ s', out.2.sessions sid = some s' ∧ Counted engine Ks s' := by
  cases complete with
  | unverified | violated => exact ⟨s, hs, .underway h⟩
  | untraced _ _ refused | refused _ _ refused | stranded _ _ _ refused =>
    exact hledger.elim refused
  | completed =>
    exact ⟨_, World.setSession_sessions_self _ _ _,
      .finished rfl ⟨h.tallies.iteration, h.tallies.identical, h.tallies.last⟩⟩

/-! ## A rejection -/

variable (engine sid) in
/-- What a rejected submission of macro `i` comes to, `Ks` the rejections of the macro with it
and `es` the ledger before it: it is ledgered with its number, the session counts it, and it is
answered with the breaker that is due, if one is. -/
structure Struck (i : Nat) (Ks : List (Finset String)) (missing : List String)
    (es : List FsmEvent) (out : Except FsmError StepOutcome × World SessionLedger) : Prop where
  ledgered : ∃ e n later, e.eventType = .milestoneRejected missing "checklist_incomplete" n ∧
    n.toNat = Ks.length ∧ out.2.ledger.events = es ++ e :: later
  counted : ∃ s j, out.2.sessions sid = some s ∧ Tallies Ks s ∧ engine.profile.InRange i j ∧
    s.position = some (engine.profile.place i j) ∧
    s.status = if dueBreaker engine i Ks = none then .active else .failed
  answered : ∀ b, (∃ details, out.1 = .error (.circuitBreaker b details)) ↔
    dueBreaker engine i Ks = some b

/-- While no breaker is due, any answer will do that is not a breaker's. -/
theorem answered_undue {r : Except FsmError StepOutcome} (hdue : dueBreaker engine i Ks = none)
    (hr : ∀ b details, r ≠ .error (.circuitBreaker b details)) (b : CircuitBreakerType) :
    (∃ details, r = .error (.circuitBreaker b details)) ↔ dueBreaker engine i Ks = some b := by
  rw [hdue]
  exact ⟨fun ⟨details, h⟩ => absurd h (hr b details), nofun⟩

theorem Rejection.struck {missing : List String} {evidence : ChecklistEvidence}
    {out : Except FsmError StepOutcome × World SessionLedger} (hledger : w.ledger.Reliable)
    (reject : Rejection engine host sid i pos missing evidence w s out)
    (tallies : Tallies Ks s) (active : s.status = .active) (hrange : engine.profile.InRange i j)
    (here : s.position = some (engine.profile.place i j)) :
    Struck engine sid i Ks missing w.ledger.events out := by
  have hself := World.setSession_sessions_self (w := w) sid (some s)
  cases reject with
  | refused refused | loopRefused _ _ _ _ refused => exact hledger.elim refused
  | tripped _ trips trip =>
    have hdue := (strikeBreaker_due tallies).symm.trans trips
    cases trip with
    | refused refused => exact hledger.elim refused
    | failed =>
      refine ⟨⟨_, _, [_], rfl, tallies.iteration, List.append_assoc _ _ _⟩, ?_, fun b => ?_⟩
      · refine ⟨_, j, World.setSession_sessions_self _ _ _,
          ⟨tallies.iteration, tallies.identical, tallies.last⟩, hrange, here, ?_⟩
        rw [hdue, if_neg nofun]
      · rw [hdue]
        constructor
        · rintro ⟨_, ⟨⟩⟩
          rfl
        · rintro ⟨⟩
          exact ⟨_, rfl⟩
  | loopStuck _ holds _ stuck =>
    have hdue := (strikeBreaker_due tallies).symm.trans holds
    have hstep := loopError_ofStep stuck
    refine ⟨⟨_, _, [], rfl, tallies.iteration, rfl⟩,
      ⟨s, j, hself, tallies, hrange, here, by rw [hdue, if_pos rfl, active]⟩,
      answered_undue hdue ?_⟩
    rintro b details ⟨⟩
    cases hstep
  | looped _ holds _ _ hk htarget =>
    have hdue := (strikeBreaker_due tallies).symm.trans holds
    have hloop := Profile.InRange.of_loopTarget hrange.macroIdx hk
    subst htarget
    refine ⟨⟨_, _, [_], rfl, tallies.iteration, List.append_assoc _ _ _⟩,
      ⟨_, _, World.setSession_sessions_self _ _ _, tallies.congr rfl, hloop, rfl, ?_⟩,
      answered_undue hdue nofun⟩
    rw [hdue, if_pos rfl]
    exact active
  | rejected _ holds =>
    have hdue := (strikeBreaker_due tallies).symm.trans holds
    exact ⟨⟨_, _, [], rfl, tallies.iteration, rfl⟩,
      ⟨s, j, hself, tallies, hrange, here, by rw [hdue, if_pos rfl, active]⟩,
      answered_undue hdue nofun⟩

/-- A rejection at a session whose macro has spared it so far. -/
theorem Rejection.next {missing : List String} {evidence : ChecklistEvidence}
    {out : Except FsmError StepOutcome × World SessionLedger} (hledger : w.ledger.Reliable)
    (reject : Rejection engine host sid i pos missing evidence w
      (s.strikeOut (sortedKeys evidence.keys)) out) (h : Spared engine i j Ks s) :
    Struck engine sid i (Ks ++ [evidence.keySet]) missing w.ledger.events out :=
  reject.struck hledger (h.tallies.strikeOut (length_lt_of_dueAt h.undue) evidence) h.active
    h.inRange h.here

/-- A struck session has failed exactly if its last rejection was the first at which a breaker
was due. -/
theorem Struck.session {missing : List String}
    {out : Except FsmError StepOutcome × World SessionLedger}
    {es : List FsmEvent} (h : Struck engine sid i (Ks ++ [K]) missing es out)
    (undue : dueAt engine i Ks = ∅) :
    ∃ s, out.2.sessions sid = some s ∧ Counted engine (Ks ++ [K]) s := by
  obtain ⟨s, j, hs, tallies, hrange, here, hstatus⟩ := h.counted
  refine ⟨s, hs, ?_⟩
  by_cases hdue : dueBreaker engine i (Ks ++ [K]) = none
  · rw [if_pos hdue] at hstatus
    exact .underway ⟨hrange, here, hstatus, tallies, dueAt_concat undue hdue⟩
  · rw [if_neg hdue] at hstatus
    exact .tripped hrange here hstatus tallies (isLeast_dueAt undue hdue)

/-! ## Submissions -/

variable (engine) in
/-- A submission at an active session that fills no cap of a gate. -/
def BelowCap (s : SessionState) : Route → Prop
  | .unapproved _ _ _ => ¬CapReached engine s.countRefusal
  | _ => True

theorem Handling.counted {evidence : ChecklistEvidence} {output : Option Json}
    {out : Except FsmError StepOutcome × World SessionLedger} (wf : engine.profile.WellFormed ed)
    (hledger : w.ledger.Reliable)
    (handling : Handling engine host sid pos evidence output w s out)
    (hs : w.sessions sid = some s) (active : s.status = .active) (here : s.position = some pos)
    (h : Counted engine Ks s)
    (below : BelowCap engine s (routeAt engine sid s pos evidence)) :
    ∃ s', out.2.sessions sid = some s' ∧
      Counted engine ((routeAt engine sid s pos evidence).strikes evidence Ks) s' := by
  cases handling with
  | lost hroute =>
    rw [hroute]
    exact ⟨s, hs, h⟩
  | plain hroute advance =>
    obtain ⟨located, -, hty⟩ := routeAt_eq hroute
    rw [hroute]
    exact advance.counted wf hs (h.located wf active here located) hty
  | passed hroute advance =>
    obtain ⟨located, -, -, hlast⟩ := routeAt_eq hroute
    have hi := (inRange_of_locate located).macroIdx
    rw [hroute]
    exact advance.counted wf hledger active (by omega)
  | final hroute complete =>
    obtain ⟨located, -⟩ := routeAt_eq hroute
    rw [hroute]
    exact complete.counted hledger hs (h.located wf active here located)
  | rejected hroute reject =>
    obtain ⟨located, -⟩ := routeAt_eq hroute
    have hspared := h.located wf active here located
    rw [hroute]
    exact (reject.next hledger hspared).session hspared.undue
  | approved hroute accept =>
    obtain ⟨located, gate, -⟩ := routeAt_eq hroute
    rw [hroute]
    cases accept with
    | refused refused => exact hledger.elim refused
    | accepted _ advance =>
      exact advance.counted wf hs (h.located wf active here located) (by rw [gate]; decide)
  | unapproved hroute refuse =>
    rw [hroute] at below ⊢
    cases refuse with
    | refused refused => exact hledger.elim refused
    | tripped _ capped => exact absurd capped below
    | counted => exact ⟨_, World.setSession_sessions_self _ _ _, h.congr rfl rfl⟩

/-! ## Runs -/

section

variable (engine sid)

/-- The rejections of the macro a session is in, after a call. -/
def nextStrikes (w : World SessionLedger) (Ks : List (Finset String)) (x : Host × Call) :
    List (Finset String) :=
  match x.2 with
  | .start _ =>
    match validated engine x.1 with
    | .ok () => []
    | .error _ => Ks
  | .submit pos evidence _ =>
    (route engine sid (w.sessions sid) (x.1.clock w.ticks) pos evidence).strikes evidence Ks
  | .store _ _ _ | .recover => Ks

/-- The rejections of the macro a session is in, after a run. -/
def strikesFrom (w : World SessionLedger) (Ks : List (Finset String)) :
    List (Host × Call) → List (Finset String)
  | [] => Ks
  | x :: rest => strikesFrom (after engine sid w x) (nextStrikes engine sid w Ks x) rest

/-- Neither the time limit nor the cap of a gate stops the session. -/
def Calm (w : World SessionLedger) (host : Host) (call : Call) : Prop :=
  ∀ pos evidence output, call = .submit pos evidence output →
    (∀ elapsed, route engine sid (w.sessions sid) (host.clock w.ticks) pos evidence ≠
      .late elapsed) ∧
    ∀ s, w.sessions sid = some s →
      BelowCap engine s (route engine sid (w.sessions sid) (host.clock w.ticks) pos evidence)

/-- The session in memory, or, where memory has lost it, the one recovery puts there. -/
def Stands (w : World SessionLedger) (s : SessionState) : Prop :=
  w.sessions sid = some s ∨ w.sessions sid = none ∧ Folds engine sid w.ledger.events (some s)

/-- **The invariant of a run**: whatever session stands has counted the rejections of its
macro. -/
structure Keeps (Ks : List (Finset String)) (w : World SessionLedger) : Prop where
  reliable : w.ledger.Reliable
  remembered : Remembered engine sid w
  counted : ∀ s, Stands engine sid w s → Counted engine Ks s

end

variable {w' : World SessionLedger} {call : Call}

/-- A session in memory is the one that stands. -/
theorem stands_of_session (hs : w.sessions sid = some s) (h : Counted engine Ks s) :
    ∀ s', Stands engine sid w s' → Counted engine Ks s' := by
  rintro s' (hs' | ⟨hnone, -⟩)
  · rw [hs] at hs'
    cases hs'
    exact h
  · rw [hs] at hnone
    cases hnone

theorem Submission.counted {evidence : ChecklistEvidence} {output : Option Json}
    {out : Except FsmError StepOutcome × World SessionLedger} (wf : engine.profile.WellFormed ed)
    (submission : Submission engine host sid pos evidence output w out)
    (h : Keeps engine sid Ks w) (calm : Calm engine sid w host (.submit pos evidence output)) :
    ∀ s, Stands engine sid out.2 s → Counted engine
      ((route engine sid (w.sessions sid) (host.clock w.ticks) pos evidence).strikes evidence Ks)
      s := by
  obtain ⟨hlate, hcap⟩ := calm pos evidence output rfl
  cases submission with
  | refused fails =>
    rw [route_refused fails]
    exact h.counted
  | late hc late => exact absurd (route_late hc late) (hlate _)
  | handled hc late handling =>
    obtain ⟨hs, active, here⟩ := checkSubmission_ok.mp hc
    have below := hcap _ hs
    rw [route_handled hc late] at below ⊢
    obtain ⟨s', hs', hcounted⟩ := handling.counted (w := w.tick) wf h.reliable hs active here
      (h.counted _ (Or.inl hs)) below
    exact stands_of_session hs' hcounted

theorem Starting.counted {initialContext : Option Json}
    {out : Except FsmError StepView × World SessionLedger} (wf : engine.profile.WellFormed ed)
    (starting : Starting engine host sid initialContext w out) (h : Keeps engine sid Ks w) :
    ∀ s, Stands engine sid out.2 s →
      Counted engine (nextStrikes engine sid w Ks (host, .start initialContext)) s := by
  have hentered : ∀ {m k} (t : Time), entryPoint engine = .ok (m, k) →
      Spared engine 0 k []
        (freshSession engine sid t (initialContext.getD .null) ⟨m.stateId, (m.subAt k).id⟩) := by
    intro m k t entry
    obtain ⟨rfl, hk, hlen⟩ := entryPoint_ok entry
    exact .entered (.of_enabled hlen (wf.firstEnabled hlen hk).here) rfl rfl rfl rfl
  cases starting with
  | invalid fails =>
    rw [nextStrikes, fails]
    exact h.counted
  | unentered valid fails =>
    obtain ⟨m, k, entry⟩ := entryPoint_of_wellFormed wf
    rw [entry] at fails
    cases fails
  | refused _ _ refused => exact h.reliable.elim refused
  | @stuck m k e w' valid entry taken land =>
    rw [nextStrikes, valid]
    -- the start stays in the ledger, and recovery begins there
    obtain ⟨fold, hfold, -⟩ := h.remembered
    rintro s (hs | ⟨-, hs⟩)
    · rw [World.setSession_sessions_self] at hs
      cases hs
    cases land with
    | unlandable =>
      cases hs.unique (hfold.start entry rfl)
      exact .underway (hentered _ entry)
    | unchallenged _ _ _ refused => exact h.reliable.elim refused
  | started valid entry taken land =>
    rw [nextStrikes, valid]
    obtain ⟨s', hs', hcounted⟩ := land.counted (World.setSession_sessions_self _ _ _)
      (hentered _ entry)
    exact stands_of_session hs' hcounted

theorem Storing.counted {out : Except FsmError ArtifactRef × World SessionLedger}
    (storing : Storing host sid w out) (h : Keeps engine sid Ks w) :
    ∀ s, Stands engine sid out.2 s → Counted engine Ks s := by
  cases storing with
  | failed => exact h.counted
  | refused refused => exact h.reliable.elim refused
  | stored hs active =>
    exact stands_of_session (World.setSession_sessions_self _ _ _)
      ((h.counted _ (Or.inl hs)).congr rfl rfl)

/-- Recovery puts into memory what stands. -/
theorem Recovering.counted {out : Except FsmError SessionState × World SessionLedger}
    (recovering : Recovering engine sid w out) (h : Keeps engine sid Ks w) :
    ∀ s, Stands engine sid out.2 s → Counted engine Ks s := by
  cases recovering with
  | failed => exact h.counted
  | @recovered s hs =>
    refine stands_of_session (World.setSession_sessions_self _ _ _) ?_
    have hfold : Folds engine sid w.ledger.events (some s.timeless) := ⟨some s, hs, rfl⟩
    obtain ⟨l, hl, hpos, htally⟩ : ∃ l, Stands engine sid w l ∧ s.position = l.position ∧
        s.tally = l.tally := by
      cases hlive : w.sessions sid with
      | none => exact ⟨s.timeless, Or.inr ⟨hlive, hfold⟩, rfl, rfl⟩
      | some l =>
        obtain ⟨fold, ⟨s₀, hs₀, rfl⟩, -, hmem⟩ := h.remembered
        rw [hs] at hs₀
        cases hs₀
        rw [hlive] at hmem
        have heq : l.timeless = s.timeless := Option.some.inj (hmem.resolve_left nofun)
        refine ⟨l, Or.inl hlive, ?_, ?_⟩
        · show s.timeless.position = _
          rw [← heq]
          rfl
        · show s.timeless.tally = _
          rw [← heq]
          rfl
    exact (h.counted l hl).congr hpos htally

theorem Submission.struck {evidence : ChecklistEvidence} {output : Option Json}
    {missing : List String} {out : Except FsmError StepOutcome × World SessionLedger}
    (wf : engine.profile.WellFormed ed)
    (submission : Submission engine host sid pos evidence output w out)
    (h : Keeps engine sid Ks w)
    (hroute : route engine sid (w.sessions sid) (host.clock w.ticks) pos evidence =
      .rejected i j missing) :
    Struck engine sid i (Ks ++ [evidence.keySet]) missing w.ledger.events out := by
  cases submission with
  | refused fails =>
    rw [route_refused fails] at hroute
    cases hroute
  | late hc late =>
    rw [route_late hc late] at hroute
    cases hroute
  | handled hc late handling =>
    obtain ⟨hs, active, here⟩ := checkSubmission_ok.mp hc
    rw [route_handled hc late] at hroute
    obtain ⟨located, -⟩ := routeAt_eq hroute
    cases handling with
    | rejected hroute' reject =>
      rw [hroute] at hroute'
      cases hroute'
      exact reject.next (w := w.tick) h.reliable
        ((h.counted _ (Or.inl hs)).located wf active here located)
    | lost hroute' | plain hroute' | passed hroute' | final hroute' =>
      cases hroute.symm.trans hroute'
    | approved hroute' | unapproved hroute' => cases hroute.symm.trans hroute'

/-- **A call keeps the invariant.** -/
theorem Keeps.performed (wf : engine.profile.WellFormed ed) (h : Keeps engine sid Ks w)
    (calm : Calm engine sid w host call) :
    Keeps engine sid (nextStrikes engine sid w Ks (host, call))
      (perform engine sid host call w).2 where
  reliable := perform_reliable h.reliable
  remembered := h.remembered.after wf (ledgersWhatItCounts_of_reliable h.reliable)
  counted := by
    cases call with
    | start => exact (exec_startSession).counted wf h
    | submit => exact (exec_submitMilestone).counted wf h calm
    | store => exact (exec_storeArtifact).counted h
    | recover => exact (exec_recoverSession).counted h

/-- **So does a run.** -/
theorem Keeps.run {calls : List (Host × Call)} (wf : engine.profile.WellFormed ed)
    (h : Keeps engine sid Ks w) (calm : Along engine sid (Calm engine sid) w calls) :
    Keeps engine sid (strikesFrom engine sid w Ks calls) (runCalls engine sid w calls) := by
  induction calls generalizing w Ks with
  | nil => exact h
  | cons x rest ih => exact ih (h.performed wf calm.1) calm.2

theorem keeps_of_fresh (hledger : w.ledger.Reliable) (hfresh : w.Fresh sid) :
    Keeps engine sid [] w := by
  refine ⟨hledger, (synced_of_fresh hfresh).remembered, ?_⟩
  rintro s (hs | ⟨-, s₀, hs₀, hmap⟩)
  · rw [hfresh.2] at hs
    cases hs
  · rw [hfresh.1, replayEvents_nil] at hs₀
    cases hs₀
    cases hmap

/-! ## Breakers trip on time -/

variable (engine sid) in
/-- How a session stands whose macro has had the rejections `Ks`, and what the next one does. -/
structure BreakersOnTime (Ks : List (Finset String)) (w : World SessionLedger) : Prop where
  /-- It has counted the rejections, and the longest end of them that are all the same. -/
  counters : ∀ s, w.sessions sid = some s → s.macroIteration.toNat = Ks.length ∧
    IsGreatest (equalEnds Ks) s.consecutiveIdenticalRejections.toNat
  /-- It has failed exactly if the last rejection is the first behind which a breaker is due,
  and is active exactly if there is none. -/
  status : ∀ s, w.sessions sid = some s → s.status = .completed ∨
    ∃ i j, engine.profile.InRange i j ∧ s.position = some (engine.profile.place i j) ∧
      (s.status = .failed ↔ IsLeast (dueAt engine i Ks) Ks.length) ∧
      (s.status = .active ↔ dueAt engine i Ks = ∅)
  next : ∀ host pos evidence output i j missing,
    route engine sid (w.sessions sid) (host.clock w.ticks) pos evidence = .rejected i j missing →
      Struck engine sid i (Ks ++ [evidence.keySet]) missing w.ledger.events
        (Effect.exec (submitMilestone engine host sid pos evidence output) w)

theorem Counted.tallies (h : Counted engine Ks s) : Tallies Ks s := by
  cases h with
  | underway h => exact h.tallies
  | tripped _ _ _ tallies | finished _ tallies => exact tallies

theorem Counted.status (h : Counted engine Ks s) : s.status = .completed ∨
    ∃ i j, engine.profile.InRange i j ∧ s.position = some (engine.profile.place i j) ∧
      (s.status = .failed ↔ IsLeast (dueAt engine i Ks) Ks.length) ∧
      (s.status = .active ↔ dueAt engine i Ks = ∅) := by
  cases h with
  | @underway i j h =>
    refine Or.inr ⟨i, j, h.inRange, h.here, ?_, by simp [h.active, h.undue]⟩
    rw [h.active, h.undue]
    exact ⟨nofun, fun hleast => absurd hleast.1 (Set.notMem_empty _)⟩
  | @tripped i j inRange here failed _ due =>
    refine Or.inr ⟨i, j, inRange, here, by simp [failed, due], ?_⟩
    rw [failed]
    exact ⟨nofun, fun hempty => absurd (hempty ▸ due.1) (Set.notMem_empty _)⟩
  | finished completed => exact Or.inl completed

theorem Keeps.breakersOnTime (wf : engine.profile.WellFormed ed) (h : Keeps engine sid Ks w) :
    BreakersOnTime engine sid Ks w where
  counters s hs := by
    have tallies := (h.counted s (Or.inl hs)).tallies
    exact ⟨tallies.iteration, tallies.identical ▸ streak_isGreatest⟩
  status s hs := (h.counted s (Or.inl hs)).status
  next host pos evidence output i j missing hroute := (exec_submitMilestone).struck wf h hroute

/-- **Breakers trip on time.** After every run of a validated profile on a ledger that takes
every append, the time limit and the caps of gates aside, the session has counted the
rejections of its macro, and it fails at the first behind which a breaker is due. -/
theorem breakers_trip_on_time {vendor : Vendor} {library : Library} {p : Profile}
    {config : FsmConfig} {calls : List (Host × Call)}
    (hvalid : validateProfile vendor.toSchemas library p = .ok ()) (hfresh : w.Fresh sid)
    (hledger : w.ledger.Reliable)
    (calm : Along (new vendor p config) sid (Calm (new vendor p config) sid) w calls) :
    BreakersOnTime (new vendor p config) sid (strikesFrom (new vendor p config) sid w [] calls)
      (runCalls (new vendor p config) sid w calls) :=
  have wf : (new vendor p config).profile.WellFormed vendor.ed := new_wellFormed hvalid
  ((keeps_of_fresh hledger hfresh).run wf calm).breakersOnTime wf

/-- Rejected three times for want of any evidence. -/
theorem breakers_trip_on_time_third :
    BreakersOnTime (Sample.engine [Sample.checklist]) "s1" [∅, ∅, ∅]
      (runCalls (Sample.engine [Sample.checklist]) "s1" (Sample.world fun _ => .ok ())
        [(Sample.host, .start none), Sample.submit "check" .empty, Sample.submit "check" .empty,
          Sample.submit "check" .empty]) := by
  have calm : Along (Sample.engine [Sample.checklist]) "s1"
      (Calm (Sample.engine [Sample.checklist]) "s1") (Sample.world fun _ => .ok ())
      [(Sample.host, .start none), Sample.submit "check" .empty, Sample.submit "check" .empty,
        Sample.submit "check" .empty] := by
    refine ⟨nofun, ?_, ?_, ?_, trivial⟩ <;> rintro pos evidence output ⟨⟩
    · exact ⟨nofun, fun _ _ => trivial⟩
    · exact ⟨nofun, fun _ _ => trivial⟩
    · exact ⟨nofun, fun _ _ => trivial⟩
  exact breakers_trip_on_time Sample.checklist_valid (Sample.world_fresh _ _) (fun _ => rfl) calm

end ProfileFsmEngine

end ProtocolEnforcer
