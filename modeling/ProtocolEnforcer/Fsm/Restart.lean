import ProtocolEnforcer.Fsm.Fidelity

/-!
# Runs and restarts

`Faithful` over whole runs. With a reliable ledger, what a restart recovers after
any call is what is in memory. When appends fail, it still is, as long as two
things do not happen: a rejected checklist that is counted and not ledgered, and an
accepted approval that is ledgered while its move is not.
-/

namespace ProtocolEnforcer

open Relation

namespace ProfileFsmEngine

variable (engine : ProfileFsmEngine) (sid : String)

/-- What a restart would put in memory, without wall-clock fields. -/
def restarted (w : World SessionLedger) : Except FsmError SessionState :=
  (recoverProfileSession sid w.ledger engine.profile).map SessionState.timeless

/-- What is in memory, without wall-clock fields. -/
def inMemory (w : World SessionLedger) : Except FsmError SessionState :=
  ((w.sessions sid).map SessionState.timeless).elim (.error (.sessionNotFound sid)) .ok

/-- What a restart recovers is what is in memory. -/
def Synced (w : World SessionLedger) : Prop :=
  ∃ fold, Folds engine sid w.ledger.events fold ∧ (∀ s, fold = some s → Parked engine s) ∧
    (w.sessions sid).map SessionState.timeless = fold

/-- What a restart recovers is what is in memory, if anything is. -/
def Remembered (w : World SessionLedger) : Prop :=
  ∃ fold, Folds engine sid w.ledger.events fold ∧ (∀ s, fold = some s → Parked engine s) ∧
    ((w.sessions sid).map SessionState.timeless = none ∨
      (w.sessions sid).map SessionState.timeless = fold)

variable {engine sid} {w : World SessionLedger}

theorem restarted_of_folds {fold : Option SessionState}
    (h : Folds engine sid w.ledger.events fold) :
    restarted engine sid w = fold.elim (.error (.sessionNotFound sid)) .ok := by
  obtain ⟨s₀, hs₀, rfl⟩ := h
  rw [restarted, SessionLedger.recover_eq, hs₀]
  cases s₀ <;> rfl

theorem Synced.restarted_eq (h : Synced engine sid w) :
    restarted engine sid w = inMemory sid w := by
  obtain ⟨fold, hfold, -, hmem⟩ := h
  rw [restarted_of_folds hfold, inMemory, hmem]

theorem Synced.remembered (h : Synced engine sid w) : Remembered engine sid w := by
  obtain ⟨fold, hfold, hparked, hmem⟩ := h
  exact ⟨fold, hfold, hparked, Or.inr hmem⟩

theorem Remembered.restarted_eq (h : Remembered engine sid w) {s : SessionState}
    (hs : w.sessions sid = some s) : restarted engine sid w = .ok s.timeless := by
  obtain ⟨fold, hfold, -, hnone | hmem⟩ := h
  · rw [hs] at hnone
    cases hnone
  · rw [restarted_of_folds hfold, ← hmem, hs]
    rfl

theorem synced_of_fresh (h : w.Fresh sid) : Synced engine sid w := by
  refine ⟨none, ⟨none, ?_, rfl⟩, nofun, ?_⟩
  · rw [h.1, replayEvents_nil]
  · rw [h.2, Option.map_none]

/-! ## One call -/

variable {ed : Ed25519} {host : Host} {call : Call}

/-- No step ends where a call begins. -/
theorem Course.eq_of_ready {c d : Snapshot} (h : Course engine host sid call c d)
    (hd : d.stage = .ready) : c = d := by
  cases h with
  | refl => rfl
  | tail _ hstep => cases hstep <;> cases hd

/-- A start the ledger refused has left no trace in it. -/
theorem Course.eq_of_unborn {c d : Snapshot} (h : Course engine host sid call c d)
    (hd : d.stage = .unborn) (hc : c.stage = .ready) : d = ⟨none, c.events, .unborn⟩ := by
  cases h with
  | refl =>
    rw [hc] at hd
    cases hd
  | tail hcourse hstep =>
    cases hstep with
    | unborn => rw [Course.eq_of_ready hcourse rfl]
    | _ => cases hd

/-- Where a call ends, and that the invariant of the course holds there. -/
theorem Remembered.ends (host : Host) (call : Call) (wf : engine.profile.WellFormed ed)
    (h : Remembered engine sid w) :
    ∃ stage, Walks engine host sid call w (perform engine sid host call w).2
        (perform engine sid host call w).1 stage ∧
      Faithful engine sid call (snap sid (perform engine sid host call w).2 stage) := by
  obtain ⟨stage, course, stops⟩ := perform_course w
  have hready : Faithful engine sid call (snap sid w .ready) := h
  exact ⟨stage, ⟨course, stops⟩,
    Runs.invariant (fun hstep hc => hc.step wf hstep) course hready⟩

/-- What a call leaves is what its snapshot shows. -/
theorem Synced.of_snap {w' : World SessionLedger} {stage : Stage} (h : Synced engine sid w)
    (heq : snap sid w stage = snap sid w' stage) : Synced engine sid w' := by
  unfold snap at heq
  injection heq with hlive hevents
  obtain ⟨fold, hfold, hparked, hmem⟩ := h
  exact ⟨fold, hevents ▸ hfold, hparked, hlive ▸ hmem⟩

/-- A start that leaves memory and ledger at one: it is invalid, or every append it
needs is taken and its entry point lands, or the ledger refuses it and there was no
session to lose. -/
def StartsWhole (engine : ProfileFsmEngine) (sid : String) (w : World SessionLedger) (host : Host)
    (call : Call) : Prop :=
  ∀ initialContext, call = .start initialContext →
    (∃ e, validated engine host = .error e) ∨
    (w.Takes ∧ ∀ m k, entryPoint engine = .ok (m, k) →
      ¬LandingFails engine host w 0 k initialContext (w.ledger.attempts + 1)) ∨
    (∃ e, w.Refuses e) ∧ w.sessions sid = none

/-- A rejected checklist is ledgered, and an accepted approval together with its move
or not at all. -/
def CountLedgered (w : World SessionLedger) : Route → Prop
  | .rejected _ _ _ => w.Takes
  | .approved _ _ _ _ => w.Takes → w.ledger.outcome (w.ledger.attempts + 1) = .ok ()
  | _ => True

/-- What a submission counts, it ledgers. -/
def LedgersWhatItCounts (engine : ProfileFsmEngine) (sid : String) (w : World SessionLedger)
    (host : Host) (call : Call) : Prop :=
  ∀ pos evidence output, call = .submit pos evidence output →
    CountLedgered w (route engine sid (w.sessions sid) (host.clock w.ticks) pos evidence)

/-- A call whose counts reach the ledger keeps memory reproducible. -/
theorem Remembered.after (wf : engine.profile.WellFormed ed) (h : Remembered engine sid w)
    (hcall : LedgersWhatItCounts engine sid w host call) :
    Remembered engine sid (perform engine sid host call w).2 := by
  obtain ⟨stage, ⟨-, stops⟩, fold, hfold, hparked, hmatch⟩ := h.ends host call wf
  refine ⟨fold, hfold, hparked, ?_⟩
  cases stops with
  | ready => exact hmatch
  | settled | refused | struck | landed | passed => exact Or.inr hmatch
  | unborn | stillborn => exact Or.inl hmatch
  | bumped heq hroute refused =>
    have := hcall _ _ _ heq
    rw [hroute] at this
    exact absurd (this.symm.trans refused) nofun
  | spent heq hroute taken refused =>
    have := hcall _ _ _ heq
    rw [hroute] at this
    exact absurd ((this taken).symm.trans refused) nofun

/-- If it also starts whole, memory and ledger stay at one. -/
theorem Synced.after (wf : engine.profile.WellFormed ed) (h : Synced engine sid w)
    (hcall : LedgersWhatItCounts engine sid w host call)
    (hstart : StartsWhole engine sid w host call) :
    Synced engine sid (perform engine sid host call w).2 := by
  obtain ⟨stage, ⟨course, stops⟩, fold, hfold, hparked, hmatch⟩ := h.remembered.ends host call wf
  cases stops with
  | ready => exact h.of_snap (course.eq_of_ready rfl)
  | settled | refused | struck | landed | passed => exact ⟨fold, hfold, hparked, hmatch⟩
  | bumped heq hroute refused =>
    have := hcall _ _ _ heq
    rw [hroute] at this
    exact absurd (this.symm.trans refused) nofun
  | spent heq hroute taken refused =>
    have := hcall _ _ _ heq
    rw [hroute] at this
    exact absurd ((this taken).symm.trans refused) nofun
  | unborn heq failed valid refused =>
    rcases hstart _ heq with ⟨e, he⟩ | ⟨taken, -⟩ | ⟨-, hnone⟩
    · exact absurd (valid.symm.trans he) nofun
    · exact absurd (taken.symm.trans refused) nofun
    · -- nothing was in memory, and nothing is
      refine h.of_snap (show snap sid w .unborn = _ from ?_)
      rw [course.eq_of_unborn rfl rfl, snap, hnone]
      rfl
  | stillborn heq failed valid entry taken why =>
    rcases hstart _ heq with ⟨e, he⟩ | ⟨-, lands⟩ | ⟨⟨e, refused⟩, -⟩
    · exact absurd (valid.symm.trans he) nofun
    · exact absurd why (lands _ _ entry)
    · exact absurd (taken.symm.trans refused) nofun

/-- A rejection counted once more is another count. -/
theorem strikeOut_ne (s : SessionState) (keys : List String) :
    (s.strikeOut keys).timeless ≠ s.timeless := by
  intro h
  have hcount : s.macroIteration + 1 = s.macroIteration := congrArg SessionState.macroIteration h
  simp at hcount

/-- A submission that counts without ledgering leaves a session in memory that a
restart would not recover. -/
theorem Submission.ahead_of_ledger {pos : Position} {evidence : ChecklistEvidence}
    {output : Option Json} {out : Except FsmError StepOutcome × World SessionLedger}
    (submission : Submission engine host sid pos evidence output w out) (h : Synced engine sid w)
    (hcall : ¬CountLedgered w
      (route engine sid (w.sessions sid) (host.clock w.ticks) pos evidence)) :
    ∃ s, out.2.sessions sid = some s ∧ restarted engine sid out.2 ≠ .ok s.timeless := by
  obtain ⟨fold, hfold, -, hmem⟩ := h
  cases submission with
  | refused fails =>
    rw [route_refused fails] at hcall
    exact absurd trivial hcall
  | late hc hlate trip =>
    rw [route_late hc hlate] at hcall
    exact absurd trivial hcall
  | @handled s out hc hlate handling =>
    rw [route_handled hc hlate] at hcall
    obtain ⟨hs, -, -⟩ := checkSubmission_ok.mp hc
    rw [hs, Option.map_some] at hmem
    subst hmem
    cases handling with
    | rejected hroute reject =>
      rw [hroute] at hcall
      cases reject with
      | refused refused =>
        refine ⟨_, World.setSession_sessions_self _ _ _, fun heq => ?_⟩
        have hsame := (restarted_of_folds (w := World.lost _) hfold).symm.trans heq
        exact strikeOut_ne _ _ (Except.ok.inj hsame).symm
      | _ => exact absurd ‹World.Takes _› hcall
    | @approved i j signature nonce out hroute accept =>
      rw [hroute] at hcall
      obtain ⟨-, -, hverdict⟩ := routeAt_eq hroute
      obtain ⟨-, hpending, -⟩ := check_accepted hverdict
      cases accept with
      | refused refused => exact absurd (fun htakes => absurd (htakes.symm.trans refused) nofun) hcall
      | accepted taken advance =>
        cases advance with
        | moved taken' => exact absurd (fun _ => taken') hcall
        | refused refused =>
          -- the ledger has spent the challenge that memory still holds
          refine ⟨s, hs, fun heq => ?_⟩
          have hspent := (restarted_of_folds (w := (approvedAt host sid pos signature nonce
            w.tick).lost) (hfold.snoc nofun rfl rfl)).symm.trans heq
          have hnone := congrArg SessionState.pendingApproval (Except.ok.inj hspent)
          exact absurd (hnone.trans hpending) nofun
    | lost hroute | plain hroute | passed hroute | final hroute | unapproved hroute =>
      rw [hroute] at hcall
      exact absurd trivial hcall

/-- The condition is exact, call by call. -/
theorem ahead_of_ledger (h : Synced engine sid w)
    (hcall : ¬LedgersWhatItCounts engine sid w host call) :
    ∃ s, (perform engine sid host call w).2.sessions sid = some s ∧
      restarted engine sid (perform engine sid host call w).2 ≠ .ok s.timeless := by
  simp only [LedgersWhatItCounts, not_forall] at hcall
  obtain ⟨pos, evidence, output, rfl, hcall⟩ := hcall
  exact (exec_submitMilestone).ahead_of_ledger h hcall

/-! ## Runs -/

section

variable {vendor : Vendor} {library : Library} {p : Profile} {config : FsmConfig}
  {calls : List (Host × Call)}

/-- The engine of a validated profile steps through a well-formed one. -/
theorem new_wellFormed (hvalid : validateProfile vendor.toSchemas library p = .ok ()) :
    (new vendor p config).profile.WellFormed vendor.ed :=
  validateProfile_wellFormed hvalid

/-- Every start of the run answers with a view. -/
def StartsOk (engine : ProfileFsmEngine) (sid : String) (w : World SessionLedger) (host : Host)
    (call : Call) : Prop :=
  ∀ initialContext, call = .start initialContext → ∃ r, (perform engine sid host call w).1 = .ok r

/-- A reliable ledger ledgers whatever is counted. -/
theorem ledgersWhatItCounts_of_reliable (h : w.ledger.Reliable) :
    LedgersWhatItCounts engine sid w host call := by
  intro pos evidence output _
  unfold CountLedgered
  split
  · exact h _
  · exact fun _ => h _
  · trivial

/-- With a reliable ledger, a start that answers has started whole. -/
theorem Synced.after_reliable (wf : engine.profile.WellFormed ed) (h : Synced engine sid w)
    (hledger : w.ledger.Reliable) (hstart : StartsOk engine sid w host call) :
    Synced engine sid (perform engine sid host call w).2 := by
  obtain ⟨stage, ⟨course, stops⟩, fold, hfold, hparked, hmatch⟩ := h.remembered.ends host call wf
  cases stops with
  | ready => exact h.of_snap (course.eq_of_ready rfl)
  | settled | refused | struck | landed | passed => exact ⟨fold, hfold, hparked, hmatch⟩
  | bumped _ _ refused => exact hledger.elim refused
  | spent _ _ _ refused => exact hledger.elim refused
  | unborn heq failed | stillborn heq failed =>
    obtain ⟨r, hr⟩ := hstart _ heq
    exact absurd hr (failed r)

/-- **Recovery is exact.** After every run (so after each of its calls, a run cut
there being a run) in which no append fails and every start answers, a restart
recovers the session in memory, but for its wall-clock fields. -/
theorem recovery_exact {sid : String}
    (hvalid : validateProfile vendor.toSchemas library p = .ok ()) (hfresh : w.Fresh sid)
    (hledger : w.ledger.Reliable)
    (hstarts : Along (new vendor p config) sid (StartsOk (new vendor p config) sid) w calls) :
    restarted (new vendor p config) sid (runCalls (new vendor p config) sid w calls) =
      inMemory sid (runCalls (new vendor p config) sid w calls) := by
  have keeps : Synced (new vendor p config) sid (runCalls (new vendor p config) sid w calls) ∧
      (runCalls (new vendor p config) sid w calls).ledger.Reliable :=
    hstarts.invariant (I := fun w => Synced (new vendor p config) sid w ∧ w.ledger.Reliable)
      (fun w x hstart ⟨hsync, hrel⟩ =>
        ⟨hsync.after_reliable (new_wellFormed hvalid) hrel hstart,
          perform_reliable hrel⟩)
      ⟨synced_of_fresh hfresh, hledger⟩
  exact keeps.1.restarted_eq

/-- Started, rejected once and then completed: both sides are the completed session. -/
theorem recovery_exact_completed :
    restarted (Sample.engine [Sample.checklist]) "s1"
        (runCalls (Sample.engine [Sample.checklist]) "s1" (Sample.world fun _ => .ok ())
          [(Sample.host, .start none), Sample.submit "check" .empty,
            Sample.submit "check" Sample.done]) =
      inMemory "s1"
        (runCalls (Sample.engine [Sample.checklist]) "s1" (Sample.world fun _ => .ok ())
          [(Sample.host, .start none), Sample.submit "check" .empty,
            Sample.submit "check" Sample.done]) := by
  exact recovery_exact Sample.checklist_valid (Sample.world_fresh _ _) (fun _ => rfl)
    ⟨fun _ _ => ⟨_, rfl⟩, nofun, nofun, trivial⟩

/-- **Memory is reproducible when its counts are ledgered.** In a run with any
appends failing, if every rejected checklist is ledgered and every accepted approval
is ledgered with its move or not at all, the session in memory is the one a restart
recovers; and if the starts are whole too, a restart recovers none but that one. -/
theorem memory_reproducible {sid : String}
    (hvalid : validateProfile vendor.toSchemas library p = .ok ()) (hfresh : w.Fresh sid)
    (hcalls : Along (new vendor p config) sid (LedgersWhatItCounts (new vendor p config) sid)
      w calls) :
    (∀ s, (runCalls (new vendor p config) sid w calls).sessions sid = some s →
      restarted (new vendor p config) sid (runCalls (new vendor p config) sid w calls) =
        .ok s.timeless) ∧
    (Along (new vendor p config) sid (StartsWhole (new vendor p config) sid) w calls →
      restarted (new vendor p config) sid (runCalls (new vendor p config) sid w calls) =
        inMemory sid (runCalls (new vendor p config) sid w calls)) := by
  have wf : (new vendor p config).profile.WellFormed vendor.ed := new_wellFormed hvalid
  constructor
  · intro s hs
    exact Remembered.restarted_eq (hcalls.invariant
      (fun w x hcall h => h.after wf hcall) (synced_of_fresh hfresh).remembered) hs
  · intro hstarts
    exact Synced.restarted_eq ((hcalls.and hstarts).invariant
      (fun w x hcall h => h.after wf hcall.1 hcall.2) (synced_of_fresh hfresh))

/-- A rejected checklist whose second append fails after the first was taken. -/
theorem memory_reproducible_rejected :
    restarted (Sample.engine [Sample.checklist]) "s1"
        (runCalls (Sample.engine [Sample.checklist]) "s1" (Sample.world (Sample.failsAt 2))
          [(Sample.host, .start none), Sample.submit "check" .empty,
            Sample.submit "check" Sample.done]) =
      inMemory "s1"
        (runCalls (Sample.engine [Sample.checklist]) "s1" (Sample.world (Sample.failsAt 2))
          [(Sample.host, .start none), Sample.submit "check" .empty,
            Sample.submit "check" Sample.done]) := by
  refine (memory_reproducible Sample.checklist_valid (Sample.world_fresh _ _) ?_).2 ?_
  · refine ⟨nofun, ?_, ?_, trivial⟩
    · rintro _ _ _ h
      cases h
      rfl
    · rintro _ _ _ h
      cases h
      trivial
  · refine ⟨?_, nofun, nofun, trivial⟩
    rintro _ -
    refine Or.inr (Or.inl ⟨rfl, ?_⟩)
    rintro m k h
    cases h
    rintro (⟨e, he⟩ | ⟨gate, -⟩)
    · cases he
    · cases gate

/-- A refused append leaves memory ahead of the ledger: a rejection that only memory
counts, and a challenge that only memory still holds. -/
theorem memory_ahead_of_ledger :
    (let w := runCalls (Sample.engine [Sample.checklist]) "s1" (Sample.world (Sample.failsAt 1))
      [(Sample.host, .start none), Sample.submit "check" .empty]
     (inMemory "s1" w).toOption.map (·.macroIteration) = some 1 ∧
      (restarted (Sample.engine [Sample.checklist]) "s1" w).toOption.map (·.macroIteration) =
        some 0) ∧
    (let w := runCalls (Sample.engine [Sample.signoff, Sample.checklist]) "s1"
      (Sample.world (Sample.failsAt 3))
      [(Sample.host, .start none), Sample.submit "signoff" Sample.signed]
     (inMemory "s1" w).toOption.map (·.pendingApproval.isSome) = some true ∧
      (restarted (Sample.engine [Sample.signoff, Sample.checklist]) "s1" w).toOption.map
        (·.pendingApproval.isSome) = some false) := by
  decide +kernel

end

end ProfileFsmEngine

end ProtocolEnforcer
