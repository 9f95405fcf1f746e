import ProtocolEnforcer.Fsm.Directory
import ProtocolEnforcer.Fsm.NeverStuck
import ProtocolEnforcer.Fsm.Passivity
import ProtocolEnforcer.Fsm.Restart

/-!
# Many sessions through one engine

Live, the sessions of one engine are apart. A session is recovered from what the engine has
appended if it is the one the ledger was opened for.
-/

namespace ProtocolEnforcer

namespace ProfileFsmEngine

open Effect

/-! ## Apart in memory -/

section

variable {L M : Type} [LedgerPort L] [LedgerPort M] (engine : ProfileFsmEngine) (sid : String)

/-- What becomes of `v` when, of a run from `w`, only the calls on `sid` are made: while the
others are, time passes. -/
def alone : World L → World M → List (String × Host × Call) → World M
  | _, v, [] => v
  | w, v, (x, host, call) :: calls =>
    let w' := (perform engine x host call w).2
    if x = sid then alone w' (perform engine x host call v).2 calls
    else alone w' { v with ticks := w'.ticks } calls

end

variable {engine : ProfileFsmEngine} {sid : String}

/-- Two reliable ledgers answer alike, whatever they hold. -/
theorem answers_reliable :
    Answers (fun l m : DirectoryLedger => l.Reliable ∧ m.Reliable) sid := by
  rintro l m e - ⟨hl, hm⟩
  refine ⟨?_, hl.appended e, hm.appended e⟩
  rw [hl.append_eq, hm.append_eq]

/-- A run shows a session what the calls on it alone show. -/
theorem alone_mirrors {w v : World DirectoryLedger} {others : String → Option SessionState}
    {calls : List (String × Host × Call)} (hcalls : ∀ x ∈ calls, x.2.2 ≠ .recover)
    (h : Mirror (fun l m => l.Reliable ∧ m.Reliable) sid others w v) :
    (performAll engine w calls).2.sessions sid = (alone engine sid w v calls).sessions sid := by
  induction calls generalizing w v others with
  | nil => exact h.session
  | cons x calls ih =>
    obtain ⟨x, host, call⟩ := x
    have hcall : call ≠ .recover := hcalls _ List.mem_cons_self
    have hrest : ∀ y ∈ calls, y.2.2 ≠ .recover := fun y hy => hcalls y (List.mem_cons_of_mem _ hy)
    show (performAll engine (perform engine x host call w).2 calls).2.sessions sid = _
    unfold alone
    by_cases hx : x = sid
    · subst hx
      rw [if_pos rfl]
      exact ih hrest (perform_mirrors answers_reliable hcall h).2
    · rw [if_neg hx]
      have hreliable : (perform engine x host call w).2.ledger.Reliable :=
        perform_ledger (I := DirectoryLedger.Reliable)
          (fun _ e hl => hl.appended e) hcall h.ledger.1
      have hsession : (perform engine x host call w).2.sessions sid = v.sessions sid :=
        (perform_other hcall (Ne.symm hx)).trans h.session
      have hmirror : Mirror (fun l m => l.Reliable ∧ m.Reliable) sid
          (perform engine x host call w).2.sessions (perform engine x host call w).2
          { v with ticks := (perform engine x host call w).2.ticks } :=
        ⟨⟨hreliable, h.ledger.2⟩, hsession, fun _ _ => rfl, rfl⟩
      exact ih hrest hmirror

/-! ## Recovered from one file -/

/-- `recover_session` on a fresh engine over `ledger`, without wall-clock fields. -/
def recoveredAfresh {L : Type} [LedgerPort L] (engine : ProfileFsmEngine) (sid : String)
    (ledger : L) : Except FsmError SessionState :=
  (exec (recoverSession engine sid) ⟨ledger, fun _ => none, 0⟩).1.map SessionState.timeless

theorem recoveredAfresh_eq {L : Type} [LedgerPort L] (ledger : L) :
    recoveredAfresh engine sid ledger =
      (recoverProfileSession sid ledger engine.profile).map SessionState.timeless := by
  unfold recoveredAfresh recoverSession
  rw [exec_bind_ok (exec_reads _ _)]
  cases h : recoverProfileSession sid ledger engine.profile with
  | error e => rw [exec_bind_error (exec_lift _ _)]
  | ok s => rw [exec_bind_ok (exec_lift _ _)]; rfl

/-- The ledger's own session is recovered from its file, -/
theorem OwnFile.recovered {own : String} {l : DirectoryLedger} {v : World SessionLedger}
    (h : OwnFile own l v.ledger) : recoveredAfresh engine own l = restarted engine own v := by
  rw [recoveredAfresh_eq, restarted, h.recover_own]

/-- and no other from any. -/
theorem OwnFile.unknown {own : String} {l : DirectoryLedger} {m : SessionLedger}
    (h : OwnFile own l m) (hsid : sid ≠ own) :
    recoveredAfresh engine sid l = .error (.sessionNotFound sid) := by
  rw [recoveredAfresh_eq, h.recover_other hsid]
  rfl

section

variable {vendor : Vendor} {p : Profile} {config : FsmConfig} {own : String}
  {w : World DirectoryLedger} {v : World SessionLedger}

/-- A call does nothing, or the profile is one that can be stepped through. -/
theorem perform_idle_or_wellFormed {host : Host} {call : Call} (hcall : call ≠ .recover)
    (hlive : v.sessions own = none ∨ (new vendor p config).profile.WellFormed vendor.ed) :
    (perform (new vendor p config) own host call v).2 = v ∨
      (new vendor p config).profile.WellFormed vendor.ed := by
  by_cases hvalid : validated (new vendor p config) host = .ok ()
  · exact .inr (wellFormed_of_validated hvalid)
  · rcases hlive with hnone | wf
    · exact .inl (perform_idle hcall hnone fun _ _ => hvalid)
    · exact .inr wf

/-- Every start that passes validation lands: its sub-state renders, and a gate there gets
its entropy. -/
def StartsLand (engine : ProfileFsmEngine) (x : String × Host × Call) : Prop :=
  ∀ ctx, x.2.2 = .start ctx → validated engine x.2.1 = .ok () →
    ∀ m k, entryPoint engine = .ok (m, k) → landingError engine x.2.1 0 k ctx = none

/-- The run is that of one session over its own ledger: what each of its calls keeps there,
the run keeps. -/
theorem own_run {K : World SessionLedger → Prop} {calls : List (String × Host × Call)}
    (hcalls : ∀ x ∈ calls, x.2.2 ≠ .recover)
    (hown : ∀ x ∈ calls, StartsOwn (new vendor p config) own x)
    (hK : ∀ x ∈ calls, (new vendor p config).profile.WellFormed vendor.ed →
      ∀ v : World SessionLedger, v.ledger.Reliable → K v →
        K (perform (new vendor p config) own x.2.1 x.2.2 v).2)
    (h : OwnView own w v) (hv : K v)
    (hlive : v.sessions own = none ∨ (new vendor p config).profile.WellFormed vendor.ed) :
    ∃ v', OwnView own (performAll (new vendor p config) w calls).2 v' ∧ K v' := by
  induction calls generalizing w v with
  | nil => exact ⟨v, h, hv⟩
  | cons x calls ih =>
    obtain ⟨x, host, call⟩ := x
    have hrest : ∀ {w : World DirectoryLedger} {v : World SessionLedger}, OwnView own w v → K v →
        (v.sessions own = none ∨ (new vendor p config).profile.WellFormed vendor.ed) →
        ∃ v', OwnView own (performAll (new vendor p config) w calls).2 v' ∧ K v' :=
      ih (fun y hy => hcalls y (List.mem_cons_of_mem _ hy))
        (fun y hy => hown y (List.mem_cons_of_mem _ hy))
        (fun y hy => hK y (List.mem_cons_of_mem _ hy))
    by_cases hx : x = own
    · subst hx
      have hview : OwnView x (perform (new vendor p config) x host call w).2
          (perform (new vendor p config) x host call v).2 := h.performed.2
      have hone : (perform (new vendor p config) x host call v).2 = v ∨
          (new vendor p config).profile.WellFormed vendor.ed :=
        perform_idle_or_wellFormed (hcalls _ List.mem_cons_self) hlive
      rcases hone with hsame | wf
      · rw [hsame] at hview
        exact hrest hview hv hlive
      · exact hrest hview (hK _ List.mem_cons_self wf v h.ledger.taken hv) (.inr wf)
    · have hidle : (perform (new vendor p config) x host call w).2 = w :=
        h.idle (hown _ List.mem_cons_self) hx
      have hstill : OwnView own (perform (new vendor p config) x host call w).2 v := by
        rw [hidle]
        exact h
      exact hrest hstill hv hlive

/-- With a reliable ledger a start that lands has started whole. -/
theorem startsWhole_of_lands {host : Host} {call : Call} (h : StartsLand engine (own, host, call))
    (hv : v.ledger.Reliable) : StartsWhole engine own v host call := by
  intro ctx hctx
  cases hvalid : validated engine host with
  | error e => exact .inl ⟨e, rfl⟩
  | ok _ =>
    refine .inr (.inl ⟨hv _, fun m k hentry => ?_⟩)
    rintro (⟨e, he⟩ | ⟨-, hrefused⟩)
    · exact absurd ((h ctx hctx hvalid m k hentry).symm.trans he) nofun
    · exact hv.not_refuses hrefused

/-- **Many sessions, one file.** In every run of calls on any sessions through one engine,
with no append failing, each session's live state is what the calls on it alone make. If
every start that passes validation is of the session the ledger was opened for, a fresh
engine over the ledger recovers each live session as it is; and if those starts land, it
knows no others. -/
theorem sessions_recovered_when_own {calls : List (String × Host × Call)}
    (hw : Untouched w) (hcalls : ∀ x ∈ calls, x.2.2 ≠ .recover) :
    (∀ sid, (performAll (new vendor p config) w calls).2.sessions sid =
      (alone (new vendor p config) sid w w calls).sessions sid) ∧
    ((∀ x ∈ calls, StartsOwn (new vendor p config) w.ledger.sessionId x) →
      (∀ sid s, (performAll (new vendor p config) w calls).2.sessions sid = some s →
        recoveredAfresh (new vendor p config) sid
          (performAll (new vendor p config) w calls).2.ledger = .ok s.timeless) ∧
      ((∀ x ∈ calls, StartsLand (new vendor p config) x) → ∀ sid,
        (performAll (new vendor p config) w calls).2.sessions sid = none →
        recoveredAfresh (new vendor p config) sid
          (performAll (new vendor p config) w calls).2.ledger = .error (.sessionNotFound sid))) := by
  refine ⟨fun sid => ?_, fun hown => ?_⟩
  · have hmirror : Mirror (fun l m => l.Reliable ∧ m.Reliable) sid w.sessions w w :=
      ⟨⟨hw.reliable, hw.reliable⟩, rfl, fun _ _ => rfl, rfl⟩
    exact alone_mirrors hcalls hmirror
  have hsynced : Synced (new vendor p config) w.ledger.sessionId (unopened w.ticks) :=
    synced_of_fresh unopened_fresh
  constructor
  · intro sid s hs
    obtain ⟨v', hend, hkept⟩ := own_run hcalls hown
      (fun x _ wf v hv h => Remembered.after wf h (ledgersWhatItCounts_of_reliable hv))
      hw.ownView hsynced.remembered (.inl rfl)
    by_cases hsid : sid = w.ledger.sessionId
    · subst hsid
      rw [hend.ledger.recovered]
      exact hkept.restarted_eq (hend.session.symm.trans hs)
    · exact absurd (hs.symm.trans (hend.others sid hsid)) nofun
  · intro hland sid hnone
    obtain ⟨v', hend, hkept⟩ := own_run hcalls hown
      (K := Synced (new vendor p config) w.ledger.sessionId)
      (fun x hx wf v hv h => h.after wf (ledgersWhatItCounts_of_reliable hv)
        (startsWhole_of_lands (hland x hx) hv)) hw.ownView hsynced (.inl rfl)
    by_cases hsid : sid = w.ledger.sessionId
    · subst hsid
      rw [hend.ledger.recovered, hkept.restarted_eq, inMemory, ← hend.session, hnone]
      rfl
    · exact hend.ledger.unknown hsid

end

end ProfileFsmEngine

/-! ## Two sessions on one engine -/

namespace Sample

/-- `s1` is opened and completed, while `s2` is submitted to without having been started. -/
def ownCalls : List (String × Host × Call) :=
  [("s1", host, .start none), ("s2", submit "check" done), ("s1", submit "check" done)]

/-- Both are opened, and `s2` is rejected once. -/
def bothCalls : List (String × Host × Call) :=
  [("s1", host, .start none), ("s2", host, .start none), ("s2", submit "check" .empty)]

end Sample

namespace ProfileFsmEngine

theorem sessions_recovered_when_own_completed :
    recoveredAfresh (Sample.engine [Sample.checklist]) "s2"
        (performAll (Sample.engine [Sample.checklist]) Sample.directory Sample.ownCalls).2.ledger =
      .error (.sessionNotFound "s2") := by
  have hcalls : ∀ x ∈ Sample.ownCalls, x.2.2 ≠ .recover := by
    simp [Sample.ownCalls, Sample.submit]
  have hown : ∀ x ∈ Sample.ownCalls, StartsOwn (Sample.engine [Sample.checklist]) "s1" x := by
    simp [Sample.ownCalls, Sample.submit, StartsOwn]
  have hland : ∀ x ∈ Sample.ownCalls, StartsLand (Sample.engine [Sample.checklist]) x := by
    have hsubmit : ∀ sid, StartsLand (Sample.engine [Sample.checklist])
        (sid, Sample.submit "check" Sample.done) := fun _ _ hctx => by cases hctx
    simp only [Sample.ownCalls, List.forall_mem_cons]
    refine ⟨fun ctx hctx _ m k hentry => ?_, hsubmit "s2", hsubmit "s1", List.forall_mem_nil _⟩
    cases hctx
    cases hentry
    rfl
  exact ((sessions_recovered_when_own Sample.directory_untouched hcalls).2 hown).2 hland "s2" rfl

/-- The ledger of `s1` takes in the events of `s2`: `s2` is live and cannot be recovered,
and `s1` is recovered with its rejection. -/
theorem sessions_mixed :
    Untouched Sample.directory ∧ (∀ x ∈ Sample.bothCalls, x.2.2 ≠ .recover) ∧
    let w := (performAll (Sample.engine [Sample.checklist]) Sample.directory Sample.bothCalls).2
    (w.sessions "s2").isSome ∧
      recoveredAfresh (Sample.engine [Sample.checklist]) "s2" w.ledger =
        .error (.sessionNotFound "s2") ∧
      (w.sessions "s1").map (·.macroIteration) = some 0 ∧
      (recoveredAfresh (Sample.engine [Sample.checklist]) "s1" w.ledger).toOption.map
        (·.macroIteration) = some 1 := by
  refine ⟨Sample.directory_untouched, ?_, ?_⟩
  · simp [Sample.bothCalls, Sample.submit]
  · exact ⟨rfl, rfl, rfl, rfl⟩

end ProfileFsmEngine

end ProtocolEnforcer
