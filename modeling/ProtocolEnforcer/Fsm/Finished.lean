import ProtocolEnforcer.Fsm.Directory
import ProtocolEnforcer.Fsm.Restart
import ProtocolEnforcer.Fsm.Writes
import ProtocolEnforcer.Ledger.Merkle

/-!
# Finished sessions

A session that is no longer active is refused by the first check of both operations that
could change it, and what a recovery puts in its place is the same session, since memory
and ledger agree on it (`Remembered`). So nothing is appended behind its end, and the root
of its transcript stays what it was when the session completed.
-/

namespace ProtocolEnforcer

open Relation

/-- `transcript_root_in`. -/
def transcriptRootIn (sha256 : Bytes → Digest) (file : Option Bytes) : Option String :=
  match Ledger.lines file with
  | .ok leaves => some (toHex (Merkle.root sha256 leaves).bytes)
  | .error _ => none

namespace ProfileFsmEngine

open Effect

variable {engine : ProfileFsmEngine} {sid : String} {w : World SessionLedger} {host : Host}
  {s : SessionState}

/-! ## Reachable worlds -/

/-- Memory that is lost in the middle of a call leaves a ledger that can be recovered. -/
theorem Remembered.crashed {ed : Ed25519} (wf : engine.profile.WellFormed ed)
    (h : Remembered engine sid w) (host : Host) (call : Call) (n : Nat) :
    Remembered engine sid (occur engine sid w (.crash host call n)) := by
  obtain ⟨stage, course, -⟩ :
    ∃ stage, Walks engine host sid call w _ _ stage := perform_course w
  have hready : Faithful engine sid call (snap sid w .ready) := h
  have hgrow : (snap sid w .ready).events <+:
      (snap sid (perform engine sid host call w).2 stage).events :=
    Runs.log_grows (step_growing engine host sid call) course
  -- the ledger passes through what the crash leaves of it
  obtain ⟨m, hm, -, hlog⟩ := Runs.passes_prefix (step_growing engine host sid call) course
    (p := (perform engine sid host call w).2.ledger.events.take (w.ledger.events.length + n))
    (List.prefix_take_iff.mpr ⟨hgrow, Nat.le_add_right _ _⟩) (List.take_prefix _ _)
  obtain ⟨fold, hfold, hparked, -⟩ := Runs.invariant (fun hstep hc => hc.step wf hstep) hm hready
  rw [show m.events = _ from hlog] at hfold
  exact ⟨fold, hfold, hparked, Or.inl rfl⟩

/-- **In every run of calls and crashes in which no append fails** a recovery finds the
session in memory, if there is one. -/
theorem remembered_run {ed : Ed25519} (wf : engine.profile.WellFormed ed)
    (hfresh : w.Fresh sid) (hledger : w.ledger.Reliable) (acts : List Act) :
    Remembered engine sid (acts.foldl (occur engine sid) w) := by
  have hw : Remembered engine sid w := (synced_of_fresh hfresh).remembered
  clear hfresh
  induction acts generalizing w with
  | nil => exact hw
  | cons act acts ih =>
    refine ih (occur_reliable hledger) ?_
    cases act with
    | call host call => exact hw.after wf (ledgersWhatItCounts_of_reliable hledger)
    | crash host call n => exact hw.crashed wf host call n

/-! ## Behind the end -/

section

variable {L : Type} [LedgerPort L] {w : World L} {events : List FsmEvent}

variable (engine sid) in
/-- What a call on the finished session `s` does: a submission and an offload are refused
and change nothing, a recovery puts the same session in memory. -/
def LeavesFinished (s : SessionState) (w : World L) (host : Host) : Call → Prop
  | .start _ => True
  | .submit pos evidence output => perform engine sid host (.submit pos evidence output) w =
      (.error (.sessionInactive sid s.status), w)
  | .store stepId data mime => perform engine sid host (.store stepId data mime) w =
      (.error (.sessionInactive sid s.status), w)
  | .recover => ∃ s', perform engine sid host .recover w =
      (.ok (.recovered s'), w.setSession sid (some s')) ∧ s'.timeless = s.timeless

variable (sid) in
/-- The session in memory is `s` but for its wall-clock fields, and its ledger holds `events`. -/
structure Frozen (s : SessionState) (events : List FsmEvent) (w : World L) : Prop where
  live : ∃ s', w.sessions sid = some s' ∧ s'.timeless = s.timeless
  ledger : LedgerPort.replay w.ledger sid = .ok events

variable (engine sid) in
/-- It has ended, and recovery reads the same from the ledger. -/
structure Finished (s : SessionState) (events : List FsmEvent) (w : World L) : Prop
    extends Frozen sid s events w where
  ended : s.status ≠ .active
  recovers : ∃ s', recoverProfileSession sid w.ledger engine.profile = .ok s' ∧
    s'.timeless = s.timeless

variable (h : Finished engine sid s events w)

include h

/-- Both operations look at the status before anything else. -/
theorem Finished.submit {pos : Position} {evidence : ChecklistEvidence} {output : Option Json} :
    exec (submitMilestone engine host sid pos evidence output) w =
      (.error (.sessionInactive sid s.status), w) := by
  obtain ⟨s', hs', hsame⟩ := h.live
  have hstatus : s'.timeless.status = s.timeless.status := congrArg _ hsame
  replace hstatus : s'.status = s.status := hstatus
  have hcheck : checkSubmission sid pos (w.sessions sid) =
      .error (.sessionInactive sid s.status) := by
    rw [hs', checkSubmission, if_pos (hstatus ▸ h.ended), hstatus]
  unfold submitMilestone
  rw [exec_bind_ok (exec_reads _ _), hcheck, exec_bind_error (exec_lift _ _)]

theorem Finished.store {stepId mime : String} {data : Bytes} :
    exec (storeArtifact engine host sid stepId data mime) w =
      (.error (.sessionInactive sid s.status), w) := by
  obtain ⟨s', hs', hsame⟩ := h.live
  have hstatus : s'.timeless.status = s.timeless.status := congrArg _ hsame
  replace hstatus : s'.status = s.status := hstatus
  unfold storeArtifact
  rw [exec_bind_ok (exec_getSession hs'), if_pos (hstatus ▸ h.ended), exec_throw, hstatus]

theorem Finished.leaves (call : Call) : LeavesFinished engine sid s w host call := by
  cases call with
  | start => trivial
  | submit pos evidence output =>
    show (_, _) = _
    rw [h.submit]
    rfl
  | store stepId data mime =>
    show (_, _) = _
    rw [h.store]
    rfl
  | recover =>
    obtain ⟨s', hrec, hsame⟩ := h.recovers
    exact ⟨s', perform_recover_ok hrec, hsame⟩

/-- **No call undoes the end.** -/
theorem Finished.after {call : Call} (hcall : ∀ ctx, call ≠ .start ctx) :
    Finished engine sid s events (perform engine sid host call w).2 := by
  have hleaves : LeavesFinished engine sid s w host call := h.leaves call
  cases call with
  | start ctx => exact absurd rfl (hcall ctx)
  | submit =>
    rw [show perform engine sid host _ w = _ from hleaves]
    exact h
  | store =>
    rw [show perform engine sid host _ w = _ from hleaves]
    exact h
  | recover =>
    obtain ⟨s', hperform, hsame⟩ := hleaves
    rw [hperform]
    exact ⟨⟨⟨s', World.setSession_sessions_self _ _ _, hsame⟩, h.ledger⟩, h.ended, h.recovers⟩

end

/-! ## Among other sessions -/

section

variable {own : String} {w : World DirectoryLedger} {v : World SessionLedger}
  {events : List FsmEvent} {calls : List (String × Host × Call)}

/-- A session that has ended over its own file has ended over the directory. -/
theorem OwnView.finished (view : OwnView own w v) (hmem : Remembered engine own v)
    (hs : w.sessions own = some s) (hended : s.status ≠ .active) :
    Finished engine own s (w.ledger.eventsOf own) w where
  live := ⟨s, hs, rfl⟩
  ledger := w.ledger.replay_eq own
  ended := hended
  recovers := by
    have hrestarted := hmem.restarted_eq (view.session.symm.trans hs)
    rw [restarted, ← view.ledger.recover_own] at hrestarted
    cases hrec : recoverProfileSession own w.ledger engine.profile with
    | error e =>
      rw [hrec] at hrestarted
      cases hrestarted
    | ok s' =>
      rw [hrec] at hrestarted
      exact ⟨s', rfl, Except.ok.inj hrestarted⟩

/-- **No call on any session undoes the end.** -/
theorem Finished.afterAny {x : String × Host × Call} (h : Finished engine own s events w)
    (view : OwnView own w v) (hown : StartsOwn engine own x)
    (hcall : x.1 = own → ∀ ctx, x.2.2 ≠ .start ctx) :
    Finished engine own s events (afterAny engine w x) ∧
      ∃ v', OwnView own (afterAny engine w x) v' := by
  by_cases hx : x.1 = own
  · obtain ⟨sid, host, call⟩ := x
    cases hx
    exact ⟨h.after (hcall rfl), _, view.performed.2⟩
  · rw [view.idle hown hx]
    exact ⟨h, v, view⟩

/-- **Nor does a run of them.** -/
theorem Finished.run (h : Finished engine own s events w) (view : OwnView own w v)
    (hown : ∀ x ∈ calls, StartsOwn engine own x)
    (hcalls : ∀ x ∈ calls, x.1 = own → ∀ ctx, x.2.2 ≠ .start ctx) :
    Runs.Along (ProfileFsmEngine.afterAny engine) (fun u x => Frozen own s events u ∧
        (x.1 = own → LeavesFinished engine own s u x.2.1 x.2.2)) w calls ∧
      Frozen own s events (calls.foldl (ProfileFsmEngine.afterAny engine) w) := by
  induction calls generalizing w v with
  | nil => exact ⟨trivial, h.toFrozen⟩
  | cons x calls ih =>
    rw [List.forall_mem_cons] at hown hcalls
    obtain ⟨hnext, v', view'⟩ := h.afterAny view hown.1 hcalls.1
    obtain ⟨hrest, hend⟩ := ih hnext view' hown.2 hcalls.2
    exact ⟨⟨⟨h.toFrozen, fun _ => h.leaves x.2.2⟩, hrest⟩, hend⟩

end

/-- A completed session has ended. -/
theorem completed_ended {pos : Position} {evidence : ChecklistEvidence} {output : Option Json}
    {path : Option String}
    (h : (exec (submitMilestone engine host sid pos evidence output) w).1 =
      .ok (.completed path)) :
    ∃ s, (exec (submitMilestone engine host sid pos evidence output) w).2.sessions sid = some s ∧
      s.status = .completed := by
  obtain ⟨s, i, j, hs, -, hexec⟩ := submitMilestone_completed h
  have complete : Completion engine host sid pos output w.tick s
      (exec (completeFinalMacro engine host sid pos output) w.tick) := exec_completeFinalMacro hs
  rw [hexec] at h ⊢
  generalize exec (completeFinalMacro engine host sid pos output) w.tick = out at complete h
  cases complete with
  | unverified | violated | untraced | refused | stranded => cases h
  | completed => exact ⟨_, World.setSession_sessions_self _ _ _, rfl⟩

/-- **Finished means finished.** In every world that a validated profile's engine reaches by
calls on any sessions and crashes without a failing append, every start that passes validation
being of the session the ledger was opened for, and for every run of such calls from there: a
session that is completed or failed stays as it is until it is started again, each submission
and offload is refused as inactive and changes nothing, and nothing is appended. So the root
over the ledger behind a completion is the root at any later time. -/
theorem finished_when_own {vendor : Vendor} {library : Library} {p : Profile}
    {config : FsmConfig} {w : World DirectoryLedger} {acts : List (String × Act)}
    {calls : List (String × Host × Call)}
    (hvalid : validateProfile vendor.toSchemas library p = .ok ()) (hw : Untouched w)
    (hacts : ∀ x ∈ acts, StartsOwn (new vendor p config) w.ledger.sessionId (x.1, x.2.made))
    (hown : ∀ x ∈ calls, StartsOwn (new vendor p config) w.ledger.sessionId x)
    (hcalls : ∀ x ∈ calls, x.1 = sid → ∀ ctx, x.2.2 ≠ .start ctx) :
    let engine := new vendor p config
    let w' := acts.foldl (happens engine) w
    (∀ s, w'.sessions sid = some s → s.status ≠ .active →
      Runs.Along (afterAny engine) (fun u x => Frozen sid s (w'.ledger.eventsOf sid) u ∧
          (x.1 = sid → LeavesFinished engine sid s u x.2.1 x.2.2)) w' calls ∧
        Frozen sid s (w'.ledger.eventsOf sid) (calls.foldl (afterAny engine) w')) ∧
    ∀ host pos evidence output path,
      (exec (submitMilestone engine host sid pos evidence output) w').1 = .ok (.completed path) →
      ∀ sha256 json file file',
        let done := (exec (submitMilestone engine host sid pos evidence output) w').2
        Ledger.Appends json [] (done.ledger.eventsOf sid) file →
        Ledger.Appends json [] ((calls.foldl (afterAny engine) done).ledger.eventsOf sid) file' →
        transcriptRootIn sha256 (some file') = transcriptRootIn sha256 (some file) := by
  intro engine w'
  have wf : engine.profile.WellFormed vendor.ed := new_wellFormed hvalid
  -- what ended behind any run of acts stays ended
  have frozen : ∀ acts : List (String × Act),
      (∀ x ∈ acts, StartsOwn engine w.ledger.sessionId (x.1, x.2.made)) →
      ∀ s, (acts.foldl (happens engine) w).sessions sid = some s → s.status ≠ .active →
        Runs.Along (afterAny engine) (fun u x =>
            Frozen sid s ((acts.foldl (happens engine) w).ledger.eventsOf sid) u ∧
            (x.1 = sid → LeavesFinished engine sid s u x.2.1 x.2.2))
          (acts.foldl (happens engine) w) calls ∧
        Frozen sid s ((acts.foldl (happens engine) w).ledger.eventsOf sid)
          (calls.foldl (afterAny engine) (acts.foldl (happens engine) w)) := by
    intro acts hacts s hs hended
    have view := hw.ownView.run hacts
    obtain rfl := view.own_of_live hs
    have hmem : Remembered engine w.ledger.sessionId ((acts.flatMap (ownAct w.ledger.sessionId)).foldl
        (occur engine w.ledger.sessionId) (unopened w.ticks)) :=
      remembered_run wf unopened_fresh unopened_reliable _
    exact (view.finished hmem hs hended).run view hown hcalls
  constructor
  · exact frozen acts hacts
  · intro host pos evidence output path hcompleted sha256 json file file' done hfile hfile'
    have view := hw.ownView.run hacts
    have hsid : sid = w.ledger.sessionId := by
      by_contra hne
      rw [exec_submitMilestone_unknown (view.others sid hne)] at hcompleted
      cases hcompleted
    subst hsid
    -- the completion is one more act
    obtain ⟨hanswer, hview⟩ :=
      submitMilestone_mirrors OwnFile.answers pos evidence output _ _ view
    obtain ⟨s, hs, hstatus⟩ := completed_ended (hanswer.symm.trans hcompleted)
    have hdone : (acts ++ [(w.ledger.sessionId, Act.call host (.submit pos evidence output))]).foldl
        (happens engine) w = done := List.foldl_append
    have hacts' : ∀ x ∈ acts ++ [(w.ledger.sessionId, Act.call host (.submit pos evidence output))],
        StartsOwn engine w.ledger.sessionId (x.1, x.2.made) := by
      rw [List.forall_mem_append, List.forall_mem_singleton]
      exact ⟨hacts, fun _ _ _ => rfl⟩
    have hfrozen := frozen _ hacts' s
    rw [hdone] at hfrozen
    obtain ⟨-, hend⟩ := hfrozen (hview.session.trans hs) (by rw [hstatus]; decide)
    have hsame := hend.ledger
    rw [DirectoryLedger.replay_eq] at hsame
    rw [Except.ok.inj hsame] at hfile'
    rw [Ledger.appends_unique hfile hfile']

end ProfileFsmEngine

namespace Sample

/-- `s1` is completed, the process dies, and the next one recovers it. -/
def finishedActs : List (String × Act) :=
  [("s1", .call host (.start none)), ("s1", .call host (submit "check" done).2),
    ("s2", .crash host .recover 0), ("s1", .call host .recover)]

/-- `s1` is completed, and `s2` started on the same ledger. -/
def reusedActs : List (String × Act) :=
  [("s1", .call host (.start none)), ("s1", .call host (submit "check" done).2),
    ("s2", .call host (.start none))]

/-- It is submitted to, offloaded to and recovered, and so is `s2`. -/
def afterwards : List (String × Host × Call) :=
  [("s1", submit "check" done), ("s2", submit "check" done),
    ("s1", host, .store "plan" [] "text/plain"), ("s2", host, .recover), ("s1", host, .recover)]

end Sample

namespace ProfileFsmEngine

/-- It is what it was. -/
theorem finished_when_own_completed :
    let w := Sample.finishedActs.foldl (happens (Sample.engine [Sample.checklist])) Sample.directory
    ∃ s, w.sessions "s1" = some s ∧ s.status = .completed ∧
      Frozen "s1" s (w.ledger.eventsOf "s1")
        (Sample.afterwards.foldl (afterAny (Sample.engine [Sample.checklist])) w) := by
  intro w
  have hstatus : (w.sessions "s1").map (·.status) = some .completed := by
    decide +kernel
  obtain ⟨s, hs, hcompleted⟩ := Option.map_eq_some_iff.mp hstatus
  have hacts : ∀ x ∈ Sample.finishedActs,
      StartsOwn (Sample.engine [Sample.checklist]) "s1" (x.1, x.2.made) := by
    simp [Sample.finishedActs, Sample.submit, StartsOwn, Act.made]
  have hown : ∀ x ∈ Sample.afterwards, StartsOwn (Sample.engine [Sample.checklist]) "s1" x := by
    simp [Sample.afterwards, Sample.submit, StartsOwn]
  have hcalls : ∀ x ∈ Sample.afterwards, x.1 = "s1" → ∀ ctx, x.2.2 ≠ .start ctx := by
    simp [Sample.afterwards, Sample.submit]
  have hended : s.status ≠ .active := by
    rw [hcompleted]
    decide
  have hfrozen := (finished_when_own Sample.checklist_valid Sample.directory_untouched hacts hown
    hcalls).1 s hs hended
  exact ⟨s, hs, hcompleted, hfrozen.2⟩

/-- Two sessions on one ledger: the recovery of the completed one answers an active session,
which is completed a second time. -/
theorem finished_reopened :
    validateProfile Sample.vendor.toSchemas Sample.library (Sample.profile [Sample.checklist]) =
      .ok () ∧
    Untouched Sample.directory ∧
    let engine := Sample.engine [Sample.checklist]
    let w := Sample.reusedActs.foldl (happens engine) Sample.directory
    let w' := afterAny engine w ("s1", Sample.host, .recover)
    (w.sessions "s1").map (·.status) = some .completed ∧
      (w'.sessions "s1").map (·.status) = some .active ∧
      (perform engine "s1" Sample.host (Sample.submit "check" Sample.done).2 w').1 =
        .ok (.stepped (.completed none)) ∧
      (w'.ledger.eventsOf "s1").length <
        ((afterAny engine w' ("s1", Sample.submit "check" Sample.done)).ledger.eventsOf
          "s1").length := by
  refine ⟨Sample.checklist_valid, Sample.directory_untouched, ?_, ?_, rfl, ?_⟩
  · decide +kernel
  · decide +kernel
  · decide +kernel

end ProfileFsmEngine

end ProtocolEnforcer
