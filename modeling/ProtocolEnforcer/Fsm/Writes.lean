import ProtocolEnforcer.Fsm.Outcomes

/-!
# The files an operation writes

Besides its ledger the engine writes two kinds of files: the output contract's
deliverable, at the end of a submission that completes the session, and the blobs of the
artifact store. Each is told here from the session, the call and what the outside
answers, before the operation runs.
-/

namespace ProtocolEnforcer

namespace ProfileFsmEngine

open Effect

variable (engine : ProfileFsmEngine) (host : Host) (sid : String)

/-- The deliverable `submit_milestone` comes to write, if it does: where, and the bytes. -/
def submissionWrite (session : Option SessionState) (t : Time) (pos : Position)
    (evidence : ChecklistEvidence) (output : Option Json) : Option (List Component × Bytes) :=
  match route engine sid session t pos evidence with
  | .final _ _ =>
    match verifySessionArtifacts engine host sid session with
    | .error _ => none
    | .ok () =>
      match engine.profile.outputContract with
      | none => none
      | some contract => outputWrite engine host sid contract output
  | _ => none

/-- The blob `store_artifact` comes to write, if it does. -/
def artifactWrite (session : Option SessionState) (stepId : String) : Option String :=
  match session with
  | none => none
  | some s =>
    if s.status ≠ .active then none
    else
      match ArtifactStore.new host.artifacts sid engine.config.artifactRoot with
      | .error _ => none
      | .ok store => store.blobPath host.artifacts stepId

variable {engine host sid} {w : World SessionLedger}

/-- It is in the session's store. -/
theorem artifactWrite_some {session : Option SessionState} {stepId path : String}
    (h : engine.artifactWrite host sid session stepId = some path) :
    ∃ store, ArtifactStore.new host.artifacts sid engine.config.artifactRoot = .ok store ∧
      store.blobPath host.artifacts stepId = some path := by
  unfold artifactWrite at h
  split at h
  · cases h
  split at h
  · cases h
  split at h
  · cases h
  · rename_i store hstore
    exact ⟨store, hstore, h⟩

/-! ## Only the final checklist completes -/

/-- The operation does not report a completion. -/
abbrev GoesOn (x : Effect (World SessionLedger) FsmError StepOutcome) : Prop :=
  Triple (fun _ => True) x (fun out _ => ∀ path, out ≠ .completed path) fun _ => True

/-- Only what an operation ends with counts. -/
theorem GoesOn.bind {α : Type} {x : Effect (World SessionLedger) FsmError α}
    {f : α → Effect (World SessionLedger) FsmError StepOutcome} (h : ∀ a, GoesOn (f a)) :
    GoesOn (x >>= f) := by
  refine Triple.bind (Q := fun _ _ => True) (fun s _ => ?_) h
  split <;> trivial

theorem GoesOn.pure {out : StepOutcome} (h : ∀ path, out ≠ .completed path) :
    GoesOn (pure out) := Triple.pure fun _ _ => h

theorem GoesOn.ne {x : Effect (World SessionLedger) FsmError StepOutcome} (h : GoesOn x)
    (path : Option String) : (exec x w).1 ≠ .ok (.completed path) := by
  intro heq
  have hout := h w trivial
  split at hout
  · rename_i hx
    rw [hx] at heq
    exact hout path (Except.ok.inj heq)
  · rename_i hx
    rw [hx] at heq
    cases heq

theorem landOn_goesOn {i j : Nat} : GoesOn (landOn engine host sid i j) :=
  .bind fun _ => .bind fun _ => .pure nofun

theorem advancePlain_goesOn {i j : Nat} {pos : Position} :
    GoesOn (advancePlain engine host sid i j pos) :=
  .bind fun _ => .bind fun _ => landOn_goesOn

theorem advanceMacro_goesOn {i : Nat} {pos : Position} :
    GoesOn (advanceMacro engine host sid i pos) :=
  .bind fun _ => .bind fun _ => .bind fun _ => .bind fun _ => .bind fun _ => landOn_goesOn

theorem tripBreaker_goesOn {b : CircuitBreakerType} {ledgered : Json} {pos : Position}
    {details : String} : GoesOn (tripBreaker host sid b ledgered pos details) :=
  .bind fun _ => .bind fun _ => Triple.throw fun _ _ => trivial

theorem rejectChecklist_goesOn {i : Nat} {pos : Position} {missing : List String}
    {evidence : ChecklistEvidence} :
    GoesOn (rejectChecklist engine host sid i pos missing evidence) := by
  unfold rejectChecklist
  refine .bind fun _ => .bind fun session => .bind fun _ => ?_
  split
  · exact tripBreaker_goesOn
  split
  · exact tripBreaker_goesOn
  split
  · exact .bind fun _ => .bind fun _ => .bind fun _ => .bind fun _ => .bind fun _ => .pure nofun
  · exact .pure nofun

theorem stepApproval_goesOn {i j : Nat} {pos : Position} {evidence : ChecklistEvidence} :
    GoesOn (stepApproval engine host sid i j pos evidence) := by
  unfold stepApproval
  refine .bind fun session => ?_
  split
  · refine .bind fun _ => .bind fun _ => .bind fun session => ?_
    dsimp only
    split
    · exact tripBreaker_goesOn
    · exact .pure nofun
  · exact .bind fun _ => advancePlain_goesOn

/-- A completion comes from the final checklist. -/
theorem dispatch_completed {i j : Nat} {pos : Position} {evidence : ChecklistEvidence}
    {output : Option Json} {path : Option String} {s : SessionState}
    (hloc : locate engine pos = .ok (i, j))
    (h : (exec (dispatch engine host sid i j pos evidence output) w).1 = .ok (.completed path)) :
    routeAt engine sid s pos evidence = .final i j ∧
      exec (dispatch engine host sid i j pos evidence output) w =
        exec (completeFinalMacro engine host sid pos output) w := by
  unfold dispatch at h ⊢
  cases hty : ((engine.profile.stateAt i).subAt j).subStateType with
  | checklist =>
    simp only [hty] at h ⊢
    unfold stepChecklist at h ⊢
    cases hm : missingCriteria (((engine.profile.stateAt i).subAt j).criteria.getD [])
        evidence with
    | nil =>
      simp only [hm] at h ⊢
      split at h
      · rename_i hfinal
        rw [if_pos hfinal]
        exact ⟨by simp only [routeAt, hloc, Profile.typeAt, hty, hm, if_pos hfinal], rfl⟩
      · exact absurd h (advanceMacro_goesOn.ne path)
    | cons c missing =>
      simp only [hm] at h
      exact absurd h (rejectChecklist_goesOn.ne path)
  | humanApproval =>
    simp only [hty] at h
    exact absurd h (stepApproval_goesOn.ne path)
  | inject | execute | review =>
    simp only [hty] at h
    exact absurd h (advancePlain_goesOn.ne path)

theorem submitMilestone_completed {pos : Position} {evidence : ChecklistEvidence}
    {output : Option Json} {path : Option String}
    (h : (exec (submitMilestone engine host sid pos evidence output) w).1 =
      .ok (.completed path)) :
    ∃ s i j, w.sessions sid = some s ∧
      route engine sid (w.sessions sid) (host.clock w.ticks) pos evidence = .final i j ∧
      exec (submitMilestone engine host sid pos evidence output) w =
        exec (completeFinalMacro engine host sid pos output) w.tick := by
  unfold submitMilestone at h ⊢
  rw [exec_bind_ok (exec_reads _ _)] at h ⊢
  cases hc : checkSubmission sid pos (w.sessions sid) with
  | error e =>
    rw [hc, exec_bind_error (exec_lift _ _)] at h
    cases h
  | ok s =>
    rw [hc, exec_bind_ok (exec_lift _ _), exec_bind_ok (exec_now _ _)] at h
    rw [exec_bind_ok (exec_lift _ _), exec_bind_ok (exec_now _ _)]
    dsimp only at h ⊢
    by_cases hlate : timedOut engine (elapsedSeconds s.startedAt (host.clock w.ticks)) = true
    · rw [if_pos hlate] at h
      exact absurd h (tripBreaker_goesOn.ne path)
    · rw [if_neg hlate] at h ⊢
      cases hloc : locate engine pos with
      | error e =>
        rw [hloc, exec_bind_error (exec_lift _ _)] at h
        cases h
      | ok ij =>
        obtain ⟨i, j⟩ := ij
        rw [hloc, exec_bind_ok (exec_lift _ _)] at h
        rw [exec_bind_ok (exec_lift _ _)]
        obtain ⟨hroute, hexec⟩ := dispatch_completed hloc h
        exact ⟨s, i, j, (checkSubmission_ok.mp hc).1,
          (route_handled hc (Bool.eq_false_iff.mpr hlate)).trans hroute, hexec⟩

/-- **The deliverable is written before the session completes**, and reported. The model of the
disk takes a submission's write from `submissionWrite`: this says that it is the operation's. -/
theorem submissionWrite_completed {pos : Position} {evidence : ChecklistEvidence}
    {output : Option Json} {path : String}
    (h : (exec (submitMilestone engine host sid pos evidence output) w).1 =
      .ok (.completed (some path))) :
    ∃ confined bytes,
      submissionWrite engine host sid (w.sessions sid) (host.clock w.ticks) pos evidence output =
        some (confined, bytes) ∧
      path = UnixPath.render confined ∧ host.write path = .ok () := by
  obtain ⟨s, i, j, hs, hroute, hexec⟩ := submitMilestone_completed h
  have complete : Completion engine host sid pos output w.tick s
      (exec (completeFinalMacro engine host sid pos output) w.tick) := exec_completeFinalMacro hs
  rw [hexec] at h
  generalize exec (completeFinalMacro engine host sid pos output) w.tick = out at complete h
  cases complete with
  | unverified | violated | untraced | refused | stranded => cases h
  | @completed written verified meets =>
    have hpath : written.map Prod.fst = some path := StepOutcome.completed.inj (Except.ok.inj h)
    unfold contractResult at meets
    unfold submissionWrite
    rw [hroute, hs]
    dsimp only
    rw [verified]
    cases hc : engine.profile.outputContract with
    | none =>
      rw [hc] at meets
      cases meets
      cases hpath
    | some contract =>
      rw [hc] at meets
      dsimp only at meets ⊢
      cases hv : validateAndWriteOutput engine host sid contract output with
      | error e =>
        rw [hv] at meets
        cases meets
      | ok file =>
        rw [hv] at meets
        cases meets
        cases hpath
        obtain ⟨confined, bytes, hwrite, hok, rfl⟩ := validateAndWriteOutput_ok.mp hv
        exact ⟨confined, bytes, hwrite, rfl, hok⟩

/-- **A stored artifact is the blob that was written.** It says the same of `artifactWrite`. -/
theorem artifactWrite_stored {stepId mime : String} {data : Bytes} {artifactRef : ArtifactRef}
    (h : (exec (storeArtifact engine host sid stepId data mime) w).1 = .ok artifactRef) :
    ∃ path, artifactWrite engine host sid (w.sessions sid) stepId = some path ∧
      host.artifacts.writeFile path = .ok () := by
  unfold storeArtifact at h
  unfold artifactWrite
  cases hs : w.sessions sid with
  | none =>
    rw [exec_bind_error (exec_getSession_none hs)] at h
    cases h
  | some s =>
    rw [exec_bind_ok (exec_getSession hs)] at h
    dsimp only at h ⊢
    split at h
    · cases h
    rename_i hactive
    rw [if_neg hactive]
    cases hn : ArtifactStore.new host.artifacts sid engine.config.artifactRoot with
    | error e =>
      simp only [hn, Except.mapError] at h
      rw [exec_bind_error (exec_lift _ _)] at h
      cases h
    | ok store =>
      simp only [hn, Except.mapError] at h
      rw [exec_bind_ok (exec_lift _ _)] at h
      cases hr : store.storeWithMime engine.vendor.sha256 host.artifacts stepId data mime with
      | error e =>
        simp only [hr] at h
        rw [exec_bind_error (exec_lift _ _)] at h
        cases h
      | ok aref =>
        obtain ⟨path, hpath, hwrite, -⟩ := ArtifactStore.storeWithMime_ok hr
        exact ⟨path, hpath, hwrite⟩

end ProfileFsmEngine

end ProtocolEnforcer
