import ProtocolEnforcer.Fsm.Course

/-!
# What a submission depends on

Two engines of one profile, holding the same session but for its wall-clock fields,
handle a submission alike: they append the same events and end with the same session,
whatever their ledgers contain. Operations append; none of them reads the ledger back.
The clock is the one thing the two may read differently, so it is a parameter of the
comparison: from some reading on, the two show the same times.
-/

namespace ProtocolEnforcer

/-- The same host, with another clock. -/
def Host.withClock (host : Host) (clock : Nat → Time) : Host := { host with clock }

/-- Two sessions equal but for their wall-clock fields. -/
def SameSession (s t : SessionState) : Prop := s.timeless = t.timeless

namespace SameSession

variable {s t : SessionState}

/-- What is read off other fields is the same. -/
theorem read {α : Type} (h : SameSession s t) (f : SessionState → α)
    (hf : ∀ s, f s.timeless = f s) : f s = f t := by
  rw [← hf s, ← hf t, h]

theorem position (h : SameSession s t) : s.position = t.position := h.read _ fun _ => rfl

theorem status (h : SameSession s t) : s.status = t.status := h.read _ fun _ => rfl

theorem macroIteration (h : SameSession s t) : s.macroIteration = t.macroIteration :=
  h.read _ fun _ => rfl

theorem consecutiveIdentical (h : SameSession s t) :
    s.consecutiveIdenticalRejections = t.consecutiveIdenticalRejections :=
  h.read _ fun _ => rfl

theorem consecutiveApproval (h : SameSession s t) :
    s.consecutiveApprovalRejections = t.consecutiveApprovalRejections :=
  h.read _ fun _ => rfl

theorem artifacts (h : SameSession s t) : s.artifacts = t.artifacts := h.read _ fun _ => rfl

theorem pendingApproval (h : SameSession s t) : s.pendingApproval = t.pendingApproval :=
  h.read _ fun _ => rfl

/-- What an assignment makes of the two. -/
theorem assign (h : SameSession s t) (f : SessionState → SessionState)
    (hf : ∀ s, (f s.timeless).timeless = (f s).timeless) : SameSession (f s) (f t) :=
  h.read (fun s => (f s).timeless) hf

end SameSession

/-- Two worlds that hold the same session `sid`, the second with `base` in its ledger
before what the first has. -/
structure SideBySide (sid : String) (base : List FsmEvent) (w v : World SessionLedger) : Prop where
  events : v.ledger.events = base ++ w.ledger.events
  session : Option.Rel SameSession (w.sessions sid) (v.sessions sid)

/-- They also have ledgers that take every append, and `clock` shows the second, from
where it stands, what `host` shows the first. -/
structure Agree (sid : String) (host : Host) (clock : Nat → Time) (base : List FsmEvent)
    (w v : World SessionLedger) : Prop extends SideBySide sid base w v where
  left : w.ledger.Reliable
  right : v.ledger.Reliable
  clock : ∀ n, clock (v.ticks + n) = host.clock (w.ticks + n)

namespace Agree

variable {sid : String} {host : Host} {clock : Nat → Time} {base : List FsmEvent}
  {w v : World SessionLedger}

theorem now (h : Agree sid host clock base w v) : clock v.ticks = host.clock w.ticks := h.clock 0

theorem tick (h : Agree sid host clock base w v) : Agree sid host clock base w.tick v.tick :=
  { h with
    clock := fun n => by
      rw [World.tick_ticks, World.tick_ticks, Nat.add_assoc, Nat.add_assoc]
      exact h.clock (1 + n) }

theorem logged (h : Agree sid host clock base w v) (event : FsmEvent) :
    Agree sid host clock base (w.logged event) (v.logged event) where
  events := by
    rw [World.logged_events, World.logged_events, h.events, List.append_assoc]
  left := h.left
  right := h.right
  session := h.session
  clock := h.tick.clock

theorem assigned {s t : Option SessionState} (h : Agree sid host clock base w v)
    (hs : Option.Rel SameSession s t) :
    Agree sid host clock base (w.setSession sid s) (v.setSession sid t) where
  events := h.events
  left := h.left
  right := h.right
  session := by rwa [World.setSession_sessions_self, World.setSession_sessions_self]
  clock := h.clock

end Agree

namespace ProfileFsmEngine

open Effect

variable {engine : ProfileFsmEngine} {sid : String} {host : Host} {clock : Nat → Time}
  {base : List FsmEvent}

/-- `x`, under `host`, and `y`, under another clock, agree. -/
abbrev Agrees {α : Type} (sid : String) (host : Host) (clock : Nat → Time) (base : List FsmEvent)
    (V : α → α → Prop) (x y : Effect (World SessionLedger) FsmError α) : Prop :=
  Alike (Agree sid host clock base) V x y

/-! ## The primitives -/

theorem now_agrees : Agrees sid host clock base Eq (now host) (now (host.withClock clock)) :=
  fun _ _ h => ⟨h.now.symm, h.tick⟩

theorem append_agrees (eventType : FsmEventType) (pos : Position) (payload : Json) :
    Agrees sid host clock base Eq (append host sid eventType pos payload)
      (append (host.withClock clock) sid eventType pos payload) := by
  intro w v h
  rw [exec_append_taken (h.left _), exec_append_taken (h.right _)]
  refine ⟨rfl, ?_⟩
  dsimp only [Host.withClock]
  rw [h.now]
  exact h.logged _

theorem getSession_agrees :
    Agrees sid host clock base SameSession (getSession sid) (getSession sid) := by
  intro w v h
  have hsession := h.session
  cases hs : w.sessions sid <;> cases ht : v.sessions sid <;> rw [hs, ht] at hsession
  · rw [exec_getSession_none hs, exec_getSession_none ht]
    exact h
  · cases hsession
  · cases hsession
  · rw [exec_getSession hs, exec_getSession ht]
    cases hsession with
    | some hsame => exact ⟨hsame, h⟩

theorem updateSession_agrees {f g : SessionState → SessionState}
    (hfg : ∀ s t, SameSession s t → SameSession (f s) (g t)) :
    Agrees sid host clock base (fun _ _ => True) (updateSession sid f) (updateSession sid g) :=
  .bind getSession_agrees fun s t hsame =>
    .modified fun _ _ h => h.assigned (.some (hfg s t hsame))

theorem failSession_agrees :
    Agrees sid host clock base (fun _ _ => True) (failSession sid) (failSession sid) := by
  refine .modified fun w v h => h.assigned ?_
  have hsession := h.session
  cases hs : w.sessions sid <;> cases ht : v.sessions sid <;> rw [hs, ht] at hsession
  · exact .none
  · cases hsession
  · cases hsession
  · cases hsession with
    | some hsame => exact .some (hsame.assign (fun s => { s with status := .failed }) fun _ => rfl)

/-! ## The operations -/

theorem enterSub_agrees (i j : Nat) (initialContext : Option Json) :
    Agrees sid host clock base Eq (enterSub engine host sid i j initialContext)
      (enterSub engine (host.withClock clock) sid i j initialContext) := by
  unfold enterSub
  refine .bind_lift fun injected _ => .bind_lift fun issued _ => ?_
  cases issued with
  | none => exact .pure rfl
  | some challenge =>
    exact .bind (append_agrees _ _ _) fun _ _ _ =>
      .bind (updateSession_agrees fun _ _ h => h.assign (·.park challenge) fun _ => rfl) fun _ _ _ =>
        .pure rfl

theorem reposition_agrees (next : Position) :
    Agrees sid host clock base (fun _ _ => True) (reposition host sid next)
      (reposition (host.withClock clock) sid next) := by
  refine .bind getSession_agrees fun _ _ _ => .bind now_agrees fun t _ heq => ?_
  cases heq
  exact updateSession_agrees fun _ _ h => h.assign (·.reposition next t) fun _ => rfl

theorem landOn_agrees (i j : Nat) :
    Agrees sid host clock base Eq (landOn engine host sid i j)
      (landOn engine (host.withClock clock) sid i j) := by
  refine .bind (enterSub_agrees i j none) fun entered _ heq => ?_
  cases heq
  refine .bind getSession_agrees fun s t h => .pure ?_
  rw [h.status]

theorem advancePlain_agrees (i j : Nat) (pos : Position) :
    Agrees sid host clock base Eq (advancePlain engine host sid i j pos)
      (advancePlain engine (host.withClock clock) sid i j pos) :=
  .bind (append_agrees _ _ _) fun _ _ _ => .bind (reposition_agrees _) fun _ _ _ =>
    landOn_agrees _ _

theorem tripBreaker_agrees (breaker : CircuitBreakerType) (ledgered : Json) (pos : Position)
    (details : String) :
    Agrees sid host clock base Eq (tripBreaker host sid breaker ledgered pos details)
      (tripBreaker (host.withClock clock) sid breaker ledgered pos details) :=
  .bind (append_agrees _ _ _) fun _ _ _ => .bind failSession_agrees fun _ _ _ => .throw

theorem applyLoopBack_agrees (i : Nat) (pos : Position) (missing : List String)
    (macroIteration : UInt32) :
    Agrees sid host clock base Eq (applyLoopBack engine host sid i pos missing macroIteration)
      (applyLoopBack engine (host.withClock clock) sid i pos missing macroIteration) := by
  unfold applyLoopBack
  refine .bind_lift fun rendered _ => .bind (append_agrees _ _ _) fun _ _ _ =>
    .bind getSession_agrees fun s t h => .bind now_agrees fun now _ heq => ?_
  cases heq
  refine .bind (updateSession_agrees fun _ _ h => ?_) fun _ _ _ => .pure (by rw [h.status])
  exact h.assign (fun s => { s with position := some rendered.1, updatedAt := now }) fun _ => rfl

theorem rejectChecklist_agrees (i : Nat) (pos : Position) (missing : List String)
    (evidence : ChecklistEvidence) :
    Agrees sid host clock base Eq (rejectChecklist engine host sid i pos missing evidence)
      (rejectChecklist engine (host.withClock clock) sid i pos missing evidence) := by
  unfold rejectChecklist
  refine .bind (updateSession_agrees fun _ _ h =>
      h.assign (·.strikeOut (sortedKeys evidence.keys)) fun _ => rfl) fun _ _ _ =>
    .bind getSession_agrees fun s t h => ?_
  dsimp only
  rw [h.macroIteration, h.consecutiveIdentical]
  refine .bind (append_agrees _ _ _) fun _ _ _ => ?_
  split
  · exact tripBreaker_agrees _ _ _ _
  split
  · exact tripBreaker_agrees _ _ _ _
  split
  · exact applyLoopBack_agrees _ _ _ _
  · exact .pure rfl

theorem advanceMacro_agrees (i : Nat) (pos : Position) :
    Agrees sid host clock base Eq (advanceMacro engine host sid i pos)
      (advanceMacro engine (host.withClock clock) sid i pos) :=
  .bind (append_agrees _ _ _) fun _ _ _ => .bind_lift fun _ _ =>
    .bind (append_agrees _ _ _) fun _ _ _ => .bind (reposition_agrees _) fun _ _ _ =>
      .bind (updateSession_agrees fun _ _ h => h.assign (·.resetMacro) fun _ => rfl) fun _ _ _ =>
        landOn_agrees _ _

theorem writeContract_agrees (pos : Position) (output : Option Json) :
    Agrees sid host clock base Eq (writeContract engine host sid pos output)
      (writeContract engine (host.withClock clock) sid pos output) := by
  unfold writeContract
  cases engine.profile.outputContract with
  | none => exact .pure rfl
  | some contract =>
    dsimp only
    rw [show validateAndWriteOutput engine (host.withClock clock) sid contract output =
      validateAndWriteOutput engine host sid contract output from rfl]
    split
    · exact .pure rfl
    · exact .bind (append_agrees _ _ _) fun _ _ _ => .throw

/-- Artifacts are verified without looking at the clock. -/
theorem verifyRefs_withClock (store : ArtifactStore) (refs : List ArtifactRef) :
    verifyRefs engine (host.withClock clock) store refs = verifyRefs engine host store refs := by
  induction refs with
  | nil => rfl
  | cons aref refs ih =>
    unfold verifyRefs
    rw [ih]
    rfl

theorem verifySessionArtifacts_agrees {s t : Option SessionState}
    (h : Option.Rel SameSession s t) :
    verifySessionArtifacts engine (host.withClock clock) sid t =
      verifySessionArtifacts engine host sid s := by
  have hrefs : t.elim [] (·.artifacts) = s.elim [] (·.artifacts) := by
    cases h with
    | none => rfl
    | some h => exact h.artifacts.symm
  unfold verifySessionArtifacts
  rw [hrefs]
  simp only [verifyRefs_withClock]
  rfl

theorem completeFinalMacro_agrees (pos : Position) (output : Option Json) :
    Agrees sid host clock base Eq (completeFinalMacro engine host sid pos output)
      (completeFinalMacro engine (host.withClock clock) sid pos output) := by
  unfold completeFinalMacro
  refine .bind (.reads fun _ _ h => h.session) fun s t h => ?_
  rw [verifySessionArtifacts_agrees h]
  refine .bind_lift fun _ _ => .bind (writeContract_agrees _ _) fun written _ heq => ?_
  cases heq
  refine .bind (append_agrees _ _ _) fun _ _ _ => .bind (append_agrees _ _ _) fun _ _ _ =>
    .bind getSession_agrees fun _ _ _ => .bind now_agrees fun now _ heq => ?_
  cases heq
  refine .bind (updateSession_agrees fun _ _ h => ?_) fun _ _ _ => .pure rfl
  exact h.assign (fun s => { s with status := .completed, position := none, updatedAt := now })
    fun _ => rfl

theorem stepChecklist_agrees (i j : Nat) (pos : Position) (evidence : ChecklistEvidence)
    (output : Option Json) :
    Agrees sid host clock base Eq (stepChecklist engine host sid i j pos evidence output)
      (stepChecklist engine (host.withClock clock) sid i j pos evidence output) := by
  unfold stepChecklist
  dsimp only
  split
  · split
    · exact completeFinalMacro_agrees _ _
    · exact advanceMacro_agrees _ _
  · exact rejectChecklist_agrees _ _ _ _

theorem refuseApproval_agrees (pos : Position) (reason : String) :
    Agrees sid host clock base Eq (refuseApproval engine host sid pos reason)
      (refuseApproval engine (host.withClock clock) sid pos reason) := by
  unfold refuseApproval
  refine .bind (append_agrees _ _ _) fun _ _ _ =>
    .bind (updateSession_agrees fun _ _ h => h.assign (·.countRefusal) fun _ => rfl) fun _ _ _ =>
      .bind getSession_agrees fun s t h => ?_
  dsimp only
  rw [h.consecutiveApproval]
  split
  · exact tripBreaker_agrees _ _ _ _
  · exact .pure rfl

theorem stepApproval_agrees (i j : Nat) (pos : Position) (evidence : ChecklistEvidence) :
    Agrees sid host clock base Eq (stepApproval engine host sid i j pos evidence)
      (stepApproval engine (host.withClock clock) sid i j pos evidence) := by
  unfold stepApproval
  refine .bind (.reads fun _ _ h => h.session) fun s t h => ?_
  have hpending : s.bind (·.pendingApproval) = t.bind (·.pendingApproval) := by
    cases h with
    | none => rfl
    | some h => exact h.pendingApproval
  rw [hpending]
  split
  · exact refuseApproval_agrees _ _
  · exact .bind (append_agrees _ _ _) fun _ _ _ => advancePlain_agrees _ _ _

theorem dispatch_agrees (i j : Nat) (pos : Position) (evidence : ChecklistEvidence)
    (output : Option Json) :
    Agrees sid host clock base Eq (dispatch engine host sid i j pos evidence output)
      (dispatch engine (host.withClock clock) sid i j pos evidence output) := by
  unfold dispatch
  split
  · exact stepChecklist_agrees _ _ _ _ _
  · exact stepApproval_agrees _ _ _ _
  · exact advancePlain_agrees _ _ _

/-! ## A submission -/

/-- Two sessions equal but for their wall-clock fields pass step 1 together. -/
theorem checkSubmission_agrees (sid : String) (pos : Position) {s t : SessionState}
    (h : SameSession s t) :
    (∃ e, checkSubmission sid pos (some s) = .error e ∧
        checkSubmission sid pos (some t) = .error e) ∨
      checkSubmission sid pos (some s) = .ok s ∧ checkSubmission sid pos (some t) = .ok t := by
  unfold checkSubmission
  dsimp only
  rw [← h.status, ← h.position]
  split
  · exact Or.inl ⟨_, rfl, rfl⟩
  · split
    · exact Or.inl ⟨_, rfl, rfl⟩
    · split
      · exact Or.inl ⟨_, rfl, rfl⟩
      · exact Or.inr ⟨rfl, rfl⟩

/-- **A submission depends on the session alone.** If, at the first reading, both clocks
show the same time since the session's start, and the same times from then on, the two
engines append the same events and end with the same session. -/
theorem perform_agrees {pos : Position} {evidence : ChecklistEvidence} {output : Option Json}
    {w v : World SessionLedger} {s t : SessionState} (hs : w.sessions sid = some s)
    (ht : v.sessions sid = some t) (hsame : SameSession s t)
    (later : Agree sid host clock base w.tick v.tick)
    (first : clock v.ticks - t.startedAt = host.clock w.ticks - s.startedAt) :
    SideBySide sid base (perform engine sid host (.submit pos evidence output) w).2
      (perform engine sid (host.withClock clock) (.submit pos evidence output) v).2 := by
  simp only [perform]
  unfold submitMilestone
  rw [exec_bind_ok (exec_reads _ _), exec_bind_ok (exec_reads _ _), hs, ht]
  rcases checkSubmission_agrees sid pos hsame with ⟨e, hw, hv⟩ | ⟨hw, hv⟩
  · rw [hw, hv, exec_bind_error (exec_lift _ _), exec_bind_error (exec_lift _ _)]
    exact ⟨later.events, later.session⟩
  rw [hw, hv, exec_bind_ok (exec_lift _ _), exec_bind_ok (exec_lift _ _),
    exec_bind_ok (exec_now _ _), exec_bind_ok (exec_now _ _)]
  have helapsed : elapsedSeconds t.startedAt ((host.withClock clock).clock v.ticks) =
      elapsedSeconds s.startedAt (host.clock w.ticks) := by
    rw [elapsedSeconds, elapsedSeconds]
    exact congrArg (fun d : Time => (Int.tdiv d 1000000000).toNat) first
  dsimp only
  rw [helapsed]
  split
  · exact ((tripBreaker_agrees _ _ _ _).ends later).toSideBySide
  · exact ((Alike.bind_lift fun ij _ => dispatch_agrees ij.1 ij.2 pos evidence output).ends
      later).toSideBySide

end ProfileFsmEngine

end ProtocolEnforcer
