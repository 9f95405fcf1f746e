import ProtocolEnforcer.Fsm.Calls

/-!
# What an operation sees

An operation on one session sees that session, what the ledger's port answers to its
appends, and the clock. Two worlds that agree on these, over ports of any kind, agree after
it; and the other sessions of either are as they were.
-/

namespace ProtocolEnforcer

/-- Two ports that answer the appends of a session alike, as long as `S` relates them. -/
def Answers {L M : Type} [LedgerPort L] [LedgerPort M] (S : L → M → Prop) (sid : String) : Prop :=
  ∀ ⦃l m⦄ (e : FsmEvent), e.sessionId = sid → S l m →
    (LedgerPort.append l e).1 = (LedgerPort.append m e).1 ∧
      S (LedgerPort.append l e).2 (LedgerPort.append m e).2

/-- Two worlds at the same time that hold the same session `sid`. Of the other sessions, the
first has `others`. -/
structure Mirror {L M : Type} (S : L → M → Prop) (sid : String)
    (others : String → Option SessionState) (w : World L) (v : World M) : Prop where
  ledger : S w.ledger v.ledger
  session : w.sessions sid = v.sessions sid
  others : ∀ x, x ≠ sid → w.sessions x = others x
  ticks : w.ticks = v.ticks

namespace Mirror

variable {L M : Type} {S : L → M → Prop} {sid : String}
  {others : String → Option SessionState} {w : World L} {v : World M}

theorem tick (h : Mirror S sid others w v) : Mirror S sid others w.tick v.tick :=
  { h with ticks := congrArg (· + 1) h.ticks }

theorem assigned (h : Mirror S sid others w v) (s : Option SessionState) :
    Mirror S sid others (w.setSession sid s) (v.setSession sid s) where
  ledger := h.ledger
  session := by rw [World.setSession_sessions_self, World.setSession_sessions_self]
  others x hx := (Function.update_of_ne hx ..).trans (h.others x hx)
  ticks := h.ticks

theorem moved (h : Mirror S sid others w v) {l : L} {m : M} (hs : S l m) :
    Mirror S sid others (w.setLedger l) (v.setLedger m) :=
  { h with ledger := hs }

/-- A world mirrors itself. -/
theorem refl {I : L → Prop} (h : I w.ledger) :
    Mirror (fun l m => l = m ∧ I l) sid w.sessions w w where
  ledger := ⟨rfl, h⟩
  session := rfl
  others _ _ := rfl
  ticks := rfl

end Mirror

namespace ProfileFsmEngine

open Effect

variable {L M : Type} {engine : ProfileFsmEngine} {sid : String} {host : Host}
  {S : L → M → Prop} {others : String → Option SessionState}

/-- `x` and `y` do the same, each in its world. -/
abbrev Mirrors {α : Type} (S : L → M → Prop) (sid : String)
    (others : String → Option SessionState) (x : Effect (World L) FsmError α)
    (y : Effect (World M) FsmError α) : Prop :=
  Matches (Mirror S sid others) x y

/-! ## The primitives -/

theorem now_mirrors : Mirrors S sid others (now (L := L) host) (now (L := M) host) := by
  intro w v h
  exact ⟨congrArg (fun n => Except.ok (host.clock n)) h.ticks, h.tick⟩

theorem getSession_mirrors :
    Mirrors S sid others (getSession (L := L) sid) (getSession (L := M) sid) := by
  intro w v h
  have hsession := h.session
  cases hs : w.sessions sid with
  | none =>
    rw [exec_getSession_none hs, exec_getSession_none (hsession ▸ hs)]
    exact ⟨rfl, h⟩
  | some s =>
    rw [exec_getSession hs, exec_getSession (hsession ▸ hs)]
    exact ⟨rfl, h⟩

theorem putSession_mirrors (s : Option SessionState) :
    Mirrors S sid others (putSession (L := L) sid s) (putSession (L := M) sid s) :=
  fun _ _ h => ⟨rfl, h.assigned s⟩

theorem updateSession_mirrors (f : SessionState → SessionState) :
    Mirrors S sid others (updateSession (L := L) sid f) (updateSession (L := M) sid f) := by
  exact .bind getSession_mirrors fun s => putSession_mirrors _

theorem failSession_mirrors :
    Mirrors S sid others (failSession (L := L) sid) (failSession (L := M) sid) := by
  intro w v h
  rw [exec_failSession, exec_failSession, h.session]
  exact ⟨rfl, h.assigned _⟩

theorem reposition_mirrors (next : Position) :
    Mirrors S sid others (reposition (L := L) host sid next) (reposition (L := M) host sid next) := by
  exact .bind getSession_mirrors fun _ => .bind now_mirrors fun t =>
    updateSession_mirrors (·.reposition next t)

variable [LedgerPort L] [LedgerPort M] (hS : Answers S sid)
include hS

theorem append_mirrors (eventType : FsmEventType) (pos : Position) (payload : Json) :
    Mirrors S sid others (append host sid eventType pos payload)
      (append host sid eventType pos payload) := by
  intro w v h
  rw [exec_append, exec_append, ← h.ticks]
  obtain ⟨hanswer, hledger⟩ :=
    hS (eventAt (host.clock w.ticks) sid eventType pos payload) rfl h.ledger
  rw [hanswer]
  exact ⟨rfl, h.tick.moved hledger⟩

/-! ## The operations -/

theorem enterSub_mirrors (i j : Nat) (initialContext : Option Json) :
    Mirrors S sid others (enterSub engine host sid i j initialContext)
      (enterSub engine host sid i j initialContext) := by
  unfold enterSub
  refine .bind_lift fun injected _ => .bind_lift fun issued _ => ?_
  cases issued with
  | none => exact .pure
  | some challenge =>
    exact .bind (append_mirrors hS _ _ _) fun _ =>
      .bind (updateSession_mirrors (·.park challenge)) fun _ => .pure

theorem landOn_mirrors (i j : Nat) :
    Mirrors S sid others (landOn engine host sid i j) (landOn engine host sid i j) :=
  .bind (enterSub_mirrors hS i j none) fun _ => .bind getSession_mirrors fun _ => .pure

theorem advancePlain_mirrors (i j : Nat) (pos : Position) :
    Mirrors S sid others (advancePlain engine host sid i j pos)
      (advancePlain engine host sid i j pos) :=
  .bind (append_mirrors hS _ _ _) fun _ => .bind (reposition_mirrors _) fun _ =>
    landOn_mirrors hS _ _

theorem tripBreaker_mirrors (breaker : CircuitBreakerType) (ledgered : Json) (pos : Position)
    (details : String) :
    Mirrors S sid others (tripBreaker host sid breaker ledgered pos details)
      (tripBreaker host sid breaker ledgered pos details) :=
  .bind (append_mirrors hS _ _ _) fun _ => .bind failSession_mirrors fun _ => .throw

theorem applyLoopBack_mirrors (i : Nat) (pos : Position) (missing : List String)
    (macroIteration : UInt32) :
    Mirrors S sid others (applyLoopBack engine host sid i pos missing macroIteration)
      (applyLoopBack engine host sid i pos missing macroIteration) := by
  unfold applyLoopBack
  refine .bind_lift fun rendered _ => .bind (append_mirrors hS _ _ _) fun _ =>
    .bind getSession_mirrors fun s => .bind now_mirrors fun t => ?_
  exact .bind (updateSession_mirrors fun s => { s with position := some rendered.1, updatedAt := t })
    fun _ => .pure

theorem rejectChecklist_mirrors (i : Nat) (pos : Position) (missing : List String)
    (evidence : ChecklistEvidence) :
    Mirrors S sid others (rejectChecklist engine host sid i pos missing evidence)
      (rejectChecklist engine host sid i pos missing evidence) := by
  unfold rejectChecklist
  refine .bind (updateSession_mirrors (·.strikeOut (sortedKeys evidence.keys))) fun _ =>
    .bind getSession_mirrors fun s => .bind (append_mirrors hS _ _ _) fun _ => ?_
  split
  · exact tripBreaker_mirrors hS _ _ _ _
  split
  · exact tripBreaker_mirrors hS _ _ _ _
  split
  · exact applyLoopBack_mirrors hS _ _ _ _
  · exact .pure

theorem advanceMacro_mirrors (i : Nat) (pos : Position) :
    Mirrors S sid others (advanceMacro engine host sid i pos)
      (advanceMacro engine host sid i pos) :=
  .bind (append_mirrors hS _ _ _) fun _ => .bind_lift fun _ _ =>
    .bind (append_mirrors hS _ _ _) fun _ => .bind (reposition_mirrors _) fun _ =>
      .bind (updateSession_mirrors (·.resetMacro)) fun _ => landOn_mirrors hS _ _

theorem writeContract_mirrors (pos : Position) (output : Option Json) :
    Mirrors S sid others (writeContract engine host sid pos output)
      (writeContract engine host sid pos output) := by
  unfold writeContract
  cases engine.profile.outputContract with
  | none => exact .pure
  | some contract =>
    dsimp only
    split
    · exact .pure
    · exact .bind (append_mirrors hS _ _ _) fun _ => .throw

theorem completeFinalMacro_mirrors (pos : Position) (output : Option Json) :
    Mirrors S sid others (completeFinalMacro engine host sid pos output)
      (completeFinalMacro engine host sid pos output) := by
  unfold completeFinalMacro
  refine .bind (.reads fun _ _ h => h.session) fun s => .bind_lift fun _ _ =>
    .bind (writeContract_mirrors hS _ _) fun written => .bind (append_mirrors hS _ _ _) fun _ =>
      .bind (append_mirrors hS _ _ _) fun _ => .bind getSession_mirrors fun _ =>
        .bind now_mirrors fun t => ?_
  exact .bind (updateSession_mirrors fun s =>
    { s with status := .completed, position := none, updatedAt := t }) fun _ => .pure

theorem stepChecklist_mirrors (i j : Nat) (pos : Position) (evidence : ChecklistEvidence)
    (output : Option Json) :
    Mirrors S sid others (stepChecklist engine host sid i j pos evidence output)
      (stepChecklist engine host sid i j pos evidence output) := by
  unfold stepChecklist
  dsimp only
  split
  · split
    · exact completeFinalMacro_mirrors hS _ _
    · exact advanceMacro_mirrors hS _ _
  · exact rejectChecklist_mirrors hS _ _ _ _

theorem refuseApproval_mirrors (pos : Position) (reason : String) :
    Mirrors S sid others (refuseApproval engine host sid pos reason)
      (refuseApproval engine host sid pos reason) := by
  unfold refuseApproval
  refine .bind (append_mirrors hS _ _ _) fun _ =>
    .bind (updateSession_mirrors (·.countRefusal)) fun _ =>
      .bind getSession_mirrors fun s => ?_
  dsimp only
  split
  · exact tripBreaker_mirrors hS _ _ _ _
  · exact .pure

theorem stepApproval_mirrors (i j : Nat) (pos : Position) (evidence : ChecklistEvidence) :
    Mirrors S sid others (stepApproval engine host sid i j pos evidence)
      (stepApproval engine host sid i j pos evidence) := by
  unfold stepApproval
  refine .bind (.reads fun _ _ h => h.session) fun s => ?_
  split
  · exact refuseApproval_mirrors hS _ _
  · exact .bind (append_mirrors hS _ _ _) fun _ => advancePlain_mirrors hS _ _ _

theorem dispatch_mirrors (i j : Nat) (pos : Position) (evidence : ChecklistEvidence)
    (output : Option Json) :
    Mirrors S sid others (dispatch engine host sid i j pos evidence output)
      (dispatch engine host sid i j pos evidence output) := by
  unfold dispatch
  split
  · exact stepChecklist_mirrors hS _ _ _ _ _
  · exact stepApproval_mirrors hS _ _ _ _
  · exact advancePlain_mirrors hS _ _ _

theorem submitMilestone_mirrors (pos : Position) (evidence : ChecklistEvidence)
    (output : Option Json) :
    Mirrors S sid others (submitMilestone engine host sid pos evidence output)
      (submitMilestone engine host sid pos evidence output) := by
  unfold submitMilestone
  refine .bind (.reads fun _ _ h => h.session) fun s => .bind_lift fun s _ =>
    .bind now_mirrors fun t => ?_
  dsimp only
  split
  · exact tripBreaker_mirrors hS _ _ _ _
  · exact .bind_lift fun ij _ => dispatch_mirrors hS _ _ _ _ _

theorem launch_mirrors (j : Nat) (pos : Position) (context : Json) (initialContext : Option Json) :
    Mirrors S sid others (launch engine host sid j pos context initialContext)
      (launch engine host sid j pos context initialContext) :=
  .bind (append_mirrors hS _ _ _) fun _ => .bind (enterSub_mirrors hS _ _ _) fun _ => .pure

theorem startSession_mirrors (initialContext : Option Json) :
    Mirrors S sid others (startSession engine host sid initialContext)
      (startSession engine host sid initialContext) := by
  exact .bind_lift fun _ _ => .bind_lift fun entry _ => .bind now_mirrors fun t =>
    .bind (putSession_mirrors _) fun _ => .bind (.tryCatch (launch_mirrors hS _ _ _ _) fun e =>
      .bind (putSession_mirrors none) fun _ => .throw) fun _ => .pure

theorem storeArtifact_mirrors (stepId : String) (data : Bytes) (mimeType : String) :
    Mirrors S sid others (storeArtifact engine host sid stepId data mimeType)
      (storeArtifact engine host sid stepId data mimeType) := by
  unfold storeArtifact
  refine .bind getSession_mirrors fun s => ?_
  split
  · exact .throw
  refine .bind_lift fun store _ => .bind_lift fun artifactRef _ =>
    .bind (append_mirrors hS _ _ _) fun _ => .bind getSession_mirrors fun _ =>
      .bind now_mirrors fun t => ?_
  exact .bind (updateSession_mirrors fun s => { s with
    artifacts := insertArtifact s.artifacts artifactRef.path artifactRef, updatedAt := t })
    fun _ => .pure

/-- **A call is on one session**: in worlds that agree on it, over ports that answer
alike, a call that reads nothing back answers the same, and leaves worlds that agree. -/
theorem perform_mirrors {w : World L} {v : World M} {call : Call} (hcall : call ≠ .recover)
    (h : Mirror S sid others w v) :
    (perform engine sid host call w).1 = (perform engine sid host call v).1 ∧
      Mirror S sid others (perform engine sid host call w).2 (perform engine sid host call v).2 := by
  cases call with
  | start initialContext =>
    obtain ⟨hanswer, hleft⟩ :=
      @startSession_mirrors L M engine sid host S others _ _ hS initialContext w v h
    exact ⟨congrArg (·.map Reply.started) hanswer, hleft⟩
  | submit pos evidence output =>
    obtain ⟨hanswer, hleft⟩ :=
      @submitMilestone_mirrors L M engine sid host S others _ _ hS pos evidence output w v h
    exact ⟨congrArg (·.map Reply.stepped) hanswer, hleft⟩
  | store stepId data mimeType =>
    obtain ⟨hanswer, hleft⟩ :=
      @storeArtifact_mirrors L M engine sid host S others _ _ hS stepId data mimeType w v h
    exact ⟨congrArg (·.map Reply.stored) hanswer, hleft⟩
  | recover => exact absurd rfl hcall

end ProfileFsmEngine

/-! ## A world and itself -/

section

open ProfileFsmEngine

variable {L : Type} [LedgerPort L] {sid : String} {I : L → Prop}

theorem answers_self (hI : ∀ l e, I l → I (LedgerPort.append l e).2) :
    Answers (fun l m => l = m ∧ I l) sid := by
  rintro l _ e - ⟨rfl, hl⟩
  exact ⟨rfl, rfl, hI l e hl⟩

namespace ProfileFsmEngine

variable {engine : ProfileFsmEngine} {host : Host} {w : World L} {call : Call}

/-- What every append keeps, a call keeps. -/
theorem perform_ledger (hI : ∀ l e, I l → I (LedgerPort.append l e).2) (hcall : call ≠ .recover)
    (h : I w.ledger) : I (perform engine sid host call w).2.ledger := by
  have hmirror : Mirror (fun l m => l = m ∧ I l) sid w.sessions
      (perform engine sid host call w).2 (perform engine sid host call w).2 :=
    (perform_mirrors (answers_self hI) hcall (Mirror.refl h)).2
  exact hmirror.ledger.2

/-- **Calls on one session leave the others alone.** -/
theorem perform_other {x : String} (hcall : call ≠ .recover) (hx : x ≠ sid) :
    (perform engine sid host call w).2.sessions x = w.sessions x := by
  have hkept : ∀ l e, True → (fun _ : L => True) (LedgerPort.append l e).2 := fun _ _ h => h
  have hmirror : Mirror (fun l m : L => l = m ∧ True) sid w.sessions
      (perform engine sid host call w).2 (perform engine sid host call w).2 :=
    (perform_mirrors (answers_self hkept) hcall ⟨⟨rfl, trivial⟩, rfl, fun _ _ => rfl, rfl⟩).2
  exact hmirror.others x hx

end ProfileFsmEngine

end

end ProtocolEnforcer
