import ProtocolEnforcer.Core.Runs
import ProtocolEnforcer.Fsm.Recovery

/-!
# Runs of one session

A run is a sequence of calls on one session, each with what the outside answered
meanwhile. The ledger of these runs is the session's own file seen through its
port: events in the order they were appended, and for each append attempt whether
the file system took it. A refused append writes nothing.
-/

namespace ProtocolEnforcer

/-- A session's ledger whose appends may fail. -/
structure SessionLedger where
  events : List FsmEvent
  outcome : Nat → Except LedgerError Unit
  attempts : Nat

namespace SessionLedger

def append (l : SessionLedger) (event : FsmEvent) : Except LedgerError Unit × SessionLedger :=
  match l.outcome l.attempts with
  | .ok () => (.ok (), { l with events := l.events ++ [event], attempts := l.attempts + 1 })
  | .error e => (.error e, { l with attempts := l.attempts + 1 })

instance : LedgerPort SessionLedger where
  append := append
  replay l _ := .ok l.events

/-- Attempt number `n` fails. -/
def Refuses (l : SessionLedger) (n : Nat) : Prop := ∃ e, l.outcome n = .error e

/-- No append ever fails. -/
def Reliable (l : SessionLedger) : Prop := ∀ n, l.outcome n = .ok ()

theorem Reliable.not_refuses {l : SessionLedger} (h : l.Reliable) {n : Nat} : ¬l.Refuses n := by
  rintro ⟨e, he⟩
  rw [h n] at he
  cases he

/-- What follows a refused append does not happen with it. -/
theorem Reliable.elim {l : SessionLedger} {C : Prop} (h : l.Reliable) {n : Nat} {e : LedgerError}
    (refused : l.outcome n = .error e) : C :=
  absurd ⟨e, refused⟩ h.not_refuses

/-- A ledger is recovered as the session it replays to. -/
theorem recover_eq (l : SessionLedger) (sid : String) (profile : Profile) :
    recoverProfileSession sid l profile = (replayEvents sid profile l.events).bind fun state? =>
      state?.elim (.error (.sessionNotFound sid)) .ok := by
  show (replayEvents sid profile l.events >>= _) = _
  cases replayEvents sid profile l.events with
  | error e => rfl
  | ok state? => cases state? <;> rfl

end SessionLedger

/-- The operations of the engine on one session. -/
inductive Call where
  | start (initialContext : Option Json)
  | submit (pos : Position) (evidence : ChecklistEvidence) (output : Option Json)
  | store (stepId : String) (data : Bytes) (mimeType : String)
  | recover

inductive Reply where
  | started (view : StepView)
  | stepped (outcome : StepOutcome)
  | stored (artifactRef : ArtifactRef)
  | recovered (state : SessionState)

namespace ProfileFsmEngine

open Effect

variable {L : Type} [LedgerPort L] (engine : ProfileFsmEngine) (sid : String)

/-- One call. -/
def perform (host : Host) (call : Call) (w : World L) : Except FsmError Reply × World L :=
  match call with
  | .start initialContext =>
    let r := exec (startSession engine host sid initialContext) w
    (r.1.map .started, r.2)
  | .submit pos evidence output =>
    let r := exec (submitMilestone engine host sid pos evidence output) w
    (r.1.map .stepped, r.2)
  | .store stepId data mimeType =>
    let r := exec (storeArtifact engine host sid stepId data mimeType) w
    (r.1.map .stored, r.2)
  | .recover =>
    let r := exec (recoverSession engine sid) w
    (r.1.map .recovered, r.2)

variable {engine sid} in
theorem perform_submit {host : Host} {pos : Position} {evidence : ChecklistEvidence}
    {output : Option Json} {w w' : World L} {r : Except FsmError StepOutcome}
    (h : exec (submitMilestone engine host sid pos evidence output) w = (r, w')) :
    perform engine sid host (.submit pos evidence output) w = (r.map .stepped, w') :=
  congrArg (fun x => (x.1.map Reply.stepped, x.2)) h

variable {engine sid} in
theorem perform_store {host : Host} {stepId mimeType : String} {data : Bytes} {w w' : World L}
    {r : Except FsmError ArtifactRef}
    (h : exec (storeArtifact engine host sid stepId data mimeType) w = (r, w')) :
    perform engine sid host (.store stepId data mimeType) w = (r.map .stored, w') :=
  congrArg (fun x => (x.1.map Reply.stored, x.2)) h

/-- The world after a call. -/
def after (w : World L) (x : Host × Call) : World L := (perform engine sid x.1 x.2 w).2

/-- A run: each call with the host it meets, from a world on. -/
def runCalls (w : World L) (calls : List (Host × Call)) : World L :=
  calls.foldl (after engine sid) w

theorem runCalls_append (w : World L) (xs ys : List (Host × Call)) :
    runCalls engine sid w (xs ++ ys) = runCalls engine sid (runCalls engine sid w xs) ys :=
  List.foldl_append

/-- `P` holds of each call of a run, in the world the call meets. -/
abbrev Along (P : World L → Host → Call → Prop) : World L → List (Host × Call) → Prop :=
  Runs.Along (after engine sid) fun w x => P w x.1 x.2

end ProfileFsmEngine

namespace World

/-- A world before any call: nothing appended, no session in memory. -/
def Fresh (sid : String) (w : World SessionLedger) : Prop :=
  w.ledger.events = [] ∧ w.sessions sid = none

/-- The world after an append the file system took. -/
def logged (w : World SessionLedger) (event : FsmEvent) : World SessionLedger :=
  w.tick.setLedger
    { w.ledger with events := w.ledger.events ++ [event], attempts := w.ledger.attempts + 1 }

/-- The world after an append it refused. -/
def lost (w : World SessionLedger) : World SessionLedger :=
  w.tick.setLedger { w.ledger with attempts := w.ledger.attempts + 1 }

section

variable (w : World SessionLedger) (event : FsmEvent)

@[simp] theorem logged_events : (w.logged event).ledger.events = w.ledger.events ++ [event] := rfl
@[simp] theorem logged_outcome : (w.logged event).ledger.outcome = w.ledger.outcome := rfl
@[simp] theorem logged_attempts :
    (w.logged event).ledger.attempts = w.ledger.attempts + 1 := rfl
@[simp] theorem logged_sessions : (w.logged event).sessions = w.sessions := rfl
@[simp] theorem logged_ticks : (w.logged event).ticks = w.ticks + 1 := rfl
@[simp] theorem lost_events : w.lost.ledger.events = w.ledger.events := rfl
@[simp] theorem lost_outcome : w.lost.ledger.outcome = w.ledger.outcome := rfl
@[simp] theorem lost_attempts : w.lost.ledger.attempts = w.ledger.attempts + 1 := rfl
@[simp] theorem lost_sessions : w.lost.sessions = w.sessions := rfl
@[simp] theorem lost_ticks : w.lost.ticks = w.ticks + 1 := rfl

end

/-- The next append is taken. -/
def Takes (w : World SessionLedger) : Prop := w.ledger.outcome w.ledger.attempts = .ok ()

/-- The next append is refused with `e`. -/
def Refuses (w : World SessionLedger) (e : LedgerError) : Prop :=
  w.ledger.outcome w.ledger.attempts = .error e

theorem takes_or_refuses (w : World SessionLedger) : w.Takes ∨ ∃ e, w.Refuses e := by
  unfold Takes Refuses
  cases w.ledger.outcome w.ledger.attempts with
  | ok u => exact Or.inl rfl
  | error e => exact Or.inr ⟨e, rfl⟩

end World

namespace ProfileFsmEngine

open Effect

variable {host : Host} {sid : String} {w : World SessionLedger}

theorem exec_append_taken (h : w.Takes) (eventType : FsmEventType) (pos : Position)
    (payload : Json) :
    exec (append host sid eventType pos payload) w =
      (.ok (), w.logged (eventAt (host.clock w.ticks) sid eventType pos payload)) := by
  rw [exec_append]
  simp only [LedgerPort.append, SessionLedger.append]
  rw [show w.ledger.outcome w.ledger.attempts = .ok () from h]
  rfl

theorem exec_append_refused {e : LedgerError} (h : w.Refuses e) (eventType : FsmEventType)
    (pos : Position) (payload : Json) :
    exec (append host sid eventType pos payload) w = (.error (.ledger e), w.lost) := by
  rw [exec_append]
  simp only [LedgerPort.append, SessionLedger.append]
  rw [show w.ledger.outcome w.ledger.attempts = .error e from h]
  rfl

end ProfileFsmEngine

/-! ## A one-macro engine

The engine the general theorems are instantiated at: a profile of one macro with
the given sub-states, and a signer whose one signature is the real one for its
challenge. -/

namespace Sample

def publicKey : String := "d75a980182b10ab7d54bfed3c964073a0ee172f3daa62325af021a68f707511a"

/-- 32 bytes of entropy. -/
def entropy : Bytes := List.replicate 32 0xab

/-- The Ed25519 signature of the gate's message over `entropy` under `publicKey`. -/
def signature : String :=
  "8a78a9fc634238854e247e2eaa8e6ecaa33359ab89170345af977119cbba9bf6" ++
  "ff0ea82dc7b3cbc3262aba68bf062d4d3f0431437ed63e47fb751d9dd6a7890b"

/-- Ed25519 on this key, this message and this signature. -/
def ed : Ed25519 where
  isPoint key := fromHex publicKey = some key
  verifyStrict key message sig := fromHex publicKey = some key &&
    message = bytesOf (approvalMessage "s1" "plan" "signoff" (toHex entropy)) &&
    fromHex signature = some sig

def vendor : Vendor where
  ed := ed
  schemaError _ := none
  sha256 _ := []
  toStringPretty _ := ""
  payloadErrors _ _ := []

def draft : SubStateDef := { id := "draft", subStateType := .execute }

def signoff : SubStateDef :=
  { id := "signoff", subStateType := .humanApproval, approverPubkey := some publicKey }

def checklist : SubStateDef :=
  { id := "check", subStateType := .checklist, criteria := some ["done"] }

def profile (subStates : List SubStateDef) : Profile :=
  { name := "sample", version := "1", pipeline := [{ stateId := "plan", name := "Plan", subStates }] }

def config : FsmConfig := { outputBase := "." }

def library : Library := ⟨"library", fun _ => .error .notFound⟩

def engine (subStates : List SubStateDef) : ProfileFsmEngine :=
  .new vendor (profile subStates) config

/-- A host on which everything works. -/
def host : Host where
  clock n := n
  validation := library
  library := library
  getrandom := .ok entropy
  artifacts := ⟨fun _ => .ok (), "u", fun _ => .ok (), fun _ => .ok []⟩
  artifactOrder := ⟨fun entries => entries, fun _ => .rfl⟩
  createDirAll _ := .ok ()
  write _ := .ok ()

theorem checklist_valid :
    validateProfile vendor.toSchemas library (profile [checklist]) = .ok () := by decide

theorem drafted_valid :
    validateProfile vendor.toSchemas library (profile [draft, checklist]) = .ok () := by decide

/-- No call yet, and a ledger whose attempts end as `outcome` says. -/
def world (outcome : Nat → Except LedgerError Unit) : World SessionLedger :=
  ⟨⟨[], outcome, 0⟩, fun _ => none, 0⟩

theorem world_fresh (sid : String) (outcome : Nat → Except LedgerError Unit) :
    (world outcome).Fresh sid := ⟨rfl, rfl⟩

/-- Attempt `n` fails, and no other. -/
def failsAt (n : Nat) : Nat → Except LedgerError Unit :=
  fun k => if k = n then .error (.io "disk full") else .ok ()

/-- A submission at a sub-state of the one macro. -/
def submit (sub : String) (evidence : ChecklistEvidence) : Host × Call :=
  (host, .submit ⟨"plan", sub⟩ evidence none)

/-- Evidence for the checklist. -/
def done : ChecklistEvidence := ⟨[("done", .bool true)], by simp⟩

/-- Evidence for the gate. -/
def signed : ChecklistEvidence := ⟨[("approval_signature", .string signature)], by simp⟩

end Sample

end ProtocolEnforcer
