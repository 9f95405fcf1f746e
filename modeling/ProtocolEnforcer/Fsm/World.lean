import Mathlib.Logic.Function.Basic
import ProtocolEnforcer.Artifacts.Store
import ProtocolEnforcer.Core.Effect
import ProtocolEnforcer.Fsm.Approval

/-!
# The engine's state and its surroundings

A `ProfileFsmEngine` has a half that never changes after `new` (profile,
configuration, the packages it calls), the sessions it holds in memory, and a
ledger behind a port. What the outside answers during one call (clock, entropy,
files) is a `Host`. Every operation is an `Effect` over the `World`, so that what
a failing operation has already done stays done.
-/

namespace ProtocolEnforcer

/-- The packages the engine calls. -/
structure Vendor extends Schemas where
  sha256 : Bytes → Bytes
  /-- `serde_json::to_string_pretty` on a value. -/
  toStringPretty : Json → String
  /-- `jsonschema` with Draft 7: what is wrong with a payload, given a schema. -/
  payloadErrors : (schema payload : Json) → List String

/-- `FsmConfig`. -/
structure FsmConfig where
  globalTimeoutSeconds : Nat := 3600
  artifactRoot : String := "."
  profileSha256 : Option String := none
  outputBase : String

/-- The half of a `ProfileFsmEngine` that never changes. -/
structure ProfileFsmEngine where
  vendor : Vendor
  profile : Profile
  config : FsmConfig

/-- `ProfileFsmEngine::new`: the profile is normalized once, here. -/
def ProfileFsmEngine.new (vendor : Vendor) (profile : Profile) (config : FsmConfig) :
    ProfileFsmEngine :=
  ⟨vendor, profile.withEnabledMacrosOnly, config⟩

/-- What the outside answers during one call. -/
structure Host where
  /-- `Utc::now`, by the number of readings before. -/
  clock : Nat → Time
  /-- The library as the validator reads it. -/
  validation : Library
  /-- The library as rendering reads it, later. -/
  library : Library
  getrandom : Except String Bytes
  artifacts : ArtifactIo
  /-- How the artifact map of a session is walked. -/
  artifactOrder : WalkOrder (String × ArtifactRef)
  createDirAll : String → Except String Unit
  write : String → Except String Unit

/-- `LedgerPort`. -/
class LedgerPort (L : Type) where
  append : L → FsmEvent → Except LedgerError Unit × L
  replay : L → String → Except LedgerError (List FsmEvent)

/-- The half of a `ProfileFsmEngine` that operations change; `ticks` counts the
clock readings so far. -/
structure World (L : Type) where
  ledger : L
  sessions : String → Option SessionState
  ticks : Nat

namespace World

variable {L : Type} (w : World L)

/-- One clock reading later. -/
def tick : World L := { w with ticks := w.ticks + 1 }

/-- The same world with `s` as the session `sid` (`HashMap::insert`, `remove`). -/
def setSession (sid : String) (s : Option SessionState) : World L :=
  { w with sessions := Function.update w.sessions sid s }

def setLedger (ledger : L) : World L := { w with ledger }

@[simp] theorem tick_ledger : w.tick.ledger = w.ledger := rfl
@[simp] theorem tick_sessions : w.tick.sessions = w.sessions := rfl
@[simp] theorem tick_ticks : w.tick.ticks = w.ticks + 1 := rfl
@[simp] theorem setSession_ledger (sid s) : (w.setSession sid s).ledger = w.ledger := rfl
@[simp] theorem setSession_ticks (sid s) : (w.setSession sid s).ticks = w.ticks := rfl
@[simp] theorem setLedger_ledger (l : L) : (w.setLedger l).ledger = l := rfl
@[simp] theorem setLedger_sessions (l : L) : (w.setLedger l).sessions = w.sessions := rfl
@[simp] theorem setLedger_ticks (l : L) : (w.setLedger l).ticks = w.ticks := rfl

@[simp] theorem setSession_sessions_self (sid s) : (w.setSession sid s).sessions sid = s := by
  simp [setSession]

end World

/-- The `step_id` of an event at a position. -/
def Position.stepId (pos : Position) : String := pos.macroId ++ "/" ++ pos.subStateId

/-- `json!({})`. -/
def Json.emptyObject : Json := .object []

namespace ProfileFsmEngine

open Effect

variable {L : Type}

/-- `Utc::now`. -/
def now (host : Host) : Effect (World L) FsmError Time := do
  let t ← reads fun w => host.clock w.ticks
  modify World.tick
  return t

/-- `self.sessions.get(session_id).ok_or_else(..)`. -/
def getSession (sid : String) : Effect (World L) FsmError SessionState := do
  let session ← reads fun w => w.sessions sid
  lift (session.elim (.error (.sessionNotFound sid)) .ok)

/-- `self.sessions.insert` and `self.sessions.remove`. -/
def putSession (sid : String) (s : Option SessionState) : Effect (World L) FsmError Unit :=
  modify fun w => w.setSession sid s

/-- Fields of the session assigned through `get_mut`. -/
def updateSession (sid : String) (f : SessionState → SessionState) :
    Effect (World L) FsmError Unit := do
  let session ← getSession sid
  putSession sid (some (f session))

/-- `if let Some(session) = self.sessions.get_mut(..)`, and `status = Failed`. -/
def failSession (sid : String) : Effect (World L) FsmError Unit :=
  modify fun w => w.setSession sid ((w.sessions sid).map fun s => { s with status := .failed })

/-- The event `append` builds at clock reading `t`. -/
def eventAt (t : Time) (sid : String) (eventType : FsmEventType) (pos : Position)
    (payload : Json) : FsmEvent :=
  ⟨t, sid, eventType, some pos.stepId, payload⟩

/-- `append`: stamp the event and hand it to the ledger. -/
def append [LedgerPort L] (host : Host) (sid : String) (eventType : FsmEventType) (pos : Position)
    (payload : Json) : Effect (World L) FsmError Unit := do
  let t ← now host
  let w ← get
  let (result, ledger) := LedgerPort.append w.ledger (eventAt t sid eventType pos payload)
  modify fun w => w.setLedger ledger
  lift (result.mapError .ledger)

/-! ## What the primitives do -/

section

variable (host : Host) (sid : String) (w : World L)

@[simp] theorem exec_now : exec (now host) w = (.ok (host.clock w.ticks), w.tick) := rfl

@[simp] theorem exec_putSession (s : Option SessionState) :
    exec (putSession sid s) w = (.ok (), w.setSession sid s) := rfl

@[simp] theorem exec_failSession :
    exec (failSession sid) w =
      (.ok (), w.setSession sid ((w.sessions sid).map fun s => { s with status := .failed })) :=
  rfl

variable {sid w}

theorem exec_getSession {s : SessionState} (h : w.sessions sid = some s) :
    exec (getSession sid) w = (.ok s, w) := by
  rw [getSession, exec_bind_ok (exec_reads _ _), exec_lift, h]
  rfl

theorem exec_getSession_none (h : w.sessions sid = none) :
    exec (getSession sid) w = (.error (.sessionNotFound sid), w) := by
  rw [getSession, exec_bind_ok (exec_reads _ _), exec_lift, h]
  rfl

theorem exec_updateSession {s : SessionState} (f : SessionState → SessionState)
    (h : w.sessions sid = some s) :
    exec (updateSession sid f) w = (.ok (), w.setSession sid (some (f s))) := by
  rw [updateSession, exec_bind_ok (exec_getSession h), exec_putSession]

variable (sid w)

/-- An append asks the port once; whatever it answers, only the ledger and the
clock have moved. -/
theorem exec_append [LedgerPort L] (eventType : FsmEventType) (pos : Position) (payload : Json) :
    exec (append host sid eventType pos payload) w =
      ((LedgerPort.append w.ledger
          (eventAt (host.clock w.ticks) sid eventType pos payload)).1.mapError .ledger,
        w.tick.setLedger (LedgerPort.append w.ledger
          (eventAt (host.clock w.ticks) sid eventType pos payload)).2) := by
  rw [append, exec_bind_ok (exec_now host w)]
  show exec (lift _) _ = _
  rw [exec_lift]
  rfl

end

end ProfileFsmEngine

end ProtocolEnforcer
