import ProtocolEnforcer.Core.Callers
import ProtocolEnforcer.Gateway.Server

/-!
# The steps of a call on a session

`protocol_submit_milestone`, `protocol_store_artifact` and `protocol_get_state` in one gateway
process, step by step, for when calls on the same session come between. A call that misses
the registry rebuilds the engine with no lock held, and installs it only where there is
still none. It then waits for the lock of the engine it has got. An engine call appends
its events one at a time, so a rebuild may see a part of them; the ledger tail of
`protocol_get_state` is read once the lock is released.
-/

namespace ProtocolEnforcer

open Effect

/-- A tool on a session that is there, with its arguments. -/
inductive SessionTool where
  | submit (pos : Position) (evidence : ChecklistEvidence) (output : Option Json)
  | getState
  | storeArtifact (stepId content : String) (mimeType : Option String)

/-- What is asked of the engine under its lock, unless that is its state. -/
def SessionTool.call : SessionTool → Option Call
  | submit pos evidence output => some (.submit pos evidence output)
  | getState => none
  | storeArtifact stepId content mimeType =>
    some (.store stepId (bytesOf content) (mimeType.getD "text/plain"))

theorem SessionTool.eq_getState {tool : SessionTool} (h : tool.call = none) : tool = getState := by
  cases tool with
  | getState => rfl
  | submit | storeArtifact => cases h

/-- It is a submission or a store. -/
theorem SessionTool.call_eq_some {tool : SessionTool} {call : Call} (h : tool.call = some call) :
    (∃ pos evidence output, tool = submit pos evidence output ∧
      call = .submit pos evidence output) ∨
    ∃ stepId content mimeType, tool = storeArtifact stepId content mimeType ∧
      call = .store stepId (bytesOf content) (mimeType.getD "text/plain") := by
  cases tool with
  | submit pos evidence output =>
    exact .inl ⟨pos, evidence, output, rfl, (Option.some.inj h).symm⟩
  | getState => cases h
  | storeArtifact stepId content mimeType =>
    exact .inr ⟨stepId, content, mimeType, rfl, (Option.some.inj h).symm⟩

inductive ToolReply where
  | engine (reply : Reply)
  | state (status : SessionStatus) (position : Option Position) (ledgerTail : List FsmEvent)

/-- The last `LEDGER_TAIL_LEN` events. -/
def ledgerTail (events : List FsmEvent) : List FsmEvent :=
  events.drop (events.length - Gateway.ledgerTailLen)

/-- A call, and what it meets that another does not. -/
structure SessionCall where
  tool : SessionTool
  host : Host
  /-- Its engine's append attempts. -/
  appends : Nat → Except LedgerError Unit

/-- The outside of a call: the files that a rebuild reads are those of `disk`. -/
def SessionCall.io (c : SessionCall) (disk : Io) : Io :=
  { disk with host := { c.host with validation := disk.host.validation }, appends := c.appends }

/-- A `SharedEngine`, and the call that has its lock. -/
structure SharedEngine (ι : Type) where
  served : Served
  holder : Option ι

/-- What the calls `ι` on one session share. -/
structure SessionTable (F ι : Type) where
  ledgers : F → Option (List FsmEvent)
  /-- The registry's entry for the session. -/
  entry : Option Nat
  /-- Every engine that was put into the registry, by its handle. -/
  engines : List (SharedEngine ι)

namespace SessionTable

variable {F ι : Type} (t : SessionTable F ι)

/-- The ledger directory, as a tool finds it. -/
def server : ProtocolServer F := ⟨fun _ => none, t.ledgers, []⟩

/-- `entry(..).or_insert_with(..)`: the handle, and whether the entry was there or not. -/
def getOrInsert (served : Served) : Nat × SessionTable F ι :=
  match t.entry with
  | some h => (h, t)
  | none => (t.engines.length,
      { t with entry := some t.engines.length, engines := t.engines ++ [⟨served, none⟩] })

def setEngine (h : Nat) (engine : SharedEngine ι) : SessionTable F ι :=
  { t with engines := t.engines.set h engine }

/-- `Ledger::append`. -/
def append [DecidableEq F] (file : F) (event : FsmEvent) : SessionTable F ι :=
  { t with
    ledgers := Function.update t.ledgers file (some ((t.ledgers file).getD [] ++ [event])) }

end SessionTable

/-- Where a call is: what it does next, and what it has for that. -/
inductive CallStage where
  /-- The registry lookup. -/
  | looks
  /-- `recover_into_cache`, with no lock held. -/
  | recovers
  /-- The insert, under the registry's lock. -/
  | inserts (recovered : Served)
  /-- The wait for an engine's lock. -/
  | locks (engine : Nat)
  /-- The engine call: these events still to append, then this engine to leave behind. -/
  | appends (engine : Nat) (todo : List FsmEvent) (served : Served)
      (reply : Except ErrorData ToolReply)
  /-- The ledger tail, behind a state that was cloned under the lock. -/
  | tails (status : SessionStatus) (position : Option Position)
  | answered (reply : Except ErrorData ToolReply)

/-- The engine the call has in hand. -/
def CallStage.handle : CallStage → Option Nat
  | locks engine | appends engine _ _ _ => some engine
  | _ => none

namespace SessionCall

variable {F ι : Type} [DecidableEq F] (c : SessionCall) (gw : Gateway F) (disk : Io) (sid : String)

/-- What the engine makes of the call: its reply, the sessions it holds then, and what it
appends on the way. -/
def work (served : Served) (call : Call) : Except FsmError Reply × World SessionLedger :=
  served.engine.perform sid (c.io disk).host call ⟨⟨[], c.appends, 0⟩, served.sessions, 0⟩

/-- The next step of the call `i`: where it is then, and what it has changed. -/
def next (i : ι) (t : SessionTable F ι) : CallStage → CallStage × SessionTable F ι
  | .looks =>
    match t.entry with
    | some h => (.locks h, t)
    | none => (.recovers, t)
  | .recovers =>
    match exec (gw.recoverIntoCache (c.io disk) sid) t.server with
    | (.ok recovered, s) => (.inserts recovered, { t with ledgers := s.ledgers })
    | (.error e, s) => (.answered (.error e), { t with ledgers := s.ledgers })
  | .inserts recovered => ((.locks (t.getOrInsert recovered).1), (t.getOrInsert recovered).2)
  | .locks h =>
    match t.engines[h]? with
    | some ⟨served, none⟩ =>
      match c.tool.call with
      | some call =>
        let (reply, w) := c.work disk sid served call
        (.appends h w.ledger.events { served with sessions := w.sessions }
          ((reply.mapError .fsm).map .engine), t.setEngine h ⟨served, some i⟩)
      | none =>
        match served.sessions sid with
        | some state => (.tails state.status state.position, t)
        | none => (.answered (.error (.fsm (.sessionNotFound sid))), t)
    -- another call has the lock
    | _ => (.locks h, t)
  | .appends h (e :: todo) served reply =>
    (.appends h todo served reply, t.append (gw.file (UnixPath.components served.path)) e)
  | .appends h [] served reply => (.answered reply, t.setEngine h ⟨served, none⟩)
  | .tails status position =>
    match disk.replay with
    | .ok () => (.answered (.ok (.state status position (ledgerTail
        ((t.ledgers (gw.file (UnixPath.components (gw.ledgerPath sid)))).getD [])))), t)
    | .error e => (.answered (.error (.internalError ("Ledger replay failed: " ++ e.display))), t)
  | .answered reply => (.answered reply, t)

end SessionCall

namespace Gateway

variable {F ι : Type} [DecidableEq F] (gw : Gateway F) (io : Io) (sid : String)

/-- A call that nobody comes between. -/
def answer : SessionTool → Tool F ToolReply
  | .submit pos evidence output =>
    (fun outcome => .engine (.stepped outcome)) <$> gw.protocolSubmitMilestone io sid pos evidence output
  | .getState => (fun state => .state state.1 state.2.1 state.2.2) <$> gw.protocolGetState io sid
  | .storeArtifact stepId content mimeType =>
    (fun artifactRef => .engine (.stored artifactRef)) <$>
      gw.protocolStoreArtifact io sid stepId content mimeType

/-- The calls one after another. -/
def inTurn (disk : Io) (calls : ι → SessionCall) (s : ProtocolServer F) (order : List ι) :
    ProtocolServer F :=
  order.foldl (fun s i => (exec (gw.answer ((calls i).io disk) sid (calls i).tool) s).2) s

/-- What a call answers behind those before it. -/
def answerAfter (disk : Io) (calls : ι → SessionCall) (s : ProtocolServer F) (before : List ι)
    (i : ι) : Except ErrorData ToolReply :=
  (exec (gw.answer ((calls i).io disk) sid (calls i).tool) (gw.inTurn sid disk calls s before)).1

end Gateway

end ProtocolEnforcer
