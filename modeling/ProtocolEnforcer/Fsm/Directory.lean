import ProtocolEnforcer.Fsm.Budgets
import ProtocolEnforcer.Fsm.Mirror

/-!
# One ledger, many sessions

An engine over a `Ledger` (`crates/ledger/src/ledger.rs`) keeps its sessions apart in
memory. Its ledger does not: `append` is handed an event and writes it to the file the
ledger was opened for, whatever session the event is of, and `replay` is handed a session
and reads that session's file. As long as every start that passes validation is of the
session the ledger was opened for, a run of calls on any sessions is for that session a run
of its own calls over its own file, and for no other does it do anything.
-/

namespace ProtocolEnforcer

/-- A `Ledger` over its directory: the session whose file it has open, the files by their
sessions, and for each append attempt whether the file system took it. -/
structure DirectoryLedger where
  sessionId : String
  files : String → Option (List FsmEvent)
  outcome : Nat → Except LedgerError Unit
  attempts : Nat

namespace DirectoryLedger

/-- `append`: the file is the ledger's own. -/
def append (l : DirectoryLedger) (event : FsmEvent) : Except LedgerError Unit × DirectoryLedger :=
  match l.outcome l.attempts with
  | .ok () =>
    let events := (l.files l.sessionId).getD [] ++ [event]
    (.ok (), { l with
      files := Function.update l.files l.sessionId (some events), attempts := l.attempts + 1 })
  | .error e => (.error e, { l with attempts := l.attempts + 1 })

/-- `replay`: the file is the session's; where there is none, there are no events. -/
instance : LedgerPort DirectoryLedger where
  append := append
  replay l sid := .ok ((l.files sid).getD [])

/-- What a session's file holds. -/
def eventsOf (l : DirectoryLedger) (sid : String) : List FsmEvent := (l.files sid).getD []

/-- The ledger's own file cut behind its first `n` events. -/
def cut (l : DirectoryLedger) (n : Nat) : DirectoryLedger :=
  { l with
    files := Function.update l.files l.sessionId ((l.files l.sessionId).map (·.take n)) }

theorem replay_eq (l : DirectoryLedger) (sid : String) :
    LedgerPort.replay l sid = .ok (l.eventsOf sid) := rfl

theorem cut_eventsOf_self (l : DirectoryLedger) (n : Nat) :
    (l.cut n).eventsOf l.sessionId = (l.eventsOf l.sessionId).take n := by
  unfold eventsOf cut
  dsimp only
  rw [Function.update_self]
  cases l.files l.sessionId with
  | none => exact List.take_nil.symm
  | some events => rfl

theorem cut_eventsOf_other (l : DirectoryLedger) (n : Nat) {sid : String}
    (h : sid ≠ l.sessionId) : (l.cut n).eventsOf sid = l.eventsOf sid := by
  unfold eventsOf cut
  dsimp only
  rw [Function.update_of_ne h]

/-- No append ever fails. -/
def Reliable (l : DirectoryLedger) : Prop := ∀ n, l.outcome n = .ok ()

variable {l : DirectoryLedger}

theorem Reliable.append_eq (h : l.Reliable) (e : FsmEvent) : LedgerPort.append l e =
    (.ok (), { l with
      files := Function.update l.files l.sessionId (some ((l.files l.sessionId).getD [] ++ [e]))
      attempts := l.attempts + 1 }) := by
  show append l e = _
  unfold append
  rw [h l.attempts]

theorem Reliable.appended (e : FsmEvent) (h : l.Reliable) : (LedgerPort.append l e).2.Reliable := by
  rw [h.append_eq]
  exact h

end DirectoryLedger

/-- The world of a process that has died: only the files are left, and of the ledger's own its
first `n` events. -/
def World.crashedAt (w : World DirectoryLedger) (n : Nat) : World DirectoryLedger :=
  ⟨w.ledger.cut n, fun _ => none, w.ticks⟩

/-- The call an act makes, or begins. -/
def Act.made : Act → Host × Call
  | .call host made | .crash host made _ => (host, made)

namespace ProfileFsmEngine

open Effect

/-- The world after a call on any session. -/
def afterAny {L : Type} [LedgerPort L] (engine : ProfileFsmEngine) (w : World L)
    (x : String × Host × Call) : World L :=
  (perform engine x.1 x.2.1 x.2.2 w).2

/-- The world after a call on any session, or after a crash in it: memory is lost, and the
ledger's file holds what was there and the first `n` events of the call. -/
def happens (engine : ProfileFsmEngine) (w : World DirectoryLedger) (x : String × Act) :
    World DirectoryLedger :=
  match x.2 with
  | .call host call => afterAny engine w (x.1, host, call)
  | .crash host call n => (afterAny engine w (x.1, host, call)).crashedAt
      ((w.ledger.eventsOf w.ledger.sessionId).length + n)

variable {engine : ProfileFsmEngine} {sid own : String}

/-! ## Calls on no session -/

section

variable {L : Type} [LedgerPort L] {host : Host} {call : Call} {w : World L}

/-- Where there is no session, none is submitted to. -/
theorem exec_submitMilestone_unknown {pos : Position} {evidence : ChecklistEvidence}
    {output : Option Json} (hnone : w.sessions sid = none) :
    exec (submitMilestone engine host sid pos evidence output) w =
      (.error (.sessionNotFound sid), w) := by
  have hcheck : exec (lift (checkSubmission sid pos (w.sessions sid))) w =
      (.error (.sessionNotFound sid), w) := by
    rw [hnone]
    rfl
  rw [submitMilestone, exec_bind_ok (exec_reads _ _), exec_bind_error hcheck]

/-- Where there is no session, only a start that passes validation does anything. -/
theorem perform_idle (hcall : call ≠ .recover) (hnone : w.sessions sid = none)
    (hstart : ∀ ctx, call = .start ctx → validated engine host ≠ .ok ()) :
    (perform engine sid host call w).2 = w := by
  cases call with
  | start ctx =>
    show (exec (startSession engine host sid ctx) w).2 = w
    cases hvalid : validated engine host with
    | ok u => exact absurd hvalid (hstart ctx rfl)
    | error e =>
      rw [startSession, hvalid, exec_bind_error (exec_lift _ _)]
  | submit pos evidence output =>
    show (exec (submitMilestone engine host sid pos evidence output) w).2 = w
    rw [exec_submitMilestone_unknown hnone]
  | store stepId data mimeType =>
    show (exec (storeArtifact engine host sid stepId data mimeType) w).2 = w
    rw [storeArtifact, exec_bind_error (exec_getSession_none hnone)]
  | recover => exact absurd rfl hcall

/-- A recovery changes one session, or nothing. -/
theorem perform_recover_ok {s : SessionState}
    (h : recoverProfileSession sid w.ledger engine.profile = .ok s) :
    perform engine sid host .recover w = (.ok (.recovered s), w.setSession sid (some s)) := by
  have hexec : exec (recoverSession engine sid) w = (.ok s, w.setSession sid (some s)) := by
    rw [recoverSession, exec_bind_ok (exec_reads _ _), h, exec_bind_ok (exec_lift _ _),
      exec_bind_ok (exec_putSession _ _ _), exec_pure]
  show (_, _) = _
  rw [hexec]
  rfl

theorem perform_recover_error {e : FsmError}
    (h : recoverProfileSession sid w.ledger engine.profile = .error e) :
    perform engine sid host .recover w = (.error e, w) := by
  have hexec : exec (recoverSession engine sid) w = (.error e, w) := by
    rw [recoverSession, exec_bind_ok (exec_reads _ _), h, exec_bind_error (exec_lift _ _)]
  show (_, _) = _
  rw [hexec]
  rfl

end

/-! ## One file of the directory -/

/-- A directory of which `l` is one session's file: it is the ledger's own, and no other
file holds anything. -/
structure OwnFile (own : String) (l : DirectoryLedger) (m : SessionLedger) : Prop where
  opened : l.sessionId = own
  events : (l.files own).getD [] = m.events
  others : ∀ x, x ≠ own → (l.files x).getD [] = []
  reliable : l.Reliable
  taken : m.Reliable

theorem OwnFile.answers : Answers (OwnFile own) sid := by
  rintro l m e - ⟨rfl, hevents, hothers, hl, hm⟩
  have happend : LedgerPort.append m e =
      (.ok (), { m with events := m.events ++ [e], attempts := m.attempts + 1 }) := by
    show SessionLedger.append m e = _
    unfold SessionLedger.append
    rw [hm m.attempts]
  rw [hl.append_eq, happend, hevents]
  refine ⟨rfl, rfl, ?_, fun x hx => ?_, hl, hm⟩
  · dsimp only
    rw [Function.update_self]
    rfl
  · dsimp only
    rw [Function.update_of_ne hx]
    exact hothers x hx

section

variable {l : DirectoryLedger} {m : SessionLedger}

/-- The ledger's own session is recovered from its file, -/
theorem OwnFile.recover_own (h : OwnFile own l m) (p : Profile) :
    recoverProfileSession own l p = recoverProfileSession own m p := by
  have hreplay : LedgerPort.replay l own = LedgerPort.replay m own := congrArg Except.ok h.events
  unfold recoverProfileSession
  rw [hreplay]

/-- and no other from any. -/
theorem OwnFile.recover_other (h : OwnFile own l m) (hsid : sid ≠ own) (p : Profile) :
    recoverProfileSession sid l p = .error (.sessionNotFound sid) := by
  have hreplay : LedgerPort.replay l sid = .ok [] := congrArg Except.ok (h.others sid hsid)
  unfold recoverProfileSession
  rw [hreplay]
  rfl

/-- A crash cuts the one file. -/
theorem OwnFile.cut (h : OwnFile own l m) (n : Nat) :
    OwnFile own (l.cut n) { m with events := m.events.take n } where
  opened := h.opened
  events := by
    have hcut := l.cut_eventsOf_self n
    rw [h.opened] at hcut
    exact hcut.trans (congrArg (List.take n) h.events)
  others x hx := (l.cut_eventsOf_other n (h.opened ▸ hx)).trans (h.others x hx)
  reliable := h.reliable
  taken := h.taken

theorem OwnFile.length_eq (h : OwnFile own l m) :
    (l.eventsOf l.sessionId).length = m.events.length := by
  rw [h.opened]
  exact congrArg List.length h.events

end

/-- Every start that passes validation is of the session the ledger was opened for. -/
def StartsOwn (engine : ProfileFsmEngine) (own : String) (x : String × Host × Call) : Prop :=
  ∀ ctx, x.2.2 = .start ctx → validated engine x.2.1 = .ok () → x.1 = own

/-- No session yet, no event in any file, and a disk that takes every append. -/
structure Untouched (w : World DirectoryLedger) : Prop where
  sessions : ∀ sid, w.sessions sid = none
  files : ∀ sid, (w.ledger.files sid).getD [] = []
  reliable : w.ledger.Reliable

/-! ## What the ledger's own session sees -/

/-- No session of `w` but `own` is live or has events, and `v` is the world of `own` over its
own file. -/
abbrev OwnView (own : String) (w : World DirectoryLedger) (v : World SessionLedger) : Prop :=
  Mirror (OwnFile own) own (fun _ => none) w v

/-- The world of a session over its own file, before any call. -/
def unopened (ticks : Nat) : World SessionLedger := ⟨⟨[], fun _ => .ok (), 0⟩, fun _ => none, ticks⟩

theorem unopened_fresh {ticks : Nat} : (unopened ticks).Fresh sid := ⟨rfl, rfl⟩

theorem unopened_reliable {ticks : Nat} : (unopened ticks).ledger.Reliable := fun _ => rfl

section

variable {w : World DirectoryLedger} {v : World SessionLedger} {host : Host} {call : Call}

theorem Untouched.ownView (h : Untouched w) :
    OwnView w.ledger.sessionId w (unopened w.ticks) where
  ledger := ⟨rfl, h.files _, fun x _ => h.files x, h.reliable, unopened_reliable⟩
  session := h.sessions _
  others x _ := h.sessions x
  ticks := rfl

/-- A call on the ledger's own session answers what it answers over that session's file, -/
theorem OwnView.performed (h : OwnView own w v) :
    (perform engine own host call w).1 = (perform engine own host call v).1 ∧
      OwnView own (perform engine own host call w).2 (perform engine own host call v).2 := by
  by_cases hcall : call = .recover
  · subst hcall
    have hsame : recoverProfileSession own w.ledger engine.profile =
        recoverProfileSession own v.ledger engine.profile := h.ledger.recover_own _
    cases hrec : recoverProfileSession own v.ledger engine.profile with
    | error e =>
      rw [perform_recover_error (hsame.trans hrec), perform_recover_error hrec]
      exact ⟨rfl, h⟩
    | ok s =>
      rw [perform_recover_ok (hsame.trans hrec), perform_recover_ok hrec]
      exact ⟨rfl, h.assigned _⟩
  · exact perform_mirrors OwnFile.answers hcall h

/-- and one on any other session does nothing. -/
theorem OwnView.idle {x : String × Host × Call} (h : OwnView own w v)
    (hx : StartsOwn engine own x) (hne : x.1 ≠ own) : afterAny engine w x = w := by
  obtain ⟨sid, host, call⟩ := x
  by_cases hcall : call = .recover
  · subst hcall
    exact congrArg Prod.snd (perform_recover_error (h.ledger.recover_other hne _))
  · exact perform_idle hcall (h.others sid hne) fun ctx hctx hvalid => hne (hx ctx hctx hvalid)

/-- A live session is the ledger's own, -/
theorem OwnView.own_of_live {s : SessionState} (h : OwnView own w v)
    (hs : w.sessions sid = some s) : sid = own := by
  by_contra hne
  exact absurd (hs.symm.trans (h.others sid hne)) nofun

/-- and so is one with an event. -/
theorem OwnView.own_of_event {k : Nat} {e : FsmEvent} (h : OwnView own w v)
    (he : (w.ledger.eventsOf sid)[k]? = some e) : sid = own := by
  by_contra hne
  have hnone : w.ledger.eventsOf sid = [] := h.ledger.others sid hne
  rw [hnone] at he
  cases he

theorem OwnView.events_eq (h : OwnView own w v) : w.ledger.eventsOf own = v.ledger.events :=
  h.ledger.events

variable (own) in
/-- What the ledger's own session sees of an act: a crash in a call on another session is for
it a restart. -/
def ownAct (x : String × Act) : List Act :=
  if x.1 = own then [x.2] else
    match x.2 with
    | .call _ _ => []
    | .crash host _ _ => [.crash host .recover 0]

/-- A crash is one for both. -/
theorem OwnView.crashed (h : OwnView own w v) (n : Nat) :
    OwnView own (w.crashedAt n) (v.crashed (v.ledger.events.take n)) where
  ledger := h.ledger.cut n
  session := rfl
  others _ _ := rfl
  ticks := h.ticks

/-- A restart is a crash in a call that appends nothing. -/
theorem occur_restart : occur engine own v (.crash host .recover 0) = v.crashed v.ledger.events := by
  have hsame : (perform engine own host .recover v).2.ledger = v.ledger ∧
      (perform engine own host .recover v).2.ticks = v.ticks := by
    cases hrec : recoverProfileSession own v.ledger engine.profile with
    | error e =>
      rw [perform_recover_error hrec]
      exact ⟨rfl, rfl⟩
    | ok s =>
      rw [perform_recover_ok hrec]
      exact ⟨rfl, rfl⟩
  unfold occur World.crashed
  dsimp only
  rw [hsame.1, hsame.2, Nat.add_zero, List.take_length]

/-- **One act**, on any session, is for the ledger's own session what it sees of it. -/
theorem OwnView.happens {x : String × Act} (h : OwnView own w v)
    (hx : StartsOwn engine own (x.1, x.2.made)) :
    OwnView own (happens engine w x) ((ownAct own x).foldl (occur engine own) v) := by
  obtain ⟨sid, act⟩ := x
  unfold ownAct ProfileFsmEngine.happens
  by_cases hsid : sid = own
  · subst hsid
    rw [if_pos rfl]
    cases act with
    | call host call => exact h.performed.2
    | crash host call n =>
      dsimp only
      rw [h.ledger.length_eq]
      exact h.performed.2.crashed _
  · rw [if_neg hsid]
    cases act with
    | call host call =>
      have hidle : afterAny engine w (sid, host, call) = w := h.idle hx hsid
      dsimp only
      rw [hidle]
      exact h
    | crash host call n =>
      have hidle : afterAny engine w (sid, host, call) = w := h.idle hx hsid
      dsimp only
      rw [hidle, h.ledger.length_eq]
      have hcrash : OwnView own (w.crashedAt (v.ledger.events.length + n))
          (v.crashed (v.ledger.events.take (v.ledger.events.length + n))) := h.crashed _
      rw [List.take_of_length_le (Nat.le_add_right _ _), ← occur_restart] at hcrash
      exact hcrash

/-- **A run of calls and crashes on any sessions** is for the ledger's own session a run of
what it sees. -/
theorem OwnView.run {acts : List (String × Act)} (h : OwnView own w v)
    (hacts : ∀ x ∈ acts, StartsOwn engine own (x.1, x.2.made)) :
    OwnView own (acts.foldl (ProfileFsmEngine.happens engine) w)
      ((acts.flatMap (ownAct own)).foldl (occur engine own) v) := by
  induction acts generalizing w v with
  | nil => exact h
  | cons x acts ih =>
    rw [List.flatMap_cons, List.foldl_append]
    exact ih (h.happens (hacts x List.mem_cons_self)) fun y hy => hacts y (List.mem_cons_of_mem _ hy)

end

end ProfileFsmEngine

namespace Sample

/-- The ledger of `s1` in a directory of its own. -/
def directory : World DirectoryLedger :=
  ⟨⟨"s1", fun sid => if sid = "s1" then some [] else none, fun _ => .ok (), 0⟩, fun _ => none, 0⟩

theorem directory_untouched : ProfileFsmEngine.Untouched directory where
  sessions _ := rfl
  files sid := by
    unfold directory
    dsimp only
    split <;> rfl
  reliable _ := rfl

end Sample

end ProtocolEnforcer
