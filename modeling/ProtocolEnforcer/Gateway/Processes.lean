import ProtocolEnforcer.Fsm.Agreement
import ProtocolEnforcer.Fsm.Visits
import ProtocolEnforcer.Gateway.Server

/-!
# Several gateway processes, one session

Processes that share a ledger directory share the session's ledger and nothing else.
Each recovers the session from the ledger when its registry has none and serves it from
memory from then on; the engine decides on what is in memory, and appends are atomic,
so the appends of one submission may interleave with those of another process.
-/

namespace ProtocolEnforcer

/-- One gateway process, as far as one session goes: the session in its registry, and
what the submission at its engine has still to append. -/
structure Process where
  cached : Option SessionState
  pending : List FsmEvent

/-- The processes and the ledger they share, with the submissions begun so far, the
oldest first. -/
structure Processes (ι : Type) where
  ledger : List FsmEvent
  process : ι → Process
  begun : List (Host × Call)

/-- What one process does next. -/
inductive Action (ι : Type) where
  /-- `get_or_recover`. -/
  | recover (i : ι)
  /-- A submission takes the engine's lock. -/
  | submit (i : ι) (host : Host) (pos : Position) (evidence : ChecklistEvidence)
      (output : Option Json)
  /-- `Ledger::append`, under the file's lock. -/
  | append (i : ι)
  | restart (i : ι)

/-- An engine that holds `s` and has appended nothing yet. -/
def World.holding (sid : String) (s : SessionState) : World SessionLedger :=
  ⟨⟨[], fun _ => .ok (), 0⟩, Function.update (fun _ => none) sid (some s), 0⟩

namespace Processes

variable {ι : Type} (P : Processes ι)

/-- No submission is being appended. -/
def Quiet : Prop := ∀ i, (P.process i).pending = []

variable [DecidableEq ι]

def setProcess (i : ι) (p : Process) : Processes ι :=
  { P with process := Function.update P.process i p }

@[simp] theorem setProcess_self (i : ι) (p : Process) : (P.setProcess i p).process i = p := by
  simp [setProcess]

theorem setProcess_of_ne {i j : ι} (p : Process) (h : j ≠ i) :
    (P.setProcess i p).process j = P.process j := by
  simp [setProcess, h]

@[simp] theorem setProcess_ledger (i : ι) (p : Process) :
    (P.setProcess i p).ledger = P.ledger := rfl

@[simp] theorem setProcess_begun (i : ι) (p : Process) : (P.setProcess i p).begun = P.begun := rfl

end Processes

namespace ProfileFsmEngine

open Effect

variable {ι : Type} [DecidableEq ι] (engine : ProfileFsmEngine) (sid : String)

/-- What the engine makes of a submission when it holds `s`: what it appends is in the
ledger of the world it ends in. -/
def decided (host : Host) (pos : Position) (evidence : ChecklistEvidence) (output : Option Json)
    (s : SessionState) : World SessionLedger :=
  (perform engine sid host (.submit pos evidence output) (.holding sid s)).2

/-- One action. A cache hit leaves the registry alone, a submission waits while another
has the lock, and a process restarts between two submissions. -/
def next (P : Processes ι) : Action ι → Processes ι
  | .recover i =>
    match (P.process i).cached with
    | some _ => P
    | none =>
      match recoverProfileSession sid (⟨P.ledger, fun _ => .ok (), 0⟩ : SessionLedger)
        engine.profile with
      | .ok s => P.setProcess i { P.process i with cached := some s }
      | .error _ => P
  | .submit i host pos evidence output =>
    match (P.process i).cached, (P.process i).pending with
    | some s, [] =>
      let w := decided engine sid host pos evidence output s
      { P.setProcess i ⟨w.sessions sid, w.ledger.events⟩ with
        begun := P.begun ++ [(host, .submit pos evidence output)] }
    | _, _ => P
  | .append i =>
    match (P.process i).pending with
    | [] => P
    | e :: rest =>
      { P.setProcess i { P.process i with pending := rest } with ledger := P.ledger ++ [e] }
  | .restart i =>
    match (P.process i).pending with
    | [] => P.setProcess i ⟨none, []⟩
    | _ :: _ => P

/-- A submission that begins does so while none is being appended, and on the session
that recovering the ledger gives. -/
def Current (P : Processes ι) : Action ι → Prop
  | .submit i _ _ _ _ => (P.process i).pending = [] → ∀ s, (P.process i).cached = some s →
      P.Quiet ∧ Folds engine sid P.ledger (some s.timeless)
  | _ => True

/-- A call and what it met, but for the clock. -/
def unclocked (x : Host × Call) : Host × Call := (x.1.withClock fun _ => 0, x.2)

/-- What the processes have appended is what one engine appends, which carries on after
`history` with the same submissions in some order; the last of them may still be
under way. -/
def Sequential (w : World SessionLedger) (history : List (Host × Call)) (P : Processes ι) : Prop :=
  ∃ calls, (calls.map unclocked).Perm (P.begun.map unclocked) ∧
    P.ledger <+: (runCalls engine sid w (history ++ calls)).ledger.events ∧
    (P.Quiet → P.ledger = (runCalls engine sid w (history ++ calls)).ledger.events)

variable {engine sid}

/-! ## What a process appends -/

/-- Times before and after the first reading. -/
def clockFrom (ticks : Nat) (first : Time) (clock : Nat → Time) (n : Nat) : Time :=
  if n ≤ ticks then first else clock (n - ticks)

theorem clockFrom_first (ticks : Nat) (first : Time) (clock : Nat → Time) :
    clockFrom ticks first clock ticks = first :=
  if_pos (le_refl _)

theorem clockFrom_later (ticks n : Nat) (first : Time) (clock : Nat → Time) :
    clockFrom ticks first clock (ticks + 1 + n) = clock (0 + 1 + n) := by
  rw [clockFrom, if_neg (by omega)]
  congr 1
  omega

/-- **A single engine would have appended the same**, on a clock that shows it the same
times. -/
theorem decided_events (host : Host) (pos : Position) (evidence : ChecklistEvidence)
    (output : Option Json) {s t : SessionState} {v : World SessionLedger}
    (hv : v.ledger.Reliable) (ht : v.sessions sid = some t) (hsame : SameSession s t) :
    ∃ clock, (perform engine sid (host.withClock clock) (.submit pos evidence output)
        v).2.ledger.events =
      v.ledger.events ++ (decided engine sid host pos evidence output s).ledger.events := by
  have hs : (World.holding sid s).sessions sid = some s := by simp [World.holding]
  refine ⟨clockFrom v.ticks (host.clock 0 - s.startedAt + t.startedAt) host.clock, ?_⟩
  refine (perform_agrees hs ht hsame ⟨⟨(List.append_nil _).symm, ?_⟩, fun _ => rfl, hv, ?_⟩
    ?_).events
  · rw [World.tick_sessions, World.tick_sessions, hs, ht]
    exact .some hsame
  · exact fun n => clockFrom_later _ _ _ _
  · rw [clockFrom_first]
    exact Int.add_sub_cancel _ _

/-- **What a server's engine does at once**, when it serves a submission from its registry,
is what a process appends piece by piece. -/
theorem operate_appends {F : Type} [DecidableEq F] (gw : Gateway F) (io : Io) {served : Served}
    (s : ProtocolServer F) {t : SessionState} {pos : Position} {evidence : ChecklistEvidence}
    {output : Option Json} (ht : served.sessions sid = some t) (hio : ∀ n, io.appends n = .ok ()) :
    (exec (gw.operate io served (served.engine.submitMilestone io.host sid pos evidence output))
        s).2.ledgers (gw.file (UnixPath.components served.path)) =
      some ((s.ledgers (gw.file (UnixPath.components served.path))).getD [] ++
        (decided served.engine sid io.host pos evidence output t).ledger.events) := by
  have hsession : (World.holding sid t).sessions sid = some t := by simp [World.holding]
  have hagrees : SideBySide sid ((s.ledgers (gw.file (UnixPath.components served.path))).getD [])
      (decided served.engine sid io.host pos evidence output t)
      (perform served.engine sid io.host (.submit pos evidence output) (gw.worldOf io served s)).2 := by
    refine perform_agrees hsession ht rfl ⟨⟨(List.append_nil _).symm, ?_⟩, fun _ => rfl, hio,
      fun _ => rfl⟩ rfl
    rw [World.tick_sessions, World.tick_sessions, hsession,
      show (gw.worldOf io served s).sessions sid = some t from ht]
    exact .some rfl
  refine Eq.trans ?_ (congrArg some hagrees.events)
  exact Function.update_self _ _ _

/-! ## The invariant -/

/-- The processes have appended `es` but for what one of them has still to append. -/
structure Drains (P : Processes ι) (es : List FsmEvent) : Prop where
  behind : P.ledger <+: es
  done : P.Quiet → P.ledger = es
  alone : ∀ i, (P.process i).pending ≠ [] →
    P.ledger ++ (P.process i).pending = es ∧ ∀ j, j ≠ i → (P.process j).pending = []

namespace Drains

variable {P : Processes ι} {es : List FsmEvent}

/-- What moves no pending event. -/
theorem setProcess (h : Drains P es) {i : ι} {p : Process}
    (hp : p.pending = (P.process i).pending) : Drains (P.setProcess i p) es := by
  have hsame : ∀ j, ((P.setProcess i p).process j).pending = (P.process j).pending := by
    intro j
    by_cases hj : j = i
    · rw [hj, Processes.setProcess_self, hp]
    · rw [P.setProcess_of_ne p hj]
  refine ⟨h.behind, fun hquiet => h.done fun j => (hsame j).symm.trans (hquiet j), ?_⟩
  intro j hj
  obtain ⟨heq, hrest⟩ := h.alone j (hsame j ▸ hj)
  exact ⟨by rw [hsame]; exact heq, fun k hk => (hsame k).trans (hrest k hk)⟩

/-- A process appends the next of its events. -/
theorem append (h : Drains P es) {i : ι} {e : FsmEvent} {rest : List FsmEvent}
    (hi : (P.process i).pending = e :: rest) :
    Drains { P.setProcess i { P.process i with pending := rest } with
      ledger := P.ledger ++ [e] } es := by
  obtain ⟨heq, hrest⟩ := h.alone i (by rw [hi]; exact List.cons_ne_nil _ _)
  have htail : P.ledger ++ [e] ++ rest = es := by
    rw [← heq, hi, List.append_assoc]
    rfl
  have hself : ((P.setProcess i { P.process i with pending := rest }).process i).pending = rest := by
    rw [Processes.setProcess_self]
  have hother : ∀ j, j ≠ i →
      ((P.setProcess i { P.process i with pending := rest }).process j).pending = [] := by
    intro j hj
    rw [P.setProcess_of_ne _ hj]
    exact hrest j hj
  refine ⟨⟨rest, htail⟩, ?_, ?_⟩
  · intro hquiet
    have hnil : rest = [] := hself.symm.trans (hquiet i)
    rw [← htail, hnil, List.append_nil]
  · intro j hj
    by_cases hji : j = i
    · subst hji
      exact ⟨(congrArg _ hself).trans htail, hother⟩
    · exact absurd (hother j hji) hj

/-- A process takes on a submission while all are quiet. -/
theorem takeOn (h : Drains P es) (hquiet : P.Quiet) (i : ι) (p : Process)
    (begun : List (Host × Call)) :
    Drains { P.setProcess i p with begun } (es ++ p.pending) := by
  have heq := h.done hquiet
  have hother : ∀ j, j ≠ i → ((P.setProcess i p).process j).pending = [] := by
    intro j hj
    rw [P.setProcess_of_ne p hj]
    exact hquiet j
  refine ⟨h.behind.trans (List.prefix_append _ _), ?_, ?_⟩
  · intro hquiet'
    have hnil : p.pending = [] := by
      have hi := hquiet' i
      simpa using hi
    rw [hnil, List.append_nil]
    exact heq
  · intro j hj
    by_cases hji : j = i
    · subst hji
      refine ⟨?_, hother⟩
      simp [heq]
    · exact absurd (hother j hji) hj

end Drains

/-- One engine's run behind what the processes have done. -/
def Explained (engine : ProfileFsmEngine) (sid : String) (w : World SessionLedger)
    (history : List (Host × Call)) (P : Processes ι) : Prop :=
  ∃ calls, calls.map unclocked = P.begun.map unclocked ∧
    WellKept engine sid (runCalls engine sid w (history ++ calls)) ∧
    Drains P (runCalls engine sid w (history ++ calls)).ledger.events

section

variable {ed : Ed25519} {w : World SessionLedger} {history : List (Host × Call)} {P : Processes ι}

omit [DecidableEq ι] in
/-- What neither begins a submission nor loses an event. -/
theorem Explained.keep (h : Explained engine sid w history P) {P' : Processes ι}
    (hbegun : P'.begun = P.begun) (hdrains : ∀ es, Drains P es → Drains P' es) :
    Explained engine sid w history P' := by
  obtain ⟨calls, hcalls, hkept, h⟩ := h
  exact ⟨calls, hbegun.symm ▸ hcalls, hkept, hdrains _ h⟩

/-- A submission that begins as `Current` says is the engine's next call. -/
theorem Explained.takeOn (wf : engine.profile.WellFormed ed)
    (h : Explained engine sid w history P) {i : ι} {s : SessionState} (hquiet : P.Quiet)
    (hfolds : Folds engine sid P.ledger (some s.timeless)) (host : Host) (pos : Position)
    (evidence : ChecklistEvidence) (output : Option Json) :
    Explained engine sid w history
      { P.setProcess i ⟨(decided engine sid host pos evidence output s).sessions sid,
          (decided engine sid host pos evidence output s).ledger.events⟩ with
        begun := P.begun ++ [(host, .submit pos evidence output)] } := by
  obtain ⟨calls, hcalls, hkept, hdrains⟩ := h
  obtain ⟨fold, hfold, -, hmem⟩ := hkept.synced
  -- the engine holds what the process has in its registry
  rw [← hdrains.done hquiet] at hfold
  rw [hfold.unique hfolds] at hmem
  obtain ⟨t, ht, hsame⟩ := Option.map_eq_some_iff.mp hmem
  obtain ⟨clock, hevents⟩ := decided_events host pos evidence output hkept.reliable ht
    (show SameSession s t from hsame.symm)
  refine ⟨calls ++ [(host.withClock clock, .submit pos evidence output)], ?_, ?_, ?_⟩
  · rw [List.map_append, List.map_append, hcalls]
    rfl
  · rw [← List.append_assoc, runCalls_append]
    exact hkept.after wf nofun
  · rw [← List.append_assoc, runCalls_append]
    have hnext := hdrains.takeOn hquiet i ⟨(decided engine sid host pos evidence output s).sessions
      sid, (decided engine sid host pos evidence output s).ledger.events⟩
      (P.begun ++ [(host, .submit pos evidence output)])
    rwa [← hevents] at hnext

/-- **One action keeps the invariant.** -/
theorem Explained.next (wf : engine.profile.WellFormed ed)
    (h : Explained engine sid w history P) (a : Action ι) (hcurrent : Current engine sid P a) :
    Explained engine sid w history (next engine sid P a) := by
  cases a with
  | recover i =>
    unfold ProfileFsmEngine.next
    dsimp only
    split
    · exact h
    · split
      · exact h.keep rfl fun es hes => hes.setProcess rfl
      · exact h
  | submit i host pos evidence output =>
    unfold ProfileFsmEngine.next
    dsimp only
    split
    · rename_i s hcached hidle
      obtain ⟨hquiet, hfolds⟩ := hcurrent hidle s hcached
      exact h.takeOn wf hquiet hfolds host pos evidence output
    · exact h
  | append i =>
    unfold ProfileFsmEngine.next
    dsimp only
    split
    · exact h
    · rename_i e rest hpending
      exact h.keep rfl fun es hes => hes.append hpending
  | restart i =>
    unfold ProfileFsmEngine.next
    dsimp only
    split
    · rename_i hidle
      exact h.keep rfl fun es hes => hes.setProcess hidle.symm
    · exact h

end

/-! ## Runs -/

end ProfileFsmEngine

/-- Processes that have begun nothing, over this ledger. What is in their registries does
not matter. -/
def Processes.Opened {ι : Type} (P : Processes ι) (ledger : List FsmEvent) : Prop :=
  P.ledger = ledger ∧ P.Quiet ∧ P.begun = []

namespace ProfileFsmEngine

variable {ι : Type} [DecidableEq ι] {vendor : Vendor} {library : Library} {p : Profile}
  {config : FsmConfig} {sid : String} {w : World SessionLedger} {history : List (Host × Call)}
  {P : Processes ι} {actions : List (Action ι)}

/-- **Several processes, one engine.** If every submission begins while none is being
appended, on the session that the ledger stands for, then in every interleaving the
ledger is one engine's, and every event in it fits the session before it. -/
theorem sequential_of_current
    (hvalid : validateProfile vendor.toSchemas library p = .ok ()) (hfresh : w.Fresh sid)
    (hledger : w.ledger.Reliable)
    (hstarts : Along (new vendor p config) sid (StartsOk (new vendor p config) sid) w history)
    (hopened : P.Opened (runCalls (new vendor p config) sid w history).ledger.events)
    (hcurrent : Runs.Along (next (new vendor p config) sid) (Current (new vendor p config) sid) P
      actions) :
    Sequential (new vendor p config) sid w history
        (actions.foldl (next (new vendor p config) sid) P) ∧
      Orderly (new vendor p config) sid (actions.foldl (next (new vendor p config) sid) P).ledger := by
  have wf : (new vendor p config).profile.WellFormed vendor.ed := new_wellFormed hvalid
  obtain ⟨hsame, hquiet, hbegun⟩ := hopened
  have hinit : Explained (new vendor p config) sid w history P := by
    refine ⟨[], by rw [hbegun], ?_, ?_⟩
    · rw [List.append_nil]
      exact wellKept_run wf (wellKept_of_fresh hfresh hledger) hstarts
    · rw [List.append_nil, ← hsame]
      exact ⟨List.prefix_rfl, fun _ => rfl, fun i hi => absurd (hquiet i) hi⟩
  obtain ⟨calls, hcalls, hkept, hdrains⟩ := hcurrent.invariant
    (I := Explained (new vendor p config) sid w history) (fun P a ha h => h.next wf a ha) hinit
  exact ⟨⟨calls, hcalls ▸ .refl _, hdrains.behind, hdrains.done⟩,
    hkept.orderly.of_prefix hdrains.behind⟩

end ProfileFsmEngine

/-! ## Two processes -/

namespace Sample

open ProfileFsmEngine

/-- A draft, then a checklist. -/
def drafted : ProfileFsmEngine := engine [draft, checklist]

/-- The session has been started. -/
def opening : List (Host × Call) := [(host, .start none)]

/-- Two processes that have not seen the session yet. -/
def processes : Processes Bool :=
  ⟨(runCalls drafted "s1" (world fun _ => .ok ()) opening).ledger.events, fun _ => ⟨none, []⟩, []⟩

def submitAt (i : Bool) (sub : String) (evidence : ChecklistEvidence) : Action Bool :=
  .submit i host ⟨"plan", sub⟩ evidence none

/-- One after the other, each process recovering first. -/
def turns : List (Action Bool) :=
  [.recover false, submitAt false "draft" .empty, .append false,
    .recover true, submitAt true "check" done, .append true, .append true]

/-- Both recover, and both are sent the draft. -/
def race : List (Action Bool) :=
  [.recover false, .recover true, submitAt false "draft" .empty, submitAt true "draft" .empty,
    .append false, .append true]

end Sample

namespace ProfileFsmEngine

/-- Two processes take turns and complete the session. -/
theorem sequential_of_current_turns :
    Sequential Sample.drafted "s1" (Sample.world fun _ => .ok ()) Sample.opening
        (Sample.turns.foldl (next Sample.drafted "s1") Sample.processes) ∧
      Orderly Sample.drafted "s1"
        (Sample.turns.foldl (next Sample.drafted "s1") Sample.processes).ledger := by
  have hopened : Sample.processes.Opened (runCalls Sample.drafted "s1"
      (Sample.world fun _ => .ok ()) Sample.opening).ledger.events := ⟨rfl, fun _ => rfl, rfl⟩
  have hcurrent : Runs.Along (next Sample.drafted "s1") (Current Sample.drafted "s1")
      Sample.processes Sample.turns := by
    refine ⟨trivial, ?_, trivial, trivial, ?_, trivial, trivial, trivial⟩
    · rintro - s hs
      cases hs
      exact ⟨fun i => by cases i <;> rfl, _, rfl, rfl⟩
    · rintro - s hs
      cases hs
      exact ⟨fun i => by cases i <;> rfl, _, rfl, rfl⟩
  exact sequential_of_current Sample.drafted_valid (Sample.world_fresh "s1" _) (fun _ => rfl)
    ⟨fun ctx hctx => by cases hctx; exact ⟨_, rfl⟩, trivial⟩ hopened hcurrent

/-- Submissions start nothing. -/
theorem startsOk_of_submits {engine : ProfileFsmEngine} {calls : List (Host × Call)}
    (h : ∀ x ∈ calls, ∀ ctx, x.2 ≠ .start ctx) (w : World SessionLedger) :
    Along engine sid (StartsOk engine sid) w calls := by
  induction calls generalizing w with
  | nil => trivial
  | cons x rest ih =>
    exact ⟨fun ctx hctx => absurd hctx (h x List.mem_cons_self ctx),
      ih (fun y hy => h y (List.mem_cons_of_mem _ hy)) _⟩

/-- Both processes advance from the one visit of the draft. No engine appends that: its
second event would have to leave the position the first has left. -/
theorem double_advance :
    Sample.processes.Opened (runCalls Sample.drafted "s1" (Sample.world fun _ => .ok ())
        Sample.opening).ledger.events ∧
      (Sample.race.foldl (next Sample.drafted "s1") Sample.processes).Quiet ∧
      ¬Sequential Sample.drafted "s1" (Sample.world fun _ => .ok ()) Sample.opening
        (Sample.race.foldl (next Sample.drafted "s1") Sample.processes) := by
  have hquiet : (Sample.race.foldl (next Sample.drafted "s1") Sample.processes).Quiet :=
    fun i => by cases i <;> rfl
  refine ⟨⟨rfl, fun _ => rfl, rfl⟩, hquiet, ?_⟩
  rintro ⟨calls, hperm, -, hdone⟩
  have hsubmits : ∀ x ∈ calls, ∀ ctx, x.2 ≠ .start ctx := by
    intro x hx ctx
    have hmem := hperm.subset (List.mem_map_of_mem hx)
    obtain ⟨y, hy, heq⟩ := List.mem_map.mp hmem
    have hcall : (unclocked y).2 = (unclocked x).2 := congrArg Prod.snd heq
    change y.2 = x.2 at hcall
    rw [← hcall]
    rcases List.mem_cons.mp hy with rfl | hy
    · nofun
    · rw [List.mem_singleton.mp hy]
      nofun
  have wf : Sample.drafted.profile.WellFormed Sample.vendor.ed :=
    validateProfile_wellFormed Sample.drafted_valid
  have hopening : WellKept Sample.drafted "s1" (runCalls Sample.drafted "s1"
      (Sample.world fun _ => .ok ()) Sample.opening) := wellKept_run wf
    (wellKept_of_fresh (Sample.world_fresh "s1" _) (fun _ => rfl))
    ⟨fun ctx hctx => by cases hctx; exact ⟨_, rfl⟩, trivial⟩
  have hkept := wellKept_run wf hopening (startsOk_of_submits hsubmits _)
  rw [← runCalls_append] at hkept
  have horderly := hkept.orderly
  rw [← hdone hquiet] at horderly
  obtain ⟨fold, ⟨s, hs, rfl⟩, hfits⟩ := horderly
    ((Sample.race.foldl (next Sample.drafted "s1") Sample.processes).ledger.take 2) _ ⟨[], rfl⟩
  obtain rfl : some _ = s := Except.ok.inj hs
  exact absurd hfits.2 (by decide)

end ProfileFsmEngine

end ProtocolEnforcer
