import ProtocolEnforcer.Gateway.InTurn

/-!
# Whose turn it is on a session

Calls on a session that is not in the registry, with their steps in any order. Only one
engine gets into the registry: it was rebuilt from the ledger as it was before any call,
since nothing is appended without an engine. Calls then take effect in the order in which
they get its lock, and what a call has rebuilt behind their backs is dropped. `Linear` says
so of a state; every step keeps it.
-/

namespace ProtocolEnforcer

open Effect

/-- The calls `ι`, and what they share. -/
abbrev SessionCalls (F ι : Type) := Callers ι (SessionTable F ι) CallStage

namespace SessionCalls

variable {F ι : Type} [DecidableEq F] [DecidableEq ι] {gw : Gateway F} {disk : Io} {sid : String}
  {calls : ι → SessionCall} {s₀ : ProtocolServer F}

/-- Before any call. -/
def begin (s₀ : ProtocolServer F) : SessionCalls F ι := ⟨⟨s₀.ledgers, none, []⟩, fun _ => .looks⟩

/-- A step of the call whose turn it is. -/
abbrev step (gw : Gateway F) (disk : Io) (sid : String) (calls : ι → SessionCall) :
    SessionCalls F ι → ι → SessionCalls F ι :=
  Callers.step fun i => (calls i).next gw disk sid i

/-! ## What is known of a call -/

/-- What a call answers, if in turn it answers the first: the same, but that the ledger tail of
a state may be that of any moment up to now. -/
inductive Agrees (before now : List FsmEvent) :
    Except ErrorData ToolReply → Except ErrorData ToolReply → Prop where
  | same {r} : Agrees before now r r
  | later {status position events} (behind : before <+: events) (reached : events <+: now) :
      Agrees before now (.ok (.state status position (ledgerTail before)))
        (.ok (.state status position (ledgerTail events)))

theorem Agrees.grow {before now now' : List FsmEvent} {r r' : Except ErrorData ToolReply}
    (h : Agrees before now r r') (hnow : now <+: now') : Agrees before now' r r' := by
  cases h with
  | same => exact .same
  | later behind reached => exact .later behind (reached.trans hnow)

/-- An answer of the engine is the one in turn. -/
theorem Agrees.engine {before now : List FsmEvent} {r : Except ErrorData ToolReply} {reply : Reply}
    (h : Agrees before now r (.ok (.engine reply))) : r = .ok (.engine reply) := by
  cases h with
  | same => rfl

section

variable (gw disk sid calls s₀)

/-- The server once the calls have come one after another. -/
abbrev turn (order : List ι) : ProtocolServer F := gw.inTurn sid disk calls s₀ order

/-- The ledger then. -/
abbrev ledgerAfter (order : List ι) : List FsmEvent :=
  (turn gw disk sid calls s₀ order).events (gw.ledgerFile sid)

/-- A call that is done, at its place in the order. -/
structure Done (order : List ι) (now : List FsmEvent) (i : ι) (r : Except ErrorData ToolReply) :
    Prop where
  placed : ∃ before after, order = before ++ i :: after ∧
    Agrees (ledgerAfter gw disk sid calls s₀ before) now
      (gw.answerAfter sid disk calls s₀ before i) r

/-- Where a call is that cannot find an engine in the registry. -/
inductive Missing (order : List ι) (i : ι) : CallStage → Prop where
  | looks (new : i ∉ order) : Missing order i .looks
  | recovers (new : i ∉ order) : Missing order i .recovers
  | inserts {served} (new : i ∉ order)
      (rebuilt : gw.rebuilt disk sid (s₀.events (gw.replayFile sid)) = .ok served) :
      Missing order i (.inserts served)
  | failed {e} (mem : i ∈ order)
      (rebuilt : gw.rebuilt disk sid (s₀.events (gw.replayFile sid)) = .error e) :
      Missing order i (.answered (.error e))

/-- Where a call is that does not have the lock of the engine in the registry. -/
inductive Fits (order : List ι) (now : List FsmEvent) (i : ι) : CallStage → Prop where
  | looks (new : i ∉ order) : Fits order now i .looks
  | recovers (new : i ∉ order) : Fits order now i .recovers
  | inserts {served} (new : i ∉ order) : Fits order now i (.inserts served)
  | locks (new : i ∉ order) : Fits order now i (.locks 0)
  | tails {status position before after} (horder : order = before ++ i :: after)
      (answer : gw.answerAfter sid disk calls s₀ before i = .ok (.state status position
        (ledgerTail (ledgerAfter gw disk sid calls s₀ before))))
      (reached : ledgerAfter gw disk sid calls s₀ before <+: now) :
      Fits order now i (.tails status position)
  | answered {r} (done : Done gw disk sid calls s₀ order now i r) : Fits order now i (.answered r)

/-- A rebuild would give the engine in the registry again. -/
def Live (served : Served) (events : List FsmEvent) : Prop :=
  ∃ fresh, gw.rebuilt disk sid events = .ok fresh ∧ fresh.engine = served.engine

/-- How the calls stand to those that have had their turn: nobody has an engine, the engine in
the registry is free, or the last of them has its lock. -/
inductive Linear (c : SessionCalls F ι) : Prop where
  | missing (order : List ι) (nodup : order.Nodup) (entry : c.shared.entry = none)
      (engines : c.shared.engines = []) (ledgers : ∀ file, c.shared.events file = s₀.events file)
      (places : ∀ i, Missing gw disk sid s₀ order i (c.place i)) : Linear c
  | free (order : List ι) (nodup : order.Nodup) (served : Served) (entry : c.shared.entry = some 0)
      (engines : c.shared.engines = [⟨served, none⟩])
      (resolves : gw.Resolves disk sid (turn gw disk sid calls s₀ order) served)
      (live : Live gw disk sid served (c.shared.events (gw.replayFile sid)))
      (ledgers : ∀ file, c.shared.events file = (turn gw disk sid calls s₀ order).events file)
      (places : ∀ i, Fits gw disk sid calls s₀ order (c.shared.events (gw.ledgerFile sid)) i
        (c.place i)) : Linear c
  | held (order : List ι) (k : ι) (nodup : (order ++ [k]).Nodup) (served served' : Served)
      (todo : List FsmEvent) (reply : Except ErrorData ToolReply)
      (entry : c.shared.entry = some 0) (engines : c.shared.engines = [⟨served, some k⟩])
      (here : c.place k = .appends 0 todo served' reply)
      (resolves : gw.Resolves disk sid (turn gw disk sid calls s₀ (order ++ [k])) served')
      (live : Live gw disk sid served' (c.shared.events (gw.replayFile sid)))
      (replays : ∀ e ∈ todo, served'.engine.profile.Replays e)
      (answer : gw.answerAfter sid disk calls s₀ order k = reply)
      (ledger : ledgerAfter gw disk sid calls s₀ (order ++ [k]) =
        c.shared.events (gw.ledgerFile sid) ++ todo)
      (others : ∀ file, file ≠ gw.ledgerFile sid →
        (turn gw disk sid calls s₀ (order ++ [k])).events file = c.shared.events file)
      (places : ∀ i, i ≠ k → Fits gw disk sid calls s₀ (order ++ [k])
        (c.shared.events (gw.ledgerFile sid)) i (c.place i)) : Linear c

end

variable {order : List ι} {now now' : List FsmEvent} {i k : ι} {stage : CallStage}
  {served : Served} {events : List FsmEvent}

omit [DecidableEq ι] in
theorem turn_snoc : turn gw disk sid calls s₀ (order ++ [i]) =
    (exec (gw.answer ((calls i).io disk) sid (calls i).tool) (turn gw disk sid calls s₀ order)).2 :=
  List.foldl_concat ..

omit [DecidableEq ι] in
theorem Done.extend {r : Except ErrorData ToolReply} (h : Done gw disk sid calls s₀ order now i r)
    (k : ι) : Done gw disk sid calls s₀ (order ++ [k]) now i r := by
  obtain ⟨before, after, rfl, agrees⟩ := h.placed
  exact ⟨before, after ++ [k], by rw [List.append_assoc, List.cons_append], agrees⟩

omit [DecidableEq ι] in
/-- One more call that is not among those that have had their turn. -/
theorem nodup_snoc (h : order.Nodup) (new : k ∉ order) : (order ++ [k]).Nodup := by
  rw [← List.concat_eq_append]
  exact h.concat new

omit [DecidableEq ι] in
theorem notMem_snoc (new : i ∉ order) (hik : i ≠ k) : i ∉ order ++ [k] := by
  intro hmem
  rcases List.mem_append.mp hmem with hmem | hmem
  · exact new hmem
  · exact hik (List.mem_singleton.mp hmem)

omit [DecidableEq ι] in
/-- The others have their turn. -/
theorem Fits.extend (h : Fits gw disk sid calls s₀ order now i stage) (hik : i ≠ k) :
    Fits gw disk sid calls s₀ (order ++ [k]) now i stage := by
  have hnew : i ∉ order → i ∉ order ++ [k] := fun new => notMem_snoc new hik
  cases h with
  | looks new => exact .looks (hnew new)
  | recovers new => exact .recovers (hnew new)
  | inserts new => exact .inserts (hnew new)
  | locks new => exact .locks (hnew new)
  | @tails status position before after horder answer reached =>
    exact .tails (by rw [horder, List.append_assoc, List.cons_append]) answer reached
  | answered done => exact .answered (done.extend k)

omit [DecidableEq ι] in
/-- A call that waits for the lock has not had its turn. -/
theorem Fits.new (h : Fits gw disk sid calls s₀ order now i (.locks 0)) : i ∉ order := by
  cases h with
  | locks new => exact new

omit [DecidableEq ι] in
/-- The ledger grows. -/
theorem Fits.grow (h : Fits gw disk sid calls s₀ order now i stage) (hnow : now <+: now') :
    Fits gw disk sid calls s₀ order now' i stage := by
  cases h with
  | looks new => exact .looks new
  | recovers new => exact .recovers new
  | inserts new => exact .inserts new
  | locks new => exact .locks new
  | tails horder answer reached => exact .tails horder answer (reached.trans hnow)
  | answered done =>
    obtain ⟨before, after, horder, agrees⟩ := done.placed
    exact .answered ⟨before, after, horder, agrees.grow hnow⟩

omit [DecidableEq F] in
theorem Live.wellFormed (h : Live gw disk sid served events) :
    served.engine.profile.WellFormed gw.vendor.ed ∧ disk.replay = .ok () := by
  obtain ⟨fresh, hfresh, hengine⟩ := h
  have hrebuilt := Gateway.rebuilt_ok hfresh
  rw [← hengine]
  exact ⟨hrebuilt.wellFormed, hrebuilt.replays⟩

omit [DecidableEq F] in
/-- What an engine appends leaves it live. -/
theorem Live.append (h : Live gw disk sid served events) {e : FsmEvent}
    (he : served.engine.profile.Replays e) : Live gw disk sid served (events ++ [e]) := by
  obtain ⟨fresh, hfresh, hengine⟩ := h
  have hrebuilt := Gateway.rebuilt_ok hfresh
  obtain ⟨state, hstate⟩ := hrebuilt.resumes
  rw [← hengine] at he
  have hmore : ∀ e' ∈ [e], fresh.engine.profile.Replays e' := by
    intro e' he'
    rwa [List.mem_singleton.mp he']
  obtain ⟨state', hstate'⟩ := replayEvents_replays hstate hmore
  obtain ⟨fresh', hfresh', hengine'⟩ := hrebuilt.again hstate'
  exact ⟨fresh', hfresh', hengine'.trans hengine⟩

omit [DecidableEq ι] in
/-- A rebuild adds no event, and depends on nothing but those it replays. -/
theorem next_recovers (c : SessionCall) (i : ι) (t : SessionTable F ι) :
    ∃ ledgers, (∀ file, (ledgers file).getD [] = t.events file) ∧
      c.next gw disk sid i t .recovers =
        (match gw.rebuilt disk sid (t.events (gw.replayFile sid)) with
          | .ok recovered => .inserts recovered
          | .error e => .answered (.error e), { t with ledgers }) := by
  have hanswer : (exec (gw.recoverIntoCache (c.io disk) sid) t.server).1 =
      gw.rebuilt disk sid (t.events (gw.replayFile sid)) := Gateway.exec_recoverIntoCache
  have hattaches : gw.Attaches t.server sid (exec (gw.recoverIntoCache (c.io disk) sid) t.server).2 :=
    Gateway.recoverIntoCache_attaches
  rcases hx : exec (gw.recoverIntoCache (c.io disk) sid) t.server with ⟨r, s⟩
  rw [hx] at hanswer hattaches
  refine ⟨s.ledgers, hattaches.getD, ?_⟩
  unfold SessionCall.next
  dsimp only at hanswer ⊢
  rw [hx, ← hanswer]
  cases r with
  | ok recovered => rfl
  | error e => rfl

omit [DecidableEq ι] in
/-- An engine call gets the lock, and what it is to append. -/
theorem next_takes {c : SessionCall} {t : SessionTable F ι} {h : Nat} {call : Call}
    (hengine : t.engines[h]? = some ⟨served, none⟩) (hcall : c.tool.call = some call) (i : ι) :
    c.next gw disk sid i t (.locks h) =
      (.appends h (c.work disk sid served call).2.ledger.events
        { served with sessions := (c.work disk sid served call).2.sessions }
        (Gateway.engineAnswer (c.work disk sid served call).1),
        t.setEngine h ⟨served, some i⟩) := by
  unfold SessionCall.next
  dsimp only
  rw [hengine]
  dsimp only
  rw [hcall]
  rfl

omit [DecidableEq ι] in
/-- The state is cloned while nobody has the lock, which is free again at once. -/
theorem next_clones {c : SessionCall} {t : SessionTable F ι} {h : Nat}
    (hengine : t.engines[h]? = some ⟨served, none⟩) (hcall : c.tool.call = none) (i : ι) :
    c.next gw disk sid i t (.locks h) =
      match served.sessions sid with
      | some state => (.tails state.status state.position, t)
      | none => (.answered (.error (.fsm (.sessionNotFound sid))), t) := by
  unfold SessionCall.next
  cases hstate : served.sessions sid <;> simp only [hengine, hcall, hstate]

omit [DecidableEq ι] in
/-- A step of a call that does not have the lock, and does not get it: no event is added, and
nothing of the engine changes. -/
theorem Fits.next {t : SessionTable F ι} (entry : t.entry = some 0)
    (live : Live gw disk sid served (t.events (gw.replayFile sid)))
    (hbusy : stage = .locks 0 → ∃ served' k, t.engines = [⟨served', some k⟩])
    (h : Fits gw disk sid calls s₀ order (t.events (gw.ledgerFile sid)) i stage) :
    ∃ ledgers stage', (∀ file, (ledgers file).getD [] = t.events file) ∧
      (calls i).next gw disk sid i t stage = (stage', { t with ledgers }) ∧
      Fits gw disk sid calls s₀ order (t.events (gw.ledgerFile sid)) i stage' := by
  obtain ⟨ledgers, _, engines⟩ := t
  cases entry
  cases h with
  | looks new => exact ⟨ledgers, _, fun _ => rfl, rfl, .locks new⟩
  | recovers new =>
    obtain ⟨ledgers', hledgers, hnext⟩ :=
      @next_recovers F ι _ gw disk sid (calls i) i ⟨ledgers, some 0, engines⟩
    obtain ⟨fresh, hfresh, -⟩ := live
    rw [hfresh] at hnext
    exact ⟨ledgers', _, hledgers, hnext, .inserts new⟩
  | inserts new =>
    -- an engine is there: the one that was rebuilt is dropped
    exact ⟨ledgers, _, fun _ => rfl, rfl, .locks new⟩
  | locks new =>
    obtain ⟨served', k, hengines⟩ := hbusy rfl
    cases hengines
    exact ⟨ledgers, _, fun _ => rfl, rfl, .locks new⟩
  | @tails status position before after horder answer reached =>
    have hnext : (calls i).next gw disk sid i ⟨ledgers, some 0, engines⟩ (.tails status position) =
        (.answered (.ok (.state status position (ledgerTail ((⟨ledgers, some 0, engines⟩ :
          SessionTable F ι).events (gw.ledgerFile sid))))), ⟨ledgers, some 0, engines⟩) := by
      unfold SessionCall.next
      dsimp only
      rw [live.wellFormed.2]
      rfl
    refine ⟨ledgers, _, fun _ => rfl, hnext, .answered ⟨before, after, horder, ?_⟩⟩
    rw [answer]
    exact .later reached List.prefix_rfl
  | answered done => exact ⟨ledgers, _, fun _ => rfl, rfl, .answered done⟩

/-! ## One step -/

omit [DecidableEq F] [DecidableEq ι] in
/-- Where an engine can be rebuilt, no call has failed. -/
theorem Missing.nil (hrebuilt : gw.rebuilt disk sid (s₀.events (gw.replayFile sid)) = .ok served)
    {place : ι → CallStage} (places : ∀ i, Missing gw disk sid s₀ order i (place i)) : order = [] := by
  refine List.eq_nil_iff_forall_not_mem.mpr fun j hj => ?_
  have hplace := places j
  generalize place j = stage at hplace
  cases hplace with
  | looks new | recovers new | inserts new => exact new hj
  | failed _ hfailed =>
    rw [hrebuilt] at hfailed
    cases hfailed

omit [DecidableEq F] [DecidableEq ι] in
theorem Missing.extend (h : Missing gw disk sid s₀ order i stage) (hik : i ≠ k) :
    Missing gw disk sid s₀ (order ++ [k]) i stage := by
  cases h with
  | looks new => exact .looks (notMem_snoc new hik)
  | recovers new => exact .recovers (notMem_snoc new hik)
  | inserts new hrebuilt => exact .inserts (notMem_snoc new hik) hrebuilt
  | failed mem hrebuilt => exact .failed (List.mem_append_left _ mem) hrebuilt

omit [DecidableEq ι] in
/-- An engine comes into the registry. -/
theorem Missing.fits (h : Missing gw disk sid s₀ order i stage)
    (hrebuilt : gw.rebuilt disk sid (s₀.events (gw.replayFile sid)) = .ok served) :
    Fits gw disk sid calls s₀ order now i stage := by
  cases h with
  | looks new => exact .looks new
  | recovers new => exact .recovers new
  | inserts new => exact .inserts new
  | failed _ hfailed =>
    rw [hrebuilt] at hfailed
    cases hfailed

variable {c : SessionCalls F ι}

theorem Linear.step_missing (hentry : s₀.registry sid = none) (nodup : order.Nodup)
    (entry : c.shared.entry = none) (engines : c.shared.engines = [])
    (ledgers : ∀ file, c.shared.events file = s₀.events file)
    (places : ∀ i, Missing gw disk sid s₀ order i (c.place i)) (i : ι) :
    Linear gw disk sid calls s₀ (step gw disk sid calls c i) := by
  obtain ⟨⟨files, _, _⟩, place⟩ := c
  cases entry
  cases engines
  have hplace := places i
  dsimp only at hplace places ledgers
  generalize hstage : place i = stage at hplace
  cases hplace with
  | looks new =>
    have hnext : (calls i).next gw disk sid i ⟨files, none, []⟩ (place i) =
        (.recovers, ⟨files, none, []⟩) := by rw [hstage]; rfl
    rw [step, Callers.step_eq hnext]
    exact .missing order nodup rfl rfl ledgers
      ((Function.forall_update_iff _ _).mpr ⟨.recovers new, fun j _ => places j⟩)
  | recovers new =>
    obtain ⟨files', hfiles, hnext⟩ :=
      @next_recovers F ι _ gw disk sid (calls i) i ⟨files, none, []⟩
    rw [ledgers, ← hstage] at hnext
    cases hrebuilt : gw.rebuilt disk sid (s₀.events (gw.replayFile sid)) with
    | ok recovered =>
      rw [hrebuilt] at hnext
      rw [step, Callers.step_eq hnext]
      exact .missing order nodup rfl rfl (fun file => (hfiles file).trans (ledgers file))
        ((Function.forall_update_iff _ _).mpr ⟨.inserts new hrebuilt, fun j _ => places j⟩)
    | error e =>
      rw [hrebuilt] at hnext
      rw [step, Callers.step_eq hnext]
      refine .missing (order ++ [i]) ?_ rfl rfl (fun file => (hfiles file).trans (ledgers file))
        ((Function.forall_update_iff _ _).mpr ⟨.failed ?_ hrebuilt, fun j hj => ?_⟩)
      · exact nodup_snoc nodup new
      · exact List.mem_append_right _ (List.mem_singleton_self i)
      · exact (places j).extend hj
  | @inserts recovered new hrebuilt =>
    have hnext : (calls i).next gw disk sid i ⟨files, none, []⟩ (place i) =
        (.locks 0, ⟨files, some 0, [⟨recovered, none⟩]⟩) := by rw [hstage]; rfl
    rw [step, Callers.step_eq hnext]
    obtain rfl := Missing.nil hrebuilt places
    refine .free [] nodup recovered rfl rfl ⟨(Gateway.rebuilt_ok hrebuilt).path, .inr ⟨hentry, hrebuilt⟩⟩
      ⟨recovered, ?_, rfl⟩ ledgers ((Function.forall_update_iff _ _).mpr
        ⟨.locks new, fun j _ => (places j).fits hrebuilt⟩)
    rw [← hrebuilt, ← ledgers]
    rfl
  | failed mem hrebuilt =>
    have hnext : (calls i).next gw disk sid i ⟨files, none, []⟩ (place i) =
        (place i, ⟨files, none, []⟩) := by rw [hstage]; rfl
    rw [step, Callers.step_eq hnext, Function.update_eq_self]
    exact .missing order nodup rfl rfl ledgers places

omit [DecidableEq F] in
/-- What an engine call appends, recovery gets past. -/
theorem work_replays {c : SessionCall} {call : Call} (hcall : c.tool.call = some call)
    (wf : served.engine.profile.WellFormed gw.vendor.ed) :
    ∀ e ∈ (c.work disk sid served call).2.ledger.events, served.engine.profile.Replays e := by
  have hnot : ∀ ctx, call ≠ .start ctx := by
    rcases SessionTool.call_eq_some hcall with ⟨_, _, _, -, rfl⟩ | ⟨_, _, _, -, rfl⟩
    · exact fun _ => nofun
    · exact fun _ => nofun
  obtain ⟨es, hes, hreplays⟩ := @ProfileFsmEngine.perform_replays served.engine (c.io disk).host sid
    gw.vendor.ed call ⟨⟨[], c.appends, 0⟩, served.sessions, 0⟩ wf hnot
  unfold SessionCall.work
  rw [hes]
  exact hreplays

section

variable (nodup : order.Nodup) (entry : c.shared.entry = some 0)
  (engines : c.shared.engines = [⟨served, none⟩])
  (resolves : gw.Resolves disk sid (turn gw disk sid calls s₀ order) served)
  (live : Live gw disk sid served (c.shared.events (gw.replayFile sid)))
  (ledgers : ∀ file, c.shared.events file = (turn gw disk sid calls s₀ order).events file)
  (places : ∀ i, Fits gw disk sid calls s₀ order (c.shared.events (gw.ledgerFile sid)) i
    (c.place i))
include nodup entry engines resolves live ledgers places

/-- An engine call gets the lock: it comes next in the order. -/
theorem Linear.step_takes {call : Call} (hlocks : c.place i = .locks 0)
    (hcall : (calls i).tool.call = some call) :
    Linear gw disk sid calls s₀ (step gw disk sid calls c i) := by
  obtain ⟨⟨files, _, _⟩, place⟩ := c
  cases entry
  cases engines
  dsimp only at places ledgers live hlocks
  have hnew : i ∉ order := (hlocks ▸ places i).new
  obtain ⟨s', hanswer, hdid⟩ := resolves.answer_call hcall
  have hturn : turn gw disk sid calls s₀ (order ++ [i]) = s' := by rw [turn_snoc, hanswer]
  have hengine : (⟨files, some 0, [⟨served, none⟩]⟩ : SessionTable F ι).engines[0]? =
      some ⟨served, none⟩ := rfl
  rw [step, Callers.step_eq ((congrArg _ hlocks).trans (next_takes hengine hcall i))]
  refine .held order i (nodup_snoc nodup hnew) served _ _ _ rfl rfl (Function.update_self ..) ?_
    live (work_replays hcall live.wellFormed.1) ?_ ?_ ?_ fun j hj => ?_
  · rw [hturn]
    exact hdid.resolves resolves.path
  · rw [Gateway.answerAfter, hanswer]
  · rw [ledgerAfter, hturn, hdid.ledger, ← ledgers]
    rfl
  · intro file hfile
    rw [hturn, hdid.others file hfile, ← ledgers]
    rfl
  · have hother := (places j).extend hj
    dsimp only
    rw [Function.update_of_ne hj]
    exact hother

/-- The state is cloned: the call comes next in the order, and leaves the engine as it was. -/
theorem Linear.step_clones (hlocks : c.place i = .locks 0) (hcall : (calls i).tool.call = none) :
    Linear gw disk sid calls s₀ (step gw disk sid calls c i) := by
  obtain ⟨⟨files, _, _⟩, place⟩ := c
  cases entry
  cases engines
  dsimp only at places ledgers live hlocks
  have hnew : i ∉ order := (hlocks ▸ places i).new
  obtain ⟨s', hanswer, hdid⟩ := resolves.answer_state (SessionTool.eq_getState hcall)
    live.wellFormed.2
  have hturn : turn gw disk sid calls s₀ (order ++ [i]) = s' := by rw [turn_snoc, hanswer]
  have hanswered : gw.answerAfter sid disk calls s₀ order i =
      Gateway.stateAnswer sid served (ledgerAfter gw disk sid calls s₀ order) := by
    rw [Gateway.answerAfter, hanswer]
  have hengine : (⟨files, some 0, [⟨served, none⟩]⟩ : SessionTable F ι).engines[0]? =
      some ⟨served, none⟩ := rfl
  have hnext : (calls i).next gw disk sid i ⟨files, some 0, [⟨served, none⟩]⟩ (place i) = _ :=
    (congrArg _ hlocks).trans (next_clones hengine hcall i)
  have hstay : ∀ {stage}, Fits gw disk sid calls s₀ (order ++ [i])
      ((⟨files, some 0, [⟨served, none⟩]⟩ : SessionTable F ι).events (gw.ledgerFile sid)) i stage →
      Linear gw disk sid calls s₀ ⟨⟨files, some 0, [⟨served, none⟩]⟩,
        Function.update place i stage⟩ := by
    intro stage hstage
    refine .free (order ++ [i]) (nodup_snoc nodup hnew) served rfl rfl ?_ live (fun file => ?_)
      ((Function.forall_update_iff _ _).mpr ⟨hstage, fun j hj => (places j).extend hj⟩)
    · rw [hturn]
      exact hdid.resolves resolves.path
    · rw [hturn]
      by_cases hfile : file = gw.ledgerFile sid
      · rw [hfile, hdid.ledger, List.append_nil]
        exact ledgers _
      · rw [hdid.others file hfile]
        exact ledgers file
  unfold Gateway.stateAnswer at hanswered
  cases hsession : served.sessions sid with
  | none =>
    rw [hsession] at hanswered hnext
    rw [step, Callers.step_eq hnext]
    refine hstay (.answered ⟨order, [], rfl, ?_⟩)
    rw [hanswered]
    exact .same
  | some state =>
    rw [hsession] at hanswered hnext
    rw [step, Callers.step_eq hnext]
    have hlast : order ++ [i] = order ++ i :: [] := rfl
    refine hstay (.tails hlast hanswered ?_)
    rw [ledgerAfter, ← ledgers]

theorem Linear.step_free (i : ι) : Linear gw disk sid calls s₀ (step gw disk sid calls c i) := by
  by_cases hlocks : c.place i = .locks 0
  · cases hcall : (calls i).tool.call with
    | some call => exact .step_takes nodup entry engines resolves live ledgers places hlocks hcall
    | none => exact .step_clones nodup entry engines resolves live ledgers places hlocks hcall
  · obtain ⟨files', stage', hfiles, hnext, hfits⟩ :=
      (places i).next entry live fun h => absurd h hlocks
    have hstep : step gw disk sid calls c i =
        ⟨{ c.shared with ledgers := files' }, Function.update c.place i stage'⟩ :=
      Callers.step_eq hnext
    rw [hstep]
    have hevents : ∀ file, ({ c.shared with ledgers := files' } : SessionTable F ι).events file =
        c.shared.events file := hfiles
    refine .free order nodup served entry engines resolves ?_
      (fun file => (hevents file).trans (ledgers file)) ?_
    · rw [hevents]
      exact live
    · rw [hevents]
      exact (Function.forall_update_iff _ _).mpr ⟨hfits, fun j _ => places j⟩

end

section

variable {served' : Served} {todo : List FsmEvent} {reply : Except ErrorData ToolReply}
  (nodup : (order ++ [k]).Nodup)
  (entry : c.shared.entry = some 0) (engines : c.shared.engines = [⟨served, some k⟩])
  (resolves : gw.Resolves disk sid (turn gw disk sid calls s₀ (order ++ [k])) served')
  (live : Live gw disk sid served' (c.shared.events (gw.replayFile sid)))
  (answer : gw.answerAfter sid disk calls s₀ order k = reply)
  (ledger : ledgerAfter gw disk sid calls s₀ (order ++ [k]) =
    c.shared.events (gw.ledgerFile sid) ++ todo)
  (others : ∀ file, file ≠ gw.ledgerFile sid →
    (turn gw disk sid calls s₀ (order ++ [k])).events file = c.shared.events file)
  (places : ∀ i, i ≠ k → Fits gw disk sid calls s₀ (order ++ [k])
    (c.shared.events (gw.ledgerFile sid)) i (c.place i))
include nodup entry engines resolves live answer ledger others places

/-- The engine appends one more event. -/
theorem Linear.step_appends {e : FsmEvent} {rest : List FsmEvent} (htodo : todo = e :: rest)
    (here : c.place k = .appends 0 todo served' reply)
    (replays : ∀ e ∈ todo, served'.engine.profile.Replays e) :
    Linear gw disk sid calls s₀ (step gw disk sid calls c k) := by
  obtain ⟨⟨files, _, _⟩, place⟩ := c
  cases entry
  cases engines
  subst htodo
  dsimp only at places ledger others live here
  have hnext : (calls k).next gw disk sid k ⟨files, some 0, [⟨served, some k⟩]⟩ (place k) =
      (.appends 0 rest served' reply, (⟨files, some 0, [⟨served, some k⟩]⟩ :
        SessionTable F ι).append (gw.ledgerFile sid) e) := by
    rw [here, Gateway.ledgerFile, ← resolves.path]
    rfl
  rw [step, Callers.step_eq hnext]
  refine .held order k nodup served served' rest reply rfl rfl (Function.update_self ..) resolves ?_
    (fun e' he' => replays e' (List.mem_cons_of_mem e he')) answer ?_ (fun file hfile => ?_)
    fun j hj => ?_
  · by_cases hfile : gw.replayFile sid = gw.ledgerFile sid
    · rw [hfile, SessionTable.append_events]
      rw [hfile] at live
      exact live.append (replays e List.mem_cons_self)
    · rw [SessionTable.append_events_other hfile]
      exact live
  · rw [ledger, SessionTable.append_events, List.append_assoc]
    rfl
  · rw [SessionTable.append_events_other hfile]
    exact others file hfile
  · dsimp only
    rw [SessionTable.append_events, Function.update_of_ne hj]
    exact (places j hj).grow (List.prefix_append _ _)

/-- The engine has appended all, and the lock is released. -/
theorem Linear.step_releases (htodo : todo = []) (here : c.place k = .appends 0 todo served' reply) :
    Linear gw disk sid calls s₀ (step gw disk sid calls c k) := by
  obtain ⟨⟨files, _, _⟩, place⟩ := c
  cases entry
  cases engines
  subst htodo
  dsimp only at places ledger others live here
  have hnext : (calls k).next gw disk sid k ⟨files, some 0, [⟨served, some k⟩]⟩ (place k) =
      (.answered reply, ⟨files, some 0, [⟨served', none⟩]⟩) := by
    rw [here]
    rfl
  rw [step, Callers.step_eq hnext]
  rw [List.append_nil] at ledger
  refine .free (order ++ [k]) nodup served' rfl rfl resolves live (fun file => ?_)
    ((Function.forall_update_iff _ _).mpr ⟨.answered ⟨order, [], rfl, ?_⟩, places⟩)
  · by_cases hfile : file = gw.ledgerFile sid
    · rw [hfile]
      exact ledger.symm
    · exact (others file hfile).symm
  · rw [answer]
    exact .same

theorem Linear.step_held (here : c.place k = .appends 0 todo served' reply)
    (replays : ∀ e ∈ todo, served'.engine.profile.Replays e) (i : ι) :
    Linear gw disk sid calls s₀ (step gw disk sid calls c i) := by
  by_cases hik : i = k
  · subst hik
    cases htodo : todo with
    | cons e rest =>
      exact .step_appends nodup entry engines resolves live answer ledger others places htodo here
        replays
    | nil =>
      exact .step_releases nodup entry engines resolves live answer ledger others places htodo here
  · obtain ⟨files', stage', hfiles, hnext, hfits⟩ :=
      (places i hik).next entry live fun _ => ⟨served, k, engines⟩
    have hstep : step gw disk sid calls c i =
        ⟨{ c.shared with ledgers := files' }, Function.update c.place i stage'⟩ :=
      Callers.step_eq hnext
    rw [hstep]
    have hevents : ∀ file, ({ c.shared with ledgers := files' } : SessionTable F ι).events file =
        c.shared.events file := hfiles
    refine .held order k nodup served served' todo reply entry engines ?_ resolves ?_ replays answer
      ?_ (fun file hfile => ?_) fun j hj => ?_
    · dsimp only
      rw [Function.update_of_ne (Ne.symm hik)]
      exact here
    · rw [hevents]
      exact live
    · rw [hevents]
      exact ledger
    · rw [hevents]
      exact others file hfile
    · rw [hevents]
      exact (Function.forall_update_iff c.place fun j stage => j ≠ k → Fits gw disk sid calls s₀
        (order ++ [k]) _ j stage).mpr ⟨fun _ => hfits, fun j _ => places j⟩ j hj

end

/-- **One step of any call.** -/
theorem Linear.step (hentry : s₀.registry sid = none) (h : Linear gw disk sid calls s₀ c) (i : ι) :
    Linear gw disk sid calls s₀ (SessionCalls.step gw disk sid calls c i) := by
  cases h with
  | missing order nodup entry engines ledgers places =>
    exact .step_missing hentry nodup entry engines ledgers places i
  | free order nodup served entry engines resolves live ledgers places =>
    exact .step_free nodup entry engines resolves live ledgers places i
  | held order k nodup served served' todo reply entry engines here resolves live replays answer
      ledger others places =>
    exact .step_held nodup entry engines resolves live answer ledger others places here replays i

theorem linear_run (hentry : s₀.registry sid = none) (turns : List ι) :
    Linear gw disk sid calls s₀ (turns.foldl (SessionCalls.step gw disk sid calls) (begin s₀)) := by
  refine Callers.run (fun _ i h => h.step hentry i) ?_ turns
  exact .missing [] List.nodup_nil rfl rfl (fun _ => rfl) fun i => .looks List.not_mem_nil

end SessionCalls

end ProtocolEnforcer
