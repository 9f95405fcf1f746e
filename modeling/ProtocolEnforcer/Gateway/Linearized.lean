import ProtocolEnforcer.Fsm.Departures
import ProtocolEnforcer.Gateway.LockTurns

/-!
# Calls on one session linearize

What the order of the calls that have had the lock is good for. Each call in it answers what it
answers in turn. An engine once in the registry stays, so an accepted submission ends a visit
for all calls behind it, and no other ends that visit again.
-/

namespace ProtocolEnforcer

open Effect

/-- A submission was answered that it has moved the session on. -/
def CallStage.Accepted : CallStage → Prop
  | answered (.ok (.engine (.stepped outcome))) => outcome.Accepted
  | _ => False

theorem CallStage.Accepted.answered {stage : CallStage} (h : stage.Accepted) :
    ∃ o, stage = .answered (.ok (.engine (.stepped o))) ∧ o.Accepted := by
  unfold CallStage.Accepted at h
  split at h
  · exact ⟨_, rfl, h⟩
  · exact h.elim

namespace SessionCalls

variable {F ι : Type} [DecidableEq F] [DecidableEq ι] {gw : Gateway F} {disk : Io} {sid : String}
  {calls : ι → SessionCall} {s₀ : ProtocolServer F} {c : SessionCalls F ι} {order : List ι} {i : ι}
  {served : Served}

/-! ## The order -/

omit [DecidableEq ι] in
/-- Where no engine can be rebuilt, calls in turn leave it so. -/
theorem turn_failed {e : ErrorData} (hentry : s₀.registry sid = none)
    (hrebuilt : gw.rebuilt disk sid (s₀.events (gw.replayFile sid)) = .error e) (order : List ι) :
    (turn gw disk sid calls s₀ order).registry sid = none ∧
      ∀ file, (turn gw disk sid calls s₀ order).events file = s₀.events file := by
  induction order using List.reverseRecOn with
  | nil => exact ⟨hentry, fun _ => rfl⟩
  | append_singleton order i ih =>
    obtain ⟨hnone, hevents⟩ := ih
    obtain ⟨s', hanswer, hnone', hevents'⟩ := Gateway.answer_failed (c := calls i) hnone
      ((congrArg _ (hevents _)).trans hrebuilt)
    rw [turn_snoc, hanswer]
    exact ⟨hnone', fun file => (hevents' file).trans (hevents file)⟩

omit [DecidableEq F] in
/-- An engine call whose submission is accepted appends the event that ends a visit. -/
theorem work_departs {c : SessionCall} {call : Call} (hcall : c.tool.call = some call)
    {o : StepOutcome} (ho : (c.work disk sid served call).1 = .ok (.stepped o))
    (haccepted : o.Accepted) : 0 < departures (c.work disk sid served call).2.ledger.events := by
  rcases SessionTool.call_eq_some hcall with
    ⟨pos, evidence, output, -, rfl⟩ | ⟨stepId, content, mimeType, -, rfl⟩
  · have hdeparts := @ProfileFsmEngine.submitMilestone_departs served.engine (c.io disk).host sid pos
      ⟨⟨[], c.appends, 0⟩, served.sessions, 0⟩ evidence output
    rcases hx : exec (served.engine.submitMilestone (c.io disk).host sid pos evidence output)
      (⟨⟨[], c.appends, 0⟩, served.sessions, 0⟩ : World SessionLedger) with ⟨r, w⟩
    unfold SessionCall.work at ho ⊢
    rw [ProfileFsmEngine.perform_submit hx] at ho ⊢
    rw [hx] at hdeparts
    cases r with
    | error e => cases ho
    | ok o' =>
      cases ho
      obtain ⟨es, hes, hpos⟩ := hdeparts o rfl haccepted
      dsimp only at hes ⊢
      rw [hes]
      exact hpos
  · rcases hx : exec (served.engine.storeArtifact (c.io disk).host sid stepId (bytesOf content)
      (mimeType.getD "text/plain")) (⟨⟨[], c.appends, 0⟩, served.sessions, 0⟩ :
        World SessionLedger) with ⟨r, w⟩
    unfold SessionCall.work at ho
    rw [ProfileFsmEngine.perform_store hx] at ho
    cases r with
    | error e => cases ho
    | ok artifactRef => cases ho

/-- Where there is an engine, a call leaves one, and events behind those that were there: an
accepted submission ends a visit with them. -/
theorem answer_departs {s : ProtocolServer F} (h : gw.Resolves disk sid s served)
    (hreplay : disk.replay = .ok ()) (c : SessionCall) :
    ∃ served' es, gw.Resolves disk sid (exec (gw.answer (c.io disk) sid c.tool) s).2 served' ∧
      (exec (gw.answer (c.io disk) sid c.tool) s).2.events (gw.ledgerFile sid) =
        s.events (gw.ledgerFile sid) ++ es ∧
      ∀ o, (exec (gw.answer (c.io disk) sid c.tool) s).1 = .ok (.engine (.stepped o)) →
        o.Accepted → 0 < departures es := by
  cases hcall : c.tool.call with
  | none =>
    obtain ⟨s', hanswer, hdid⟩ := h.answer_state (SessionTool.eq_getState hcall) hreplay
    rw [hanswer]
    refine ⟨served, [], hdid.resolves h.path, hdid.ledger, fun o ho => ?_⟩
    unfold Gateway.stateAnswer at ho
    split at ho
    · cases ho
    · cases ho
  | some call =>
    obtain ⟨s', hanswer, hdid⟩ := h.answer_call hcall
    rw [hanswer]
    refine ⟨_, _, hdid.resolves h.path, hdid.ledger, fun o ho haccepted => work_departs hcall ?_ haccepted⟩
    dsimp only at ho
    generalize (c.work disk sid served call).1 = r at ho ⊢
    cases r with
    | error e => cases ho
    | ok reply =>
      cases ho
      rfl

omit [DecidableEq ι] in
/-- Otherwise there is an engine for each of them. -/
theorem turn_resolves (hentry : s₀.registry sid = none)
    (hrebuilt : gw.rebuilt disk sid (s₀.events (gw.replayFile sid)) = .ok served) (order : List ι) :
    ∃ served', gw.Resolves disk sid (turn gw disk sid calls s₀ order) served' := by
  have built := Gateway.rebuilt_ok hrebuilt
  induction order using List.reverseRecOn with
  | nil => exact ⟨served, built.path, .inr ⟨hentry, hrebuilt⟩⟩
  | append_singleton order i ih =>
    obtain ⟨served', hresolves⟩ := ih
    obtain ⟨left, -, hleft, -⟩ := answer_departs hresolves built.replays (calls i)
    rw [turn_snoc]
    exact ⟨left, hleft⟩

/-- The answer in turn of an accepted submission. -/
def AcceptedAfter (gw : Gateway F) (disk : Io) (sid : String) (calls : ι → SessionCall)
    (s₀ : ProtocolServer F) (before : List ι) (i : ι) : Prop :=
  ∃ o, gw.answerAfter sid disk calls s₀ before i = .ok (.engine (.stepped o)) ∧ o.Accepted

omit [DecidableEq ι] in
/-- Visits once ended have ended. -/
theorem departures_grow (hentry : s₀.registry sid = none)
    (hrebuilt : gw.rebuilt disk sid (s₀.events (gw.replayFile sid)) = .ok served)
    (order rest : List ι) : departures (ledgerAfter gw disk sid calls s₀ order) ≤
      departures (ledgerAfter gw disk sid calls s₀ (order ++ rest)) := by
  induction rest using List.reverseRecOn with
  | nil => rw [List.append_nil]
  | append_singleton rest i ih =>
    obtain ⟨served', hresolves⟩ := @turn_resolves F ι _ gw disk sid calls s₀ served hentry hrebuilt
      (order ++ rest)
    obtain ⟨-, es, -, hes, -⟩ :=
      answer_departs hresolves (Gateway.rebuilt_ok hrebuilt).replays (calls i)
    rw [← List.append_assoc]
    unfold ledgerAfter at ih ⊢
    rw [turn_snoc, hes, departures_append]
    omega

omit [DecidableEq ι] in
theorem departures_accepted (hentry : s₀.registry sid = none)
    (hrebuilt : gw.rebuilt disk sid (s₀.events (gw.replayFile sid)) = .ok served)
    (haccepted : AcceptedAfter gw disk sid calls s₀ order i) :
    departures (ledgerAfter gw disk sid calls s₀ order) <
      departures (ledgerAfter gw disk sid calls s₀ (order ++ [i])) := by
  obtain ⟨o, ho, haccepted⟩ := haccepted
  obtain ⟨served', hresolves⟩ := @turn_resolves F ι _ gw disk sid calls s₀ served hentry hrebuilt
    order
  obtain ⟨-, es, -, hes, hpos⟩ :=
    answer_departs hresolves (Gateway.rebuilt_ok hrebuilt).replays (calls i)
  have hes' := hpos o ho haccepted
  unfold ledgerAfter
  rw [turn_snoc, hes, departures_append]
  omega

omit [DecidableEq ι] in
theorem answer_of_failed {e : ErrorData} (hentry : s₀.registry sid = none)
    (hrebuilt : gw.rebuilt disk sid (s₀.events (gw.replayFile sid)) = .error e) (before : List ι)
    (i : ι) : gw.answerAfter sid disk calls s₀ before i = .error e := by
  obtain ⟨hnone, hevents⟩ := @turn_failed F ι _ gw disk sid calls s₀ e hentry hrebuilt before
  obtain ⟨s', hanswer, -⟩ := Gateway.answer_failed (c := calls i) hnone
    ((congrArg _ (hevents _)).trans hrebuilt)
  rw [Gateway.answerAfter, hanswer]

omit [DecidableEq ι] in
/-- **A visit is left once**: of two accepted submissions, the later finds the visit of the
earlier ended. -/
theorem visit_left_once (hentry : s₀.registry sid = none) {i j : ι}
    {before after before' after' : List ι} (horder : before ++ i :: after = before' ++ j :: after')
    (hi : AcceptedAfter gw disk sid calls s₀ before i)
    (hj : AcceptedAfter gw disk sid calls s₀ before' j)
    (hsame : departures (ledgerAfter gw disk sid calls s₀ before) =
      departures (ledgerAfter gw disk sid calls s₀ before')) : i = j := by
  cases hrebuilt : gw.rebuilt disk sid (s₀.events (gw.replayFile sid)) with
  | error e =>
    obtain ⟨o, ho, -⟩ := hi
    rw [answer_of_failed hentry hrebuilt] at ho
    cases ho
  | ok served =>
    have hlater : ∀ {i} {before mid : List ι}, AcceptedAfter gw disk sid calls s₀ before i →
        departures (ledgerAfter gw disk sid calls s₀ before) <
          departures (ledgerAfter gw disk sid calls s₀ (before ++ i :: mid)) := by
      intro i before mid hi
      have hgrow := @departures_grow F ι _ gw disk sid calls s₀ served hentry hrebuilt
        (before ++ [i]) mid
      rw [List.append_assoc, List.singleton_append] at hgrow
      exact (departures_accepted hentry hrebuilt hi).trans_le hgrow
    rcases List.append_eq_append_iff.mp horder with ⟨mid, rfl, hmid⟩ | ⟨mid, rfl, hmid⟩
    · cases mid with
      | nil => exact (List.cons.inj hmid).1
      | cons i' mid =>
        obtain ⟨rfl, -⟩ := List.cons.inj hmid
        exact absurd hsame (Nat.ne_of_lt (hlater hi))
    · cases mid with
      | nil => exact (List.cons.inj hmid).1.symm
      | cons j' mid =>
        obtain ⟨rfl, -⟩ := List.cons.inj hmid
        exact absurd hsame.symm (Nat.ne_of_lt (hlater hj))

/-! ## Every schedule -/

/-- What a schedule has to do with the calls in turn, in this order. -/
structure Ordered (gw : Gateway F) (disk : Io) (sid : String) (calls : ι → SessionCall)
    (s₀ : ProtocolServer F) (c : SessionCalls F ι) (order : List ι) : Prop where
  nodup : order.Nodup
  done : ∀ i r, c.place i = .answered r →
    Done gw disk sid calls s₀ order (c.shared.events (gw.ledgerFile sid)) i r
  ledgers : (∀ i, ∃ r, c.place i = .answered r) →
    ∀ file, c.shared.events file = (turn gw disk sid calls s₀ order).events file

omit [DecidableEq ι] in
theorem Linear.ordered (hentry : s₀.registry sid = none) (h : Linear gw disk sid calls s₀ c) :
    ∃ order, Ordered gw disk sid calls s₀ c order := by
  cases h with
  | missing order nodup _ _ ledgers places =>
    have hdone : ∀ i r, c.place i = .answered r →
        Done gw disk sid calls s₀ order (c.shared.events (gw.ledgerFile sid)) i r ∧
          ∃ e, gw.rebuilt disk sid (s₀.events (gw.replayFile sid)) = .error e := by
      intro i r hr
      have hplace := places i
      rw [hr] at hplace
      cases hplace with
      | failed mem hrebuilt =>
        obtain ⟨before, after, rfl⟩ := List.append_of_mem mem
        refine ⟨⟨before, after, rfl, ?_⟩, _, hrebuilt⟩
        rw [answer_of_failed hentry hrebuilt]
        exact .same
    refine ⟨order, nodup, fun i r hr => (hdone i r hr).1, fun hall file => ?_⟩
    rw [ledgers]
    cases order with
    | nil => rfl
    | cons i rest =>
      obtain ⟨r, hr⟩ := hall i
      obtain ⟨-, e, hrebuilt⟩ := hdone i r hr
      exact ((turn_failed hentry hrebuilt _).2 file).symm
  | free order nodup served _ _ _ _ ledgers places =>
    refine ⟨order, nodup, fun i r hr => ?_, fun _ => ledgers⟩
    have hplace := places i
    rw [hr] at hplace
    cases hplace with
    | answered done => exact done
  | held order k nodup _ _ todo reply _ _ here _ _ _ _ _ _ places =>
    refine ⟨order ++ [k], nodup, fun i r hr => ?_, fun hall => ?_⟩
    · have hik : i ≠ k := by
        rintro rfl
        rw [here] at hr
        cases hr
      have hplace := places i hik
      rw [hr] at hplace
      cases hplace with
      | answered done => exact done
    · obtain ⟨r, hr⟩ := hall k
      rw [here] at hr
      cases hr

omit [DecidableEq ι] in
/-- The engine that a call has in hand is the one in the registry, the only one ever put there. -/
theorem Linear.engines (h : Linear gw disk sid calls s₀ c) : c.shared.engines.length ≤ 1 ∧
    ∀ i engine, (c.place i).handle = some engine →
      c.shared.entry = some engine ∧ engine < c.shared.engines.length := by
  have hfits : ∀ {order now i stage engine}, Fits gw disk sid calls s₀ order now i stage →
      stage.handle = some engine → engine = 0 := by
    intro order now i stage engine hplace hhandle
    cases hplace with
    | locks =>
      cases hhandle
      rfl
    | _ => cases hhandle
  cases h with
  | missing order _ _ engines _ places =>
    rw [engines]
    refine ⟨Nat.zero_le 1, fun i engine hhandle => ?_⟩
    have hplace := places i
    generalize c.place i = stage at hplace hhandle
    cases hplace with
    | _ => cases hhandle
  | free order _ served entry engines _ _ _ places =>
    rw [engines]
    refine ⟨Nat.le_refl 1, fun i engine hhandle => ?_⟩
    obtain rfl := hfits (places i) hhandle
    exact ⟨entry, Nat.one_pos⟩
  | held order k _ _ _ _ _ entry engines here _ _ _ _ _ _ places =>
    rw [engines]
    refine ⟨Nat.le_refl 1, fun i engine hhandle => ?_⟩
    have hzero : engine = 0 := by
      by_cases hik : i = k
      · rw [hik, here] at hhandle
        cases hhandle
        rfl
      · exact hfits (places i hik) hhandle
    subst hzero
    exact ⟨entry, Nat.one_pos⟩

omit [DecidableEq ι] in
/-- A call has one place in the order, so it answers what it answers there. -/
theorem Ordered.agrees (h : Ordered gw disk sid calls s₀ c order)
    {r : Except ErrorData ToolReply} {before after : List ι} (hr : c.place i = .answered r)
    (horder : order = before ++ i :: after) :
    Agrees (ledgerAfter gw disk sid calls s₀ before) (c.shared.events (gw.ledgerFile sid))
      (gw.answerAfter sid disk calls s₀ before i) r := by
  obtain ⟨before', after', horder', agrees⟩ := (h.done i r hr).placed
  have hunique := h.nodup
  rw [horder', List.nodup_append, List.nodup_cons] at hunique
  obtain ⟨-, ⟨hafter, -⟩, hbefore⟩ := hunique
  have hbefore' : i ∉ before' := fun hi => hbefore i hi i List.mem_cons_self rfl
  obtain ⟨rfl, -, -⟩ :=
    (List.append_cons_inj_of_notMem hbefore' hafter).mp (horder'.symm.trans horder)
  exact agrees

omit [DecidableEq ι] in
theorem Ordered.accepted (h : Ordered gw disk sid calls s₀ c order) {before after : List ι}
    (hi : (c.place i).Accepted) (horder : order = before ++ i :: after) :
    AcceptedAfter gw disk sid calls s₀ before i := by
  obtain ⟨o, ho, haccepted⟩ := CallStage.Accepted.answered hi
  exact ⟨o, (h.agrees ho horder).engine, haccepted⟩

/-- **Calls on one session linearize.** In every state of every schedule of calls on a session
that is not in the registry: at most one engine has been put there, and it is the one that
any call works on; there is an order of the calls that have answered, and perhaps some more,
in which each of them answers what it answers in turn, but that the ledger tail of a state may
be that of a later moment; once all have answered, the ledgers are those that the calls leave
in turn; and no visit of a position is left by two accepted submissions. -/
theorem linearized (hentry : s₀.registry sid = none) (turns : List ι) :
    let c := turns.foldl (step gw disk sid calls) (begin s₀)
    (c.shared.engines.length ≤ 1 ∧ ∀ i engine, (c.place i).handle = some engine →
      c.shared.entry = some engine ∧ engine < c.shared.engines.length) ∧
    ∃ order : List ι, order.Nodup ∧
      (∀ i r, c.place i = .answered r → i ∈ order) ∧
      (∀ i r before after, c.place i = .answered r → order = before ++ i :: after →
        Agrees (ledgerAfter gw disk sid calls s₀ before) (c.shared.events (gw.ledgerFile sid))
          (gw.answerAfter sid disk calls s₀ before i) r) ∧
      ((∀ i, ∃ r, c.place i = .answered r) →
        ∀ file, c.shared.events file = (turn gw disk sid calls s₀ order).events file) ∧
      (∀ i j before after before' after', (c.place i).Accepted → (c.place j).Accepted →
        order = before ++ i :: after → order = before' ++ j :: after' →
        departures (ledgerAfter gw disk sid calls s₀ before) =
          departures (ledgerAfter gw disk sid calls s₀ before') → i = j) := by
  intro c
  have hlinear : Linear gw disk sid calls s₀ c := linear_run hentry turns
  obtain ⟨order, hordered⟩ := hlinear.ordered hentry
  refine ⟨hlinear.engines, order, hordered.nodup, fun i r hr => ?_,
    fun i r before after hr horder => hordered.agrees hr horder, hordered.ledgers, ?_⟩
  · obtain ⟨before, after, rfl, -⟩ := (hordered.done i r hr).placed
    exact List.mem_append_right _ List.mem_cons_self
  · intro i j before after before' after' hi hj hbefore hbefore' hsame
    exact visit_left_once hentry (hbefore.symm.trans hbefore') (hordered.accepted hi hbefore)
      (hordered.accepted hj hbefore') hsame

end SessionCalls

/-! ## A submission and a look at the state -/

namespace Sample

/-- A started session, after a restart of the process. -/
def restarted : ProtocolServer (List Component) :=
  { (exec (gateway.protocolStart io ⟨"sample", some "s1", none⟩) server).2 with
    registry := fun _ => none }

/-- One call asks for the state, the other completes the session. -/
def look (i : Bool) : SessionCall where
  tool := if i then .submit ⟨"plan", "check"⟩ done none else .getState
  host := host
  appends _ := .ok ()

/-- The state is cloned before the submission, and the ledger read behind it. -/
def lookTurns : List Bool :=
  List.replicate 4 false ++ List.replicate 5 true ++ [false]

/-- Whether an answer shows a position, and how many events. -/
def seen : Except ErrorData ToolReply → Bool × Nat
  | .ok (.state _ position tail) => (position.isSome, tail.length)
  | _ => (false, 0)

end Sample

namespace SessionCalls

theorem linearized_looked :
    let c := Sample.lookTurns.foldl (step Sample.gateway Sample.io "s1" Sample.look)
      (begin Sample.restarted)
    c.shared.engines.length ≤ 1 ∧ ∃ order : List Bool, order.Nodup ∧ ∀ i, i ∈ order := by
  have hentry : Sample.restarted.registry "s1" = none := rfl
  obtain ⟨⟨hone, -⟩, order, hnodup, hmem, -⟩ :=
    @linearized _ Bool _ _ Sample.gateway Sample.io "s1" Sample.look _ hentry Sample.lookTurns
  refine ⟨hone, order, hnodup, fun i => ?_⟩
  cases i with
  | false => exact hmem false _ rfl
  | true => exact hmem true _ rfl

/-- The answer of `protocol_get_state` is of two moments: it still has the position, and the
three events of the completed session. In turn it has the one or the other. -/
theorem state_torn :
    let c := Sample.lookTurns.foldl (step Sample.gateway Sample.io "s1" Sample.look)
      (begin Sample.restarted)
    (∀ i, ∃ r, c.place i = .answered r) ∧
    ¬∃ order : List Bool, order.Nodup ∧ (∀ i, i ∈ order) ∧
      ∀ i r before after, c.place i = .answered r → order = before ++ i :: after →
        Sample.gateway.answerAfter "s1" Sample.io Sample.look Sample.restarted before i = r := by
  intro c
  refine ⟨fun i => ?_, ?_⟩
  · cases i with
    | false => exact ⟨_, rfl⟩
    | true => exact ⟨_, rfl⟩
  rintro ⟨order, hnodup, hmem, hanswers⟩
  obtain ⟨before, after, horder⟩ := List.append_of_mem (hmem false)
  have hanswer := congrArg Sample.seen (hanswers false _ before after rfl horder)
  have hbefore : before = [] ∨ before = [true] := by
    rw [horder, List.nodup_append] at hnodup
    obtain ⟨hnodup, -, hdisjoint⟩ := hnodup
    have hsubmission : ∀ i ∈ before, i = true := by
      intro i hi
      cases i with
      | false => exact absurd rfl (hdisjoint false hi false List.mem_cons_self)
      | true => rfl
    cases before with
    | nil => exact .inl rfl
    | cons i rest =>
      obtain rfl := hsubmission i List.mem_cons_self
      obtain ⟨hrest, -⟩ := List.nodup_cons.mp hnodup
      refine .inr (congrArg _ (List.eq_nil_iff_forall_not_mem.mpr fun j hj => ?_))
      obtain rfl := hsubmission j (List.mem_cons_of_mem _ hj)
      exact hrest hj
  rcases hbefore with rfl | rfl
  · exact absurd hanswer (by decide)
  · exact absurd hanswer (by decide)

end SessionCalls

end ProtocolEnforcer
