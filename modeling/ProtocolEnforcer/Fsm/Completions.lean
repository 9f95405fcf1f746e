import ProtocolEnforcer.Fsm.Course
import ProtocolEnforcer.Fsm.Writes

/-!
# What a completion takes, and the trace of a refused one

A session completes when the blobs it tracks are intact and its output meets the
contract. Each check is told here from the state before the submission (`Intact`,
`Meets`, `Writable`). A submission refused for its output contract leaves one event, and
only such a submission does, unless a blob was tampered with, which is refused before the
block that records a violation, or the deliverable cannot be written, which is recorded
as one: `violations_traced_iff`.
-/

namespace ProtocolEnforcer

/-- The record of a submission refused for its output contract. -/
def FsmEvent.isViolation (e : FsmEvent) : Bool :=
  match e.eventType with
  | .outputContractViolated _ => true
  | _ => false

/-- `FsmError::OutputContractViolation`. -/
def FsmError.isViolation : FsmError → Bool
  | .outputContractViolation _ => true
  | _ => false

namespace ProfileFsmEngine

open Effect

variable (engine : ProfileFsmEngine) (host : Host) (sid : String)

/-- Every blob the session tracks still hashes to what its reference says. -/
def Intact (s : SessionState) : Prop :=
  s.artifacts = [] ∨
    ∃ store, ArtifactStore.new host.artifacts sid engine.config.artifactRoot = .ok store ∧
      ∀ a ∈ s.artifacts.map Prod.snd,
        store.verify engine.vendor.sha256 host.artifacts a = .ok true

/-- A blob has other bytes than when it was offloaded, and is the first one that does not
verify, in the order the artifact map is walked in. -/
def Tampered (s : SessionState) : Prop :=
  ∃ store before a rest,
    ArtifactStore.new host.artifacts sid engine.config.artifactRoot = .ok store ∧
    (host.artifactOrder.walk s.artifacts).map Prod.snd = before ++ a :: rest ∧
    (∀ b ∈ before, store.verify engine.vendor.sha256 host.artifacts b = .ok true) ∧
    store.verify engine.vendor.sha256 host.artifacts a = .ok false

/-- The submitted output meets the contract: it is there, the schema compiles and finds nothing
wrong with it, and its destination stays under the output base. -/
structure Meets (contract : OutputContract) (output : Option Json) (json : Json)
    (confined : List Component) : Prop where
  present : output = some json
  compiles : engine.vendor.schemaError contract.schema = none
  valid : engine.vendor.payloadErrors contract.schema json = []
  within : confineOutputDestination engine.config.outputBase
    (Text.replace contract.destination "\x7bsession_id\x7d" sid) = .ok confined

/-- The file system takes a file at this path. -/
structure Writable (confined : List Component) : Prop where
  directory : confined.dropLast ≠ [] →
    host.createDirAll (UnixPath.render confined.dropLast) = .ok ()
  file : host.write (UnixPath.render confined) = .ok ()

variable {engine host sid} {s : SessionState} {contract : OutputContract} {output : Option Json}
  {json : Json} {confined : List Component}

/-! ## The artifacts -/

theorem verifyRefs_ok {store : ArtifactStore} {refs : List ArtifactRef} :
    verifyRefs engine host store refs = .ok () ↔
      ∀ a ∈ refs, store.verify engine.vendor.sha256 host.artifacts a = .ok true := by
  induction refs with
  | nil => simp [verifyRefs]
  | cons a refs ih =>
    rw [verifyRefs, List.forall_mem_cons]
    cases hv : store.verify engine.vendor.sha256 host.artifacts a with
    | error e => simp
    | ok intact =>
      cases intact with
      | false => simp
      | true => simp [ih]

theorem verifyRefs_violation {store : ArtifactStore} {refs : List ArtifactRef} :
    (∃ m, verifyRefs engine host store refs = .error (.outputContractViolation m)) ↔
      ∃ before a rest, refs = before ++ a :: rest ∧
        (∀ b ∈ before, store.verify engine.vendor.sha256 host.artifacts b = .ok true) ∧
        store.verify engine.vendor.sha256 host.artifacts a = .ok false := by
  constructor
  · rintro ⟨m, h⟩
    induction refs with
    | nil => cases h
    | cons a refs ih =>
      rw [verifyRefs] at h
      split at h
      · cases h
      · rename_i hfalse
        exact ⟨[], a, refs, rfl, fun b hb => absurd hb List.not_mem_nil, hfalse⟩
      · rename_i htrue
        obtain ⟨before, b, rest, rfl, hbefore, hb⟩ := ih h
        refine ⟨a :: before, b, rest, rfl, ?_, hb⟩
        rw [List.forall_mem_cons]
        exact ⟨htrue, hbefore⟩
  · rintro ⟨before, a, rest, rfl, hbefore, ha⟩
    induction before with
    | nil => exact ⟨_, by rw [List.nil_append, verifyRefs, ha]⟩
    | cons b before ih =>
      rw [List.forall_mem_cons] at hbefore
      obtain ⟨m, hm⟩ := ih hbefore.2
      exact ⟨m, by rw [List.cons_append, verifyRefs, hbefore.1, hm]⟩

/-- A walk passes the references of the map, each as often as it is there. -/
theorem walked_refs (host : Host) (s : SessionState) :
    ((host.artifactOrder.walk s.artifacts).map Prod.snd).Perm (s.artifacts.map Prod.snd) :=
  (host.artifactOrder.perm s.artifacts).map _

theorem verifySessionArtifacts_ok :
    verifySessionArtifacts engine host sid (some s) = .ok () ↔ Intact engine host sid s := by
  have hwalk := walked_refs host s
  unfold verifySessionArtifacts Intact
  simp only [Option.elim_some, ← hwalk.mem_iff]
  cases hrefs : (host.artifactOrder.walk s.artifacts).map Prod.snd with
  | nil =>
    rw [hrefs] at hwalk
    exact iff_of_true rfl (.inl (List.map_eq_nil_iff.mp hwalk.nil_eq.symm))
  | cons a rest =>
    have hsome : s.artifacts ≠ [] := by
      intro hnone
      rw [hrefs, hnone] at hwalk
      exact absurd hwalk.eq_nil nofun
    simp only [hsome, false_or]
    cases ArtifactStore.new host.artifacts sid engine.config.artifactRoot with
    | error e => simp
    | ok store => simp [verifyRefs_ok]

theorem verifySessionArtifacts_violation :
    (∃ m, verifySessionArtifacts engine host sid (some s) = .error (.outputContractViolation m)) ↔
      Tampered engine host sid s := by
  unfold verifySessionArtifacts Tampered
  simp only [Option.elim_some]
  cases hrefs : (host.artifactOrder.walk s.artifacts).map Prod.snd with
  | nil => simp
  | cons a rest =>
    cases ArtifactStore.new host.artifacts sid engine.config.artifactRoot with
    | error e => simp
    | ok store => simp [verifyRefs_violation]

theorem Tampered.not_intact (h : Tampered engine host sid s) : ¬Intact engine host sid s := by
  intro hok
  obtain ⟨m, hm⟩ := verifySessionArtifacts_violation.mpr h
  rw [verifySessionArtifacts_ok.mpr hok] at hm
  cases hm

/-! ## The contract -/

theorem Meets.unique {json' : Json} {confined' : List Component}
    (h : Meets engine sid contract output json confined)
    (h' : Meets engine sid contract output json' confined') : json' = json ∧ confined' = confined := by
  have hjson := h'.present.symm.trans h.present
  have hwithin := h'.within.symm.trans h.within
  exact ⟨Option.some.inj hjson, Except.ok.inj hwithin⟩

/-- The schema accepts the output. -/
theorem Meets.validated (h : Meets engine sid contract output json confined) :
    validateOutput engine.vendor json contract.schema = .ok () :=
  validateOutput_ok.mpr ⟨h.compiles, h.valid⟩

/-- The directory of a writable destination is there, or made. -/
theorem Writable.created (hw : Writable host confined) :
    (if confined.dropLast = [] then Except.ok ()
      else host.createDirAll (UnixPath.render confined.dropLast)) = .ok () := by
  split
  · rfl
  · exact hw.directory ‹_›

/-- An output that meets the contract is written, if the file system takes it. -/
theorem Meets.written (h : Meets engine sid contract output json confined)
    (hw : Writable host confined) :
    validateAndWriteOutput engine host sid contract output = .ok (UnixPath.render confined,
      toHex (engine.vendor.sha256 (bytesOf (engine.vendor.toStringPretty json)))) := by
  unfold validateAndWriteOutput
  simp only [h.present, h.validated, h.within, hw.created, hw.file]

/-- What meets the contract but cannot be written fails at the file system. -/
theorem Meets.unwritten (h : Meets engine sid contract output json confined)
    (hw : ¬Writable host confined) :
    ∃ m, validateAndWriteOutput engine host sid contract output = .error (.internal m) := by
  unfold validateAndWriteOutput
  simp only [h.present, h.validated, h.within]
  split
  · exact ⟨_, rfl⟩
  · rename_i hdir
    split
    · exact ⟨_, rfl⟩
    · rename_i hfile
      refine absurd ⟨fun hne => ?_, hfile⟩ hw
      rwa [if_neg hne] at hdir

/-- What does not meet the contract violates it. -/
theorem violation_of_not_meets (h : ∀ json confined, ¬Meets engine sid contract output json confined) :
    ∃ m, validateAndWriteOutput engine host sid contract output =
      .error (.outputContractViolation m) := by
  unfold validateAndWriteOutput
  cases output with
  | none => exact ⟨_, rfl⟩
  | some json =>
    dsimp only
    cases hvalid : validateOutput engine.vendor json contract.schema with
    | error e => exact ⟨_, rfl⟩
    | ok u =>
      dsimp only
      cases hwithin : confineOutputDestination engine.config.outputBase
          (Text.replace contract.destination "\x7bsession_id\x7d" sid) with
      | error e =>
        obtain ⟨m, rfl⟩ := confineOutputDestination_error hwithin
        exact ⟨m, rfl⟩
      | ok confined =>
        obtain ⟨hcompiles, hvalid⟩ := validateOutput_ok.mp hvalid
        exact absurd ⟨rfl, hcompiles, hvalid, hwithin⟩ (h json confined)

/-! ## The trace -/

/-- The submission answers with a violation exactly when it appended the record of one,
and appends at most one. -/
def Traced (w : World SessionLedger) (out : Except FsmError StepOutcome × World SessionLedger) :
    Prop :=
  ∃ es, out.2.ledger.events = w.ledger.events ++ es ∧
    ((∃ m, out.1 = .error (.outputContractViolation m)) ↔ ∃ e ∈ es, e.isViolation = true) ∧
    es.countP (·.isViolation) ≤ 1

/-- Neither the answer nor what was appended tells of a violation. -/
structure Silent {α : Type} (w : World SessionLedger)
    (out : Except FsmError α × World SessionLedger) : Prop where
  answer : ∀ e, out.1 = .error e → e.isViolation = false
  appended : ∃ es, out.2.ledger.events = w.ledger.events ++ es ∧ ∀ e ∈ es, e.isViolation = false

section

variable {α : Type} {w v : World SessionLedger} {r : Except FsmError α}

theorem Silent.traced {out : Except FsmError StepOutcome × World SessionLedger}
    (h : Silent w out) : Traced w out := by
  obtain ⟨es, hes, hquiet⟩ := h.appended
  refine ⟨es, hes, ⟨?_, ?_⟩, ?_⟩
  · rintro ⟨m, hm⟩
    have hno : true = false := h.answer _ hm
    cases hno
  · rintro ⟨e, he, hv⟩
    rw [hquiet e he] at hv
    cases hv
  · rw [List.countP_eq_zero.mpr fun e he => by simp [hquiet e he]]
    exact Nat.zero_le 1

/-- An end that appended nothing. -/
theorem Silent.of_events (h : v.ledger.events = w.ledger.events)
    (hr : ∀ e, r = .error e → e.isViolation = false) : Silent w (r, v) :=
  ⟨hr, [], by rw [h, List.append_nil], nofun⟩

theorem Silent.ledger {le : LedgerError} (h : v.ledger.events = w.ledger.events) :
    Silent w ((.error (.ledger le) : Except FsmError α), v) := by
  refine .of_events h ?_
  rintro _ heq
  cases heq
  rfl

/-- What was appended before counts too. -/
theorem Silent.after {out : Except FsmError α × World SessionLedger} {event : FsmEvent}
    (h : Silent v out) (hlog : v.ledger.events = w.ledger.events ++ [event])
    (hquiet : event.isViolation = false) : Silent w out := by
  obtain ⟨es, hes, hrest⟩ := h.appended
  refine ⟨h.answer, event :: es, by rw [hes, hlog, List.append_assoc, List.singleton_append], ?_⟩
  rw [List.forall_mem_cons]
  exact ⟨hquiet, hrest⟩

/-- A clock reading appends nothing. -/
theorem Silent.of_tick {out : Except FsmError α × World SessionLedger} (h : Silent w.tick out) :
    Silent w out := ⟨h.answer, h.appended⟩

/-- An end that appended one event. -/
theorem Silent.snoc {event : FsmEvent} (hlog : v.ledger.events = w.ledger.events ++ [event])
    (hquiet : event.isViolation = false) (hr : ∀ e, r = .error e → e.isViolation = false) :
    Silent w (r, v) := Silent.after (.of_events rfl hr) hlog hquiet

theorem Silent.map {β : Type} {out : Except FsmError α × World SessionLedger} (f : α → β)
    (h : Silent w out) : Silent w (out.1.map f, out.2) := by
  refine ⟨fun e he => ?_, h.appended⟩
  cases hout : out.1 with
  | ok a =>
    rw [hout] at he
    cases he
  | error e' =>
    rw [hout] at he
    cases he
    exact h.answer _ hout

end

theorem landingError_silent {i j : Nat} {initialContext : Option Json} {e : FsmError}
    (h : landingError engine host i j initialContext = some e) : e.isViolation = false := by
  rcases landingError_kind h with ⟨m, rfl⟩ | ⟨m, rfl⟩ <;> rfl

theorem loopError_silent {i : Nat} {e : FsmError} (h : loopError engine host i = some e) :
    e.isViolation = false := by
  rcases loopError_kind h with ⟨m, rfl⟩ | ⟨m, rfl⟩ <;> rfl

section

variable {w : World SessionLedger} {i j : Nat} {pos : Position} {evidence : ChecklistEvidence}
  {out : Except FsmError StepOutcome × World SessionLedger}

theorem Landing.silent {initialContext : Option Json}
    {out : Except FsmError (Position × RenderedInjection) × World SessionLedger}
    (h : Landing engine host sid i j initialContext w s out) : Silent w out := by
  cases h with
  | unlandable fails =>
    refine .of_events rfl ?_
    rintro _ heq
    cases heq
    exact landingError_silent fails
  | arrived => exact .of_events rfl nofun
  | unchallenged => exact .ledger rfl
  | challenged => exact .snoc rfl rfl nofun

theorem Advance.silent (h : Advance engine host sid i j pos w s out) : Silent w out := by
  cases h with
  | refused => exact .ledger rfl
  | moved taken hk hnext land => exact (land.silent.after rfl rfl).map _

theorem Tripped.silent {b : CircuitBreakerType} (h : Tripped host sid b pos w s out) :
    Silent w out := by
  cases h with
  | refused => exact .ledger rfl
  | failed =>
    refine .snoc rfl rfl ?_
    rintro _ heq
    cases heq
    rfl

theorem Rejection.silent {missing : List String}
    (h : Rejection engine host sid i pos missing evidence w s out) : Silent w out := by
  cases h with
  | refused => exact .ledger rfl
  | tripped _ _ trip => exact trip.silent.after rfl rfl
  | loopStuck _ _ _ stuck =>
    refine .snoc rfl rfl ?_
    rintro _ heq
    cases heq
    exact loopError_silent stuck
  | loopRefused => exact (Silent.ledger rfl).after rfl rfl
  | looped =>
    refine Silent.after (v := struckAt host sid pos missing evidence w s) ?_ rfl rfl
    exact .snoc rfl rfl nofun
  | rejected => exact .snoc rfl rfl nofun

theorem MacroAdvance.silent (h : MacroAdvance engine host sid i pos w s out) : Silent w out := by
  cases h with
  | refused => exact .ledger rfl
  | unentered _ none =>
    refine .snoc rfl rfl ?_
    rintro _ heq
    cases heq
    unfold firstEnabledIndex at none
    split at none
    · cases none
    · cases none
      rfl
  | stranded => exact (Silent.ledger rfl).after rfl rfl
  | moved _ _ _ _ land =>
    have moved : Silent (acceptedAt host sid pos w) _ := land.silent.after rfl rfl
    exact (moved.after rfl rfl).map _

theorem Refusal.silent {reason : String} (h : Refusal engine host sid pos reason w s out) :
    Silent w out := by
  cases h with
  | refused => exact .ledger rfl
  | tripped _ _ trip => exact trip.silent.after rfl rfl
  | counted => exact .snoc rfl rfl nofun

theorem Acceptance.silent {signature nonce : String}
    (h : Acceptance engine host sid i j pos signature nonce w s out) : Silent w out := by
  cases h with
  | refused => exact .ledger rfl
  | accepted _ advance => exact advance.silent.after rfl rfl

theorem checkSubmission_silent {session : Option SessionState} {e : FsmError}
    (h : checkSubmission sid pos session = .error e) : e.isViolation = false := by
  rcases checkSubmission_kind h with rfl | ⟨_, rfl⟩ | ⟨_, rfl⟩ | ⟨_, _, rfl⟩ <;> rfl

theorem locate_silent {e : FsmError} (h : locate engine pos = .error e) :
    e.isViolation = false := by
  unfold locate at h
  split at h
  · cases h
    rfl
  split at h
  · cases h
    rfl
  · cases h

end

/-! ## The final checklist -/

variable (engine host sid) in
/-- The output meets the contract, and the file system does not take the deliverable. -/
def Unwritten (output : Option Json) : Prop :=
  ∃ contract json confined, engine.profile.outputContract = some contract ∧
    Meets engine sid contract output json confined ∧ ¬Writable host confined

variable (engine host sid) in
/-- The final checklist is passed by a session with a blob that was tampered with, or with
a deliverable that cannot be written. -/
def Mistraced (w : World SessionLedger) (pos : Position) (evidence : ChecklistEvidence)
    (output : Option Json) : Prop :=
  ∃ s i j, w.sessions sid = some s ∧
    route engine sid (w.sessions sid) (host.clock w.ticks) pos evidence = .final i j ∧
    (Tampered engine host sid s ∨ Intact engine host sid s ∧ Unwritten engine host sid output)

variable (engine host sid) in
/-- Every answer of the output contract. -/
inductive Verdict (output : Option Json) : Except FsmError (Option (String × String)) → Prop where
  | free (hcontract : engine.profile.outputContract = none) : Verdict output (.ok none)
  | met {contract : OutputContract} {json : Json} {confined : List Component}
      (hcontract : engine.profile.outputContract = some contract)
      (meets : Meets engine sid contract output json confined) (writable : Writable host confined) :
      Verdict output (.ok (some (UnixPath.render confined,
        toHex (engine.vendor.sha256 (bytesOf (engine.vendor.toStringPretty json))))))
  | unwritten {m} (fails : Unwritten engine host sid output) : Verdict output (.error (.internal m))
  | violated {contract : OutputContract} {m}
      (hcontract : engine.profile.outputContract = some contract)
      (unmet : ∀ json confined, ¬Meets engine sid contract output json confined) :
      Verdict output (.error (.outputContractViolation m))

theorem contractResult_verdict :
    Verdict engine host sid output (contractResult engine host sid output) := by
  unfold contractResult
  cases hcontract : engine.profile.outputContract with
  | none => exact .free hcontract
  | some contract =>
    dsimp only
    by_cases hmeets : ∃ json confined, Meets engine sid contract output json confined
    · obtain ⟨json, confined, hmeets⟩ := hmeets
      by_cases hw : Writable host confined
      · rw [hmeets.written hw]
        exact .met hcontract hmeets hw
      · obtain ⟨m, hm⟩ := hmeets.unwritten hw
        rw [hm]
        exact .unwritten ⟨contract, json, confined, hcontract, hmeets, hw⟩
    · have hunmet : ∀ json confined, ¬Meets engine sid contract output json confined :=
        fun json confined h => hmeets ⟨json, confined, h⟩
      obtain ⟨m, hm⟩ : ∃ m, validateAndWriteOutput engine host sid contract output =
        .error (.outputContractViolation m) := violation_of_not_meets hunmet
      rw [hm]
      exact .violated hcontract hunmet

/-- The four answers exclude each other. -/
theorem Verdict.unwritten_iff {r : Except FsmError (Option (String × String))}
    (h : Verdict engine host sid output r) :
    Unwritten engine host sid output ↔ ∃ m, r = .error (.internal m) := by
  cases h with
  | free hcontract =>
    refine iff_of_false ?_ nofun
    rintro ⟨contract, json, confined, hsome, -⟩
    rw [hcontract] at hsome
    cases hsome
  | @met contract json confined hcontract meets writable =>
    refine iff_of_false ?_ nofun
    rintro ⟨contract', json', confined', hsome, hmeets, hw⟩
    obtain rfl := Option.some.inj (hcontract.symm.trans hsome)
    obtain ⟨-, rfl⟩ := meets.unique hmeets
    exact hw writable
  | unwritten fails => exact iff_of_true fails ⟨_, rfl⟩
  | @violated contract m hcontract unmet =>
    refine iff_of_false ?_ nofun
    rintro ⟨contract', json', confined', hsome, hmeets, -⟩
    obtain rfl := Option.some.inj (hcontract.symm.trans hsome)
    exact unmet _ _ hmeets

/-- A contract that is done with was met, and the file system took the deliverable. -/
theorem contractResult_met {written : Option (String × String)} {contract : OutputContract}
    (h : contractResult engine host sid output = .ok written)
    (hcontract : engine.profile.outputContract = some contract) :
    ∃ json confined, Meets engine sid contract output json confined ∧ Writable host confined ∧
      written = some (UnixPath.render confined,
        toHex (engine.vendor.sha256 (bytesOf (engine.vendor.toStringPretty json)))) := by
  have verdict : Verdict engine host sid output _ := contractResult_verdict
  rw [h] at verdict
  cases verdict with
  | free hnone =>
    rw [hcontract] at hnone
    cases hnone
  | met hsome meets writable =>
    obtain rfl := Option.some.inj (hcontract.symm.trans hsome)
    exact ⟨_, _, meets, writable, rfl⟩

/-! ## What a completion has passed, and what a refusal leaves -/

section

variable {w : World SessionLedger} {pos : Position} {evidence : ChecklistEvidence}

variable (engine host sid) in
/-- One of the checks of the final checklist fails. -/
def FailsCheck (s : SessionState) (output : Option Json) : Prop :=
  ¬Intact engine host sid s ∨
    ∃ contract, engine.profile.outputContract = some contract ∧
      ∀ json confined, ¬Meets engine sid contract output json confined

/-- **What a completion has passed.** -/
theorem submitMilestone_earned {path : Option String}
    (h : (exec (submitMilestone engine host sid pos evidence output) w).1 =
      .ok (.completed path)) :
    ∃ s i j written accepted completed, w.sessions sid = some s ∧
      route engine sid (w.sessions sid) (host.clock w.ticks) pos evidence = .final i j ∧
      Intact engine host sid s ∧ contractResult engine host sid output = .ok written ∧
      path = written.map Prod.fst ∧
      (exec (submitMilestone engine host sid pos evidence output) w).2.ledger.events =
        w.ledger.events ++ [accepted, completed] ∧
      completed.eventType = .sessionCompleted (path.getD "") (written.map Prod.snd) := by
  obtain ⟨s, i, j, hs, hroute, hexec⟩ := submitMilestone_completed h
  have complete : Completion engine host sid pos output w.tick s
      (exec (completeFinalMacro engine host sid pos output) w.tick) := exec_completeFinalMacro hs
  rw [hexec] at h ⊢
  generalize exec (completeFinalMacro engine host sid pos output) w.tick = out at complete h
  cases complete with
  | unverified | violated | untraced | refused | stranded => cases h
  | @completed written verified meets =>
    cases h
    exact ⟨s, i, j, written, _, _, hs, hroute, verifySessionArtifacts_ok.mp verified, meets, rfl,
      List.append_assoc .., rfl⟩

/-- **What a refused completion leaves**: its session as it was. -/
theorem submitMilestone_refused {i j : Nat} (hs : w.sessions sid = some s)
    (hroute : route engine sid (w.sessions sid) (host.clock w.ticks) pos evidence = .final i j)
    (hfails : FailsCheck engine host sid s output) :
    (∃ e, (exec (submitMilestone engine host sid pos evidence output) w).1 = .error e) ∧
      (exec (submitMilestone engine host sid pos evidence output) w).2.sessions = w.sessions := by
  have submission : Submission engine host sid pos evidence output w _ := exec_submitMilestone
  generalize exec (submitMilestone engine host sid pos evidence output) w = out at submission
  cases submission with
  | refused => exact ⟨⟨_, rfl⟩, rfl⟩
  | late hc hlate =>
    rw [route_late hc hlate] at hroute
    cases hroute
  | handled hc hlate handling =>
    rw [route_handled hc hlate] at hroute
    obtain ⟨hs', -, -⟩ := checkSubmission_ok.mp hc
    obtain rfl := Option.some.inj (hs.symm.trans hs')
    have passes : ∀ written, verifySessionArtifacts engine host sid (some s) = .ok () →
        contractResult engine host sid output = .ok written → False := by
      rintro written verified meets
      rcases hfails with hintact | ⟨contract, hcontract, hunmet⟩
      · exact hintact (verifySessionArtifacts_ok.mp verified)
      · obtain ⟨json, confined, hmeets, -⟩ := contractResult_met meets hcontract
        exact hunmet json confined hmeets
    cases handling with
    | final _ complete =>
      cases complete with
      | unverified | violated | untraced => exact ⟨⟨_, rfl⟩, rfl⟩
      | refused verified meets | stranded verified meets | completed verified meets =>
        exact (passes _ verified meets).elim
    | lost h | plain h | passed h | rejected h | approved h | unapproved h =>
      exact absurd (hroute.symm.trans h) nofun

end

section

variable {w v : World SessionLedger} {pos : Position} {evidence : ChecklistEvidence}
  {out : Except FsmError StepOutcome × World SessionLedger} {r : Except FsmError StepOutcome}

/-- Only one list of events was appended. -/
theorem traced_iff {es : List FsmEvent} (hlog : v.ledger.events = w.ledger.events ++ es) :
    Traced w (r, v) ↔ ((∃ m, r = .error (.outputContractViolation m)) ↔
      ∃ e ∈ es, e.isViolation = true) ∧ es.countP (·.isViolation) ≤ 1 := by
  constructor
  · rintro ⟨es', hes', h⟩
    rw [List.append_cancel_left (hlog.symm.trans hes')]
    exact h
  · exact fun h => ⟨es, hlog, h⟩

/-- **How the final checklist leaves its trace.** -/
theorem Completion.traced_iff (complete : Completion engine host sid pos output w s out)
    (hledger : w.ledger.Reliable) :
    Traced w out ↔
      ¬(Tampered engine host sid s ∨ Intact engine host sid s ∧ Unwritten engine host sid output) := by
  cases complete with
  | @unverified e fails =>
    rw [ProfileFsmEngine.traced_iff (List.append_nil _).symm]
    have hintact : ¬Intact engine host sid s := by
      intro h
      rw [verifySessionArtifacts_ok.mpr h] at fails
      cases fails
    by_cases hv : ∃ m, e = .outputContractViolation m
    · -- refused before the block that records a violation
      obtain ⟨m, rfl⟩ := hv
      refine iff_of_false ?_ (not_not.mpr (Or.inl (verifySessionArtifacts_violation.mp ⟨m, fails⟩)))
      rintro ⟨hiff, -⟩
      obtain ⟨_, hmem, -⟩ := hiff.mp ⟨m, rfl⟩
      cases hmem
    · refine iff_of_true ⟨⟨?_, nofun⟩, Nat.zero_le 1⟩ ?_
      · rintro ⟨m, hm⟩
        exact absurd ⟨m, Except.error.inj hm⟩ hv
      · rintro (htampered | ⟨h, -⟩)
        · obtain ⟨m, hm⟩ := verifySessionArtifacts_violation.mpr htampered
          exact hv ⟨m, Except.error.inj (fails.symm.trans hm)⟩
        · exact hintact h
  | @violated e verified fails taken =>
    rw [ProfileFsmEngine.traced_iff (World.logged_events _ _)]
    have hintact := verifySessionArtifacts_ok.mp verified
    have verdict : Verdict engine host sid output _ := contractResult_verdict
    have hunwritten := verdict.unwritten_iff
    rw [fails] at verdict hunwritten
    cases verdict with
    | unwritten hw =>
      -- recorded as a violation, answered as an internal error
      refine iff_of_false ?_ (not_not.mpr (Or.inr ⟨hintact, hw⟩))
      rintro ⟨hiff, -⟩
      obtain ⟨m, hm⟩ := hiff.mpr ⟨_, List.mem_singleton_self _, rfl⟩
      cases hm
    | violated =>
      refine iff_of_true ⟨?_, Nat.le_refl 1⟩ ?_
      · exact iff_of_true ⟨_, rfl⟩ ⟨_, List.mem_singleton_self _, rfl⟩
      · rintro (htampered | ⟨-, h⟩)
        · exact htampered.not_intact hintact
        · obtain ⟨m, hm⟩ := hunwritten.mp h
          cases hm
  | untraced _ _ refused => exact hledger.elim refused
  | refused _ _ refused => exact hledger.elim refused
  | stranded _ _ _ refused => exact SessionLedger.Reliable.elim (l := (acceptedAt ..).ledger) hledger refused
  | @completed written verified meets taken taken' =>
    refine iff_of_true (Silent.traced (.after (v := acceptedAt host sid pos w) ?_ rfl rfl)) ?_
    · exact .snoc rfl rfl nofun
    · rintro (htampered | ⟨-, h⟩)
      · exact htampered.not_intact (verifySessionArtifacts_ok.mp verified)
      · obtain ⟨m, hm⟩ := contractResult_verdict.unwritten_iff.mp h
        rw [hm] at meets
        cases meets

theorem Handling.silent (h : Handling engine host sid pos evidence output w s out)
    (hfinal : ∀ i j, routeAt engine sid s pos evidence ≠ .final i j) : Silent w out := by
  cases h with
  | lost hroute =>
    refine .of_events rfl ?_
    rintro _ heq
    cases heq
    exact locate_silent (routeAt_eq hroute)
  | plain _ advance => exact advance.silent
  | passed _ advance => exact advance.silent
  | final hroute => exact absurd hroute (hfinal _ _)
  | rejected _ reject => exact reject.silent
  | approved _ accept => exact accept.silent
  | unapproved _ refuse => exact refuse.silent

theorem Submission.traced_iff (submission : Submission engine host sid pos evidence output w out)
    (hledger : w.ledger.Reliable) :
    Traced w out ↔ ¬Mistraced engine host sid w pos evidence output := by
  cases submission with
  | refused fails =>
    refine iff_of_true (Silent.traced (.of_events rfl ?_)) ?_
    · rintro _ heq
      cases heq
      exact checkSubmission_silent fails
    · rintro ⟨s, i, j, -, hroute, -⟩
      rw [route_refused fails] at hroute
      cases hroute
  | late hc hlate trip =>
    refine iff_of_true (Silent.traced trip.silent.of_tick) ?_
    rintro ⟨s, i, j, -, hroute, -⟩
    rw [route_late hc hlate] at hroute
    cases hroute
  | @handled s out hc hlate handling =>
    obtain ⟨hs, -, -⟩ := checkSubmission_ok.mp hc
    have hroute : route engine sid (w.sessions sid) (host.clock w.ticks) pos evidence =
      routeAt engine sid s pos evidence := route_handled hc hlate
    by_cases hfinal : ∃ i j, routeAt engine sid s pos evidence = .final i j
    · obtain ⟨i, j, hfinal⟩ := hfinal
      have complete : Completion engine host sid pos output w.tick s out := by
        cases handling with
        | final _ complete => exact complete
        | lost h | plain h | passed h | rejected h | approved h | unapproved h =>
          exact absurd (hfinal.symm.trans h) nofun
      rw [show Traced w out ↔ Traced w.tick out from Iff.rfl, complete.traced_iff hledger]
      refine not_congr ⟨fun h => ⟨s, i, j, hs, hroute.trans hfinal, h⟩, ?_⟩
      rintro ⟨s', -, -, hs', -, h⟩
      rw [hs] at hs'
      cases hs'
      exact h
    · have hquiet := handling.silent fun i j h => hfinal ⟨i, j, h⟩
      refine iff_of_true (Silent.traced hquiet.of_tick) ?_
      rintro ⟨s', i, j, -, h, -⟩
      exact hfinal ⟨i, j, hroute.symm.trans h⟩

/-- **When a contract rejection leaves its trace.** In every state and for every
submission, with appends succeeding: the answer is a violation exactly when the call
recorded one, and at most one is recorded, unless the final checklist was passed with a
blob that was tampered with, or with a deliverable that cannot be written. -/
theorem violations_traced_iff (hledger : w.ledger.Reliable) :
    Traced w (exec (submitMilestone engine host sid pos evidence output) w) ↔
      ¬Mistraced engine host sid w pos evidence output :=
  (exec_submitMilestone).traced_iff hledger

end

end ProfileFsmEngine

namespace Sample

open ProfileFsmEngine

/-- SHA-256 of the bytes the samples hash. -/
def digest (bytes : Bytes) : Bytes :=
  (fromHex (
    if bytes = [] then "e3b0c44298fc1c149afbf4c8996fb92427ae41e4649b934ca495991b7852b855"
    else if bytes = [1] then "4bf5122f344554c53bde2ebb8cd2b7e3d1600ad631c385a5d7cce23c7785459a"
    else if bytes = bytesOf "null" then
      "74234e98afe7498fb5daf1f36ac2d78acc339464f950703b8c019892f982b90b"
    else "")).getD []

/-- A one-checklist engine with an output contract that accepts any value. -/
def contracted : ProfileFsmEngine :=
  .new { vendor with sha256 := digest, toStringPretty := fun _ => "null" }
    { profile [checklist] with outputContract := some ⟨.object [], "\x7bsession_id\x7d.json"⟩ }
    { outputBase := "/srv" }

/-- A host whose disk holds `bytes` in every blob. -/
def holding (bytes : Bytes) : Host :=
  { host with artifacts := { host.artifacts with readFile := fun _ => .ok bytes } }

/-- A host with a full disk. -/
def full : Host := { host with write := fun _ => .error "no space left on device" }

/-- A session on the final checklist, with one blob in the store. -/
def offloaded : World SessionLedger :=
  runCalls contracted "s1" (world fun _ => .ok ())
    [(host, .start none), (host, .store "plan" [] "text/plain")]

end Sample

namespace ProfileFsmEngine

/-- A submission without an output is refused, and the refusal is recorded. -/
theorem violations_traced_missing :
    Traced Sample.offloaded (Effect.exec (submitMilestone Sample.contracted Sample.host "s1"
      ⟨"plan", "check"⟩ Sample.done none) Sample.offloaded) := by
  refine (violations_traced_iff fun _ => rfl).mpr ?_
  rintro ⟨s, i, j, hs, -, htampered | ⟨-, contract, json, confined, -, hmeets, -⟩⟩
  · have hverified : verifySessionArtifacts Sample.contracted Sample.host "s1"
        (Sample.offloaded.sessions "s1") = .ok () := by decide +kernel
    rw [hs] at hverified
    exact htampered.not_intact (verifySessionArtifacts_ok.mp hverified)
  · cases hmeets.present

/-- A blob changed since it was offloaded: the submission is refused as a violation, and no
violation is recorded. A full disk: one is recorded, and the answer is another error. -/
theorem violations_mistraced :
    (let out := Effect.exec (submitMilestone Sample.contracted (Sample.holding [1]) "s1"
        ⟨"plan", "check"⟩ Sample.done (some .null)) Sample.offloaded
     out.1.map (fun _ => ()) = .error (.outputContractViolation
        "artifact integrity check failed (content changed since offload): .artifacts/s1/plan/u.bin") ∧
      out.2.ledger.events.countP (·.isViolation) = 0) ∧
    (let out := Effect.exec (submitMilestone Sample.contracted Sample.full "s1"
        ⟨"plan", "check"⟩ Sample.done (some .null)) Sample.offloaded
     out.1.map (fun _ => ()) = .error (.internal
        "failed to write output contract: no space left on device") ∧
      out.2.ledger.events.countP (·.isViolation) = 1) := by
  decide +kernel

end ProfileFsmEngine

end ProtocolEnforcer
