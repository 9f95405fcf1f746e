import ProtocolEnforcer.Fsm.Completions
import ProtocolEnforcer.Gateway.AppendOnly
import ProtocolEnforcer.Gateway.OutputFiles

/-!
# The deliverable on disk

A submission to a served engine first writes the deliverable, if it comes to that, and
then appends to the ledger. A completion is earned: the blobs verify, and the file that
the event names holds the bytes whose hash the event carries. A final checklist that one
of the checks refuses leaves every file but the ledger, and the session, as they were.
-/

namespace ProtocolEnforcer

open Effect

/-! ## What is checked, and what is written -/

namespace ProfileFsmEngine

variable {engine : ProfileFsmEngine} {host : Host} {sid : String} {session : SessionState}
  {contract : OutputContract} {output : Option Json} {json : Json} {confined : List Component}

/-- The blob a reference names still has the bytes whose hash it carries. -/
def Verified (engine : ProfileFsmEngine) (host : Host) (a : ArtifactRef) : Prop :=
  ∃ bytes, host.artifacts.readFile (UnixPath.join engine.config.artifactRoot a.path) = .ok bytes ∧
    toHex (engine.vendor.sha256 bytes) = a.sha256

/-- What the integrity check accepts is verified. -/
theorem Intact.verified (h : Intact engine host sid session) :
    ∀ a ∈ session.artifacts.map Prod.snd, Verified engine host a := by
  intro a ha
  rcases h with hnone | ⟨store, hnew, hverify⟩
  · rw [hnone] at ha
    cases ha
  · obtain ⟨bytes, hread, hhash⟩ := ArtifactStore.verify_true (hverify a ha)
    rw [ArtifactStore.new_baseRoot hnew] at hread
    exact ⟨bytes, hread, hhash⟩

/-- Where the contract is met and the directory is there, the write is the output's. -/
theorem Meets.outputWrite (h : Meets engine sid contract output json confined)
    (hw : Writable host confined) :
    outputWrite engine host sid contract output =
      some (confined, bytesOf (engine.vendor.toStringPretty json)) := by
  unfold ProfileFsmEngine.outputWrite
  simp only [h.present, h.validated, h.within, hw.created]

/-- Where it is not met, there is no write. -/
theorem outputWrite_none (h : ∀ json confined, ¬Meets engine sid contract output json confined) :
    outputWrite engine host sid contract output = none := by
  unfold ProfileFsmEngine.outputWrite
  cases output with
  | none => rfl
  | some json =>
    dsimp only
    cases hvalid : validateOutput engine.vendor json contract.schema with
    | error e => rfl
    | ok u =>
      dsimp only
      cases hwithin : confineOutputDestination engine.config.outputBase
          (Text.replace contract.destination "\x7bsession_id\x7d" sid) with
      | error e => rfl
      | ok confined =>
        obtain ⟨hcompiles, hvalid⟩ := validateOutput_ok.mp hvalid
        exact absurd ⟨rfl, hcompiles, hvalid, hwithin⟩ (h json confined)

end ProfileFsmEngine

/-! ## The submission on disk -/

namespace FileGateway

open ProfileFsmEngine FileWrite

variable {F : Type} [DecidableEq F] (gw : FileGateway F) (io : FileIo) (served : Served)
  (s : ProtocolServer F) (d : Disk F) (sid : String) (pos : Position)
  (evidence : ChecklistEvidence) (output : Option Json)

/-- What a submission to a served engine answers, and the world it leaves. -/
def submission : Except FsmError StepOutcome × World SessionLedger :=
  exec (served.engine.submitMilestone io.host sid pos evidence output)
    (gw.worldOf io.toIo served s)

/-- The disk afterwards: the deliverable is written, then the events are. -/
def diskAfter : Disk F :=
  applyAll d (gw.deliverable io served sid pos evidence output ++
    gw.appended io served (served.engine.submitMilestone io.host sid pos evidence output) s)

/-- The output met the contract, is on disk, and is what the last event commits to. -/
structure Delivered (contract : OutputContract) (path : Option String) (json : Json)
    (confined : List Component) : Prop where
  meets : Meets served.engine sid contract output json confined
  reported : path = some (UnixPath.render confined)
  named : gw.fileAt (UnixPath.render confined) = gw.file confined
  holds : gw.diskAfter io served s d sid pos evidence output (gw.file confined) =
    some (bytesOf (served.engine.vendor.toStringPretty json))
  committed : ((gw.submission io served s sid pos evidence output).2.ledger.events.getLast?).map
      (·.eventType) = some (.sessionCompleted (UnixPath.render confined)
        (some (toHex (served.engine.vendor.sha256
          (bytesOf (served.engine.vendor.toStringPretty json))))))

/-- The submission fails, the session is as it was, and so is every file but the ledger. -/
structure Refused (session : SessionState) : Prop where
  answer : ∃ e, (gw.submission io served s sid pos evidence output).1 = .error e
  sessions : (gw.submission io served s sid pos evidence output).2.sessions = served.sessions
  active : session.status = .active
  here : session.position = some pos
  files : ∀ f, f ≠ gw.fileAt served.path →
    gw.diskAfter io served s d sid pos evidence output f = d f

variable {gw io served s d sid pos evidence output}

omit [DecidableEq F] in
/-- What comes behind the deliverable goes to the ledger. -/
theorem appended_other {f : F} (hf : f ≠ gw.fileAt served.path) :
    ∀ w ∈ gw.appended io served (served.engine.submitMilestone io.host sid pos evidence output) s,
      f ∉ w.files := by
  intro w hw
  obtain ⟨bytes, rfl⟩ := mem_appended hw
  exact List.not_mem_cons_of_ne_of_not_mem hf List.not_mem_nil

/-- The deliverable is written first, and only the ledger after it. -/
theorem delivered_of_completed {path : Option String} {contract : OutputContract}
    (hdest : ∀ confined, confineOutputDestination served.engine.config.outputBase
        (Text.replace contract.destination "\x7bsession_id\x7d" sid) = .ok confined →
      gw.file confined ≠ gw.fileAt served.path)
    (h : (gw.submission io served s sid pos evidence output).1 = .ok (.completed path))
    (hcontract : served.engine.profile.outputContract = some contract) :
    ∃ json confined, gw.Delivered io served s d sid pos evidence output contract path json
      confined := by
  obtain ⟨session, i, j, written, accepted, completed, hs, hroute, hintact, hresult, hpath, hevents,
    hevent⟩ := submitMilestone_earned h
  obtain ⟨json, confined, meets, writable, rfl⟩ := contractResult_met hresult hcontract
  have hplain := confineOutputDestination_plain meets.within
  have hdeliverable : gw.deliverable io served sid pos evidence output =
      [.overwrite (gw.file confined) (bytesOf (served.engine.vendor.toStringPretty json))] := by
    have hwrite : served.engine.submissionWrite io.host sid (served.sessions sid) (io.host.clock 0)
        pos evidence output =
          some (confined, bytesOf (served.engine.vendor.toStringPretty json)) := by
      have hroute : route served.engine sid (served.sessions sid) (io.host.clock 0) pos evidence =
        .final i j := hroute
      have hs : served.sessions sid = some session := hs
      unfold submissionWrite
      rw [hroute, hs]
      dsimp only
      rw [verifySessionArtifacts_ok.mpr hintact, hcontract]
      exact meets.outputWrite writable
    unfold deliverable
    rw [hwrite]
    dsimp only
    rw [writable.file]
    rfl
  refine ⟨json, confined, meets, hpath, ?_, ?_, ?_⟩
  · rw [fileAt, UnixPath.components_render hplain]
  · rw [diskAfter, hdeliverable, List.singleton_append, applyAll, List.foldl_cons]
    rw [show List.foldl apply _ _ (gw.file confined) = _ from
      applyAll_other (appended_other (hdest confined meets.within))]
    exact Function.update_self ..
  · rw [submission, hevents, List.getLast?_append, List.getLast?_cons_cons, List.getLast?_singleton,
      Option.some_or, Option.map_some, hevent, hpath]
    rfl

/-- A check that fails comes before the write. -/
theorem refused_of_fails {session : SessionState} {i j : Nat} (hs : served.sessions sid = some session)
    (hroute : route served.engine sid (served.sessions sid) (io.host.clock 0) pos evidence =
      .final i j)
    (hfails : FailsCheck served.engine io.host sid session output) :
    gw.Refused io served s d sid pos evidence output session := by
  obtain ⟨hanswer, hsessions⟩ := submitMilestone_refused (w := gw.worldOf io.toIo served s) hs hroute
    hfails
  have hdeliverable : gw.deliverable io served sid pos evidence output = [] := by
    have hwrite : served.engine.submissionWrite io.host sid (served.sessions sid) (io.host.clock 0)
        pos evidence output = none := by
      unfold submissionWrite
      rw [hroute]
      dsimp only
      rcases hfails with hintact | ⟨contract, hcontract, hunmet⟩
      · cases hverified : verifySessionArtifacts served.engine io.host sid (served.sessions sid) with
        | error e => rfl
        | ok u =>
          rw [hs] at hverified
          exact absurd (verifySessionArtifacts_ok.mp hverified) hintact
      · cases verifySessionArtifacts served.engine io.host sid (served.sessions sid) with
        | error e => rfl
        | ok u =>
          rw [hcontract]
          exact outputWrite_none hunmet
    rw [deliverable, hwrite]
  obtain ⟨active, here⟩ : session.status = .active ∧ session.position = some pos := by
    cases hc : checkSubmission sid pos (served.sessions sid) with
    | error e =>
      rw [route_refused hc] at hroute
      cases hroute
    | ok s' =>
      obtain ⟨hs', active, here⟩ := checkSubmission_ok.mp hc
      obtain rfl := Option.some.inj (hs.symm.trans hs')
      exact ⟨active, here⟩
  refine ⟨hanswer, hsessions, active, here, fun f hf => ?_⟩
  rw [diskAfter, hdeliverable, List.nil_append]
  exact applyAll_other (appended_other hf)

/-- **Completion is earned.** For every server and every submission to an engine it serves,
the destination not being the ledger: the blobs of a session that completes all verify, and
the contract's deliverable is delivered; a final checklist that one of the checks refuses
leaves the session and every file but the ledger alone. -/
theorem completion_earned
    (hdest : ∀ contract confined, served.engine.profile.outputContract = some contract →
      confineOutputDestination served.engine.config.outputBase
        (Text.replace contract.destination "\x7bsession_id\x7d" sid) = .ok confined →
      gw.file confined ≠ gw.fileAt served.path) :
    (∀ path, (gw.submission io served s sid pos evidence output).1 = .ok (.completed path) →
      ∃ session, served.sessions sid = some session ∧
        (∀ a ∈ session.artifacts.map Prod.snd, Verified served.engine io.host a) ∧
        ∀ contract, served.engine.profile.outputContract = some contract → ∃ json confined,
          gw.Delivered io served s d sid pos evidence output contract path json confined) ∧
    ∀ session i j, served.sessions sid = some session →
      route served.engine sid (served.sessions sid) (io.host.clock 0) pos evidence = .final i j →
      FailsCheck served.engine io.host sid session output →
      gw.Refused io served s d sid pos evidence output session := by
  refine ⟨fun path h => ?_, fun session i j hs hroute hfails => refused_of_fails hs hroute hfails⟩
  obtain ⟨session, _, _, _, _, _, hs, -, hintact, -⟩ := submitMilestone_earned h
  exact ⟨session, hs, hintact.verified, fun contract hcontract =>
    delivered_of_completed (fun confined => hdest contract confined hcontract) h hcontract⟩

end FileGateway

/-- The engine of a session with one blob, and its ledger. -/
def Sample.served : Served := ⟨Sample.contracted, Sample.offloaded.sessions, "./ledger/s1.jsonl"⟩

/-- The path that a completion answers. -/
def Sample.completedPath : Except FsmError StepOutcome → Option (Option String)
  | .ok (.completed path) => some path
  | _ => none

theorem Sample.completed_of_path {r : Except FsmError StepOutcome} {path : Option String}
    (h : Sample.completedPath r = some path) : r = .ok (.completed path) := by
  unfold Sample.completedPath at h
  split at h
  · cases h
    rfl
  · cases h

namespace FileGateway

/-- A session with one blob, completed with an output the contract accepts. -/
theorem completion_earned_delivered :
    ∃ path json confined, (Sample.fileGateway "").Delivered Sample.fileIo Sample.served
      Sample.server (fun _ => none) "s1" ⟨"plan", "check"⟩ Sample.done (some .null)
      ⟨.object [], "\x7bsession_id\x7d.json"⟩ path json confined := by
  have hdone : Sample.completedPath ((Sample.fileGateway "").submission Sample.fileIo
      Sample.served Sample.server "s1" ⟨"plan", "check"⟩ Sample.done (some .null)).1 =
      some (some "/srv/s1.json") := by decide +kernel
  have hdest : ∀ contract confined, Sample.contracted.profile.outputContract = some contract →
      confineOutputDestination Sample.contracted.config.outputBase
        (Text.replace contract.destination "\x7bsession_id\x7d" "s1") = .ok confined →
      (Sample.fileGateway "").file confined ≠
        (Sample.fileGateway "").fileAt Sample.served.path := by
    rintro contract confined hcontract hconfined
    cases hcontract
    have hsame : Except.ok confined =
        Except.ok [Component.rootDir, .normal "srv", .normal "s1.json"] :=
      hconfined.symm.trans (by decide +kernel)
    rw [Except.ok.inj hsame]
    decide +kernel
  obtain ⟨session, -, -, hdelivered⟩ :=
    (completion_earned hdest).1 _ (Sample.completed_of_path hdone)
  exact ⟨_, hdelivered _ rfl⟩

end FileGateway

end ProtocolEnforcer
