import ProtocolEnforcer.Core.Callers
import ProtocolEnforcer.Gateway.StartSteps

/-!
# Racing starts

Any number of `protocol_start` calls on one session id, in any number of processes that
share a ledger directory, with their steps in any order. At most one of them has the ledger
file: it has created it, what is in it is its own, and it is the one to remove it.
-/

namespace ProtocolEnforcer

open Effect

/-! ## What a start appends -/

namespace ProfileFsmEngine

variable {engine : ProfileFsmEngine} {host : Host} {sid : String}

/-- `SessionStarted` at the entry point, and its challenge if that is a gate. -/
inductive StartEvents (engine : ProfileFsmEngine) (sid : String) (initialContext : Option Json) :
    List FsmEvent → Prop where
  | plain {m k t} (entry : entryPoint engine = .ok (m, k))
      (ungated : engine.profile.typeAt 0 k ≠ .humanApproval) :
      StartEvents engine sid initialContext [eventAt t sid
        (.sessionStarted engine.profile.name engine.profile.version engine.config.profileSha256)
        ⟨m.stateId, (m.subAt k).id⟩ (.object [("initial_context", initialContext.getD .null)])]
  | gated {m k t t' nonce} (entry : entryPoint engine = .ok (m, k))
      (gate : engine.profile.typeAt 0 k = .humanApproval) :
      StartEvents engine sid initialContext [eventAt t sid
          (.sessionStarted engine.profile.name engine.profile.version engine.config.profileSha256)
          ⟨m.stateId, (m.subAt k).id⟩ (.object [("initial_context", initialContext.getD .null)]),
        eventAt t' sid (.approvalChallengeIssued (engine.profile.place 0 k).macroId
          (engine.profile.place 0 k).subStateId nonce) (engine.profile.place 0 k) Json.emptyObject]

/-- A start that answers has appended just its events to the ledger. -/
theorem startEvents_of_ok {initialContext : Option Json} {w : World SessionLedger} {view : StepView}
    (hw : w.ledger.events = [])
    (h : (exec (startSession engine host sid initialContext) w).1 = .ok view) :
    StartEvents engine sid initialContext
      (exec (startSession engine host sid initialContext) w).2.ledger.events := by
  have starting := @exec_startSession engine host sid initialContext w
  generalize exec (startSession engine host sid initialContext) w = out at *
  cases starting with
  | invalid | unentered | refused | stuck => cases h
  | @started m k p injected view' w' valid entry taken land =>
    cases land with
    | arrived lands ungated =>
      simp only [startedAt, World.logged_events, World.setSession_ledger, World.tick_ledger, hw]
      exact .plain entry ungated
    | challenged lands gate minted taken' =>
      simp only [startedAt, World.logged_events, World.setSession_ledger, World.tick_ledger, hw]
      exact .gated entry gate

end ProfileFsmEngine

/-! ## One call -/

namespace SessionFiles

/-- No call has a file, and none has left anything else. -/
structure Free {P : Type} (registry : P → Option Served) (files : SessionFiles P) : Prop where
  ledger : files.ledger = none
  sidecar : files.sidecar = none
  registry : files.registry = registry

end SessionFiles

namespace Starter

variable {F P : Type} [DecidableEq P] {sid : String} {c : Starter F P sid}
  {registry : P → Option Served} {files : SessionFiles P} {stage : StartStage}

/-- The profile `c` has loaded, and its engine's answer to the start. -/
structure Launched (c : Starter F P sid) (profile : Profile) (loadPath : String)
    (view : StepView) : Prop where
  loaded : c.load = .ok (profile, loadPath)
  answered : (c.launched profile loadPath).1 = .ok view

/-- What a call finds in the files after its claim: nobody else's doing. -/
def Holds (c : Starter F P sid) (registry : P → Option Served) (files : SessionFiles P) :
    StartStage → Prop
  | .checks | .claims | .refused _ => False
  | .loads => files.read = some [] ∧ files.sidecar = none ∧ files.registry = registry
  | .opens profile loadPath => c.load = .ok (profile, loadPath) ∧
      files.read = some [] ∧ files.sidecar = none ∧ files.registry = registry
  | .appends fd todo profile loadPath => c.load = .ok (profile, loadPath) ∧
      files.ledger = some fd ∧
      files.contents fd ++ todo = (c.launched profile loadPath).2.ledger.events ∧
      files.sidecar = none ∧ files.registry = registry
  | .cleans _ => files.ledger.isSome ∧ files.sidecar = none ∧ files.registry = registry
  | .inserts profile loadPath view => c.Launched profile loadPath view ∧
      files.read = some (c.launched profile loadPath).2.ledger.events ∧
      files.sidecar = none ∧ files.registry = registry
  | .writes profile loadPath view => c.Launched profile loadPath view ∧
      files.read = some (c.launched profile loadPath).2.ledger.events
  | .started view => ∃ profile loadPath, c.Launched profile loadPath view ∧
      files.read = some (c.launched profile loadPath).2.ledger.events

omit [DecidableEq P] in
theorem Holds.ledger (h : c.Holds registry files stage) : files.ledger.isSome := by
  have hread : ∀ {events}, files.read = some events → files.ledger.isSome := by
    intro events hevents
    rw [← Option.isSome_map (f := files.contents)]
    exact Option.isSome_of_eq_some hevents
  cases stage with
  | checks | claims | refused => exact h.elim
  | loads => exact hread h.1
  | opens => exact hread h.2.1
  | appends => exact Option.isSome_of_eq_some h.2.1
  | cleans => exact h.1
  | inserts => exact hread h.2.1
  | writes => exact hread h.2
  | started =>
    obtain ⟨_, _, -, h⟩ := h
    exact hread h

variable (files) in
/-- A call that has no file changes nothing, unless it is the one to create it. -/
theorem next_idle (h : ¬stage.Owns) :
    (¬(c.next files stage).1.Owns ∧ (c.next files stage).2 = files) ∨
      files.ledger = none ∧ c.next files stage = (.loads, files.create) := by
  cases stage with
  | checks =>
    refine .inl ?_
    unfold next
    cases c.look files with
    | ok _ => exact ⟨id, rfl⟩
    | error _ => exact ⟨id, rfl⟩
  | claims =>
    unfold next
    dsimp only
    cases hclaim : c.claim files with
    | error _ => exact .inl ⟨id, rfl⟩
    | ok files' =>
      obtain ⟨hledger, rfl⟩ := claim_ok hclaim
      exact .inr ⟨hledger, rfl⟩
  | refused => exact .inl ⟨id, rfl⟩
  | _ => exact absurd trivial h

omit [DecidableEq P] in
/-- A step of the blocking task may panic instead: what it has claimed is cleaned up. -/
theorem Holds.blocking {x : StartStage × SessionFiles P} (hx : c.Holds registry x.2 x.1)
    (hcleans : ∀ e, c.Holds registry files (.cleans e)) :
    c.Holds registry (c.blocking files stage x).2 (c.blocking files stage x).1 := by
  unfold Starter.blocking
  cases c.panics stage with
  | some message => exact hcleans _
  | none => exact hx

/-- **One step of the call that has the file**: it still has it, or has left nothing. -/
theorem Holds.next (hremove : c.io.removeFile = .ok ()) (h : c.Holds registry files stage) :
    c.Holds registry (c.next files stage).2 (c.next files stage).1 ∨
      ¬(c.next files stage).1.Owns ∧ (c.next files stage).2.Free registry := by
  have hledger := h.ledger
  cases stage with
  | checks | claims | refused => exact h.elim
  | loads =>
    obtain ⟨hread, hclean⟩ := h
    refine .inl (.blocking ?_ fun _ => ⟨hledger, hclean⟩)
    cases hload : c.load with
    | ok loaded => exact ⟨hload, hread, hclean⟩
    | error e => exact ⟨hledger, hclean⟩
  | opens profile loadPath =>
    obtain ⟨hload, hread, hclean⟩ := h
    refine .inl (.blocking ?_ fun _ => ⟨hledger, hclean⟩)
    cases c.io.ledgerNew with
    | error e => exact ⟨hledger, hclean⟩
    | ok _ =>
      -- the file at the path is the empty one that the claim has created
      obtain ⟨n, hn⟩ := Option.isSome_iff_exists.mp hledger
      have hopen : files.openLedger = (n, files) := by
        rw [SessionFiles.openLedger, hn]
      rw [hopen]
      refine ⟨hload, hn, ?_, hclean⟩
      rw [SessionFiles.read_eq hn] at hread
      rw [Option.some.inj hread]
      rfl
  | appends fd todo profile loadPath =>
    obtain ⟨hload, hfd, htodo, hclean⟩ := h
    cases todo with
    | cons e todo =>
      refine .inl (.blocking ⟨hload, hfd, ?_, hclean⟩ fun _ => ⟨hledger, hclean⟩)
      show (files.append fd e).contents fd ++ todo = _
      rw [SessionFiles.append_contents, List.append_assoc, ← htodo]
      rfl
    | nil =>
      refine .inl (.blocking ?_ fun _ => ⟨hledger, hclean⟩)
      rw [List.append_nil] at htodo
      cases hview : (c.launched profile loadPath).1 with
      | ok view => exact ⟨⟨hload, hview⟩, (SessionFiles.read_eq hfd).trans (congrArg some htodo), hclean⟩
      | error e => exact ⟨hledger, hclean⟩
  | cleans e =>
    refine .inr ?_
    unfold Starter.next
    rw [hremove]
    exact ⟨id, rfl, h.2.1, h.2.2⟩
  | inserts profile loadPath view =>
    obtain ⟨hlaunched, hread, hclean⟩ := h
    refine .inl ?_
    unfold Starter.next
    dsimp only
    split
    · exact ⟨hledger, hclean⟩
    · exact ⟨hlaunched, hread⟩
  | writes profile loadPath view =>
    refine .inl ?_
    unfold Starter.next
    cases c.io.writeSidecar with
    | ok _ => exact ⟨profile, loadPath, h⟩
    | error _ => exact ⟨profile, loadPath, h⟩
  | started view => exact .inl h

end Starter

/-! ## All the calls -/

/-- The starts `ι`, and the files they share. -/
abbrev Race (ι P : Type) := Callers ι (SessionFiles P) StartStage

namespace Race

variable {F ι P : Type} [DecidableEq ι] [DecidableEq P] {sid : String} {calls : ι → Starter F P sid}
  {registry : P → Option Served} {race : Race ι P}

/-- A step of the start whose turn it is. -/
abbrev step (calls : ι → Starter F P sid) : Race ι P → ι → Race ι P :=
  Callers.step fun i => (calls i).next

/-- At most one call has the file: what it finds there is its own doing. -/
inductive Fair (calls : ι → Starter F P sid) (registry : P → Option Served) (race : Race ι P) :
    Prop where
  | free (nothing : race.shared.Free registry) (idle : ∀ i, ¬(race.place i).Owns) :
      Fair calls registry race
  | held (i : ι) (holds : (calls i).Holds registry race.shared (race.place i))
      (idle : ∀ j, j ≠ i → ¬(race.place j).Owns) : Fair calls registry race

/-- **One step of any call.** -/
theorem Fair.step (hremove : ∀ i, (calls i).io.removeFile = .ok ()) (h : Fair calls registry race)
    (i : ι) : Fair calls registry (race.step calls i) := by
  cases h with
  | free nothing idle =>
    rcases (calls i).next_idle race.shared (idle i) with ⟨howns, hfiles⟩ | ⟨-, hnext⟩
    · refine .free ?_ (Callers.step_places (Q := fun _ stage => ¬StartStage.Owns stage) howns fun j _ => idle j)
      show ((calls i).next race.shared (race.place i)).2.Free registry
      rwa [hfiles]
    · -- the call has created the file
      refine .held i ?_ fun j hj => ?_
      · rw [Callers.step_self]
        show (calls i).Holds registry ((calls i).next race.shared (race.place i)).2 _
        rw [hnext]
        exact ⟨SessionFiles.create_read, nothing.sidecar, nothing.registry⟩
      · rw [Callers.step_other hj]
        exact idle j
  | held k holds idle =>
    by_cases hik : i = k
    · subst hik
      rcases holds.next (hremove i) with hholds | ⟨howns, hfree⟩
      · refine .held i ?_ fun j hj => ?_
        · rw [Callers.step_self]
          exact hholds
        · rw [Callers.step_other hj]
          exact idle j hj
      · exact .free hfree (Callers.step_places (Q := fun _ stage => ¬StartStage.Owns stage) howns idle)
    · rcases (calls i).next_idle race.shared (idle i hik) with ⟨howns, hfiles⟩ | ⟨hnone, -⟩
      · refine .held k ?_ (Callers.step_places (Q := fun j stage => j ≠ k → ¬StartStage.Owns stage)
          (fun _ => howns) fun j _ => idle j)
        rw [Callers.step_other (Ne.symm hik)]
        show (calls k).Holds registry ((calls i).next race.shared (race.place i)).2 _
        rwa [hfiles]
      · -- the file is there, so nobody creates it
        have hledger := holds.ledger
        rw [hnone] at hledger
        cases hledger

/-- **One winner, and losers leave nothing.** In every state of every run of starts on one
session, from a directory without its ledger and its sidecar and with any registries: at
most one call has answered; the ledger is then what that call's start has appended, which
is its `SessionStarted` and the challenge of a gate; a call that removes the ledger is the
only one that has claimed it; and once all have returned and none has answered, there is
no ledger and no sidecar, and the registries are what they were. -/
theorem one_winner (hremove : ∀ i, (calls i).io.removeFile = .ok ()) {files : SessionFiles P}
    (hledger : files.ledger = none) (hsidecar : files.sidecar = none) (turns : List ι) :
    let race := turns.foldl (step calls) ⟨files, fun _ => .checks⟩
    (∀ i j view view', race.place i = .started view → race.place j = .started view' → i = j) ∧
    (∀ i view, race.place i = .started view → ∃ profile loadPath,
      (calls i).Launched profile loadPath view ∧
      race.shared.read = some ((calls i).launched profile loadPath).2.ledger.events ∧
      ((calls i).engine profile loadPath).StartEvents sid (calls i).req.initialContext
        ((calls i).launched profile loadPath).2.ledger.events) ∧
    (∀ i j e, race.place j = .cleans e → (race.place i).Owns → i = j) ∧
    ((∀ i, (race.place i).Ended) → (∀ i view, race.place i ≠ .started view) →
      race.shared.Free files.registry) := by
  intro race
  have hfair : Fair calls files.registry race := by
    refine Callers.run (fun _ i h => h.step hremove i) ?_ turns
    exact .free ⟨hledger, hsidecar, rfl⟩ fun _ => id
  have howner : ∀ {i j}, (race.place i).Owns → (race.place j).Owns → i = j := by
    intro i j hi hj
    cases hfair with
    | free _ idle => exact absurd hi (idle i)
    | held k _ idle =>
      by_contra hij
      by_cases hik : i = k
      · exact idle j (fun hjk => hij (hik.trans hjk.symm)) hj
      · exact idle i hik hi
  refine ⟨fun i j view view' hi hj => ?_, fun i view hi => ?_, fun i j e hj hi => ?_,
    fun hended hnone => ?_⟩
  · exact howner (by rw [hi]; trivial) (by rw [hj]; trivial)
  · cases hfair with
    | free _ idle => exact absurd (show (race.place i).Owns by rw [hi]; trivial) (idle i)
    | held k holds idle =>
      obtain rfl : i = k := by
        by_contra hik
        exact idle i hik (by rw [hi]; trivial)
      rw [hi] at holds
      obtain ⟨profile, loadPath, hlaunched, hread⟩ := holds
      exact ⟨profile, loadPath, hlaunched, hread,
        ProfileFsmEngine.startEvents_of_ok rfl hlaunched.answered⟩
  · exact howner hi (by rw [hj]; trivial)
  · cases hfair with
    | free nothing _ => exact nothing
    | held k holds _ =>
      have hend := hended k
      cases hstage : race.place k with
      | started view => exact absurd hstage (hnone k view)
      | refused e =>
        rw [hstage] at holds
        exact holds.elim
      | _ =>
        rw [hstage] at hend
        exact hend.elim

end Race

/-! ## Two processes -/

namespace Sample

/-- Two processes are asked for `s1`; the first one's profile cannot be read. -/
def rivals (i : Bool) : Starter (List Component) Bool "s1" where
  process := i
  gw := gateway
  io := if i then io else { io with load := fun _ => .error "no such file" }
  req := ⟨"sample", some "s1", none⟩
  names := by cases i <;> rfl

/-- Nothing of the session anywhere. -/
def noFiles : SessionFiles Bool := ⟨none, fun _ => [], 0, none, fun _ => none⟩

/-- The second passes its checks while the first has the claim, and claims the session once
the first has given it up. -/
def rivalTurns : List Bool :=
  [false, false, true, false, false] ++ List.replicate 8 true

end Sample

namespace Race

theorem one_winner_second :
    let race := Sample.rivalTurns.foldl (step Sample.rivals) ⟨Sample.noFiles, fun _ => .checks⟩
    ∃ profile loadPath,
      race.shared.read = some ((Sample.rivals true).launched profile loadPath).2.ledger.events ∧
      ((Sample.rivals true).engine profile loadPath).StartEvents "s1" none
        ((Sample.rivals true).launched profile loadPath).2.ledger.events := by
  have hremove : ∀ i, (Sample.rivals i).io.removeFile = .ok () := fun i => by cases i <;> rfl
  have hledger : Sample.noFiles.ledger = none := rfl
  have hwinner := (one_winner hremove hledger rfl Sample.rivalTurns).2.1 true _ rfl
  obtain ⟨profile, loadPath, -, hread, hevents⟩ := hwinner
  exact ⟨profile, loadPath, hread, hevents⟩

end Race

end ProtocolEnforcer
