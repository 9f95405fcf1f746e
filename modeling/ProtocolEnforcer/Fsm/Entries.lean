import ProtocolEnforcer.Fsm.Retries
import ProtocolEnforcer.Fsm.Timeout
import ProtocolEnforcer.Ledger.Metrics

/-!
# What the entries of a ledger tell

Every entry is written for a sub-state of the profile, and of a kind that belongs there: a
rejected checklist names criteria of a checklist, a refused approval stands at a gate. Along a
run of calls and crashes the entries of a session that was started once tell where it is: none
is of a macro the session has not reached, every macro behind it has been passed, and its end
is in the ledger exactly when it has ended.
-/

namespace ProtocolEnforcer

open Relation Metrics

/-- The status a session ends in, if `e` ends it. -/
def FsmEvent.ends (e : FsmEvent) : Option SessionStatus :=
  match e.eventType with
  | .sessionCompleted _ _ => some .completed
  | .sessionFailed _ _ | .circuitBreakerTriggered _ _ => some .failed
  | _ => none

/-- How often a session is started in `es`. -/
def starts (es : List FsmEvent) : Nat := es.countP (·.startTime.isSome)

theorem starts_le_snoc {es : List FsmEvent} {e : FsmEvent} : starts es ≤ starts (es ++ [e]) := by
  rw [starts, starts, List.countP_append]
  exact Nat.le_add_right _ _

theorem starts_start {es : List FsmEvent} {e : FsmEvent} (h : e.startTime.isSome = true) :
    starts (es ++ [e]) = starts es + 1 := by
  rw [starts, starts, List.countP_append, List.countP_singleton, if_pos h]

/-- What has been recovered has been started. -/
theorem starts_pos {sid : String} {profile : Profile} {es : List FsmEvent} {s : SessionState}
    (h : replayEvents sid profile es = .ok (some s)) : 0 < starts es := by
  have hlast := lastStart_of_replay h
  clear h
  rw [starts, List.countP_pos_iff]
  induction es using List.reverseRecOn with
  | nil => cases hlast
  | append_singleton es e ih =>
    rw [lastStart_snoc, startStep] at hlast
    cases he : e.startTime with
    | some t => exact ⟨e, List.mem_append_right _ (List.mem_singleton_self e), by rw [he]; rfl⟩
    | none =>
      rw [he] at hlast
      obtain ⟨e', hmem, hsome⟩ := ih hlast
      exact ⟨e', List.mem_append_left _ hmem, hsome⟩

namespace ProfileFsmEngine

variable (engine : ProfileFsmEngine) (sid : String)

/-- What an event may be that is written for the sub-state with these indices. -/
def Fits (i j : Nat) : FsmEventType → Prop
  | .sessionStarted pipelineId _ _ => pipelineId = engine.profile.name
  | .milestoneRejected items _ _ => engine.profile.typeAt i j = .checklist ∧
      ∀ x ∈ items, x ∈ criteriaAt engine i j
  | .milestoneAccepted _ | .sessionCompleted _ _ | .outputContractViolated _ =>
    engine.profile.typeAt i j = .checklist
  | .approvalRejected _ _ _ => engine.profile.typeAt i j = .humanApproval
  | _ => True

section

variable {engine} {i j : Nat} {eventType : FsmEventType}

/-- Checklists are what is passed, -/
theorem Fits.passed (h : Fits engine i j eventType) (hpass : isPassEvent eventType = true) :
    engine.profile.typeAt i j = .checklist := by
  cases eventType with
  | milestoneAccepted | sessionCompleted => exact h
  | _ => cases hpass

/-- and what refuses is a checklist, or a gate that refuses an approval, -/
theorem Fits.refused (h : Fits engine i j eventType) (hrefusal : Metrics.isRefusal eventType = true) :
    if isApprovalRejected eventType then engine.profile.typeAt i j = .humanApproval
    else engine.profile.typeAt i j = .checklist := by
  cases eventType with
  | milestoneRejected => exact h.1
  | approvalRejected | outputContractViolated => exact h
  | _ => cases hrefusal

/-- for want of its own criteria. -/
theorem Fits.items (h : Fits engine i j eventType) {x : String} (hx : x ∈ rejectedItems eventType) :
    x ∈ criteriaAt engine i j := by
  cases eventType with
  | milestoneRejected => exact h.2 x hx
  | _ => cases hx

end

/-- An event written for the sub-state with these indices. -/
structure Entry (i j : Nat) (e : FsmEvent) : Prop where
  inRange : engine.profile.InRange i j
  session : e.sessionId = sid
  step : e.stepId = some (engine.profile.place i j).stepId
  fits : Fits engine i j e.eventType

/-- The ledger passes a checklist of macro `i`. -/
def PassedIn (es : List FsmEvent) (i : Nat) : Prop :=
  ∃ e ∈ es, isPassEvent e.eventType = true ∧ ∃ j, Entry engine sid i j e

/-- Macro `i` is the furthest that is reached, and those before it have been passed. -/
structure UpTo (es : List FsmEvent) (i : Nat) : Prop where
  entries : ∀ e ∈ es, ∃ i' ≤ i, ∃ j, Entry engine sid i' j e
  behind : ∀ i' < i, PassedIn engine sid es i'

/-- What the entries tell of the session `s`. -/
structure Told (es : List FsmEvent) (s : SessionState) : Prop where
  entries : ∀ e ∈ es, ∃ i j, Entry engine sid i j e
  located : s.status = .active →
    ∃ i j, engine.profile.InRange i j ∧ s.position = some (engine.profile.place i j)
  upTo : ∀ i j, engine.profile.InRange i j → s.position = some (engine.profile.place i j) →
    UpTo engine sid es i
  done : s.status = .completed → ∀ i < engine.profile.pipeline.length, PassedIn engine sid es i
  ends : ∀ e ∈ es, ∀ status ∈ e.ends, s.status = status
  ended : s.status ≠ .active → ∃ e ∈ es, e.ends = some s.status

/-- The invariant of every moment: what recovery makes of a ledger with one start is told by
its entries, and a checklist that has just been accepted is passed. -/
def Tells (c : Snapshot) : Prop :=
  starts c.events ≤ 1 → ∀ s, Folds engine sid c.events (some s) → Told engine sid c.events s ∧
    (c.stage = .passed → ∀ i j, engine.profile.typeAt i j = .checklist →
      s.position = some (engine.profile.place i j) → PassedIn engine sid c.events i)

variable {engine sid}

section

variable {es : List FsmEvent} {e : FsmEvent} {s t : SessionState} {stage : Stage} {i j k : Nat}

theorem PassedIn.snoc (h : PassedIn engine sid es i) : PassedIn engine sid (es ++ [e]) i := by
  obtain ⟨e', he', hpassed⟩ := h
  exact ⟨e', List.mem_append_left _ he', hpassed⟩

theorem PassedIn.now (h : Entry engine sid i j e) (hpass : isPassEvent e.eventType = true) :
    PassedIn engine sid (es ++ [e]) i :=
  ⟨e, List.mem_append_right _ (List.mem_singleton_self e), hpass, j, h⟩

theorem UpTo.snoc (h : UpTo engine sid es i) {i' : Nat} (entry : Entry engine sid i' j e)
    (hle : i' ≤ i) : UpTo engine sid (es ++ [e]) i where
  entries e' he' := by
    rcases List.mem_append.mp he' with he' | he'
    · exact h.entries e' he'
    · exact List.mem_singleton.mp he' ▸ ⟨i', hle, j, entry⟩
  behind i' hlt := (h.behind i' hlt).snoc

/-- The next macro, once this one is passed. -/
theorem UpTo.next (h : UpTo engine sid es i) (passed : PassedIn engine sid es i) :
    UpTo engine sid es (i + 1) where
  entries e he := by
    obtain ⟨i', hle, hentry⟩ := h.entries e he
    exact ⟨i', hle.trans (Nat.le_succ i), hentry⟩
  behind i' hlt := by
    rcases Nat.lt_succ_iff_lt_or_eq.mp hlt with hlt | rfl
    · exact h.behind i' hlt
    · exact passed

/-- Nothing ends a session that is active. -/
theorem Told.unended (h : Told engine sid es s) (active : s.status = .active) :
    ∀ e ∈ es, e.ends = none := by
  intro e he
  cases hends : e.ends with
  | none => rfl
  | some status =>
    have hstatus : s.status = status := h.ends e he status hends
    rw [active] at hstatus
    subst hstatus
    unfold FsmEvent.ends at hends
    split at hends <;> cases hends

/-- What is told of a session is told of any at the same place with the same status. -/
theorem Told.congr (h : Told engine sid es s) (hpos : t.position = s.position)
    (hstatus : t.status = s.status) : Told engine sid es t where
  entries := h.entries
  located active := hpos ▸ h.located (hstatus.symm.trans active)
  upTo i j hrange here := h.upTo i j hrange (hpos.symm.trans here)
  done hdone := h.done (hstatus.symm.trans hdone)
  ends e he status hends := hstatus.trans (h.ends e he status hends)
  ended hended := hstatus ▸ h.ended (hstatus ▸ hended)

/-- A session that is under way. -/
theorem Told.underway {ed : Ed25519} (wf : engine.profile.WellFormed ed)
    (hrange : engine.profile.InRange i j) (here : s.position = some (engine.profile.place i j))
    (active : s.status = .active) (upTo : UpTo engine sid es i)
    (unended : ∀ e ∈ es, e.ends = none) : Told engine sid es s where
  entries e he := by
    obtain ⟨i', -, hentry⟩ := upTo.entries e he
    exact ⟨i', hentry⟩
  located _ := ⟨i, j, hrange, here⟩
  upTo i' j' hrange' here' := by
    obtain ⟨rfl, -⟩ := place_unique wf hrange hrange' here here'
    exact upTo
  done hdone := by
    rw [active] at hdone
    cases hdone
  ends e he status hends := by
    rw [Option.mem_def, unended e he] at hends
    cases hends
  ended hended := absurd active hended

theorem unended_snoc (h : ∀ e' ∈ es, e'.ends = none) (he : e.ends = none) :
    ∀ e' ∈ es ++ [e], e'.ends = none := by
  intro e' he'
  rcases List.mem_append.mp he' with he' | he'
  · exact h e' he'
  · exact List.mem_singleton.mp he' ▸ he

/-- One more entry where the session is, which leaves it there. -/
theorem Told.snoc {ed : Ed25519} (wf : engine.profile.WellFormed ed) (h : Told engine sid es s)
    (here : s.position = some (engine.profile.place i j)) (entry : Entry engine sid i j e)
    (he : e.ends = none) : Told engine sid (es ++ [e]) s where
  entries e' he' := by
    obtain ⟨i', -, hentry⟩ :=
      ((h.upTo i j entry.inRange here).snoc entry le_rfl).entries e' he'
    exact ⟨i', hentry⟩
  located := h.located
  upTo i' j' hrange' here' := by
    obtain ⟨rfl, -⟩ := place_unique wf entry.inRange hrange' here here'
    exact (h.upTo i j entry.inRange here).snoc entry le_rfl
  done hdone i' hi' := (h.done hdone i' hi').snoc
  ends e' he' status hends := by
    rcases List.mem_append.mp he' with he' | he'
    · exact h.ends e' he' status hends
    · rw [List.mem_singleton.mp he', Option.mem_def, he] at hends
      cases hends
  ended hended := by
    obtain ⟨e', he', hends⟩ := h.ended hended
    exact ⟨e', List.mem_append_left _ he', hends⟩

/-- The entry that ends it. -/
theorem Told.end {ed : Ed25519} (wf : engine.profile.WellFormed ed) (h : Told engine sid es s)
    (active : s.status = .active) (here : s.position = some (engine.profile.place i j)) (entry : Entry engine sid i j e)
    (he : e.ends = some t.status) (hended : t.status ≠ .active)
    (hpos : t.position = s.position ∨ t.position = none)
    (hdone : t.status = .completed → i + 1 = engine.profile.pipeline.length ∧
      isPassEvent e.eventType = true) : Told engine sid (es ++ [e]) t := by
  have upTo := h.upTo i j entry.inRange here
  refine ⟨fun e' he' => ?_, fun ht => absurd ht hended, fun i' j' hrange' here' => ?_,
    fun hcompleted i' hi' => ?_, fun e' he' status hends => ?_,
    fun _ => ⟨e, List.mem_append_right _ (List.mem_singleton_self e), he⟩⟩
  · obtain ⟨i', -, hentry⟩ := (upTo.snoc entry le_rfl).entries e' he'
    exact ⟨i', hentry⟩
  · rcases hpos with hpos | hpos
    · obtain ⟨rfl, -⟩ := place_unique wf entry.inRange hrange' here (hpos.symm.trans here')
      exact upTo.snoc entry le_rfl
    · rw [hpos] at here'
      cases here'
  · obtain ⟨hlast, hpass⟩ := hdone hcompleted
    rcases Nat.lt_succ_iff_lt_or_eq.mp (hlast ▸ hi') with hlt | rfl
    · exact (upTo.behind i' hlt).snoc
    · exact .now entry hpass
  · rcases List.mem_append.mp he' with he' | he'
    · rw [Option.mem_def, h.unended active e' he'] at hends
      cases hends
    · rw [List.mem_singleton.mp he', Option.mem_def, he] at hends
      exact Option.some.inj hends

/-! ## One step -/

/-- A session in memory stands where the recovered one does, so either can be looked at. -/
theorem Tells.iff_live (anchor : AnchorHolds engine sid ⟨some t, es, stage⟩) :
    Tells engine sid ⟨some t, es, stage⟩ ↔ (starts es ≤ 1 → Told engine sid es t ∧
      (stage = .passed → ∀ i j, engine.profile.typeAt i j = .checklist →
        t.position = some (engine.profile.place i j) → PassedIn engine sid es i)) := by
  obtain ⟨f, -, hfold, -, -, hpos, hstatus⟩ := anchor.fold
  constructor
  · intro h hone
    obtain ⟨htold, hpassed⟩ := h hone f hfold
    exact ⟨htold.congr hpos hstatus,
      fun hs i j checklist here => hpassed hs i j checklist (hpos.symm.trans here)⟩
  · intro h hone f' hfold'
    obtain rfl := Option.some.inj (hfold.unique hfold')
    obtain ⟨htold, hpassed⟩ := h hone
    exact ⟨htold.congr hpos.symm hstatus.symm,
      fun hs i j checklist here => hpassed hs i j checklist (hpos.trans here)⟩

/-- A step that leaves the ledger as it is. -/
theorem Tells.silent {live live' : Option SessionState} {stage' : Stage}
    (h : Tells engine sid ⟨live, es, stage⟩) (hstage : stage' ≠ .passed) :
    Tells engine sid ⟨live', es, stage'⟩ :=
  fun hone f hfold => ⟨(h hone f hfold).1, fun hpassed => absurd hpassed hstage⟩

/-- A step that appends one event. -/
theorem Tells.append {stage' : Stage} (h : Tells engine sid ⟨some s, es, stage⟩)
    (anchor : AnchorHolds engine sid ⟨some s, es, stage⟩)
    (anchor' : AnchorHolds engine sid ⟨some t, es ++ [e], stage'⟩) (hstage : stage' ≠ .passed)
    (htold : Told engine sid es s → (stage = .passed → ∀ i j, engine.profile.typeAt i j = .checklist →
      s.position = some (engine.profile.place i j) → PassedIn engine sid es i) →
      Told engine sid (es ++ [e]) t) : Tells engine sid ⟨some t, es ++ [e], stage'⟩ := by
  refine (Tells.iff_live anchor').mpr fun hone => ?_
  obtain ⟨hbefore, hpassed⟩ := (Tells.iff_live anchor).mp h (starts_le_snoc.trans hone)
  exact ⟨htold hbefore hpassed, fun hp => absurd hp hstage⟩

/-- What is missing of a checklist is of its criteria. -/
theorem mem_of_missingCriteria {criteria : List String} {evidence : ChecklistEvidence} {x : String}
    (h : x ∈ missingCriteria criteria evidence) : x ∈ criteria := List.mem_of_mem_filter h

/-- **One step keeps the ledger telling**; what a stored artifact is written for, a step does
not say. -/
theorem Tells.step {ed : Ed25519} {host : Host} {call : Call} {c d : Snapshot}
    (wf : engine.profile.WellFormed ed) (anchor : AnchorHolds engine sid c)
    (h : Tells engine sid c) (hcall : ∀ stepId data mime, call ≠ .store stepId data mime)
    (hstep : Step engine host sid call c d) : Tells engine sid d := by
  have anchor' := anchor.step wf hstep
  cases hstep with
  | unborn | abort | arrive | strike | recover => exact h.silent nofun
  | store _ hstore => exact absurd hstore (hcall _ _ _)
  -- the one start is the first entry
  | @start ctx m k pos t live es _ entry hpos =>
    refine (Tells.iff_live anchor').mpr fun hone => ?_
    have hnil : es = [] := by
      rcases anchor with ⟨-, hnil⟩ | ⟨s, -, ⟨s₀, hs₀, hsame⟩, -⟩
      · exact hnil
      · obtain ⟨s₁, rfl, -⟩ := Option.map_eq_some_iff.mp hsame
        have hstarted : 0 < starts es := starts_pos hs₀
        rw [starts_start rfl] at hone
        omega
    obtain ⟨rfl, hk, hlen⟩ := entryPoint_ok entry
    have hrange : engine.profile.InRange 0 k := .of_enabled hlen (wf.firstEnabled hlen hk).here
    have hplace := hpos.trans (entryPoint_place entry)
    subst hnil hplace
    refine ⟨.underway wf hrange rfl rfl ⟨fun e he => ?_, fun i' hlt => absurd hlt (Nat.not_lt_zero i')⟩
      fun e he => ?_, nofun⟩
    · exact List.mem_singleton.mp he ▸ ⟨0, le_rfl, k, hrange, rfl, rfl, rfl⟩
    · exact List.mem_singleton.mp he ▸ rfl
  | @issue s i j nonce t es pos here hpos gate minted =>
    refine h.append anchor anchor' nofun fun htold _ => ?_
    have hrange := Profile.inRange_of_typeAt (show engine.profile.typeAt i j ≠ .inject by
      rw [gate]; decide)
    subst hpos
    exact Told.congr (s := s) (htold.snoc wf here ⟨hrange, rfl, rfl, trivial⟩ rfl) rfl rfl
  | @advance s pos i j k next t es stage placed hstage hk hnext =>
    refine h.append anchor anchor' nofun fun htold _ => ?_
    obtain ⟨hi, hj, hplace⟩ := locate_ok placed.located
    have hnextEnabled := wf.nextEnabled ⟨hi, hj⟩ (not_checklist_of_advance hstage)
    have hrange : engine.profile.InRange i k := hk ▸ .of_enabled hi hnextEnabled.here
    have upTo := htold.upTo i j ⟨hi, hj⟩ (placed.here.trans (congrArg some hplace))
    subst hnext
    exact .underway wf hrange rfl placed.active (upTo.snoc ⟨hrange, rfl, rfl, trivial⟩ le_rfl)
      (unended_snoc (htold.unended placed.active) rfl)
  | @approve s pos i j signature nonce evidence output t es placed _ gate verdict =>
    refine h.append anchor anchor' nofun fun htold _ => ?_
    obtain ⟨hi, hj, rfl⟩ := locate_ok placed.located
    exact htold.snoc wf placed.here ⟨⟨hi, hj⟩, rfl, rfl, trivial⟩ rfl
  | @refuse s pos i j reason evidence output t es placed _ gate verdict =>
    refine h.append anchor anchor' nofun fun htold _ => ?_
    obtain ⟨hi, hj, rfl⟩ := locate_ok placed.located
    exact Told.congr (s := s) (htold.snoc wf placed.here ⟨⟨hi, hj⟩, rfl, rfl, gate⟩ rfl) rfl rfl
  | @trip s pos b ledgered t es stage active here hstage =>
    refine h.append anchor anchor' nofun fun htold _ => ?_
    obtain ⟨i, j, hrange, here'⟩ := htold.located active
    obtain rfl := Option.some.inj (here.symm.trans here')
    exact htold.end wf active here ⟨hrange, rfl, rfl, trivial⟩ rfl nofun (Or.inl rfl) nofun
  | @reject s pos i j missing evidence output t es placed _ checklist hmissing =>
    refine h.append anchor anchor' nofun fun htold _ => ?_
    obtain ⟨hi, hj, rfl⟩ := locate_ok placed.located
    exact htold.snoc wf placed.here ⟨⟨hi, hj⟩, rfl, rfl, checklist,
      fun x hx => mem_of_missingCriteria (hmissing ▸ hx)⟩ rfl
  | @loopBack s pos i j k target t es placed checklist hloops hk htarget =>
    refine h.append anchor anchor' nofun fun htold _ => ?_
    obtain ⟨hi, hj, hplace⟩ := locate_ok placed.located
    have hrange : engine.profile.InRange i k := .of_loopTarget hi hk
    have upTo := htold.upTo i j ⟨hi, hj⟩ (placed.here.trans (congrArg some hplace))
    subst htarget
    exact .underway wf hrange rfl placed.active (upTo.snoc ⟨hrange, rfl, rfl, trivial⟩ le_rfl)
      (unended_snoc (htold.unended placed.active) rfl)
  | @pass s pos i j evidence output t es placed _ checklist hmet =>
    refine (Tells.iff_live anchor').mpr fun hone => ?_
    obtain ⟨htold, -⟩ := (Tells.iff_live anchor).mp h (starts_le_snoc.trans hone)
    obtain ⟨hi, hj, rfl⟩ := locate_ok placed.located
    have entry : Entry engine sid i j (eventAt t sid (.milestoneAccepted none)
      (engine.profile.place i j) Json.emptyObject) := ⟨⟨hi, hj⟩, rfl, rfl, checklist⟩
    refine ⟨htold.snoc wf placed.here entry rfl, fun _ i' j' checklist' here' => ?_⟩
    obtain ⟨rfl, -⟩ := place_unique wf ⟨hi, hj⟩
      (Profile.inRange_of_typeAt (by rw [checklist']; decide)) placed.here here'
    exact .now entry rfl
  | @nextMacro s pos i j k next t es placed checklist hlast hk hnext =>
    refine h.append anchor anchor' nofun fun htold hpassed => ?_
    obtain ⟨hi, hj, hplace⟩ := locate_ok placed.located
    have here := placed.here.trans (congrArg some hplace)
    have hrange : engine.profile.InRange (i + 1) k :=
      .of_enabled hlast (wf.firstEnabled hlast hk).here
    have upTo := (htold.upTo i j ⟨hi, hj⟩ here).next (hpassed rfl i j checklist here)
    subst hnext
    exact .underway wf hrange rfl placed.active (upTo.snoc ⟨hrange, rfl, rfl, trivial⟩ le_rfl)
      (unended_snoc (htold.unended placed.active) rfl)
  | @complete s pos i j path digest t es placed checklist hlast =>
    refine h.append anchor anchor' nofun fun htold _ => ?_
    obtain ⟨hi, hj, rfl⟩ := locate_ok placed.located
    exact htold.end wf placed.active placed.here ⟨⟨hi, hj⟩, rfl, rfl, checklist⟩ rfl nofun
      (Or.inr rfl) fun _ => ⟨hlast, rfl⟩
  | @violate s pos i j reason t es placed checklist =>
    refine h.append anchor anchor' nofun fun htold _ => ?_
    obtain ⟨hi, hj, rfl⟩ := locate_ok placed.located
    exact htold.snoc wf placed.here ⟨⟨hi, hj⟩, rfl, rfl, checklist⟩ rfl

end

/-! ## Stored artifacts -/

open Effect

variable {w : World SessionLedger} {host : Host} {call : Call} {es : List FsmEvent}

/-- An artifact is ledgered for the position of an active session, if it is. -/
theorem storeArtifact_events {stepId mimeType : String} {data : Bytes} :
    (exec (storeArtifact engine host sid stepId data mimeType) w).2.ledger.events =
      w.ledger.events ∨
    ∃ s t artifactRef, w.sessions sid = some s ∧ s.status = .active ∧
      (exec (storeArtifact engine host sid stepId data mimeType) w).2.ledger.events =
        w.ledger.events ++ [eventAt t sid (.artifactStored artifactRef)
          (s.position.getD ⟨"", ""⟩) Json.emptyObject] := by
  unfold storeArtifact
  cases hs : w.sessions sid with
  | none =>
    rw [exec_bind_error (exec_getSession_none hs)]
    exact Or.inl rfl
  | some s =>
    rw [exec_bind_ok (exec_getSession hs)]
    dsimp only
    split
    · exact Or.inl rfl
    · rename_i hactive
      rcases hn : (ArtifactStore.new host.artifacts sid engine.config.artifactRoot).mapError
          FsmError.artifact with e | store
      · rw [exec_bind_error (exec_lift _ _)]
        exact Or.inl rfl
      rw [exec_bind_ok (exec_lift _ _)]
      rcases hr : (store.storeWithMime engine.vendor.sha256 host.artifacts stepId data
          mimeType).mapError FsmError.artifact with e | artifactRef
      · rw [exec_bind_error (exec_lift _ _)]
        exact Or.inl rfl
      rw [exec_bind_ok (exec_lift _ _)]
      rcases w.takes_or_refuses with ht | ⟨e, he⟩
      · rw [exec_bind_ok (exec_append_taken ht _ _ _),
          exec_bind_ok (exec_getSession (w := World.logged _ _) hs), exec_bind_ok (exec_now _ _),
          exec_bind_ok (exec_updateSession (w := World.tick (World.logged _ _)) _ hs)]
        exact Or.inr ⟨s, _, artifactRef, rfl, not_not.mp hactive, rfl⟩
      · rw [exec_bind_error (exec_append_refused he _ _ _)]
        exact Or.inl rfl

/-- A stored artifact leaves the recovered session where it is. -/
theorem Folds.stored {e : FsmEvent} {s : SessionState} {artifactRef : ArtifactRef}
    (h : Folds engine sid (es ++ [e]) (some s)) (hty : e.eventType = .artifactStored artifactRef) :
    ∃ f, Folds engine sid es (some f) ∧ s.position = f.position ∧ s.status = f.status := by
  obtain ⟨s₀, hs₀, hsame⟩ := h
  obtain ⟨s₁, rfl, rfl⟩ := Option.map_eq_some_iff.mp hsame
  obtain ⟨before, hbefore, hstep⟩ := replayEvents_snoc_ok hs₀
  unfold recoverStep at hstep
  rw [hty] at hstep
  cases before with
  | none => cases hstep
  | some f =>
    unfold recoverEvent at hstep
    rw [hty] at hstep
    cases hstep
    exact ⟨f.timeless, ⟨some f, hbefore, rfl⟩, rfl, rfl⟩

/-- The same of what the ledger tells, before and behind it. -/
theorem Tells.stored {ed : Ed25519} {stepId mimeType : String} {data : Bytes}
    (wf : engine.profile.WellFormed ed) (anchor : AnchorHolds engine sid (snap sid w .ready))
    (h : Tells engine sid (snap sid w .ready)) (hle : w.ledger.events <+: es)
    (hle' : es <+: (exec (storeArtifact engine host sid stepId data mimeType) w).2.ledger.events) :
    Tells engine sid ⟨none, es, .ready⟩ := by
  have same (hsame : es <+: w.ledger.events) : Tells engine sid ⟨none, es, .ready⟩ := by
    rw [← hle.eq_of_length_le hsame.length_le]
    exact h.silent nofun
  rcases @storeArtifact_events engine sid w host stepId mimeType data with
    hsame | ⟨l, t, artifactRef, hl, active, hgrown⟩
  · exact same (hsame ▸ hle')
  rw [hgrown] at hle'
  rcases List.prefix_concat_iff.mp hle' with rfl | hle'
  · intro hone s hfold
    obtain ⟨f, hbefore, hpos, hstatus⟩ := hfold.stored rfl
    obtain ⟨htold, -⟩ := h (starts_le_snoc.trans hone) f hbefore
    -- memory and ledger agree on where the session is
    rw [snap_of_session hl] at anchor
    obtain ⟨f', -, hfold', -, -, hlpos, hlstatus⟩ := anchor.fold
    obtain rfl := Option.some.inj (hbefore.unique hfold')
    obtain ⟨i, j, hrange, here⟩ := htold.located (hlstatus.symm.trans active)
    have hplace : l.position = some (engine.profile.place i j) := hlpos.trans here
    rw [hplace, Option.getD_some]
    exact ⟨Told.congr (s := f) (htold.snoc wf here ⟨hrange, rfl, rfl, trivial⟩ rfl) hpos hstatus,
      nofun⟩
  · exact same hle'

/-! ## Runs -/

/-- **A call, at every moment of it.** -/
theorem Tells.moment {ed : Ed25519} (wf : engine.profile.WellFormed ed)
    (anchor : AnchorHolds engine sid (snap sid w .ready))
    (h : Tells engine sid (snap sid w .ready)) (hle : w.ledger.events <+: es)
    (hle' : es <+: (perform engine sid host call w).2.ledger.events) :
    Tells engine sid ⟨none, es, .ready⟩ := by
  by_cases hstore : ∃ stepId data mime, call = .store stepId data mime
  · obtain ⟨stepId, data, mime, rfl⟩ := hstore
    unfold perform at hle'
    exact h.stored wf anchor hle hle'
  · obtain ⟨stage, course, -⟩ := @perform_course engine host sid call w
    obtain ⟨c, hreach, -, rfl⟩ := Runs.passes_prefix (step_growing engine host sid _) course hle hle'
    obtain ⟨-, htells⟩ := Runs.invariant
      (P := fun c => AnchorHolds engine sid c ∧ Tells engine sid c)
      (fun hstep hc => ⟨hc.1.step wf hstep, hc.2.step wf hc.1
        (fun stepId data mime heq => hstore ⟨stepId, data, mime, heq⟩) hstep⟩)
      hreach ⟨anchor, h⟩
    exact htells.silent nofun

theorem Tells.run {ed : Ed25519} (wf : engine.profile.WellFormed ed)
    (anchor : AnchorHolds engine sid (snap sid w .ready))
    (h : Tells engine sid (snap sid w .ready)) (acts : List Act) :
    Tells engine sid (snap sid (acts.foldl (occur engine sid) w) .ready) := by
  induction acts generalizing w with
  | nil => exact h
  | cons x rest ih =>
    refine ih (anchor.run wf [x]) ?_
    cases x with
    | call host call => exact (h.moment wf anchor perform_grows List.prefix_rfl).silent nofun
    | crash host call n =>
      exact (h.moment wf anchor (List.prefix_take_iff.mpr ⟨perform_grows, Nat.le_add_right _ n⟩)
        (List.take_prefix _ _)).silent nofun

end ProfileFsmEngine

end ProtocolEnforcer
