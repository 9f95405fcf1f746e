import ProtocolEnforcer.Fsm.Departures
import ProtocolEnforcer.Fsm.SignedOff

/-!
# A retry moves a session at most once

A client that got no answer submits again: after an error, after a crash at whatever append,
after a recovery. However often it submits at one position, the session leaves that position
at most once, and once it has, every further submission there is refused.
-/

namespace ProtocolEnforcer

open Relation

/-- The call of a client that stays with the position `pos`: it submits there, stores, or has
the session recovered. -/
def Call.RetriesAt (pos : Position) : Call → Prop
  | .start _ => False
  | .submit pos' _ _ => pos' = pos
  | .store _ _ _ | .recover => True

/-- The same of an act, which may be a crash in such a call. -/
def Act.RetriesAt (pos : Position) : Act → Prop
  | .call _ request | .crash _ request _ => request.RetriesAt pos

namespace ProfileFsmEngine

variable (engine : ProfileFsmEngine) (sid : String) (base : List FsmEvent) (pos : Position)

/-- A session recovered from `es` is not at `pos`. -/
def LeftBehind (es : List FsmEvent) : Prop :=
  ∀ s, replayEvents sid engine.profile es = .ok (some s) → s.position ≠ some pos

/-- Behind `base` nobody has left a position, or one has been left for good. -/
def LeftOnce (es : List FsmEvent) : Prop :=
  ∃ tail, es = base ++ tail ∧
    (departures tail = 0 ∨ departures tail = 1 ∧ LeftBehind engine sid pos es)

/-- A moment of a submission at `pos`. -/
inductive Leaving (c : Snapshot) : Prop where
  | still (s tail) (live : c.live = some s) (here : s.position = some pos)
      (events : c.events = base ++ tail) (zero : departures tail = 0)
      (unlanded : ∀ i j, c.stage ≠ .landed i j)
  | left (s tail) (live : c.live = some s) (gone : s.position ≠ some pos)
      (events : c.events = base ++ tail) (once : departures tail = 1)
      (landed : c.stage = .settled ∨ ∃ i j, c.stage = .landed i j)

variable {engine sid base pos} {ed : Ed25519} {host : Host} {call : Call} {c d : Snapshot}
  {w : World SessionLedger} {es : List FsmEvent} {e : FsmEvent} {s t : SessionState}

/-- An event that leaves the session where it is. -/
theorem Leaving.stay {stage : Stage} {tail : List FsmEvent} (he : e.departs = false)
    (here : t.position = some pos) (events : es = base ++ tail) (zero : departures tail = 0)
    (unlanded : ∀ i j, stage ≠ .landed i j) : Leaving base pos ⟨some t, es ++ [e], stage⟩ :=
  .still t (tail ++ [e]) rfl here (by rw [events, List.append_assoc])
    ((departures_other he).trans zero) unlanded

/-- An event with which it leaves. -/
theorem Leaving.go {stage : Stage} {tail : List FsmEvent} (he : e.departs = true)
    (gone : t.position ≠ some pos) (events : es = base ++ tail) (zero : departures tail = 0)
    (landed : stage = .settled ∨ ∃ i j, stage = .landed i j) :
    Leaving base pos ⟨some t, es ++ [e], stage⟩ :=
  .left t (tail ++ [e]) rfl gone (by rw [events, List.append_assoc])
    (by rw [departures_departs he, zero]) landed

/-- Different indices, different positions. -/
theorem place_ne {i j i' j' : Nat} (wf : engine.profile.WellFormed ed)
    (h : engine.profile.InRange i j) (h' : engine.profile.InRange i' j') (hne : i = i' → j ≠ j') :
    some (engine.profile.place i j) ≠ some (engine.profile.place i' j') := by
  intro heq
  obtain ⟨hi, hj⟩ := place_inj wf h h' (Option.some.inj heq)
  exact hne hi hj

/-- **One step.** -/
theorem Leaving.step {evidence : ChecklistEvidence} {output : Option Json}
    (wf : engine.profile.WellFormed ed) (h : Leaving base pos c)
    (hstep : Step engine host sid (.submit pos evidence output) c d) : Leaving base pos d := by
  cases h with
  | still s tail live here events zero unlanded =>
    -- whatever step leaves the position leaves it for another
    cases hstep with
    | start hcall | unborn hcall | abort hcall | store _ hcall | recover hcall => cases hcall
    | arrive | issue => exact absurd rfl (unlanded _ _)
    | @advance s' pos' i j k next t es stage placed hstage hk hnext =>
      obtain rfl := Option.some.inj live
      obtain rfl := Option.some.inj (here.symm.trans placed.here)
      obtain ⟨hi, hj, rfl⟩ := locate_ok placed.located
      have hafter := wf.nextEnabled ⟨hi, hj⟩ (not_checklist_of_advance hstage)
      rw [← hk] at hafter
      subst hnext
      exact .go rfl (place_ne wf (.of_enabled hi hafter.here) ⟨hi, hj⟩ fun _ => hafter.lt.ne')
        events zero (Or.inr ⟨_, _, rfl⟩)
    | @loopBack s' pos' i j k target t es placed checklist hloops hk htarget =>
      obtain rfl := Option.some.inj live
      obtain rfl := Option.some.inj (here.symm.trans placed.here)
      obtain ⟨hi, hj, rfl⟩ := locate_ok placed.located
      obtain ⟨⟨sub, hsub, -, hexec⟩, -⟩ := firstEnabledExecuteIndex_spec hk
      subst htarget
      refine .go rfl (place_ne wf (.of_loopTarget hi hk) ⟨hi, hj⟩ fun _ => ?_) events zero
        (Or.inl rfl)
      rintro rfl
      rw [Profile.typeAt_eq hsub, hexec] at checklist
      cases checklist
    | @nextMacro s' pos' i j k next t es placed checklist hlast hk hnext =>
      obtain rfl := Option.some.inj live
      obtain rfl := Option.some.inj (here.symm.trans placed.here)
      obtain ⟨hi, hj, rfl⟩ := locate_ok placed.located
      subst hnext
      refine .go rfl (place_ne wf (.of_enabled hlast (wf.firstEnabled hlast hk).here) ⟨hi, hj⟩ ?_)
        events zero (Or.inr ⟨_, _, rfl⟩)
      intro heq
      omega
    | complete =>
      exact .go rfl nofun events zero (Or.inl rfl)
    | strike =>
      obtain rfl := Option.some.inj live
      exact .still _ tail rfl here events zero nofun
    | approve | refuse | trip | reject | pass | violate =>
      obtain rfl := Option.some.inj live
      exact .stay rfl here events zero nofun
  | left s tail live gone events once landed =>
    cases hstep with
    | start hcall | unborn hcall | abort hcall | store _ hcall | recover hcall => cases hcall
    | arrive =>
      exact .left s tail live gone events once (Or.inl rfl)
    | issue =>
      obtain rfl := Option.some.inj live
      obtain rfl : _ = base ++ tail := events
      exact .left _ _ rfl gone (List.append_assoc ..) ((departures_other rfl).trans once) (Or.inl rfl)
    -- every other step begins at another stage
    | advance _ hstage =>
      rcases hstage with ⟨rfl, -⟩ | ⟨rfl, -⟩ <;> rcases landed with h | ⟨_, _, h⟩ <;> cases h
    | trip _ _ hstage =>
      rcases hstage with ⟨rfl, -⟩ | ⟨rfl, -⟩ | ⟨rfl, -⟩ <;> rcases landed with h | ⟨_, _, h⟩ <;>
        cases h
    | approve | refuse | strike | reject | loopBack | pass | nextMacro | complete | violate =>
      rcases landed with h | ⟨_, _, h⟩ <;> cases h

/-! ## Calls -/

/-- A submission where the session is not, is refused. -/
theorem perform_refused {evidence : ChecklistEvidence} {output : Option Json}
    (h : ∀ s, w.sessions sid = some s → s.status = .active → s.position ≠ some pos) :
    ∃ e, perform engine sid host (.submit pos evidence output) w = (.error e, w) := by
  have submission := @exec_submitMilestone engine host sid pos evidence output w
  have hcheck : ∀ s, checkSubmission sid pos (w.sessions sid) ≠ .ok s := by
    intro s hs
    obtain ⟨hs, active, here⟩ := checkSubmission_ok.mp hs
    exact h s hs active here
  generalize hout : Effect.exec (submitMilestone engine host sid pos evidence output) w = out
  rw [hout] at submission
  cases submission with
  | refused fails => exact ⟨_, perform_submit hout⟩
  | late hc => exact absurd hc (hcheck _)
  | handled hc => exact absurd hc (hcheck _)

/-- What is in memory stands where what is recovered does. -/
theorem LeftBehind.live (h : LeftBehind engine sid pos w.ledger.events)
    (anchor : AnchorHolds engine sid (snap sid w .ready)) (hs : w.sessions sid = some s) :
    s.position ≠ some pos := by
  intro here
  rw [snap_of_session hs] at anchor
  obtain ⟨f, -, ⟨s₀, hs₀, hsame⟩, -, -, hpos, -⟩ := anchor.fold
  obtain ⟨f, rfl, rfl⟩ := Option.map_eq_some_iff.mp hsame
  exact h f hs₀ (hpos.symm.trans here)

/-- What is recovered behind an artifact is where it was. -/
theorem LeftBehind.stored {artifactRef : ArtifactRef} (h : LeftBehind engine sid pos es)
    (hty : e.eventType = .artifactStored artifactRef) : LeftBehind engine sid pos (es ++ [e]) := by
  intro s hs
  obtain ⟨before, hbefore, hstep⟩ := replayEvents_snoc_ok hs
  cases before with
  | none =>
    unfold recoverStep at hstep
    rw [hty] at hstep
    cases hstep
  | some s' =>
    unfold recoverStep recoverEvent at hstep
    rw [hty] at hstep
    cases hstep
    exact h s' hbefore

/-- A moment of a submission at `pos` has left it at most once. -/
theorem Leaving.leftOnce (h : Leaving base pos c) (anchor : AnchorHolds engine sid c) :
    LeftOnce engine sid base pos c.events := by
  cases h with
  | still s tail live here events zero => exact ⟨tail, events, Or.inl zero⟩
  | left s tail live gone events once =>
    refine ⟨tail, events, Or.inr ⟨once, fun f hf => ?_⟩⟩
    obtain ⟨hnone, -⟩ | ⟨f', -, hfold, -, -, hlive⟩ := anchor
    · rw [live] at hnone
      cases hnone
    -- what is recovered stands where memory does
    · obtain rfl := Option.some.inj (hfold.unique ⟨_, hf, rfl⟩)
      intro hpos
      exact gone ((hlive s live).1.trans hpos)

/-- **A call of such a client, at every moment of it.** -/
theorem LeftOnce.moment (wf : engine.profile.WellFormed ed)
    (anchor : AnchorHolds engine sid (snap sid w .ready))
    (h : LeftOnce engine sid base pos w.ledger.events) (hcall : call.RetriesAt pos)
    (hle : w.ledger.events <+: es)
    (hle' : es <+: (perform engine sid host call w).2.ledger.events) :
    LeftOnce engine sid base pos es := by
  have same (hsame : (perform engine sid host call w).2.ledger.events = w.ledger.events) :
      LeftOnce engine sid base pos es := by
    rw [hsame] at hle'
    rwa [← hle.eq_of_length_le hle'.length_le]
  cases call with
  | start => exact hcall.elim
  | recover => exact same (exec_recoverSession).events
  | store stepId data mimeType =>
    have storing := @exec_storeArtifact engine host sid stepId data mimeType w
    unfold perform at same hle'
    dsimp only at same hle'
    generalize Effect.exec (storeArtifact engine host sid stepId data mimeType) w = out at *
    cases storing with
    | failed | refused => exact same rfl
    | stored hs active taken =>
      rcases List.prefix_concat_iff.mp hle' with rfl | hle'
      · obtain ⟨tail, events, hleft⟩ := h
        exact ⟨tail ++ [_], by rw [events, List.append_assoc],
          hleft.imp (departures_other rfl).trans fun ⟨once, gone⟩ =>
            ⟨(departures_other rfl).trans once, gone.stored rfl⟩⟩
      · rwa [← hle.eq_of_length_le hle'.length_le]
  | submit pos' evidence output =>
    obtain rfl : pos' = pos := hcall
    by_cases hat : ∃ s, w.sessions sid = some s ∧ s.status = .active ∧ s.position = some pos'
    · obtain ⟨s, hs, active, here⟩ := hat
      obtain ⟨tail, events, hleft⟩ := h
      have zero : departures tail = 0 := hleft.resolve_right fun ⟨_, gone⟩ => gone.live anchor hs here
      have hbegin : Leaving base pos' (snap sid w .ready) := by
        rw [snap_of_session hs]
        exact .still _ tail rfl here events zero nofun
      obtain ⟨stage, course, -⟩ := @perform_course engine host sid (.submit pos' evidence output) w
      obtain ⟨c, hreach, -, rfl⟩ := Runs.passes_prefix (step_growing engine host sid _) course hle hle'
      obtain ⟨hleaving, hanchor⟩ := Runs.invariant
        (P := fun c => Leaving base pos' c ∧ AnchorHolds engine sid c)
        (fun hstep hc => ⟨hc.1.step wf hstep, hc.2.step wf hstep⟩) hreach ⟨hbegin, anchor⟩
      exact hleaving.leftOnce hanchor
    · obtain ⟨e, he⟩ : ∃ e, perform engine sid host (.submit pos' evidence output) w = (.error e, w) :=
        perform_refused fun s hs active here => hat ⟨s, hs, active, here⟩
      exact same (congrArg (fun r => r.2.ledger.events) he)

/-! ## Runs -/

/-- A run of calls and crashes keeps memory where the ledger's last anchor says. -/
theorem AnchorHolds.run (wf : engine.profile.WellFormed ed)
    (h : AnchorHolds engine sid (snap sid w .ready)) (acts : List Act) :
    AnchorHolds engine sid (snap sid (acts.foldl (occur engine sid) w) .ready) :=
  occur_invariant _ _ (I := AnchorHolds engine sid) (fun hstep hc => hc.step wf hstep) id
    AnchorHolds.dies acts h

/-- A call appends. -/
theorem perform_grows : w.ledger.events <+: (perform engine sid host call w).2.ledger.events := by
  obtain ⟨stage, course, -⟩ := @perform_course engine host sid call w
  have hlog : (snap sid w .ready).events <+: (snap sid _ stage).events :=
    Runs.log_grows (step_growing engine host sid call) course
  exact hlog

theorem LeftOnce.occur {x : Act} (wf : engine.profile.WellFormed ed)
    (anchor : AnchorHolds engine sid (snap sid w .ready))
    (h : LeftOnce engine sid base pos w.ledger.events) (hx : x.RetriesAt pos) :
    LeftOnce engine sid base pos (ProfileFsmEngine.occur engine sid w x).ledger.events := by
  cases x with
  | call host call => exact h.moment wf anchor hx perform_grows List.prefix_rfl
  | crash host call n =>
    exact h.moment wf anchor hx (List.prefix_take_iff.mpr ⟨perform_grows, Nat.le_add_right _ n⟩)
      (List.take_prefix _ _)

theorem LeftOnce.run {acts : List Act} (wf : engine.profile.WellFormed ed)
    (anchor : AnchorHolds engine sid (snap sid w .ready))
    (h : LeftOnce engine sid base pos w.ledger.events) (hacts : ∀ x ∈ acts, x.RetriesAt pos) :
    LeftOnce engine sid base pos (acts.foldl (ProfileFsmEngine.occur engine sid) w).ledger.events := by
  induction acts generalizing w with
  | nil => exact h
  | cons x rest ih =>
    exact ih (anchor.run wf [x]) (h.occur wf anchor (hacts x (List.mem_cons_self ..)))
      fun y hy => hacts y (List.mem_cons_of_mem _ hy)

end ProfileFsmEngine

namespace Sample

open ProfileFsmEngine

def draftStarted : World SessionLedger :=
  occur (engine [draft, checklist]) "s1" (world fun _ => .ok ()) (.call host (.start none))

/-- A draft that is submitted, lost in a crash behind its one append, and submitted again. -/
def lostDraft : List Act :=
  [.crash host (submit "draft" .empty).2 1, .call host .recover, .call host (submit "draft" .empty).2]

def draftRetried : World SessionLedger :=
  lostDraft.foldl (occur (engine [draft, checklist]) "s1") draftStarted

theorem lostDraft_retries : ∀ x ∈ lostDraft, x.RetriesAt ⟨"plan", "draft"⟩ := by
  intro x hx
  simp only [lostDraft, List.mem_cons, List.not_mem_nil, or_false] at hx
  rcases hx with rfl | rfl | rfl
  · exact rfl
  · trivial
  · exact rfl

end Sample

namespace ProfileFsmEngine

end ProfileFsmEngine

end ProtocolEnforcer
