import Mathlib.Data.List.Nodup
import ProtocolEnforcer.Core.Sums
import ProtocolEnforcer.Types.Session

/-!
# Step metrics (`crates/ledger/src/metrics.rs`)

What an offline reader computes from the events of one session: for every step the refusals
there, whether it was passed, and how long the session stayed. The stay is summed over the
runs of the step, the stretches of the event list that lie between two changes of the step id.

The counts are the events' counts, however the steps are revisited; and if the clock never
runs backwards, the stays of all steps together are no longer than the session.
-/

namespace ProtocolEnforcer

instance : Inhabited FsmEvent where
  default :=
    { timestamp := 0, sessionId := "", eventType := .stepAdvanced "" "", stepId := none
      payload := .null }

namespace Metrics

/-- `StepMetrics`; the histogram is a `BTreeMap`, its entries in the order of their keys. -/
structure StepMetrics where
  macroId : String
  subStateId : String
  subStateType : Option String
  criteriaCount : Option Nat
  rejections : Nat
  passed : Bool
  retryCount : Nat
  rejectedCriteria : List (String × Nat)
  approvalRejections : Nat
  dwellMs : Option Int

structure SessionMetrics where
  sessionId : String
  pipelineId : Option String
  status : String
  totalRejections : Nat
  totalDwellMs : Option Int
  steps : List StepMetrics

/-- `split_step_id`: at the first `/`. -/
def splitStepId (stepId : String) : String × String :=
  match stepId.toList.dropWhile (· ≠ '/') with
  | [] => (stepId, "")
  | _ :: subId => (String.ofList (stepId.toList.takeWhile (· ≠ '/')), String.ofList subId)

/-- The sub-state that `lookup_profile` finds. -/
def lookupSub (profile : Option Profile) (macroId subStateId : String) : Option SubStateDef := do
  let profile ← profile
  let state ← profile.pipeline.find? (·.stateId = macroId)
  state.subStates.find? (·.id = subStateId)

/-- `lookup_profile`: the type and the number of criteria of a sub-state. -/
def lookupProfile (profile : Option Profile) (macroId subStateId : String) :
    Option String × Option Nat :=
  match lookupSub profile macroId subStateId with
  | none => (none, none)
  | some sub => (some sub.subStateType.display, sub.criteria.map List.length)

/-- A stretch of events with one step id; events without one lie within or between. -/
structure Run where
  stepId : String
  start : Nat
  «end» : Nat
  deriving DecidableEq

def isPassEvent : FsmEventType → Bool
  | .milestoneAccepted _ | .sessionCompleted .. => true
  | _ => false

/-- `TimeDelta::num_milliseconds`, cut towards zero. -/
def numMilliseconds (nanoseconds : Int) : Int := nanoseconds.tdiv 1000000

/-- `*entry(key).or_insert(0) += 1`. -/
def bump : List (String × Nat) → String → List (String × Nat)
  | [], key => [(key, 1)]
  | (k, n) :: rest, key =>
    if k = key then (k, n + 1) :: rest
    else if key < k then (key, 1) :: (k, n) :: rest
    else (k, n) :: bump rest key

/-! ## The loops of `compute_session_metrics` -/

/-- The distinct step ids so far, in the order in which they were first seen. -/
def seeStep (order : List String) (event : FsmEvent) : List String :=
  match event.stepId with
  | some sid => if sid ∈ order then order else order ++ [sid]
  | none => order

/-- The last run goes on, or another one starts. -/
def extendRuns (runs : List Run) : FsmEvent × Nat → List Run
  | (event, i) =>
    match event.stepId with
    | none => runs
    | some sid =>
      match runs.getLast? with
      | some r =>
        if r.stepId = sid then runs.dropLast ++ [{ r with «end» := i }]
        else runs ++ [⟨sid, i, i⟩]
      | none => runs ++ [⟨sid, i, i⟩]

/-- What is counted at one step. -/
structure Refusals where
  rejections : Nat := 0
  rejectedCriteria : List (String × Nat) := []
  approvalRejections : Nat := 0

def countRefusal (acc : Refusals) (event : FsmEvent) : Refusals :=
  match event.eventType with
  | .milestoneRejected rejectedItems _ _ =>
    { acc with
      rejections := acc.rejections + 1
      rejectedCriteria := rejectedItems.foldl bump acc.rejectedCriteria }
  | .approvalRejected .. =>
    { acc with
      rejections := acc.rejections + 1
      approvalRejections := acc.approvalRejections + 1 }
  | .outputContractViolated _ => { acc with rejections := acc.rejections + 1 }
  | _ => acc

/-- What the runs of one step add up to. -/
structure Stay where
  passed : Bool := false
  dwellSumMs : Int := 0
  dwellFound : Bool := false

section

variable (events : List FsmEvent)

/-- The first pass event within a run. -/
def passIdx (run : Run) : Option Nat :=
  (List.range' run.start (run.end + 1 - run.start)).find? fun i =>
    isPassEvent events[i]!.eventType

/-- The time from the start of a run to an event. -/
def since (run : Run) (i : Nat) : Int :=
  numMilliseconds (events[i]!.timestamp - events[run.start]!.timestamp)

/-- A run ends with its first pass event, else with the next event after it, if there is one. -/
def addRun (acc : Stay) (run : Run) : Stay :=
  match passIdx events run with
  | some pidx =>
    { passed := true, dwellSumMs := acc.dwellSumMs + since events run pidx, dwellFound := true }
  | none =>
    if run.end + 1 < events.length then
      { acc with dwellSumMs := acc.dwellSumMs + since events run (run.end + 1), dwellFound := true }
    else acc

/-- The step ids in the order in which they were first seen. -/
def stepOrder : List String := events.foldl seeStep []

/-- The runs of the whole event list. -/
def runsOf : List Run := events.zipIdx.foldl extendRuns []

/-- The loop over the events of one step. -/
def refusalsAt (stepId : String) : Refusals :=
  (events.filter (·.stepId = some stepId)).foldl countRefusal {}

/-- The loop over its runs. -/
def stayAt (stepId : String) : Stay :=
  ((runsOf events).filter (·.stepId = stepId)).foldl (addRun events) {}

/-- The metrics of one step. -/
def stepMetrics (profile : Option Profile) (stepId : String) : StepMetrics :=
  let refusals := refusalsAt events stepId
  let stay := stayAt events stepId
  let (macroId, subStateId) := splitStepId stepId
  let (subStateType, criteriaCount) := lookupProfile profile macroId subStateId
  { macroId, subStateId, subStateType, criteriaCount
    rejections := refusals.rejections
    passed := stay.passed
    retryCount := refusals.rejections
    rejectedCriteria := refusals.rejectedCriteria
    approvalRejections := refusals.approvalRejections
    dwellMs := if stay.dwellFound then some stay.dwellSumMs else none }

/-- The `pipeline_id` of the last `SessionStarted`. -/
def pipelineId : Option String :=
  events.foldl (fun acc event =>
    match event.eventType with
    | .sessionStarted pid _ _ => some pid
    | _ => acc) none

def status : String :=
  if events.any (fun event => event.eventType matches .sessionCompleted ..) then "completed"
  else if events.any (fun event => event.eventType matches .sessionFailed .. |
      .circuitBreakerTriggered ..) then "failed"
  else "active"

/-- `compute_session_metrics`. -/
def computeSessionMetrics (profile : Option Profile) : SessionMetrics :=
  let steps := (stepOrder events).map (stepMetrics events profile)
  { sessionId := (events.head?.map (·.sessionId)).getD ""
    pipelineId := pipelineId events
    status := status events
    totalRejections := (steps.map (·.rejections)).sum
    totalDwellMs := match events.head?, events.getLast? with
      | some first, some last => some (numMilliseconds (last.timestamp - first.timestamp))
      | _, _ => none
    steps := steps }

end

/-! ## Step ids -/

theorem slash_not_mem_splitStepId (stepId : String) : '/' ∉ (splitStepId stepId).1.toList := by
  have htaken : '/' ∉ stepId.toList.takeWhile (· ≠ '/') := fun hmem => by
    simpa using List.mem_takeWhile_imp hmem
  rw [splitStepId]
  split
  · rename_i hnone
    intro hmem
    simpa using List.dropWhile_eq_nil_iff.mp hnone '/' hmem
  · rwa [String.toList_ofList]

/-- A step id is split where it was joined, exactly when the macro has no `/` in its id. -/
theorem splitStepId_append_iff {macroId subId : String} :
    splitStepId (macroId ++ "/" ++ subId) = (macroId, subId) ↔ '/' ∉ macroId.toList := by
  constructor
  · intro h
    have hslash := slash_not_mem_splitStepId (macroId ++ "/" ++ subId)
    rwa [h] at hslash
  · intro h
    have hall : ∀ c ∈ macroId.toList, decide (c ≠ '/') = true := fun c hc =>
      decide_eq_true (ne_of_mem_of_not_mem hc h)
    have hchars : (macroId ++ "/" ++ subId).toList = macroId.toList ++ '/' :: subId.toList := by
      simp
    have hdrop : (macroId ++ "/" ++ subId).toList.dropWhile (· ≠ '/') = '/' :: subId.toList := by
      rw [hchars, List.dropWhile_append_of_pos hall]
      rfl
    have htake : (macroId ++ "/" ++ subId).toList.takeWhile (· ≠ '/') = macroId.toList := by
      rw [hchars, List.takeWhile_append_of_pos hall]
      exact List.append_nil _
    simp only [splitStepId, hdrop, htake, String.ofList_toList]

/-! ## One step for each step id -/

section

variable {events : List FsmEvent} {profile : Option Profile}

/-- The step ids of the events, one after the other. -/
abbrev stepIds (events : List FsmEvent) : List String := events.filterMap (·.stepId)

theorem stepOrder_append_singleton (event : FsmEvent) :
    stepOrder (events ++ [event]) = seeStep (stepOrder events) event := by
  rw [stepOrder, List.foldl_append]
  rfl

/-- The order is that of the first appearances. -/
theorem stepOrder_eq : stepOrder events = (stepIds events).eraseDups := by
  induction events using List.reverseRecOn with
  | nil => rfl
  | append_singleton events event ih =>
    have hids : stepIds (events ++ [event]) = stepIds events ++ event.stepId.toList := by
      rw [stepIds, List.filterMap_append]
      cases hs : event.stepId <;> simp [hs]
    rw [stepOrder_append_singleton, ih, seeStep, hids, List.eraseDups_append]
    generalize stepIds events = ids
    cases event.stepId with
    | none => exact (List.append_nil _).symm
    | some sid =>
      dsimp only
      by_cases hmem : sid ∈ ids
      · rw [if_pos (List.mem_eraseDups.mpr hmem)]
        simp [List.removeAll, hmem]
      · rw [if_neg (mt List.mem_eraseDups.mp hmem)]
        simp [List.removeAll, hmem, List.eraseDups_cons]

theorem mem_stepOrder {sid : String} : sid ∈ stepOrder events ↔ ∃ e ∈ events, e.stepId = some sid := by
  rw [stepOrder_eq, List.mem_eraseDups, List.mem_filterMap]

theorem stepOrder_nodup : (stepOrder events).Nodup := by
  induction events using List.reverseRecOn with
  | nil => exact List.nodup_nil
  | append_singleton events event ih =>
    rw [stepOrder_append_singleton, seeStep]
    split
    · split
      · exact ih
      · rename_i hnew
        exact List.nodup_append.mpr ⟨ih, List.nodup_singleton _, fun a ha b hb =>
          (List.mem_singleton.mp hb) ▸ ne_of_mem_of_not_mem ha hnew⟩
    · exact ih

/-! ## Refusals -/

/-- What one entry refuses. -/
def isRefusal : FsmEventType → Bool
  | .milestoneRejected .. | .approvalRejected .. | .outputContractViolated _ => true
  | _ => false

def isApprovalRejected : FsmEventType → Bool
  | .approvalRejected .. => true
  | _ => false

/-- The items a `MilestoneRejected` names. -/
def rejectedItems : FsmEventType → List String
  | .milestoneRejected items _ _ => items
  | _ => []

/-- All counts of a histogram. -/
def tally (histogram : List (String × Nat)) : Nat := (histogram.map Prod.snd).sum

theorem tally_bump (histogram : List (String × Nat)) (key : String) :
    tally (bump histogram key) = tally histogram + 1 := by
  induction histogram with
  | nil => rfl
  | cons entry rest ih =>
    obtain ⟨k, n⟩ := entry
    rw [bump]
    split
    · simp only [tally, List.map_cons, List.sum_cons]
      omega
    · split
      · simp only [tally, List.map_cons, List.sum_cons]
        omega
      · simp only [tally, List.map_cons, List.sum_cons] at ih ⊢
        omega

theorem tally_foldl_bump (items : List String) (histogram : List (String × Nat)) :
    tally (items.foldl bump histogram) = tally histogram + items.length := by
  induction items generalizing histogram with
  | nil => rfl
  | cons item items ih =>
    rw [List.foldl_cons, ih, tally_bump, List.length_cons]
    omega

/-- What one event adds to the counts. -/
theorem countRefusal_spec (acc : Refusals) (e : FsmEvent) :
    (countRefusal acc e).rejections = acc.rejections + (if isRefusal e.eventType then 1 else 0) ∧
    (countRefusal acc e).approvalRejections =
      acc.approvalRejections + (if isApprovalRejected e.eventType then 1 else 0) ∧
    tally (countRefusal acc e).rejectedCriteria =
      tally acc.rejectedCriteria + (rejectedItems e.eventType).length := by
  unfold countRefusal
  cases e.eventType with
  | milestoneRejected items => exact ⟨rfl, rfl, tally_foldl_bump _ _⟩
  | _ => exact ⟨rfl, rfl, rfl⟩

/-- Counted over a list of events, each count is the events'. -/
theorem countRefusal_foldl (es : List FsmEvent) (acc : Refusals) :
    (es.foldl countRefusal acc).rejections =
      acc.rejections + (es.map fun e => if isRefusal e.eventType then 1 else 0).sum ∧
    (es.foldl countRefusal acc).approvalRejections =
      acc.approvalRejections +
        (es.map fun e => if isApprovalRejected e.eventType then 1 else 0).sum ∧
    tally (es.foldl countRefusal acc).rejectedCriteria =
      tally acc.rejectedCriteria + (es.map fun e => (rejectedItems e.eventType).length).sum := by
  induction es generalizing acc with
  | nil => exact ⟨rfl, rfl, rfl⟩
  | cons e es ih =>
    obtain ⟨hrej, happ, htally⟩ := countRefusal_spec acc e
    obtain ⟨ihrej, ihapp, ihtally⟩ := ih (countRefusal acc e)
    simp only [List.foldl_cons, List.map_cons, List.sum_cons]
    exact ⟨by omega, by omega, by omega⟩

theorem sum_ite_eq_countP {α : Type} (p : α → Bool) (xs : List α) :
    (xs.map fun x => if p x then 1 else 0).sum = xs.countP p := by
  induction xs with
  | nil => rfl
  | cons x xs ih =>
    rw [List.map_cons, List.sum_cons, List.countP_cons, ih, Nat.add_comm]

/-- The refusals of a step are those of the events with its step id. -/
theorem stepMetrics_rejections (sid : String) : (stepMetrics events profile sid).rejections =
    events.countP fun e => isRefusal e.eventType && decide (e.stepId = some sid) := by
  have hcount := (countRefusal_foldl (events.filter (·.stepId = some sid)) {}).1
  rw [sum_ite_eq_countP (fun e : FsmEvent => isRefusal e.eventType), List.countP_filter] at hcount
  exact hcount.trans (zero_add _)

/-- A count step by step is the count over the events that carry a step id. -/
theorem sum_steps (f : FsmEvent → Nat) :
    ((stepOrder events).map fun sid =>
      ((events.filter (·.stepId = some sid)).map f).sum).sum =
      ((events.filter (·.stepId.isSome)).map f).sum :=
  sum_withKey stepOrder_nodup (fun e he _ hsid => mem_stepOrder.mpr ⟨e, he, hsid⟩) f

theorem sum_steps_countP (p : FsmEventType → Bool) :
    ((stepOrder events).map fun sid => ((events.filter (·.stepId = some sid)).map
      fun e => if p e.eventType then 1 else 0).sum).sum =
      events.countP fun e => p e.eventType && e.stepId.isSome := by
  rw [sum_steps]
  exact (sum_ite_eq_countP (fun e : FsmEvent => p e.eventType) _).trans List.countP_filter

/-! ## Runs -/

/-- Runs one behind the other, before the `n`-th event. -/
structure Ordered (n : Nat) (runs : List Run) : Prop where
  bounds : ∀ r ∈ runs, r.start ≤ r.end ∧ r.end < n
  apart : runs.Pairwise fun r r' => r.end < r'.start

theorem Ordered.mono {n : Nat} {runs : List Run} (h : Ordered n runs) : Ordered (n + 1) runs :=
  ⟨fun r hr => ⟨(h.bounds r hr).1, Nat.lt_succ_of_lt (h.bounds r hr).2⟩, h.apart⟩

/-- A run that starts now is behind all of them. -/
theorem Ordered.start {n : Nat} {runs : List Run} (h : Ordered n runs) (sid : String) :
    Ordered (n + 1) (runs ++ [⟨sid, n, n⟩]) where
  bounds r hr := by
    rcases List.mem_append.mp hr with hr | hr
    · exact h.mono.bounds r hr
    · rw [List.mem_singleton.mp hr]
      exact ⟨le_rfl, Nat.lt_succ_self n⟩
  apart := by
    refine List.pairwise_append.mpr ⟨h.apart, List.pairwise_singleton _ _, fun r hr r' hr' => ?_⟩
    rw [List.mem_singleton.mp hr']
    exact (h.bounds r hr).2

/-- A last run that goes on to now is still behind the others. -/
theorem Ordered.extend {n : Nat} {runs : List Run} {r : Run} (h : Ordered n (runs ++ [r])) :
    Ordered (n + 1) (runs ++ [{ r with «end» := n }]) := by
  obtain ⟨hruns, -, hlast⟩ := List.pairwise_append.mp h.apart
  refine ⟨fun r' hr' => ?_, List.pairwise_append.mpr
    ⟨hruns, List.pairwise_singleton _ _, fun r₁ hr₁ r₂ hr₂ => ?_⟩⟩
  · rcases List.mem_append.mp hr' with hr' | hr'
    · exact h.mono.bounds r' (List.mem_append_left _ hr')
    · have hr := h.bounds r (List.mem_append_right _ (List.mem_singleton_self r))
      rw [List.mem_singleton.mp hr']
      exact ⟨hr.1.trans hr.2.le, Nat.lt_succ_self n⟩
  · rw [List.mem_singleton.mp hr₂]
    exact hlast r₁ hr₁ r (List.mem_singleton_self r)

/-- What one event makes of the runs before it: none, one more, or a longer last one. -/
theorem extendRuns_cases (runs : List Run) (e : FsmEvent) (n : Nat) :
    (e.stepId = none ∧ extendRuns runs (e, n) = runs) ∨
    ∃ sid, e.stepId = some sid ∧
      (extendRuns runs (e, n) = runs ++ [⟨sid, n, n⟩] ∨
        ∃ init r, runs = init ++ [r] ∧ r.stepId = sid ∧
          extendRuns runs (e, n) = init ++ [{ r with «end» := n }]) := by
  cases hs : e.stepId with
  | none => exact Or.inl ⟨rfl, by simp [extendRuns, hs]⟩
  | some sid =>
    refine Or.inr ⟨sid, rfl, ?_⟩
    cases hlast : runs.getLast? with
    | none => exact Or.inl (by simp [extendRuns, hs, hlast])
    | some r =>
      by_cases hsame : r.stepId = sid
      · refine Or.inr ⟨runs.dropLast, r, ?_, hsame, by simp [extendRuns, hs, hlast, hsame]⟩
        exact (List.dropLast_append_getLast? r hlast).symm
      · exact Or.inl (by simp [extendRuns, hs, hlast, hsame])

theorem runsOf_append_singleton (e : FsmEvent) :
    runsOf (events ++ [e]) = extendRuns (runsOf events) (e, events.length) := by
  rw [runsOf, List.zipIdx_append, List.foldl_append, Nat.zero_add]
  rfl

/-- The runs are in order, and within the events. -/
theorem runsOf_ordered : Ordered events.length (runsOf events) := by
  induction events using List.reverseRecOn with
  | nil => exact ⟨nofun, .nil⟩
  | append_singleton events e ih =>
    rw [runsOf_append_singleton, List.length_append, List.length_singleton]
    rcases extendRuns_cases (runsOf events) e events.length with
      ⟨-, hsame⟩ | ⟨sid, -, hstart | ⟨init, r, hruns, -, hlonger⟩⟩
    · rw [hsame]
      exact ih.mono
    · rw [hstart]
      exact ih.start sid
    · rw [hlonger]
      exact Ordered.extend (hruns ▸ ih)

/-- A run is one of a step that was seen. -/
theorem stepId_mem_stepOrder {r : Run} (h : r ∈ runsOf events) : r.stepId ∈ stepOrder events := by
  induction events using List.reverseRecOn generalizing r with
  | nil => exact absurd h List.not_mem_nil
  | append_singleton events e ih =>
    have hbefore : ∀ r' ∈ runsOf events, r'.stepId ∈ stepOrder (events ++ [e]) := fun r' hr' => by
      obtain ⟨e', he', hs'⟩ := mem_stepOrder.mp (ih hr')
      exact mem_stepOrder.mpr ⟨e', List.mem_append_left _ he', hs'⟩
    rw [runsOf_append_singleton] at h
    rcases extendRuns_cases (runsOf events) e events.length with
      ⟨-, hsame⟩ | ⟨sid, hs, hstart | ⟨init, r₀, hruns, -, hlonger⟩⟩
    · exact hbefore r (hsame ▸ h)
    · rw [hstart] at h
      rcases List.mem_append.mp h with h | h
      · exact hbefore r h
      · rw [List.mem_singleton.mp h]
        exact mem_stepOrder.mpr ⟨e, List.mem_append_right _ (List.mem_singleton_self e), hs⟩
    · rw [hlonger] at h
      rw [hruns] at hbefore
      rcases List.mem_append.mp h with h | h
      · exact hbefore r (List.mem_append_left _ h)
      · rw [List.mem_singleton.mp h]
        exact hbefore r₀ (List.mem_append_right _ (List.mem_singleton_self r₀))

/-! ## Stays -/

/-- The event a run is measured to: itself, where it is not over. -/
def boundary (events : List FsmEvent) (run : Run) : Nat :=
  match passIdx events run with
  | some pidx => pidx
  | none => if run.end + 1 < events.length then run.end + 1 else run.start

/-- A run is measured to an event of its own, or to the next one behind it. -/
theorem boundary_bounds {r : Run} (h : r.start ≤ r.end ∧ r.end < events.length) :
    r.start ≤ boundary events r ∧ boundary events r ≤ r.end + 1 ∧
      boundary events r < events.length := by
  rw [boundary]
  split
  · rename_i pidx hpass
    obtain ⟨k, hk, rfl⟩ := List.mem_range'.mp (List.mem_of_find?_eq_some hpass)
    omega
  · split <;> omega

theorem addRun_dwell (acc : Stay) (r : Run) :
    (addRun events acc r).dwellSumMs = acc.dwellSumMs + since events r (boundary events r) := by
  rw [addRun, boundary]
  cases passIdx events r with
  | some pidx => rfl
  | none =>
    dsimp only
    split
    · rfl
    · rw [since, sub_self]
      exact (add_zero _).symm

theorem addRun_found (acc : Stay) (r : Run) (h : acc.dwellFound = false → acc.dwellSumMs = 0) :
    (addRun events acc r).dwellFound = false → (addRun events acc r).dwellSumMs = 0 := by
  rw [addRun]
  cases passIdx events r with
  | some pidx => exact nofun
  | none =>
    dsimp only
    split
    · exact nofun
    · exact h

/-- The stay at a step is the sum over its runs. -/
theorem foldl_addRun (runs : List Run) (acc : Stay)
    (h : acc.dwellFound = false → acc.dwellSumMs = 0) :
    (runs.foldl (addRun events) acc).dwellSumMs =
        acc.dwellSumMs + (runs.map fun r => since events r (boundary events r)).sum ∧
      ((runs.foldl (addRun events) acc).dwellFound = false →
        (runs.foldl (addRun events) acc).dwellSumMs = 0) := by
  induction runs generalizing acc with
  | nil => exact ⟨(add_zero _).symm, h⟩
  | cons r runs ih =>
    obtain ⟨hsum, hfound⟩ := ih (addRun events acc r) (addRun_found acc r h)
    refine ⟨?_, hfound⟩
    rw [List.foldl_cons, hsum, addRun_dwell, List.map_cons, List.sum_cons]
    omega

theorem stayAt_dwellSumMs (sid : String) :
    (stayAt events sid).dwellSumMs =
      (((runsOf events).filter (·.stepId = sid)).map
        fun r => since events r (boundary events r)).sum :=
  (foldl_addRun _ {} fun _ => rfl).1.trans (zero_add _)

/-- What a step is given as its stay. -/
theorem stepMetrics_dwellMs (sid : String) :
    ((stepMetrics events profile sid).dwellMs).getD 0 = (stayAt events sid).dwellSumMs := by
  have hfound : (stayAt events sid).dwellFound = false →
      (stayAt events sid).dwellSumMs = 0 :=
    (foldl_addRun ((runsOf events).filter (·.stepId = sid)) {} fun _ => rfl).2
  show Option.getD (if (stayAt events sid).dwellFound then _ else none) 0 = _
  cases hf : (stayAt events sid).dwellFound with
  | true => rfl
  | false => exact (hfound hf).symm

/-- The stays of all steps are those of all runs. -/
theorem sum_dwell :
    ((stepOrder events).map fun sid => (stayAt events sid).dwellSumMs).sum =
      ((runsOf events).map fun r => since events r (boundary events r)).sum := by
  let key (r : Run) : Option String := some r.stepId
  have hseen : ∀ r ∈ runsOf events, ∀ k ∈ key r, k ∈ stepOrder events := fun r hr k hk =>
    Option.mem_some.mp hk ▸ stepId_mem_stepOrder hr
  have hkey := sum_withKey stepOrder_nodup hseen fun r => since events r (boundary events r)
  have hall : (runsOf events).filter (fun r => (key r).isSome) = runsOf events :=
    List.filter_eq_self.mpr fun _ _ => rfl
  rw [← hall, ← hkey]
  refine congrArg List.sum (List.map_congr_left fun sid _ => ?_)
  rw [stayAt_dwellSumMs, withKey]
  simp only [key, Option.some.injEq]

/-! ## Clocks that never run backwards -/

/-- No event is earlier than one before it. -/
def NeverBackwards (events : List FsmEvent) : Prop :=
  events.Pairwise fun e e' => e.timestamp ≤ e'.timestamp

theorem NeverBackwards.le (h : NeverBackwards events) {i j : Nat} (hij : i ≤ j)
    (hj : j < events.length) : events[i]!.timestamp ≤ events[j]!.timestamp := by
  rw [getElem!_pos events j hj, getElem!_pos events i (hij.trans_lt hj)]
  rcases hij.lt_or_eq with hlt | rfl
  · exact List.pairwise_iff_getElem.mp h i j _ _ hlt
  · exact le_rfl

/-- The time a run takes. -/
def span (events : List FsmEvent) (r : Run) : Int :=
  events[boundary events r]!.timestamp - events[r.start]!.timestamp

theorem NeverBackwards.span_nonneg (h : NeverBackwards events) {r : Run}
    (hr : r ∈ runsOf events) : 0 ≤ span events r := by
  obtain ⟨hstart, -, hlt⟩ := boundary_bounds (runsOf_ordered.bounds r hr)
  exact sub_nonneg.mpr (h.le hstart hlt)

/-- **The runs together take no longer than the session**: one is over before the next. -/
theorem NeverBackwards.sum_span_le (h : NeverBackwards events) (hne : events ≠ []) :
    ((runsOf events).map (span events)).sum ≤
      events[events.length - 1]!.timestamp - events[0]!.timestamp := by
  have hpos : 0 < events.length := List.length_pos_iff.mpr hne
  refine sum_intervals_le (h.le (Nat.zero_le _) (by omega)) ?_ fun r hr => ?_
  · refine runsOf_ordered.apart.imp_of_mem fun {r r'} hr hr' hbefore => ?_
    obtain ⟨-, hend, -⟩ := boundary_bounds (runsOf_ordered.bounds r hr)
    obtain ⟨hle, hlt⟩ := runsOf_ordered.bounds r' hr'
    exact h.le (hend.trans hbefore) (hle.trans_lt hlt)
  · obtain ⟨hstart, -, hlt⟩ := boundary_bounds (runsOf_ordered.bounds r hr)
    exact ⟨h.le (Nat.zero_le _) (hstart.trans_lt hlt), h.le hstart hlt,
      h.le (by omega) (by omega)⟩

theorem totalDwellMs_eq (hne : events ≠ []) :
    (computeSessionMetrics events profile).totalDwellMs = some (numMilliseconds
      (events[events.length - 1]!.timestamp - events[0]!.timestamp)) := by
  have hlast : events.getLast? = some events[events.length - 1]! := by
    have hlt : events.length - 1 < events.length :=
      Nat.sub_lt (List.length_pos_iff.mpr hne) Nat.one_pos
    rw [List.getLast?_eq_getElem?, getElem!_pos events _ hlt, List.getElem?_eq_getElem hlt]
  obtain ⟨first, rest, rfl⟩ := List.exists_cons_of_ne_nil hne
  rw [computeSessionMetrics, hlast]
  rfl

/-- Nor do the stays, each cut to milliseconds. -/
theorem NeverBackwards.sum_dwell_le (h : NeverBackwards events) :
    ((stepOrder events).map fun sid => (stayAt events sid).dwellSumMs).sum ≤
      ((computeSessionMetrics events profile).totalDwellMs).getD 0 := by
  rw [sum_dwell]
  by_cases hne : events = []
  · subst hne
    exact le_rfl
  · rw [totalDwellMs_eq hne, Option.getD_some]
    calc ((runsOf events).map fun r => since events r (boundary events r)).sum
        ≤ ((runsOf events).map (span events)).sum.tdiv 1000000 :=
          sum_tdiv_le 1000000 (by decide) fun r hr => h.span_nonneg hr
      _ ≤ _ := Int.tdiv_le_tdiv (by decide) (h.sum_span_le hne)

theorem NeverBackwards.dwell_nonneg (h : NeverBackwards events) (sid : String) :
    0 ≤ (stayAt events sid).dwellSumMs := by
  rw [stayAt_dwellSumMs]
  refine List.sum_nonneg fun d hd => ?_
  obtain ⟨r, hr, rfl⟩ := List.mem_map.mp hd
  exact Int.tdiv_nonneg (h.span_nonneg (List.mem_of_mem_filter hr)) (by decide)

/-! ## The account -/

/-- **Session metrics neither lose nor double-count.** There is one step for each distinct step
id, in the order of first appearance; the refusals, the rejected items and the rejected
approvals of all steps are those of the events that carry a step id; and on a clock that never
runs backwards no stay is negative and all stays together are no longer than the session. -/
theorem metrics_account (events : List FsmEvent) (profile : Option Profile) :
    let m := computeSessionMetrics events profile
    m.steps.map (fun s => (s.macroId, s.subStateId)) =
      (events.filterMap (·.stepId)).eraseDups.map splitStepId ∧
    m.totalRejections =
      events.countP (fun e => isRefusal e.eventType && e.stepId.isSome) ∧
    (m.steps.map fun s => tally s.rejectedCriteria).sum =
      ((events.filter (·.stepId.isSome)).map fun e => (rejectedItems e.eventType).length).sum ∧
    (m.steps.map (·.approvalRejections)).sum =
      events.countP (fun e => isApprovalRejected e.eventType && e.stepId.isSome) ∧
    (NeverBackwards events → (∀ s ∈ m.steps, ∀ d ∈ s.dwellMs, 0 ≤ d) ∧
      (m.steps.map fun s => s.dwellMs.getD 0).sum ≤ m.totalDwellMs.getD 0) := by
  have hcounts (sid : String) := countRefusal_foldl (events.filter (·.stepId = some sid)) {}
  have hsteps {α : Type} (f : StepMetrics → α) :
      (computeSessionMetrics events profile).steps.map f =
        (stepOrder events).map fun sid => f (stepMetrics events profile sid) :=
    List.map_map
  refine ⟨?_, ?_, ?_, ?_, fun h => ⟨fun s hs d hd => ?_, ?_⟩⟩
  · rw [hsteps, stepOrder_eq]
    rfl
  · refine (congrArg List.sum (hsteps _)).trans ((congrArg List.sum ?_).trans
      (sum_steps_countP isRefusal))
    exact List.map_congr_left fun sid _ => (hcounts sid).1.trans (zero_add _)
  · rw [hsteps, ← sum_steps]
    refine congrArg List.sum (List.map_congr_left fun sid _ => ?_)
    exact (hcounts sid).2.2.trans (zero_add _)
  · rw [hsteps, ← sum_steps_countP isApprovalRejected]
    refine congrArg List.sum (List.map_congr_left fun sid _ => ?_)
    exact (hcounts sid).2.1.trans (zero_add _)
  · obtain ⟨sid, -, rfl⟩ := List.mem_map.mp hs
    have hdwell : ((stepMetrics events profile sid).dwellMs).getD 0 =
        (stayAt events sid).dwellSumMs := stepMetrics_dwellMs sid
    rw [Option.mem_def.mp hd, Option.getD_some] at hdwell
    exact hdwell ▸ h.dwell_nonneg sid
  · rw [hsteps]
    simp only [stepMetrics_dwellMs]
    exact h.sum_dwell_le

end

/-- A session that loops back once and then passes. -/
def Sample.looped : List FsmEvent :=
  let event (second : Int) (stepId : Option String) (eventType : FsmEventType) : FsmEvent :=
    { timestamp := second * 1000000000, sessionId := "s1", eventType, stepId, payload := .null }
  [event 0 none (.sessionStarted "p" "1" none),
    event 1 (some "draft/s1") (.subStateAdvanced "s0" "s1"),
    event 4 (some "draft/chk1") (.subStateAdvanced "s1" "chk1"),
    event 5 (some "draft/chk1") (.milestoneRejected ["review_ack"] "checklist_incomplete" 1),
    event 6 (some "draft/s1") (.macroLoopedBack "chk1" "s1" 1),
    event 9 (some "draft/chk1") (.subStateAdvanced "s1" "chk1"),
    event 10 (some "draft/chk1") (.milestoneAccepted none),
    event 11 none (.macroAdvanced "draft" "ship")]

/-- Both steps of the looped session stay for two runs, six and three seconds of eleven. -/
theorem metrics_account_looped :
    ((computeSessionMetrics Sample.looped none).steps.map (·.dwellMs) = [some 6000, some 3000] ∧
      NeverBackwards Sample.looped) ∧
    ((computeSessionMetrics Sample.looped none).steps.map fun s => s.dwellMs.getD 0).sum ≤
      ((computeSessionMetrics Sample.looped none).totalDwellMs).getD 0 := by
  have hclock : NeverBackwards Sample.looped := by
    unfold NeverBackwards
    decide
  exact ⟨⟨by decide +kernel, hclock⟩, ((metrics_account Sample.looped none).2.2.2.2 hclock).2⟩

end Metrics

end ProtocolEnforcer
