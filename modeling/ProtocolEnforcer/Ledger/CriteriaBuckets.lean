import Mathlib.Algebra.Order.Field.Rat
import ProtocolEnforcer.Core.GroupBy
import ProtocolEnforcer.Ledger.Metrics

/-!
# Gates by size (`aggregate_by_criteria_count` in `crates/ledger/src/metrics.rs`)

The steps of many sessions, grouped by how many criteria they have. Every step with a number of
criteria is in one bucket, that of its number, and the buckets do not depend on the order in
which the sessions are read. A bucket's sums are machine integers that wrap, as they do in a
release build; they are the sums of its steps where these fit (`Fits`), and then no build
overflows. The means are exact here; the code rounds them to `f64`.
-/

namespace ProtocolEnforcer

namespace Metrics

/-- The accumulator of one bucket; `usize` is 64 bits wide. -/
structure Acc where
  gateCount : UInt64 := 0
  totalRejections : UInt64 := 0
  firstPassCount : UInt64 := 0
  dwellSumMs : Int64 := 0
  dwellCount : UInt64 := 0

structure CriteriaBucket where
  criteriaCount : Nat
  gateCount : Nat
  totalRejections : Nat
  meanRejectionsPerGate : Rat
  firstPassRate : Rat
  meanDwellMs : Option Rat

/-- Passed without a rejection. -/
def StepMetrics.firstPass (step : StepMetrics) : Bool := step.passed && step.rejections == 0

/-- One more gate. -/
def Acc.add (acc : Acc) (step : StepMetrics) : Acc where
  gateCount := acc.gateCount + 1
  totalRejections := acc.totalRejections + UInt64.ofNat step.rejections
  firstPassCount := if step.firstPass then acc.firstPassCount + 1 else acc.firstPassCount
  dwellSumMs := match step.dwellMs with
    | some d => acc.dwellSumMs + Int64.ofInt d
    | none => acc.dwellSumMs
  dwellCount := if step.dwellMs.isSome then acc.dwellCount + 1 else acc.dwellCount

/-- The row of a bucket. -/
def Acc.row (criteriaCount : Nat) (acc : Acc) : CriteriaBucket where
  criteriaCount := criteriaCount
  gateCount := acc.gateCount.toNat
  totalRejections := acc.totalRejections.toNat
  meanRejectionsPerGate := (acc.totalRejections.toNat : Rat) / (acc.gateCount.toNat : Rat)
  firstPassRate := (acc.firstPassCount.toNat : Rat) / (acc.gateCount.toNat : Rat)
  meanDwellMs := if acc.dwellCount.toNat > 0 then
    some ((acc.dwellSumMs.toInt : Rat) / (acc.dwellCount.toNat : Rat)) else none

/-- The loop over the steps of one session. -/
def addSession (buckets : List (Nat × Acc)) (session : SessionMetrics) : List (Nat × Acc) :=
  session.steps.foldl (fun buckets step => match step.criteriaCount with
    | none => buckets
    | some criteriaCount => upsert (·.add step) {} criteriaCount buckets) buckets

/-- `aggregate_by_criteria_count`. -/
def aggregateByCriteriaCount (sessions : List SessionMetrics) : List CriteriaBucket :=
  (sessions.foldl addSession []).map fun (criteriaCount, acc) => acc.row criteriaCount

/-! ## Groups -/

/-- The steps of all sessions. -/
def allSteps (sessions : List SessionMetrics) : List StepMetrics := sessions.flatMap (·.steps)

/-- The steps with this many criteria. -/
abbrev gatesOf (sessions : List SessionMetrics) (n : Nat) : List StepMetrics :=
  withKey (·.criteriaCount) n (allSteps sessions)

variable {sessions sessions' : List SessionMetrics} {steps : List StepMetrics}

theorem foldl_addSession : sessions.foldl addSession [] =
    groupBy (·.criteriaCount) Acc.add {} (allSteps sessions) := by
  rw [groupBy, allSteps, List.foldl_flatMap]
  congr 1
  funext buckets session
  unfold addSession
  congr 1
  funext buckets step
  cases step.criteriaCount <;> rfl

/-- Wrapping sums do not depend on the order. -/
instance : RightCommutative Acc.add where
  right_comm acc step step' := by
    unfold Acc.add
    cases step.dwellMs <;> cases step'.dwellMs <;> cases step.firstPass <;>
      cases step'.firstPass <;> simp <;> grind

/-- What the accumulator of some steps holds, up to the width of its fields. -/
structure Acc.Counts (acc : Acc) (steps : List StepMetrics) : Prop where
  gates : acc.gateCount = UInt64.ofNat steps.length
  rejections : acc.totalRejections = UInt64.ofNat (steps.map (·.rejections)).sum
  firstPasses : acc.firstPassCount = UInt64.ofNat (steps.countP (·.firstPass))
  dwell : acc.dwellSumMs = Int64.ofInt (steps.filterMap (·.dwellMs)).sum
  dwells : acc.dwellCount = UInt64.ofNat (steps.filterMap (·.dwellMs)).length

theorem Acc.Counts.foldl (steps : List StepMetrics) : Acc.Counts (steps.foldl Acc.add {}) steps := by
  induction steps using List.reverseRecOn with
  | nil => exact ⟨rfl, rfl, rfl, rfl, rfl⟩
  | append_singleton steps step ih =>
    rw [List.foldl_concat]
    refine ⟨?_, ?_, ?_, ?_, ?_⟩
    · show _ + 1 = _
      rw [ih.gates, List.length_append, List.length_singleton, UInt64.ofNat_add]
      rfl
    · show _ + UInt64.ofNat step.rejections = _
      rw [ih.rejections, List.map_append, List.sum_append, List.map_singleton, List.sum_singleton,
        UInt64.ofNat_add]
    · show (if step.firstPass then _ + 1 else _) = _
      rw [ih.firstPasses, List.countP_append, List.countP_singleton, UInt64.ofNat_add]
      cases step.firstPass <;> simp
    · rw [Acc.add.eq_def, ih.dwell, List.filterMap_append, List.sum_append, Int64.ofInt_add]
      cases hd : step.dwellMs <;> simp [hd]
    · show (if step.dwellMs.isSome then _ + 1 else _) = _
      rw [ih.dwells, List.filterMap_append, List.length_append, UInt64.ofNat_add]
      cases hd : step.dwellMs <;> simp [hd]

/-! ## Sums that fit -/

/-- Sums of these steps that no order of them overflows. -/
structure Fits (steps : List StepMetrics) : Prop where
  gates : steps.length < 2 ^ 64
  rejections : (steps.map (·.rejections)).sum < 2 ^ 64
  dwell : ((steps.filterMap (·.dwellMs)).map Int.natAbs).sum < 2 ^ 63

/-- Some of the steps fit where all do. -/
theorem Fits.sublist {steps' : List StepMetrics} (h : Fits steps') (hsub : steps.Sublist steps') :
    Fits steps where
  gates := hsub.length_le.trans_lt h.gates
  rejections := ((hsub.map _).sum_le_sum fun _ _ => Nat.zero_le _).trans_lt h.rejections
  dwell := (((hsub.filterMap _).map _).sum_le_sum fun _ _ => Nat.zero_le _).trans_lt h.dwell

/-- What the accumulator of steps that fit holds. -/
structure Acc.Holds (acc : Acc) (steps : List StepMetrics) : Prop where
  gates : acc.gateCount.toNat = steps.length
  rejections : acc.totalRejections.toNat = (steps.map (·.rejections)).sum
  firstPasses : acc.firstPassCount.toNat = steps.countP (·.firstPass)
  dwell : acc.dwellSumMs.toInt = (steps.filterMap (·.dwellMs)).sum
  dwells : acc.dwellCount.toNat = (steps.filterMap (·.dwellMs)).length

theorem natAbs_sum_le (xs : List Int) : xs.sum.natAbs ≤ (xs.map Int.natAbs).sum := by
  induction xs with
  | nil => exact Nat.le_refl 0
  | cons x xs ih =>
    rw [List.sum_cons, List.map_cons, List.sum_cons]
    exact (Int.natAbs_add_le x xs.sum).trans (Nat.add_le_add_left ih _)

theorem Acc.Counts.holds {acc : Acc} (h : acc.Counts steps) (fits : Fits steps) :
    acc.Holds steps where
  gates := by rw [h.gates, UInt64.toNat_ofNat_of_lt' fits.gates]
  rejections := by rw [h.rejections, UInt64.toNat_ofNat_of_lt' fits.rejections]
  firstPasses := by
    rw [h.firstPasses, UInt64.toNat_ofNat_of_lt' (List.countP_le_length.trans_lt fits.gates)]
  dwell := by
    have habs := (natAbs_sum_le (steps.filterMap (·.dwellMs))).trans_lt fits.dwell
    rw [h.dwell, Int64.toInt_ofInt_of_le (by omega) (by omega)]
  dwells := by
    rw [h.dwells, UInt64.toNat_ofNat_of_lt' ((List.length_filterMap_le ..).trans_lt fits.gates)]

/-- **A bucket is what its gates add up to.** -/
theorem mem_aggregate {row : CriteriaBucket} : row ∈ aggregateByCriteriaCount sessions ↔
    ∃ n, gatesOf sessions n ≠ [] ∧ row = ((gatesOf sessions n).foldl Acc.add {}).row n := by
  rw [aggregateByCriteriaCount, foldl_addSession, List.mem_map]
  constructor
  · rintro ⟨⟨n, acc⟩, hmem, rfl⟩
    obtain ⟨hne, rfl⟩ := mem_groupBy.mp hmem
    exact ⟨n, hne, rfl⟩
  · rintro ⟨n, hne, rfl⟩
    exact ⟨(n, _), mem_groupBy.mpr ⟨hne, rfl⟩, rfl⟩

/-! ## The account -/

/-- What a row says of the gates it is about. -/
structure CriteriaBucket.Sums (row : CriteriaBucket) (gates : List StepMetrics) : Prop where
  gateCount : row.gateCount = gates.length
  nonempty : 0 < row.gateCount
  totalRejections : row.totalRejections = (gates.map (·.rejections)).sum
  meanRejections : row.meanRejectionsPerGate * row.gateCount = row.totalRejections
  firstPass : row.firstPassRate * row.gateCount = gates.countP (·.firstPass)
  rate : 0 ≤ row.firstPassRate ∧ row.firstPassRate ≤ 1
  undwelt : row.meanDwellMs = none ↔ ∀ gate ∈ gates, gate.dwellMs = none
  meanDwell : ∀ mean ∈ row.meanDwellMs,
    mean * (gates.filterMap (·.dwellMs)).length = (gates.filterMap (·.dwellMs)).sum

theorem Acc.Holds.sums {acc : Acc} {n : Nat} (h : acc.Holds steps) (hne : steps ≠ []) :
    (acc.row n).Sums steps := by
  have hpos : 0 < acc.gateCount.toNat := h.gates ▸ List.length_pos_iff.mpr hne
  have hgates : (acc.gateCount.toNat : Rat) ≠ 0 := Nat.cast_ne_zero.mpr hpos.ne'
  have hfirst : acc.firstPassCount.toNat ≤ acc.gateCount.toNat := by
    rw [h.firstPasses, h.gates]
    exact List.countP_le_length
  refine ⟨h.gates, hpos, h.rejections, div_mul_cancel₀ _ hgates, ?_, ⟨?_, ?_⟩, ?_, ?_⟩
  · rw [← h.firstPasses]
    exact div_mul_cancel₀ _ hgates
  · exact div_nonneg (Nat.cast_nonneg _) (Nat.cast_nonneg _)
  · exact div_le_one_of_le₀ (Nat.cast_le.mpr hfirst) (Nat.cast_nonneg _)
  · have hdwells : acc.dwellCount.toNat = 0 ↔ ∀ gate ∈ steps, gate.dwellMs = none := by
      rw [h.dwells, List.length_eq_zero_iff, List.filterMap_eq_nil_iff]
    rw [← hdwells, Acc.row]
    by_cases hzero : acc.dwellCount.toNat = 0
    · simp [hzero]
    · simp [hzero, Nat.pos_of_ne_zero hzero]
  · intro mean hmean
    rw [Acc.row] at hmean
    dsimp only at hmean
    split at hmean
    · rename_i hdwelt
      obtain rfl := Option.some.inj hmean
      rw [← h.dwells, ← h.dwell]
      exact div_mul_cancel₀ _ (Nat.cast_ne_zero.mpr hdwelt.ne')
    · cases hmean

theorem sums_of_mem {row : CriteriaBucket} (h : row ∈ aggregateByCriteriaCount sessions)
    (fits : Fits (gatesOf sessions row.criteriaCount)) :
    row.Sums (gatesOf sessions row.criteriaCount) := by
  obtain ⟨n, hne, rfl⟩ := mem_aggregate.mp h
  exact ((Acc.Counts.foldl _).holds fits).sums hne

theorem gatesOf_ne_nil {n : Nat} : gatesOf sessions n ≠ [] ↔
    ∃ session ∈ sessions, ∃ step ∈ session.steps, step.criteriaCount = some n := by
  constructor
  · intro hne
    obtain ⟨step, hstep⟩ := List.exists_mem_of_ne_nil _ hne
    obtain ⟨hall, hn⟩ := List.mem_filter.mp hstep
    obtain ⟨session, hsession, hmem⟩ := List.mem_flatMap.mp hall
    exact ⟨session, hsession, step, hmem, of_decide_eq_true hn⟩
  · rintro ⟨session, hsession, step, hmem, hn⟩
    exact List.ne_nil_of_mem (List.mem_filter.mpr
      ⟨List.mem_flatMap.mpr ⟨session, hsession, hmem⟩, decide_eq_true hn⟩)

theorem aggregate_sorted :
    (aggregateByCriteriaCount sessions).Pairwise fun a b => a.criteriaCount < b.criteriaCount := by
  rw [aggregateByCriteriaCount, foldl_addSession, List.pairwise_map]
  exact keySorted_groupBy

/-- Summed over the rows, each gate counts once. -/
theorem sum_aggregate {f : CriteriaBucket → Nat} {g : StepMetrics → Nat}
    (h : ∀ row ∈ aggregateByCriteriaCount sessions,
      f row = ((gatesOf sessions row.criteriaCount).map g).sum) :
    ((aggregateByCriteriaCount sessions).map f).sum =
      (((allSteps sessions).filter (·.criteriaCount.isSome)).map g).sum := by
  have hnodup : ((aggregateByCriteriaCount sessions).map (·.criteriaCount)).Nodup :=
    List.pairwise_map.mpr (aggregate_sorted.imp Nat.ne_of_lt)
  rw [← sum_withKey hnodup ?_ g, List.map_map]
  · exact congrArg List.sum (List.map_congr_left h)
  · intro step hstep n hn
    have hne : gatesOf sessions n ≠ [] :=
      List.ne_nil_of_mem (List.mem_filter.mpr ⟨hstep, decide_eq_true hn⟩)
    exact List.mem_map.mpr ⟨_, mem_aggregate.mpr ⟨n, hne, rfl⟩, rfl⟩

/-- **Gates by size neither lose nor double-count, and no order of the sessions matters.** There is
one row for each number of criteria some gate has, smaller ones first. Where the sums of the
gates of a size fit, the row's counts are theirs, none of its means divides by zero, and its
rate is a rate; where all do, the rows together count every gate that has a number of criteria,
once. Every order of the sessions gives the same rows. -/
theorem aggregate_account (sessions : List SessionMetrics) :
    let rows := aggregateByCriteriaCount sessions
    (rows.Pairwise fun a b => a.criteriaCount < b.criteriaCount) ∧
    (∀ n, (∃ row ∈ rows, row.criteriaCount = n) ↔
      ∃ session ∈ sessions, ∃ step ∈ session.steps, step.criteriaCount = some n) ∧
    (∀ row ∈ rows, Fits (gatesOf sessions row.criteriaCount) →
      row.Sums (gatesOf sessions row.criteriaCount)) ∧
    ((∀ n, Fits (gatesOf sessions n)) →
      (rows.map (·.gateCount)).sum = (allSteps sessions).countP (·.criteriaCount.isSome) ∧
      (rows.map (·.totalRejections)).sum =
        (((allSteps sessions).filter (·.criteriaCount.isSome)).map (·.rejections)).sum) ∧
    ∀ sessions', sessions.Perm sessions' → aggregateByCriteriaCount sessions' = rows := by
  refine ⟨aggregate_sorted, fun n => ?_, fun _ => sums_of_mem, fun fits => ⟨?_, ?_⟩,
    fun sessions' h => ?_⟩
  · rw [← gatesOf_ne_nil]
    constructor
    · rintro ⟨row, hrow, rfl⟩
      obtain ⟨n, hne, rfl⟩ := mem_aggregate.mp hrow
      exact hne
    · exact fun hne => ⟨_, mem_aggregate.mpr ⟨n, hne, rfl⟩, rfl⟩
  · rw [sum_aggregate (g := fun _ => 1) fun row hrow => ?_, List.countP_eq_length_filter]
    · simp
    · rw [(sums_of_mem hrow (fits _)).gateCount]
      simp
  · exact sum_aggregate fun row hrow => (sums_of_mem hrow (fits _)).totalRejections
  · have hsteps : (allSteps sessions').Perm (allSteps sessions) := h.symm.flatMap_right _
    rw [aggregateByCriteriaCount, aggregateByCriteriaCount, foldl_addSession, foldl_addSession,
      groupBy_perm hsteps]

end Metrics

/-! ## Gates of two sizes -/

namespace Sample

def gate (criteriaCount : Option Nat) (rejections : Nat) (dwellMs : Option Int) :
    Metrics.StepMetrics :=
  { macroId := "plan", subStateId := "check", subStateType := none, criteriaCount, rejections
    passed := true, retryCount := 0, rejectedCriteria := [], approvalRejections := 0, dwellMs }

def report (steps : List Metrics.StepMetrics) : Metrics.SessionMetrics :=
  { sessionId := "s1", pipelineId := none, status := "Active", totalRejections := 0
    totalDwellMs := none, steps }

def reports : List Metrics.SessionMetrics :=
  [report [gate (some 2) 0 (some 10), gate none 5 none],
    report [gate (some 2) 3 (some 21), gate (some 1) 0 none]]

end Sample

namespace Metrics

theorem aggregate_account_two :
    (aggregateByCriteriaCount Sample.reports).map (fun row => (row.criteriaCount, row.gateCount,
      row.totalRejections, row.meanDwellMs)) = [(1, 1, 0, none), (2, 2, 3, some (31 / 2))] ∧
    (∀ row ∈ aggregateByCriteriaCount Sample.reports,
      row.Sums (gatesOf Sample.reports row.criteriaCount)) ∧
    ((aggregateByCriteriaCount Sample.reports).map (·.gateCount)).sum =
      (allSteps Sample.reports).countP (·.criteriaCount.isSome) ∧
    aggregateByCriteriaCount Sample.reports.reverse = aggregateByCriteriaCount Sample.reports := by
  have fits : ∀ n, Fits (gatesOf Sample.reports n) := fun n =>
    Fits.sublist ⟨by decide, by decide, by decide⟩ List.filter_sublist
  obtain ⟨-, -, sums, counts, perm⟩ := aggregate_account Sample.reports
  exact ⟨by decide +kernel, fun row hrow => sums row hrow (fits _), (counts fits).1,
    perm _ (List.reverse_perm _).symm⟩

/-- Two stays that do not fit: their sum wraps. -/
example : (aggregateByCriteriaCount [Sample.report [Sample.gate (some 1) 0 (some (2 ^ 63 - 1)),
    Sample.gate (some 1) 0 (some (2 ^ 63 - 1))]]).map (·.meanDwellMs) = [some (-1)] := by
  decide +kernel

end Metrics

end ProtocolEnforcer
