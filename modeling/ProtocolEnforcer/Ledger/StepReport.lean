import ProtocolEnforcer.Ledger.Metrics

/-!
# What a step is reported for

The metrics of a step, read off the events with its step id alone: it is passed if one of them
is a pass event, its histogram names the items they reject, and its refused approvals are
theirs. The runs are how the code finds this out: every event with a step id lies in one run,
a run of that step.
-/

namespace ProtocolEnforcer

namespace Metrics

variable {events : List FsmEvent} {profile : Option Profile} {sid : String} {i : Nat}

/-! ## The run of an event -/

/-- Every event with a step id lies in a run of that step. -/
theorem exists_run (hi : i < events.length) (hstep : events[i].stepId = some sid) :
    ∃ r ∈ runsOf events, r.stepId = sid ∧ r.start ≤ i ∧ i ≤ r.end := by
  induction events using List.reverseRecOn with
  | nil => exact absurd hi (Nat.not_lt_zero i)
  | append_singleton events e ih =>
    have hbefore (h : i < events.length) :
        ∃ r ∈ runsOf events, r.stepId = sid ∧ r.start ≤ i ∧ i ≤ r.end :=
      ih h (by rwa [List.getElem_append_left h] at hstep)
    have hlast (h : ¬i < events.length) : i = events.length ∧ e.stepId = some sid := by
      rw [List.length_append, List.length_singleton] at hi
      obtain rfl : i = events.length := by omega
      rw [List.getElem_concat_length rfl] at hstep
      exact ⟨rfl, hstep⟩
    rw [runsOf_append_singleton]
    rcases extendRuns_cases (runsOf events) e events.length with
      ⟨hnone, hsame⟩ | ⟨sid', hs, hstart | ⟨init, r, hruns, hr, hlonger⟩⟩
    · rw [hsame]
      by_cases h : i < events.length
      · exact hbefore h
      · obtain ⟨-, hsome⟩ := hlast h
        rw [hnone] at hsome
        cases hsome
    · rw [hstart]
      by_cases h : i < events.length
      · obtain ⟨r, hr, hin⟩ := hbefore h
        exact ⟨r, List.mem_append_left _ hr, hin⟩
      · obtain ⟨rfl, hsome⟩ := hlast h
        cases hs.symm.trans hsome
        exact ⟨_, List.mem_append_right _ (List.mem_singleton_self _), rfl, le_rfl, le_rfl⟩
    · rw [hlonger]
      have hend := (runsOf_ordered.bounds r (hruns ▸ List.mem_append_right _
        (List.mem_singleton_self r))).2
      by_cases h : i < events.length
      · obtain ⟨r', hr', hsid, hfrom, hto⟩ := hbefore h
        rw [hruns] at hr'
        rcases List.mem_append.mp hr' with hr' | hr'
        · exact ⟨r', List.mem_append_left _ hr', hsid, hfrom, hto⟩
        -- the last run goes on, and holds what it held
        · obtain rfl := List.mem_singleton.mp hr'
          exact ⟨_, List.mem_append_right _ (List.mem_singleton_self _), hsid, hfrom, h.le⟩
      · obtain ⟨rfl, hsome⟩ := hlast h
        cases hs.symm.trans hsome
        have hbounds := runsOf_ordered.bounds r (hruns ▸ List.mem_append_right _
          (List.mem_singleton_self r))
        exact ⟨_, List.mem_append_right _ (List.mem_singleton_self _), hr,
          hbounds.1.trans hbounds.2.le, le_rfl⟩

/-- Two runs that share an event are the same run. -/
theorem run_unique {r r' : Run} (hr : r ∈ runsOf events) (hr' : r' ∈ runsOf events)
    (hfrom : r.start ≤ i) (hto : i ≤ r.end) (hfrom' : r'.start ≤ i) (hto' : i ≤ r'.end) :
    r = r' := by
  obtain ⟨a, ha, rfl⟩ := List.mem_iff_getElem.mp hr
  obtain ⟨b, hb, rfl⟩ := List.mem_iff_getElem.mp hr'
  have ordered : Ordered events.length (runsOf events) := runsOf_ordered
  have apart := List.pairwise_iff_getElem.mp ordered.apart
  rcases lt_trichotomy a b with hlt | rfl | hlt
  · have := apart a b ha hb hlt
    omega
  · rfl
  · have := apart b a hb ha hlt
    omega

/-- An event of a run has that run's step id, if it has one. -/
theorem stepId_of_run {r : Run} (hr : r ∈ runsOf events) (hfrom : r.start ≤ i) (hto : i ≤ r.end)
    (hi : i < events.length) (hstep : events[i].stepId = some sid) : r.stepId = sid := by
  obtain ⟨r', hr', hsid, hfrom', hto'⟩ := exists_run hi hstep
  exact run_unique hr hr' hfrom hto hfrom' hto' ▸ hsid

/-! ## Passed steps -/

theorem passIdx_isSome {r : Run} : (passIdx events r).isSome = true ↔
    ∃ i, r.start ≤ i ∧ i ≤ r.end ∧ isPassEvent events[i]!.eventType = true := by
  rw [passIdx, List.find?_isSome]
  constructor
  · rintro ⟨i, hi, hpass⟩
    obtain ⟨k, hk, rfl⟩ := List.mem_range'.mp hi
    exact ⟨_, by omega, by omega, hpass⟩
  · rintro ⟨i, hfrom, hto, hpass⟩
    exact ⟨i, List.mem_range'.mpr ⟨i - r.start, by omega, by omega⟩, hpass⟩

theorem addRun_passed (acc : Stay) (r : Run) :
    (addRun events acc r).passed = (acc.passed || (passIdx events r).isSome) := by
  rw [addRun]
  cases passIdx events r with
  | some pidx => exact (Bool.or_true _).symm
  | none =>
    rw [Option.isSome_none, Bool.or_false]
    dsimp only
    split <;> rfl

theorem foldl_addRun_passed (runs : List Run) (acc : Stay) :
    (runs.foldl (addRun events) acc).passed =
      (acc.passed || runs.any fun r => (passIdx events r).isSome) := by
  induction runs generalizing acc with
  | nil => exact (Bool.or_false _).symm
  | cons r runs ih => rw [List.foldl_cons, ih, addRun_passed, List.any_cons, Bool.or_assoc]

/-- **A step is passed when one of its events passes it**, as long as no pass event is
without a step id. -/
theorem stepMetrics_passed (h : ∀ e ∈ events, isPassEvent e.eventType = true → e.stepId.isSome) :
    (stepMetrics events profile sid).passed = true ↔
      ∃ e ∈ events, e.stepId = some sid ∧ isPassEvent e.eventType = true := by
  have hpassed : (stepMetrics events profile sid).passed = true ↔
      ∃ r ∈ runsOf events, r.stepId = sid ∧ (passIdx events r).isSome = true := by
    show (stayAt events sid).passed = true ↔ _
    rw [stayAt, foldl_addRun_passed, Bool.false_or, List.any_filter, List.any_eq_true]
    refine exists_congr fun r => and_congr_right fun _ => ?_
    rw [Bool.and_eq_true, decide_eq_true_eq]
  rw [hpassed]
  constructor
  · rintro ⟨r, hr, rfl, hsome⟩
    obtain ⟨i, hfrom, hto, hpass⟩ := passIdx_isSome.mp hsome
    have hi : i < events.length := hto.trans_lt (runsOf_ordered.bounds r hr).2
    rw [getElem!_pos events i hi] at hpass
    have hmem := List.getElem_mem hi
    obtain ⟨sid, hstep⟩ := Option.isSome_iff_exists.mp (h _ hmem hpass)
    exact ⟨_, hmem, (stepId_of_run hr hfrom hto hi hstep) ▸ hstep, hpass⟩
  · rintro ⟨e, he, hstep, hpass⟩
    obtain ⟨i, hi, rfl⟩ := List.mem_iff_getElem.mp he
    obtain ⟨r, hr, hsid, hfrom, hto⟩ := exists_run hi hstep
    rw [← getElem!_pos events i hi] at hpass
    exact ⟨r, hr, hsid, passIdx_isSome.mpr ⟨i, hfrom, hto, hpass⟩⟩

/-! ## Refusals -/

theorem stepMetrics_approvalRejections :
    (stepMetrics events profile sid).approvalRejections =
      events.countP fun e => isApprovalRejected e.eventType && decide (e.stepId = some sid) := by
  have hcount := (countRefusal_foldl (events.filter (·.stepId = some sid)) {}).2.1
  rw [sum_ite_eq_countP (fun e : FsmEvent => isApprovalRejected e.eventType),
    List.countP_filter] at hcount
  exact hcount.trans (zero_add _)

/-- A histogram names a key once it has been counted, and no other. -/
theorem mem_keys_bump {histogram : List (String × Nat)} {key k : String} :
    k ∈ (bump histogram key).map Prod.fst ↔ k = key ∨ k ∈ histogram.map Prod.fst := by
  induction histogram with
  | nil => simp [bump]
  | cons entry rest ih =>
    obtain ⟨k', n⟩ := entry
    rw [bump]
    split
    · rename_i heq
      subst heq
      simp
    · split
      · simp
      · simp only [List.map_cons, List.mem_cons, ih]
        exact or_left_comm

theorem mem_keys_foldl_bump {items : List String} {histogram : List (String × Nat)} {k : String} :
    k ∈ (items.foldl bump histogram).map Prod.fst ↔
      k ∈ items ∨ k ∈ histogram.map Prod.fst := by
  induction items generalizing histogram with
  | nil => simp
  | cons item items ih =>
    rw [List.foldl_cons, ih, mem_keys_bump, List.mem_cons, or_left_comm, or_assoc]

theorem mem_keys_countRefusal {acc : Refusals} {e : FsmEvent} {k : String} :
    k ∈ (countRefusal acc e).rejectedCriteria.map Prod.fst ↔
      k ∈ rejectedItems e.eventType ∨ k ∈ acc.rejectedCriteria.map Prod.fst := by
  unfold countRefusal rejectedItems
  cases e.eventType with
  | milestoneRejected items => exact mem_keys_foldl_bump
  | _ => exact (or_iff_right List.not_mem_nil).symm

theorem mem_keys_foldl_countRefusal {es : List FsmEvent} {acc : Refusals} {k : String} :
    k ∈ (es.foldl countRefusal acc).rejectedCriteria.map Prod.fst ↔
      (∃ e ∈ es, k ∈ rejectedItems e.eventType) ∨ k ∈ acc.rejectedCriteria.map Prod.fst := by
  induction es generalizing acc with
  | nil => simp
  | cons e es ih =>
    rw [List.foldl_cons, ih, mem_keys_countRefusal, List.exists_mem_cons_iff, or_left_comm,
      or_assoc]

/-- **The histogram of a step names the items that its events reject.** -/
theorem mem_rejectedCriteria {k : String} :
    k ∈ (stepMetrics events profile sid).rejectedCriteria.map Prod.fst ↔
      ∃ e ∈ events, e.stepId = some sid ∧ k ∈ rejectedItems e.eventType := by
  show k ∈ (refusalsAt events sid).rejectedCriteria.map Prod.fst ↔ _
  rw [refusalsAt, mem_keys_foldl_countRefusal, List.map_nil, or_iff_left List.not_mem_nil]
  simp only [List.mem_filter, decide_eq_true_eq, and_assoc]

end Metrics

end ProtocolEnforcer
