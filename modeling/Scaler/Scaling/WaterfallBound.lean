import Mathlib.Algebra.Order.BigOperators.Group.List
import Mathlib.Algebra.Order.Group.Int
import Mathlib.Algebra.Order.Ring.Int
import Scaler.Scaling.Commands

/-! What the waterfall asks of one manager. The command holds a request for all tasks and one for
each set of capabilities; every request is cut to the capacity by itself, and the manager adds
them up. -/

namespace Scaler

open Collections

section Sums

variable {cap : Int} {demands : List Int}

theorem sum_min_nonneg (hnonneg : ∀ d ∈ demands, 0 ≤ d) (hcap : 0 ≤ cap) : 0 ≤ (demands.map (min · cap)).sum := by
  refine List.sum_nonneg fun m hm => ?_
  obtain ⟨d, hd, rfl⟩ := List.mem_map.mp hm
  exact le_min (hnonneg d hd) hcap

theorem sum_min_eq_of_lt (hnonneg : ∀ d ∈ demands, 0 ≤ d) (hcap : 0 ≤ cap)
    (h : (demands.map (min · cap)).sum < cap) : (demands.map (min · cap)).sum = demands.sum := by
  induction demands with
  | nil => rfl
  | cons d ds ih =>
    have hd : 0 ≤ d := hnonneg d List.mem_cons_self
    have hrest := sum_min_nonneg (fun d' hd' => hnonneg d' (List.mem_cons_of_mem d hd')) hcap
    rw [List.map_cons, List.sum_cons] at h ⊢
    have hih := ih (fun d' hd' => hnonneg d' (List.mem_cons_of_mem _ hd')) (by omega)
    rw [hih, List.sum_cons]
    omega

theorem eq_zero_of_sum_min (hnonneg : ∀ d ∈ demands, 0 ≤ d) (hcap : 0 < cap)
    (h : (demands.map (min · cap)).sum = 0) : ∀ d ∈ demands, d = 0 := by
  intro d hd
  have hmins : ∀ m ∈ demands.map (min · cap), 0 ≤ m := by
    intro m hm
    obtain ⟨d', hd', rfl⟩ := List.mem_map.mp hm
    exact le_min (hnonneg d' hd') (by omega)
  have hle : min d cap ≤ (demands.map (min · cap)).sum := List.single_le_sum hmins _ (List.mem_map_of_mem hd)
  have hd0 := hnonneg d hd
  omega

theorem sum_min_le_of_one (hnonneg : ∀ d ∈ demands, 0 ≤ d) (hcap : 0 ≤ cap) (h : demands.countP (0 < ·) ≤ 1) :
    (demands.map (min · cap)).sum ≤ cap := by
  induction demands with
  | nil => exact hcap
  | cons d ds ih =>
    have hd : 0 ≤ d := hnonneg d List.mem_cons_self
    have htail : ∀ d' ∈ ds, 0 ≤ d' := fun d' hd' => hnonneg d' (List.mem_cons_of_mem _ hd')
    rw [List.map_cons, List.sum_cons]
    by_cases hpos : 0 < d
    · have hnone : ds.countP (0 < ·) = 0 := by
        rw [List.countP_cons_of_pos (by simpa using hpos)] at h
        omega
      have hzero : ds.map (min · cap) = ds.map fun _ => 0 := by
        refine List.map_congr_left fun d' hd' => ?_
        have hle : ¬0 < d' := by simpa using List.countP_eq_zero.mp hnone d' hd'
        have hge := htail d' hd'
        omega
      have hsum : (ds.map fun _ => (0 : Int)).sum = 0 := by simp
      rw [hzero, hsum]
      omega
    · rw [List.countP_cons_of_neg (by simpa using hpos)] at h
      have hrest := ih htail h
      omega

/-- Demands that are cut one by one stay below the bound in these cases only. -/
theorem sum_min_le_iff (hnonneg : ∀ d ∈ demands, 0 ≤ d) (hcap : 0 ≤ cap) :
    (demands.map (min · cap)).sum ≤ cap ↔
      cap = 0 ∨ demands.sum ≤ cap ∨ demands.countP (0 < ·) ≤ 1 := by
  constructor
  · intro h
    induction demands with
    | nil => exact .inr (.inl hcap)
    | cons d ds ih =>
      have hd : 0 ≤ d := hnonneg d List.mem_cons_self
      have htail : ∀ d' ∈ ds, 0 ≤ d' := fun d' hd' => hnonneg d' (List.mem_cons_of_mem _ hd')
      have hrest := sum_min_nonneg htail hcap
      rw [List.map_cons, List.sum_cons] at h
      rw [List.sum_cons]
      by_cases hpos : 0 < d
      · rw [List.countP_cons_of_pos (by simpa using hpos)]
        by_cases hzero : cap = 0
        · exact .inl hzero
        by_cases hnone : (ds.map (min · cap)).sum = 0
        · have hall := eq_zero_of_sum_min htail (by omega) hnone
          have hcount : ds.countP (0 < ·) = 0 := List.countP_eq_zero.mpr fun d' hd' => by simp [hall d' hd']
          exact .inr (.inr (by omega))
        · have hsum := sum_min_eq_of_lt htail hcap (by omega)
          exact .inr (.inl (by omega))
      · rw [List.countP_cons_of_neg (by simpa using hpos)]
        rcases ih htail (by omega) with hzero | hsum | hcount
        · exact .inl hzero
        · exact .inr (.inl (by omega))
        · exact .inr (.inr hcount)
  · rintro (rfl | hsum | hcount)
    · have hzero : demands.map (min · (0 : Int)) = demands.map fun _ => 0 :=
        List.map_congr_left fun d hd => min_eq_right (hnonneg d hd)
      rw [hzero]
      simp
    · refine le_trans ?_ hsum
      calc (demands.map (min · cap)).sum ≤ (demands.map id).sum :=
            List.sum_le_sum fun d _ => min_le_left d cap
        _ = demands.sum := by rw [List.map_id]
    · exact sum_min_le_of_one hnonneg hcap hcount

end Sums

namespace WaterfallScalingPolicy

variable {policy : WaterfallScalingPolicy} {rule : WaterfallRule} {information : InformationSnapshot}
  {heartbeat : WorkerManagerHeartbeat} {snapshots : Dict Bytes WorkerManagerSnapshot}

/-- What is left when the loop comes to the manager, if it comes to it. -/
def leftFor (capacity : WaterfallRule → Option Int) (currentRule : WaterfallRule) : List WaterfallRule → Int → Option Int
  | [], _ => none
  | rule :: rules, remaining =>
    match capacity rule with
    | none => leftFor capacity currentRule rules remaining
    | some cap =>
      if rule.workerManagerId = currentRule.workerManagerId then some remaining
      else leftFor capacity currentRule rules (max 0 (remaining - cap))

/-- What the managers before this one leave of the target for all tasks. -/
def genericLeft (policy : WaterfallScalingPolicy) (rule : WaterfallRule) (information : InformationSnapshot)
    (heartbeat : WorkerManagerHeartbeat) (snapshots : Dict Bytes WorkerManagerSnapshot) : Int :=
  (leftFor (effectiveCapacity rule heartbeat snapshots) rule policy.rules
    (totalDesired information.tasks.length)).getD 0

/-- What they leave of the target for a set of capabilities. -/
def capsetLeft (policy : WaterfallScalingPolicy) (rule : WaterfallRule) (information : InformationSnapshot)
    (heartbeat : WorkerManagerHeartbeat) (snapshots : Dict Bytes WorkerManagerSnapshot)
    (requiredKeys : Finset String) : Int :=
  (leftFor (offeredCapacity requiredKeys rule heartbeat snapshots) rule policy.rules
    (totalDesired (capsetTaskCount requiredKeys information))).getD 0

/-- The parts of the target that come down to the manager: of all tasks, and of each set of
capabilities whose first task asks for what the manager has. -/
def demands (policy : WaterfallScalingPolicy) (rule : WaterfallRule) (information : InformationSnapshot)
    (heartbeat : WorkerManagerHeartbeat) (snapshots : Dict Bytes WorkerManagerSnapshot) : List Int :=
  policy.genericLeft rule information heartbeat snapshots ::
    (((tasksByCapability information).entries.filter fun entry => itemsSubset entry.2 heartbeat.capabilities).map
      fun entry => policy.capsetLeft rule information heartbeat snapshots entry.1)

/-- The number of workers the manager derives from the command. -/
def derivedCount (policy : WaterfallScalingPolicy) (rule : WaterfallRule) (information : InformationSnapshot)
    (heartbeat : WorkerManagerHeartbeat) (snapshots : Dict Bytes WorkerManagerSnapshot) : Nat :=
  extractDesiredCount (buildSetDesiredCommand (policy.computeDesiredPerCapset rule information heartbeat snapshots))
    heartbeat.capabilities

/-- The capacity of a manager where -1 stands for no limit. -/
def limit (rule : WaterfallRule) (reported : Int) : Option Int :=
  if reported = -1 then rule.maxTaskConcurrency else some (capped rule reported)

/-- The share of a manager with a capacity: what is left, up to the capacity. -/
theorem shareOf_of_capacity {capacity : WaterfallRule → Option Int} {cap : Int} (hcap : capacity rule = some cap)
    {rules : List WaterfallRule} (hids : (rules.map (·.workerManagerId)).Nodup) (hrule : rule ∈ rules)
    {remaining : Int} (hremaining : 0 ≤ remaining) :
    0 ≤ (leftFor capacity rule rules remaining).getD 0 ∧
      shareOf capacity rule rules remaining = min ((leftFor capacity rule rules remaining).getD 0) cap := by
  induction rules generalizing remaining with
  | nil => cases hrule
  | cons r rules ih =>
    rw [List.map_cons, List.nodup_cons] at hids
    rcases List.mem_cons.mp hrule with rfl | hrule
    · simp only [leftFor, shareOf, hcap, if_true, Option.getD_some, and_true]
      exact hremaining
    · have hne : r.workerManagerId ≠ rule.workerManagerId := fun he =>
        hids.1 (he ▸ List.mem_map_of_mem hrule)
      cases hr : capacity r with
      | none =>
        simp only [leftFor, shareOf, hr]
        exact ih hids.2 hrule hremaining
      | some c =>
        simp only [leftFor, shareOf, hr, hne, if_false]
        exact ih hids.2 hrule (le_max_left 0 _)

/-- The capacity of the manager itself does not matter for what is left for it. -/
theorem leftFor_congr {capacity capacity' : WaterfallRule → Option Int}
    (hother : ∀ r, r.workerManagerId ≠ rule.workerManagerId → capacity r = capacity' r)
    (hown : ∀ r, r.workerManagerId = rule.workerManagerId → (capacity r).isSome = (capacity' r).isSome)
    (rules : List WaterfallRule) (remaining : Int) :
    leftFor capacity rule rules remaining = leftFor capacity' rule rules remaining := by
  induction rules generalizing remaining with
  | nil => rfl
  | cons r rules ih =>
    by_cases hid : r.workerManagerId = rule.workerManagerId
    · have hsome := hown r hid
      cases hc : capacity r with
      | none =>
        cases hc' : capacity' r with
        | none =>
          simp only [leftFor, hc, hc']
          exact ih remaining
        | some cap' => simp [hc, hc'] at hsome
      | some cap =>
        cases hc' : capacity' r with
        | none => simp [hc, hc'] at hsome
        | some cap' => simp only [leftFor, hc, hc', hid, if_true]
    · have hsame := hother r hid
      cases hc : capacity r with
      | none =>
        simp only [leftFor, ← hsame, hc]
        exact ih remaining
      | some cap =>
        simp only [leftFor, ← hsame, hc, hid, if_false]
        exact ih _

theorem mem_tasksByCapability {requiredKeys : Finset String} {task : Capabilities}
    (h : (requiredKeys, task) ∈ (tasksByCapability information).entries) :
    requiredKeys = keySet task ∧ task ∈ information.tasks := by
  have hfold : ∀ (tasks : List Capabilities) (d : Dict (Finset String) Capabilities),
      (∀ k t, d.get? k = some t → k = keySet t ∧ t ∈ information.tasks) → (∀ t ∈ tasks, t ∈ information.tasks) →
      ∀ k t, (tasks.foldl (fun d task =>
        if task.keys = [] ∨ d.contains (keySet task) then d else d.set (keySet task) task) d).get? k = some t →
        k = keySet t ∧ t ∈ information.tasks := by
    intro tasks
    induction tasks with
    | nil => exact fun d hd _ => hd
    | cons task tasks ih =>
      intro d hd htasks
      refine ih _ (fun k t hget => ?_) fun t ht => htasks t (List.mem_cons_of_mem _ ht)
      beta_reduce at hget
      split at hget
      · exact hd k t hget
      · rcases Dict.get?_set_cases hget with ⟨rfl, rfl⟩ | hold
        · exact ⟨rfl, htasks _ List.mem_cons_self⟩
        · exact hd k t hold
  refine hfold information.tasks .empty (fun k t hget => ?_) (fun t ht => ht) requiredKeys task
    ((Dict.mem_entries _ _ _).mp h)
  cases hget

theorem capsetTaskCount_ne_zero {task : Capabilities} (h : task ∈ information.tasks) :
    capsetTaskCount (keySet task) information ≠ 0 := by
  rw [capsetTaskCount]
  have hpos : 0 < information.tasks.countP fun t => keySet t = keySet task :=
    List.countP_pos_iff.mpr ⟨task, h, by simp⟩
  omega

theorem effectiveCapacity_self : effectiveCapacity rule heartbeat snapshots rule =
    some (capped rule heartbeat.maxTaskConcurrency) := if_pos rfl

theorem offeredCapacity_self {requiredKeys : Finset String} (h : requiredKeys ⊆ keySet heartbeat.capabilities) :
    offeredCapacity requiredKeys rule heartbeat snapshots rule = some (capped rule heartbeat.maxTaskConcurrency) := by
  simp only [offeredCapacity, if_true, h]
  exact effectiveCapacity_self

section Derived

variable (hids : (policy.rules.map (·.workerManagerId)).Nodup) (hrule : rule ∈ policy.rules)

include hids hrule in
theorem allocateGenericDesired_eq (htasks : information.tasks ≠ []) :
    0 ≤ policy.genericLeft rule information heartbeat snapshots ∧
      policy.allocateGenericDesired rule information heartbeat snapshots =
        min (policy.genericLeft rule information heartbeat snapshots) (capped rule heartbeat.maxTaskConcurrency) := by
  rw [allocateGenericDesired, if_neg fun h => htasks (List.eq_nil_of_length_eq_zero h)]
  exact shareOf_of_capacity effectiveCapacity_self hids hrule (Int.natCast_nonneg _)

include hids hrule in
theorem allocateCapsetDesired_eq {requiredKeys : Finset String} {task : Capabilities}
    (hentry : (requiredKeys, task) ∈ (tasksByCapability information).entries)
    (hmatch : itemsSubset task heartbeat.capabilities = true) :
    0 ≤ policy.capsetLeft rule information heartbeat snapshots requiredKeys ∧
      policy.allocateCapsetDesired rule requiredKeys information heartbeat snapshots =
        min (policy.capsetLeft rule information heartbeat snapshots requiredKeys)
          (capped rule heartbeat.maxTaskConcurrency) := by
  obtain ⟨rfl, htask⟩ := mem_tasksByCapability hentry
  rw [allocateCapsetDesired, if_neg (capsetTaskCount_ne_zero htask)]
  exact shareOf_of_capacity (offeredCapacity_self (keySet_subset hmatch)) hids hrule (Int.natCast_nonneg _)

include hids hrule in
theorem demands_nonneg (htasks : information.tasks ≠ []) :
    ∀ d ∈ policy.demands rule information heartbeat snapshots, 0 ≤ d := by
  intro d hd
  rcases List.mem_cons.mp hd with rfl | hd
  · exact (allocateGenericDesired_eq hids hrule htasks).1
  · obtain ⟨entry, hentry, rfl⟩ := List.mem_map.mp hd
    obtain ⟨hmem, hmatch⟩ := List.mem_filter.mp hentry
    exact (allocateCapsetDesired_eq hids hrule hmem hmatch).1

theorem sum_filter_pos (l : List (Capabilities × Int)) (q : Capabilities × Int → Bool) :
    (((l.filter fun e => 0 < e.2).filter q).map fun e => max 0 e.2).sum = ((l.filter q).map fun e => max 0 e.2).sum := by
  induction l with
  | nil => rfl
  | cons e l ih =>
    by_cases hpos : 0 < e.2
    · rw [List.filter_cons_of_pos (by simpa using hpos), List.filter_cons, List.filter_cons]
      split
      · rw [List.map_cons, List.sum_cons, List.map_cons, List.sum_cons, ih]
      · exact ih
    · rw [List.filter_cons_of_neg (by simpa using hpos), ih, List.filter_cons]
      split
      · rw [List.map_cons, List.sum_cons, max_eq_left (not_lt.mp hpos), zero_add]
      · rfl

include hids hrule in
theorem derivedCount_eq (htasks : information.tasks ≠ []) :
    (policy.derivedCount rule information heartbeat snapshots : Int) =
      ((policy.demands rule information heartbeat snapshots).map fun d =>
        max 0 (min d (capped rule heartbeat.maxTaskConcurrency))).sum := by
  rw [derivedCount, extractDesiredCount_build, computeDesiredPerCapset, List.filter_cons,
    if_pos (itemsSubset_empty _), List.map_cons, List.sum_cons, sum_filter_pos, demands, List.map_cons, List.sum_cons,
    (allocateGenericDesired_eq hids hrule htasks).2]
  congr 2
  rw [List.filter_map, List.map_map, List.map_map]
  refine List.map_congr_left fun entry hentry => ?_
  obtain ⟨hmem, hmatch⟩ := List.mem_filter.mp hentry
  simp only [Function.comp_apply]
  rw [(allocateCapsetDesired_eq hids hrule hmem hmatch).2]

include hids hrule in
theorem derivedCount_of_nonneg (htasks : information.tasks ≠ []) (hcap : 0 ≤ capped rule heartbeat.maxTaskConcurrency) :
    (policy.derivedCount rule information heartbeat snapshots : Int) =
      ((policy.demands rule information heartbeat snapshots).map
        (min · (capped rule heartbeat.maxTaskConcurrency))).sum := by
  rw [derivedCount_eq hids hrule htasks]
  congr 1
  refine List.map_congr_left fun d hd => ?_
  have hd' := demands_nonneg hids hrule htasks d hd
  omega

include hids hrule in
theorem derivedCount_of_neg (htasks : information.tasks ≠ []) (hcap : capped rule heartbeat.maxTaskConcurrency < 0) :
    policy.derivedCount rule information heartbeat snapshots = 0 := by
  have hsum := @derivedCount_eq policy rule information heartbeat snapshots hids hrule htasks
  have hzero : ((policy.demands rule information heartbeat snapshots).map fun d =>
      max 0 (min d (capped rule heartbeat.maxTaskConcurrency))) =
        (policy.demands rule information heartbeat snapshots).map fun _ => (0 : Int) := by
    refine List.map_congr_left fun d _ => ?_
    omega
  rw [hzero] at hsum
  simpa using hsum

/-- Without tasks there is only the count to hold. -/
theorem derivedCount_of_no_tasks (htasks : information.tasks = []) :
    policy.derivedCount rule information heartbeat snapshots = policy.heldCount rule snapshots := by
  have hnone : tasksByCapability information = .empty := by
    rw [tasksByCapability, htasks]
    rfl
  have hsum : (policy.derivedCount rule information heartbeat snapshots : Int) = policy.heldCount rule snapshots := by
    rw [derivedCount, extractDesiredCount_build, computeDesiredPerCapset, hnone, allocateGenericDesired,
      if_pos (by rw [htasks]; rfl)]
    have hentries : (Dict.empty : Dict (Finset String) Capabilities).entries = [] := rfl
    rw [hentries, List.map_nil, List.filter_nil, List.filter_cons, if_pos (itemsSubset_empty _), List.filter_nil,
      List.map_singleton, List.sum_singleton]
    omega
  omega

theorem demands_congr (n : Int) :
    policy.demands rule information { heartbeat with maxTaskConcurrency := n } snapshots =
      policy.demands rule information heartbeat snapshots := by
  have hgeneric : ∀ rules remaining,
      leftFor (effectiveCapacity rule { heartbeat with maxTaskConcurrency := n } snapshots) rule rules remaining =
        leftFor (effectiveCapacity rule heartbeat snapshots) rule rules remaining := by
    refine fun rules remaining => leftFor_congr (fun r hid => ?_) (fun r hid => ?_) rules remaining
    · simp only [effectiveCapacity, hid, if_false]
    · simp only [effectiveCapacity, hid, if_true, Option.isSome_some]
  have hcapset : ∀ requiredKeys rules remaining,
      leftFor (offeredCapacity requiredKeys rule { heartbeat with maxTaskConcurrency := n } snapshots) rule rules
          remaining = leftFor (offeredCapacity requiredKeys rule heartbeat snapshots) rule rules remaining := by
    refine fun requiredKeys rules remaining => leftFor_congr (fun r hid => ?_) (fun r hid => ?_) rules remaining
    · simp only [offeredCapacity, effectiveCapacity, hid, if_false]
    · simp only [offeredCapacity, effectiveCapacity, hid, if_true]
      split
      · rfl
      · rfl
  simp only [demands, genericLeft, capsetLeft, hgeneric, hcapset]

end Derived

/-- The count is within the capacity, and a manager without a limit gets what a manager with a
large enough capacity gets. -/
structure WithinCapacity (policy : WaterfallScalingPolicy) (rule : WaterfallRule) (information : InformationSnapshot)
    (heartbeat : WorkerManagerHeartbeat) (snapshots : Dict Bytes WorkerManagerSnapshot) : Prop where
  bounded : ∀ cap, limit rule heartbeat.maxTaskConcurrency = some cap →
    0 ≤ (policy.derivedCount rule information heartbeat snapshots : Int) ∧
      (policy.derivedCount rule information heartbeat snapshots : Int) ≤ cap
  unlimited : limit rule heartbeat.maxTaskConcurrency = none → ∃ large : Int, ∀ n, large ≤ n →
    policy.derivedCount rule information heartbeat snapshots =
      policy.derivedCount rule information { heartbeat with maxTaskConcurrency := n } snapshots

/-- Some rule with a larger priority number has connected workers. -/
def LowerHolds (policy : WaterfallScalingPolicy) (rule : WaterfallRule)
    (snapshots : Dict Bytes WorkerManagerSnapshot) : Prop :=
  ∃ lower ∈ policy.rules, rule.priority < lower.priority ∧
    ∃ snap, snapshots.get? lower.workerManagerId = some snap ∧ 0 < snap.workerCount

/-- The workers the snapshots know of the manager. -/
def connectedCount (rule : WaterfallRule) (snapshots : Dict Bytes WorkerManagerSnapshot) : Nat :=
  ((snapshots.get? rule.workerManagerId).map (·.workerCount)).getD 0

/-- When the requests fit. Without tasks, no manager of a lower priority has workers, or the
manager's own workers are within the capacity, which is not negative. With tasks and without a
limit, nothing comes down to the manager. With a capacity, it is not negative, and the manager
reports -1 or has no capacity at all, or its demands add up to at most the capacity, or only one of
them is positive. -/
def Fits (policy : WaterfallScalingPolicy) (rule : WaterfallRule) (information : InformationSnapshot)
    (heartbeat : WorkerManagerHeartbeat) (snapshots : Dict Bytes WorkerManagerSnapshot) : Prop :=
  (information.tasks = [] → ∀ cap, limit rule heartbeat.maxTaskConcurrency = some cap →
    0 ≤ cap ∧ (¬policy.LowerHolds rule snapshots ∨ (connectedCount rule snapshots : Int) ≤ cap)) ∧
    (information.tasks ≠ [] →
      (limit rule heartbeat.maxTaskConcurrency = none →
        (policy.demands rule information heartbeat snapshots).sum = 0) ∧
      ∀ cap, limit rule heartbeat.maxTaskConcurrency = some cap → 0 ≤ cap ∧
        (heartbeat.maxTaskConcurrency = -1 ∨ cap = 0 ∨
          (policy.demands rule information heartbeat snapshots).sum ≤ cap ∨
          (policy.demands rule information heartbeat snapshots).countP (0 < ·) ≤ 1))

theorem heldCount_of_lowerHolds (h : policy.LowerHolds rule snapshots) :
    policy.heldCount rule snapshots = connectedCount rule snapshots := by
  obtain ⟨lower, hlower, hpriority, snap, hsnap, hcount⟩ := h
  rw [heldCount, if_pos (List.any_eq_true.mpr ⟨lower, hlower, by simp [hpriority, hsnap, hcount]⟩), connectedCount]
  cases snapshots.get? rule.workerManagerId with
  | none => rfl
  | some own => rfl

theorem heldCount_of_not_lowerHolds (h : ¬policy.LowerHolds rule snapshots) :
    policy.heldCount rule snapshots = 0 := by
  rw [heldCount, if_neg]
  intro hany
  obtain ⟨lower, hlower, hholds⟩ := List.any_eq_true.mp hany
  rw [Bool.and_eq_true, decide_eq_true_eq] at hholds
  refine h ⟨lower, hlower, hholds.1, ?_⟩
  cases hsnap : snapshots.get? lower.workerManagerId with
  | none => simp [hsnap] at hholds
  | some snap => exact ⟨snap, rfl, by simpa [hsnap] using hholds.2⟩

/-- The count to hold is within a capacity exactly when there is nothing to wait for or the
manager's own workers are within it. -/
theorem heldCount_le_iff {cap : Int} : (policy.heldCount rule snapshots : Int) ≤ cap ↔
    0 ≤ cap ∧ (¬policy.LowerHolds rule snapshots ∨ (connectedCount rule snapshots : Int) ≤ cap) := by
  by_cases hlower : policy.LowerHolds rule snapshots
  · rw [heldCount_of_lowerHolds hlower]
    constructor
    · exact fun hle => ⟨le_trans (Int.natCast_nonneg _) hle, .inr hle⟩
    · rintro ⟨-, hnone | hle⟩
      · exact absurd hlower hnone
      · exact hle
  · rw [heldCount_of_not_lowerHolds hlower]
    exact ⟨fun hle => ⟨hle, .inl hlower⟩, fun h => h.1⟩

section Bound

variable (hids : (policy.rules.map (·.workerManagerId)).Nodup) (hrule : rule ∈ policy.rules)

theorem limit_eq_none (h : limit rule heartbeat.maxTaskConcurrency = none) :
    heartbeat.maxTaskConcurrency = -1 ∧ rule.maxTaskConcurrency = none := by
  unfold limit at h
  split at h
  · rename_i hreported
    exact ⟨hreported, h⟩
  · cases h

include hids hrule in
/-- A capacity that exceeds all demands is no limit. -/
theorem derivedCount_of_large (htasks : information.tasks ≠ []) (hnone : rule.maxTaskConcurrency = none) {n : Int}
    (hn : (policy.demands rule information heartbeat snapshots).sum ≤ n) :
    (policy.derivedCount rule information { heartbeat with maxTaskConcurrency := n } snapshots : Int) =
      (policy.demands rule information heartbeat snapshots).sum := by
  have hnonneg := @demands_nonneg policy rule information heartbeat snapshots hids hrule htasks
  have hcapped : capped rule n = n := by rw [capped, hnone]
  have hn0 : 0 ≤ n := le_trans (List.sum_nonneg hnonneg) hn
  rw [derivedCount_of_nonneg hids hrule htasks (by rwa [hcapped]), demands_congr, hcapped]
  have hsame : (policy.demands rule information heartbeat snapshots).map (min · n) =
      (policy.demands rule information heartbeat snapshots).map id := by
    refine List.map_congr_left fun d hd => min_eq_left ?_
    exact le_trans (List.single_le_sum hnonneg d hd) hn
  rw [hsame, List.map_id]

include hids hrule in
theorem unlimited_iff (htasks : information.tasks ≠ []) (hlimit : limit rule heartbeat.maxTaskConcurrency = none) :
    (∃ large : Int, ∀ n, large ≤ n → policy.derivedCount rule information heartbeat snapshots =
        policy.derivedCount rule information { heartbeat with maxTaskConcurrency := n } snapshots) ↔
      (policy.demands rule information heartbeat snapshots).sum = 0 := by
  obtain ⟨hreported, hnone⟩ := limit_eq_none hlimit
  have hzero : policy.derivedCount rule information heartbeat snapshots = 0 := by
    refine derivedCount_of_neg hids hrule htasks ?_
    rw [capped, hnone, hreported]
    decide
  rw [hzero]
  constructor
  · rintro ⟨large, hlarge⟩
    have hcount := hlarge _ (le_max_left large (policy.demands rule information heartbeat snapshots).sum)
    have hsum := derivedCount_of_large hids hrule htasks hnone
      (le_max_right large (policy.demands rule information heartbeat snapshots).sum)
    rw [← hcount] at hsum
    exact hsum.symm
  · intro hsum
    refine ⟨0, fun n hn => ?_⟩
    have hcount := @derivedCount_of_large policy rule information heartbeat snapshots hids hrule htasks hnone n
      (hsum ▸ hn)
    rw [hsum] at hcount
    omega

include hids hrule in
theorem bounded_iff (htasks : information.tasks ≠ []) {cap : Int}
    (hlimit : limit rule heartbeat.maxTaskConcurrency = some cap) :
    (policy.derivedCount rule information heartbeat snapshots : Int) ≤ cap ↔
      0 ≤ cap ∧ (heartbeat.maxTaskConcurrency = -1 ∨ cap = 0 ∨
        (policy.demands rule information heartbeat snapshots).sum ≤ cap ∨
        (policy.demands rule information heartbeat snapshots).countP (0 < ·) ≤ 1) := by
  have hnonneg := @demands_nonneg policy rule information heartbeat snapshots hids hrule htasks
  by_cases hunlimited : heartbeat.maxTaskConcurrency = -1
  · have hrulecap : rule.maxTaskConcurrency = some cap := by rwa [limit, if_pos hunlimited] at hlimit
    have hzero : policy.derivedCount rule information heartbeat snapshots = 0 := by
      refine derivedCount_of_neg hids hrule htasks ?_
      simp only [capped, hrulecap, hunlimited]
      omega
    rw [hzero]
    exact ⟨fun h => ⟨h, .inl hunlimited⟩, fun h => h.1⟩
  · have hcapped : capped rule heartbeat.maxTaskConcurrency = cap := by
      rw [limit, if_neg hunlimited] at hlimit
      exact Option.some.inj hlimit
    by_cases hcap : 0 ≤ cap
    · rw [derivedCount_of_nonneg hids hrule htasks (by rwa [hcapped]), hcapped, sum_min_le_iff hnonneg hcap]
      constructor
      · exact fun h => ⟨hcap, .inr h⟩
      · rintro ⟨-, h | h⟩
        · exact absurd h hunlimited
        · exact h
    · rw [derivedCount_of_neg hids hrule htasks (by omega)]
      exact ⟨fun h => absurd h hcap, fun h => absurd h.1 hcap⟩

end Bound

/-- The waterfall keeps a manager within its capacity exactly when its requests fit. -/
theorem withinCapacity_iff_fits (rules : List WaterfallRule) (hids : (rules.map (·.workerManagerId)).Nodup)
    (information : InformationSnapshot) (heartbeat : WorkerManagerHeartbeat)
    (snapshots : Dict Bytes WorkerManagerSnapshot) (rule : WaterfallRule)
    (hfind : (create rules).findRule heartbeat.workerManagerID = some rule) :
    WithinCapacity (create rules) rule information heartbeat snapshots ↔
      Fits (create rules) rule information heartbeat snapshots := by
  have hsorted : ((create rules).rules.map (·.workerManagerId)).Nodup :=
    ((List.mergeSort_perm rules _).map _).nodup_iff.mpr hids
  have hrule : rule ∈ (create rules).rules := List.mem_reverse.mp (List.mem_of_find?_eq_some hfind)
  by_cases htasks : information.tasks = []
  · have hcount : ∀ h, (create rules).derivedCount rule information h snapshots = (create rules).heldCount rule snapshots :=
      fun h => derivedCount_of_no_tasks htasks
    constructor
    · intro hwithin
      refine ⟨fun _ cap hcap => ?_, fun hne => absurd htasks hne⟩
      rw [← heldCount_le_iff, ← hcount heartbeat]
      exact (hwithin.bounded cap hcap).2
    · intro hfits
      refine ⟨fun cap hcap => ⟨Int.natCast_nonneg _, ?_⟩, fun _ => ⟨0, fun n _ => ?_⟩⟩
      · rw [hcount]
        exact heldCount_le_iff.mpr (hfits.1 htasks cap hcap)
      · rw [hcount, hcount]
  · constructor
    · intro hwithin
      refine ⟨fun he => absurd he htasks, fun _ => ⟨fun hnone => ?_, fun cap hcap => ?_⟩⟩
      · exact (unlimited_iff hsorted hrule htasks hnone).mp (hwithin.unlimited hnone)
      · exact (bounded_iff hsorted hrule htasks hcap).mp (hwithin.bounded cap hcap).2
    · intro hfits
      refine ⟨fun cap hcap => ⟨Int.natCast_nonneg _, ?_⟩, fun hnone => ?_⟩
      · exact (bounded_iff hsorted hrule htasks hcap).mpr ((hfits.2 htasks).2 cap hcap)
      · exact (unlimited_iff hsorted hrule htasks hnone).mpr ((hfits.2 htasks).1 hnone)

section Example

def soleRule : WaterfallRule := ⟨1, [1], none⟩

/-- A task that asks for a gpu. -/
def gpuTask : Capabilities := Dict.empty.set "gpu" 1

def gpuHeartbeat (maxTaskConcurrency : Int) : WorkerManagerHeartbeat := ⟨[1], maxTaskConcurrency, gpuTask⟩

theorem withinCapacity_iff_fits_plain :
    (create [soleRule]).findRule (gpuHeartbeat 2).workerManagerID = some soleRule ∧
      (WithinCapacity (create [soleRule]) soleRule ⟨[.empty], 0⟩ (gpuHeartbeat 2) .empty ↔
        Fits (create [soleRule]) soleRule ⟨[.empty], 0⟩ (gpuHeartbeat 2) .empty) :=
  ⟨by decide +kernel, withinCapacity_iff_fits [soleRule] (by decide) ⟨[.empty], 0⟩ (gpuHeartbeat 2) .empty soleRule
    (by decide +kernel)⟩

/-- One task with a capability, one manager with room for one worker: it is asked for two. And a
manager that reports no limit is asked for none. -/
theorem waterfall_exceeds_capacity :
    ¬WithinCapacity (create [soleRule]) soleRule ⟨[gpuTask], 0⟩ (gpuHeartbeat 1) .empty ∧
      ¬WithinCapacity (create [soleRule]) soleRule ⟨[.empty], 0⟩ (gpuHeartbeat (-1)) .empty := by
  have hids : ((create [soleRule]).rules.map (·.workerManagerId)).Nodup := by decide +kernel
  have hrule : soleRule ∈ (create [soleRule]).rules := by decide +kernel
  constructor
  · intro h
    have hcount : ((create [soleRule]).derivedCount soleRule ⟨[gpuTask], 0⟩ (gpuHeartbeat 1) .empty : Int) ≤ 1 :=
      (h.bounded 1 rfl).2
    revert hcount
    decide +kernel
  · intro h
    have hsum := (unlimited_iff hids hrule (List.cons_ne_nil _ _) rfl).mp (h.unlimited rfl)
    revert hsum
    decide +kernel

end Example

end WaterfallScalingPolicy

end Scaler
