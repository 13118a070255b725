import Scaler.Collections.GreedyFill
import Scaler.Scaling.Policies

/-! The waterfall over all managers. Every manager is answered from its own heartbeat and from
snapshots of the others; where these agree, the answers are one greedy fill. -/

namespace Scaler

open Collections

namespace WaterfallScalingPolicy

variable {policy : WaterfallScalingPolicy} {managers : List WorkerManagerHeartbeat}
  {workerCount : Bytes → Nat} {information : InformationSnapshot} {requiredKeys : Finset String}

def heartbeatOf (managers : List WorkerManagerHeartbeat) (rule : WaterfallRule) : Option WorkerManagerHeartbeat :=
  managers.find? fun heartbeat => heartbeat.workerManagerID = rule.workerManagerId

/-- The managers that are online, with their rules and in the order of the rules. -/
def onlineRules (policy : WaterfallScalingPolicy) (managers : List WorkerManagerHeartbeat) :
    List (WaterfallRule × WorkerManagerHeartbeat) :=
  policy.rules.filterMap fun rule => (heartbeatOf managers rule).map fun heartbeat => (rule, heartbeat)

def capacityOf (online : WaterfallRule × WorkerManagerHeartbeat) : Int :=
  capped online.1 online.2.maxTaskConcurrency

def offers (requiredKeys : Finset String) (online : WaterfallRule × WorkerManagerHeartbeat) : Bool :=
  requiredKeys ⊆ keySet online.2.capabilities

/-- The generic count that answers a heartbeat. -/
def genericCount (policy : WaterfallScalingPolicy) (information : InformationSnapshot)
    (managers : List WorkerManagerHeartbeat) (workerCount : Bytes → Nat) (heartbeat : WorkerManagerHeartbeat) : Int :=
  match policy.findRule heartbeat.workerManagerID with
  | none => 0
  | some rule =>
    policy.allocateGenericDesired rule information heartbeat (buildManagerSnapshots managers workerCount)

/-- The count for a set of capabilities that answers a heartbeat. -/
def capsetCount (policy : WaterfallScalingPolicy) (requiredKeys : Finset String) (information : InformationSnapshot)
    (managers : List WorkerManagerHeartbeat) (workerCount : Bytes → Nat) (heartbeat : WorkerManagerHeartbeat) : Int :=
  match policy.findRule heartbeat.workerManagerID with
  | none => 0
  | some rule =>
    policy.allocateCapsetDesired rule requiredKeys information heartbeat (buildManagerSnapshots managers workerCount)

/-- With one view of the capacities, the shares of the rules are a greedy fill. -/
theorem filterMap_shareOf (capacity : WaterfallRule → Option Int) {rules : List WaterfallRule}
    (hids : (rules.map (·.workerManagerId)).Nodup) (remaining : Int) :
    (rules.filterMap fun rule => (capacity rule).map fun _ => shareOf capacity rule rules remaining) =
      greedyFill remaining (rules.filterMap capacity) := by
  induction rules generalizing remaining with
  | nil => rfl
  | cons rule rules ih =>
    rw [List.map_cons, List.nodup_cons] at hids
    have hne : ∀ r ∈ rules, rule.workerManagerId ≠ r.workerManagerId := fun r hr he =>
      hids.1 (he ▸ List.mem_map_of_mem hr)
    cases hcap : capacity rule with
    | none =>
      rw [List.filterMap_cons_none (by simp [hcap]), List.filterMap_cons_none hcap, ← ih hids.2]
      simp only [shareOf, hcap]
    | some cap =>
      have hhead : shareOf capacity rule (rule :: rules) remaining = min remaining cap := by
        simp [shareOf, hcap]
      rw [List.filterMap_cons_some (by rw [hcap, Option.map_some, hhead]), List.filterMap_cons_some hcap,
        greedyFill, ← ih hids.2]
      congr 1
      refine List.filterMap_congr fun r hr => ?_
      simp only [shareOf, hcap, hne r hr, if_false]

theorem nodup_create {rules : List WaterfallRule} (hids : (rules.map (·.workerManagerId)).Nodup) :
    ((create rules).rules.map (·.workerManagerId)).Nodup :=
  ((List.mergeSort_perm rules _).map _).nodup_iff.mpr hids

theorem findRule_of_mem (hids : (policy.rules.map (·.workerManagerId)).Nodup) {rule : WaterfallRule}
    (hrule : rule ∈ policy.rules) : policy.findRule rule.workerManagerId = some rule := by
  cases hfind : policy.findRule rule.workerManagerId with
  | none =>
    have hnone := List.find?_eq_none.mp hfind rule (List.mem_reverse.mpr hrule)
    simp at hnone
  | some rule' =>
    have hmem : rule' ∈ policy.rules := List.mem_reverse.mp (List.mem_of_find?_eq_some hfind)
    have hid : rule'.workerManagerId = rule.workerManagerId := by simpa using List.find?_some hfind
    rw [List.inj_on_of_nodup_map hids hmem hrule hid]

theorem get?_buildManagerSnapshots (hmanagers : (managers.map (·.workerManagerID)).Nodup) (rule : WaterfallRule) :
    (buildManagerSnapshots managers workerCount).get? rule.workerManagerId =
      (heartbeatOf managers rule).map fun heartbeat =>
        ⟨heartbeat.maxTaskConcurrency, workerCount heartbeat.workerManagerID, heartbeat.capabilities⟩ := by
  have hget := Dict.get?_foldl_set (fun heartbeat : WorkerManagerHeartbeat => heartbeat.workerManagerID)
    (fun heartbeat => (⟨heartbeat.maxTaskConcurrency, workerCount heartbeat.workerManagerID,
      heartbeat.capabilities⟩ : WorkerManagerSnapshot)) hmanagers .empty rule.workerManagerId
  rw [Dict.get?_empty, Option.or_none] at hget
  exact hget

section OneView

variable {rule : WaterfallRule} {heartbeat : WorkerManagerHeartbeat}
  (hmanagers : (managers.map (·.workerManagerID)).Nodup) (hheartbeat : heartbeatOf managers rule = some heartbeat)

include hmanagers hheartbeat in
/-- Whoever asks, the capacity of a manager is the same. -/
theorem effectiveCapacity_eq (r : WaterfallRule) :
    effectiveCapacity rule heartbeat (buildManagerSnapshots managers workerCount) r =
      (heartbeatOf managers r).map fun h => capacityOf (r, h) := by
  unfold effectiveCapacity
  split
  · rename_i hid
    have hsame : heartbeatOf managers r = some heartbeat := by
      rw [← hheartbeat, heartbeatOf, heartbeatOf, hid]
    rw [hsame]
    rfl
  · rw [get?_buildManagerSnapshots hmanagers, Option.map_map]
    rfl

include hmanagers hheartbeat in
theorem offeredCapacity_eq (r : WaterfallRule) :
    offeredCapacity requiredKeys rule heartbeat (buildManagerSnapshots managers workerCount) r =
      (heartbeatOf managers r).bind fun h => if offers requiredKeys (r, h) then some (capacityOf (r, h)) else none := by
  have hkeys : (if r.workerManagerId = rule.workerManagerId then some (keySet heartbeat.capabilities)
      else ((buildManagerSnapshots managers workerCount).get? r.workerManagerId).map fun snap =>
        keySet snap.capabilities) = (heartbeatOf managers r).map fun h => keySet h.capabilities := by
    split
    · rename_i hid
      have hsame : heartbeatOf managers r = some heartbeat := by
        rw [← hheartbeat, heartbeatOf, heartbeatOf, hid]
      rw [hsame]
      rfl
    · rw [get?_buildManagerSnapshots hmanagers, Option.map_map]
      rfl
  unfold offeredCapacity
  rw [hkeys]
  cases hr : heartbeatOf managers r with
  | none => rfl
  | some h =>
    simp only [Option.map_some, Option.bind_some, effectiveCapacity_eq hmanagers hheartbeat, hr, offers,
      decide_eq_true_eq]

end OneView

theorem mem_onlineRules {online : WaterfallRule × WorkerManagerHeartbeat} (h : online ∈ onlineRules policy managers) :
    online.1 ∈ policy.rules ∧ heartbeatOf managers online.1 = some online.2 ∧
      online.2.workerManagerID = online.1.workerManagerId := by
  obtain ⟨rule, hrule, he⟩ := List.mem_filterMap.mp h
  obtain ⟨heartbeat, hheartbeat, rfl⟩ := Option.map_eq_some_iff.mp he
  exact ⟨hrule, hheartbeat, by simpa using List.find?_some hheartbeat⟩

/-- The managers online, seen through the rules. -/
theorem map_onlineRules {α : Type} (g : WaterfallRule × WorkerManagerHeartbeat → α) :
    (onlineRules policy managers).map g =
      policy.rules.filterMap fun rule => (heartbeatOf managers rule).map fun h => g (rule, h) := by
  rw [onlineRules, List.map_filterMap]
  simp [Function.comp_def]

theorem map_filter_onlineRules {α : Type} (g : WaterfallRule × WorkerManagerHeartbeat → α)
    (p : WaterfallRule × WorkerManagerHeartbeat → Bool) :
    ((onlineRules policy managers).filter p).map g =
      policy.rules.filterMap fun rule => (heartbeatOf managers rule).bind fun h =>
        if p (rule, h) then some (g (rule, h)) else none := by
  rw [onlineRules]
  induction policy.rules with
  | nil => rfl
  | cons rule rules ih =>
    rw [List.filterMap_cons, List.filterMap_cons]
    cases heartbeatOf managers rule with
    | none => exact ih
    | some h =>
      simp only [Option.map_some, Option.bind_some, List.filter_cons]
      split
      · rw [List.map_cons, ih]
      · exact ih

theorem allocateGenericDesired_of_tasks (htasks : information.tasks ≠ []) (rule : WaterfallRule)
    (heartbeat : WorkerManagerHeartbeat) (snapshots : Dict Bytes WorkerManagerSnapshot) :
    policy.allocateGenericDesired rule information heartbeat snapshots =
      shareOf (effectiveCapacity rule heartbeat snapshots) rule policy.rules
        (totalDesired information.tasks.length) := by
  rw [allocateGenericDesired, if_neg fun h => htasks (List.eq_nil_of_length_eq_zero h)]

theorem genericCounts_eq (hids : (policy.rules.map (·.workerManagerId)).Nodup)
    (hmanagers : (managers.map (·.workerManagerID)).Nodup) (htasks : information.tasks ≠ []) :
    ((onlineRules policy managers).map fun online =>
        policy.genericCount information managers workerCount online.2) =
      greedyFill (totalDesired information.tasks.length) ((onlineRules policy managers).map capacityOf) := by
  have hcount : ∀ online ∈ onlineRules policy managers, policy.genericCount information managers workerCount online.2 =
      shareOf (fun r => (heartbeatOf managers r).map fun h => capacityOf (r, h)) online.1 policy.rules
        (totalDesired information.tasks.length) := by
    intro online honline
    obtain ⟨hrule, hheartbeat, hid⟩ := mem_onlineRules honline
    rw [genericCount, hid, findRule_of_mem hids hrule]
    simp only
    rw [allocateGenericDesired_of_tasks htasks]
    congr 1
    exact funext fun r => effectiveCapacity_eq hmanagers hheartbeat r
  rw [List.map_congr_left hcount, map_onlineRules, map_onlineRules, ← filterMap_shareOf _ hids]
  refine List.filterMap_congr fun rule _ => ?_
  rw [Option.map_map]
  rfl

theorem capsetCounts_eq (hids : (policy.rules.map (·.workerManagerId)).Nodup)
    (hmanagers : (managers.map (·.workerManagerID)).Nodup) (htasks : capsetTaskCount requiredKeys information ≠ 0) :
    (((onlineRules policy managers).filter (offers requiredKeys)).map fun online =>
        policy.capsetCount requiredKeys information managers workerCount online.2) =
      greedyFill (totalDesired (capsetTaskCount requiredKeys information))
        (((onlineRules policy managers).filter (offers requiredKeys)).map capacityOf) := by
  have hcount : ∀ online ∈ (onlineRules policy managers).filter (offers requiredKeys),
      policy.capsetCount requiredKeys information managers workerCount online.2 =
      shareOf (fun r => (heartbeatOf managers r).bind fun h =>
          if offers requiredKeys (r, h) then some (capacityOf (r, h)) else none) online.1 policy.rules
        (totalDesired (capsetTaskCount requiredKeys information)) := by
    intro online honline
    obtain ⟨hrule, hheartbeat, hid⟩ := mem_onlineRules (List.mem_filter.mp honline).1
    rw [capsetCount, hid, findRule_of_mem hids hrule]
    simp only
    rw [allocateCapsetDesired, if_neg htasks]
    congr 1
    exact funext fun r => offeredCapacity_eq hmanagers hheartbeat r
  rw [List.map_congr_left hcount, map_filter_onlineRules, map_filter_onlineRules, ← filterMap_shareOf _ hids]
  refine List.filterMap_congr fun rule _ => ?_
  cases heartbeatOf managers rule with
  | none => rfl
  | some h =>
    simp only [Option.bind_some]
    split
    · rfl
    · rfl

theorem capacityOf_nonneg {online : WaterfallRule × WorkerManagerHeartbeat}
    (hreported : 0 ≤ online.2.maxTaskConcurrency) (hrule : ∀ cap, online.1.maxTaskConcurrency = some cap → 0 ≤ cap) :
    0 ≤ capacityOf online := by
  unfold capacityOf capped
  split
  · rename_i cap hcap
    exact le_min (hrule cap hcap) hreported
  · exact hreported

/-- Over all managers online, the counts are the greedy fill of the target into their capacities;
for each set of capabilities, over the managers that offer it. -/
theorem waterfall_greedy_fill (rules : List WaterfallRule) (hids : (rules.map (·.workerManagerId)).Nodup)
    (managers : List WorkerManagerHeartbeat) (hmanagers : (managers.map (·.workerManagerID)).Nodup)
    (hcaps : ∀ online ∈ onlineRules (create rules) managers, 0 ≤ online.2.maxTaskConcurrency ∧
      ∀ cap, online.1.maxTaskConcurrency = some cap → 0 ≤ cap)
    (workerCount : Bytes → Nat) (information : InformationSnapshot) (htasks : information.tasks ≠ []) :
    IsGreedyFill (totalDesired information.tasks.length) ((onlineRules (create rules) managers).map capacityOf)
        ((onlineRules (create rules) managers).map fun online =>
          (create rules).genericCount information managers workerCount online.2) ∧
      ∀ requiredKeys, capsetTaskCount requiredKeys information ≠ 0 →
        IsGreedyFill (totalDesired (capsetTaskCount requiredKeys information))
          (((onlineRules (create rules) managers).filter (offers requiredKeys)).map capacityOf)
          (((onlineRules (create rules) managers).filter (offers requiredKeys)).map fun online =>
            (create rules).capsetCount requiredKeys information managers workerCount online.2) := by
  have hsorted := nodup_create hids
  have hnonneg : ∀ online ∈ onlineRules (create rules) managers, 0 ≤ capacityOf online := fun online honline =>
    capacityOf_nonneg (hcaps online honline).1 (hcaps online honline).2
  refine ⟨?_, fun requiredKeys hkeys => ?_⟩
  · rw [genericCounts_eq hsorted hmanagers htasks]
    refine isGreedyFill_greedyFill (Int.natCast_nonneg _) fun cap hcap => ?_
    obtain ⟨online, honline, rfl⟩ := List.mem_map.mp hcap
    exact hnonneg online honline
  · rw [capsetCounts_eq hsorted hmanagers hkeys]
    refine isGreedyFill_greedyFill (Int.natCast_nonneg _) fun cap hcap => ?_
    obtain ⟨online, honline, rfl⟩ := List.mem_map.mp hcap
    exact hnonneg online (List.mem_filter.mp honline).1

section Example

def nativeRule : WaterfallRule := ⟨1, [1], some 2⟩

def cloudRule : WaterfallRule := ⟨2, [2], none⟩

def nativeHeartbeat : WorkerManagerHeartbeat := ⟨[1], 5, .empty⟩

def gpu : Capabilities := Dict.empty.set "gpu" 1

def cloudHeartbeat : WorkerManagerHeartbeat := ⟨[2], 3, gpu⟩

def mixedTasks : InformationSnapshot := ⟨List.replicate 10 .empty ++ List.replicate 15 gpu, 0⟩

theorem capacities_nonneg : ∀ online ∈ onlineRules (create [cloudRule, nativeRule]) [nativeHeartbeat, cloudHeartbeat],
    0 ≤ online.2.maxTaskConcurrency ∧ ∀ cap, online.1.maxTaskConcurrency = some cap → 0 ≤ cap := by
  intro online honline
  obtain ⟨hrule, hheartbeat, -⟩ := mem_onlineRules honline
  have hmem := List.mem_of_find?_eq_some hheartbeat
  have hrules : online.1 ∈ [cloudRule, nativeRule] := (List.mergeSort_perm _ _).mem_iff.mp hrule
  simp only [List.mem_cons, List.not_mem_nil, or_false] at hmem hrules
  rcases hmem with hmem | hmem <;> rcases hrules with hrules | hrules <;> rw [hmem, hrules] <;> decide

/-- Of twenty-five tasks fifteen need what only the second manager offers: two workers for the first
manager and one for the second, and two for the second for the set of capabilities. -/
theorem waterfall_greedy_fill_two :
    (∀ online ∈ onlineRules (create [cloudRule, nativeRule]) [nativeHeartbeat, cloudHeartbeat],
      0 ≤ online.2.maxTaskConcurrency ∧ ∀ cap, online.1.maxTaskConcurrency = some cap → 0 ≤ cap) ∧
      IsGreedyFill 3
        ((onlineRules (create [cloudRule, nativeRule]) [nativeHeartbeat, cloudHeartbeat]).map capacityOf)
        ((onlineRules (create [cloudRule, nativeRule]) [nativeHeartbeat, cloudHeartbeat]).map fun online =>
          (create [cloudRule, nativeRule]).genericCount mixedTasks
            [nativeHeartbeat, cloudHeartbeat] (fun _ => 0) online.2) ∧
      IsGreedyFill 2
        (((onlineRules (create [cloudRule, nativeRule]) [nativeHeartbeat, cloudHeartbeat]).filter
          (offers {"gpu"})).map capacityOf)
        (((onlineRules (create [cloudRule, nativeRule]) [nativeHeartbeat, cloudHeartbeat]).filter
          (offers {"gpu"})).map fun online =>
            (create [cloudRule, nativeRule]).capsetCount {"gpu"} mixedTasks
              [nativeHeartbeat, cloudHeartbeat] (fun _ => 0) online.2) := by
  obtain ⟨hgeneric, hcapset⟩ := waterfall_greedy_fill [cloudRule, nativeRule] (by decide)
    [nativeHeartbeat, cloudHeartbeat] (by decide) capacities_nonneg (fun _ => 0) mixedTasks (by decide)
  exact ⟨capacities_nonneg, hgeneric, hcapset {"gpu"} (by decide)⟩

end Example

end WaterfallScalingPolicy

end Scaler
