import Scaler.Capnp.PyObject
import Scaler.Scaling.Policies

/-! A manager that starts units of several workers each, between its configured limit, the
heartbeats of `WorkerManagerRunner`, the caps of the policies and the units of its provisioner. -/

namespace Scaler

open Collections

/-- The managers whose units hold several workers, with the setting that says how many. -/
inductive UnitManager where
  | ecs (ecsTaskCpu : Nat)
  | ociRaw (instanceOcpus : Rat)
  | orb (vcpuCount : Nat)
  deriving DecidableEq

namespace UnitManager

def workersPerUnit : UnitManager → Nat
  | ecs ecsTaskCpu => ecsTaskCpu
  | ociRaw instanceOcpus => max 1 instanceOcpus.floor.toNat
  | orb vcpuCount => vcpuCount

/-- A maximum of -1, which stands for no limit, is not rounded. -/
def maxInstances (manager : UnitManager) (maxTaskConcurrency : Int) : Int :=
  if maxTaskConcurrency ≠ -1 then ceilDivide maxTaskConcurrency.toNat manager.workersPerUnit else -1

/-- `maxTaskConcurrency` of the heartbeat object. -/
def reported (manager : UnitManager) (maxTaskConcurrency : Int) : Int :=
  manager.maxInstances maxTaskConcurrency * manager.workersPerUnit

/-- The field has 32 bits and no sign: `send` raises for a heartbeat whose number does not fit. -/
def sendHeartbeat (library : Capnp.Library) (manager : UnitManager) (maxTaskConcurrency : Int) :
    Except Capnp.PyError Capnp.Content :=
  Capnp.setDynamicValue library (.uint 32) (.int (manager.reported maxTaskConcurrency))

/-- The units that `set_desired_task_concurrency` asks the coordinator for. -/
def desiredUnits (manager : UnitManager) (taskConcurrency : Nat) : Nat :=
  ceilDivide taskConcurrency manager.workersPerUnit

end UnitManager

/-- The count under a cap, if there is one. -/
def underCap (cap : Option Nat) (desired : Int) : Int :=
  match cap with
  | none => desired
  | some n => min desired n

namespace CapabilityScalingPolicy

/-- One request for each set of capabilities, under the cap. -/
def desiredUnderCap (cap : Option Nat) (information : InformationSnapshot) : List (Capabilities × Int) :=
  (groupTasksByCapability information).entries.filterMap fun entry =>
    (desiredForCapset (-1) entry.2).map fun request => (request.1, underCap cap request.2)

end CapabilityScalingPolicy

/-- Both policies answer the heartbeat with their own counts under the cap. -/
structure AppliesCap (heartbeat : WorkerManagerHeartbeat) (cap : Option Nat) : Prop where
  vanilla : ∀ information managedWorkers,
    VanillaScalingPolicy.computeDesiredWorkerCount information heartbeat managedWorkers =
      underCap cap (VanillaScalingPolicy.desiredByRatio managedWorkers information.tasks.length information.workers)
  capability : ∀ information,
    CapabilityScalingPolicy.computeDesiredPerCapset (CapabilityScalingPolicy.groupTasksByCapability information) heartbeat =
      CapabilityScalingPolicy.desiredUnderCap cap information

/-- Both policies answer as they would to every maximum from some number on. -/
structure LikeLarge (heartbeat : WorkerManagerHeartbeat) : Prop where
  vanilla : ∀ information managedWorkers, ∃ bound : Nat, ∀ n : Nat, bound ≤ n →
    VanillaScalingPolicy.computeDesiredWorkerCount information heartbeat managedWorkers =
      VanillaScalingPolicy.computeDesiredWorkerCount information { heartbeat with maxTaskConcurrency := n } managedWorkers
  capability : ∀ information, ∃ bound : Nat, ∀ n : Nat, bound ≤ n →
    CapabilityScalingPolicy.getScalingCommands information heartbeat =
      CapabilityScalingPolicy.getScalingCommands information { heartbeat with maxTaskConcurrency := n }

/-- The limit arrives at the policies as it was configured, and the units that are started for a
count hold at least as many workers, fewer than a unit too many. -/
structure KeepsLimit (library : Capnp.Library) (manager : UnitManager) (maxTaskConcurrency : Int) : Prop where
  sent : ∃ value : Int, manager.sendHeartbeat library maxTaskConcurrency = .ok (.int value) ∧
    ∀ workerManagerID capabilities,
      (AppliesCap ⟨workerManagerID, value, capabilities⟩ none ↔ maxTaskConcurrency = -1) ∧
      (maxTaskConcurrency ≠ -1 → AppliesCap ⟨workerManagerID, value, capabilities⟩
        (some (ceilDivide maxTaskConcurrency.toNat manager.workersPerUnit * manager.workersPerUnit))) ∧
      (maxTaskConcurrency = -1 → LikeLarge ⟨workerManagerID, value, capabilities⟩)
  supplied : ∀ desired : Nat, desired ≤ manager.desiredUnits desired * manager.workersPerUnit ∧
    manager.desiredUnits desired * manager.workersPerUnit < desired + manager.workersPerUnit

theorem le_ceilDivide_mul (n : Nat) {d : Nat} (hd : 1 ≤ d) : n ≤ ceilDivide n d * d := by
  have hmod : (n + d - 1) % d < d := Nat.mod_lt _ hd
  have hdiv := Nat.div_add_mod (n + d - 1) d
  rw [ceilDivide, Nat.mul_comm]
  omega

theorem ceilDivide_mul_lt (n : Nat) {d : Nat} (hd : 1 ≤ d) : ceilDivide n d * d < n + d := by
  have hle := Nat.div_mul_le_self (n + d - 1) d
  rw [ceilDivide]
  omega

theorem appliesCap_some (workerManagerID : Bytes) (n : Nat) (capabilities : Capabilities) :
    AppliesCap ⟨workerManagerID, n, capabilities⟩ (some n) where
  vanilla := by
    intro information managedWorkers
    have hlimited : ((n : Int) ≠ -1) := by omega
    rw [VanillaScalingPolicy.computeDesiredWorkerCount, if_pos hlimited, underCap]
    exact max_eq_right (le_min (Int.natCast_nonneg _) (Int.natCast_nonneg n))
  capability := by
    intro information
    have hlimited : ((n : Int) ≠ -1) := by omega
    rw [CapabilityScalingPolicy.computeDesiredPerCapset, CapabilityScalingPolicy.desiredUnderCap]
    congr 1
    funext entry
    cases entry.2 with
    | nil => rfl
    | cons task tasks =>
      rw [CapabilityScalingPolicy.desiredForCapset, CapabilityScalingPolicy.desiredForCapset, Option.map_some,
        if_pos hlimited, if_neg (by simp)]
      rfl

theorem not_appliesCap_none (workerManagerID : Bytes) (n : Nat) (capabilities : Capabilities) :
    ¬AppliesCap ⟨workerManagerID, n, capabilities⟩ none := by
  intro h
  have hfree := h.vanilla ⟨[.empty], 0⟩ n
  have hcapped := (appliesCap_some workerManagerID n capabilities).vanilla ⟨[.empty], 0⟩ n
  have hdesired : VanillaScalingPolicy.desiredByRatio n [(.empty : Capabilities)].length 0 = n + 1 := rfl
  rw [hfree, hdesired, underCap, underCap] at hcapped
  omega

namespace UnitManager

theorem reported_of_ne (manager : UnitManager) {maxTaskConcurrency : Int} (hne : maxTaskConcurrency ≠ -1) :
    manager.reported maxTaskConcurrency =
      (ceilDivide maxTaskConcurrency.toNat manager.workersPerUnit * manager.workersPerUnit : Nat) := by
  rw [reported, maxInstances, if_pos hne, Int.natCast_mul]

theorem reported_unlimited (manager : UnitManager) : manager.reported (-1) = -manager.workersPerUnit := by
  rw [reported, maxInstances, if_neg (by simp), Int.neg_mul, Int.one_mul]

theorem sendHeartbeat_eq_ok {library : Capnp.Library} {manager : UnitManager} {maxTaskConcurrency : Int}
    {content : Capnp.Content} :
    manager.sendHeartbeat library maxTaskConcurrency = .ok content ↔
      content = .int (manager.reported maxTaskConcurrency) ∧ 0 ≤ manager.reported maxTaskConcurrency ∧
        manager.reported maxTaskConcurrency < 2 ^ 32 := by
  rw [sendHeartbeat, Capnp.setDynamicValue, Capnp.asLong]
  generalize manager.reported maxTaskConcurrency = value
  change (if 0 ≤ value ∧ value < 2 ^ 64 then
      if value < 2 ^ 32 then Except.ok (Capnp.Content.int value) else .error Capnp.PyError.runtimeError
    else .error Capnp.PyError.overflowError) = .ok content ↔ _
  constructor
  · intro h
    split at h
    · next hword =>
      split at h
      · next hlt =>
        cases h
        exact ⟨rfl, hword.1, hlt⟩
      · cases h
    · cases h
  · rintro ⟨rfl, hnonneg, hlt⟩
    rw [if_pos ⟨hnonneg, by omega⟩, if_pos hlt]

end UnitManager

/-- The limit is kept exactly when there is one and its workers can be counted in 32 bits. -/
theorem keepsLimit_iff (library : Capnp.Library) (manager : UnitManager) (maxTaskConcurrency : Int)
    (hunit : 1 ≤ manager.workersPerUnit) (hmax : maxTaskConcurrency = -1 ∨ 0 ≤ maxTaskConcurrency) :
    KeepsLimit library manager maxTaskConcurrency ↔
      maxTaskConcurrency ≠ -1 ∧
        ceilDivide maxTaskConcurrency.toNat manager.workersPerUnit * manager.workersPerUnit < 2 ^ 32 := by
  constructor
  · rintro ⟨⟨value, hsent, -⟩, -⟩
    obtain ⟨-, hnonneg, hlt⟩ := UnitManager.sendHeartbeat_eq_ok.mp hsent
    have hne : maxTaskConcurrency ≠ -1 := by
      rintro rfl
      rw [UnitManager.reported_unlimited] at hnonneg
      omega
    rw [UnitManager.reported_of_ne manager hne] at hlt
    exact ⟨hne, by exact_mod_cast hlt⟩
  · rintro ⟨hne, hlt⟩
    have hreported := UnitManager.reported_of_ne manager hne
    refine ⟨⟨_, UnitManager.sendHeartbeat_eq_ok.mpr ⟨rfl, ?_, ?_⟩, ?_⟩, fun desired => ?_⟩
    · rw [hreported]
      omega
    · rw [hreported]
      exact_mod_cast hlt
    · intro workerManagerID capabilities
      rw [hreported]
      refine ⟨iff_of_false (not_appliesCap_none _ _ _) hne, fun _ => appliesCap_some _ _ _, fun h => absurd h hne⟩
    · exact ⟨le_ceilDivide_mul desired hunit, ceilDivide_mul_lt desired hunit⟩

theorem keepsLimit_iff_ecs :
    KeepsLimit ⟨fun _ _ => true, fun _ _ => [], fun _ _ _ => none⟩ (.ecs 4) 6 ↔ (6 : Int) ≠ -1 ∧ ceilDivide (6 : Int).toNat 4 * 4 < 2 ^ 32 :=
  keepsLimit_iff _ (.ecs 4) 6 (by decide) (.inr (by decide))

/-- Units of four workers and no limit: the heartbeat would report -4, which cannot be sent, and
which the policies would take for a limit of none. -/
theorem unlimited_not_kept :
    ¬KeepsLimit ⟨fun _ _ => true, fun _ _ => [], fun _ _ _ => none⟩ (.ecs 4) (-1) ∧ (UnitManager.ecs 4).reported (-1) = -4 ∧
      VanillaScalingPolicy.computeDesiredWorkerCount ⟨[.empty], 0⟩ ⟨[1], -4, .empty⟩ 0 = 0 := by
  refine ⟨?_, by decide, by decide⟩
  rintro ⟨⟨value, hsent, -⟩, -⟩
  exact absurd (UnitManager.sendHeartbeat_eq_ok.mp hsent).2.1 (by decide)

end Scaler
