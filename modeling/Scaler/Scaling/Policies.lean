import Mathlib.Data.Finset.Basic
import Mathlib.Data.List.Sort
import Scaler.Protocol
import Scaler.Collections.Dict

/-! The scaling policies: `waterfall.py`, `vanilla.py` and `capability_scaling.py`, the command
they send and what a worker manager reads from it. The quotients that are rounded up are those of
counts, whose floating-point quotient has the same ceiling. -/

namespace Scaler

open Collections

abbrev Capabilities := Dict String Int

/-- `frozenset(capabilities.keys())`. -/
def keySet (capabilities : Capabilities) : Finset String := capabilities.keys.toFinset

/-- `math.ceil(n / d)`. -/
def ceilDivide (n d : Nat) : Nat := (n + d - 1) / d

/-- A maximum of -1 stands for no limit. -/
structure WorkerManagerHeartbeat where
  workerManagerID : Bytes
  maxTaskConcurrency : Int
  capabilities : Capabilities

structure WorkerManagerSnapshot where
  maxTaskConcurrency : Int
  workerCount : Nat
  capabilities : Capabilities

/-- The tasks with the capabilities they ask for, and the number of connected workers. -/
structure InformationSnapshot where
  tasks : List Capabilities
  workers : Nat

/-- A request of `setDesiredTaskConcurrencyRequests`. -/
structure DesiredTaskConcurrencyRequest where
  taskConcurrency : Nat
  capabilities : List (String × Int)
  deriving DecidableEq, Repr

def buildSetDesiredCommand (desiredPerCapset : List (Capabilities × Int)) : List DesiredTaskConcurrencyRequest :=
  desiredPerCapset.map fun entry => ⟨(max 0 entry.2).toNat, entry.1.entries⟩

def capabilitiesToDict (capabilities : List (String × Int)) : Capabilities :=
  capabilities.foldl (fun d entry => d.set entry.1 entry.2) .empty

/-- `request_capabilities.items() <= own_capabilities.items()`. -/
def itemsSubset (capabilities own : Capabilities) : Bool :=
  capabilities.entries.all fun entry => own.get? entry.1 = some entry.2

/-- What a manager makes of the command. -/
def extractDesiredCount (requests : List DesiredTaskConcurrencyRequest) (ownCapabilities : Capabilities) : Nat :=
  ((requests.filter fun request => itemsSubset (capabilitiesToDict request.capabilities) ownCapabilities).map
    (·.taskConcurrency)).sum

/-- `_build_manager_snapshots`: the managers that are connected, with the workers of each. -/
def buildManagerSnapshots (managers : List WorkerManagerHeartbeat) (workerCount : Bytes → Nat) :
    Dict Bytes WorkerManagerSnapshot :=
  managers.foldl
    (fun d heartbeat =>
      d.set heartbeat.workerManagerID
        ⟨heartbeat.maxTaskConcurrency, workerCount heartbeat.workerManagerID, heartbeat.capabilities⟩) .empty

structure WaterfallRule where
  priority : Int
  workerManagerId : Bytes
  maxTaskConcurrency : Option Int
  deriving DecidableEq, Repr

/-- The rules are sorted by their priority. -/
structure WaterfallScalingPolicy where
  rules : List WaterfallRule

namespace WaterfallScalingPolicy

def upperTaskRatio : Nat := 10

def create (rules : List WaterfallRule) : WaterfallScalingPolicy :=
  ⟨rules.mergeSort fun r r' => r.priority ≤ r'.priority⟩

/-- Of several rules for a manager the dictionary has the last. -/
def findRule (policy : WaterfallScalingPolicy) (managerId : Bytes) : Option WaterfallRule :=
  policy.rules.reverse.find? fun rule => rule.workerManagerId = managerId

def capped (rule : WaterfallRule) (reported : Int) : Int :=
  match rule.maxTaskConcurrency with
  | some cap => min cap reported
  | none => reported

def effectiveCapacity (currentRule : WaterfallRule) (currentHeartbeat : WorkerManagerHeartbeat)
    (snapshots : Dict Bytes WorkerManagerSnapshot) (rule : WaterfallRule) : Option Int :=
  if rule.workerManagerId = currentRule.workerManagerId then some (capped rule currentHeartbeat.maxTaskConcurrency)
  else (snapshots.get? rule.workerManagerId).map fun snap => capped rule snap.maxTaskConcurrency

/-- The capacity of the managers that offer all the capabilities. -/
def offeredCapacity (requiredKeys : Finset String) (currentRule : WaterfallRule)
    (currentHeartbeat : WorkerManagerHeartbeat) (snapshots : Dict Bytes WorkerManagerSnapshot) (rule : WaterfallRule) :
    Option Int :=
  let managerCapabilities :=
    if rule.workerManagerId = currentRule.workerManagerId then some (keySet currentHeartbeat.capabilities)
    else (snapshots.get? rule.workerManagerId).map fun snap => keySet snap.capabilities
  match managerCapabilities with
  | none => none
  | some keys =>
    if requiredKeys ⊆ keys then effectiveCapacity currentRule currentHeartbeat snapshots rule else none

/-- The loop over the rules: whoever comes first takes what is left up to its capacity. -/
def shareOf (capacity : WaterfallRule → Option Int) (currentRule : WaterfallRule) : List WaterfallRule → Int → Int
  | [], _ => 0
  | rule :: rules, remaining =>
    match capacity rule with
    | none => shareOf capacity currentRule rules remaining
    | some cap =>
      if rule.workerManagerId = currentRule.workerManagerId then min remaining cap
      else shareOf capacity currentRule rules (max 0 (remaining - cap))

def totalDesired (taskCount : Nat) : Nat := max 1 (ceilDivide taskCount upperTaskRatio)

/-- Without tasks a manager keeps its workers while one of a lower priority has some. -/
def heldCount (policy : WaterfallScalingPolicy) (currentRule : WaterfallRule)
    (snapshots : Dict Bytes WorkerManagerSnapshot) : Nat :=
  if policy.rules.any fun rule => currentRule.priority < rule.priority &&
      (match snapshots.get? rule.workerManagerId with
        | some snap => 0 < snap.workerCount
        | none => false) then
    match snapshots.get? currentRule.workerManagerId with
    | some snap => snap.workerCount
    | none => 0
  else 0

def allocateGenericDesired (policy : WaterfallScalingPolicy) (currentRule : WaterfallRule)
    (information : InformationSnapshot) (currentHeartbeat : WorkerManagerHeartbeat)
    (snapshots : Dict Bytes WorkerManagerSnapshot) : Int :=
  if information.tasks.length = 0 then policy.heldCount currentRule snapshots
  else shareOf (effectiveCapacity currentRule currentHeartbeat snapshots) currentRule policy.rules
    (totalDesired information.tasks.length)

def capsetTaskCount (requiredKeys : Finset String) (information : InformationSnapshot) : Nat :=
  information.tasks.countP fun task => keySet task = requiredKeys

def allocateCapsetDesired (policy : WaterfallScalingPolicy) (currentRule : WaterfallRule)
    (requiredKeys : Finset String) (information : InformationSnapshot) (currentHeartbeat : WorkerManagerHeartbeat)
    (snapshots : Dict Bytes WorkerManagerSnapshot) : Int :=
  if capsetTaskCount requiredKeys information = 0 then 0
  else shareOf (offeredCapacity requiredKeys currentRule currentHeartbeat snapshots) currentRule policy.rules
    (totalDesired (capsetTaskCount requiredKeys information))

/-- The first task of each set of capabilities stands for the set. -/
def tasksByCapability (information : InformationSnapshot) : Dict (Finset String) Capabilities :=
  information.tasks.foldl
    (fun d task =>
      if task.keys = [] ∨ d.contains (keySet task) then d else d.set (keySet task) task) .empty

def computeDesiredPerCapset (policy : WaterfallScalingPolicy) (currentRule : WaterfallRule)
    (information : InformationSnapshot) (currentHeartbeat : WorkerManagerHeartbeat)
    (snapshots : Dict Bytes WorkerManagerSnapshot) : List (Capabilities × Int) :=
  (.empty, policy.allocateGenericDesired currentRule information currentHeartbeat snapshots) ::
    ((tasksByCapability information).entries.map fun entry =>
      (entry.2, policy.allocateCapsetDesired currentRule entry.1 information currentHeartbeat snapshots)).filter
        fun entry => 0 < entry.2

/-- A manager without a rule gets no command. -/
def getScalingCommands (policy : WaterfallScalingPolicy) (information : InformationSnapshot)
    (heartbeat : WorkerManagerHeartbeat) (snapshots : Dict Bytes WorkerManagerSnapshot) :
    List (List DesiredTaskConcurrencyRequest) :=
  match policy.findRule heartbeat.workerManagerID with
  | none => []
  | some rule => [buildSetDesiredCommand (policy.computeDesiredPerCapset rule information heartbeat snapshots)]

end WaterfallScalingPolicy

namespace VanillaScalingPolicy

def lowerTaskRatio : Nat := 1

def upperTaskRatio : Nat := 10

/-- The ratios are compared by their products. -/
def desiredByRatio (current taskCount workerCount : Nat) : Nat :=
  if workerCount = 0 then if 0 < taskCount then current + 1 else current
  else if upperTaskRatio * workerCount < taskCount then current + 1
  else if taskCount < lowerTaskRatio * workerCount then
    if taskCount = 0 then 0 else max 1 (ceilDivide taskCount upperTaskRatio)
  else current

def computeDesiredWorkerCount (information : InformationSnapshot) (heartbeat : WorkerManagerHeartbeat)
    (managedWorkers : Nat) : Int :=
  let desired : Int := desiredByRatio managedWorkers information.tasks.length information.workers
  max 0 (if heartbeat.maxTaskConcurrency ≠ -1 then min desired heartbeat.maxTaskConcurrency else desired)

def getScalingCommands (information : InformationSnapshot) (heartbeat : WorkerManagerHeartbeat)
    (managedWorkers : Nat) : List (List DesiredTaskConcurrencyRequest) :=
  [buildSetDesiredCommand [(.empty, computeDesiredWorkerCount information heartbeat managedWorkers)]]

end VanillaScalingPolicy

namespace CapabilityScalingPolicy

def upperTaskRatio : Nat := 5

def groupTasksByCapability (information : InformationSnapshot) : Dict (Finset String) (List Capabilities) :=
  information.tasks.foldl
    (fun d task => d.set (keySet task) ((d.get? (keySet task)).getD [] ++ [task])) .empty

/-- The first of the tasks stands for the set; a set without tasks is left out. -/
def desiredForCapset (maxConcurrency : Int) : List Capabilities → Option (Capabilities × Int)
  | [] => none
  | task :: tasks =>
    let desired : Int := max 1 (ceilDivide (task :: tasks).length upperTaskRatio)
    some (task, if maxConcurrency ≠ -1 then min desired maxConcurrency else desired)

def computeDesiredPerCapset (tasksByCapability : Dict (Finset String) (List Capabilities))
    (heartbeat : WorkerManagerHeartbeat) : List (Capabilities × Int) :=
  tasksByCapability.entries.filterMap fun entry => desiredForCapset heartbeat.maxTaskConcurrency entry.2

def getScalingCommands (information : InformationSnapshot) (heartbeat : WorkerManagerHeartbeat) :
    List (List DesiredTaskConcurrencyRequest) :=
  [buildSetDesiredCommand (computeDesiredPerCapset (groupTasksByCapability information) heartbeat)]

end CapabilityScalingPolicy

end Scaler
