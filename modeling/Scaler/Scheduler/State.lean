import Scaler.Coroutine.Machine
import Scaler.Graph.TopologicalSorter
import Scaler.Policy.Allocate

/-! The shared state of the scheduler's controllers. Objects that coroutines keep
references to across awaits (state machines, graphs) have a number as identity. -/

namespace Scaler

open Collections Coroutine

/-- `asyncio.Lock`: the task that owns it and the tasks queued for it, in order. -/
structure Lock where
  owner : Option Tid
  waiters : List Tid
  deriving DecidableEq, Repr

def Lock.free : Lock := ⟨none, []⟩

/-- A registered `TaskStateMachine`; its lock is found under `uid`. -/
structure StateMachine where
  uid : Nat
  state : TaskState
  deriving DecidableEq, Repr

inductive NodeTaskState where
  | inactive
  | running
  | canceled
  | failed
  | success
  deriving DecidableEq, Repr

inductive GraphState where
  | running
  | canceling
  | aborting
  deriving DecidableEq, Repr

/-- `_TaskInfo`. -/
structure TaskInfo where
  state : NodeTaskState
  task : Task
  resultObjectIds : List ObjectID
  deriving DecidableEq, Repr

/-- `_Graph`. -/
structure Graph where
  targetTaskIds : List TaskID
  sorter : TopologicalSorter TaskID
  tasks : Dict TaskID TaskInfo
  dependedTaskIdToTaskId : ManyToManyDict TaskID TaskID
  client : ClientID
  status : GraphState
  runningTaskIds : List TaskID

/-- `ObjectTracker` of the object controller, with the objects' names. -/
structure ObjectTracker where
  currentBlocks : List ClientID
  objectKeyToBlock : ManyToManyDict ObjectID ClientID
  objectKeyToObject : Dict ObjectID Bytes

/-- A graph that has nothing to do, in the unused places of the heap. -/
def Graph.empty : Graph where
  targetTaskIds := []
  sorter := { (TopologicalSorter.empty : TopologicalSorter TaskID) with readyNodes := some [] }
  tasks := Dict.empty
  dependedTaskIdToTaskId := .empty
  client := ⟨0⟩
  status := .running
  runningTaskIds := []

/-- What an observer of the scheduler sees, newest first in `Sched.trace`. An entry
keeps the values the scheduler read at that moment; nothing in the scheduler reads
the trace. -/
inductive Obs where
  | received (source : Nat) (m : Message)
  | sent (peer : Peer) (m : Message) (holder : Option WorkerID)
  | sendFailed
  | storageFailed
  | registered (t : TaskID) (uid : Nat) (pending : List TaskEvent)
  | refused (t : TaskID)
  | cancelRefused (t : TaskID)
  | payloadMissing (t : TaskID)
  | policyFailed
  | applied (e : TaskEvent) (source : TaskState) (holder : Option WorkerID)
      (client : Option ClientID) (queued : Bool)
  | faulted (e : TaskEvent)
  | timedOut (e : TaskEvent)
  | removed (t : TaskID) (uid : Nat) (state : TaskState)
  | workerRemoved (w : WorkerID) (undispatched : List TaskID) (returning : Bool)
  | drainFailed
  | graphRefused (g : TaskID)
  | graphRejected (g : TaskID)
  | graphRegistered (g : TaskID) (graph : Nat)
  | submitted (g : TaskID) (task : Task)
  | submitFailed (g t : TaskID)
  | nodeDone (g : TaskID) (r : TaskResult) (running undispatched : List TaskID)
      (deleted : List (TaskID × List ObjectID)) (error : Option Exn)
  | nodeCanceled (g t : TaskID) (unlocked : List TaskID) (unsettled : Bool)
  | graphCanceling (g : TaskID) (running undispatched : List TaskID)
  | graphSwept (g : TaskID)
  | sweepFailed (g : TaskID)
  | nodeMissing (t : TaskID)
  | popFailed (g : TaskID)
  deriving DecidableEq, Repr

/-- The fields of the task, policy, worker, client, graph and object controllers, in this order; then the
history: what was observed, the events still to be applied and the workers whose first heartbeat is being handled. -/
structure Sched where
  taskIdToStateMachine : Dict TaskID StateMachine
  statistics : TaskState → Int
  nextUid : Nat
  locks : Nat → Lock
  taskIdToTask : Dict TaskID Task
  unassigned : List TaskID
  policy : AllocatePolicy
  workerAliveSince : Dict WorkerID WorkerHeartbeat
  workerToManager : Dict WorkerID Bytes
  managerToWorkers : Dict Bytes (List WorkerID)
  clientToTaskIds : OneToManyDict ClientID TaskID
  clientLastSeen : List ClientID
  isProtected : Bool
  graphQueue : List (ClientID × GraphTask)
  graphTaskIdToGraph : Dict TaskID Nat
  taskIdToGraphTaskId : Dict TaskID TaskID
  graphs : Nat → Graph
  nextGraph : Nat
  objectTracker : ObjectTracker
  deletedObjectIds : List ObjectID
  nextObject : Nat
  trace : List Obs
  raised : List TaskEvent
  connecting : List WorkerID

/-- Where a coroutine is suspended. -/
inductive Label where
  | send
  | monitor
  | storage
  | queue
  | lock (uid : Nat)
  deriving DecidableEq, Repr

/-- The coroutines that are started by the environment, gathered, or called
recursively; every other coroutine is a definition that its callers inline. -/
inductive Proc where
  | onReceiveMessage (source : Nat) (m : Message)
  | onTaskBalanceCancel (t : TaskID)
  | clientRoutine
  | workerRoutine
  | graphRoutine
  | objectRoutine
  | route (e : TaskEvent)
  | onTaskNew (task : Task)
  | onTaskCancel (c : ClientID) (cancel : TaskCancel)
  | disconnectWorker (w : WorkerID)
  | binderSend (c : ClientID) (m : Message)
  | duplicateObject (owner : ClientID) (id : ObjectID) (name : Bytes) (new : ObjectID)
  | abortInactive (g : TaskID) (graph : Nat) (r : TaskResult) (objects : List (ObjectID × Bytes))
      (results : List TaskResult)
  deriving DecidableEq, Repr

abbrev M := Coro Sched Exn Label Proc

end Scaler
