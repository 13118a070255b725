import Scaler.Utility.Containers

/-! Identifiers and messages of the scheduler, after `utility/identifiers.py` and
`protocol/capnp.pyi`. Identifiers are opaque bytes compared for equality only; a
number stands for them. The invalid worker id is `none`. -/

namespace Scaler

structure TaskID where
  bytes : Nat
  deriving DecidableEq, Repr

structure ClientID where
  bytes : Nat
  deriving DecidableEq, Repr

structure WorkerID where
  bytes : Nat
  deriving DecidableEq, Repr

structure ObjectID where
  bytes : Nat
  deriving DecidableEq, Repr

abbrev Bytes := List UInt8

inductive TaskState where
  | inactive
  | running
  | canceling
  | balanceCanceling
  | success
  | failed
  | failedWorkerDied
  | canceled
  | canceledNotFound
  deriving DecidableEq, Repr

/-- `TERMINAL_TASK_STATES` of `task_state_machine.py`. -/
def TaskState.isTerminal : TaskState → Bool
  | .success | .failed | .failedWorkerDied | .canceled | .canceledNotFound => true
  | .inactive | .running | .canceling | .balanceCanceling => false

inductive TaskResultType where
  | success
  | failed
  | failedWorkerDied
  deriving DecidableEq, Repr

inductive TaskCancelConfirmType where
  | canceled
  | cancelFailed
  | cancelNotFound
  deriving DecidableEq, Repr

/-- `Task.Argument`: the bytes name a task of the same graph or a stored object. -/
inductive Argument where
  | task (id : TaskID)
  | objectID (id : ObjectID)
  deriving DecidableEq, Repr

structure Task where
  taskId : TaskID
  source : ClientID
  metadata : Bytes
  funcObjectId : ObjectID
  functionArgs : List Argument
  capabilities : List (String × Int)
  deriving DecidableEq, Repr

structure TaskCancel where
  taskId : TaskID
  force : Bool
  deriving DecidableEq, Repr

structure TaskCancelConfirm where
  taskId : TaskID
  cancelConfirmType : TaskCancelConfirmType
  deriving DecidableEq, Repr

structure TaskResult where
  taskId : TaskID
  resultType : TaskResultType
  metadata : Bytes
  results : List ObjectID
  deriving DecidableEq, Repr

structure GraphTask where
  taskId : TaskID
  source : ClientID
  targets : List TaskID
  graph : List Task
  deriving DecidableEq, Repr

structure WorkerHeartbeat where
  queueSize : Nat
  capabilities : List (String × Int)
  workerManagerID : Bytes
  deriving DecidableEq, Repr

/-- What the statistics of an allocation policy say of a worker. -/
structure TaskNumbers where
  free : Int
  sent : Nat
  deriving DecidableEq, Repr

inductive DisconnectType where
  | disconnect
  | shutdown
  deriving DecidableEq, Repr

inductive ObjectInstructionType where
  | create
  | delete
  deriving DecidableEq, Repr

structure ObjectInstruction where
  instructionType : ObjectInstructionType
  objectUser : ClientID
  objects : List (ObjectID × Bytes)
  deriving DecidableEq, Repr

/-- The messages the modelled controllers receive and send. -/
inductive Message where
  | task (t : Task)
  | taskCancel (c : TaskCancel)
  | taskCancelConfirm (c : TaskCancelConfirm)
  | taskResult (r : TaskResult)
  | graphTask (g : GraphTask)
  | clientHeartbeat
  | clientHeartbeatEcho
  | clientDisconnect (t : DisconnectType)
  | clientShutdownResponse (accepted : Bool)
  | workerHeartbeat (h : WorkerHeartbeat)
  | workerHeartbeatEcho
  | workerDisconnectNotification
  | objectInstruction (i : ObjectInstruction)
  deriving DecidableEq, Repr

/-- The other end of the scheduler's binder socket. -/
inductive Peer where
  | client (c : ClientID)
  | worker (w : WorkerID)
  deriving DecidableEq, Repr

/-- The events of `task_event.py`. -/
inductive TaskEvent where
  | hasCapacity (taskId : TaskID) (workerId : WorkerID)
  | taskCancelRequested (taskId : TaskID) (clientId : ClientID) (taskCancel : TaskCancel)
  | balanceCancelRequested (taskId : TaskID)
  | taskResultReceived (taskId : TaskID) (workerId : WorkerID) (taskResult : TaskResult)
  | cancelConfirmCanceled (taskId : TaskID) (workerId : WorkerID) (confirm : TaskCancelConfirm)
  | cancelConfirmFailed (taskId : TaskID) (workerId : WorkerID) (confirm : TaskCancelConfirm)
  | cancelConfirmNotFound (taskId : TaskID) (workerId : WorkerID) (confirm : TaskCancelConfirm)
  | workerDisconnected (taskId : TaskID) (workerId : WorkerID)
  deriving DecidableEq, Repr

def TaskEvent.taskId : TaskEvent → TaskID
  | .hasCapacity t _ | .taskCancelRequested t _ _ | .balanceCancelRequested t
  | .taskResultReceived t _ _ | .cancelConfirmCanceled t _ _ | .cancelConfirmFailed t _ _
  | .cancelConfirmNotFound t _ _ | .workerDisconnected t _ => t

/-- The worker behind an event of `WORKER_REPORTED_TASK_EVENTS`. -/
def TaskEvent.reporter? : TaskEvent → Option WorkerID
  | .taskResultReceived _ w _ | .cancelConfirmCanceled _ w _ | .cancelConfirmFailed _ w _
  | .cancelConfirmNotFound _ w _ => some w
  | .hasCapacity _ _ | .taskCancelRequested _ _ _ | .balanceCancelRequested _
  | .workerDisconnected _ _ => none

end Scaler
