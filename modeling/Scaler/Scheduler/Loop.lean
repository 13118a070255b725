import Scaler.Scheduler.TaskController

/-! The worker, client and object controllers, the dispatch of received messages
and the program the event loop runs. Timeouts are decided by the environment. -/

namespace Scaler

open Collections Coroutine

/-- The items the environment picks, in order. -/
def pick {α : Type} : List α → M (List α)
  | [] => return []
  | a :: as => do
    let rest ← pick as
    Coro.choose fun
      | true => Coro.ret (a :: rest)
      | false => Coro.ret rest

section WorkerController

/-- `__remove_worker_from_manager`. -/
def Sched.removeWorkerFromManager (s : Sched) (w : WorkerID) : Sched :=
  match s.workerToManager.get? w with
  | none => s
  | some manager =>
    let s := { s with workerToManager := s.workerToManager.erase w }
    match s.managerToWorkers.get? manager with
    | none => s
    | some ws =>
      if ws.erase w = [] then { s with managerToWorkers := s.managerToWorkers.erase manager }
      else { s with managerToWorkers := s.managerToWorkers.set manager (ws.erase w) }

def Sched.noteHeartbeat (s : Sched) (w : WorkerID) (info : WorkerHeartbeat) : Sched :=
  let s :=
    if s.workerToManager.contains w then s
    else
      { s with
        workerToManager := s.workerToManager.set w info.workerManagerID
        managerToWorkers := s.managerToWorkers.set info.workerManagerID
          (((s.managerToWorkers.get? info.workerManagerID).getD []).insert w) }
  { s with workerAliveSince := s.workerAliveSince.set w info }

/-- `add_worker` of the policy; a new worker is noted as connecting. -/
def Sched.addWorker (s : Sched) (w : WorkerID) (info : WorkerHeartbeat) : Bool × Sched :=
  let r := s.policy.addWorker w info.capabilities info.queueSize
  (r.1,
    { s with
      policy := r.2
      connecting := if r.1 then w :: s.connecting else s.connecting })

def Sched.connected (s : Sched) (w : WorkerID) : Sched :=
  { s with connecting := s.connecting.erase w }

def onWorkerHeartbeat (w : WorkerID) (info : WorkerHeartbeat) : M Unit := do
  let added ← Coro.act (fun s => (s.addWorker w info).2) fun s => Coro.ret (s.addWorker w info).1
  if added then
    Coro.always (do monitorSend; onWorkerConnect) (Coro.modify (·.connected w))
  Coro.modify (·.noteHeartbeat w info)
  binderSend (.worker w) .workerHeartbeatEcho

/-- `get_status`, which looks every known worker up in the statistics of the policy. -/
def Sched.getStatus (s : Sched) : Except Exn (List (WorkerID × TaskNumbers)) := do
  let numbers ← s.policy.statistics
  s.workerAliveSince.keys.mapM fun w =>
    match numbers.get? w with
    | some n => .ok (w, n)
    | none => .error .keyError

/-- The tasks that the policy has on the worker and whose dispatch is still to come. -/
def Sched.undispatched (s : Sched) (w : WorkerID) : List TaskID :=
  s.raised.filterMap fun
    | .hasCapacity t v => if v = w ∧ s.policy.getWorkerByTaskId t = some w then some t else none
    | _ => none

/-- The worker is known again, or a heartbeat of it is about to make it known. -/
def Sched.returning (s : Sched) (w : WorkerID) : Bool :=
  s.workerAliveSince.contains w || decide (w ∈ s.connecting)

/-- `remove_worker` of the policy, with the disconnect events it leads to. -/
def Sched.removeWorker (s : Sched) (w : WorkerID) : Except Exn (List TaskID) × Sched :=
  let r := s.policy.removeWorker w
  (r.1,
    { s with
      policy := r.2
      trace := .workerRemoved w (s.undispatched w) (s.returning w) :: s.trace
      raised := (r.1.toOption.getD []).map (fun t => .workerDisconnected t w) ++ s.raised })

/-- `__disconnect_worker`: the worker leaves the local state before anything is awaited. -/
def disconnectWorker (w : WorkerID) : M Unit := do
  if !(← Coro.reads fun s => s.workerAliveSince.contains w) then return
  Coro.modify fun s =>
    { s with workerAliveSince := s.workerAliveSince.erase w }.removeWorkerFromManager w
  monitorSend
  let tasks ← syncNoting .policyFailed (·.removeWorker w)
  Coro.forEach tasks fun t => onWorkerDisconnect t w

/-- `__clean_workers`. -/
def workerRoutine : M Unit := do
  let dead ← pick (← Coro.reads fun s => s.workerAliveSince.keys)
  Coro.forEach dead fun w => Coro.run (.disconnectWorker w)

def shutdownWorker (w : WorkerID) : M Unit := do
  binderSend (.worker w) (.clientDisconnect .shutdown)
  Coro.run (.disconnectWorker w)

def onClientShutdown : M Unit := do
  Coro.forEach (← Coro.reads fun s => s.policy.getWorkerIds) shutdownWorker

end WorkerController

section ClientController

/-- `__on_client_disconnect` with `__cancel_client_all_tasks`. -/
def disconnectClient (c : ClientID) : M Unit := do
  Coro.modify fun s => { s with clientLastSeen := s.clientLastSeen.erase c }
  let tasks ← Coro.reads fun s => s.clientToTaskIds.getValues c
  Coro.forEach tasks fun t => Coro.run (.onTaskCancel c ⟨t, false⟩)
  cleanClient c

def onClientDisconnect (c : ClientID) (type : DisconnectType) : M Unit := do
  if type = .disconnect then
    disconnectClient c
  else
    let isProtected ← Coro.reads fun s => s.isProtected
    binderSend (.client c) (.clientShutdownResponse !isProtected)
    if isProtected then return
    onClientShutdown
    Coro.raise .clientShutdown

def onClientHeartbeat (c : ClientID) : M Unit := do
  binderSend (.client c) .clientHeartbeatEcho
  Coro.modify fun s => { s with clientLastSeen := s.clientLastSeen.insert c }

/-- `__routine_cleanup_clients`. -/
def clientRoutine : M Unit := do
  let dead ← pick (← Coro.reads fun s => s.clientLastSeen)
  Coro.forEach dead disconnectClient

end ClientController

section ObjectController

def onObjectInstruction (i : ObjectInstruction) : M Unit :=
  match i.instructionType with
  | .create => do
    if !(← Coro.reads fun s => decide (i.objectUser ∈ s.clientLastSeen)) then return
    Coro.forEach i.objects fun o => onAddObject i.objectUser o.1 o.2
  | .delete => Coro.modify fun s => s.onDelObjects i.objectUser (i.objects.map Prod.fst).dedup

/-- `__routine_send_objects_deletions`. -/
def objectRoutine : M Unit := do
  Coro.await .queue (fun s => !s.deletedObjectIds.isEmpty) (Coro.ret ())
  let ids ← Coro.act (fun s => { s with deletedObjectIds := [] }) fun s => Coro.ret s.deletedObjectIds
  let workers ← Coro.reads fun s => s.policy.getWorkerIds
  Coro.forEach workers fun w =>
    binderSend (.worker w) (.objectInstruction ⟨.delete, ⟨0⟩, ids.map fun id => (id, [])⟩)
  Coro.forEach ids fun _ => storageRequest

end ObjectController

section Scheduler

/-- `on_receive_message`. -/
def onReceiveMessage (source : Nat) (m : Message) : M Unit := do
  record (.received source m)
  match m with
  | .clientHeartbeat => onClientHeartbeat ⟨source⟩
  | .clientDisconnect type => onClientDisconnect ⟨source⟩ type
  | .graphTask gt => onGraphTask ⟨source⟩ gt
  | .task task => Coro.run (.onTaskNew task)
  | .taskCancel cancel =>
    if ← Coro.reads (·.isGraphSubtask cancel.taskId) then
      onGraphTaskCancel cancel
    else
      Coro.run (.onTaskCancel ⟨source⟩ cancel)
  | .taskCancelConfirm c => onTaskCancelConfirm ⟨source⟩ c
  | .taskResult r => onTaskResultMessage ⟨source⟩ r
  | .workerHeartbeat info => onWorkerHeartbeat ⟨source⟩ info
  | .workerDisconnectNotification => Coro.run (.disconnectWorker ⟨source⟩)
  | .objectInstruction i => onObjectInstruction i
  | .clientHeartbeatEcho | .clientShutdownResponse _ | .workerHeartbeatEcho => return

/-- `create_async_loop_routine` logs what a turn of its routine raises. The exception of a
client's shutdown stops the scheduler; the model goes on from there too. -/
def swallow (c : M Unit) : M Unit := do
  let _ ← c.attempt

def body : Proc → M Unit
  | .onReceiveMessage source m => swallow (onReceiveMessage source m)
  | .onTaskBalanceCancel t => swallow (onTaskBalanceCancel t)
  | .clientRoutine => swallow clientRoutine
  | .workerRoutine => swallow workerRoutine
  | .graphRoutine => swallow graphRoutine
  | .objectRoutine => swallow objectRoutine
  | .route e => route e
  | .onTaskNew task => onTaskNew task
  | .onTaskCancel c cancel => onTaskCancel c cancel
  | .disconnectWorker w => disconnectWorker w
  | .binderSend c m => binderSend (.client c) m
  | .duplicateObject owner _ name new => duplicateObject owner name new
  | .abortInactive g ref r objects results => abortInactive g ref r objects results

/-- The messages and the timers start the first six; everything else is called. -/
def isEntry : Proc → Bool
  | .onReceiveMessage _ _ | .onTaskBalanceCancel _ | .clientRoutine | .workerRoutine
  | .graphRoutine | .objectRoutine => true
  | _ => false

def scheduler : Program Sched Exn Label Proc := ⟨body, isEntry⟩

/-- The loops of `get_loops` whose turns the entries are. -/
inductive Looper where
  | binder
  | graph
  | balance
  | client
  | object
  | worker
  deriving DecidableEq, Repr

def Proc.looper : Proc → Option Looper
  | .onReceiveMessage _ _ => some .binder
  | .graphRoutine => some .graph
  | .onTaskBalanceCancel _ => some .balance
  | .clientRoutine => some .client
  | .objectRoutine => some .object
  | .workerRoutine => some .worker
  | _ => none

/-- `create_async_loop_routine` awaits each turn to its end: no loop is in two of its turns. -/
def Serial (c : Config Sched Exn Label Proc) : Prop :=
  (c.threads.filterMap fun th => th.frames.getLast?.bind Proc.looper).Nodup

instance : DecidablePred Serial := fun c =>
  inferInstanceAs (Decidable (c.threads.filterMap fun th => th.frames.getLast?.bind Proc.looper).Nodup)

/-- What of `SchedulerConfig` the controllers read. -/
structure SchedulerConfig where
  strategy : AllocatePolicyStrategy
  isProtected : Bool
  deriving DecidableEq, Repr

/-- The scheduler before its first message. -/
def Sched.init (cfg : SchedulerConfig) : Sched where
  taskIdToStateMachine := Dict.empty
  statistics := fun _ => 0
  nextUid := 0
  locks := fun _ => .free
  taskIdToTask := Dict.empty
  unassigned := []
  policy := createAllocatePolicy cfg.strategy
  workerAliveSince := Dict.empty
  workerToManager := Dict.empty
  managerToWorkers := Dict.empty
  clientToTaskIds := .empty
  clientLastSeen := []
  isProtected := cfg.isProtected
  graphQueue := []
  graphTaskIdToGraph := Dict.empty
  taskIdToGraphTaskId := Dict.empty
  graphs := fun _ => Graph.empty
  nextGraph := 0
  objectTracker := .empty
  deletedObjectIds := []
  nextObject := 0
  trace := []
  raised := []
  connecting := []

end Scheduler

end Scaler
