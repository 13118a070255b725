import Scaler.Scheduler.GraphController

/-! `VanillaTaskController` with its `TaskStateManager`. An event is routed to the
machine of its task and applied under the machine's lock. -/

namespace Scaler

open Collections Coroutine

namespace Sched

def getStateMachine (s : Sched) (t : TaskID) : Option StateMachine := s.taskIdToStateMachine.get? t

def count (s : Sched) (state : TaskState) (n : Int) : Sched :=
  { s with statistics := Function.update s.statistics state (s.statistics state + n) }

/-- `add_state_machine` behind the check of `on_task_new`; the trace keeps the events
raised for the id that are not applied yet. -/
def addStateMachine (s : Sched) (t : TaskID) : Sched :=
  { s.count .inactive 1 with
    taskIdToStateMachine := s.taskIdToStateMachine.set t ⟨s.nextUid, .inactive⟩
    nextUid := s.nextUid + 1
    trace := .registered t s.nextUid (s.raised.filter fun e => e.taskId = t) :: s.trace }

/-- `commit`: refused without a machine or without its lock. -/
def commit (s : Sched) (t : TaskID) (target : TaskState) : Sched :=
  match s.getStateMachine t with
  | none => s
  | some m =>
    if (s.locks m.uid).owner.isNone then s
    else
      { (s.count m.state (-1)).count target 1 with
        taskIdToStateMachine := s.taskIdToStateMachine.set t { m with state := target } }

def removeStateMachine (s : Sched) (t : TaskID) : Sched :=
  match s.getStateMachine t with
  | none => s
  | some m =>
    { s with
      taskIdToStateMachine := s.taskIdToStateMachine.erase t
      trace := .removed t m.uid m.state :: s.trace }

def popTask (s : Sched) (t : TaskID) : Sched := { s with taskIdToTask := s.taskIdToTask.erase t }

/-- The end of a transition: the target is written and a finished task is forgotten. -/
def settle (s : Sched) (t : TaskID) (target : TaskState) : Sched :=
  if target.isTerminal then ((s.commit t target).removeStateMachine t).popTask t
  else s.commit t target

/-- What `__fail_task_to_client` forgets of a faulted task. -/
def tearDown (s : Sched) (t : TaskID) : Sched :=
  let s := ((s.commit t .failed).removeStateMachine t).popTask t
  { s with unassigned := s.unassigned.erase t }

/-- The loop of `__acquire_workers`; what it popped stays popped when it raises. -/
def acquireWorkersFrom : List TaskID → Sched → Except Exn (List (TaskID × WorkerID)) × Sched
  | [], s => (.ok [], s)
  | t :: rest, s =>
    match s.taskIdToTask.get? t with
    | none => (.error .keyError, s)
    | some task =>
      match s.policy.assignTask task with
      | (.error e, p) => (.error e, { s with policy := p })
      | (.ok none, p) => (.ok [], { s with policy := p })
      | (.ok (some w), p) =>
        let r := acquireWorkersFrom rest
          { s with policy := p, unassigned := rest, raised := .hasCapacity t w :: s.raised }
        (r.1.map ((t, w) :: ·), r.2)

def acquireWorkers (s : Sched) : Except Exn (List (TaskID × WorkerID)) × Sched :=
  acquireWorkersFrom s.unassigned s

def dropEvent (s : Sched) (e : TaskEvent) : Sched := { s with raised := s.raised.erase e }

def expireEvent (s : Sched) (e : TaskEvent) : Sched := (s.dropEvent e).note (.timedOut e)

def recordApplied (s : Sched) (e : TaskEvent) (source : TaskState) : Sched :=
  { s with
    trace := .applied e source (s.policy.getWorkerByTaskId e.taskId)
      (s.clientToTaskIds.getKey? e.taskId) (e.taskId ∈ s.unassigned) :: s.trace }

end Sched

/-- `task_result_target`. -/
def taskResultTarget : TaskResultType → TaskState
  | .success => .success
  | .failed => .failed
  | .failedWorkerDied => .failedWorkerDied

section Replies

/-- `__retry_unassignable`. -/
def retryUnassignable : M Unit := do
  let ready ← syncNoting .drainFailed (·.acquireWorkers)
  Coro.gatherAll (ready.map fun tw => .route (.hasCapacity tw.1 tw.2))

/-- The owner of the task is popped and told, when there is one. -/
def replyToOwner (t : TaskID) (m : Message) : M Unit := do
  match ← onTaskFinish t with
  | none => pure ()
  | some client => binderSend (.client client) m

def whenGraphSubtask (t : TaskID) (c : M Unit) : M Unit := do
  if ← Coro.reads (·.isGraphSubtask t) then c

def sendTaskResultToClient (r : TaskResult) : M Unit := do
  onTaskDone r.taskId
  replyToOwner r.taskId (.taskResult r)
  monitorSend
  whenGraphSubtask r.taskId (onGraphSubTaskResult r)
  retryUnassignable

def sendTaskCancelConfirmToClient (c : TaskCancelConfirm) : M Unit := do
  replyToOwner c.taskId (.taskCancelConfirm c)
  monitorSend
  whenGraphSubtask c.taskId (onGraphSubTaskCancelConfirm c)
  retryUnassignable

/-- `__report_fault_to_client`; the text of the `SchedulerError` stays in the storage. -/
def reportFaultToClient (t : TaskID) : M Unit := do
  match ← onTaskFinish t with
  | none => return
  | some client =>
    let id ← generateObjectId
    storageRequest
    onAddObject client id "<scheduler error>".toUTF8.toList
    let r : TaskResult := ⟨t, .failed, [], [id]⟩
    binderSend (.client client) (.taskResult r)
    monitorSend
    whenGraphSubtask t (onGraphSubTaskResult r)

def failTaskToClient (t : TaskID) : M Unit := do
  let _ ← (reportFaultToClient t).attempt
  let _ ← (onTaskDone t).attempt
  Coro.modify (·.tearDown t)
  let _ ← retryUnassignable.attempt

end Replies

section Workers

def sendTaskToWorker (w : WorkerID) (t : TaskID) : M Unit := do
  let task ← payload t
  binderSend (.worker w) (.task task)
  monitorSend

/-- The Boolean is false when no worker holds the task. -/
def sendTaskCancelToWorker (cancel : TaskCancel) : M Bool := do
  match ← getWorkerByTaskId cancel.taskId with
  | none => return false
  | some w =>
    binderSend (.worker w) (.taskCancel cancel)
    monitorSend
    return true

def acquireAndDispatch (t : TaskID) : M TaskState := do
  let task ← payload t
  match ← acquireWorker task with
  | none =>
    Coro.modify fun s => { s with unassigned := s.unassigned ++ [t] }
    monitorSend
    return .inactive
  | some w =>
    sendTaskToWorker w t
    return .running

end Workers

section Actions

def onHasCapacity (source : TaskState) (t : TaskID) (w : WorkerID) : M (Option TaskState) :=
  match source with
  | .inactive => do
    sendTaskToWorker w t
    return some .running
  | _ => return none

/-- An inactive task leaves the queue, or the worker that was chosen for it. -/
def takeBack (t : TaskID) : M Unit := do
  if ← Coro.reads fun s => decide (t ∈ s.unassigned) then
    Coro.modify fun s => { s with unassigned := s.unassigned.erase t }
  else
    onTaskDone t

def onTaskCancelRequested (source : TaskState) (t : TaskID) (c : ClientID) (cancel : TaskCancel) :
    M (Option TaskState) :=
  match source with
  | .inactive => do
    takeBack t
    sendTaskCancelConfirmToClient ⟨t, .canceled⟩
    return some .canceled
  | .running => do
    syncNoting (.cancelRefused t) (·.onTaskBegin c t)
    if ← sendTaskCancelToWorker cancel then
      return some .canceling
    else
      sendTaskCancelConfirmToClient ⟨t, .cancelNotFound⟩
      return some .canceledNotFound
  | .balanceCanceling => return some .canceling
  | _ => return none

def onBalanceTaskCancel (source : TaskState) (t : TaskID) : M (Option TaskState) :=
  match source with
  | .running => do
    if ← sendTaskCancelToWorker ⟨t, false⟩ then
      return some .balanceCanceling
    else
      return none
  | _ => return none

def onTaskResult (source : TaskState) (r : TaskResult) : M (Option TaskState) :=
  match source with
  | .running | .balanceCanceling => do
    sendTaskResultToClient r
    return some (taskResultTarget r.resultType)
  | _ => return none

/-- `__on_cancel_confirm_canceled` and `__on_cancel_confirm_not_found` differ in the
state a client's cancel ends in. -/
def onCancelConfirmReleased (target : TaskState) (source : TaskState) (t : TaskID)
    (confirm : TaskCancelConfirm) : M (Option TaskState) :=
  match source with
  | .canceling => do
    onTaskDone t
    sendTaskCancelConfirmToClient confirm
    return some target
  | .balanceCanceling => do
    onTaskDone t
    return some (← acquireAndDispatch t)
  | _ => return none

def onCancelConfirmCanceled := onCancelConfirmReleased .canceled

def onCancelConfirmNotFound := onCancelConfirmReleased .canceledNotFound

def onCancelConfirmFailed (source : TaskState) : M (Option TaskState) :=
  match source with
  | .canceling | .balanceCanceling => return some .running
  | _ => return none

def onWorkerDisconnected (source : TaskState) (t : TaskID) : M (Option TaskState) :=
  match source with
  | .running | .balanceCanceling => return some (← acquireAndDispatch t)
  | .canceling => do
    sendTaskCancelConfirmToClient ⟨t, .canceled⟩
    return some .canceled
  | _ => return none

def action (source : TaskState) : TaskEvent → M (Option TaskState)
  | .hasCapacity t w => onHasCapacity source t w
  | .taskCancelRequested t c cancel => onTaskCancelRequested source t c cancel
  | .balanceCancelRequested t => onBalanceTaskCancel source t
  | .taskResultReceived _ _ r => onTaskResult source r
  | .cancelConfirmCanceled t _ confirm => onCancelConfirmCanceled source t confirm
  | .cancelConfirmFailed _ _ _ => onCancelConfirmFailed source
  | .cancelConfirmNotFound t _ confirm => onCancelConfirmNotFound source t confirm
  | .workerDisconnected t _ => onWorkerDisconnected source t

end Actions

section Router

/-- `__is_task_owned_by_worker`: only another holder disproves a worker's report. -/
def Sched.isTaskOwnedByWorker (s : Sched) (e : TaskEvent) : Bool :=
  match e.reporter?, s.policy.getWorkerByTaskId e.taskId with
  | some w, some holder => holder = w
  | _, _ => true

/-- `__acquire_machine`: the machine with its lock held, or nothing held. An event whose lock does not
come in time is dropped. -/
def acquireMachine (e : TaskEvent) : M (Option StateMachine) := do
  match ← Coro.reads (·.getStateMachine e.taskId) with
  | none =>
    Coro.modify (·.dropEvent e)
    return none
  | some m =>
    if ← lockAcquire m.uid then
      Coro.modify (·.dropEvent e)
      match ← Coro.reads (·.getStateMachine e.taskId) with
      | none =>
        lockRelease m.uid
        return none
      | some now =>
        if now.uid = m.uid then
          return some now
        else
          lockRelease m.uid
          return none
    else
      Coro.modify (·.expireEvent e)
      return none

def routeLocked (e : TaskEvent) (source : TaskState) : M Unit := do
  Coro.modify (·.recordApplied e source)
  if ← Coro.reads (·.isTaskOwnedByWorker e) then
    match ← (action source e).attempt with
    | .error _ =>
      record (.faulted e)
      failTaskToClient e.taskId
    | .ok none => return
    | .ok (some target) => Coro.modify (·.settle e.taskId target)

def route (e : TaskEvent) : M Unit := do
  match ← acquireMachine e with
  | none => return
  | some m => Coro.always (routeLocked e m.state) (lockRelease m.uid)

end Router

section Entries

def onTaskNew (task : Task) : M Unit := do
  if (← Coro.reads (·.getStateMachine task.taskId)).isSome then return
  Coro.modify (·.addStateMachine task.taskId)
  syncNoting (.refused task.taskId) (·.onTaskBegin task.source task.taskId)
  Coro.modify fun s => { s with taskIdToTask := s.taskIdToTask.set task.taskId task }
  match ← acquireWorker task with
  | none =>
    Coro.modify fun s => { s with unassigned := s.unassigned ++ [task.taskId] }
    monitorSend
  | some w =>
    Coro.modify fun s => { s with raised := .hasCapacity task.taskId w :: s.raised }
    Coro.run (.route (.hasCapacity task.taskId w))

def onTaskCancel (c : ClientID) (cancel : TaskCancel) : M Unit := do
  if (← Coro.reads (·.getStateMachine cancel.taskId)).isSome then
    Coro.run (.route (.taskCancelRequested cancel.taskId c cancel))
  else
    whenGraphSubtask cancel.taskId (onGraphSubTaskCancelConfirm ⟨cancel.taskId, .cancelNotFound⟩)
    binderSend (.client c) (.taskCancelConfirm ⟨cancel.taskId, .cancelNotFound⟩)

def onTaskBalanceCancel (t : TaskID) : M Unit := Coro.run (.route (.balanceCancelRequested t))

def onTaskCancelConfirm (w : WorkerID) (c : TaskCancelConfirm) : M Unit :=
  Coro.run <| .route <|
    match c.cancelConfirmType with
    | .canceled => .cancelConfirmCanceled c.taskId w c
    | .cancelFailed => .cancelConfirmFailed c.taskId w c
    | .cancelNotFound => .cancelConfirmNotFound c.taskId w c

def onTaskResultMessage (w : WorkerID) (r : TaskResult) : M Unit :=
  Coro.run (.route (.taskResultReceived r.taskId w r))

def onWorkerConnect : M Unit := retryUnassignable

def onWorkerDisconnect (t : TaskID) (w : WorkerID) : M Unit :=
  Coro.run (.route (.workerDisconnected t w))

end Entries

end Scaler
