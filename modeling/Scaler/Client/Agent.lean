import Scaler.Client.Future
import Scaler.Collections.Outcome

/-! The task and future managers of the client agent: `client/agent/task_manager.py` and
`client/agent/future_manager.py`, with what `client/agent/object_manager.py` does with a
result. A future is known by the id of its task, so the table of the future manager is the
list of its keys; the futures themselves are shared with the client. -/

namespace Scaler

open Collections

/-- The objects that the handlers create. -/
structure ClientObjects (Obj : Type) where
  profileResult : Bytes → Obj
  workerDiedError : TaskID → Obj

/-- What the client does with a future that it holds. -/
inductive ClientOp (Obj : Type) where
  | cancel
  | addDoneCallback (c : Callback)
  | addWaiter (w : Waiter)
  | waitResultObject
  | resultObjectFetched (object : Except Obj Obj)
  | forceSetCanceled

def ClientOp.toFutureOp {Obj : Type} : ClientOp Obj → FutureOp Obj
  | .cancel => .cancel
  | .addDoneCallback c => .addDoneCallback c
  | .addWaiter w => .addWaiter w
  | .waitResultObject => .waitResultObject
  | .resultObjectFetched object => .resultObjectFetched object
  | .forceSetCanceled => .forceSetCanceled

structure ClientAgent (Obj : Type) where
  futures : Dict TaskID (ScalerFuture Obj)
  taskIdToFuture : List TaskID
  taskIds : List TaskID
  sentObjectIds : List ObjectID
  -- the cancels on their way from the client to its agent
  fromClient : List TaskCancel
  toScheduler : List Message

namespace ClientAgent

variable {Obj : Type} (objects : ClientObjects Obj)

def empty : ClientAgent Obj := ⟨Dict.empty, [], [], [], [], []⟩

def addFuture (s : ClientAgent Obj) (f : ScalerFuture Obj) : ClientAgent Obj :=
  { s with
    futures := s.futures.set f.taskId f
    taskIdToFuture := s.taskIdToFuture.insert f.taskId }

def onNewTask (s : ClientAgent Obj) (task : Task) : ClientAgent Obj :=
  { s with taskIds := s.taskIds.insert task.taskId, toScheduler := s.toScheduler ++ [.task task] }

def onNewGraphTask (s : ClientAgent Obj) (graph : GraphTask) : ClientAgent Obj :=
  { s with
    taskIds := graph.targets.foldl (fun ids t => ids.insert t) (s.taskIds.insert graph.taskId)
    toScheduler := s.toScheduler ++ [.graphTask graph] }

/-- `submit`: the future is added before the task is sent. -/
def submit (s : ClientAgent Obj) (task : Task) (isDelayed : Bool) : ClientAgent Obj :=
  (s.addFuture (.create task.taskId isDelayed none)).onNewTask task

/-- `get`: one future for the umbrella task and one for each target. -/
def get (s : ClientAgent Obj) (graph : GraphTask) (isDelayed : Bool) : ClientAgent Obj :=
  ((graph.taskId :: graph.targets).foldl
    (fun s t => s.addFuture (.create t isDelayed (some graph.taskId))) s).onNewGraphTask graph

def onCancelTask (s : ClientAgent Obj) (c : TaskCancel) : ClientAgent Obj :=
  if c.taskId ∈ s.taskIds then { s with toScheduler := s.toScheduler ++ [.taskCancel c] } else s

/-- An operation of the client on one of its futures; what `cancel` sends goes to the agent. -/
def onFuture (s : ClientAgent Obj) (t : TaskID) (op : ClientOp Obj) : ClientAgent Obj :=
  match s.futures.get? t with
  | none => s
  | some f =>
    let f' := f.step op.toFutureOp
    { s with
      futures := s.futures.set t f'
      fromClient := s.fromClient ++ f'.sent.drop f.sent.length }

/-- `retrieve_profiling_result_from_task_result`; the format `!fQf` takes 16 bytes. -/
def retrieveProfilingResult (r : TaskResult) : Except ClientExn (Option Obj) :=
  if r.metadata = [] then .ok none
  else if r.metadata.length = 16 then .ok (some (objects.profileResult r.metadata))
  else .error .valueError

def getResultObjectId (r : TaskResult) : Except ClientExn (Option ObjectID) :=
  match r.results with
  | [] => .ok none
  | [o] => .ok (some o)
  | _ :: _ :: _ => .error .valueError

/-- How a result resolves the future of its task. -/
def resolve (r : TaskResult) (f : ScalerFuture Obj) : Except ClientExn (ScalerFuture Obj) := do
  let profile ← retrieveProfilingResult objects r
  match r.resultType with
  | .failedWorkerDied => f.setException (some (objects.workerDiedError r.taskId)) profile
  | .success | .failed => do
    let objectId ← getResultObjectId r
    f.setResultReady objectId r.resultType profile

/-- `ClientFutureManager.on_task_result`. -/
def setFutureResult (s : ClientAgent Obj) (r : TaskResult) : Except ClientExn (ClientAgent Obj) :=
  if r.taskId ∈ s.taskIdToFuture then
    match s.futures.get? r.taskId with
    | none => .ok s
    | some f => do
      let f' ← resolve objects r f
      .ok { s with
        taskIdToFuture := s.taskIdToFuture.erase r.taskId
        futures := s.futures.set r.taskId f' }
  else .ok s

/-- `ClientTaskManager.on_task_result`. -/
def onTaskResult (s : ClientAgent Obj) (r : TaskResult) : Except ClientExn (ClientAgent Obj) :=
  let s := { s with sentObjectIds := r.results.foldl (fun ids o => ids.insert o) s.sentObjectIds }
  if r.taskId ∈ s.taskIds then
    setFutureResult objects { s with taskIds := s.taskIds.erase r.taskId } r
  else .ok s

/-- `ClientFutureManager.on_task_cancel_confirm`: after a failed cancel the future goes back
into the table. -/
def setFutureCanceled (s : ClientAgent Obj) (c : TaskCancelConfirm) : ClientAgent Obj :=
  if c.taskId ∈ s.taskIdToFuture then
    match s.futures.get? c.taskId with
    | none => s
    | some f =>
      let popped := s.taskIdToFuture.erase c.taskId
      match c.cancelConfirmType with
      | .canceled | .cancelNotFound =>
        { s with taskIdToFuture := popped, futures := s.futures.set c.taskId f.setCanceled }
      | .cancelFailed => { s with taskIdToFuture := popped.insert c.taskId }
  else s

/-- `ClientTaskManager.on_task_cancel_confirm`. -/
def onTaskCancelConfirm (s : ClientAgent Obj) (c : TaskCancelConfirm) : ClientAgent Obj :=
  if c.taskId ∈ s.taskIds then
    ({ s with taskIds := s.taskIds.erase c.taskId }).setFutureCanceled c
  else s

/-- A future that refuses the exception is skipped. -/
def failFuture (exception : Obj) (futures : Dict TaskID (ScalerFuture Obj)) (t : TaskID) :
    Dict TaskID (ScalerFuture Obj) :=
  match futures.get? t with
  | none => futures
  | some f => futures.set t (f.step (.setException (some exception) none))

/-- `set_all_futures_with_exception`, at the end of the agent. -/
def setAllFuturesWithException (s : ClientAgent Obj) (exception : Obj) : ClientAgent Obj :=
  { s with
    futures := s.taskIdToFuture.foldl (failFuture exception) s.futures
    taskIdToFuture := [] }

end ClientAgent

/-- What happens at the agent, in any order. -/
inductive ClientEvent (Obj : Type) where
  | submit (task : Task) (isDelayed : Bool)
  | get (graph : GraphTask) (isDelayed : Bool)
  | future (t : TaskID) (op : ClientOp Obj)
  | receiveCancel
  | taskResult (r : TaskResult)
  | taskCancelConfirm (c : TaskCancelConfirm)
  | stop (exception : Obj)

namespace ClientAgent

variable {Obj : Type} (objects : ClientObjects Obj)

def step (s : ClientAgent Obj) : ClientEvent Obj → Except ClientExn (ClientAgent Obj)
  | .submit task isDelayed => .ok (s.submit task isDelayed)
  | .get graph isDelayed => .ok (s.get graph isDelayed)
  | .future t op => .ok (s.onFuture t op)
  | .receiveCancel =>
    match s.fromClient with
    | [] => .ok s
    | c :: cs => .ok (({ s with fromClient := cs }).onCancelTask c)
  | .taskResult r => s.onTaskResult objects r
  | .taskCancelConfirm c => .ok (s.onTaskCancelConfirm c)
  | .stop exception => .ok (s.setAllFuturesWithException exception)

end ClientAgent

end Scaler
