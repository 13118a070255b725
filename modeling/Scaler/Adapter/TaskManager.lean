import Mathlib.Data.Finset.Basic
import Scaler.Protocol
import Scaler.Utility.Containers

/-! `TaskManager` of `worker_manager_adapter`, with the three coroutines of the worker process that
run it: the one that receives the messages of the scheduler one after the other, the loop of
`process_task` and the loop of `resolve_tasks`. A coroutine stands at one of its awaits; an event
takes it to the next one. -/

namespace Scaler

open Collections

namespace Adapter

/-- A task with the priority of its flags. -/
structure Task where
  taskId : TaskID
  source : ClientID
  priority : Int
  deriving DecidableEq

/-- How an execution ended. A returned value may be one that the client's serializer refuses. -/
inductive FutureOutcome where
  | returned (serializable : Bool)
  | raised
  | cancelled
  deriving DecidableEq

inductive TaskResultType where
  | success
  | failed
  deriving DecidableEq

inductive TaskCancelConfirmType where
  | canceled
  | cancelFailed
  | cancelNotFound
  deriving DecidableEq

/-- The messages to the scheduler. -/
inductive Sent where
  | taskResult (taskId : TaskID) (resultType : TaskResultType)
  | cancelConfirm (taskId : TaskID) (confirmType : TaskCancelConfirmType)
  deriving DecidableEq

/-- Where the receiving coroutine waits: for a message, in `on_task_new` for an execution that
goes past the queue, or in `on_cancel_task` for the backend. -/
inductive ReceiverAt where
  | message
  | execute (task : Task)
  | onCancel (taskId : TaskID)
  deriving DecidableEq

/-- Where `process_task` waits. With `get` it has a permit that is no task's yet. -/
inductive ProcessorAt where
  | start
  | acquire
  | get
  | execute (task : Task)
  deriving DecidableEq

/-- The awaits of `resolve_tasks` for a task whose future it has taken. -/
inductive ResolveStage where
  | setObject
  | sendInstruction
  | sendResult
  deriving DecidableEq

/-- Where `resolve_tasks` waits; `done` are the futures still to be looked at. A cancelled future
ends its loop without an error. -/
inductive ResolverAt where
  | start
  | wait (futures : List Nat)
  | resolving (stage : ResolveStage) (taskId : TaskID) (resultType : TaskResultType) (done : List Nat)
  | ended
  deriving DecidableEq

/-- The futures are numbered in the order of the executions; the sets that are only asked for
members are finite sets, the one that is walked through is a list. -/
structure TaskManager where
  baseConcurrency : Nat
  executorSemaphore : Nat
  taskIdToTask : Dict TaskID Task
  taskIdToFuture : Dict TaskID Nat
  serializers : Finset ClientID
  queuedTaskIdQueue : StablePriorityQueue TaskID
  queuedTaskIds : Finset TaskID
  acquiringTaskIds : List TaskID
  processingTaskIds : Finset TaskID
  canceledTaskIds : Finset TaskID
  outcomes : Dict Nat FutureOutcome
  executions : Nat
  receiver : ReceiverAt
  processor : ProcessorAt
  resolver : ResolverAt
  received : List TaskID
  sent : List Sent
  exception : Option Exn

namespace TaskManager

def create (baseConcurrency : Nat) : TaskManager where
  baseConcurrency := baseConcurrency
  executorSemaphore := baseConcurrency
  taskIdToTask := .empty
  taskIdToFuture := .empty
  serializers := ∅
  queuedTaskIdQueue := .empty
  queuedTaskIds := ∅
  acquiringTaskIds := []
  processingTaskIds := ∅
  canceledTaskIds := ∅
  outcomes := .empty
  executions := 0
  receiver := .message
  processor := .start
  resolver := .start
  received := []
  sent := []
  exception := none

/-- An exception that leaves a coroutine stops the worker process. -/
def raise (m : TaskManager) (e : Exn) : TaskManager := { m with exception := some e }

def send (m : TaskManager) (message : Sent) : TaskManager := { m with sent := m.sent ++ [message] }

/-- The permit goes to `process_task` if it waits for one. -/
def release (m : TaskManager) : TaskManager :=
  if m.processor = .acquire then { m with processor := .get }
  else { m with executorSemaphore := m.executorSemaphore + 1 }

/-- `execute` has returned a new future. -/
def registerFuture (m : TaskManager) (taskId : TaskID) : TaskManager :=
  { m with
    taskIdToFuture := m.taskIdToFuture.set taskId m.executions
    executions := m.executions + 1 }

/-- The loop over the tasks that hold a permit: whether none has the priority or a higher one. -/
def outranks (m : TaskManager) (priority : Int) : List TaskID → Except Exn Bool
  | [] => .ok true
  | acquired :: rest =>
    match m.taskIdToTask.get? acquired with
    | none => .error .keyError
    | some task => if priority ≤ task.priority then .ok false else outranks m priority rest

def enqueue (m : TaskManager) (task : Task) : TaskManager :=
  { m with
    taskIdToTask := m.taskIdToTask.set task.taskId task
    queuedTaskIdQueue := m.queuedTaskIdQueue.put (-task.priority) task.taskId
    queuedTaskIds := insert task.taskId m.queuedTaskIds }

/-- A task that outranks those with a permit is executed at once, without one. -/
def bypass (m : TaskManager) (task : Task) : TaskManager :=
  { m with
    taskIdToTask := m.taskIdToTask.set task.taskId task
    processingTaskIds := insert task.taskId m.processingTaskIds
    receiver := .execute task }

def onTaskNew (m : TaskManager) (task : Task) : TaskManager :=
  if task.priority < 0 then m.raise .valueError
  else if m.executorSemaphore = 0 then
    match m.outranks task.priority m.acquiringTaskIds with
    | .error e => m.raise e
    | .ok true => m.bypass task
    | .ok false => m.enqueue task
  else m.enqueue task

/-- A task in the set of the queued ones is taken out of the queue and forgotten. -/
def dropQueued (m : TaskManager) (taskId : TaskID) : TaskManager :=
  let m := { m with
    queuedTaskIds := m.queuedTaskIds.erase taskId
    queuedTaskIdQueue := m.queuedTaskIdQueue.remove taskId }
  if m.taskIdToTask.contains taskId then { m with taskIdToTask := m.taskIdToTask.erase taskId }
  else m.raise .keyError

/-- The future is cancelled unless it is done. -/
def cancelFuture (m : TaskManager) (future : Nat) : TaskManager :=
  { m with outcomes := if m.outcomes.contains future then m.outcomes else m.outcomes.set future .cancelled }

def cancelProcessing (m : TaskManager) (taskId : TaskID) : TaskManager :=
  match m.taskIdToFuture.get? taskId with
  | none => m.raise .keyError
  | some future => { m.cancelFuture future with receiver := .onCancel taskId }

def onCancelTask (m : TaskManager) (taskId : TaskID) (force : Bool) : TaskManager :=
  let taskQueued := taskId ∈ m.queuedTaskIds
  let taskProcessing := taskId ∈ m.processingTaskIds
  if ¬taskQueued ∧ ¬taskProcessing then m.send (.cancelConfirm taskId .cancelNotFound)
  else if taskProcessing ∧ ¬force then m.send (.cancelConfirm taskId .cancelFailed)
  else
    let m' := if taskQueued then m.dropQueued taskId else m
    if m'.exception.isSome then m'
    else if taskProcessing then m'.cancelProcessing taskId
    else m'.send (.cancelConfirm taskId .canceled)

/-- What follows the backend's `on_cancel`. -/
def canceled (m : TaskManager) (taskId : TaskID) : TaskManager :=
  if taskId ∈ m.processingTaskIds then
    send
      { m with
        processingTaskIds := m.processingTaskIds.erase taskId
        canceledTaskIds := insert taskId m.canceledTaskIds
        receiver := .message }
      (.cancelConfirm taskId .canceled)
  else m.raise .keyError

/-- What follows `get` in `process_task`. -/
def dispatch (m : TaskManager) (taskId : TaskID) : TaskManager :=
  match m.taskIdToTask.get? taskId with
  | none => m.raise .keyError
  | some task =>
    { m with
      acquiringTaskIds := m.acquiringTaskIds.insert taskId
      processingTaskIds := insert taskId m.processingTaskIds
      processor := .execute task }

/-- The permit of a task that has one is given back. -/
def releaseSlot (m : TaskManager) (taskId : TaskID) : TaskManager :=
  if taskId ∈ m.acquiringTaskIds then
    release { m with acquiringTaskIds := m.acquiringTaskIds.erase taskId }
  else m

/-- The end of the body of the loop. -/
def forget (m : TaskManager) (taskId : TaskID) : TaskManager :=
  let m := m.releaseSlot taskId
  if m.taskIdToTask.contains taskId then { m with taskIdToTask := m.taskIdToTask.erase taskId }
  else m.raise .keyError

/-- `self._task_id_to_future.inv`. -/
def taskOfFuture (m : TaskManager) (future : Nat) : Option TaskID :=
  (m.taskIdToFuture.entries.find? fun entry => entry.2 = future).map Prod.fst

/-- The result of a task that is being processed. -/
def takeResult (m : TaskManager) (task : Task) (future : Nat) (done : List Nat) : TaskManager :=
  let m := { m with processingTaskIds := m.processingTaskIds.erase task.taskId }
  match m.outcomes.get? future with
  | some (.returned serializable) =>
    if task.source ∉ m.serializers then m.raise .keyError
    else if serializable then { m with resolver := .resolving .setObject task.taskId .success done }
    else m.raise .valueError
  | some .raised => { m with resolver := .resolving .setObject task.taskId .failed done }
  | _ => { m with resolver := .ended }

/-- The loop over the futures that are done, up to its next await. -/
def resolveDone (m : TaskManager) : List Nat → TaskManager
  | [] => m
  | future :: done =>
    match m.taskOfFuture future with
    | none => m.raise .keyError
    | some taskId =>
      let m := { m with taskIdToFuture := m.taskIdToFuture.erase taskId }
      match m.taskIdToTask.get? taskId with
      | none => resolveDone m done
      | some task =>
        if taskId ∈ m.processingTaskIds then m.takeResult task future done
        else if taskId ∈ m.canceledTaskIds then
          let m := forget { m with canceledTaskIds := m.canceledTaskIds.erase taskId } taskId
          if m.exception.isSome then m else resolveDone m done
        else m.raise .valueError

/-- A message, the return of an awaited call or its exception, or a step of the backend. -/
inductive Event where
  | taskNew (task : Task)
  | cancelTask (taskId : TaskID) (force : Bool)
  | objectDelete (source : ClientID)
  | receiverReturns
  | receiverRaises (e : Exn)
  | processorRuns
  | processorRaises (e : Exn)
  | resolverRuns (done : List Nat)
  | resolverRaises (e : Exn)
  | complete (future : Nat) (outcome : FutureOutcome)
  | loadSerializer (source : ClientID)
  deriving DecidableEq

/-- The message handlers run one at a time. -/
def receive (m : TaskManager) (handler : TaskManager → TaskManager) : TaskManager :=
  if m.receiver = .message then handler m else m

def receiverReturns (m : TaskManager) : TaskManager :=
  match m.receiver with
  | .message => m
  | .execute task => { m.registerFuture task.taskId with receiver := .message }
  | .onCancel taskId => m.canceled taskId

def processorRuns (m : TaskManager) : TaskManager :=
  match m.processor with
  | .start =>
    if m.executorSemaphore = 0 then { m with processor := .acquire }
    else { m with executorSemaphore := m.executorSemaphore - 1, processor := .get }
  | .acquire => m
  | .get =>
    match m.queuedTaskIdQueue.get with
    | none => m
    | some ((_, taskId), queue) => dispatch { m with queuedTaskIdQueue := queue } taskId
  | .execute task => { m.registerFuture task.taskId with processor := .start }

/-- The futures that `asyncio.wait` returns come in any order. -/
def resolverRuns (m : TaskManager) (done : List Nat) : TaskManager :=
  match m.resolver with
  | .start =>
    if m.taskIdToFuture.entries = [] then m
    else { m with resolver := .wait (m.taskIdToFuture.entries.map Prod.snd) }
  | .wait futures =>
    if done ≠ [] ∧ done.Perm (futures.filter fun future => m.outcomes.contains future) then
      resolveDone { m with resolver := .start } done
    else m
  | .resolving .setObject taskId resultType rest =>
    { m with resolver := .resolving .sendInstruction taskId resultType rest }
  | .resolving .sendInstruction taskId resultType rest =>
    send { m with resolver := .resolving .sendResult taskId resultType rest } (.taskResult taskId resultType)
  | .resolving .sendResult taskId _ rest =>
    let m := forget { m with resolver := .start } taskId
    if m.exception.isSome then m else m.resolveDone rest
  | .ended => m

/-- What waits for an outer call may end with its exception. -/
def receiverRaises (m : TaskManager) (e : Exn) : TaskManager :=
  if m.receiver = .message then m else m.raise e

def processorRaises (m : TaskManager) (e : Exn) : TaskManager :=
  match m.processor with
  | .execute _ => m.raise e
  | _ => m

def resolverRaises (m : TaskManager) (e : Exn) : TaskManager :=
  match m.resolver with
  | .resolving _ _ _ _ => m.raise e
  | _ => m

def complete (m : TaskManager) (future : Nat) (outcome : FutureOutcome) : TaskManager :=
  if future < m.executions ∧ m.outcomes.contains future = false then
    { m with outcomes := m.outcomes.set future outcome }
  else m

/-- After an exception nothing runs any more. -/
def step (m : TaskManager) (event : Event) : TaskManager :=
  if m.exception.isSome then m
  else
    match event with
    | .taskNew task =>
      m.receive fun m => onTaskNew { m with received := m.received ++ [task.taskId] } task
    | .cancelTask taskId force => m.receive fun m => m.onCancelTask taskId force
    | .objectDelete source => m.receive fun m => { m with serializers := m.serializers.erase source }
    | .receiverReturns => m.receiverReturns
    | .receiverRaises e => m.receiverRaises e
    | .processorRuns => m.processorRuns
    | .processorRaises e => m.processorRaises e
    | .resolverRuns done => m.resolverRuns done
    | .resolverRaises e => m.resolverRaises e
    | .complete future outcome => m.complete future outcome
    | .loadSerializer source => { m with serializers := insert source m.serializers }

end TaskManager

end Adapter

end Scaler
