import Mathlib.Logic.Function.Basic
import Scaler.Collections.Word
import Scaler.Protocol

/-! The worker agent: `VanillaTaskManager`, `VanillaProcessorManager` and the heartbeat that
notices dead processors. A detached send returns once it is scheduled, so the coroutines change
hands only where the dispatcher waits for the lock or for a task, and where a failure is stored.
An exception ends the agent. -/

namespace Scaler.Worker

open Collections

inductive AgentError where
  | assertionError
  | keyError
  | valueError
  | runtimeError
  deriving DecidableEq, Repr

/-- `ProcessorHolder`: processes are numbered as they are started, and the identity of a
processor, which is made from its pid, is the same number. -/
structure Holder where
  processorId : Option Nat
  task : Option Task
  suspended : Bool
  deriving DecidableEq, Repr

/-- Where `__processing_task` is: it waits for the lock, it has the lock and waits for a task,
or it stores the failure of a processor that died while suspended. -/
inductive Dispatcher where
  | waitUntilCanAcceptTask
  | get
  | storing (task : Task)
  deriving DecidableEq, Repr

inductive AgentMessage where
  | taskCancelConfirm (confirm : TaskCancelConfirm)
  | taskResult (taskId : TaskID) (resultType : TaskResultType)
  | objectCreated (source : ClientID)
  | toProcessor (processorId : Nat) (task : Task)
  deriving DecidableEq, Repr

/-- `holders` are the objects of `ProcessorHolder` by process, `announced` the processes that
have sent `ProcessorInitialized`, and `heartbeat` is the task whose failure the heartbeat
stores. -/
structure Agent where
  queuedTaskIdToTask : Dict TaskID Task
  queuedTaskIds : StablePriorityQueue TaskID
  processingTaskIds : List TaskID
  currentHolder : Option Nat
  suspendedHoldersByTaskId : Dict TaskID Nat
  holdersByProcessorId : Dict Nat Nat
  canAcceptTaskLock : Bool
  holders : Nat → Holder
  started : Nat
  announced : List Nat
  dispatcher : Dispatcher
  heartbeat : Option Task
  sent : List AgentMessage

inductive AgentEvent where
  | storageConnected
  | task (task : Task)
  | taskCancel (taskCancel : TaskCancel)
  | processorInitialized (processorId : Nat)
  | taskResult (processorId : Nat) (taskId : TaskID) (resultType : TaskResultType)
  | processorDied (processorId : Nat)
  | heartbeatStored
  | lockAcquired
  | taskTaken (resumes : Bool)
  | dispatcherStored
  deriving DecidableEq, Repr

/-- `retrieve_task_flags_from_task(task).priority`: the metadata is a flag, a signed word and
another flag. -/
def retrievePriority (task : Task) : Except AgentError Int :=
  if task.metadata = [] then .ok 0
  else if task.metadata.length = 6 then
    let word := ofBigEndian ((task.metadata.drop 1).take 4)
    .ok (if word < 2 ^ 31 then word else (word : Int) - (2 ^ 32 : Nat))
  else .error .valueError

def getTaskPriority (task : Task) : Except AgentError Int := do
  let priority ← retrievePriority task
  if priority < 0 then .error .valueError else .ok priority

namespace Agent

/-- Before the storage is connected: `initialize` holds the lock. -/
def new : Agent :=
  ⟨Dict.empty, .empty, [], none, Dict.empty, Dict.empty, true, fun _ => ⟨none, none, false⟩, 0, [],
    .waitUntilCanAcceptTask, none, []⟩

variable (s : Agent)

def send (message : AgentMessage) : Agent := { s with sent := s.sent ++ [message] }

def setHolder (process : Nat) (holder : Holder) : Agent :=
  { s with holders := Function.update s.holders process holder }

def release : Except AgentError Agent :=
  if s.canAcceptTaskLock then .ok { s with canAcceptTaskLock := false } else .error .runtimeError

section ProcessorManager

def currentTask : Option Task := s.currentHolder.bind fun process => (s.holders process).task

def currentTaskId : Option TaskID := s.currentTask.map (·.taskId)

def currentProcessorIsInitialized : Bool :=
  s.currentHolder.any fun process => (s.holders process).processorId.isSome

def startNewProcessor : Agent :=
  { s.setHolder s.started ⟨none, none, false⟩ with
    currentHolder := some s.started
    started := s.started + 1 }

def killProcessor (process : Nat) : Agent :=
  let holder := s.holders process
  { s.setHolder process { holder with task := none } with
    holdersByProcessorId := match holder.processorId with
      | some processorId => s.holdersByProcessorId.erase processorId
      | none => s.holdersByProcessorId }

def restartCurrentProcessor : Except AgentError Agent :=
  match s.currentHolder with
  | none => .error .assertionError
  | some process => .ok (s.killProcessor process).startNewProcessor

def endTask (process : Nat) : Agent := s.setHolder process { s.holders process with task := none }

def onProcessorInitialized (processorId : Nat) : Except AgentError Agent :=
  match s.currentHolder with
  | none => .error .assertionError
  | some process =>
    if (s.holders process).processorId.isSome then .ok s
    else
      let s := { s with holdersByProcessorId := s.holdersByProcessorId.set processorId process }
      (s.setHolder process { s.holders process with processorId := some processorId }).release

def onTask (task : Task) : Except AgentError Agent :=
  match s.currentHolder with
  | none => .error .assertionError
  | some process =>
    match (s.holders process).processorId with
    | none => .error .assertionError
    | some processorId =>
      if s.canAcceptTaskLock = true ∧ (s.holders process).task = none then
        .ok ((s.setHolder process { s.holders process with task := some task }).send
          (.toProcessor processorId task))
      else .error .assertionError

/-- `VanillaProcessorManager.on_cancel_task`. -/
def onCancelProcessor (taskId : TaskID) : Except AgentError Agent :=
  if s.currentHolder = none then .error .assertionError
  else if s.currentTaskId = some taskId then s.restartCurrentProcessor
  else
    match s.suspendedHoldersByTaskId.get? taskId with
    | some process =>
      .ok ({ s with suspendedHoldersByTaskId := s.suspendedHoldersByTaskId.erase taskId }.killProcessor process)
    | none => .ok s

/-- `on_failing_processor` up to the storing of the failure of a task. -/
def onFailingProcessor (processorId : Nat) : Except AgentError (Agent × Option Task) :=
  if s.currentHolder = none then .error .assertionError
  else
    match s.holdersByProcessorId.get? processorId with
    | none => .ok (s, none)
    | some process => do
      let task := (s.holders process).task
      let s := match task with
        | some task =>
          { s with suspendedHoldersByTaskId :=
              s.suspendedHoldersByTaskId.erase task.taskId }.endTask process
        | none => s
      let s ← if s.currentHolder = some process then s.restartCurrentProcessor
        else .ok (s.killProcessor process)
      .ok (s, task)

/-- `holder.suspend()` with its assertions. -/
def suspend (process : Nat) : Except AgentError Agent :=
  let holder := s.holders process
  if holder.task.isSome = true ∧ holder.suspended = false ∧ holder.processorId.isSome = true then
    .ok (s.setHolder process { holder with suspended := true })
  else .error .assertionError

def onSuspendTask (taskId : TaskID) : Except AgentError Agent :=
  match s.currentHolder with
  | none => .error .assertionError
  | some process =>
    if s.currentTaskId = some taskId then do
      let s ← s.suspend process
      .ok { s with
        suspendedHoldersByTaskId := s.suspendedHoldersByTaskId.set taskId process }.startNewProcessor
    else .ok s

end ProcessorManager

section TaskManager

def enqueueTask (task : Task) (isSuspended : Bool) : Except AgentError Agent := do
  let taskPriority ← getTaskPriority task
  let queuePriority := -(taskPriority * 10 + if isSuspended then 1 else 0)
  .ok { s with
    queuedTaskIds := s.queuedTaskIds.put queuePriority task.taskId
    queuedTaskIdToTask := s.queuedTaskIdToTask.set task.taskId task }

def suspendIfPriorityIsHigher (newTask : Task) : Except AgentError Agent :=
  match s.currentTask with
  | none => .ok s
  | some currentTask => do
    let newTaskPriority ← getTaskPriority newTask
    let currentTaskPriority ← getTaskPriority currentTask
    if newTaskPriority ≤ currentTaskPriority then .ok s
    else do
      let s ← s.enqueueTask currentTask true
      s.onSuspendTask currentTask.taskId

def onTaskNew (task : Task) : Except AgentError Agent := do
  let s ← s.enqueueTask task false
  s.suspendIfPriorityIsHigher task

def onCancelTask (taskCancel : TaskCancel) : Except AgentError Agent :=
  let taskId := taskCancel.taskId
  if taskId ∉ s.processingTaskIds ∧ s.queuedTaskIdToTask.contains taskId = false then
    .ok (s.send (.taskCancelConfirm ⟨taskId, .cancelNotFound⟩))
  else if taskId ∈ s.processingTaskIds ∧ taskCancel.force = false then
    .ok (s.send (.taskCancelConfirm ⟨taskId, .cancelFailed⟩))
  else do
    let s ← if taskId ∈ s.processingTaskIds then
        onCancelProcessor { s with processingTaskIds := s.processingTaskIds.erase taskId } taskId
      else
        .ok { s with
          queuedTaskIds := s.queuedTaskIds.remove taskId
          queuedTaskIdToTask := s.queuedTaskIdToTask.erase taskId }
    .ok (s.send (.taskCancelConfirm ⟨taskId, .canceled⟩))

/-- `VanillaTaskManager.on_task_result`. -/
def onResult (taskId : TaskID) (resultType : TaskResultType) : Except AgentError Agent :=
  let s := if s.queuedTaskIdToTask.contains taskId then
      { s with
        queuedTaskIdToTask := s.queuedTaskIdToTask.erase taskId
        queuedTaskIds := s.queuedTaskIds.remove taskId }
    else s
  if taskId ∈ s.processingTaskIds then
    .ok ({ s with processingTaskIds := s.processingTaskIds.erase taskId }.send (.taskResult taskId resultType))
  else .error .keyError

end TaskManager

/-- `VanillaProcessorManager.on_task_result`. -/
def onTaskResult (processorId : Nat) (taskId : TaskID) (resultType : TaskResultType) :
    Except AgentError Agent :=
  match s.currentHolder with
  | none => .error .assertionError
  | some current =>
    if s.currentTaskId = some taskId then
      if (s.holders current).processorId = some processorId then do
        let s ← (s.endTask current).onResult taskId resultType
        s.release
      else .error .assertionError
    else
      match s.suspendedHoldersByTaskId.get? taskId with
      | some process =>
        if (s.holders process).processorId = some processorId then
          let s := { s with suspendedHoldersByTaskId := s.suspendedHoldersByTaskId.erase taskId }
          ((s.endTask process).killProcessor process).onResult taskId resultType
        else .error .assertionError
      | none => .ok s

/-- The rest of `on_failing_processor`, when the failure is stored. -/
def onStored (task : Task) : Except AgentError Agent :=
  (s.send (.objectCreated task.source)).onResult task.taskId .failed

/-- `holder.resume()` with its assertions; `resumes` is whether the process is alive. -/
def resume (process : Nat) (resumes : Bool) : Except AgentError (Agent × Bool) :=
  let holder := s.holders process
  if holder.task.isSome = true ∧ holder.suspended = true then
    if resumes then .ok (s.setHolder process { holder with suspended := false }, true) else .ok (s, false)
  else .error .assertionError

/-- The dispatcher is done with its task. -/
def done : Agent := { s with dispatcher := .waitUntilCanAcceptTask }

def onResumeTask (taskId : TaskID) (resumes : Bool) : Except AgentError Agent :=
  if s.canAcceptTaskLock = true ∧ s.currentProcessorIsInitialized = true then
    if s.currentTask.isSome then .ok s.done
    else
      match s.suspendedHoldersByTaskId.get? taskId with
      | none => .ok s.done
      | some process => do
        let s := { s with suspendedHoldersByTaskId := s.suspendedHoldersByTaskId.erase taskId }
        let (s, resumed) ← s.resume process resumes
        if resumed then
          match s.currentHolder with
          | none => .error .assertionError
          | some current => .ok { s.killProcessor current with currentHolder := some process }.done
        else
          match (s.holders process).processorId with
          | none => .error .assertionError
          | some processorId => do
            let (s, task) ← s.onFailingProcessor processorId
            match task with
            | some task => .ok { s with dispatcher := .storing task }
            | none => s.done.release
  else .error .assertionError

/-- `__processing_task` when it has the lock and there is a task. -/
def processingTask (resumes : Bool) : Except AgentError Agent :=
  match s.queuedTaskIds.get with
  | none => .ok s
  | some ((_, taskId), queue) =>
    let s := { s with queuedTaskIds := queue }
    match s.queuedTaskIdToTask.get? taskId with
    | none => .error .keyError
    | some task =>
      let s := { s with queuedTaskIdToTask := s.queuedTaskIdToTask.erase taskId }
      if taskId ∉ s.processingTaskIds then do
        let s ← onTask { s with processingTaskIds := s.processingTaskIds ++ [taskId] } task
        .ok s.done
      else s.onResumeTask taskId resumes

/-- A processor answers for a task that was sent to it. -/
def wasSent (processorId : Nat) (taskId : TaskID) : Bool :=
  s.sent.any fun
    | .toProcessor p task => p = processorId ∧ task.taskId = taskId
    | _ => false

/-- What cannot happen changes nothing: a process announces itself once and answers for what
it was sent, the heartbeat looks at the registered processors, one after the other, and the
dispatcher goes on when what it waits for is there. -/
def step (s : Agent) : AgentEvent → Except AgentError Agent
  | .storageConnected => if s.currentHolder = none then .ok s.startNewProcessor else .ok s
  | .task task => s.onTaskNew task
  | .taskCancel taskCancel => s.onCancelTask taskCancel
  | .processorInitialized processorId =>
    if processorId < s.started ∧ processorId ∉ s.announced then
      { s with announced := processorId :: s.announced }.onProcessorInitialized processorId
    else .ok s
  | .taskResult processorId taskId resultType =>
    if s.wasSent processorId taskId then s.onTaskResult processorId taskId resultType else .ok s
  | .processorDied processorId =>
    if s.heartbeat = none ∧ s.holdersByProcessorId.contains processorId then do
      let (s, task) ← s.onFailingProcessor processorId
      .ok { s with heartbeat := task }
    else .ok s
  | .heartbeatStored =>
    match s.heartbeat with
    | none => .ok s
    | some task => { s with heartbeat := none }.onStored task
  | .lockAcquired =>
    if s.dispatcher = .waitUntilCanAcceptTask ∧ s.canAcceptTaskLock = false then
      .ok { s with canAcceptTaskLock := true, dispatcher := .get }
    else .ok s
  | .taskTaken resumes => if s.dispatcher = .get then s.processingTask resumes else .ok s
  | .dispatcherStored =>
    match s.dispatcher with
    | .storing task => do
      let s ← s.done.onStored task
      s.release
    | _ => .ok s

def run (s : Agent) (events : List AgentEvent) : Except AgentError Agent := events.foldlM step s

end Agent

end Scaler.Worker
