import Mathlib.Algebra.Order.Ring.Rat
import Scaler.Adapter.Payloads

/-! `AWSBatchExecutionBackend` and `OCIHPCExecutionBackend`, from one `await` to the next: tasks are
collected, submitted as jobs and canceled. -/

namespace Scaler

open Collections

namespace Adapter

namespace AWSBatch

def arrayJobBatchWindowSeconds : ℚ := 1 / 2

def arrayJobMinBatchSize : Nat := 2

def arrayJobMaxBatchSize : Nat := 10000

inductive Submitting
  | putObject
  | submitJob (refreshed : Bool)
  deriving DecidableEq

/-- A batch on its way: the tasks whose payloads are stored, by their indices, and the map to the
tasks that is built along with them. -/
structure Submission where
  batch : List TaskID
  stored : List TaskID
  indexToTaskId : Dict Nat TaskID
  stage : Submitting

/-- A job of the service. The children of an array job run the payloads under their indices. -/
inductive Job
  | single (jobId : Text) (task : TaskID)
  | array (jobId : Text) (size : Nat) (payloads : List TaskID) (indexToTaskId : Dict Nat TaskID)

def Job.tasks : Job → List TaskID
  | .single _ task => [task]
  | .array _ _ payloads _ => payloads

/-- The job, or the child, with this identifier runs the task. -/
def Job.Runs : Job → TaskID → Text → Prop
  | .single jobId task, t, id => t = task ∧ id = jobId
  | .array jobId _ payloads _, t, id => ∃ index, payloads[index]? = some t ∧ id = childId jobId index

/-- A task has one future, which goes by the task. The calls of `execute` that load their inputs
and the calls of `on_cancel` that wait for the service are part of the state. -/
structure ExecutionBackend where
  taskIdToBatchJobId : Dict TaskID Text
  batchPending : List TaskID
  batchWindowStart : ℚ
  loading : List TaskID
  submissions : List Submission
  cancels : List (TaskID × Text)
  doneFutures : List TaskID
  /-- The jobs of the service, and those it was asked to terminate. -/
  jobs : List Job
  terminated : List Text
  /-- What has happened so far: calls of `execute`, those that went on to the batch, tasks of
  failed submissions, and calls of `on_cancel` that have returned. -/
  executed : List TaskID
  accepted : List TaskID
  failed : List TaskID
  canceled : List TaskID

inductive BackendEvent
  | execute (task : TaskID)
  | loaded (task : TaskID) (now : ℚ)
  | loadFailed (task : TaskID)
  | routine (now : ℚ)
  /-- What the batch with this number waits for. -/
  | stored (number : Nat)
  | submitted (number : Nat) (jobId : Text)
  | expiredToken (number : Nat)
  | raised (number : Nat)
  /-- A monitor sets the future of its task. -/
  | resolved (task : TaskID)
  | onCancel (task : TaskID)
  | terminated (number : Nat)
  | terminateFailed (number : Nat)
  | onCleanup (task : TaskID)

namespace Submission

/-- A single task goes through the store if its payload is too large. -/
def new (large : TaskID → Bool) (batch : List TaskID) : Submission where
  batch
  stored := []
  indexToTaskId := .empty
  stage := if arrayJobMinBatchSize ≤ batch.length ∨ batch.any large then .putObject else .submitJob false

/-- The loop of `_submit_array_job` from one payload to the next. -/
def putObject (s : Submission) : Submission :=
  if arrayJobMinBatchSize ≤ s.batch.length then
    match s.batch[s.stored.length]? with
    | none => s
    | some task =>
      { s with
        stored := s.stored ++ [task]
        indexToTaskId := s.indexToTaskId.set s.stored.length task
        stage := if s.stored.length + 1 < s.batch.length then .putObject else .submitJob false }
  else { s with stage := .submitJob false }

end Submission

namespace ExecutionBackend

def new : ExecutionBackend where
  taskIdToBatchJobId := .empty
  batchPending := []
  batchWindowStart := 0
  loading := []
  submissions := []
  cancels := []
  doneFutures := []
  jobs := []
  terminated := []
  executed := []
  accepted := []
  failed := []
  canceled := []

variable (large : TaskID → Bool) (b : ExecutionBackend)

/-- Up to the first `await` of the submission. -/
def flushPendingBatch : ExecutionBackend :=
  match b.batchPending with
  | [] => b
  | task :: tasks =>
    { b with batchPending := [], submissions := b.submissions ++ [.new large (task :: tasks)] }

def routine (now : ℚ) : ExecutionBackend :=
  if b.batchPending ≠ [] ∧ arrayJobBatchWindowSeconds ≤ now - b.batchWindowStart then b.flushPendingBatch large else b

/-- The task of `execute`, its inputs loaded, joins the pending batch. -/
def collect (task : TaskID) (now : ℚ) : ExecutionBackend :=
  { b with
    loading := b.loading.erase task
    batchPending := b.batchPending ++ [task]
    batchWindowStart := if b.batchPending = [] then now else b.batchWindowStart
    accepted := b.accepted ++ [task] }

/-- The rest of `execute`. -/
def flushFullBatch : ExecutionBackend :=
  if arrayJobMaxBatchSize ≤ b.batchPending.length then b.flushPendingBatch large else b

/-- The rest of a submission once the service has a job. -/
def onSubmitted (s : Submission) (jobId : Text) : ExecutionBackend :=
  if arrayJobMinBatchSize ≤ s.batch.length then
    { b with
      jobs := b.jobs ++ [.array jobId s.batch.length s.stored s.indexToTaskId]
      taskIdToBatchJobId :=
        s.indexToTaskId.entries.foldl (fun ids entry => ids.set entry.2 (childId jobId entry.1)) b.taskIdToBatchJobId }
  else
    match s.batch with
    | [] => b
    | task :: _ =>
      { b with
        jobs := b.jobs ++ [.single jobId task]
        taskIdToBatchJobId := b.taskIdToBatchJobId.set task jobId }

/-- The handler of `_flush_batch`. -/
def onRaised (s : Submission) : ExecutionBackend :=
  { b with
    doneFutures := b.doneFutures ++ s.batch.filter (· ∉ b.doneFutures)
    failed := b.failed ++ s.batch }

def onCancel (task : TaskID) : ExecutionBackend :=
  match b.taskIdToBatchJobId.get? task with
  | none => { b with canceled := b.canceled ++ [task] }
  | some jobId => { b with cancels := b.cancels ++ [(task, jobId)] }

def onCleanup (task : TaskID) : ExecutionBackend :=
  { b with taskIdToBatchJobId := b.taskIdToBatchJobId.erase task }

def step : BackendEvent → Option ExecutionBackend
  | .execute task => some { b with loading := b.loading ++ [task], executed := b.executed ++ [task] }
  | .loaded task now =>
    if task ∈ b.loading then some ((b.collect task now).flushFullBatch large) else none
  | .loadFailed task => if task ∈ b.loading then some { b with loading := b.loading.erase task } else none
  | .routine now => some (b.routine large now)
  | .stored number =>
    b.submissions[number]?.bind fun s =>
      if s.stage = .putObject then some { b with submissions := b.submissions.set number s.putObject } else none
  | .submitted number jobId =>
    b.submissions[number]?.bind fun s =>
      match s.stage with
      | .putObject => none
      | .submitJob _ => some ({ b with submissions := b.submissions.eraseIdx number }.onSubmitted s jobId)
  | .expiredToken number =>
    b.submissions[number]?.bind fun s =>
      if s.stage = .submitJob false then
        some { b with submissions := b.submissions.set number { s with stage := .submitJob true } }
      else none
  | .raised number =>
    b.submissions[number]?.map fun s => { b with submissions := b.submissions.eraseIdx number }.onRaised s
  | .resolved task =>
    if task ∉ b.doneFutures ∧ task ∈ b.jobs.flatMap Job.tasks then
      some { b with doneFutures := b.doneFutures ++ [task] }
    else none
  | .onCancel task => some (b.onCancel task)
  | .terminated number =>
    b.cancels[number]?.map fun cancel =>
      { b with
        cancels := b.cancels.eraseIdx number
        terminated := b.terminated ++ [cancel.2]
        canceled := b.canceled ++ [cancel.1] }
  | .terminateFailed number =>
    b.cancels[number]?.map fun cancel =>
      { b with cancels := b.cancels.eraseIdx number, canceled := b.canceled ++ [cancel.1] }
  | .onCleanup task => some (b.onCleanup task)

end ExecutionBackend

end AWSBatch

namespace OCIHPC

/-- Calls of `execute` by their `await`, and calls of `on_cancel` that delete the instance or the
input of their task. -/
structure ExecutionBackend where
  taskIdToInstanceId : Dict TaskID Text
  taskIdToInputKey : Dict TaskID Text
  loading : List TaskID
  storing : List TaskID
  creating : List TaskID
  deletingInstance : List (TaskID × Text)
  deletingInput : List TaskID
  /-- The instances that were created, for which task, and those that were deleted. -/
  instances : List (TaskID × Text)
  deleted : List Text
  executed : List TaskID
  failed : List TaskID
  canceled : List TaskID

inductive BackendEvent
  | execute (task : TaskID)
  | loaded (task : TaskID)
  | loadFailed (task : TaskID)
  | stored (task : TaskID)
  | created (task : TaskID) (instanceId : Text)
  | raised (task : TaskID)
  | onCancel (task : TaskID)
  | instanceDeleted (number : Nat)
  | deleteInstanceFailed (number : Nat)
  /-- The input is deleted, or the error is logged. -/
  | inputDeleted (number : Nat)
  /-- A monitor deletes its instance. -/
  | monitorDeleted (instanceId : Text)
  | onCleanup (task : TaskID)

namespace ExecutionBackend

def new : ExecutionBackend where
  taskIdToInstanceId := .empty
  taskIdToInputKey := .empty
  loading := []
  storing := []
  creating := []
  deletingInstance := []
  deletingInput := []
  instances := []
  deleted := []
  executed := []
  failed := []
  canceled := []

variable (inputKey : TaskID → Option Text) (b : ExecutionBackend)

/-- A payload that is too large to go inline has a key. -/
def onCreated (task : TaskID) (instanceId : Text) : ExecutionBackend :=
  { b with
    creating := b.creating.erase task
    instances := b.instances ++ [(task, instanceId)]
    taskIdToInstanceId := b.taskIdToInstanceId.set task instanceId
    taskIdToInputKey :=
      match inputKey task with
      | none => b.taskIdToInputKey
      | some key => b.taskIdToInputKey.set task key }

/-- The second half of `on_cancel`. -/
def cancelInput (task : TaskID) : ExecutionBackend :=
  match b.taskIdToInputKey.get? task with
  | none => { b with canceled := b.canceled ++ [task] }
  | some _ => { b with taskIdToInputKey := b.taskIdToInputKey.erase task, deletingInput := b.deletingInput ++ [task] }

def onCancel (task : TaskID) : ExecutionBackend :=
  match b.taskIdToInstanceId.get? task with
  | none => b.cancelInput task
  | some instanceId =>
    { b with
      taskIdToInstanceId := b.taskIdToInstanceId.erase task
      deletingInstance := b.deletingInstance ++ [(task, instanceId)] }

def onCleanup (task : TaskID) : ExecutionBackend :=
  { b with
    taskIdToInstanceId := b.taskIdToInstanceId.erase task
    taskIdToInputKey := b.taskIdToInputKey.erase task }

def step : BackendEvent → Option ExecutionBackend
  | .execute task => some { b with loading := b.loading ++ [task], executed := b.executed ++ [task] }
  | .loaded task =>
    if task ∈ b.loading then
      if (inputKey task).isSome then some { b with loading := b.loading.erase task, storing := b.storing ++ [task] }
      else some { b with loading := b.loading.erase task, creating := b.creating ++ [task] }
    else none
  | .loadFailed task => if task ∈ b.loading then some { b with loading := b.loading.erase task } else none
  | .stored task =>
    if task ∈ b.storing then some { b with storing := b.storing.erase task, creating := b.creating ++ [task] } else none
  | .created task instanceId => if task ∈ b.creating then some (b.onCreated inputKey task instanceId) else none
  | .raised task =>
    if task ∈ b.storing then some { b with storing := b.storing.erase task, failed := b.failed ++ [task] }
    else if task ∈ b.creating then some { b with creating := b.creating.erase task, failed := b.failed ++ [task] }
    else none
  | .onCancel task => some (b.onCancel task)
  | .instanceDeleted number =>
    b.deletingInstance[number]?.map fun cancel =>
      { b with
        deletingInstance := b.deletingInstance.eraseIdx number
        deleted := b.deleted ++ [cancel.2] }.cancelInput cancel.1
  | .deleteInstanceFailed number =>
    b.deletingInstance[number]?.map fun cancel =>
      { b with deletingInstance := b.deletingInstance.eraseIdx number }.cancelInput cancel.1
  | .inputDeleted number =>
    b.deletingInput[number]?.map fun task =>
      { b with deletingInput := b.deletingInput.eraseIdx number, canceled := b.canceled ++ [task] }
  | .monitorDeleted instanceId =>
    if b.instances.any fun created => created.2 = instanceId then some { b with deleted := b.deleted ++ [instanceId] } else none
  | .onCleanup task => some (b.onCleanup task)

end ExecutionBackend

end OCIHPC

end Adapter

end Scaler
