import Mathlib.Data.List.Nodup
import Scaler.Protocol

/-! The monitors of submitted jobs: `_monitor_batch_job` and `_monitor_array_job` of AWS Batch and
`_monitor_container_instance` of OCI, from one `await` to the next. What the services answer or raise
is part of the run. The polls of the status and the attempts to settle a future are recorded. -/

namespace Scaler.Adapter

/-- The exceptions that a monitor sets. -/
inductive JobError where
  | fetchFailed
  | jobFailed
  | timedOut
  | failedInContainer
  | unexpectedState
  | notFound
  deriving DecidableEq, Repr

section Log

variable (Value : Type)

inductive MonitorAction where
  | poll
  | settle (task : TaskID) (outcome : Except JobError Value)

/-- The futures by their tasks: those that are settled, and what was done so far. -/
structure MonitorLog where
  settled : List TaskID
  actions : List (MonitorAction Value)

variable {Value}

namespace MonitorLog

def empty : MonitorLog Value := ⟨[], []⟩

def poll (log : MonitorLog Value) : MonitorLog Value := { log with actions := log.actions ++ [.poll] }

/-- `set_result` or `set_exception`, and whether it returns: a settled future raises. -/
def settle (log : MonitorLog Value) (task : TaskID) (outcome : Except JobError Value) : Bool × MonitorLog Value :=
  if task ∈ log.settled then (false, { log with actions := log.actions ++ [.settle task outcome] })
  else (true, ⟨log.settled ++ [task], log.actions ++ [MonitorAction.settle task outcome]⟩)

end MonitorLog

end Log

namespace AWSBatch

inductive JobStatus where
  | succeeded
  | failed
  | inProgress
  | unknown
  deriving DecidableEq, Repr

/-- A job of an answer: its index among the children and its status; none if reading it raises. -/
abbrev JobRow := Option (Nat × JobStatus)

/-- What an `await` ends with. The body of an object is what it deserializes to, if it does. -/
inductive Answer (Value : Type) where
  | slept
  | described (jobs : List JobRow)
  | object (body : Option Value)
  | noSuchKey
  | done
  | raised

variable {Value : Type}

inductive BatchStage where
  | sleeping
  | describing
  | fetching (compressed : Bool)
  | deleting
  | fetchingLogs
  | finished
  deriving DecidableEq, Repr

structure BatchMonitor (Value : Type) where
  task : TaskID
  stage : BatchStage
  log : MonitorLog Value

namespace BatchMonitor

def start (task : TaskID) : BatchMonitor Value := ⟨task, .sleeping, .empty⟩

variable (m : BatchMonitor Value)

/-- The future is settled and the monitor goes on to `next`; what a settled future raises is logged
by the outer handler, and the next round begins. -/
def settle (outcome : Except JobError Value) (next : BatchStage) : BatchMonitor Value :=
  match m.log.settle m.task outcome with
  | (true, log) => { m with stage := next, log }
  | (false, log) => { m with stage := .sleeping, log }

/-- The inner handler. -/
def fetchFailed : BatchMonitor Value := m.settle (.error .fetchFailed) .finished

def setResult (value : Value) : BatchMonitor Value :=
  match m.log.settle m.task (.ok value) with
  | (true, log) => { m with stage := .deleting, log }
  | (false, log) => { m with log }.fetchFailed

def onStatus : JobRow → BatchMonitor Value
  | none => { m with stage := .sleeping }
  | some (_, .succeeded) => { m with stage := .fetching false }
  -- the logs are fetched after another look at the job
  | some (_, .failed) => { m with stage := .fetchingLogs, log := m.log.poll }
  | some (_, .inProgress) => { m with stage := .sleeping }
  | some (_, .unknown) => { m with stage := .sleeping }

def step : Answer Value → Option (BatchMonitor Value)
  | .slept =>
    match m.stage with
    | .sleeping => some { m with stage := .describing, log := m.log.poll }
    | _ => none
  | .described jobs =>
    match m.stage, jobs with
    | .describing, [] => some { m with stage := .sleeping }
    | .describing, job :: _ => some (m.onStatus job)
    | _, _ => none
  | .object body =>
    match m.stage, body with
    | .fetching _, none => some m.fetchFailed
    | .fetching _, some value => some (m.setResult value)
    | _, _ => none
  | .noSuchKey =>
    match m.stage with
    | .fetching false => some { m with stage := .fetching true }
    | .fetching true => some m.fetchFailed
    | _ => none
  | .done =>
    match m.stage with
    | .deleting => some { m with stage := .finished }
    | .fetchingLogs => some (m.settle (.error .jobFailed) .finished)
    | _ => none
  | .raised =>
    match m.stage with
    | .describing => some { m with stage := .sleeping }
    | .fetching _ => some m.fetchFailed
    | .deleting => some m.fetchFailed
    -- `_fetch_job_logs` returns a text
    | _ => none

end BatchMonitor

/-- The tasks of an array job by their indices. Every one of them has a future. -/
structure ArrayJob where
  tasks : List TaskID
  nodup : tasks.Nodup

/-- How many children one call describes. -/
def describeBatchSize : Nat := 100

def fetchAttempts : Nat := 5

/-- The keys under which a result may be found. -/
def keyCandidates : Nat := 4

inductive ArrayStage where
  | sleeping
  | describing (batch : List Nat) (later : List (List Nat))
  | fetching (index attempt candidate : Nat) (jobs : List JobRow) (later : List (List Nat))
  | retrying (index attempt : Nat) (jobs : List JobRow) (later : List (List Nat))
  | deleting (index : Nat) (jobs : List JobRow) (later : List (List Nat))
  | cleaning (index : Nat)
  | finished

structure ArrayMonitor (Value : Type) where
  job : ArrayJob
  resolved : List Nat
  stage : ArrayStage
  log : MonitorLog Value

namespace ArrayMonitor

variable (m : ArrayMonitor Value)

/-- The head of the loop, which ends when all children are resolved. -/
def nextRound : ArrayMonitor Value :=
  if m.resolved.length < m.job.tasks.length then { m with stage := .sleeping }
  else if m.job.tasks = [] then { m with stage := .finished }
  else { m with stage := .cleaning 0 }

def start (job : ArrayJob) : ArrayMonitor Value := nextRound ⟨job, [], .sleeping, .empty⟩

def unresolvedIndices : List Nat := (List.range m.job.tasks.length).filter (· ∉ m.resolved)

def batches (indices : List Nat) : List (List Nat) :=
  (List.range ((indices.length + (describeBatchSize - 1)) / describeBatchSize)).map fun k =>
    (indices.drop (describeBatchSize * k)).take describeBatchSize

def describe : List (List Nat) → ArrayMonitor Value
  | [] => m.nextRound
  | batch :: later => { m with stage := .describing batch later, log := m.log.poll }

def resolve (index : Nat) : ArrayMonitor Value :=
  { m with resolved := if index ∈ m.resolved then m.resolved else m.resolved ++ [index] }

/-- The jobs of an answer in turn, up to one whose result is to be fetched. -/
def onJobs (later : List (List Nat)) : List JobRow → ArrayMonitor Value → ArrayMonitor Value
  | [], m => m.describe later
  | none :: _, m => m.nextRound
  | some (index, status) :: jobs, m =>
    match m.job.tasks[index]? with
    | none => m.nextRound
    | some task =>
      if task ∈ m.log.settled then onJobs later jobs (m.resolve index)
      else
        match status with
        | .succeeded => { m with stage := .fetching index 0 0 jobs later }
        | .failed =>
          match m.log.settle task (.error .jobFailed) with
          | (true, log) => onJobs later jobs ({ m with log }.resolve index)
          | (false, log) => { m with log }.nextRound
        | .inProgress => onJobs later jobs m
        | .unknown => onJobs later jobs m

/-- The inner handler: what a settled future raises ends the round. -/
def fetchFailed (index : Nat) (jobs : List JobRow) (later : List (List Nat)) : ArrayMonitor Value :=
  match m.job.tasks[index]? with
  | none => m.nextRound
  | some task =>
    match m.log.settle task (.error .fetchFailed) with
    | (true, log) => onJobs later jobs ({ m with log }.resolve index)
    | (false, log) => { m with log }.nextRound

def setResult (index : Nat) (value : Value) (jobs : List JobRow) (later : List (List Nat)) : ArrayMonitor Value :=
  match m.job.tasks[index]? with
  | none => m.nextRound
  | some task =>
    match m.log.settle task (.ok value) with
    | (true, log) => { m with stage := .deleting index jobs later, log }
    | (false, log) => { m with log }.fetchFailed index jobs later

/-- The service answers about the jobs that it was asked for. -/
def Describes (batch : List Nat) (jobs : List JobRow) : Prop := ∀ index status, some (index, status) ∈ jobs → index ∈ batch

instance (batch : List Nat) (jobs : List JobRow) : Decidable (Describes batch jobs) :=
  decidable_of_iff (∀ job ∈ jobs, ∀ row ∈ job, row.1 ∈ batch) (by
    constructor
    · intro h index status hjob
      exact h _ hjob (index, status) rfl
    · rintro h job hjob ⟨index, status⟩ rfl
      exact h index status hjob)

def step : Answer Value → Option (ArrayMonitor Value)
  | .slept =>
    match m.stage with
    | .sleeping => some (m.describe (batches m.unresolvedIndices))
    | .retrying index attempt jobs later =>
      if attempt + 1 < fetchAttempts then some { m with stage := .fetching index (attempt + 1) 0 jobs later }
      else some (m.fetchFailed index jobs later)
    | _ => none
  | .described jobs =>
    match m.stage with
    | .describing batch later => if Describes batch jobs then some (onJobs later jobs m) else none
    | _ => none
  | .object body =>
    match m.stage, body with
    | .fetching index _ _ jobs later, none => some (m.fetchFailed index jobs later)
    | .fetching index _ _ jobs later, some value => some (m.setResult index value jobs later)
    | _, _ => none
  | .noSuchKey =>
    match m.stage with
    | .fetching index attempt candidate jobs later =>
      if candidate + 1 < keyCandidates then some { m with stage := .fetching index attempt (candidate + 1) jobs later }
      else some { m with stage := .retrying index attempt jobs later }
    | _ => none
  | .done =>
    match m.stage with
    | .deleting index jobs later => some (onJobs later jobs (m.resolve index))
    | .cleaning index =>
      if index + 1 < m.job.tasks.length then some { m with stage := .cleaning (index + 1) }
      else some { m with stage := .finished }
    | _ => none
  | .raised =>
    match m.stage with
    | .describing _ _ => some m.nextRound
    | .fetching index _ _ jobs later => some (m.fetchFailed index jobs later)
    | .deleting index jobs later => some (m.fetchFailed index jobs later)
    | .cleaning _ => some { m with stage := .finished }
    | _ => none

end ArrayMonitor

end AWSBatch

namespace OCIHPC

inductive LifecycleState where
  | creating
  | active
  | inactive
  | failed
  | other
  deriving DecidableEq, Repr

/-- `slept` says whether the job has timed out. The object holds a result or the report of an error
in the container, if it can be read at all. -/
inductive Answer (Value : Type) where
  | slept (timedOut : Bool)
  | state (lifecycleState : LifecycleState)
  | object (body : Option (Option Value))
  | done
  | serviceError (status : Int)
  | raised

inductive ContainerStage where
  | sleeping
  | describing
  | fetching
  | deletingResult
  | fetchingLogs
  | deletingInstance
  | finished
  deriving DecidableEq, Repr

def maxUnexpectedStateCount : Nat := 5

structure ContainerMonitor (Value : Type) where
  task : TaskID
  unexpectedStateCount : Nat
  stage : ContainerStage
  log : MonitorLog Value

namespace ContainerMonitor

variable {Value : Type}

def start (task : TaskID) : ContainerMonitor Value := ⟨task, 0, .sleeping, .empty⟩

variable (m : ContainerMonitor Value)

/-- The future is settled and the monitor goes on to `next`, or to `handler` if that raises. -/
def settle (outcome : Except JobError Value) (next handler : ContainerStage) : ContainerMonitor Value :=
  match m.log.settle m.task outcome with
  | (true, log) => { m with stage := next, log }
  | (false, log) => { m with stage := handler, log }

/-- The inner handler, around the fetch of the result. -/
def fetchFailed : ContainerMonitor Value := m.settle (.error .fetchFailed) .deletingInstance .sleeping

def onResult (body : Option Value) : ContainerMonitor Value :=
  let outcome := match body with
    | none => .error .failedInContainer
    | some value => .ok value
  match m.log.settle m.task outcome with
  | (true, log) => { m with stage := .deletingResult, log }
  | (false, log) => { m with log }.fetchFailed

def onState : LifecycleState → ContainerMonitor Value
  | .inactive => { m with stage := .fetching }
  | .failed => { m with stage := .fetchingLogs }
  | .creating => { m with stage := .sleeping }
  | .active => { m with stage := .sleeping }
  | .other =>
    let m := { m with unexpectedStateCount := m.unexpectedStateCount + 1 }
    if m.unexpectedStateCount ≥ maxUnexpectedStateCount then
      m.settle (.error .unexpectedState) .deletingInstance .sleeping
    else { m with stage := .sleeping }

def step : Answer Value → Option (ContainerMonitor Value)
  | .slept timedOut =>
    match m.stage with
    | .sleeping =>
      -- nothing catches what is raised outside of the `try`
      if timedOut then some (m.settle (.error .timedOut) .deletingInstance .finished)
      else some { m with stage := .describing, log := m.log.poll }
    | _ => none
  | .state lifecycleState =>
    match m.stage with
    | .describing => some (m.onState lifecycleState)
    | _ => none
  | .object body =>
    match m.stage, body with
    | .fetching, none => some m.fetchFailed
    | .fetching, some result => some (m.onResult result)
    | _, _ => none
  | .done =>
    match m.stage with
    | .deletingResult => some { m with stage := .deletingInstance }
    | .fetchingLogs => some (m.settle (.error .jobFailed) .deletingInstance .sleeping)
    | .deletingInstance => some { m with stage := .finished }
    | _ => none
  | .serviceError status =>
    match m.stage with
    | .describing =>
      if status = 404 then some (m.settle (.error .notFound) .finished .finished) else some { m with stage := .sleeping }
    | .fetching => some m.fetchFailed
    | .deletingResult => some { m with stage := .deletingInstance }
    | .deletingInstance => some { m with stage := .finished }
    | _ => none
  | .raised =>
    match m.stage with
    | .describing => some { m with stage := .sleeping }
    | .fetching => some m.fetchFailed
    | .deletingResult => some { m with stage := .deletingInstance }
    | .deletingInstance => some { m with stage := .finished }
    | _ => none

end ContainerMonitor

end OCIHPC

end Scaler.Adapter
