import Scaler.Protocol

/-! `EvenLoadAllocatePolicy`: the least loaded worker receives the next task. -/

namespace Scaler

open Collections

structure EvenLoadAllocatePolicy where
  workersToQueueSize : Dict WorkerID Nat
  workersToTaskIds : Dict WorkerID (IndexedQueue TaskID)
  taskIdToWorker : Dict TaskID WorkerID
  workerQueue : StablePriorityQueue WorkerID

namespace EvenLoadAllocatePolicy

def empty : EvenLoadAllocatePolicy := ⟨Dict.empty, Dict.empty, Dict.empty, .empty⟩

def addWorker (p : EvenLoadAllocatePolicy) (w : WorkerID) (queueSize : Nat) :
    Bool × EvenLoadAllocatePolicy :=
  if p.workersToTaskIds.contains w then (false, p)
  else
    (true,
      { p with
        workersToTaskIds := p.workersToTaskIds.set w .empty
        workersToQueueSize := p.workersToQueueSize.set w queueSize
        workerQueue := p.workerQueue.put 0 w })

def removeWorker (p : EvenLoadAllocatePolicy) (w : WorkerID) :
    Except Exn (List TaskID) × EvenLoadAllocatePolicy :=
  match p.workersToTaskIds.get? w with
  | none => (.ok [], p)
  | some q =>
    let (r, d) := popAll p.taskIdToWorker q.toList
    (r.map fun _ => q.toList,
      { workersToQueueSize := p.workersToQueueSize.erase w
        workersToTaskIds := p.workersToTaskIds.erase w
        taskIdToWorker := d
        workerQueue := p.workerQueue.remove w })

def getWorkerIds (p : EvenLoadAllocatePolicy) : List WorkerID := p.workersToTaskIds.keys

def statistics (p : EvenLoadAllocatePolicy) : Except Exn (Dict WorkerID TaskNumbers) :=
  Dict.comprehend Prod.fst
    (fun e => match p.workersToQueueSize.get? e.1 with
      | none => .error .keyError
      | some size => .ok ⟨size - e.2.list.length, e.2.list.length⟩)
    p.workersToTaskIds.entries Dict.empty

def getWorkerByTaskId (p : EvenLoadAllocatePolicy) (t : TaskID) : Option WorkerID :=
  p.taskIdToWorker.get? t

def assignTask (p : EvenLoadAllocatePolicy) (task : Task) :
    Except Exn (Option WorkerID) × EvenLoadAllocatePolicy :=
  match p.taskIdToWorker.get? task.taskId with
  | some w => (.ok (some w), p)
  | none =>
    match p.workerQueue.get with
    | none => (.ok none, p)
    | some ((count, w), queue) =>
      match p.workersToQueueSize.get? w, p.workersToTaskIds.get? w with
      | some size, some ids =>
        if count = size then (.ok none, { p with workerQueue := queue.put count w })
        else
          match ids.put task.taskId with
          | (.error e, _) => (.error e, { p with workerQueue := queue })
          | (.ok _, ids') =>
            (.ok (some w),
              { p with
                workersToTaskIds := p.workersToTaskIds.set w ids'
                taskIdToWorker := p.taskIdToWorker.set task.taskId w
                workerQueue := queue.put (count + 1) w })
      | _, _ => (.error .keyError, { p with workerQueue := queue })

def removeTask (p : EvenLoadAllocatePolicy) (t : TaskID) :
    Except Exn (Option WorkerID) × EvenLoadAllocatePolicy :=
  match p.taskIdToWorker.get? t with
  | none => (.ok none, p)
  | some w =>
    let d := p.taskIdToWorker.erase t
    match p.workersToTaskIds.get? w with
    | none => (.error .keyError, { p with taskIdToWorker := d })
    | some ids =>
      match ids.remove t with
      | (.error e, _) => (.error e, { p with taskIdToWorker := d })
      | (.ok _, ids') =>
        (.ok (some w),
          { p with
            taskIdToWorker := d
            workersToTaskIds := p.workersToTaskIds.set w ids'
            workerQueue := p.workerQueue.decreasePriority w })

end EvenLoadAllocatePolicy

end Scaler
