import Scaler.Protocol

/-! `CapabilityAllocatePolicy`: the least loaded worker among those that offer
every capability the task asks for. -/

namespace Scaler

open Collections

/-- `_WorkerHolder`; the tasks are ordered from oldest to youngest, each with
the capabilities it asked for. -/
structure WorkerHolder where
  workerId : WorkerID
  capabilities : List String
  queueSize : Nat
  taskIdToTask : Dict TaskID (List String)

def WorkerHolder.nTasks (w : WorkerHolder) : Nat := w.taskIdToTask.entries.length

def WorkerHolder.nFree (w : WorkerHolder) : Int := w.queueSize - w.nTasks

structure CapabilityAllocatePolicy where
  workerIdToWorker : Dict WorkerID WorkerHolder
  taskIdToWorkerId : Dict TaskID WorkerID
  capabilityToWorkerIds : Dict String (List WorkerID)

namespace CapabilityAllocatePolicy

def empty : CapabilityAllocatePolicy := ⟨Dict.empty, Dict.empty, Dict.empty⟩

def addCapability (w : WorkerID) (d : Dict String (List WorkerID)) (c : String) :
    Dict String (List WorkerID) := d.set c (((d.get? c).getD []).insert w)

/-- Forgets `w` under each of its capabilities; an unknown capability raises. -/
def dropCapabilities (w : WorkerID) (d : Dict String (List WorkerID)) :
    List String → Except Exn Unit × Dict String (List WorkerID)
  | [] => (.ok (), d)
  | c :: cs =>
    match d.get? c with
    | none => (.error .keyError, d)
    | some ws =>
      dropCapabilities w (if ws.erase w = [] then d.erase c else d.set c (ws.erase w)) cs

def addWorker (p : CapabilityAllocatePolicy) (w : WorkerID) (capabilities : List (String × Int))
    (queueSize : Nat) : Bool × CapabilityAllocatePolicy :=
  if p.workerIdToWorker.contains w then (false, p)
  else
    let names := (capabilities.map Prod.fst).dedup
    (true,
      { p with
        workerIdToWorker := p.workerIdToWorker.set w ⟨w, names, queueSize, Dict.empty⟩
        capabilityToWorkerIds := names.foldl (addCapability w) p.capabilityToWorkerIds })

def removeWorker (p : CapabilityAllocatePolicy) (w : WorkerID) :
    Except Exn (List TaskID) × CapabilityAllocatePolicy :=
  match p.workerIdToWorker.get? w with
  | none => (.ok [], p)
  | some holder =>
    let p := { p with workerIdToWorker := p.workerIdToWorker.erase w }
    match dropCapabilities w p.capabilityToWorkerIds holder.capabilities with
    | (.error e, cs) => (.error e, { p with capabilityToWorkerIds := cs })
    | (.ok _, cs) =>
      let (r, d) := popAll p.taskIdToWorkerId holder.taskIdToTask.keys
      (r.map fun _ => holder.taskIdToTask.keys,
        { p with capabilityToWorkerIds := cs, taskIdToWorkerId := d })

def getWorkerIds (p : CapabilityAllocatePolicy) : List WorkerID := p.workerIdToWorker.keys

/-- The capabilities, which nobody reads there, are left out. -/
def statistics (p : CapabilityAllocatePolicy) : Except Exn (Dict WorkerID TaskNumbers) :=
  Dict.comprehend WorkerHolder.workerId (fun h => .ok ⟨h.nFree, h.nTasks⟩)
    (p.workerIdToWorker.entries.map Prod.snd) Dict.empty

def getWorkerByTaskId (p : CapabilityAllocatePolicy) (t : TaskID) : Option WorkerID :=
  p.taskIdToWorkerId.get? t

/-- Python walks a set here; the model walks the workers in insertion order. -/
def availableWorkers (p : CapabilityAllocatePolicy) (capabilities : List (String × Int)) :
    List WorkerHolder :=
  if capabilities.any fun c => !p.capabilityToWorkerIds.contains c.1 then []
  else
    (p.workerIdToWorker.entries.map Prod.snd).filter fun h =>
      capabilities.all (fun c => h.workerId ∈ (p.capabilityToWorkerIds.get? c.1).getD []) &&
        0 < h.nFree

/-- The first of the workers with the fewest tasks. -/
def minLoaded : List WorkerHolder → Option WorkerHolder
  | [] => none
  | h :: hs =>
    match minLoaded hs with
    | none => some h
    | some m => if m.nTasks < h.nTasks then some m else some h

def assignTask (p : CapabilityAllocatePolicy) (task : Task) :
    Option WorkerID × CapabilityAllocatePolicy :=
  match minLoaded (p.availableWorkers task.capabilities) with
  | none => (none, p)
  | some h =>
    (some h.workerId,
      { p with
        workerIdToWorker := p.workerIdToWorker.set h.workerId
          { h with taskIdToTask := h.taskIdToTask.set task.taskId (task.capabilities.map Prod.fst) }
        taskIdToWorkerId := p.taskIdToWorkerId.set task.taskId h.workerId })

def removeTask (p : CapabilityAllocatePolicy) (t : TaskID) :
    Except Exn (Option WorkerID) × CapabilityAllocatePolicy :=
  match p.taskIdToWorkerId.get? t with
  | none => (.ok none, p)
  | some w =>
    let d := p.taskIdToWorkerId.erase t
    match p.workerIdToWorker.get? w with
    | none => (.error .keyError, { p with taskIdToWorkerId := d })
    | some h =>
      if h.taskIdToTask.contains t then
        (.ok (some w),
          { p with
            taskIdToWorkerId := d
            workerIdToWorker := p.workerIdToWorker.set w
              { h with taskIdToTask := h.taskIdToTask.erase t } })
      else (.error .keyError, { p with taskIdToWorkerId := d })

end CapabilityAllocatePolicy

end Scaler
