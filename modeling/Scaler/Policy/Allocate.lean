import Scaler.Policy.EvenLoad
import Scaler.Policy.Capability

/-! The allocation policy behind `VanillaPolicyController`: one of the two
`TaskAllocatePolicy` implementations. -/

namespace Scaler

open Collections

inductive AllocatePolicy where
  | evenLoad (p : EvenLoadAllocatePolicy)
  | capability (p : CapabilityAllocatePolicy)

inductive AllocatePolicyStrategy where
  | capability
  | evenLoad
  deriving DecidableEq, Repr

def createAllocatePolicy : AllocatePolicyStrategy → AllocatePolicy
  | .capability => .capability .empty
  | .evenLoad => .evenLoad .empty

namespace AllocatePolicy

def addWorker (p : AllocatePolicy) (w : WorkerID) (capabilities : List (String × Int))
    (queueSize : Nat) : Bool × AllocatePolicy :=
  match p with
  | .evenLoad p => (p.addWorker w queueSize).map id .evenLoad
  | .capability p => (p.addWorker w capabilities queueSize).map id .capability

def removeWorker (p : AllocatePolicy) (w : WorkerID) : Except Exn (List TaskID) × AllocatePolicy :=
  match p with
  | .evenLoad p => (p.removeWorker w).map id .evenLoad
  | .capability p => (p.removeWorker w).map id .capability

def getWorkerIds : AllocatePolicy → List WorkerID
  | .evenLoad p => p.getWorkerIds
  | .capability p => p.getWorkerIds

def statistics : AllocatePolicy → Except Exn (Dict WorkerID TaskNumbers)
  | .evenLoad p => p.statistics
  | .capability p => p.statistics

def getWorkerByTaskId (p : AllocatePolicy) (t : TaskID) : Option WorkerID :=
  match p with
  | .evenLoad p => p.getWorkerByTaskId t
  | .capability p => p.getWorkerByTaskId t

def assignTask (p : AllocatePolicy) (task : Task) :
    Except Exn (Option WorkerID) × AllocatePolicy :=
  match p with
  | .evenLoad p => (p.assignTask task).map id .evenLoad
  | .capability p => (p.assignTask task).map .ok .capability

def removeTask (p : AllocatePolicy) (t : TaskID) : Except Exn (Option WorkerID) × AllocatePolicy :=
  match p with
  | .evenLoad p => (p.removeTask t).map id .evenLoad
  | .capability p => (p.removeTask t).map id .capability

end AllocatePolicy

end Scaler
