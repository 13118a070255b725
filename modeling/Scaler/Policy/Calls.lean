import Scaler.Policy.Allocate

/-! Sequences of calls on the two allocation policies. A call that raises ends the
sequence. -/

namespace Scaler

open Collections

/-- The order in which Python happens to walk a set of workers. -/
structure SetOrder where
  walk : List WorkerHolder → List WorkerHolder
  perm : ∀ hs, (walk hs).Perm hs

def SetOrder.insertion : SetOrder := ⟨id, fun _ => .refl _⟩

/-- `assign_task` with the candidates walked in a given order. -/
def CapabilityAllocatePolicy.assignTaskIn (p : CapabilityAllocatePolicy) (order : SetOrder)
    (task : Task) : Option WorkerID × CapabilityAllocatePolicy :=
  match minLoaded (order.walk (p.availableWorkers task.capabilities)) with
  | none => (none, p)
  | some h =>
    (some h.workerId,
      { p with
        workerIdToWorker := p.workerIdToWorker.set h.workerId
          { h with taskIdToTask := h.taskIdToTask.set task.taskId (task.capabilities.map Prod.fst) }
        taskIdToWorkerId := p.taskIdToWorkerId.set task.taskId h.workerId })

/-- Only the capability policy walks a set, so only there the order of `assignTask` matters. -/
inductive PolicyCall where
  | addWorker (w : WorkerID) (capabilities : List (String × Int)) (queueSize : Nat)
  | removeWorker (w : WorkerID)
  | assignTask (order : SetOrder) (task : Task)
  | removeTask (t : TaskID)

/-- The state after a call that returned. -/
def afterCall {α σ : Type} (r : Except Exn α × σ) : Except Exn σ := r.1.map fun _ => r.2

@[simp] theorem afterCall_ok {α σ : Type} (a : α) (s : σ) :
    afterCall ((.ok a, s) : Except Exn α × σ) = .ok s := rfl

def EvenLoadAllocatePolicy.call (p : EvenLoadAllocatePolicy) :
    PolicyCall → Except Exn EvenLoadAllocatePolicy
  | .addWorker w _ queueSize => .ok (p.addWorker w queueSize).2
  | .removeWorker w => afterCall (p.removeWorker w)
  | .assignTask _ task => afterCall (p.assignTask task)
  | .removeTask t => afterCall (p.removeTask t)

def CapabilityAllocatePolicy.call (p : CapabilityAllocatePolicy) :
    PolicyCall → Except Exn CapabilityAllocatePolicy
  | .addWorker w capabilities queueSize => .ok (p.addWorker w capabilities queueSize).2
  | .removeWorker w => afterCall (p.removeWorker w)
  | .assignTask order task => .ok (p.assignTaskIn order task).2
  | .removeTask t => afterCall (p.removeTask t)

def AllocatePolicy.call : AllocatePolicy → PolicyCall → Except Exn AllocatePolicy
  | .evenLoad p, c => (p.call c).map .evenLoad
  | .capability p, c => (p.call c).map .capability

end Scaler
