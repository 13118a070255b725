import Scaler.Scheduler.State
import Scaler.Scheduler.ObjectTracker

/-! What every controller calls: the sockets, the object storage, the history, the
client controller's task map, the object controller's tracker and the policy. -/

namespace Scaler

open Collections Coroutine

def Sched.note (s : Sched) (o : Obs) : Sched := { s with trace := o :: s.trace }

def record (o : Obs) : M Unit := Coro.modify (·.note o)

/-- Whom the policy records for the task of a task message. -/
def Sched.holderOf (s : Sched) : Message → Option WorkerID
  | .task task => s.policy.getWorkerByTaskId task.taskId
  | _ => none

def Sched.noteSent (s : Sched) (peer : Peer) (m : Message) : Sched :=
  s.note (.sent peer m (s.holderOf m))

/-- `AsyncBinder.send`: the message leaves at once, the await may suspend, and the
environment decides whether the call raises. -/
def binderSend (peer : Peer) (m : Message) : M Unit :=
  Coro.choose fun
    | true => do
      Coro.modify (·.noteSent peer m)
      Coro.pause .send
    | false => do
      record .sendFailed
      Coro.raise .sendError

/-- `AsyncPublisher.send` of a monitoring message; its contents are not modelled. -/
def monitorSend : M Unit :=
  Coro.choose fun
    | true => Coro.pause .monitor
    | false => do
      record .sendFailed
      Coro.raise .sendError

/-- A request of the object storage connector. -/
def storageRequest : M Unit :=
  Coro.choose fun
    | true => Coro.pause .storage
    | false => do
      record .storageFailed
      Coro.raise .storageError

/-- A synchronous function whose exception the trace keeps. -/
def syncNoting {α : Type} (o : Obs) (f : Sched → Except Exn α × Sched) : M α :=
  Coro.act
    (fun s => match (f s).1 with
      | .ok _ => (f s).2
      | .error _ => (f s).2.note o)
    fun s => Coro.ofExcept (f s).1

/-- `d[k]` of Python on a part of the state. -/
def index {α : Type} (f : Sched → Option α) : M α :=
  Coro.act id fun s =>
    match f s with
    | some a => Coro.ret a
    | none => Coro.raise .keyError

/-- The payload `_task_id_to_task[t]`. -/
def payload (t : TaskID) : M Task :=
  syncNoting (.payloadMissing t) fun s =>
    match s.taskIdToTask.get? t with
    | some task => (.ok task, s)
    | none => (.error .keyError, s)

section ClientController

def Sched.onTaskBegin (s : Sched) (c : ClientID) (t : TaskID) : Except Exn Unit × Sched :=
  ((s.clientToTaskIds.add c t).1, { s with clientToTaskIds := (s.clientToTaskIds.add c t).2 })

def Sched.onTaskFinish (s : Sched) (t : TaskID) : Sched :=
  if s.clientToTaskIds.hasValue t then
    { s with clientToTaskIds := (s.clientToTaskIds.removeValue t).2 }
  else s

/-- The client that owned the task, which owns it no longer. -/
def onTaskFinish (t : TaskID) : M (Option ClientID) :=
  Coro.act (·.onTaskFinish t) fun s => Coro.ret (s.clientToTaskIds.getKey? t)

end ClientController

namespace ObjectTracker

def empty : ObjectTracker := ⟨[], .empty, Dict.empty⟩

/-- `on_add_object`: the creator blocks the object's deletion. -/
def addObject (o : ObjectTracker) (c : ClientID) (id : ObjectID) (name : Bytes) : ObjectTracker :=
  { currentBlocks := o.currentBlocks.insert c
    objectKeyToBlock := o.objectKeyToBlock.add id c
    objectKeyToObject := o.objectKeyToObject.set id name }

/-- `__remove_block_for_object`; the Boolean says that the object became ready for deletion. -/
def removeBlockForObject (o : ObjectTracker) (id : ObjectID) (c : ClientID) :
    Bool × ObjectTracker :=
  if c ∉ o.currentBlocks ∨ !o.objectKeyToObject.contains id ∨ !o.objectKeyToBlock.hasKeyPair id c then
    (false, o)
  else
    let blocks := (o.objectKeyToBlock.remove id c).2
    let o := { o with
      objectKeyToBlock := blocks
      currentBlocks := if blocks.hasRightKey c then o.currentBlocks else o.currentBlocks.erase c }
    if blocks.hasLeftKey id then (false, o)
    else (true, { o with objectKeyToObject := o.objectKeyToObject.erase id })

/-- The tracker as `object_tracker.py` has it, with clients for blocks and names for objects. -/
def usage (o : ObjectTracker) : ObjectUsage.ObjectTracker ClientID ObjectID Bytes :=
  ⟨o.currentBlocks, o.objectKeyToBlock, o.objectKeyToObject⟩

variable (o : ObjectTracker) (c : ClientID)

theorem usage_addObject (id : ObjectID) (name : Bytes) : (o.addObject c id name).usage =
    ((o.usage.addObject (fun _ => id) name).addBlocksForOneObject id [c]).2 := by
  have hhas : (o.usage.addObject (fun _ => id) name).hasObject id = true := by
    simp [ObjectUsage.ObjectTracker.hasObject, ObjectUsage.ObjectTracker.addObject, Dict.contains]
  rw [ObjectUsage.ObjectTracker.addBlocksForOneObject, if_pos hhas]
  rfl

/-- The callback is called with the object exactly when it became ready. -/
theorem usage_removeBlockForObject (id : ObjectID) : o.usage.removeBlockForObject id c =
    (if (o.removeBlockForObject id c).1 then o.objectKeyToObject.get? id else none, (o.removeBlockForObject id c).2.usage) := by
  unfold removeBlockForObject ObjectUsage.ObjectTracker.removeBlockForObject ObjectUsage.ObjectTracker.hasObject
  by_cases hblock : c ∈ o.currentBlocks
  · cases hobject : o.objectKeyToObject.contains id with
    | false => simp [usage, hobject]
    | true =>
      cases hpair : o.objectKeyToBlock.hasKeyPair id c with
      | false => simp [usage, hpair]
      | true =>
        cases hleft : (o.objectKeyToBlock.remove id c).2.hasLeftKey id with
        | false =>
          simp only [usage, hblock, hobject, hpair, hleft, not_true_eq_false, Bool.not_true, Bool.false_eq_true,
            Bool.true_eq_false, or_self, ↓reduceIte]
          rfl
        | true =>
          simp only [usage, hblock, hobject, hpair, hleft, not_true_eq_false, Bool.not_true, Bool.false_eq_true,
            Bool.true_eq_false, or_self, ↓reduceIte]
          rfl
  · simp [usage, hblock]

theorem usage_removeEach (ids : List ObjectID) :
    (ObjectUsage.ObjectTracker.removeEach (ids.map fun id => (id, c)) o.usage).2 =
      (ids.foldl (fun o id => (o.removeBlockForObject id c).2) o).usage := by
  induction ids generalizing o with
  | nil => rfl
  | cons id ids ih =>
    rw [List.map_cons, ObjectUsage.ObjectTracker.removeEach, List.foldl_cons, ← ih, usage_removeBlockForObject]

end ObjectTracker

section ObjectController

def Sched.removeBlock (c : ClientID) (s : Sched) (id : ObjectID) : Sched :=
  let r := s.objectTracker.removeBlockForObject id c
  { s with
    objectTracker := r.2
    deletedObjectIds := if r.1 then s.deletedObjectIds ++ [id] else s.deletedObjectIds }

def onAddObject (c : ClientID) (id : ObjectID) (name : Bytes) : M Unit :=
  Coro.modify fun s => { s with objectTracker := s.objectTracker.addObject c id name }

def Sched.onDelObjects (s : Sched) (c : ClientID) (ids : List ObjectID) : Sched :=
  ids.foldl (Sched.removeBlock c) s

/-- `clean_client`: every block the client holds is removed. -/
def cleanClient (c : ClientID) : M Unit :=
  Coro.modify fun s =>
    (s.objectTracker.objectKeyToBlock.getLeftItems c).foldl (Sched.removeBlock c) s

def getObjectName (s : Sched) (id : ObjectID) : Bytes :=
  (s.objectTracker.objectKeyToObject.get? id).getD "<Unknown>".toUTF8.toList

/-- `ObjectID.generate_object_id`: a tag that was not used before. -/
def generateObjectId : M ObjectID :=
  Coro.act (fun s => { s with nextObject := s.nextObject + 1 }) fun s => Coro.ret ⟨s.nextObject⟩

end ObjectController

section PolicyController

def Sched.policyOp {α : Type} (s : Sched) (f : AllocatePolicy → Except Exn α × AllocatePolicy) :
    Except Exn α × Sched := ((f s.policy).1, { s with policy := (f s.policy).2 })

/-- `VanillaWorkerController.acquire_worker`. -/
def acquireWorker (task : Task) : M (Option WorkerID) :=
  syncNoting .policyFailed (·.policyOp fun p => p.assignTask task)

/-- `VanillaWorkerController.on_task_done`, a coroutine without awaits. -/
def onTaskDone (t : TaskID) : M Unit := do
  let _ ← syncNoting .policyFailed (·.policyOp fun p => p.removeTask t)

def getWorkerByTaskId (t : TaskID) : M (Option WorkerID) :=
  Coro.reads fun s => s.policy.getWorkerByTaskId t

end PolicyController

section Locks

def Sched.setLock (s : Sched) (uid : Nat) (l : Lock) : Sched :=
  { s with locks := Function.update s.locks uid l }

def Sched.enqueueWaiter (s : Sched) (uid : Nat) (i : Tid) : Sched :=
  s.setLock uid { s.locks uid with waiters := (s.locks uid).waiters ++ [i] }

def Sched.lockReady (uid : Nat) (i : Tid) (s : Sched) : Bool :=
  (s.locks uid).owner.isNone && (s.locks uid).waiters.head? = some i

def Sched.takeLock (s : Sched) (uid : Nat) (i : Tid) : Sched :=
  s.setLock uid ⟨some i, (s.locks uid).waiters.tail⟩

def Sched.leaveWaiters (s : Sched) (uid : Nat) (i : Tid) : Sched :=
  s.setLock uid { s.locks uid with waiters := (s.locks uid).waiters.erase i }

def Sched.releaseLock (s : Sched) (uid : Nat) : Sched :=
  s.setLock uid { s.locks uid with owner := none }

/-- `asyncio.Lock.acquire`, first come, first served, in `asyncio.wait_for`; the environment decides
whether the lock comes in time. -/
def lockAcquire (uid : Nat) : M Bool :=
  Coro.self fun i => do
    Coro.modify (·.enqueueWaiter uid i)
    Coro.choose fun
      | true => do
        Coro.await (.lock uid) (Sched.lockReady uid i) (Coro.ret ())
        Coro.modify (·.takeLock uid i)
        return true
      | false => do
        Coro.pause (.lock uid)
        Coro.modify (·.leaveWaiters uid i)
        return false

def lockRelease (uid : Nat) : M Unit := Coro.modify (·.releaseLock uid)

end Locks

end Scaler
