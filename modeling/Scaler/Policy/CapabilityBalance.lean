import Mathlib.Algebra.Order.Field.Rat
import Mathlib.Data.Rat.Cast.Defs
import Scaler.Collections.SortedKeyList
import Scaler.Policy.Capability

/-! `CapabilityAllocatePolicy.balance`: tasks are taken from workers above the target and given to
workers below it, on copies of the workers. Averages are exact. -/

namespace Scaler

open Collections

namespace CapabilityAllocatePolicy

/-- `_TaskHolder`. -/
abbrev TaskHolder := TaskID × List String

/-- A task that the loop takes from one worker and gives to another one. -/
structure BalanceMove where
  donor : WorkerID
  task : TaskHolder
  receiver : WorkerID
  deriving DecidableEq, Repr

inductive BalanceFailure where
  | indexError
  | keyError
  | assertionError
  deriving DecidableEq, Repr

/-- The local variables of `balance`. `moves` is what the loop has done so far, oldest first;
nothing reads it. -/
structure BalanceState where
  sortedWorkers : List WorkerHolder
  balancingAdvice : Dict WorkerID (List TaskID)
  unbalanceableTasks : List TaskID
  moves : List BalanceMove

/-- What the loop over the tasks of the most loaded worker leaves in its variables. -/
structure Search where
  receivingWorker : Option WorkerHolder
  movedTask : Option TaskHolder
  sortedWorkers : List WorkerHolder
  unbalanceableTasks : List TaskID

end CapabilityAllocatePolicy

def WorkerHolder.dropTask (w : WorkerHolder) (t : TaskID) : WorkerHolder :=
  { w with taskIdToTask := w.taskIdToTask.erase t }

def WorkerHolder.addTask (w : WorkerHolder) (task : CapabilityAllocatePolicy.TaskHolder) : WorkerHolder :=
  { w with taskIdToTask := w.taskIdToTask.set task.1 task.2 }

namespace CapabilityAllocatePolicy

section

variable (target : ℚ)

def isBalanced (w : WorkerHolder) : Bool := |(w.nTasks : ℚ) - target| < 1

def isHighLoad (w : WorkerHolder) : Bool := 1 ≤ (w.nTasks : ℚ) - target

/-- `__balance_try_reassign_task`: the index of the first worker that can accept the task. -/
def balanceTryReassignTask (task : TaskHolder) (workerCandidates : List WorkerHolder) : Option Nat :=
  workerCandidates.findIdx? fun w => task.2.all (· ∈ w.capabilities)

/-- The loop over the tasks, youngest first; a task that nobody accepts is remembered. -/
def search (workers : List WorkerHolder) : List TaskHolder → List TaskID → Except BalanceFailure Search
  | [], unbalanceable => .ok ⟨none, none, workers, unbalanceable⟩
  | task :: tasks, unbalanceable =>
    if task.1 ∈ unbalanceable then search workers tasks unbalanceable
    else
      match balanceTryReassignTask task (workers.takeWhile fun w => (w.nTasks : ℚ) < target) with
      | none => search workers tasks (task.1 :: unbalanceable)
      | some index =>
        match workers[index]? with
        | none => .error .indexError
        | some receiver => .ok ⟨some receiver, some task, workers.eraseIdx index, unbalanceable⟩

variable (lists : SortedKeyList WorkerHolder WorkerHolder.nTasks)

/-- A worker that can be balanced more goes back into the list. -/
def reinsert (w : WorkerHolder) (workers : List WorkerHolder) : List WorkerHolder :=
  if isBalanced target w then workers else lists.add w workers

/-- The task changes hands. -/
def BalanceState.move (st : BalanceState) (donor : WorkerHolder) (task : TaskHolder) (receiver : WorkerHolder) :
    BalanceState :=
  { st with
    sortedWorkers :=
      reinsert target lists (receiver.addTask task) (reinsert target lists (donor.dropTask task.1) st.sortedWorkers)
    balancingAdvice :=
      st.balancingAdvice.set donor.workerId ((st.balancingAdvice.get? donor.workerId).getD [] ++ [task.1])
    moves := st.moves ++ [⟨donor.workerId, task, receiver.workerId⟩] }

/-- One round of the loop, and whether the loop goes on after it. -/
def balanceRound (st : BalanceState) : Except BalanceFailure (BalanceState × Bool) :=
  match st.sortedWorkers.getLast? with
  | none => .error .indexError
  | some mostLoaded =>
    let workers := st.sortedWorkers.dropLast
    if isHighLoad target mostLoaded = false then .ok ({ st with sortedWorkers := workers }, false)
    else do
      let found ← search target workers mostLoaded.taskIdToTask.entries.reverse st.unbalanceableTasks
      let st := { st with sortedWorkers := found.sortedWorkers, unbalanceableTasks := found.unbalanceableTasks }
      match found.movedTask with
      | none => .ok (st, true)
      | some task =>
        match found.receivingWorker with
        | none => .error .assertionError
        | some receiver =>
          if mostLoaded.taskIdToTask.contains task.1 then .ok (st.move target lists mostLoaded task receiver, true)
          else .error .keyError

/-- `while len(sorted_workers) >= 2`, for less than `n` rounds. -/
def balanceLoop : Nat → BalanceState → Option (Except BalanceFailure BalanceState)
  | 0, _ => none
  | n + 1, st =>
    if st.sortedWorkers.length < 2 then some (.ok st)
    else
      match balanceRound target lists st with
      | .error e => some (.error e)
      | .ok (st, true) => balanceLoop n st
      | .ok (st, false) => some (.ok st)

end

def workers (p : CapabilityAllocatePolicy) : List WorkerHolder := p.workerIdToWorker.entries.map Prod.snd

def hasIdleWorkers (p : CapabilityAllocatePolicy) : Bool := p.workers.any fun w => w.nTasks = 0

def avgTasksPerWorker (p : CapabilityAllocatePolicy) : ℚ := (p.workers.map WorkerHolder.nTasks).sum / p.workers.length

def balanceTarget (p : CapabilityAllocatePolicy) : ℚ := max p.avgTasksPerWorker 1

/-- The state before the first round. -/
def balanceStart (p : CapabilityAllocatePolicy) (lists : SortedKeyList WorkerHolder WorkerHolder.nTasks) : BalanceState :=
  ⟨lists.ofList (p.workers.filter fun w => !isBalanced p.balanceTarget w), Dict.empty, [], []⟩

/-- The state in which `balance` returns. -/
def balanceRun (p : CapabilityAllocatePolicy) (lists : SortedKeyList WorkerHolder WorkerHolder.nTasks) (n : Nat) :
    Option (Except BalanceFailure BalanceState) :=
  if p.hasIdleWorkers then balanceLoop p.balanceTarget lists n (p.balanceStart lists)
  else some (.ok ⟨[], Dict.empty, [], []⟩)

def balance (p : CapabilityAllocatePolicy) (lists : SortedKeyList WorkerHolder WorkerHolder.nTasks) (n : Nat) :
    Option (Except BalanceFailure (Dict WorkerID (List TaskID)) × CapabilityAllocatePolicy) :=
  (p.balanceRun lists n).map fun r => (r.map BalanceState.balancingAdvice, p)

/-- The worker under this identifier is changed, if there is one. -/
def onWorker (workers : Dict WorkerID WorkerHolder) (w : WorkerID) (f : WorkerHolder → WorkerHolder) :
    Dict WorkerID WorkerHolder :=
  match workers.get? w with
  | none => workers
  | some holder => workers.set w (f holder)

def applyMove (workers : Dict WorkerID WorkerHolder) (m : BalanceMove) : Dict WorkerID WorkerHolder :=
  onWorker (onWorker workers m.donor (·.dropTask m.task.1)) m.receiver (·.addTask m.task)

/-- The workers of the policy once the moves have been made. -/
def afterMoves (p : CapabilityAllocatePolicy) (moves : List BalanceMove) : Dict WorkerID WorkerHolder :=
  moves.foldl applyMove p.workerIdToWorker

def loadAfter (p : CapabilityAllocatePolicy) (moves : List BalanceMove) (w : WorkerID) : Nat :=
  (((p.afterMoves moves).get? w).map WorkerHolder.nTasks).getD 0

end CapabilityAllocatePolicy

end Scaler
