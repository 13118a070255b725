import Scaler.Scheduler.Steps

/-! What the controllers leave alone: the graph controller never touches what the task
controller works on, and the task controller never touches the graphs. -/

namespace Scaler

open Collections Coroutine

/-- The observations of the task controller, the state manager and the policy. -/
def Obs.isTask : Obs → Bool
  | .sent (.worker _) (.task _) _ | .registered _ _ _ | .refused _ | .policyFailed
  | .applied _ _ _ _ _ | .faulted _ | .timedOut _ | .removed _ _ _ | .workerRemoved _ _ _ | .drainFailed => true
  | _ => false

/-- What the task controller, the state manager and the policy work on. -/
structure TaskView where
  taskIdToStateMachine : Dict TaskID StateMachine
  statistics : TaskState → Int
  nextUid : Nat
  locks : Nat → Lock
  taskIdToTask : Dict TaskID Task
  unassigned : List TaskID
  policy : AllocatePolicy
  raised : List TaskEvent
  history : List Obs

/-- What the graph controller works on. -/
structure GraphView where
  graphQueue : List (ClientID × GraphTask)
  graphTaskIdToGraph : Dict TaskID Nat
  taskIdToGraphTaskId : Dict TaskID TaskID
  graphs : Nat → Graph
  nextGraph : Nat

/-- What the worker controller works on, beside the policy. -/
structure WorkerView where
  workerAliveSince : Dict WorkerID WorkerHeartbeat
  workerToManager : Dict WorkerID Bytes
  managerToWorkers : Dict Bytes (List WorkerID)
  connecting : List WorkerID

namespace Sched

def taskView (s : Sched) : TaskView :=
  ⟨s.taskIdToStateMachine, s.statistics, s.nextUid, s.locks, s.taskIdToTask, s.unassigned, s.policy,
    s.raised, s.trace.filter Obs.isTask⟩

def graphView (s : Sched) : GraphView :=
  ⟨s.graphQueue, s.graphTaskIdToGraph, s.taskIdToGraphTaskId, s.graphs, s.nextGraph⟩

def workerView (s : Sched) : WorkerView :=
  ⟨s.workerAliveSince, s.workerToManager, s.managerToWorkers, s.connecting⟩

/-- What the graph controller leaves alone. -/
def offGraph (s : Sched) : TaskView × WorkerView := (s.taskView, s.workerView)

/-- What the task controller leaves alone. -/
def offTask (s : Sched) : GraphView × WorkerView := (s.graphView, s.workerView)

section

variable (s : Sched)

theorem taskView_note {o : Obs} (ho : o.isTask = false) : (s.note o).taskView = s.taskView := by
  simp [taskView, note, ho]

@[simp] theorem offTask_note (o : Obs) : (s.note o).offTask = s.offTask := rfl

@[simp] theorem offGraph_setGraph (ref : Nat) (g : Graph) :
    (s.setGraph ref g).offGraph = s.offGraph := rfl

@[simp] theorem offGraph_onTaskBegin (c : ClientID) (t : TaskID) :
    (s.onTaskBegin c t).2.offGraph = s.offGraph := rfl

@[simp] theorem offTask_onTaskBegin (c : ClientID) (t : TaskID) :
    (s.onTaskBegin c t).2.offTask = s.offTask := rfl

@[simp] theorem offGraph_onTaskFinish (t : TaskID) : (s.onTaskFinish t).offGraph = s.offGraph := by
  unfold onTaskFinish
  split <;> rfl

@[simp] theorem offTask_onTaskFinish (t : TaskID) :
    (s.onTaskFinish t).offTask = s.offTask := by
  unfold onTaskFinish
  split <;> rfl

@[simp] theorem taskView_onTaskFinish (t : TaskID) : (s.onTaskFinish t).taskView = s.taskView :=
  congrArg Prod.fst (s.offGraph_onTaskFinish t)

@[simp] theorem policy_onTaskFinish (t : TaskID) : (s.onTaskFinish t).policy = s.policy :=
  congrArg TaskView.policy (s.taskView_onTaskFinish t)

@[simp] theorem trace_onTaskFinish (t : TaskID) : (s.onTaskFinish t).trace = s.trace := by
  unfold onTaskFinish
  split <;> rfl

/-- Removing blocks changes the object controller's state only. -/
theorem removeBlocks_eq (c : ClientID) (ids : List ObjectID) :
    ∃ tracker deleted, ids.foldl (Sched.removeBlock c) s =
      { s with objectTracker := tracker, deletedObjectIds := deleted } := by
  induction ids generalizing s with
  | nil => exact ⟨s.objectTracker, s.deletedObjectIds, rfl⟩
  | cons id ids ih =>
    obtain ⟨tracker, deleted, h⟩ := ih (s.removeBlock c id)
    exact ⟨tracker, deleted, by rw [List.foldl_cons, h]; rfl⟩

/-- So does deleting the results of a list of nodes. -/
theorem deleteResults_eq (c : ClientID) (ds : List (TaskID × List ObjectID)) :
    ∃ tracker deleted, ds.foldl (fun s d => s.onDelObjects c d.2) s =
      { s with objectTracker := tracker, deletedObjectIds := deleted } := by
  induction ds generalizing s with
  | nil => exact ⟨s.objectTracker, s.deletedObjectIds, rfl⟩
  | cons d ds ih =>
    obtain ⟨tracker, deleted, h⟩ := ih (s.onDelObjects c d.2)
    obtain ⟨tracker', deleted', h'⟩ := s.removeBlocks_eq c d.2
    refine ⟨tracker, deleted, ?_⟩
    rw [List.foldl_cons, h]
    unfold onDelObjects
    rw [h']

/-- `__mark_node_done` of a node of the graph `ref`. -/
theorem markNodeDone_eq {s : Sched} {r : TaskResult} {g : TaskID} {ref : Nat}
    (hg : s.taskIdToGraphTaskId.get? r.taskId = some g)
    (hr : s.graphTaskIdToGraph.get? g = some ref) :
    ∃ tracker deleted, s.markNodeDone r = (((s.graphs ref).markNodeDone r).1,
      { s.setGraph ref ((s.graphs ref).markNodeDone r).2.1 with
        taskIdToGraphTaskId := s.taskIdToGraphTaskId.erase r.taskId
        trace := .nodeDone g r (s.graphs ref).runningTaskIds (s.graphs ref).undispatched
          ((s.graphs ref).markNodeDone r).2.2
          (match ((s.graphs ref).markNodeDone r).1 with
            | .ok _ => none
            | .error e => some e) :: s.trace
        objectTracker := tracker
        deletedObjectIds := deleted }) := by
  obtain ⟨tracker, deleted, h⟩ := deleteResults_eq
    (Sched.setGraph _ ref _) _ ((s.graphs ref).markNodeDone r).2.2
  refine ⟨tracker, deleted, ?_⟩
  unfold markNodeDone
  simp only [hg, hr]
  rw [h]
  rfl

theorem offGraph_popGraph (g : TaskID) : (s.popGraph g).2.offGraph = s.offGraph := by
  unfold popGraph
  dsimp only
  split
  · exact s.offGraph_onTaskFinish g
  · split
    · exact s.offGraph_onTaskFinish g
    · exact s.offGraph_onTaskFinish g

theorem offGraph_markNodeDone (r : TaskResult) : (s.markNodeDone r).2.offGraph = s.offGraph := by
  unfold markNodeDone
  split
  · rfl
  · dsimp only
    split
    · rfl
    · obtain ⟨tracker, deleted, h⟩ := deleteResults_eq
        (Sched.setGraph _ _ _) _ ((s.graphs _).markNodeDone r).2.2
      rw [h]
      rfl

theorem offGraph_markNodeCanceled (g : TaskID) (ref : Nat) (c : TaskCancelConfirm) :
    (s.markNodeCanceled g ref c).2.offGraph = s.offGraph := rfl

theorem offGraph_submitNode (g : TaskID) (ref : Nat) (t : TaskID) :
    (s.submitNode g ref t).2.offGraph = s.offGraph := by
  unfold submitNode
  split
  · rfl
  · dsimp only
    split <;> rfl

theorem offGraph_sweep (g : TaskID) (ref : Nat) : (s.sweep g ref).2.offGraph = s.offGraph := by
  unfold sweep
  dsimp only
  split <;> rfl

@[simp] theorem policy_releaseLock (uid : Nat) : (s.releaseLock uid).policy = s.policy := rfl

@[simp] theorem taskView_noteHeartbeat (w : WorkerID) (info : WorkerHeartbeat) :
    (s.noteHeartbeat w info).taskView = s.taskView := by
  unfold noteHeartbeat
  dsimp only
  split <;> rfl

@[simp] theorem graphView_noteHeartbeat (w : WorkerID) (info : WorkerHeartbeat) :
    (s.noteHeartbeat w info).graphView = s.graphView := by
  unfold noteHeartbeat
  dsimp only
  split <;> rfl

@[simp] theorem policy_noteHeartbeat (w : WorkerID) (info : WorkerHeartbeat) :
    (s.noteHeartbeat w info).policy = s.policy :=
  congrArg TaskView.policy (s.taskView_noteHeartbeat w info)

@[simp] theorem taskView_removeWorkerFromManager (w : WorkerID) :
    (s.removeWorkerFromManager w).taskView = s.taskView := by
  unfold removeWorkerFromManager
  split
  · rfl
  · dsimp only
    split
    · rfl
    · split <;> rfl

@[simp] theorem policy_removeWorkerFromManager (w : WorkerID) :
    (s.removeWorkerFromManager w).policy = s.policy :=
  congrArg TaskView.policy (s.taskView_removeWorkerFromManager w)

end

end Sched

theorem PopStep.offGraph {g : TaskID} {m : Message} {s s' : Sched} {t : Multiset Tok}
    (h : PopStep g m s s' t) : s'.offGraph = s.offGraph := by
  cases h with
  | ok h => exact (congrArg (·.2.offGraph) h).symm.trans (s.offGraph_popGraph g)
  | sendFail h => exact (congrArg (·.2.offGraph) h).symm.trans (s.offGraph_popGraph g)
  | popFail h => exact (congrArg (·.2.offGraph) h).symm.trans (s.offGraph_popGraph g)

theorem CheckStep.offGraph {g : TaskID} {s s' : Sched} {t : Multiset Tok}
    (h : CheckStep g s s' t) : s'.offGraph = s.offGraph := by
  cases h with
  | done _ _ hp => exact hp.offGraph
  | ready => rfl

theorem VisitStep.offGraph {g : TaskID} {s s' : Sched} {t : Multiset Tok}
    (h : VisitStep g s s' t) : s'.offGraph = s.offGraph := by
  cases h with
  | pop _ hp => exact hp.offGraph
  | pass => rfl
  | accept => rfl

theorem AbortStep.offGraph {g : TaskID} {x : TaskResultType} {s s' : Sched} {t : Multiset Tok}
    (h : AbortStep g x s s' t) : s'.offGraph = s.offGraph := by
  cases h with
  | pop _ hp => exact hp.offGraph
  | abort => rfl

theorem GraphStep.offGraph {i : Tid} {s s' : Sched} {t t' : Multiset Tok}
    (h : GraphStep i s t s' t') : s'.offGraph = s.offGraph := by
  cases h with
  | queueGraph => rfl
  | takeGraph => rfl
  | refuseGraph => rfl
  | beginGraph h => exact congrArg (·.2.offGraph) h.symm
  | addNode => rfl
  | rejectGraph => rfl
  | registerGraph _ hc => exact hc.offGraph
  | submit h => exact (congrArg (·.2.offGraph) h).symm.trans (s.offGraph_submitNode _ _ _)
  | submitted => rfl
  | submitFail h => exact (congrArg (·.2.offGraph) h).symm.trans (s.offGraph_submitNode _ _ _)
  | loseBatch => rfl
  | loseRefused => rfl
  | giveUp => rfl
  | nodeDone _ _ _ _ h _ hc hx =>
    have hm := (congrArg (·.2.offGraph) h).symm.trans (s.offGraph_markNodeDone _)
    rcases Classical.em _ with hs | hs
    · exact (hc hs).offGraph.trans hm
    · exact (hx hs).offGraph.trans hm
  | nodeDoneFail _ h => exact (congrArg (·.2.offGraph) h).symm.trans (s.offGraph_markNodeDone _)
  | nodeCanceled _ _ _ h hv =>
    exact hv.offGraph.trans
      ((congrArg (·.2.offGraph) h).symm.trans (s.offGraph_markNodeCanceled _ _ _))
  | nodeCanceledFail _ _ _ h =>
    exact (congrArg (·.2.offGraph) h).symm.trans (s.offGraph_markNodeCanceled _ _ _)
  | stranger => rfl
  | notFound => rfl
  | visit _ hv => exact hv.offGraph
  | sweep h => exact (congrArg (·.2.offGraph) h).symm.trans (s.offGraph_sweep _ _)
  | sweepFail h => exact (congrArg (·.2.offGraph) h).symm.trans (s.offGraph_sweep _ _)
  | sweptEnd => rfl
  | sweptPop _ hp => exact hp.offGraph
  | retire _ _ h => exact (congrArg (·.2.offGraph) h).symm.trans (s.offGraph_markNodeDone _)
  | abortReady => rfl
  | abortedEnd => rfl
  | abortedPop _ hp => exact hp.offGraph
  | address => rfl
  | send => rfl
  | sendFail => rfl
  | lose => rfl

/-- The graph controller never touches what the task controller works on. -/
theorem GraphStep.taskView {i : Tid} {s s' : Sched} {t t' : Multiset Tok}
    (h : GraphStep i s t s' t') : s'.taskView = s.taskView := congrArg Prod.fst h.offGraph

theorem GraphStep.workerView {i : Tid} {s s' : Sched} {t t' : Multiset Tok}
    (h : GraphStep i s t s' t') : s'.workerView = s.workerView := congrArg Prod.snd h.offGraph

namespace Sched

section

variable (s : Sched) (t : TaskID)

@[simp] theorem offTask_commit (x : TaskState) : (s.commit t x).offTask = s.offTask := by
  unfold commit
  split
  · rfl
  · split <;> rfl

@[simp] theorem offTask_removeStateMachine :
    (s.removeStateMachine t).offTask = s.offTask := by
  unfold removeStateMachine
  split <;> rfl

@[simp] theorem offTask_popTask : (s.popTask t).offTask = s.offTask := rfl

@[simp] theorem offTask_settle (x : TaskState) : (s.settle t x).offTask = s.offTask := by
  unfold settle
  split <;> simp

@[simp] theorem offTask_tearDown : (s.tearDown t).offTask = s.offTask := by
  change (((s.commit t .failed).removeStateMachine t).popTask t).offTask = s.offTask
  simp

@[simp] theorem nextUid_commit (x : TaskState) : (s.commit t x).nextUid = s.nextUid := by
  unfold commit
  split
  · rfl
  · split <;> rfl

@[simp] theorem nextUid_removeStateMachine : (s.removeStateMachine t).nextUid = s.nextUid := by
  unfold removeStateMachine
  split <;> rfl

@[simp] theorem nextUid_settle (x : TaskState) : (s.settle t x).nextUid = s.nextUid := by
  unfold settle
  split <;> simp [popTask]

@[simp] theorem nextUid_tearDown : (s.tearDown t).nextUid = s.nextUid := by
  simp [tearDown, popTask]

@[simp] theorem locks_commit (x : TaskState) : (s.commit t x).locks = s.locks := by
  unfold commit
  split
  · rfl
  · split <;> rfl

@[simp] theorem locks_removeStateMachine : (s.removeStateMachine t).locks = s.locks := by
  unfold removeStateMachine
  split <;> rfl

@[simp] theorem locks_settle (x : TaskState) : (s.settle t x).locks = s.locks := by
  unfold settle
  split <;> simp [popTask]

@[simp] theorem locks_tearDown : (s.tearDown t).locks = s.locks := by
  simp [tearDown, popTask]

@[simp] theorem unassigned_commit (x : TaskState) : (s.commit t x).unassigned = s.unassigned := by
  unfold commit
  split
  · rfl
  · split <;> rfl

@[simp] theorem unassigned_removeStateMachine : (s.removeStateMachine t).unassigned = s.unassigned := by
  unfold removeStateMachine
  split <;> rfl

@[simp] theorem unassigned_settle (x : TaskState) : (s.settle t x).unassigned = s.unassigned := by
  unfold settle
  split <;> simp [popTask]

@[simp] theorem unassigned_tearDown : (s.tearDown t).unassigned = s.unassigned.erase t := by
  simp [tearDown, popTask]

@[simp] theorem policy_commit (x : TaskState) : (s.commit t x).policy = s.policy := by
  unfold commit
  split
  · rfl
  · split <;> rfl

@[simp] theorem policy_removeStateMachine : (s.removeStateMachine t).policy = s.policy := by
  unfold removeStateMachine
  split <;> rfl

@[simp] theorem policy_settle (x : TaskState) : (s.settle t x).policy = s.policy := by
  unfold settle
  split <;> simp [popTask]

@[simp] theorem policy_tearDown : (s.tearDown t).policy = s.policy := by
  simp [tearDown, popTask]

@[simp] theorem clientToTaskIds_commit (x : TaskState) : (s.commit t x).clientToTaskIds = s.clientToTaskIds := by
  unfold commit
  split
  · rfl
  · split <;> rfl

@[simp] theorem clientToTaskIds_removeStateMachine : (s.removeStateMachine t).clientToTaskIds = s.clientToTaskIds := by
  unfold removeStateMachine
  split <;> rfl

@[simp] theorem clientToTaskIds_settle (x : TaskState) : (s.settle t x).clientToTaskIds = s.clientToTaskIds := by
  unfold settle
  split <;> simp [popTask]

@[simp] theorem clientToTaskIds_tearDown : (s.tearDown t).clientToTaskIds = s.clientToTaskIds := by
  simp [tearDown, popTask]

@[simp] theorem raised_commit (x : TaskState) : (s.commit t x).raised = s.raised := by
  unfold commit
  split
  · rfl
  · split <;> rfl

@[simp] theorem raised_removeStateMachine : (s.removeStateMachine t).raised = s.raised := by
  unfold removeStateMachine
  split <;> rfl

@[simp] theorem raised_settle (x : TaskState) : (s.settle t x).raised = s.raised := by
  unfold settle
  split <;> simp [popTask]

@[simp] theorem raised_tearDown : (s.tearDown t).raised = s.raised := by
  simp [tearDown, popTask]

end

end Sched

theorem TaskStep.offTask {i : Tid} {s s' : Sched} {t t' : Multiset Tok}
    (h : TaskStep i s t s' t') : s'.offTask = s.offTask := by
  cases h with
  | finish => exact s.offTask_onTaskFinish _
  | popOwner => exact s.offTask_onTaskFinish _
  | settle => exact s.offTask_settle _ _
  | tearDown => exact s.offTask_tearDown _
  | _ => rfl

/-- The task controller never touches the graphs. -/
theorem TaskStep.graphView {i : Tid} {s s' : Sched} {t t' : Multiset Tok}
    (h : TaskStep i s t s' t') : s'.graphView = s.graphView := congrArg Prod.fst h.offTask

theorem TaskStep.workerView {i : Tid} {s s' : Sched} {t t' : Multiset Tok}
    (h : TaskStep i s t s' t') : s'.workerView = s.workerView := congrArg Prod.snd h.offTask

end Scaler
