import Scaler.Scheduler.Services

/-! `VanillaGraphTaskController`. A graph keeps its identity while coroutines hold
on to it, also after the id map forgot it. -/

namespace Scaler

open Collections Coroutine

/-- The tasks a task names among its arguments, each once. -/
def Task.requiredTaskIds (t : Task) : List TaskID :=
  (t.functionArgs.filterMap fun
    | .task id => some id
    | .objectID _ => none).dedup

namespace Graph

def setInfo (g : Graph) (t : TaskID) (f : TaskInfo → TaskInfo) : Graph :=
  match g.tasks.get? t with
  | none => g
  | some info => { g with tasks := g.tasks.set t (f info) }

/-- The nodes the sorter handed out that are not submitted yet. -/
def undispatched (g : Graph) : List TaskID :=
  g.sorter.visited.filter fun t =>
    t ∉ g.sorter.readyNodes.getD [] ∧ (g.tasks.get? t).any (·.state = .inactive)

/-- The nodes that become ready when `t` is done. -/
def unlocks (g : Graph) (t : TaskID) : List TaskID :=
  { g.sorter with doneKeys := t :: g.sorter.doneKeys }.getZeroDegreeKeys

/-- The sorter handed out `t` and waits for it. -/
def isUnsettled (g : Graph) (t : TaskID) : Bool :=
  t ∈ g.sorter.visited ∧ t ∉ g.sorter.doneKeys

def isFinished (g : Graph) : Bool := !g.sorter.isActive && g.runningTaskIds.isEmpty

/-- The state a cancel confirm gives to its node. -/
def setCanceled (g : Graph) (c : TaskCancelConfirm) : Graph :=
  match c.cancelConfirmType with
  | .canceled => g.setInfo c.taskId ({ · with state := .canceled })
  | .cancelFailed => g
  | .cancelNotFound => g.setInfo c.taskId ({ · with state := .canceled })

/-- `__mark_node_canceled`. -/
def markNodeCanceled (g : Graph) (c : TaskCancelConfirm) : Except Exn Unit × Graph :=
  if !g.tasks.contains c.taskId then (.ok (), g)
  else
    match g.sorter.done [c.taskId] with
    | (.error e, sorter) => (.error e, { g.setCanceled c with sorter := sorter })
    | (.ok _, sorter) =>
      (.ok (), { g.setCanceled c with
        sorter := sorter
        runningTaskIds := g.runningTaskIds.erase c.taskId })

def markAllCanceled : List TaskID → Graph → Except Exn Unit × Graph
  | [], g => (.ok (), g)
  | t :: ts, g =>
    match g.markNodeCanceled ⟨t, .canceled⟩ with
    | (.error e, g') => (.error e, g')
    | (.ok _, g') => markAllCanceled ts g'

/-- The loop of `__cancel_whole_graph` over the inactive nodes: what is ready is
marked canceled, which makes more nodes ready. Every round finishes a node, so
the number of nodes bounds the rounds. -/
def cancelInactive : Nat → Graph → Except Exn (List TaskCancelConfirm) × Graph
  | 0, g => (.ok [], g)
  | n + 1, g =>
    if !g.sorter.isActive then (.ok [], g)
    else
      match g.sorter.getReady with
      | (.error e, sorter) => (.error e, { g with sorter := sorter })
      | (.ok ready, sorter) =>
        if ready = [] then (.ok [], { g with sorter := sorter })
        else
          match markAllCanceled ready { g with sorter := sorter } with
          | (.error e, g') => (.error e, g')
          | (.ok _, g') =>
            let r := cancelInactive n g'
            (r.1.map (ready.map (fun t => ⟨t, .canceled⟩) ++ ·), r.2)

/-- `__clean_intermediate_result` for the dependencies `ds` of `t`: the dependencies
whose results it deletes, in order, also when a removal raises. -/
def cleanIntermediateResult (t : TaskID) :
    List TaskID → Graph → Except Exn Unit × Graph × List (TaskID × List ObjectID)
  | [], g => (.ok (), g, [])
  | d :: ds, g =>
    match g.dependedTaskIdToTaskId.remove d t with
    | (.error e, deps) => (.error e, { g with dependedTaskIdToTaskId := deps }, [])
    | (.ok _, deps) =>
      let g := { g with dependedTaskIdToTaskId := deps }
      if deps.hasLeftKey d then cleanIntermediateResult t ds g
      else if d ∈ g.targetTaskIds then cleanIntermediateResult t ds g
      else
        match g.tasks.get? d with
        | none => (.error .keyError, g, [])
        | some info =>
          let r := cleanIntermediateResult t ds g
          (r.1, r.2.1, (d, info.resultObjectIds.dedup) :: r.2.2)

/-- The state a result gives to its node. -/
def nodeTaskState : TaskResultType → NodeTaskState
  | .success => .success
  | .failed => .failed
  | .failedWorkerDied => .failed

/-- The part of `__mark_node_done` that works on the graph. -/
def markNodeDone (g : Graph) (r : TaskResult) :
    Except Exn Unit × Graph × List (TaskID × List ObjectID) :=
  match g.tasks.get? r.taskId with
  | none => (.error .keyError, g, [])
  | some info =>
    let g := g.setInfo r.taskId
      ({ · with resultObjectIds := r.results, state := nodeTaskState r.resultType })
    match g.cleanIntermediateResult r.taskId info.task.requiredTaskIds with
    | (.error e, g, deleted) => (.error e, g, deleted)
    | (.ok _, g, deleted) =>
      match g.sorter.done [r.taskId] with
      | (.error e, sorter) => (.error e, { g with sorter := sorter }, deleted)
      | (.ok _, sorter) =>
        (.ok (), { g with
          sorter := sorter
          runningTaskIds := g.runningTaskIds.erase r.taskId }, deleted)

/-- `__get_argument_object` for every argument, in order; `g` is what the id map has
for the graph, and only a task argument looks it up. -/
def argumentObjects (g : Option Graph) : List Argument → Except Exn (List Argument)
  | [] => .ok []
  | .objectID id :: as => (argumentObjects g as).map (.objectID id :: ·)
  | .task t :: as =>
    match g.bind fun g => g.tasks.get? t with
    | none => .error .keyError
    | some info =>
      match info.resultObjectIds with
      | [id] => (argumentObjects g as).map (.objectID id :: ·)
      | _ => .error .assertionError

end Graph

namespace Sched

def graph? (s : Sched) (g : TaskID) : Option Graph := (s.graphTaskIdToGraph.get? g).map s.graphs

def setGraph (s : Sched) (ref : Nat) (g : Graph) : Sched :=
  { s with graphs := Function.update s.graphs ref g }

/-- `__graph_for_subtask`. -/
def graphForSubtask (s : Sched) (t : TaskID) : Option Graph :=
  (s.taskIdToGraphTaskId.get? t).bind s.graph?

def isGraphSubtask (s : Sched) (t : TaskID) : Bool := s.taskIdToGraphTaskId.contains t

/-- `__is_graph_finished`. -/
def isGraphFinished (s : Sched) (g : TaskID) : Bool :=
  match s.graph? g with
  | none => true
  | some graph => graph.isFinished

/-- `__mark_node_done`: the id leaves the map before anything else can raise. -/
def markNodeDone (s : Sched) (r : TaskResult) : Except Exn Unit × Sched :=
  match s.taskIdToGraphTaskId.get? r.taskId with
  | none => (.error .keyError, s.note (.nodeMissing r.taskId))
  | some g =>
    let s := { s with taskIdToGraphTaskId := s.taskIdToGraphTaskId.erase r.taskId }
    match s.graphTaskIdToGraph.get? g with
    | none => (.error .keyError, s.note (.nodeMissing r.taskId))
    | some ref =>
      let graph := s.graphs ref
      let m := graph.markNodeDone r
      let s := { s with
        trace := .nodeDone g r graph.runningTaskIds graph.undispatched m.2.2
          (match m.1 with
            | .ok _ => none
            | .error e => some e) :: s.trace }
      (m.1, m.2.2.foldl (fun s d => s.onDelObjects graph.client d.2) (s.setGraph ref m.2.1))

/-- `__mark_node_canceled` on the graph that the id map has. -/
def markNodeCanceled (s : Sched) (g : TaskID) (ref : Nat) (c : TaskCancelConfirm) :
    Except Exn Unit × Sched :=
  let graph := s.graphs ref
  let m := graph.markNodeCanceled c
  (m.1,
    { s.setGraph ref m.2 with
      trace := .nodeCanceled g c.taskId (graph.unlocks c.taskId) (graph.isUnsettled c.taskId) ::
        s.trace })

/-- `__pop_graph`. -/
def popGraph (s : Sched) (g : TaskID) : Except Exn Graph × Sched :=
  let s := s.onTaskFinish g
  if !s.taskIdToGraphTaskId.contains g then (.error .keyError, s)
  else
    let s := { s with taskIdToGraphTaskId := s.taskIdToGraphTaskId.erase g }
    match s.graph? g with
    | none => (.error .keyError, s)
    | some graph =>
      (.ok graph,
        { s with
          graphTaskIdToGraph := s.graphTaskIdToGraph.erase g
          taskIdToGraphTaskId := graph.tasks.keys.foldl Dict.erase s.taskIdToGraphTaskId })

/-- One turn of the loop in `__check_one_graph` up to `on_task_new`: the task to submit. -/
def submitNode (s : Sched) (g : TaskID) (ref : Nat) (t : TaskID) : Except Exn Task × Sched :=
  match (s.graphs ref).tasks.get? t with
  | none => (.error .keyError, s)
  | some info =>
    let s := s.setGraph ref { (s.graphs ref).setInfo t ({ · with state := .running }) with
      runningTaskIds := (s.graphs ref).runningTaskIds.insert t }
    match Graph.argumentObjects (s.graph? g) info.task.functionArgs with
    | .error e => (.error e, s)
    | .ok args =>
      let task := { info.task with functionArgs := args }
      (.ok task, s.note (.submitted g task))

/-- The guard of `__cancel_whole_graph` is passed. -/
def acceptCancel (s : Sched) (g : TaskID) (ref : Nat) : Sched :=
  { s.setGraph ref { s.graphs ref with status := .canceling } with
    trace := .graphCanceling g (s.graphs ref).runningTaskIds (s.graphs ref).undispatched :: s.trace }

/-- The loop of `__cancel_whole_graph` over the inactive nodes. -/
def sweep (s : Sched) (g : TaskID) (ref : Nat) : Except Exn (List TaskCancelConfirm) × Sched :=
  let r := (s.graphs ref).cancelInactive ((s.graphs ref).sorter.keys.length + 1)
  (r.1,
    { s.setGraph ref r.2 with
      trace := (match r.1 with
        | .ok _ => .graphSwept g
        | .error _ => .sweepFailed g) :: s.trace })

end Sched

section

def withGraph {α : Type} (ref : Nat) (f : Graph → Except Exn α × Graph) : M α :=
  Coro.sync fun s => ((f (s.graphs ref)).1, s.setGraph ref (f (s.graphs ref)).2)

def getReady (ref : Nat) : M (List TaskID) :=
  withGraph ref fun graph =>
    (graph.sorter.getReady.1, { graph with sorter := graph.sorter.getReady.2 })

def cancelGraphUmbrellaTask (g : TaskID) : M Unit := do
  if !(← Coro.reads (·.isGraphFinished g)) then return
  let info ← syncNoting (.popFailed g) (·.popGraph g)
  binderSend (.client info.client) (.taskCancelConfirm ⟨g, .canceled⟩)

def doneGraphUmbrellaTask (g : TaskID) (resultType : TaskResultType) : M Unit := do
  let info ← syncNoting (.popFailed g) (·.popGraph g)
  binderSend (.client info.client) (.taskResult ⟨g, resultType, [], []⟩)

def submitNode (g : TaskID) (ref : Nat) (t : TaskID) : M Unit := do
  let task ← syncNoting (.submitFailed g t) (·.submitNode g ref t)
  Coro.run (.onTaskNew task)

def checkOneGraph (g : TaskID) : M Unit := do
  let ref ← index fun s => s.graphTaskIdToGraph.get? g
  if !(← Coro.reads fun s => (s.graphs ref).sorter.isActive) then
    doneGraphUmbrellaTask g .success
  else
    let ready ← getReady ref
    Coro.forEach ready (submitNode g ref)

def cancelWholeGraph (g : TaskID) : M Unit := do
  if ← Coro.reads (·.isGraphFinished g) then
    cancelGraphUmbrellaTask g
  else
    let ref ← index fun s => s.graphTaskIdToGraph.get? g
    let graph ← Coro.reads fun s => s.graphs ref
    if graph.status ≠ .running then return
    Coro.modify (·.acceptCancel g ref)
    Coro.gatherAll (graph.runningTaskIds.map fun t => .onTaskCancel graph.client ⟨t, true⟩)
    let confirms ← Coro.sync (·.sweep g ref)
    let client ← Coro.reads fun s => (s.graphs ref).client
    Coro.gatherAll (confirms.map fun c => .binderSend client (.taskCancelConfirm c))
    if ← Coro.reads (·.isGraphFinished g) then
      cancelGraphUmbrellaTask g

def onGraphTaskCancel (cancel : TaskCancel) : M Unit := do
  match ← Coro.reads fun s => s.taskIdToGraphTaskId.get? cancel.taskId with
  | none => return
  | some g =>
    if !(← Coro.reads fun s => s.graphTaskIdToGraph.contains g) then return
    cancelWholeGraph g

def onGraphSubTaskCancelConfirm (c : TaskCancelConfirm) : M Unit := do
  if (← Coro.reads (·.graphForSubtask c.taskId)).isNone then return
  let g ← index fun s => s.taskIdToGraphTaskId.get? c.taskId
  let ref ← index fun s => s.graphTaskIdToGraph.get? g
  Coro.sync (·.markNodeCanceled g ref c)
  cancelWholeGraph g

/-- `__duplicate_objects`: a fresh id for each object, all requests at once. -/
def duplicateObjects (owner : ClientID) :
    List (ObjectID × Bytes) → List ObjectID → List Proc → M (List ObjectID)
  | [], ids, ps => do
    Coro.gatherAll ps
    return ids
  | (id, name) :: objects, ids, ps => do
    let new ← generateObjectId
    duplicateObjects owner objects (ids ++ [new]) (ps ++ [.duplicateObject owner id name new])

def duplicateObject (owner : ClientID) (name : Bytes) (new : ObjectID) : M Unit := do
  storageRequest
  onAddObject owner new name

/-- Retires one node of an aborted graph with a copy of the failed result. -/
def abortNode (client : ClientID) (r : TaskResult) (objects : List (ObjectID × Bytes))
    (t : TaskID) : M TaskResult := do
  let ids ← duplicateObjects client objects [] []
  let r := { r with taskId := t, results := ids }
  Coro.sync (·.markNodeDone r)
  return r

def abortNodes (client : ClientID) (objects : List (ObjectID × Bytes)) :
    List TaskID → TaskResult → List TaskResult → M (TaskResult × List TaskResult)
  | [], r, results => return (r, results)
  | t :: ts, r, results => do
    let r ← abortNode client r objects t
    abortNodes client objects ts r (results ++ [r])

def finishAbort (g : TaskID) (client : ClientID) (r : TaskResult) (results : List TaskResult) :
    M Unit := do
  Coro.gatherAll (results.map fun r => .binderSend client (.taskResult r))
  if ← Coro.reads (·.isGraphFinished g) then
    doneGraphUmbrellaTask g r.resultType

/-- The loop of `__abort_whole_graph` over the inactive nodes, and what follows it. -/
def abortInactive (g : TaskID) (ref : Nat) (r : TaskResult) (objects : List (ObjectID × Bytes))
    (results : List TaskResult) : M Unit := do
  let graph ← Coro.reads fun s => s.graphs ref
  if !graph.sorter.isActive then
    finishAbort g graph.client r results
  else
    let ready ← getReady ref
    if ready = [] then
      finishAbort g graph.client r results
    else
      let (r, results) ← abortNodes graph.client objects ready r results
      Coro.run (.abortInactive g ref r objects results)

def abortWholeGraph (g : TaskID) (r : TaskResult) : M Unit := do
  if ← Coro.reads (·.isGraphFinished g) then
    doneGraphUmbrellaTask g r.resultType
  else
    let ref ← index fun s => s.graphTaskIdToGraph.get? g
    let graph ← Coro.reads fun s => s.graphs ref
    Coro.modify fun s => s.setGraph ref { s.graphs ref with status := .aborting }
    let objects ← Coro.reads fun s => r.results.map fun id => (id, getObjectName s id)
    let (r, results) ← abortNodes graph.client objects graph.runningTaskIds r []
    Coro.run (.abortInactive g ref r objects results)

def onGraphSubTaskResult (r : TaskResult) : M Unit := do
  match ← Coro.reads (·.graphForSubtask r.taskId) with
  | none => return
  | some graph =>
    let g ← index fun s => s.taskIdToGraphTaskId.get? r.taskId
    if graph.status = .canceling then
      onGraphSubTaskCancelConfirm ⟨r.taskId, .canceled⟩
    else
      Coro.sync (·.markNodeDone r)
      if r.resultType = .success then
        checkOneGraph g
      else
        abortWholeGraph g r

/-- The local variables of `__add_new_graph`. -/
structure NewGraph where
  graph : Dict TaskID (List TaskID)
  tasks : Dict TaskID TaskInfo
  depended : ManyToManyDict TaskID TaskID

def NewGraph.addTask (n : NewGraph) (task : Task) : NewGraph :=
  { graph := n.graph.set task.taskId task.requiredTaskIds
    tasks := n.tasks.set task.taskId ⟨.inactive, task, []⟩
    depended := task.requiredTaskIds.foldl (fun d r => d.add r task.taskId) n.depended }

def NewGraph.ofTasks (tasks : List Task) : NewGraph :=
  tasks.foldl NewGraph.addTask ⟨Dict.empty, Dict.empty, .empty⟩

def Graph.ofTasks (client : ClientID) (gt : GraphTask) (sorter : TopologicalSorter TaskID) : Graph :=
  ⟨gt.targets, sorter, (NewGraph.ofTasks gt.graph).tasks, (NewGraph.ofTasks gt.graph).depended,
    client, .running, []⟩

def addNodes (g : TaskID) : List Task → NewGraph → M NewGraph
  | [], n => return n
  | task :: tasks, n => do
    Coro.modify fun s =>
      { s with taskIdToGraphTaskId := s.taskIdToGraphTaskId.set task.taskId g }
    monitorSend
    addNodes g tasks (n.addTask task)

/-- `TopologicalSorter(graph)` and its `prepare()`. -/
def NewGraph.prepare (n : NewGraph) : Except Exn (TopologicalSorter TaskID) :=
  let sorter := (TopologicalSorter.empty.mergeGraph n.graph.entries).2
  match sorter.prepare with
  | (.error e, _) => .error e
  | (.ok _, sorter) => .ok sorter

def Sched.registerGraph (s : Sched) (g : TaskID) (graph : Graph) : Sched :=
  { s.setGraph s.nextGraph graph with
    graphTaskIdToGraph := s.graphTaskIdToGraph.set g s.nextGraph
    nextGraph := s.nextGraph + 1
    trace := .graphRegistered g s.nextGraph :: s.trace }

def addNewGraph (client : ClientID) (gt : GraphTask) : M Unit := do
  syncNoting (.graphRefused gt.taskId) (·.onTaskBegin client gt.taskId)
  Coro.modify fun s =>
    { s with taskIdToGraphTaskId := s.taskIdToGraphTaskId.set gt.taskId gt.taskId }
  let n ← addNodes gt.taskId gt.graph ⟨Dict.empty, Dict.empty, .empty⟩
  let sorter ← syncNoting (.graphRejected gt.taskId) fun s => (n.prepare, s)
  Coro.modify (·.registerGraph gt.taskId ⟨gt.targets, sorter, n.tasks, n.depended, client, .running, []⟩)
  checkOneGraph gt.taskId

def onGraphTask (client : ClientID) (gt : GraphTask) : M Unit :=
  Coro.modify fun s => { s with graphQueue := s.graphQueue ++ [(client, gt)] }

/-- `routine`: takes one graph from the queue and adds it. -/
def graphRoutine : M Unit := do
  Coro.await .queue (fun s => !s.graphQueue.isEmpty) (Coro.ret ())
  let (client, gt) ← index fun s => s.graphQueue.head?
  Coro.modify fun s => { s with graphQueue := s.graphQueue.tail }
  addNewGraph client gt

end

end Scaler
