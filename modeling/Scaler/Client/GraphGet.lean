import Scaler.Client.BufferCalls
import Scaler.Collections.Worklist
import Scaler.Graph.Acyclic

/-! `Client.get` from the dictionary to the `GraphTask`: `cull_graph`, the split into data and calls,
the check and the construction. What the dictionary and the `GraphTask` mean is said below. -/

namespace Scaler

open Collections

/-- The order in which a Python set of these elements is iterated. -/
structure NameOrder where
  iterate : List String → List String
  nodup : ∀ xs, (iterate xs).Nodup
  mem_iff : ∀ xs x, x ∈ iterate xs ↔ x ∈ xs

/-- What the tasks of a graph have in common, and the random task ids: `generateTaskId n` is the
`n`-th of the call. -/
structure GraphContext where
  source : ClientID
  metadata : Bytes
  capabilities : List (String × Int)
  generateTaskId : Nat → TaskID

/-- The future of a requested key: the task that computes it, or the data that it has already. -/
inductive GraphFuture where
  | computed (taskId : TaskID)
  | ready (data : GraphNode)
  deriving DecidableEq, Repr

structure GraphRequest where
  graphTask : GraphTask
  futures : List (String × GraphFuture)
  deriving DecidableEq, Repr

namespace Client

open ObjectBuffer

variable (order : NameOrder) (graph : Dict String GraphNode)

/-- What a key depends on. An argument that is no string is no key of the graph. -/
def dependencies (key : String) : Except SubmitExn (List String) :=
  match graph.get? key with
  | none => .error .keyError
  | some (.call _ args) =>
    match args.mapM id with
    | none => .error .keyError
    | some names => .ok (order.iterate names)
  | some _ => .ok []

/-- The names in the argument lists: as many rounds as these and the keys are enough. -/
def argumentNames : List String :=
  graph.entries.flatMap fun entry =>
    match entry.2 with
    | .call _ args => args.filterMap id
    | _ => []

def cullGraph (keys : List String) : Except SubmitExn (List (String × GraphNode)) :=
  match worklist (dependencies order graph) (keys.length + (argumentNames graph).length) keys (visitAll keys [] []).2 with
  | .error error => .error error
  | .ok visited =>
    (order.iterate visited).mapM fun key =>
      match graph.get? key with
      | none => .error .keyError
      | some node => .ok (key, node)

/-- `node_name_to_argument`, the names with their object ids. -/
def nodeArguments (nodes : List (String × (CallNode ⊕ ObjectID))) : List (String × ObjectID) :=
  nodes.filterMap fun node => node.2.getRight?.map fun objectId => (node.1, objectId)

section

variable (context : GraphContext)

/-- `node_name_to_task_id`; the graph itself has the first id. -/
def taskIds (calls : List (String × CallNode)) : Dict String TaskID :=
  calls.zipIdx.foldl (fun d call => d.set call.1.1 (context.generateTaskId (call.2 + 1))) Dict.empty

def graphArgument (calls : List (String × CallNode)) (arguments : List (String × ObjectID)) (arg : String) :
    Option Argument :=
  if arg ∈ calls.map Prod.fst then ((taskIds context calls).get? arg).map .task
  else (lookupIn arg arguments).map .objectID

def graphNodeTask (calls : List (String × CallNode)) (arguments : List (String × ObjectID))
    (call : (String × CallNode) × ObjectID) : Option Task := do
  let taskId ← (taskIds context calls).get? call.1.1
  let functionArgs ← call.1.2.args.mapM (graphArgument context calls arguments)
  some ⟨taskId, context.source, context.metadata, call.2, functionArgs, context.capabilities⟩

/-- The future of a key: its task, or its data from the graph. -/
def graphFuture (calls : List (String × CallNode)) (culled : List (String × GraphNode)) (key : String) :
    Option (String × GraphFuture) :=
  if key ∈ calls.map Prod.fst then ((taskIds context calls).get? key).map fun taskId => (key, .computed taskId)
  else (lookupIn key culled).map fun data => (key, .ready data)

/-- `__construct_graph`, with the object ids of the functions. -/
def constructGraph (culled : List (String × GraphNode)) (nodes : List (String × (CallNode ⊕ ObjectID)))
    (functions : List ObjectID) (keys : List String) : Option GraphRequest := do
  let calls := callGraph nodes
  let tasks ← (calls.zip functions).mapM (graphNodeTask context calls (nodeArguments nodes))
  let taskIdToTasks : Dict TaskID Task := tasks.foldl (fun d task => d.set task.taskId task) Dict.empty
  let targets ← (keys.filter (· ∈ calls.map Prod.fst)).mapM fun key => (taskIds context calls).get? key
  let futures ← keys.mapM (graphFuture context calls culled)
  some ⟨⟨context.generateTaskId 0, context.source, targets, taskIdToTasks.entries.map Prod.snd⟩, futures⟩

end

/-- `get`, up to the commit of the objects. -/
def get (config : BufferConfig) (context : GraphContext) (keys : List String) (reserialize : Bool) (agent : AgentAnswer) :
    BufferM GraphRequest :=
  match cullGraph order graph keys with
  | .error error => throw error
  | .ok culled => do
    let nodes ← culled.mapM (splitNode config reserialize)
    match checkGraph nodes keys with
    | .error error => throw error
    | .ok _ => do
      let functions ← (callGraph nodes).mapM fun node => do
        return (← bufferSendFunction config node.2.func).objectId
      match constructGraph context culled nodes functions keys with
      | none => throw .valueError
      | some request => do
        commitSendObjects agent
        return request

end Client

/-- Why an evaluation has no value: it was cut off, or something raised. -/
inductive EvaluationError where
  | cutOff
  | raised
  deriving DecidableEq, Repr

section

variable {Value : Type} (apply : Value → List Value → Option Value) (store : ObjectID → Value) (denote : PyObject → Value)

/-- A call of a function, which may raise. -/
def applyValue (function : Value) (arguments : List Value) : Except EvaluationError Value :=
  match apply function arguments with
  | some value => .ok value
  | none => .error .raised

/-- The value of a call of the dictionary, by recursion of the given depth. -/
def callValue (graph : Dict String GraphNode) : Nat → PyObject → List (Option String) → Except EvaluationError Value
  | 0, _, _ => .error .cutOff
  | depth + 1, func, args => do
    let values ← args.mapM fun arg =>
      match arg.bind graph.get? with
      | none => .error .raised
      | some (.call func args) => callValue graph depth func args
      | some (.reference objectId) => .ok (store objectId)
      | some (.object obj) => .ok (denote obj)
    applyValue apply (denote func) values

/-- The value of a task of a `GraphTask`. -/
def taskValue (tasks : List Task) : Nat → TaskID → Except EvaluationError Value
  | 0, _ => .error .cutOff
  | depth + 1, taskId =>
    match tasks.find? fun task => task.taskId = taskId with
    | none => .error .raised
    | some task => do
      let values ← task.functionArgs.mapM fun arg =>
        match arg with
        | .task taskId => taskValue tasks depth taskId
        | .objectID objectId => .ok (store objectId)
      applyValue apply (store task.funcObjectId) values

end

/-- The evaluation ends with this value or exception, however deep the recursion may go. -/
def Evaluates {Value : Type} (evaluation : Nat → Except EvaluationError Value) (result : Except EvaluationError Value) : Prop :=
  result ≠ .error .cutOff ∧ ∃ depth, ∀ n, depth ≤ n → evaluation n = result

/-- The node is a call. -/
def isCall (graph : Dict String GraphNode) (name : String) : Bool :=
  match graph.get? name with
  | some (.call _ _) => true
  | _ => false

/-- `arg` is an argument of the call `name`. -/
def HasArgument (graph : Dict String GraphNode) (name arg : String) : Prop :=
  ∃ func args, graph.get? name = some (.call func args) ∧ some arg ∈ args

/-- The node is needed for one of the keys. -/
def Needed (graph : Dict String GraphNode) (keys : List String) (name : String) : Prop :=
  ∃ key ∈ keys, Relation.ReflTransGen (HasArgument graph) key name

/-- A requested call has the future of its task, and requested data its own data. -/
def FutureOf (graph : Dict String GraphNode) (taskIdOf : String → TaskID) (future : String × GraphFuture) : Prop :=
  match graph.get? future.1 with
  | none => False
  | some (.call _ _) => future.2 = .computed (taskIdOf future.1)
  | some data => future.2 = .ready data

/-- The request means what the graph means: its tasks are the calls that are needed, its targets the
requested calls in the order of the keys, and task and call evaluate to the same. -/
structure SameMeaning {Value : Type} (apply : Value → List Value → Option Value) (store : ObjectID → Value)
    (denote : PyObject → Value) (graph : Dict String GraphNode) (keys : List String) (request : GraphRequest)
    (taskIdOf : String → TaskID) : Prop where
  nodup : (request.graphTask.graph.map Task.taskId).Nodup
  distinct : ∀ name name', Needed graph keys name ∧ isCall graph name = true →
    Needed graph keys name' ∧ isCall graph name' = true → taskIdOf name = taskIdOf name' → name = name'
  tasks : ∀ taskId, taskId ∈ request.graphTask.graph.map Task.taskId ↔
    ∃ name, (Needed graph keys name ∧ isCall graph name = true) ∧ taskIdOf name = taskId
  targets : request.graphTask.targets = (keys.filter (isCall graph)).map taskIdOf
  futureKeys : request.futures.map Prod.fst = keys
  futures : ∀ future ∈ request.futures, FutureOf graph taskIdOf future
  values : ∀ key ∈ keys, ∀ func args, graph.get? key = some (.call func args) →
    ∃ result, Evaluates (fun depth => callValue apply store denote graph depth func args) result ∧
      Evaluates (fun depth => taskValue apply store request.graphTask.graph depth (taskIdOf key)) result

end Scaler
