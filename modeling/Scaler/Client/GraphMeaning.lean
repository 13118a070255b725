import Scaler.Client.GraphPasses
import Scaler.Client.Uploads

/-! The `GraphTask` that `Client.get` builds means what the dictionary means. The values are compared
at every depth of the recursion; that they do not depend on a large depth follows from the check. -/

namespace Scaler

open Collections

namespace Client

open ObjectBuffer

variable {graph : Dict String GraphNode} {context : GraphContext} {keys : List String}
  {returned : List (PyObject × ObjectCache)} {request : GraphRequest} {culled : List (String × GraphNode)}
  {nodes : List (String × (CallNode ⊕ ObjectID))} {functions : List ObjectID}

namespace Passes

theorem names (h : Passes graph context keys returned request culled nodes functions) :
    culled.map Prod.fst = nodes.map Prod.fst := by
  have hsame : List.Forall₂ Eq (culled.map Prod.fst) (nodes.map Prod.fst) := by
    rw [List.forall₂_map_left_iff, List.forall₂_map_right_iff]
    refine h.split.imp fun entry node hto => ?_
    cases hto with
    | call name func args => rfl
    | reference name objectId => rfl
    | object name hmem => rfl
  rwa [List.forall₂_eq_eq_eq] at hsame

theorem mem_names (h : Passes graph context keys returned request culled nodes functions) {name : String} :
    name ∈ nodes.map Prod.fst ↔ Needed graph keys name := by
  rw [← h.names]
  exact h.cull.mem_iff name

theorem source (h : Passes graph context keys returned request culled nodes functions) {name : String}
    {split : CallNode ⊕ ObjectID} (hmem : (name, split) ∈ nodes) :
    ∃ node, graph.get? name = some node ∧ SplitsTo returned (name, node) (name, split) := by
  obtain ⟨⟨name', node⟩, hentry, hto⟩ := exists_left_of_forall₂ h.split _ hmem
  have hnode := h.cull.node _ hentry
  obtain rfl : name' = name := by
    cases hto with
    | call name func args => rfl
    | reference name objectId => rfl
    | object name hmem => rfl
  exact ⟨node, hnode, hto⟩

theorem mem_calls (h : Passes graph context keys returned request culled nodes functions) {name : String} {call : CallNode} :
    (name, call) ∈ callGraph nodes ↔
      Needed graph keys name ∧ graph.get? name = some (.call call.func (call.args.map some)) := by
  have hcalls : (name, call) ∈ callGraph nodes ↔ (name, .inl call) ∈ nodes := by
    rw [callGraph, List.mem_filterMap]
    constructor
    · rintro ⟨⟨name', split⟩, hmem, hcall⟩
      cases split with
      | inl call' =>
        obtain ⟨rfl, rfl⟩ := Prod.mk.inj (Option.some.inj hcall)
        exact hmem
      | inr objectId => cases hcall
    · exact fun hmem => ⟨_, hmem, rfl⟩
  rw [hcalls]
  constructor
  · intro hmem
    obtain ⟨node, hnode, hto⟩ := h.source hmem
    cases hto
    exact ⟨h.mem_names.mp (List.mem_map_of_mem hmem), hnode⟩
  · rintro ⟨hneeded, hnode⟩
    obtain ⟨⟨name', split⟩, hmem, rfl⟩ := List.mem_map.mp (h.mem_names.mpr hneeded)
    obtain ⟨node, hnode', hto⟩ := h.source hmem
    cases hnode.symm.trans hnode'
    generalize hargs : call.args.map some = args at hto
    cases hto with
    | call _ func names =>
      obtain rfl := List.map_injective_iff.mpr (Option.some_injective _) hargs
      exact hmem

theorem mem_call_names (h : Passes graph context keys returned request culled nodes functions) {name : String} :
    name ∈ (callGraph nodes).map Prod.fst ↔ Needed graph keys name ∧ isCall graph name = true := by
  constructor
  · intro hmem
    obtain ⟨⟨name', call⟩, hcall, rfl⟩ := List.mem_map.mp hmem
    obtain ⟨hneeded, hnode⟩ := h.mem_calls.mp hcall
    exact ⟨hneeded, by rw [isCall, hnode]⟩
  · rintro ⟨hneeded, hcall⟩
    obtain ⟨⟨name', split⟩, hmem, rfl⟩ := List.mem_map.mp (h.mem_names.mpr hneeded)
    obtain ⟨node, hnode, hto⟩ := h.source hmem
    cases hto with
    | call _ func names =>
      have hcall : (name', CallNode.mk func names) ∈ callGraph nodes := h.mem_calls.mpr ⟨hneeded, hnode⟩
      exact List.mem_map_of_mem (f := Prod.fst) hcall
    | reference _ objectId =>
      rw [isCall, hnode] at hcall
      cases hcall
    | object _ hobj =>
      rw [isCall, hnode] at hcall
      cases hcall

theorem calls_nodup (h : Passes graph context keys returned request culled nodes functions) :
    ((callGraph nodes).map Prod.fst).Nodup := by
  have hnodup : (nodes.map Prod.fst).Nodup := h.names ▸ h.cull.nodup
  exact hnodup.sublist (map_fst_filterMap_sublist Sum.getLeft? nodes)

theorem data (h : Passes graph context keys returned request culled nodes functions) {name : String}
    (hneeded : Needed graph keys name) (hdata : isCall graph name = false) :
    ∃ node objectId, graph.get? name = some node ∧ lookupIn name (nodeArguments nodes) = some objectId ∧
      SplitsTo returned (name, node) (name, .inr objectId) := by
  obtain ⟨⟨name', split⟩, hmem, rfl⟩ := List.mem_map.mp (h.mem_names.mpr hneeded)
  obtain ⟨node, hnode, hto⟩ := h.source hmem
  cases split with
  | inl call =>
    cases hto
    rw [isCall, hnode] at hdata
    cases hdata
  | inr objectId =>
    have hnodup : (nodes.map Prod.fst).Nodup := h.names ▸ h.cull.nodup
    have hargument : (name', objectId) ∈ nodeArguments nodes := List.mem_filterMap.mpr ⟨_, hmem, rfl⟩
    have hlookup := lookupIn_of_mem (hnodup.sublist (map_fst_filterMap_sublist Sum.getRight? nodes)) hargument
    exact ⟨node, objectId, hnode, hlookup, hto⟩

theorem checked (h : Passes graph context keys returned request culled nodes functions) :
    (∀ key ∈ keys, key ∈ nodes.map Prod.fst) ∧
      (∀ call ∈ callGraph nodes, ∀ arg ∈ call.2.args, arg ∈ nodes.map Prod.fst) ∧
      (TopologicalSorter.ofGraph ((callGraph nodes).map fun node => (node.1, node.2.args))).hasCycle = false := by
  have hcheck := h.check
  unfold checkGraph at hcheck
  dsimp only at hcheck
  split at hcheck
  · cases hcheck
  split at hcheck
  · cases hcheck
  next hkeys =>
  split at hcheck
  · cases hcheck
  next hargs =>
  cases hprepare : ((TopologicalSorter.empty.mergeGraph ((callGraph nodes).map fun node => (node.1, node.2.args))).2.prepare).1 with
  | error e =>
    rw [hprepare] at hcheck
    cases hcheck
  | ok _ =>
    refine ⟨?_, ?_, TopologicalSorter.hasCycle_of_prepare hprepare⟩
    · intro key hkey
      exact of_decide_eq_true (List.all_eq_true.mp (not_not.mp hkeys) key hkey)
    · intro call hcall arg harg
      have hall := List.all_eq_true.mp (not_not.mp hargs) (call.1, call.2.args) (List.mem_map.mpr ⟨call, hcall, rfl⟩)
      exact of_decide_eq_true (List.all_eq_true.mp hall arg harg)

end Passes

section Construct

variable {calls : List (String × CallNode)} {arguments : List (String × ObjectID)}

/-- The task id of the call of this name. -/
def taskIdOf (context : GraphContext) (calls : List (String × CallNode)) (name : String) : TaskID :=
  ((taskIds context calls).get? name).getD (context.generateTaskId 0)

variable (context) in
theorem get?_taskIds (hnodup : (calls.map Prod.fst).Nodup) {name : String} (hname : name ∈ calls.map Prod.fst) :
    ∃ i call, calls[i]? = some call ∧ call.1 = name ∧
      (taskIds context calls).get? name = some (context.generateTaskId (i + 1)) := by
  have hkeys : calls.zipIdx.map (fun call => call.1.1) = calls.map Prod.fst := by
    have hmap : (calls.zipIdx.map Prod.fst).map Prod.fst = calls.map Prod.fst := by rw [List.zipIdx_map_fst]
    rwa [List.map_map] at hmap
  have hget := Dict.get?_foldl_set (fun call : (String × CallNode) × Nat => call.1.1)
    (fun call => context.generateTaskId (call.2 + 1)) (hkeys ▸ hnodup) Dict.empty name
  rw [Dict.get?_empty, Option.or_none] at hget
  cases hfind : calls.zipIdx.find? fun call => call.1.1 = name with
  | none =>
    rw [← hkeys] at hname
    obtain ⟨call, hcall, heq⟩ := List.mem_map.mp hname
    exact absurd (decide_eq_true heq) (List.find?_eq_none.mp hfind call hcall)
  | some call =>
    rw [hfind] at hget
    have hname := List.find?_some hfind
    exact ⟨call.2, call.1, List.mem_zipIdx_iff_getElem?.mp (List.mem_of_find?_eq_some hfind), of_decide_eq_true hname, hget⟩

variable (context) in
theorem get?_taskIds_eq (hnodup : (calls.map Prod.fst).Nodup) {name : String} (hname : name ∈ calls.map Prod.fst) :
    (taskIds context calls).get? name = some (taskIdOf context calls name) := by
  obtain ⟨i, call, -, -, hget⟩ := get?_taskIds context hnodup hname
  rw [taskIdOf, hget, Option.getD_some]

theorem taskIdOf_inj (hids : Function.Injective context.generateTaskId) (hnodup : (calls.map Prod.fst).Nodup)
    {name name' : String} (hname : name ∈ calls.map Prod.fst) (hname' : name' ∈ calls.map Prod.fst)
    (h : taskIdOf context calls name = taskIdOf context calls name') : name = name' := by
  obtain ⟨i, call, hcall, rfl, hget⟩ := get?_taskIds context hnodup hname
  obtain ⟨i', call', hcall', rfl, hget'⟩ := get?_taskIds context hnodup hname'
  rw [taskIdOf, taskIdOf, hget, hget', Option.getD_some, Option.getD_some] at h
  obtain rfl : i = i' := Nat.succ.inj (hids h)
  obtain rfl := Option.some.inj (hcall.symm.trans hcall')
  rfl

/-- The task of a call. -/
structure TaskOf (context : GraphContext) (calls : List (String × CallNode)) (arguments : List (String × ObjectID))
    (returned : List (PyObject × ObjectCache)) (call : String × CallNode) (task : Task) : Prop where
  taskId : (taskIds context calls).get? call.1 = some task.taskId
  function : FunctionSent returned call task.funcObjectId
  arguments : List.Forall₂ (fun arg argument => graphArgument context calls arguments arg = some argument)
    call.2.args task.functionArgs

theorem taskOf_of_graphNodeTask {call : String × CallNode} {objectId : ObjectID} {task : Task}
    (hfunction : FunctionSent returned call objectId)
    (h : graphNodeTask context calls arguments (call, objectId) = some task) :
    TaskOf context calls arguments returned call task := by
  obtain ⟨taskId, htaskId, h⟩ := Option.bind_eq_some_iff.mp h
  obtain ⟨functionArgs, hargs, h⟩ := Option.bind_eq_some_iff.mp h
  cases h
  exact ⟨htaskId, hfunction, forall₂_of_mapM_some hargs⟩

/-- The tasks in the order of the calls, the targets and the futures in the order of the keys. -/
structure Constructed (context : GraphContext) (culled : List (String × GraphNode))
    (nodes : List (String × (CallNode ⊕ ObjectID))) (returned : List (PyObject × ObjectCache)) (keys : List String)
    (request : GraphRequest) : Prop where
  tasks : List.Forall₂ (TaskOf context (callGraph nodes) (nodeArguments nodes) returned) (callGraph nodes) request.graphTask.graph
  targets : request.graphTask.targets =
    (keys.filter (· ∈ (callGraph nodes).map Prod.fst)).map (taskIdOf context (callGraph nodes))
  futures : List.Forall₂ (fun key future => graphFuture context (callGraph nodes) culled key = some future) keys request.futures

theorem nodup_taskIds (hids : Function.Injective context.generateTaskId) (hnodup : (calls.map Prod.fst).Nodup)
    {tasks : List Task} (h : List.Forall₂ (TaskOf context calls arguments returned) calls tasks) :
    tasks.map Task.taskId = (calls.map Prod.fst).map (taskIdOf context calls) ∧ (tasks.map Task.taskId).Nodup := by
  have hsame : List.Forall₂ Eq (calls.map fun call => taskIdOf context calls call.1) (tasks.map Task.taskId) := by
    rw [List.forall₂_map_left_iff, List.forall₂_map_right_iff]
    refine h.imp fun call task htask => ?_
    rw [taskIdOf, htask.taskId, Option.getD_some]
  rw [List.forall₂_eq_eq_eq] at hsame
  have hmap : tasks.map Task.taskId = (calls.map Prod.fst).map (taskIdOf context calls) := by
    rw [← hsame, List.map_map]
    rfl
  refine ⟨hmap, ?_⟩
  rw [hmap]
  exact hnodup.map_on fun name hname name' hname' heq => taskIdOf_inj hids hnodup hname hname' heq

theorem constructed_of_constructGraph (hids : Function.Injective context.generateTaskId)
    (hnodup : ((callGraph nodes).map Prod.fst).Nodup)
    (hfunctions : List.Forall₂ (FunctionSent returned) (callGraph nodes) functions)
    (h : constructGraph context culled nodes functions keys = some request) :
    Constructed context culled nodes returned keys request := by
  obtain ⟨tasks, htasks, h⟩ := Option.bind_eq_some_iff.mp h
  obtain ⟨targets, htargets, h⟩ := Option.bind_eq_some_iff.mp h
  obtain ⟨futures, hfutures, h⟩ := Option.bind_eq_some_iff.mp h
  have hof : List.Forall₂ (TaskOf context (callGraph nodes) (nodeArguments nodes) returned) (callGraph nodes) tasks := by
    refine (forall₂_of_zip hfunctions (forall₂_of_mapM_some htasks)).imp ?_
    rintro call task ⟨objectId, hfunction, htask⟩
    exact taskOf_of_graphNodeTask hfunction htask
  obtain ⟨-, htaskIds⟩ := nodup_taskIds hids hnodup hof
  have hentries : (tasks.foldl (fun d task => d.set task.taskId task) (Dict.empty : Dict TaskID Task)).entries.map Prod.snd =
      tasks := by
    have hkeys : (((Dict.empty : Dict TaskID Task).entries ++ tasks.map fun task => (task.taskId, task)).map Prod.fst).Nodup := by
      rw [show (Dict.empty : Dict TaskID Task).entries = [] from rfl, List.nil_append, List.map_map]
      exact htaskIds
    have hset := Dict.entries_foldl_set hkeys
    rw [List.foldl_map] at hset
    rw [hset, List.map_append, List.map_map]
    exact List.map_id tasks
  cases h
  refine ⟨?_, ?_, forall₂_of_mapM_some hfutures⟩
  · rw [hentries]
    exact hof
  · have hsame : List.Forall₂ Eq
        ((keys.filter (· ∈ (callGraph nodes).map Prod.fst)).map (taskIdOf context (callGraph nodes))) targets := by
      rw [List.forall₂_map_left_iff]
      refine (forall₂_of_mapM_some htargets).imp fun key target hget => ?_
      rw [taskIdOf, hget, Option.getD_some]
    rw [List.forall₂_eq_eq_eq] at hsame
    exact hsame.symm

end Construct

section Evaluate

variable {Value : Type} {apply : Value → List Value → Option Value} {store : ObjectID → Value} {denote : PyObject → Value}

theorem applyValue_ne_cutOff (function : Value) (values : List Value) :
    applyValue apply function values ≠ .error .cutOff := by
  unfold applyValue
  split
  · exact nofun
  · exact nofun

theorem callValue_succ {depth : Nat} {func : PyObject} {args : List (Option String)}
    (h : callValue apply store denote graph depth func args ≠ .error .cutOff) :
    callValue apply store denote graph (depth + 1) func args = callValue apply store denote graph depth func args := by
  induction depth generalizing func args with
  | zero => exact absurd rfl h
  | succ depth ih =>
    rw [callValue] at h
    rw [callValue, callValue]
    refine congrArg (· >>= _) (mapM_congr_of_ne (e := .cutOff) (fun arg harg => ?_) fun hcut => h ?_)
    · cases hnode : arg.bind graph.get? with
      | none => rfl
      | some node =>
        cases node with
        | call func args =>
          rw [hnode] at harg
          exact ih harg
        | reference objectId => rfl
        | object obj => rfl
    · rw [hcut]
      rfl

theorem callValue_of_le {depth : Nat} {func : PyObject} {args : List (Option String)}
    (h : callValue apply store denote graph depth func args ≠ .error .cutOff) {n : Nat} (hn : depth ≤ n) :
    callValue apply store denote graph n func args = callValue apply store denote graph depth func args := by
  induction n, hn using Nat.le_induction with
  | base => rfl
  | succ n _ ih => rw [callValue_succ (ih ▸ h), ih]

theorem find?_of_nodup {tasks : List Task} (hnodup : (tasks.map Task.taskId).Nodup) {task : Task} (hmem : task ∈ tasks) :
    tasks.find? (fun t => t.taskId = task.taskId) = some task := by
  cases hfind : tasks.find? fun t => t.taskId = task.taskId with
  | none => exact absurd (decide_eq_true rfl) (List.find?_eq_none.mp hfind task hmem)
  | some found =>
    have hid := of_decide_eq_true (List.find?_some hfind :)
    rw [List.inj_on_of_nodup_map hnodup (List.mem_of_find?_eq_some hfind) hmem hid]

namespace Passes

theorem constructed (hids : Function.Injective context.generateTaskId)
    (h : Passes graph context keys returned request culled nodes functions) :
    Constructed context culled nodes returned keys request :=
  constructed_of_constructGraph hids h.calls_nodup h.send h.construct

theorem needed_argument (h : Passes graph context keys returned request culled nodes functions) {call : String × CallNode}
    (hcall : call ∈ callGraph nodes) {arg : String} (harg : arg ∈ call.2.args) : Needed graph keys arg :=
  h.mem_names.mp (h.checked.2.1 call hcall arg harg)

theorem argument_cases (h : Passes graph context keys returned request culled nodes functions) {call : String × CallNode}
    (hcall : call ∈ callGraph nodes) {arg : String} (harg : arg ∈ call.2.args) {argument : Argument}
    (hargument : graphArgument context (callGraph nodes) (nodeArguments nodes) arg = some argument) :
    (∃ inner ∈ callGraph nodes, graph.get? arg = some (.call inner.2.func (inner.2.args.map some)) ∧ arg = inner.1 ∧
        argument = .task (taskIdOf context (callGraph nodes) inner.1)) ∨
      (∃ objectId, graph.get? arg = some (.reference objectId) ∧ argument = .objectID objectId) ∨
      ∃ obj cache, graph.get? arg = some (.object obj) ∧ (obj, cache) ∈ returned ∧ argument = .objectID cache.objectId := by
  unfold graphArgument at hargument
  split at hargument
  · next hinner =>
    left
    rw [get?_taskIds_eq context h.calls_nodup hinner, Option.map_some] at hargument
    obtain ⟨inner, hmem, rfl⟩ := List.mem_map.mp hinner
    exact ⟨inner, hmem, (h.mem_calls.mp hmem).2, rfl, (Option.some.inj hargument).symm⟩
  · next hinner =>
    right
    have hneeded := h.needed_argument hcall harg
    have hdata : isCall graph arg = false := by
      rw [← Bool.not_eq_true]
      exact fun hiscall => hinner (h.mem_call_names.mpr ⟨hneeded, hiscall⟩)
    obtain ⟨node, objectId, hnode, hlookup, hto⟩ := h.data hneeded hdata
    rw [hlookup, Option.map_some] at hargument
    obtain rfl := Option.some.inj hargument
    cases hto with
    | reference _ objectId => exact .inl ⟨objectId, hnode, rfl⟩
    | object _ hmem => exact .inr ⟨_, _, hnode, hmem, rfl⟩

/-- The value of a task is the value of its call, at every depth. -/
theorem taskValue_eq (hids : Function.Injective context.generateTaskId)
    (hstore : ∀ oc ∈ returned, store oc.2.objectId = denote oc.1)
    (h : Passes graph context keys returned request culled nodes functions) (depth : Nat) {call : String × CallNode}
    (hcall : call ∈ callGraph nodes) :
    taskValue apply store request.graphTask.graph depth (taskIdOf context (callGraph nodes) call.1) =
      callValue apply store denote graph depth call.2.func (call.2.args.map some) := by
  induction depth generalizing call with
  | zero => rfl
  | succ depth ih =>
    have hconstructed := h.constructed hids
    obtain ⟨task, htask, hof⟩ := exists_right_of_forall₂ hconstructed.tasks call hcall
    obtain ⟨-, hnodup⟩ := nodup_taskIds hids h.calls_nodup hconstructed.tasks
    have hid : taskIdOf context (callGraph nodes) call.1 = task.taskId := by rw [taskIdOf, hof.taskId, Option.getD_some]
    obtain ⟨cache, hfunction, hobject⟩ := hof.function
    unfold taskValue callValue
    rw [hid, find?_of_nodup hnodup htask]
    dsimp only
    rw [← hobject, hstore _ hfunction]
    refine congrArg (· >>= _) (mapM_congr_forall₂ ?_)
    rw [List.forall₂_map_right_iff]
    have harguments := (List.forall₂_and_left call.2.args task.functionArgs).mpr ⟨fun arg harg => harg, hof.arguments⟩
    refine List.Forall₂.flip (harguments.imp ?_)
    rintro arg argument ⟨harg, hargument⟩
    obtain ⟨inner, hinner, hnode, rfl, rfl⟩ | ⟨objectId, hnode, rfl⟩ | ⟨obj, cache, hnode, hmem, rfl⟩ :=
      h.argument_cases hcall harg hargument
    · rw [flip, Option.bind_some, hnode]
      exact ih hinner
    · rw [flip, Option.bind_some, hnode]
    · rw [flip, Option.bind_some, hnode]
      exact congrArg Except.ok (hstore _ hmem)

/-- What is cut off follows the arguments as deep as the recursion goes. -/
theorem walk_of_cutOff (h : Passes graph context keys returned request culled nodes functions) {depth : Nat}
    {call : String × CallNode} (hcall : call ∈ callGraph nodes)
    (hcut : callValue apply store denote graph depth call.2.func (call.2.args.map some) = .error .cutOff) :
    ∃ v : Nat → String, v 0 = call.1 ∧
      (TopologicalSorter.ofGraph ((callGraph nodes).map fun node => (node.1, node.2.args))).Walk depth v := by
  induction depth generalizing call with
  | zero => exact ⟨fun _ => call.1, rfl, fun i hi => absurd hi (Nat.not_lt_zero i)⟩
  | succ depth ih =>
    rw [callValue] at hcut
    have hargs := eq_error_of_bind hcut fun values => applyValue_ne_cutOff _ values
    obtain ⟨given, hgiven, harg⟩ := exists_of_mapM_error hargs
    obtain ⟨arg, hmem, rfl⟩ := List.mem_map.mp hgiven
    rw [Option.bind_some] at harg
    have hiscall : isCall graph arg = true := by
      unfold isCall
      cases hnode : graph.get? arg with
      | none =>
        rw [hnode] at harg
        cases harg
      | some node =>
        rw [hnode] at harg
        cases node with
        | call func args => rfl
        | reference objectId => cases harg
        | object obj => cases harg
    obtain ⟨inner, hinner, rfl⟩ := List.mem_map.mp (h.mem_call_names.mpr ⟨h.needed_argument hcall hmem, hiscall⟩)
    rw [(h.mem_calls.mp hinner).2] at harg
    obtain ⟨v, hstart, hwalk⟩ := ih hinner harg
    refine ⟨fun i => Nat.casesOn i call.1 v, rfl, fun i hi => ?_⟩
    cases i with
    | zero =>
      refine TopologicalSorter.mem_matrix_ofGraph.mpr ⟨_, List.mem_map_of_mem hcall, rfl, ?_⟩
      change v 0 ∈ call.2.args
      rw [hstart]
      exact hmem
    | succ i => exact hwalk i (Nat.lt_of_succ_lt_succ hi)

variable (apply store denote) in
/-- The recursion ends: the check found no cycle. -/
theorem callValue_ne_cutOff (h : Passes graph context keys returned request culled nodes functions)
    {call : String × CallNode} (hcall : call ∈ callGraph nodes) :
    ∃ depth, callValue apply store denote graph depth call.2.func (call.2.args.map some) ≠ .error .cutOff := by
  refine ⟨(TopologicalSorter.ofGraph ((callGraph nodes).map fun node => (node.1, node.2.args))).keys.length, fun hcut => ?_⟩
  obtain ⟨v, hstart, hwalk⟩ := h.walk_of_cutOff hcall hcut
  have hkey : v 0 ∈ (TopologicalSorter.ofGraph ((callGraph nodes).map fun node => (node.1, node.2.args))).keys := by
    rw [hstart]
    exact TopologicalSorter.mem_keys_ofGraph.mpr ⟨_, List.mem_map_of_mem hcall, .inl rfl⟩
  exact TopologicalSorter.not_walk h.checked.2.2 (TopologicalSorter.closed_ofGraph _) hkey hwalk

theorem evaluates (hids : Function.Injective context.generateTaskId)
    (hstore : ∀ oc ∈ returned, store oc.2.objectId = denote oc.1)
    (h : Passes graph context keys returned request culled nodes functions) {call : String × CallNode}
    (hcall : call ∈ callGraph nodes) :
    ∃ result,
      Evaluates (fun depth => callValue apply store denote graph depth call.2.func (call.2.args.map some)) result ∧
        Evaluates (fun depth => taskValue apply store request.graphTask.graph depth
          (taskIdOf context (callGraph nodes) call.1)) result := by
  obtain ⟨depth, hne⟩ := h.callValue_ne_cutOff apply store denote hcall
  refine ⟨_, ⟨hne, depth, fun n hn => callValue_of_le hne hn⟩, hne, depth, fun n hn => ?_⟩
  exact (h.taskValue_eq hids hstore n hcall).trans (callValue_of_le hne hn)

theorem needed_of_key {key : String} (hkey : key ∈ keys) : Needed graph keys key := ⟨key, hkey, .refl⟩

theorem future (h : Passes graph context keys returned request culled nodes functions) {key : String} (hkey : key ∈ keys)
    {future : String × GraphFuture} (hfuture : graphFuture context (callGraph nodes) culled key = some future) :
    key = future.1 ∧ FutureOf graph (taskIdOf context (callGraph nodes)) future := by
  unfold graphFuture at hfuture
  split at hfuture
  · next hcall =>
    rw [get?_taskIds_eq context h.calls_nodup hcall, Option.map_some] at hfuture
    obtain rfl := Option.some.inj hfuture
    obtain ⟨call, hmem, rfl⟩ := List.mem_map.mp hcall
    refine ⟨rfl, ?_⟩
    rw [FutureOf, (h.mem_calls.mp hmem).2]
  · next hcall =>
    obtain ⟨data, hdata, hready⟩ := Option.map_eq_some_iff.mp hfuture
    subst hready
    refine ⟨rfl, ?_⟩
    have hnode : graph.get? key = some data := h.cull.node (key, data) (mem_of_lookupIn hdata)
    rw [FutureOf, hnode]
    cases data with
    | call func args =>
      have hiscall : isCall graph key = true := by rw [isCall, hnode]
      exact absurd (h.mem_call_names.mpr ⟨needed_of_key hkey, hiscall⟩) hcall
    | reference objectId => rfl
    | object obj => rfl

theorem targets (hids : Function.Injective context.generateTaskId)
    (h : Passes graph context keys returned request culled nodes functions) :
    request.graphTask.targets = (keys.filter (isCall graph)).map (taskIdOf context (callGraph nodes)) := by
  rw [(h.constructed hids).targets]
  refine congrArg (List.map _) (List.filter_congr fun key hkey => ?_)
  rw [Bool.eq_iff_iff, decide_eq_true_iff, h.mem_call_names]
  exact ⟨fun hcall => hcall.2, fun hcall => ⟨needed_of_key hkey, hcall⟩⟩

theorem sameMeaning (hids : Function.Injective context.generateTaskId)
    (hstore : ∀ oc ∈ returned, store oc.2.objectId = denote oc.1)
    (h : Passes graph context keys returned request culled nodes functions) :
    SameMeaning apply store denote graph keys request (taskIdOf context (callGraph nodes)) := by
  have hconstructed := h.constructed hids
  obtain ⟨htaskIds, hnodup⟩ := nodup_taskIds hids h.calls_nodup hconstructed.tasks
  have hfutures : List.Forall₂ (fun key future => key = future.1 ∧ FutureOf graph (taskIdOf context (callGraph nodes)) future)
      keys request.futures := by
    refine ((List.forall₂_and_left keys request.futures).mpr ⟨fun key hkey => hkey, hconstructed.futures⟩).imp ?_
    exact fun key future hfuture => h.future hfuture.1 hfuture.2
  refine ⟨hnodup, ?_, ?_, h.targets hids, ?_, ?_, ?_⟩
  · intro name name' hname hname' heq
    exact taskIdOf_inj hids h.calls_nodup (h.mem_call_names.mpr hname) (h.mem_call_names.mpr hname') heq
  · intro taskId
    rw [htaskIds, List.mem_map]
    simp only [h.mem_call_names]
  · have hsame := List.forall₂_map_right_iff.mpr (hfutures.imp fun _ _ hfuture => hfuture.1)
    rw [List.forall₂_eq_eq_eq] at hsame
    exact hsame.symm
  · intro future hfuture
    obtain ⟨key, -, hof⟩ := exists_left_of_forall₂ hfutures future hfuture
    exact hof.2
  · intro key hkey func args hnode
    have hiscall : isCall graph key = true := by rw [isCall, hnode]
    obtain ⟨call, hcall, rfl⟩ := List.mem_map.mp (h.mem_call_names.mpr ⟨needed_of_key hkey, hiscall⟩)
    cases hnode.symm.trans (h.mem_calls.mp hcall).2
    exact h.evaluates hids hstore hcall

end Passes

end Evaluate

/-- A call of `get` is a call of the session with the graph that `cull_graph` returns. -/
theorem getGraph_of_run {order : NameOrder} {config : BufferConfig} {reserialize : Bool} {agent : AgentAnswer}
    {b b' : ObjectBuffer} (h : (get order graph config context keys reserialize agent).run b = .ok request b') :
    ∃ culled functions, cullGraph order graph keys = .ok culled ∧
      (getGraph config culled keys reserialize agent).run b = .ok functions b' ∧ b'.pendingObjects = [] := by
  obtain ⟨culled, nodes, functions, t, u, hcull, hnodes, hcheck, hfunctions, -, hcommit⟩ := get_cases h
  refine ⟨culled, functions, hcull, ?_, pending_of_commitSendObjects hcommit⟩
  unfold getGraph
  rw [run_bind_of_ok hnodes, hcheck]
  dsimp only
  rw [run_bind_of_ok hfunctions, run_bind_of_ok hcommit]
  rfl

/-- In a session that keeps the addresses apart, what the call returned is stored: the payload that
was uploaded under an id is one that was serialized from the object. -/
theorem stored_of_session {Value : Type} {store : ObjectID → Value} {denote : PyObject → Value} {deserialize : Bytes → Value}
    {order : NameOrder} {config : BufferConfig} (hr : Reliable config) {reserialize : Bool} {agent : AgentAnswer}
    {events : List SessionEvent} {b' : ObjectBuffer}
    (haddresses : Throughout (ClientSession.step config) ClientSession.AddressForgotten (ClientSession.start config) events)
    (hlive : ∀ culled, cullGraph order graph keys = .ok culled →
      ∀ obj ∈ ClientCall.nodeObjects culled, obj ∈ (ClientSession.run config events).live)
    (hrun : (get order graph config context keys reserialize agent).run (ClientSession.run config events).buffer =
      .ok request b')
    (hdeserialize : ∀ entry ∈ b'.serialized, deserialize entry.2 = denote entry.1)
    (hstore : ∀ entry ∈ b'.uploaded, store entry.1 = deserialize entry.2) :
    ∀ oc ∈ returnedSince (ClientSession.run config events).buffer b', store oc.2.objectId = denote oc.1 := by
  obtain ⟨culled, functions, hcull, hgraph, hpending⟩ := getGraph_of_run hrun
  have hsound : (ClientSession.run config events).Sound := haddresses.foldl (fun _ _ hs he => hs.step he) (.start config)
  have hend : endState (getGraph config culled keys reserialize agent) (ClientSession.run config events).buffer = b' :=
    endState_of_ok hgraph
  have hgenuine : b'.Genuine (ClientSession.run config events).live := by
    rw [← hend]
    exact (Genuine.kept config hsound.addresses).getGraph (hlive culled hcull) keys reserialize agent _ hsound.genuine
  have hbacked : Backed config b' := by
    rw [← hend]
    exact (Backed.kept hr).getGraph (fun _ _ => trivial) keys reserialize agent _ (ClientSession.backed_run hr events)
  intro oc hoc
  have hreturned : oc ∈ b'.returned := List.mem_of_mem_drop hoc
  obtain ⟨-, huploaded, -⟩ := hbacked.available hr hpending hreturned
  have hserialized := hgenuine.returned oc (List.mem_append_right _ hreturned)
  exact (hstore _ huploaded).trans (hdeserialize _ hserialized)

/-- The `GraphTask` of every call of `get` that returns means what the dictionary means, in a session that
keeps the addresses apart. -/
theorem get_keeps_meaning {Value : Type} (apply : Value → List Value → Option Value) (store : ObjectID → Value)
    (denote : PyObject → Value) (deserialize : Bytes → Value) (order : NameOrder) (graph : Dict String GraphNode)
    {config : BufferConfig} (hr : Reliable config) (context : GraphContext) (keys : List String) (reserialize : Bool)
    (agent : AgentAnswer) (events : List SessionEvent) {b' : ObjectBuffer} {request : GraphRequest}
    (hids : Function.Injective context.generateTaskId)
    (haddresses : Throughout (ClientSession.step config) ClientSession.AddressForgotten (ClientSession.start config) events)
    (hlive : ∀ culled, cullGraph order graph keys = .ok culled →
      ∀ obj ∈ ClientCall.nodeObjects culled, obj ∈ (ClientSession.run config events).live)
    (hrun : (get order graph config context keys reserialize agent).run (ClientSession.run config events).buffer =
      .ok request b')
    (hdeserialize : ∀ entry ∈ b'.serialized, deserialize entry.2 = denote entry.1)
    (hstore : ∀ entry ∈ b'.uploaded, store entry.1 = deserialize entry.2) :
    ∃ taskIdOf, SameMeaning apply store denote graph keys request taskIdOf := by
  obtain ⟨culled, nodes, functions, h⟩ := passes_of_run hrun
  have hstored := stored_of_session hr haddresses hlive hrun hdeserialize hstore
  exact ⟨taskIdOf context (callGraph nodes), h.sameMeaning hids hstored⟩

section Example

/-- The elements in the order of their last occurrence. -/
def lastOrder : NameOrder := ⟨List.dedup, List.nodup_dedup, fun _ _ => List.mem_dedup⟩

/-- A sum of sums, and a node that is not needed. -/
def nestedGraph : Dict String GraphNode where
  entries :=
    [("one", .object ⟨1, 32, false⟩), ("twice", .call ⟨0, 16, true⟩ [some "one", some "one"]),
      ("sum", .call ⟨0, 16, true⟩ [some "twice", some "one", some "twice"]), ("unused", .object ⟨2, 48, false⟩)]
  nodup := by decide

def numberContext : GraphContext := ⟨⟨7⟩, [], [], fun n => ⟨n⟩⟩

def numberGet (graph : Dict String GraphNode) (keys : List String) : BufferM GraphRequest :=
  get lastOrder graph ClientSession.numberConfig numberContext keys false ClientSession.willingAgent

/-- The number that a payload stands for. -/
def payloadNumber : Bytes → Nat
  | byte :: _ => byte.toNat
  | [] => 0

/-- The number in the payload that was uploaded under the id. -/
def storedNumber (b : ObjectBuffer) (objectId : ObjectID) : Nat := payloadNumber ((lookupIn objectId b.uploaded).getD [])

/-- Every payload is that of its object, and the storage holds what was uploaded. -/
def Faithful (b : ObjectBuffer) : Prop :=
  (∀ entry ∈ b.serialized, payloadNumber entry.2 = entry.1.number) ∧
    ∀ entry ∈ b.uploaded, storedNumber b entry.1 = payloadNumber entry.2

instance : DecidablePred Faithful := fun b =>
  inferInstanceAs (Decidable ((∀ entry ∈ b.serialized, payloadNumber entry.2 = entry.1.number) ∧
    ∀ entry ∈ b.uploaded, storedNumber b entry.1 = payloadNumber entry.2))

/-- A session that allocates the function and the two numbers. -/
def nestedSession : List SessionEvent := [.allocate 16 true, .allocate 32 false, .allocate 48 false]

theorem nestedRun_faithful : ∃ request b',
    (numberGet nestedGraph ["sum", "one"]).run (ClientSession.run ClientSession.numberConfig nestedSession).buffer =
      .ok request b' ∧ Faithful b' := by
  have hall : (match (numberGet nestedGraph ["sum", "one"]).run
        (ClientSession.run ClientSession.numberConfig nestedSession).buffer with
      | .ok _ b' => decide (Faithful b')
      | .error _ _ => false) = true := by decide +kernel
  cases hrun : (numberGet nestedGraph ["sum", "one"]).run
      (ClientSession.run ClientSession.numberConfig nestedSession).buffer with
  | ok request b' =>
    rw [hrun] at hall
    exact ⟨request, b', rfl, of_decide_eq_true hall⟩
  | error e b' =>
    rw [hrun] at hall
    cases hall

theorem get_keeps_meaning_nested :
    ∃ request b', (numberGet nestedGraph ["sum", "one"]).run
        (ClientSession.run ClientSession.numberConfig nestedSession).buffer = .ok request b' ∧ ∃ taskIdOf,
      SameMeaning (fun _ values => some values.sum) (storedNumber b') PyObject.number nestedGraph ["sum", "one"] request
        taskIdOf := by
  obtain ⟨request, b', hrun, hserialized, huploaded⟩ := nestedRun_faithful
  have hids : Function.Injective numberContext.generateTaskId := fun n n' h => congrArg TaskID.bytes h
  have hlive : ∀ culled, cullGraph lastOrder nestedGraph ["sum", "one"] = .ok culled →
      ∀ obj ∈ ClientCall.nodeObjects culled, obj ∈ (ClientSession.run ClientSession.numberConfig nestedSession).live := by
    have hall : (cullGraph lastOrder nestedGraph ["sum", "one"]).toOption.all (fun culled =>
        (ClientCall.nodeObjects culled).all fun obj =>
          decide (obj ∈ (ClientSession.run ClientSession.numberConfig nestedSession).live)) = true := by decide +kernel
    intro culled hculled obj hobj
    rw [hculled] at hall
    exact of_decide_eq_true (List.all_eq_true.mp hall obj hobj)
  exact ⟨request, b', hrun, get_keeps_meaning _ _ _ payloadNumber lastOrder nestedGraph ClientSession.numberConfig_reliable
    numberContext ["sum", "one"] false ClientSession.willingAgent nestedSession hids ⟨rfl, rfl, rfl, trivial⟩ hlive hrun
    hserialized huploaded⟩

/-- A number and a call that needs itself: `get` raises after the number was buffered. -/
def cyclicGraph : List (String × GraphNode) :=
  [("one", .object ⟨1, 32, false⟩), ("loop", .call ⟨0, 16, true⟩ [some "one", some "loop"])]

/-- The number is freed and another one gets its address. -/
def raisingSession : List SessionEvent :=
  [.allocate 16 true, .allocate 32 false, .call (.get cyclicGraph ["loop"] false ClientSession.willingAgent),
    .free ⟨1, 32, false⟩, .allocate 32 false]

def copyGraph : Dict String GraphNode where
  entries := [("two", .object ⟨2, 32, false⟩), ("copy", .call ⟨0, 16, true⟩ [some "two"])]
  nodup := by decide

/-- The request for the copy. Its argument is the object 1, which was uploaded for the freed number. -/
def copyRequest : GraphRequest :=
  ⟨⟨⟨0⟩, ⟨7⟩, [⟨1⟩], [⟨⟨1⟩, ⟨7⟩, [], ⟨2⟩, [.objectID ⟨1⟩], []⟩]⟩, [("copy", .computed ⟨1⟩)]⟩

theorem copyRun : ∃ b', (numberGet copyGraph ["copy"]).run
    (ClientSession.run ClientSession.numberConfig raisingSession).buffer = .ok copyRequest b' ∧ Faithful b' ∧
      storedNumber b' ⟨1⟩ = 1 := by
  have hall : (match (numberGet copyGraph ["copy"]).run (ClientSession.run ClientSession.numberConfig raisingSession).buffer with
      | .ok request b' => decide (request = copyRequest) && decide (Faithful b') && decide (storedNumber b' ⟨1⟩ = 1)
      | .error _ _ => false) = true := by decide +kernel
  cases hrun : (numberGet copyGraph ["copy"]).run (ClientSession.run ClientSession.numberConfig raisingSession).buffer with
  | ok request b' =>
    rw [hrun] at hall
    simp only [Bool.and_eq_true, decide_eq_true_eq] at hall
    obtain ⟨⟨rfl, hfaithful⟩, hstored⟩ := hall
    exact ⟨b', rfl, hfaithful, hstored⟩
  | error e b' =>
    rw [hrun] at hall
    cases hall

/-- The task of the next graph gets what was serialized from the freed number. -/
theorem freed_node_substituted : ∃ request b',
    (numberGet copyGraph ["copy"]).run (ClientSession.run ClientSession.numberConfig raisingSession).buffer =
      .ok request b' ∧ Faithful b' ∧
      ¬ ∃ taskIdOf, SameMeaning (fun _ values => some values.sum) (storedNumber b') PyObject.number copyGraph ["copy"]
        request taskIdOf := by
  obtain ⟨b', hrun, hfaithful, hstored⟩ := copyRun
  refine ⟨copyRequest, b', hrun, hfaithful, ?_⟩
  rintro ⟨taskIdOf, hsame⟩
  have htarget : taskIdOf "copy" = ⟨1⟩ := (List.cons.inj hsame.targets).1.symm
  obtain ⟨result, ⟨-, depth, hcall⟩, -, depth', htask⟩ :=
    hsame.values "copy" List.mem_cons_self ⟨0, 16, true⟩ [some "two"] rfl
  have htwo : result = .ok 2 := (hcall (depth + 1) (Nat.le_succ _)).symm
  have hone : result = .ok (storedNumber b' ⟨1⟩ + 0) := by
    rw [← htask (depth' + 1) (Nat.le_succ _), htarget]
    rfl
  rw [htwo, hstored] at hone
  cases hone

end Example

end Client

end Scaler
