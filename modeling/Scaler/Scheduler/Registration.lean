import Scaler.Coroutine.Alone
import Scaler.Scheduler.GraphNodes

/-! What `__add_new_graph` does to one message when no other coroutine runs in between. It writes two maps
before the sorter may reject the graph, and a third one before it finds that a dependency is missing. -/

namespace Scaler

open Collections Coroutine

namespace NewGraph

/-- A node is the last task of the message that has its id. -/
structure Reads (tasks : List Task) (n : NewGraph) : Prop where
  node : ∀ t info, n.tasks.get? t = some info → info.task.taskId = t ∧ info.task ∈ tasks
  required : ∀ t, n.graph.get? t = (n.tasks.get? t).map (·.task.requiredTaskIds)
  isNode : ∀ task ∈ tasks, ∃ info, n.tasks.get? task.taskId = some info

theorem reads_ofTasks (tasks : List Task) : Reads tasks (ofTasks tasks) := by
  induction tasks using List.reverseRecOn with
  | nil =>
    refine ⟨fun t info h => ?_, fun t => rfl, fun task h => absurd h List.not_mem_nil⟩
    cases h
  | append_singleton tasks task ih =>
    have hofTasks : ofTasks (tasks ++ [task]) = (ofTasks tasks).addTask task := by
      rw [ofTasks, List.foldl_append]
      rfl
    rw [hofTasks]
    refine ⟨fun t info hinfo => ?_, fun t => ?_, fun task' htask' => ?_⟩
    · change ((ofTasks tasks).tasks.set task.taskId ⟨.inactive, task, []⟩).get? t = some info at hinfo
      rw [Dict.get?_set] at hinfo
      split at hinfo
      · next heq =>
        obtain rfl := Option.some.inj hinfo
        exact ⟨heq.symm, List.mem_append_right _ (List.mem_singleton_self _)⟩
      · obtain ⟨hid, hmem⟩ := ih.node t info hinfo
        exact ⟨hid, List.mem_append_left _ hmem⟩
    · change ((ofTasks tasks).graph.set task.taskId task.requiredTaskIds).get? t =
        (((ofTasks tasks).tasks.set task.taskId ⟨.inactive, task, []⟩).get? t).map (·.task.requiredTaskIds)
      rw [Dict.get?_set, Dict.get?_set, ih.required]
      split <;> rfl
    · change ∃ info, ((ofTasks tasks).tasks.set task.taskId ⟨.inactive, task, []⟩).get? task'.taskId = some info
      rw [Dict.get?_set]
      split
      · exact ⟨_, rfl⟩
      · next hne =>
        rcases List.mem_append.mp htask' with hold | hnew
        · exact ih.isNode task' hold
        · exact absurd (congrArg Task.taskId (List.mem_singleton.mp hnew)) hne

end NewGraph

namespace GraphTask

variable {gt : GraphTask}

/-- `d` is among the dependencies of the node `t`. -/
def Edge (gt : GraphTask) (t d : TaskID) : Prop := ∃ ds, (NewGraph.ofTasks gt.graph).graph.get? t = some ds ∧ d ∈ ds

def Acyclic (gt : GraphTask) : Prop := ∀ t, ¬ Relation.TransGen gt.Edge t t

/-- Every dependency is a node of the graph. -/
def Closed (gt : GraphTask) : Prop := ∀ t d, gt.Edge t d → ∃ task ∈ gt.graph, task.taskId = d

/-- The node `t` has no dependencies: it is the first one to be submitted. -/
def First (gt : GraphTask) (task : Task) : Prop :=
  (∃ info, (NewGraph.ofTasks gt.graph).tasks.get? task.taskId = some info ∧ info.task = task) ∧ task.requiredTaskIds = []

/-- The sorter of the graph before `prepare`. -/
def sorter (gt : GraphTask) : TopologicalSorter TaskID := TopologicalSorter.ofGraph (NewGraph.ofTasks gt.graph).graph.entries

theorem mem_matrix_sorter {t d : TaskID} : (t, d) ∈ gt.sorter.matrix ↔ gt.Edge t d := by
  rw [sorter, TopologicalSorter.mem_matrix_ofGraph]
  constructor
  · rintro ⟨⟨t', ds⟩, hentry, rfl, hd⟩
    exact ⟨ds, (Dict.mem_entries _ _ _).mp hentry, hd⟩
  · rintro ⟨ds, hget, hd⟩
    exact ⟨(t, ds), (Dict.mem_entries _ _ _).mpr hget, rfl, hd⟩

theorem mem_keys_sorter {t : TaskID} :
    t ∈ gt.sorter.keys ↔ (∃ task ∈ gt.graph, task.taskId = t) ∨ ∃ t', gt.Edge t' t := by
  have hreads := NewGraph.reads_ofTasks gt.graph
  rw [sorter, TopologicalSorter.mem_keys_ofGraph]
  constructor
  · rintro ⟨⟨t', ds⟩, hentry, hor⟩
    have hget := (Dict.mem_entries _ _ _).mp hentry
    rcases hor with rfl | hd
    · rw [hreads.required] at hget
      obtain ⟨info, hinfo, -⟩ := Option.map_eq_some_iff.mp hget
      obtain ⟨hid, hmem⟩ := hreads.node _ _ hinfo
      exact .inl ⟨info.task, hmem, hid⟩
    · exact .inr ⟨t', ds, hget, hd⟩
  · rintro (⟨task, htask, rfl⟩ | ⟨t', ds, hget, hd⟩)
    · obtain ⟨info, hinfo⟩ := hreads.isNode task htask
      refine ⟨(task.taskId, info.task.requiredTaskIds), (Dict.mem_entries _ _ _).mpr ?_, .inl rfl⟩
      rw [hreads.required, hinfo]
      rfl
    · exact ⟨(t', ds), (Dict.mem_entries _ _ _).mpr hget, .inr hd⟩

theorem hasCycle_sorter : gt.sorter.hasCycle = false ↔ gt.Acyclic := by
  rw [Bool.eq_false_iff, Ne, sorter, TopologicalSorter.hasCycle_iff (TopologicalSorter.closed_ofGraph _), not_exists]
  refine forall_congr' fun t => not_congr ?_
  have hedge : (fun x y => (x, y) ∈ gt.sorter.matrix) = gt.Edge := by
    funext x y
    exact propext mem_matrix_sorter
  exact iff_of_eq (congrArg (fun r => Relation.TransGen r t t) hedge)

theorem prepare_cyclic (h : ¬ gt.Acyclic) : (NewGraph.ofTasks gt.graph).prepare = .error .cycleError := by
  have hcycle : gt.sorter.hasCycle = true := by
    rw [← Bool.not_eq_false, hasCycle_sorter]
    exact h
  have hprepare : gt.sorter.prepare.1 = .error .cycleError := by rw [TopologicalSorter.prepare_eq rfl, if_pos hcycle]
  exact (NewGraph.prepare_eq _).trans (congrArg (Except.map fun _ => gt.sorter.prepare.2) hprepare)

theorem prepare_acyclic (h : gt.Acyclic) : (NewGraph.ofTasks gt.graph).prepare = .ok gt.sorter.prepare.2 := by
  have hprepare : gt.sorter.prepare.1 = .ok () := by
    rw [TopologicalSorter.prepare_eq rfl, hasCycle_sorter.mpr h, if_neg Bool.false_ne_true]
  exact (NewGraph.prepare_eq _).trans (congrArg (Except.map fun _ => gt.sorter.prepare.2) hprepare)

/-- The nodes the sorter hands out first. -/
theorem mem_first_ready {t : TaskID} :
    t ∈ gt.sorter.prepare.2.readyNodes.getD [] ↔ t ∈ gt.sorter.keys ∧ ∀ d, ¬ gt.Edge t d := by
  rw [TopologicalSorter.prepare_eq rfl]
  change t ∈ [] ++ TopologicalSorter.getZeroDegreeKeys { gt.sorter with doneKeys := [], visited := [] } ↔ _
  rw [List.nil_append, TopologicalSorter.mem_getZeroDegreeKeys fun k hk => absurd hk List.not_mem_nil]
  refine and_congr_right fun _ => ?_
  rw [and_iff_left List.not_mem_nil, TopologicalSorter.zeroDegree, List.all_eq_true]
  constructor
  · intro hall d hd
    simpa using hall (t, d) (mem_matrix_sorter.mpr hd)
  · rintro hnone ⟨t', d⟩ hmem
    have hne : t' ≠ t := fun heq => hnone d (mem_matrix_sorter.mp (heq ▸ hmem))
    simpa using hne

theorem dependencies_nil {t : TaskID} {info : TaskInfo} (hinfo : (NewGraph.ofTasks gt.graph).tasks.get? t = some info)
    (hnone : ∀ d, ¬ gt.Edge t d) : info.task.requiredTaskIds = [] := by
  refine List.eq_nil_iff_forall_not_mem.mpr fun d hd => hnone d ⟨info.task.requiredTaskIds, ?_, hd⟩
  rw [(NewGraph.reads_ofTasks gt.graph).required, hinfo]
  rfl

theorem First.mem_ready {task : Task} (h : gt.First task) : task.taskId ∈ gt.sorter.prepare.2.readyNodes.getD [] := by
  have hreads := NewGraph.reads_ofTasks gt.graph
  obtain ⟨⟨info, hinfo, rfl⟩, hnil⟩ := h
  refine mem_first_ready.mpr ⟨mem_keys_sorter.mpr (.inl ⟨info.task, (hreads.node _ _ hinfo).2, rfl⟩), ?_⟩
  rintro d ⟨ds, hget, hd⟩
  rw [hreads.required, hinfo, Option.map_some, hnil] at hget
  exact absurd (Option.some.inj hget ▸ hd) List.not_mem_nil

/-- The nodes handed out first are all nodes of the message, and accepted, when it is closed. -/
theorem first_accepted_iff {refuses : Task → Option Exn} :
    (∀ t ∈ gt.sorter.prepare.2.readyNodes.getD [], ∃ info, (NewGraph.ofTasks gt.graph).tasks.get? t = some info ∧
        refuses info.task = none) ↔
      gt.Closed ∧ ∀ task, gt.First task → refuses task = none := by
  have hreads := NewGraph.reads_ofTasks gt.graph
  constructor
  · intro hall
    refine ⟨fun t d hedge => ?_, ?_⟩
    · by_contra hno
      have hleaf : ∀ d', ¬ gt.Edge d d' := by
        rintro d' ⟨ds, hget, -⟩
        rw [hreads.required] at hget
        obtain ⟨info, hinfo, -⟩ := Option.map_eq_some_iff.mp hget
        exact hno ⟨info.task, (hreads.node d info hinfo).2, (hreads.node d info hinfo).1⟩
      obtain ⟨info, hinfo, -⟩ := hall d (mem_first_ready.mpr ⟨mem_keys_sorter.mpr (.inr ⟨t, hedge⟩), hleaf⟩)
      exact hno ⟨info.task, (hreads.node d info hinfo).2, (hreads.node d info hinfo).1⟩
    · intro task hfirst
      obtain ⟨info', hinfo', haccepts⟩ := hall task.taskId hfirst.mem_ready
      obtain ⟨⟨info, hinfo, rfl⟩, -⟩ := hfirst
      rwa [Option.some.inj (hinfo.symm.trans hinfo')]
  · rintro ⟨hclosed, haccepts⟩ t ht
    obtain ⟨hkey, hleaf⟩ := mem_first_ready.mp ht
    have hnode : ∃ task ∈ gt.graph, task.taskId = t :=
      (mem_keys_sorter.mp hkey).elim id fun ⟨t', hedge⟩ => hclosed t' t hedge
    obtain ⟨task, htask, rfl⟩ := hnode
    obtain ⟨info, hinfo⟩ := hreads.isNode task htask
    have hid := (hreads.node _ _ hinfo).1
    refine ⟨info, hinfo, haccepts info.task ⟨⟨info, ?_, rfl⟩, dependencies_nil hinfo hleaf⟩⟩
    rwa [hid]

end GraphTask

section Alone

variable {call : Proc → Sched → Option Exn × Sched}

theorem alone_syncNoting {α : Type} (o : Obs) (f : Sched → Except Exn α × Sched) (s : Sched) :
    (syncNoting o f).alone call s = ((f s).1, match (f s).1 with
      | .ok _ => (f s).2
      | .error _ => (f s).2.note o) := by
  rw [syncNoting, Coro.alone]
  cases (f s).1 <;> rfl

theorem alone_index {α : Type} {f : Sched → Option α} {s : Sched} {a : α} (h : f s = some a) :
    (index f).alone call s = (.ok a, s) := by
  rw [index, Coro.alone, h]
  rfl

theorem alone_addNodes (g : TaskID) (tasks : List Task) (n : NewGraph) (s : Sched) :
    (addNodes g tasks n).alone call s = (.ok (tasks.foldl NewGraph.addTask n),
      { s with taskIdToGraphTaskId := tasks.foldl (fun d task => d.set task.taskId g) s.taskIdToGraphTaskId }) := by
  induction tasks generalizing n s with
  | nil => rfl
  | cons task tasks ih => exact ih _ _

theorem argumentObjects_self {g : Option Graph} {as : List Argument} (h : ∀ d, .task d ∉ as) :
    Graph.argumentObjects g as = .ok as := by
  induction as with
  | nil => rfl
  | cons a as ih =>
    cases a with
    | task d => exact absurd List.mem_cons_self (h d)
    | objectID id =>
      rw [Graph.argumentObjects, ih fun d hd => h d (List.mem_cons_of_mem _ hd)]
      rfl

/-- How `on_task_new` ends for the nodes it is given; it leaves the graphs alone. -/
structure TakesNodes (call : Proc → Sched → Option Exn × Sched) (refuses : Task → Option Exn) : Prop where
  outcome : ∀ task s, (call (.onTaskNew task) s).1 = refuses task
  graphs : ∀ task s, (call (.onTaskNew task) s).2.graphView = s.graphView
  trace : ∀ task s, s.trace <:+ (call (.onTaskNew task) s).2.trace

variable {refuses : Task → Option Exn} {gt : GraphTask} {client : ClientID} {ref : Nat} {s : Sched}

/-- The graph was registered, and its first nodes are being submitted. -/
structure Submitting (gt : GraphTask) (ref : Nat) (s : Sched) : Prop where
  registered : s.graphTaskIdToGraph.get? gt.taskId = some ref
  tasks : ∀ t, ((s.graphs ref).tasks.get? t).map (·.task) = ((NewGraph.ofTasks gt.graph).tasks.get? t).map (·.task)

theorem Submitting.submitNode_cases (h : Submitting gt ref s) {t : TaskID} (hleaf : ∀ d, ¬ gt.Edge t d) :
    ((NewGraph.ofTasks gt.graph).tasks.get? t = none ∧ s.submitNode gt.taskId ref t = (.error .keyError, s)) ∨
      ∃ info s', (NewGraph.ofTasks gt.graph).tasks.get? t = some info ∧ s.submitNode gt.taskId ref t = (.ok info.task, s') ∧
        Submitting gt ref s' ∧ s'.trace = .submitted gt.taskId info.task :: s.trace := by
  have htasks := h.tasks t
  cases hinfo : (s.graphs ref).tasks.get? t with
  | none =>
    rw [hinfo, Option.map_none, eq_comm, Option.map_eq_none_iff] at htasks
    refine .inl ⟨htasks, ?_⟩
    rw [Sched.submitNode, hinfo]
  | some info =>
    rw [hinfo, Option.map_some, eq_comm, Option.map_eq_some_iff] at htasks
    obtain ⟨node, hnode, hsame⟩ := htasks
    have hnil := GraphTask.dependencies_nil hnode hleaf
    have hobjects : ∀ d, .task d ∉ info.task.functionArgs := by
      intro d hd
      rw [← Task.mem_requiredTaskIds, ← hsame, hnil] at hd
      exact absurd hd List.not_mem_nil
    set g' : Graph := { (s.graphs ref).setInfo t ({ · with state := .running }) with
      runningTaskIds := (s.graphs ref).runningTaskIds.insert t } with hg'
    have hsubmit : s.submitNode gt.taskId ref t = (.ok info.task, (s.setGraph ref g').note (.submitted gt.taskId info.task)) := by
      rw [Sched.submitNode, hinfo]
      dsimp only
      rw [argumentObjects_self hobjects]
    refine .inr ⟨node, (s.setGraph ref g').note (.submitted gt.taskId info.task), hnode, hsame ▸ hsubmit,
      ⟨h.registered, fun t' => ?_⟩, by rw [hsame]; rfl⟩
    change ((Function.update s.graphs ref g' ref).tasks.get? t').map _ = _
    rw [Function.update_self, ← h.tasks, hg', Graph.get?_setInfo]
    split
    · rw [Option.map_map]
      rfl
    · rfl

theorem Submitting.of_graphView (h : Submitting gt ref s) {s' : Sched} (hview : s'.graphView = s.graphView) : Submitting gt ref s' := by
  have hrefs : s'.graphTaskIdToGraph = s.graphTaskIdToGraph := congrArg GraphView.graphTaskIdToGraph hview
  have hgraphs : s'.graphs = s.graphs := congrArg GraphView.graphs hview
  exact ⟨hrefs ▸ h.registered, hgraphs ▸ h.tasks⟩

/-- The loop of `__check_one_graph` over the nodes without dependencies. -/
theorem Submitting.forEach (hcall : TakesNodes call refuses) {ts : List TaskID} (h : Submitting gt ref s)
    (hleaf : ∀ t ∈ ts, ∀ d, ¬ gt.Edge t d) {x : Except Exn Unit} {s' : Sched}
    (hrun : (Coro.forEach ts (Scaler.submitNode gt.taskId ref)).alone call s = (x, s')) :
    s'.graphTaskIdToGraph.get? gt.taskId = some ref ∧ s.trace <:+ s'.trace ∧
      (x = .ok () ↔ ∀ t ∈ ts, ∃ info, (NewGraph.ofTasks gt.graph).tasks.get? t = some info ∧ refuses info.task = none) ∧
      (x = .ok () → ∀ t ∈ ts, ∀ info, (NewGraph.ofTasks gt.graph).tasks.get? t = some info →
        .submitted gt.taskId info.task ∈ s'.trace) := by
  induction ts generalizing s with
  | nil =>
    obtain ⟨rfl, rfl⟩ := Prod.mk.inj hrun.symm
    refine ⟨h.registered, List.suffix_rfl, ?_, ?_⟩
    · exact ⟨fun _ t ht => absurd ht List.not_mem_nil, fun _ => rfl⟩
    · exact fun _ t ht => absurd ht List.not_mem_nil
  | cons t ts ih =>
    have hleafs : ∀ t ∈ ts, ∀ d, ¬ gt.Edge t d := fun t' ht' => hleaf t' (List.mem_cons_of_mem _ ht')
    change (Scaler.submitNode gt.taskId ref t >>= fun _ => Coro.forEach ts (Scaler.submitNode gt.taskId ref)).alone call s = _ at hrun
    obtain ⟨hnone, hsubmit⟩ | ⟨info, s₁, hinfo, hsubmit, hnext, htrace⟩ := h.submitNode_cases (hleaf t List.mem_cons_self)
    · have hone : (Scaler.submitNode gt.taskId ref t).alone call s = (.error .keyError, s.note (.submitFailed gt.taskId t)) := by
        refine Coro.alone_bind_error ?_
        rw [alone_syncNoting, hsubmit]
      rw [Coro.alone_bind_error hone] at hrun
      obtain ⟨rfl, rfl⟩ := Prod.mk.inj hrun.symm
      have hfails : Except.error Exn.keyError ≠ (Except.ok () : Except Exn Unit) := by simp
      refine ⟨h.registered, List.suffix_cons _ _, ⟨fun hok => absurd hok hfails, fun hall => ?_⟩, fun hok => absurd hok hfails⟩
      obtain ⟨info, hinfo, -⟩ := hall t List.mem_cons_self
      rw [hnone] at hinfo
      cases hinfo
    · have hone : (syncNoting (.submitFailed gt.taskId t) (·.submitNode gt.taskId ref t)).alone call s = (.ok info.task, s₁) := by
        rw [alone_syncNoting, hsubmit]
      have hbody : (Scaler.submitNode gt.taskId ref t).alone call s = (Coro.run (.onTaskNew info.task) : M Unit).alone call s₁ :=
        Coro.alone_bind_ok hone
      have hoff := hnext.of_graphView (hcall.graphs info.task s₁)
      have hgrow : s.trace <:+ (call (.onTaskNew info.task) s₁).2.trace := by
        refine List.IsSuffix.trans ?_ (hcall.trace info.task s₁)
        rw [htrace]
        exact List.suffix_cons _ _
      have hsubmitted : .submitted gt.taskId info.task ∈ (call (.onTaskNew info.task) s₁).2.trace := by
        refine (hcall.trace info.task s₁).subset ?_
        rw [htrace]
        exact List.mem_cons_self
      cases hrefuses : refuses info.task with
      | some e =>
        rw [Coro.alone_run_some ((hcall.outcome info.task s₁).trans hrefuses)] at hbody
        rw [Coro.alone_bind_error hbody] at hrun
        obtain ⟨rfl, rfl⟩ := Prod.mk.inj hrun.symm
        have hfails : Except.error e ≠ (Except.ok () : Except Exn Unit) := by simp
        refine ⟨hoff.registered, hgrow, ⟨fun hok => absurd hok hfails, fun hall => ?_⟩, fun hok => absurd hok hfails⟩
        obtain ⟨info', hinfo', haccepts⟩ := hall t List.mem_cons_self
        obtain rfl := Option.some.inj (hinfo.symm.trans hinfo')
        rw [haccepts] at hrefuses
        cases hrefuses
      | none =>
        rw [Coro.alone_run_none ((hcall.outcome info.task s₁).trans hrefuses)] at hbody
        rw [Coro.alone_bind_ok hbody] at hrun
        obtain ⟨hregistered, hmore, hiff, hall⟩ := ih hoff hleafs hrun
        refine ⟨hregistered, hgrow.trans hmore, hiff.trans ⟨fun hrest t' ht' => ?_, fun hrest t' ht' => ?_⟩, fun hok t' ht' => ?_⟩
        · rcases List.mem_cons.mp ht' with rfl | ht'
          · exact ⟨info, hinfo, hrefuses⟩
          · exact hrest t' ht'
        · exact hrest t' (List.mem_cons_of_mem _ ht')
        · rcases List.mem_cons.mp ht' with rfl | ht'
          · intro info' hinfo'
            obtain rfl := Option.some.inj (hinfo.symm.trans hinfo')
            exact hmore.subset hsubmitted
          · exact hall hok t' ht'

theorem popGraph_registered {g : TaskID} (hregistered : s.graphTaskIdToGraph.get? g = some ref)
    (hid : s.taskIdToGraphTaskId.contains g = true) :
    ∃ info, (s.popGraph g).1 = .ok info ∧ (s.popGraph g).2.trace = s.trace := by
  have hview := congrArg Prod.fst (s.offTask_onTaskFinish g)
  have hids : (s.onTaskFinish g).taskIdToGraphTaskId = s.taskIdToGraphTaskId := congrArg GraphView.taskIdToGraphTaskId hview
  have hrefs : (s.onTaskFinish g).graphTaskIdToGraph = s.graphTaskIdToGraph := congrArg GraphView.graphTaskIdToGraph hview
  have hgraph : Sched.graph? { s.onTaskFinish g with taskIdToGraphTaskId := (s.onTaskFinish g).taskIdToGraphTaskId.erase g } g =
      some ((s.onTaskFinish g).graphs ref) := by
    rw [Sched.graph?, hrefs, hregistered]
    rfl
  rw [Sched.popGraph, hids, hid, if_neg (by simp)]
  rw [hids] at hgraph
  dsimp only
  rw [hgraph]
  exact ⟨_, rfl, s.trace_onTaskFinish g⟩

/-- `__check_one_graph` of the graph that was just registered. -/
theorem checkOneGraph_alone (hcall : TakesNodes call refuses) (h : Submitting gt ref s)
    (hsorter : (s.graphs ref).sorter = gt.sorter.prepare.2) (hid : s.taskIdToGraphTaskId.contains gt.taskId = true)
    {x : Except Exn Unit} {s' : Sched} (hrun : (checkOneGraph gt.taskId).alone call s = (x, s')) :
    (x = .ok () ∧ gt.Closed ∧ (∀ task, gt.First task → refuses task = none) ∧ s.trace <:+ s'.trace ∧
        ∀ task, gt.First task → .submitted gt.taskId task ∈ s'.trace) ∨
      ((∃ e, x = .error e) ∧ ¬ (gt.Closed ∧ ∀ task, gt.First task → refuses task = none) ∧
        s'.graphTaskIdToGraph.get? gt.taskId = some ref) := by
  have hindex : (index fun s : Sched => s.graphTaskIdToGraph.get? gt.taskId).alone call s = (.ok ref, s) := alone_index h.registered
  have hactive : (Coro.reads fun s : Sched => (s.graphs ref).sorter.isActive : M Bool).alone call s =
      (.ok gt.sorter.prepare.2.isActive, s) := by
    rw [← hsorter]
    rfl
  rw [checkOneGraph, Coro.alone_bind_ok hindex, Coro.alone_bind_ok hactive] at hrun
  by_cases hdone : gt.sorter.prepare.2.isActive = false
  · left
    have hready : gt.sorter.prepare.2.readyNodes.getD [] = [] := by
      rw [TopologicalSorter.isActive, Bool.or_eq_false_iff, Bool.not_eq_false', List.isEmpty_iff] at hdone
      exact hdone.2
    have hfirst : ∀ t ∈ gt.sorter.prepare.2.readyNodes.getD [], ∃ info,
        (NewGraph.ofTasks gt.graph).tasks.get? t = some info ∧ refuses info.task = none :=
      fun t ht => absurd (hready ▸ ht) List.not_mem_nil
    obtain ⟨hclosed, haccepts⟩ := GraphTask.first_accepted_iff.mp hfirst
    obtain ⟨info, hpop, htrace⟩ := popGraph_registered h.registered hid
    have hone : (syncNoting (.popFailed gt.taskId) (·.popGraph gt.taskId)).alone call s = (.ok info, (s.popGraph gt.taskId).2) := by
      rw [alone_syncNoting, hpop]
    have hdoneUmbrella : (doneGraphUmbrellaTask gt.taskId .success).alone call s =
        (.ok (), (s.popGraph gt.taskId).2.noteSent (.client info.client) (.taskResult ⟨gt.taskId, .success, [], []⟩)) := by
      rw [doneGraphUmbrellaTask, Coro.alone_bind_ok hone]
      rfl
    rw [hdone, if_pos (by rfl), hdoneUmbrella] at hrun
    obtain ⟨rfl, rfl⟩ := Prod.mk.inj hrun.symm
    refine ⟨rfl, hclosed, haccepts, ?_, fun task htask => ?_⟩
    · rw [← htrace]
      exact List.suffix_cons _ _
    · exact absurd (hready ▸ htask.mem_ready) List.not_mem_nil
  · obtain ⟨ready, hready⟩ := Option.isSome_iff_exists.mp gt.sorter.readyNodes_prepare
    have hget : (getReady ref).alone call s = (.ok ready, s.setGraph ref { s.graphs ref with
        sorter := { gt.sorter.prepare.2 with readyNodes := some [] } }) := by
      rw [getReady, withGraph, Coro.alone_sync, hsorter, TopologicalSorter.getReady, hready]
    rw [Bool.not_eq_false] at hdone
    rw [hdone, if_neg (by simp), Coro.alone_bind_ok hget] at hrun
    have hnext : Submitting gt ref (s.setGraph ref { s.graphs ref with
        sorter := { gt.sorter.prepare.2 with readyNodes := some [] } }) := by
      refine ⟨h.registered, fun t => ?_⟩
      rw [← h.tasks]
      change ((Function.update s.graphs ref _ ref).tasks.get? t).map _ = _
      rw [Function.update_self]
    have hfirst : ∀ t, t ∈ ready ↔ t ∈ gt.sorter.prepare.2.readyNodes.getD [] := fun t => by rw [hready, Option.getD_some]
    obtain ⟨hregistered, hgrow, hiff, hall⟩ :=
      hnext.forEach hcall (fun t ht => (GraphTask.mem_first_ready.mp ((hfirst t).mp ht)).2) hrun
    have haccepted : x = .ok () ↔ gt.Closed ∧ ∀ task, gt.First task → refuses task = none := by
      rw [hiff, ← GraphTask.first_accepted_iff]
      exact forall_congr' fun t => imp_congr_left (hfirst t)
    cases x with
    | ok =>
      obtain ⟨hclosed, haccepts⟩ := haccepted.mp rfl
      refine .inl ⟨rfl, hclosed, haccepts, hgrow, fun task htask => ?_⟩
      obtain ⟨⟨info, hinfo, rfl⟩, -⟩ := id htask
      exact hall rfl _ ((hfirst _).mpr htask.mem_ready) info hinfo
    | error e =>
      refine .inr ⟨⟨e, rfl⟩, fun hok => ?_, hregistered⟩
      cases haccepted.mpr hok

/-- None of the three maps tells that the message was there. -/
structure Untraced (s s' : Sched) : Prop where
  graphs : s'.graphTaskIdToGraph = s.graphTaskIdToGraph
  ids : s'.taskIdToGraphTaskId = s.taskIdToGraphTaskId
  clients : s'.clientToTaskIds = s.clientToTaskIds

/-- The graph is registered, and the nodes that can run are submitted. -/
structure Runs (gt : GraphTask) (s s' : Sched) : Prop where
  registered : .graphRegistered gt.taskId s.nextGraph ∈ s'.trace
  submitted : ∀ task, gt.First task → .submitted gt.taskId task ∈ s'.trace

/-- `__add_new_graph` did all of its work, or it failed and left no trace. -/
def AllOrNothing (gt : GraphTask) (s : Sched) (r : Except Exn Unit × Sched) : Prop :=
  r.1 = .ok () ∧ Runs gt s r.2 ∨ (∃ e, r.1 = .error e) ∧ Untraced s r.2

/-- The two maps that are written first have all the entries already. -/
structure Known (client : ClientID) (gt : GraphTask) (s : Sched) : Prop where
  client : s.clientToTaskIds.add client gt.taskId = (.ok (), s.clientToTaskIds)
  umbrella : s.taskIdToGraphTaskId.get? gt.taskId = some gt.taskId
  nodes : ∀ task ∈ gt.graph, s.taskIdToGraphTaskId.get? task.taskId = some gt.taskId

theorem addNewGraph_allOrNothing_iff (hcall : TakesNodes call refuses)
    (hnew : ∀ g, s.graphTaskIdToGraph.get? g ≠ some s.nextGraph) :
    AllOrNothing gt s ((addNewGraph client gt).alone call s) ↔
      (∃ owner, s.clientToTaskIds.getKey? gt.taskId = some owner ∧ owner ≠ client) ∨
        (gt.Acyclic ∧ gt.Closed ∧ ∀ task, gt.First task → refuses task = none) ∨ (¬ gt.Acyclic ∧ Known client gt s) := by
  by_cases hother : ∃ owner, s.clientToTaskIds.getKey? gt.taskId = some owner ∧ owner ≠ client
  · refine iff_of_true (.inr ?_) (.inl hother)
    have hrefused : s.onTaskBegin client gt.taskId = (.error .valueError, s) := by
      obtain ⟨owner, howner, hne⟩ := hother
      have hadd : s.clientToTaskIds.add client gt.taskId = (.error .valueError, s.clientToTaskIds) := by
        rw [OneToManyDict.add, if_pos]
        change (s.clientToTaskIds.getKey? gt.taskId).any _ = true
        rw [howner]
        exact decide_eq_true hne
      rw [Sched.onTaskBegin, hadd]
    have hone : (syncNoting (.graphRefused gt.taskId) (·.onTaskBegin client gt.taskId)).alone call s =
        (.error .valueError, s.note (.graphRefused gt.taskId)) := by
      rw [alone_syncNoting, hrefused]
    rw [addNewGraph, Coro.alone_bind_error hone]
    exact ⟨⟨_, rfl⟩, rfl, rfl, rfl⟩
  · have hadd : s.clientToTaskIds.add client gt.taskId = (.ok (), (s.clientToTaskIds.add client gt.taskId).2) := by
      rw [OneToManyDict.add, if_neg]
      intro hany
      obtain ⟨owner, howner, hne⟩ := (Option.any_eq_true _ _).mp hany
      exact hother ⟨owner, howner, of_decide_eq_true hne⟩
    set clients := (s.clientToTaskIds.add client gt.taskId).2 with hclients
    set ids := gt.graph.foldl (fun d task => d.set task.taskId gt.taskId) (s.taskIdToGraphTaskId.set gt.taskId gt.taskId) with hids
    have hbegin : (syncNoting (.graphRefused gt.taskId) (·.onTaskBegin client gt.taskId)).alone call s =
        (.ok (), { s with clientToTaskIds := clients }) := by
      rw [alone_syncNoting, Sched.onTaskBegin, hadd]
    have hnodes : (addNodes gt.taskId gt.graph ⟨Dict.empty, Dict.empty, .empty⟩).alone call
        { s with clientToTaskIds := clients, taskIdToGraphTaskId := s.taskIdToGraphTaskId.set gt.taskId gt.taskId } =
        (.ok (NewGraph.ofTasks gt.graph), { s with clientToTaskIds := clients, taskIdToGraphTaskId := ids }) :=
      alone_addNodes _ _ _ _
    have hentered : (addNewGraph client gt).alone call s =
        (do
          let sorter ← syncNoting (.graphRejected gt.taskId) fun s => ((NewGraph.ofTasks gt.graph).prepare, s)
          Coro.modify (·.registerGraph gt.taskId (Graph.ofTasks client gt sorter))
          checkOneGraph gt.taskId : M Unit).alone call { s with clientToTaskIds := clients, taskIdToGraphTaskId := ids } := by
      rw [addNewGraph, Coro.alone_bind_ok hbegin]
      exact Coro.alone_bind_ok hnodes
    rw [hentered]
    by_cases hacyclic : gt.Acyclic
    · have hprepare : (syncNoting (.graphRejected gt.taskId) fun s => ((NewGraph.ofTasks gt.graph).prepare, s)).alone call
          { s with clientToTaskIds := clients, taskIdToGraphTaskId := ids } =
          (.ok gt.sorter.prepare.2, { s with clientToTaskIds := clients, taskIdToGraphTaskId := ids }) := by
        rw [alone_syncNoting, GraphTask.prepare_acyclic hacyclic]
      set s₁ := Sched.registerGraph { s with clientToTaskIds := clients, taskIdToGraphTaskId := ids } gt.taskId
        (Graph.ofTasks client gt gt.sorter.prepare.2) with hs₁
      have hregister : (Coro.modify (·.registerGraph gt.taskId (Graph.ofTasks client gt gt.sorter.prepare.2)) : M Unit).alone call
          { s with clientToTaskIds := clients, taskIdToGraphTaskId := ids } = (.ok (), s₁) := rfl
      rw [Coro.alone_bind_ok hprepare, Coro.alone_bind_ok hregister]
      have hgraph : s₁.graphs s.nextGraph = Graph.ofTasks client gt gt.sorter.prepare.2 := Function.update_self _ _ _
      have hsubmitting : Submitting gt s.nextGraph s₁ := ⟨Dict.get?_set_self _ _ _, fun t => by rw [hgraph]; rfl⟩
      have hid : s₁.taskIdToGraphTaskId.contains gt.taskId = true := by
        change (ids.get? gt.taskId).isSome = true
        rw [hids, Dict.get?_foldl_set_const, Dict.get?_set_self]
        split <;> rfl
      obtain ⟨x, s', hrun⟩ : ∃ x s', (checkOneGraph gt.taskId).alone call s₁ = (x, s') := ⟨_, _, rfl⟩
      have hchecked := checkOneGraph_alone hcall hsubmitting (by rw [hgraph]; rfl) hid hrun
      rw [hrun]
      rcases hchecked with ⟨hok, hclosed, haccepts, hgrow, hsubmitted⟩ | ⟨⟨e, herror⟩, hnot, hregistered⟩
      · refine iff_of_true (.inl ⟨hok, hgrow.subset List.mem_cons_self, hsubmitted⟩) (.inr (.inl ⟨hacyclic, hclosed, haccepts⟩))
      · refine iff_of_false ?_ ?_
        · rintro (⟨hok, -⟩ | ⟨-, huntraced⟩)
          · rw [herror] at hok
            cases hok
          · rw [huntraced.graphs] at hregistered
            exact hnew _ hregistered
        · rintro (hrefused | ⟨-, hok⟩ | ⟨hcyclic, -⟩)
          · exact hother hrefused
          · exact hnot hok
          · exact hcyclic hacyclic
    · have hprepare : (syncNoting (.graphRejected gt.taskId) fun s => ((NewGraph.ofTasks gt.graph).prepare, s)).alone call
          { s with clientToTaskIds := clients, taskIdToGraphTaskId := ids } = (.error .cycleError,
            Sched.note { s with clientToTaskIds := clients, taskIdToGraphTaskId := ids } (.graphRejected gt.taskId)) := by
        rw [alone_syncNoting, GraphTask.prepare_cyclic hacyclic]
      rw [Coro.alone_bind_error hprepare]
      constructor
      · rintro (⟨hok, -⟩ | ⟨-, huntraced⟩)
        · cases hok
        · have hsame : ids = s.taskIdToGraphTaskId := huntraced.ids
          have hentry : ∀ t, (∃ task ∈ gt.graph, task.taskId = t) ∨ t = gt.taskId →
              s.taskIdToGraphTaskId.get? t = some gt.taskId := by
            intro t ht
            rw [← hsame, hids, Dict.get?_foldl_set_const, Dict.get?_set]
            by_cases hnode : ∃ task ∈ gt.graph, task.taskId = t
            · rw [if_pos hnode]
            · rw [if_neg hnode, if_pos (ht.resolve_left hnode)]
          have hclient : clients = s.clientToTaskIds := huntraced.clients
          rw [hclient] at hadd
          exact .inr (.inr ⟨hacyclic, hadd, hentry _ (.inr rfl), fun task htask => hentry _ (.inl ⟨task, htask, rfl⟩)⟩)
      · rintro (hrefused | ⟨hyes, -⟩ | ⟨-, hknown⟩)
        · exact absurd hrefused hother
        · exact absurd hyes hacyclic
        · have hclient : clients = s.clientToTaskIds := (Prod.mk.inj (hadd.symm.trans hknown.client)).2
          have hsame : ids = s.taskIdToGraphTaskId := by
            rw [hids, Dict.set_of_get? hknown.umbrella]
            exact (Dict.foldl_set_const_iff _ _ _ _).mpr hknown.nodes
          exact .inr ⟨⟨_, rfl⟩, rfl, hsame, hclient⟩

end Alone

end Scaler
