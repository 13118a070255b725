import Scaler.Scheduler.GraphNodes

/-! The results of a graph whose nodes all succeed. The controller deletes the result of a node when the
last node that names it among its arguments has reported, and then only. -/

namespace Scaler

open Collections

/-- What happens to the nodes of a graph, newest first in a history. -/
inductive NodeEvent where
  | submitted (task : Task)
  | reported (r : TaskResult) (deleted : List (TaskID × List ObjectID)) (error : Option Exn)

namespace NodeEvent

def result? : NodeEvent → Option TaskResult
  | .submitted _ => none
  | .reported r _ _ => some r

/-- The nodes whose results are deleted, with the objects. -/
def deleted : NodeEvent → List (TaskID × List ObjectID)
  | .submitted _ => []
  | .reported _ deleted _ => deleted

end NodeEvent

namespace IntermediateResults

def results (h : List NodeEvent) : List TaskResult := h.filterMap NodeEvent.result?

def Reported (h : List NodeEvent) (t : TaskID) : Prop := ∃ r ∈ results h, r.taskId = t

def Submitted (h : List NodeEvent) (t : TaskID) : Prop := ∃ task, .submitted task ∈ h ∧ task.taskId = t

/-- The scheduler while the nodes of a registered graph are handed out, submitted and report success, in
any order and with anything in between that leaves the graph alone. Nodes that were handed out wait for
`__check_one_graph` to submit them. -/
inductive Successes (client : ClientID) (gt : GraphTask) (ref : Nat) : Sched → List TaskID → List NodeEvent → Prop
  | register {s : Sched} {sorter} (hprepare : (NewGraph.ofTasks gt.graph).prepare = .ok sorter) (href : s.nextGraph = ref)
      (hids : ∀ task ∈ gt.graph, s.taskIdToGraphTaskId.get? task.taskId = some gt.taskId) :
    Successes client gt ref (s.registerGraph gt.taskId (Graph.ofTasks client gt sorter)) [] []
  | handOut {s handed h ready sorter} (hrun : Successes client gt ref s handed h)
      (href : s.graphTaskIdToGraph.get? gt.taskId = some ref) (hactive : (s.graphs ref).sorter.isActive = true)
      (hready : (s.graphs ref).sorter.getReady = (.ok ready, sorter)) :
    Successes client gt ref (s.setGraph ref { s.graphs ref with sorter := sorter }) (handed ++ ready) h
  | finish {s handed h} (hrun : Successes client gt ref s handed h)
      (href : s.graphTaskIdToGraph.get? gt.taskId = some ref) (hactive : (s.graphs ref).sorter.isActive = false) :
    Successes client gt ref (s.popGraph gt.taskId).2 handed h
  | submit {s s' handed h t task} (hrun : Successes client gt ref s handed h) (ht : t ∈ handed)
      (hsubmit : s.submitNode gt.taskId ref t = (.ok task, s')) :
    Successes client gt ref s' (handed.erase t) (.submitted task :: h)
  | submitFail {s s' handed h t e} (hrun : Successes client gt ref s handed h) (ht : t ∈ handed)
      (hsubmit : s.submitNode gt.taskId ref t = (.error e, s')) :
    Successes client gt ref s' (handed.erase t) h
  | report {s s' handed h r x g running undispatched deleted error} (hrun : Successes client gt ref s handed h)
      (hsubmitted : Submitted h r.taskId) (hsuccess : r.resultType = .success)
      (hgraph : (s.graphForSubtask r.taskId).isSome) (hdone : s.markNodeDone r = (x, s'))
      (htrace : s'.trace = .nodeDone g r running undispatched deleted error :: s.trace) :
    Successes client gt ref s' handed (.reported r deleted error :: h)
  | other {s s' handed h} (hrun : Successes client gt ref s handed h)
      (href : s'.graphTaskIdToGraph.get? gt.taskId = s.graphTaskIdToGraph.get? gt.taskId)
      (hgraph : s'.graphs ref = s.graphs ref)
      (hids : ∀ task ∈ gt.graph, s'.taskIdToGraphTaskId.get? task.taskId = s.taskIdToGraphTaskId.get? task.taskId) :
    Successes client gt ref s' handed h

/-- The argument `b` of the submitted task stands for the argument `a` of its node. -/
def Filled (before : List NodeEvent) : Argument → Argument → Prop
  | .objectID id, b => b = .objectID id
  | .task d, b => ∃ r ∈ results before, r.taskId = d ∧ ∃ o, r.results = [o] ∧ b = .objectID o

/-- What an event does after what happened before it. -/
def EventSound (gt : GraphTask) (before : List NodeEvent) : NodeEvent → Prop
  | .submitted task =>
    ∃ node ∈ gt.graph, node.taskId = task.taskId ∧ List.Forall₂ (Filled before) node.functionArgs task.functionArgs
  | .reported r deleted error =>
    error = none ∧ Submitted before r.taskId ∧ ¬ Reported before r.taskId ∧
      (∀ d, gt.DependsOn r.taskId d → Reported before d) ∧ (deleted.map Prod.fst).Nodup ∧
      ∀ d objs, (d, objs) ∈ deleted ↔ gt.DependsOn r.taskId d ∧ d ∉ gt.targets ∧
        (∀ t, gt.DependsOn t d → Reported before t ∨ t = r.taskId) ∧
        ∃ r' ∈ results before, r'.taskId = d ∧ objs = r'.results.dedup

def Sound (gt : GraphTask) : List NodeEvent → Prop
  | [] => True
  | event :: before => EventSound gt before event ∧ Sound gt before

/-- The graph after the history `h`, with the nodes `handed` to be submitted. -/
structure Progress (gt : GraphTask) (g : Graph) (handed : List TaskID) (h : List NodeEvent) : Prop where
  prepared : g.Prepared
  issuing : g.sorter.Issuing
  matrix : ∀ t d, (t, d) ∈ g.sorter.matrix ↔ gt.DependsOn t d
  doneKeys : ∀ t, t ∈ g.sorter.doneKeys ↔ Reported h t
  handed : ∀ t ∈ handed, t ∈ g.sorter.visited
  submitted : ∀ t, Submitted h t → t ∈ g.sorter.visited
  targets : g.targetTaskIds = gt.targets
  tasks : ∀ task ∈ gt.graph, ∃ info, g.tasks.get? task.taskId = some info ∧ info.task = task ∧
    ∀ r ∈ results h, r.taskId = task.taskId → info.resultObjectIds = r.results
  nodes : ∀ t info, g.tasks.get? t = some info → info.task ∈ gt.graph ∧ info.task.taskId = t
  depsWf : g.dependedTaskIdToTaskId.Wf
  pairs : ∀ d t, g.dependedTaskIdToTaskId.Pair d t ↔ gt.DependsOn t d ∧ ¬ Reported h t

/-- What the two maps of the controller say of the graph and its nodes. -/
structure Mapped (gt : GraphTask) (ref : Nat) (s : Sched) (h : List NodeEvent) : Prop where
  ids : ∀ task ∈ gt.graph, ∀ g, s.taskIdToGraphTaskId.get? task.taskId = some g → g = gt.taskId
  popped : ∀ task ∈ gt.graph, Reported h task.taskId → s.taskIdToGraphTaskId.get? task.taskId = none
  place : (s.graphTaskIdToGraph.get? gt.taskId = some ref ∧
      ∀ task ∈ gt.graph, ¬ Reported h task.taskId → s.taskIdToGraphTaskId.get? task.taskId = some gt.taskId) ∨
    s.graphTaskIdToGraph.get? gt.taskId = none ∧ ∀ t ∈ (s.graphs ref).sorter.visited, Reported h t

section Events

variable {gt : GraphTask} {h before : List NodeEvent} {t d : TaskID}

@[simp] theorem results_submitted (task : Task) : results (.submitted task :: h) = results h := rfl

@[simp] theorem results_reported (r : TaskResult) (deleted : List (TaskID × List ObjectID)) (error : Option Exn) :
    results (.reported r deleted error :: h) = r :: results h := rfl

@[simp] theorem reported_submitted (task : Task) : Reported (.submitted task :: h) t ↔ Reported h t := Iff.rfl

@[simp] theorem reported_reported (r : TaskResult) (deleted : List (TaskID × List ObjectID)) (error : Option Exn) :
    Reported (.reported r deleted error :: h) t ↔ r.taskId = t ∨ Reported h t := by
  rw [Reported, results_reported, List.exists_mem_cons_iff, Reported]

@[simp] theorem submitted_submitted (task : Task) : Submitted (.submitted task :: h) t ↔ task.taskId = t ∨ Submitted h t := by
  simp only [Submitted, List.mem_cons, NodeEvent.submitted.injEq, or_and_right, exists_or, exists_eq_left]

@[simp] theorem submitted_reported (r : TaskResult) (deleted : List (TaskID × List ObjectID)) (error : Option Exn) :
    Submitted (.reported r deleted error :: h) t ↔ Submitted h t := by
  simp only [Submitted, List.mem_cons, reduceCtorEq, false_or]

theorem dependsOn_iff (hnodup : (gt.graph.map (·.taskId)).Nodup) {node : Task} (hnode : node ∈ gt.graph) :
    gt.DependsOn node.taskId d ↔ .task d ∈ node.functionArgs := by
  constructor
  · rintro ⟨task, htask, heq, hd⟩
    rwa [← List.inj_on_of_nodup_map hnodup htask hnode heq]
  · exact fun hd => ⟨node, hnode, rfl, hd⟩

theorem Sound.node (hsound : Sound gt h) (hsubmitted : Submitted h t) : ∃ node ∈ gt.graph, node.taskId = t := by
  induction h with
  | nil =>
    obtain ⟨task, hmem, -⟩ := hsubmitted
    exact absurd hmem List.not_mem_nil
  | cons event before ih =>
    cases event with
    | submitted task =>
      rcases (submitted_submitted task).mp hsubmitted with rfl | hsubmitted
      · obtain ⟨node, hnode, hid, -⟩ := hsound.1
        exact ⟨node, hnode, hid⟩
      · exact ih hsound.2 hsubmitted
    | reported r deleted error => exact ih hsound.2 ((submitted_reported r deleted error).mp hsubmitted)

theorem Sound.submitted_of_reported (hsound : Sound gt h) (hreported : Reported h t) : Submitted h t := by
  induction h with
  | nil =>
    obtain ⟨r, hr, -⟩ := hreported
    exact absurd hr List.not_mem_nil
  | cons event before ih =>
    cases event with
    | submitted task => exact (submitted_submitted task).mpr (.inr (ih hsound.2 hreported))
    | reported r deleted error =>
      rw [submitted_reported]
      rcases (reported_reported r deleted error).mp hreported with rfl | hreported
      · exact hsound.1.2.1
      · exact ih hsound.2 hreported

theorem Sound.at (hsound : Sound gt h) {later : List NodeEvent} {event : NodeEvent} (hsplit : h = later ++ event :: before) :
    EventSound gt before event ∧ Sound gt before := by
  subst hsplit
  induction later with
  | nil => exact hsound
  | cons first later ih => exact ih hsound.2

end Events

section Steps

variable {gt : GraphTask} {g : Graph} {handed : List TaskID} {h : List NodeEvent}

theorem Progress.of_sorter (hp : Progress gt g handed h) {sorter : TopologicalSorter TaskID} {handed' : List TaskID}
    (hprepared : sorter.readyNodes.isSome) (hissuing : sorter.Issuing) (hvisited : sorter.visited = g.sorter.visited)
    (hdone : sorter.doneKeys = g.sorter.doneKeys) (hmatrix : sorter.matrix = g.sorter.matrix)
    (hhanded : ∀ t ∈ handed', t ∈ sorter.visited) : Progress gt { g with sorter := sorter } handed' h :=
  { hp with
    prepared := hprepared
    issuing := hissuing
    matrix := fun t d => by
      rw [hmatrix]
      exact hp.matrix t d
    doneKeys := fun t => by
      rw [hdone]
      exact hp.doneKeys t
    handed := hhanded
    submitted := fun t ht => by
      rw [hvisited]
      exact hp.submitted t ht }

/-- A node that was submitted reports. -/
theorem Progress.report (hnodup : (gt.graph.map (·.taskId)).Nodup) (hp : Progress gt g handed h) (hsound : Sound gt h)
    {r : TaskResult} (hsubmitted : Submitted h r.taskId) (hnew : ¬ Reported h r.taskId) :
    ∃ g' deleted, g.markNodeDone r = (.ok (), g', deleted) ∧ EventSound gt h (.reported r deleted none) ∧
      Progress gt g' handed (.reported r deleted none :: h) := by
  obtain ⟨node, hnode, hid⟩ := hsound.node hsubmitted
  obtain ⟨info, hinfo, rfl, -⟩ := hp.tasks node hnode
  rw [hid] at hinfo
  have hvisited := hp.submitted r.taskId hsubmitted
  have hdeps : ∀ d, d ∈ info.task.requiredTaskIds ↔ gt.DependsOn r.taskId d := by
    intro d
    rw [Task.mem_requiredTaskIds, ← hid, dependsOn_iff hnodup hnode]
  have hreported : ∀ d, gt.DependsOn r.taskId d → Reported h d := by
    intro d hd
    rw [← hp.doneKeys]
    exact hp.issuing.pred_done hvisited ((hp.matrix r.taskId d).mpr hd)
  have hne : ∀ d, Reported h d → d ≠ r.taskId := fun d hd heq => hnew (heq ▸ hd)
  set g₁ := g.setInfo r.taskId ({ · with resultObjectIds := r.results, state := Graph.nodeTaskState r.resultType }) with hg₁
  have htasks : ∀ d, d ≠ r.taskId → g₁.tasks.get? d = g.tasks.get? d := fun d hd => by rw [hg₁, Graph.get?_setInfo, if_neg hd]
  have hdepended : g₁.dependedTaskIdToTaskId = g.dependedTaskIdToTaskId := Graph.dependedTaskIdToTaskId_setInfo _ _ _
  have htargets : g₁.targetTaskIds = gt.targets := (Graph.targetTaskIds_setInfo _ _ _).trans hp.targets
  have hsorter : g₁.sorter = g.sorter := Graph.sorter_setInfo _ _ _
  have hnodupDeps : info.task.requiredTaskIds.Nodup := List.nodup_dedup _
  have hresult : ∀ d, Reported h d → ∃ info, g₁.tasks.get? d = some info ∧
      ∀ r' ∈ results h, r'.taskId = d → info.resultObjectIds = r'.results := by
    intro d hd
    obtain ⟨dep, hdep, hid'⟩ := hsound.node (hsound.submitted_of_reported hd)
    obtain ⟨info', hinfo', -, hobjects⟩ := hp.tasks dep hdep
    rw [hid'] at hinfo' hobjects
    exact ⟨info', (htasks d (hne d hd)).trans hinfo', hobjects⟩
  obtain ⟨deps, deleted, hclean, hwf, hpairs, hnodupDeleted, hdeleted⟩ :=
    Graph.cleanIntermediateResult_eq (t := r.taskId) hnodupDeps (g := g₁) (hdepended ▸ hp.depsWf)
      (fun d hd => by
        rw [hdepended, hp.pairs]
        exact ⟨(hdeps d).mp hd, hnew⟩)
      (fun d hd => by
        obtain ⟨info', hinfo', -⟩ := hresult d (hreported d ((hdeps d).mp hd))
        exact ⟨info', hinfo'⟩)
  obtain ⟨sorter, hdone, hissuing, hprepared, hmono, hdoneKeys, hmatrix⟩ :=
    hp.issuing.done hp.prepared hvisited (mt (hp.doneKeys r.taskId).mp hnew)
  refine ⟨{ g₁ with dependedTaskIdToTaskId := deps, sorter := sorter, runningTaskIds := g₁.runningTaskIds.erase r.taskId },
    deleted, ?_, ⟨rfl, hsubmitted, hnew, hreported, hnodupDeleted, ?_⟩, ?_⟩
  · rw [Graph.markNodeDone, hinfo]
    dsimp only
    rw [← hg₁, hclean]
    dsimp only
    rw [hsorter, hdone]
  · intro d objs
    rw [hdeleted, hdeps, htargets, hdepended]
    refine and_congr_right fun hd => and_congr_right fun _ => and_congr (forall_congr' fun t => ?_) ?_
    · rw [hp.pairs]
      tauto
    · obtain ⟨info', hinfo', hobjects⟩ := hresult d (hreported d hd)
      constructor
      · rintro ⟨info'', hinfo'', rfl⟩
        obtain rfl := Option.some.inj (hinfo'.symm.trans hinfo'')
        obtain ⟨r', hr', hid'⟩ := hreported d hd
        exact ⟨r', hr', hid', by rw [hobjects r' hr' hid']⟩
      · rintro ⟨r', hr', hid', rfl⟩
        exact ⟨info', hinfo', by rw [hobjects r' hr' hid']⟩
  · refine ⟨hprepared, hissuing, ?_, ?_, fun t ht => hmono t (hp.handed t ht), ?_, htargets, ?_, ?_, hwf, ?_⟩
    · intro t d
      dsimp only
      rw [hmatrix]
      exact hp.matrix t d
    · intro t
      dsimp only
      rw [hdoneKeys, List.mem_cons, hp.doneKeys, reported_reported, eq_comm]
    · intro t ht
      exact hmono t (hp.submitted t ((submitted_reported r deleted none).mp ht))
    · intro task htask
      dsimp only
      by_cases ht : task.taskId = r.taskId
      · obtain rfl := List.inj_on_of_nodup_map hnodup htask hnode (ht.trans hid.symm)
        have hget : g₁.tasks.get? info.task.taskId =
            some { info with resultObjectIds := r.results, state := Graph.nodeTaskState r.resultType } := by
          rw [hg₁, Graph.get?_setInfo, if_pos ht, hid, hinfo]
          rfl
        refine ⟨_, hget, rfl, fun r' hr' hr'id => ?_⟩
        rcases List.mem_cons.mp hr' with rfl | hr'
        · rfl
        · exact absurd ⟨r', hr', hr'id.trans ht⟩ hnew
      · obtain ⟨info', hinfo', heq, hobjects⟩ := hp.tasks task htask
        refine ⟨info', (htasks _ ht).trans hinfo', heq, fun r' hr' hr'id => ?_⟩
        rcases List.mem_cons.mp hr' with rfl | hr'
        · exact absurd hr'id.symm ht
        · exact hobjects r' hr' hr'id
    · intro t info' hinfo'
      dsimp only at hinfo'
      rw [hg₁, Graph.get?_setInfo] at hinfo'
      split at hinfo'
      · obtain ⟨old, hold, rfl⟩ := Option.map_eq_some_iff.mp hinfo'
        exact hp.nodes t old hold
      · exact hp.nodes t info' hinfo'
    · intro d t
      dsimp only
      rw [hpairs, hdepended, hp.pairs, hdeps, reported_reported]
      constructor
      · rintro ⟨⟨hd, hnot⟩, hrest⟩
        exact ⟨hd, fun hr => hr.elim (fun heq => hrest ⟨heq ▸ hd, heq.symm⟩) hnot⟩
      · rintro ⟨hd, hnot⟩
        exact ⟨⟨hd, fun hr => hnot (.inr hr)⟩, fun hr => hnot (.inl hr.2.symm)⟩

/-- `__check_one_graph` notes that the node is running. -/
theorem Progress.running (hp : Progress gt g handed h) (t : TaskID) (running : List TaskID) :
    Progress gt { g.setInfo t ({ · with state := .running }) with runningTaskIds := running } handed h := by
  have hsorter : (g.setInfo t ({ · with state := .running })).sorter = g.sorter := Graph.sorter_setInfo _ _ _
  refine ⟨?_, ?_, ?_, ?_, ?_, ?_, (Graph.targetTaskIds_setInfo _ _ _).trans hp.targets, ?_, ?_, ?_, ?_⟩
  · rw [Graph.Prepared, hsorter]
    exact hp.prepared
  · rw [hsorter]
    exact hp.issuing
  · rw [hsorter]
    exact hp.matrix
  · rw [hsorter]
    exact hp.doneKeys
  · rw [hsorter]
    exact hp.handed
  · rw [hsorter]
    exact hp.submitted
  · intro task htask
    obtain ⟨info, hinfo, rfl, hobjects⟩ := hp.tasks task htask
    dsimp only
    by_cases ht : info.task.taskId = t
    · refine ⟨{ info with state := .running }, ?_, rfl, hobjects⟩
      rw [Graph.get?_setInfo, if_pos ht, hinfo]
      rfl
    · exact ⟨info, by rw [Graph.get?_setInfo, if_neg ht, hinfo], rfl, hobjects⟩
  · intro t' info hinfo
    dsimp only at hinfo
    rw [Graph.get?_setInfo] at hinfo
    split at hinfo
    · obtain ⟨old, hold, rfl⟩ := Option.map_eq_some_iff.mp hinfo
      exact hp.nodes t' old hold
    · exact hp.nodes t' info hinfo
  · exact Graph.dependedTaskIdToTaskId_setInfo g t _ ▸ hp.depsWf
  · intro d t'
    dsimp only
    rw [Graph.dependedTaskIdToTaskId_setInfo]
    exact hp.pairs d t'

theorem progress_register {client : ClientID} {sorter : TopologicalSorter TaskID} (hnodup : (gt.graph.map (·.taskId)).Nodup)
    (hprepare : (NewGraph.ofTasks gt.graph).prepare = .ok sorter) : Progress gt (Graph.ofTasks client gt sorter) [] [] := by
  have hsorter := NewGraph.prepare_ok hprepare
  have hissuing := TopologicalSorter.issuing_prepare (NewGraph.ofTasks gt.graph).graph.entries
  have hprepared := TopologicalSorter.readyNodes_prepare (TopologicalSorter.ofGraph (NewGraph.ofTasks gt.graph).graph.entries)
  have hempty : ∀ t, ¬ Reported [] t := fun t ht => absurd ht.choose_spec.1 List.not_mem_nil
  obtain ⟨hwf, hpairs⟩ := NewGraph.depended_ofTasks gt.graph
  rw [← hsorter] at hissuing hprepared
  refine ⟨hprepared, hissuing, ?_, ?_, fun t ht => absurd ht List.not_mem_nil, ?_, rfl, ?_, ?_, hwf, ?_⟩
  · intro t d
    rw [← NewGraph.matrix_ofTasks hnodup]
    change (t, d) ∈ sorter.matrix ↔ _
    rw [hsorter, TopologicalSorter.prepare_eq rfl]
    rfl
  · intro t
    refine iff_of_false ?_ (hempty t)
    change t ∉ sorter.doneKeys
    rw [hsorter, TopologicalSorter.prepare_eq rfl]
    exact List.not_mem_nil
  · rintro t ⟨task, hmem, -⟩
    exact absurd hmem List.not_mem_nil
  · intro task htask
    refine ⟨⟨.inactive, task, []⟩, (NewGraph.tasks_ofTasks hnodup _ _).mpr ⟨task, htask, rfl, rfl⟩, rfl, fun r hr => ?_⟩
    exact absurd hr List.not_mem_nil
  · intro t info hinfo
    obtain ⟨task, htask, rfl, rfl⟩ := (NewGraph.tasks_ofTasks hnodup _ _).mp hinfo
    exact ⟨htask, rfl⟩
  · intro d t
    exact (hpairs d t).trans (and_iff_left (hempty t)).symm

end Steps

section Maps

variable {gt : GraphTask} {ref : Nat} {s s' : Sched} {h : List NodeEvent}

theorem graphs_setGraph (s : Sched) (ref : Nat) (g : Graph) : (s.setGraph ref g).graphs ref = g := Function.update_self _ _ _

theorem graphs_popGraph (s : Sched) (g : TaskID) : (s.popGraph g).2.graphs = s.graphs := by
  have hfinish : (s.onTaskFinish g).graphs = s.graphs := by
    rw [Sched.onTaskFinish]
    split <;> rfl
  rw [Sched.popGraph]
  split
  · exact hfinish
  · dsimp only
    split <;> exact hfinish

theorem Mapped.of_eq (hm : Mapped gt ref s h)
    (href : s'.graphTaskIdToGraph.get? gt.taskId = s.graphTaskIdToGraph.get? gt.taskId)
    (hvisited : ∀ t, t ∈ (s'.graphs ref).sorter.visited ↔ t ∈ (s.graphs ref).sorter.visited)
    (hids : ∀ task ∈ gt.graph, s'.taskIdToGraphTaskId.get? task.taskId = s.taskIdToGraphTaskId.get? task.taskId) :
    Mapped gt ref s' h := by
  refine ⟨fun task htask g hg => ?_, fun task htask hreported => ?_, ?_⟩
  · rw [hids task htask] at hg
    exact hm.ids task htask g hg
  · rw [hids task htask]
    exact hm.popped task htask hreported
  · rw [href]
    refine hm.place.imp (And.imp_right fun hknown task htask hnew => ?_) (And.imp_right fun hall t ht => ?_)
    · rw [hids task htask]
      exact hknown task htask hnew
    · exact hall t ((hvisited t).mp ht)

theorem Mapped.submitted (hm : Mapped gt ref s h) (task : Task) : Mapped gt ref s (.submitted task :: h) := ⟨hm.ids, hm.popped, hm.place⟩

/-- The graph is forgotten when all its nodes that were handed out are done. -/
theorem Mapped.finish (hm : Mapped gt ref s h) (href : s.graphTaskIdToGraph.get? gt.taskId = some ref)
    (hall : ∀ t ∈ (s.graphs ref).sorter.visited, Reported h t) : Mapped gt ref (s.popGraph gt.taskId).2 h := by
  have hgraph : s.graph? gt.taskId = some (s.graphs ref) := by rw [Sched.graph?, href, Option.map_some]
  have hfinish : (s.onTaskFinish gt.taskId).graphs = s.graphs ∧ (s.onTaskFinish gt.taskId).graphTaskIdToGraph = s.graphTaskIdToGraph ∧
      (s.onTaskFinish gt.taskId).taskIdToGraphTaskId = s.taskIdToGraphTaskId := by
    rw [Sched.onTaskFinish]
    split <;> exact ⟨rfl, rfl, rfl⟩
  obtain ⟨hgraphs, hrefs, hids⟩ := hfinish
  rw [Sched.popGraph]
  split
  · refine hm.of_eq (by rw [hrefs]) (fun t => by rw [hgraphs]) fun task _ => by rw [hids]
  · have hkept : Sched.graph? { s.onTaskFinish gt.taskId with
        taskIdToGraphTaskId := (s.onTaskFinish gt.taskId).taskIdToGraphTaskId.erase gt.taskId } gt.taskId = some (s.graphs ref) := by
      rw [← hgraph, Sched.graph?, Sched.graph?, hgraphs, hrefs]
    dsimp only
    rw [hkept]
    have herased : ∀ t v, ((s.graphs ref).tasks.keys.foldl Dict.erase
        ((s.onTaskFinish gt.taskId).taskIdToGraphTaskId.erase gt.taskId)).get? t = some v → s.taskIdToGraphTaskId.get? t = some v := by
      intro t v hget
      rw [Dict.get?_foldl_erase, Dict.get?_erase, hids] at hget
      split at hget
      · cases hget
      · split at hget
        · cases hget
        · exact hget
    refine ⟨fun task htask g hg => hm.ids task htask g (herased _ _ hg), fun task htask hreported => ?_, .inr ⟨?_, ?_⟩⟩
    · rw [Option.eq_none_iff_forall_ne_some]
      intro v hv
      have hold := herased _ _ hv
      rw [hm.popped task htask hreported] at hold
      cases hold
    · dsimp only
      rw [hrefs]
      exact Dict.get?_erase_self _ _
    · dsimp only
      rw [hgraphs]
      exact hall

/-- The result of a node is let through once, and its id leaves the map. -/
theorem Mapped.report (hm : Mapped gt ref s h) {node : Task} (hnode : node ∈ gt.graph)
    (hgraph : (s.graphForSubtask node.taskId).isSome) :
    s.taskIdToGraphTaskId.get? node.taskId = some gt.taskId ∧ s.graphTaskIdToGraph.get? gt.taskId = some ref ∧
      ¬ Reported h node.taskId := by
  rw [Sched.graphForSubtask] at hgraph
  cases hid : s.taskIdToGraphTaskId.get? node.taskId with
  | none =>
    rw [hid] at hgraph
    cases hgraph
  | some g =>
    obtain rfl := hm.ids node hnode g hid
    rw [hid, Option.bind_some, Sched.graph?, Option.isSome_map] at hgraph
    refine ⟨rfl, ?_, fun hreported => ?_⟩
    · rcases hm.place with ⟨href, -⟩ | ⟨hnone, -⟩
      · exact href
      · rw [hnone] at hgraph
        cases hgraph
    · rw [hm.popped node hnode hreported] at hid
      cases hid

end Maps

section Runs

variable {client : ClientID} {gt : GraphTask} {ref : Nat} {s s' : Sched} {handed : List TaskID} {h : List NodeEvent}

theorem submitNode_cases {t : TaskID} {x : Except Exn Task} (hsubmit : s.submitNode gt.taskId ref t = (x, s')) :
    ((∃ e, x = .error e) ∧ s' = s) ∨
      ∃ info running, (s.graphs ref).tasks.get? t = some info ∧
        s'.graphs ref = { (s.graphs ref).setInfo t ({ · with state := .running }) with runningTaskIds := running } ∧
        s'.graphTaskIdToGraph = s.graphTaskIdToGraph ∧ s'.taskIdToGraphTaskId = s.taskIdToGraphTaskId ∧
        ∀ task, x = .ok task →
          ∃ args, Graph.argumentObjects ((s.graphTaskIdToGraph.get? gt.taskId).map s'.graphs) info.task.functionArgs = .ok args ∧
            task = { info.task with functionArgs := args } := by
  rw [Sched.submitNode] at hsubmit
  split at hsubmit
  · obtain ⟨rfl, rfl⟩ := Prod.mk.inj hsubmit
    exact .inl ⟨⟨_, rfl⟩, rfl⟩
  · next info hinfo =>
    right
    dsimp only at hsubmit
    split at hsubmit
    · obtain ⟨rfl, rfl⟩ := Prod.mk.inj hsubmit
      refine ⟨info, _, hinfo, Function.update_self _ _ _, rfl, rfl, fun task htask => ?_⟩
      cases htask
    · next args hargs =>
      obtain ⟨rfl, rfl⟩ := Prod.mk.inj hsubmit
      refine ⟨info, _, hinfo, Function.update_self _ _ _, rfl, rfl, fun task htask => ⟨args, hargs, ?_⟩⟩
      exact (Except.ok.inj htask).symm

theorem sorter_running {g g' : Graph} (t : TaskID) (running : List TaskID)
    (hgraph : g' = { g.setInfo t ({ · with state := .running }) with runningTaskIds := running }) : g'.sorter = g.sorter := by
  rw [hgraph]
  exact Graph.sorter_setInfo _ _ _

/-- A submitted task carries the results of the nodes it depends on. -/
theorem Progress.filled (hnodup : (gt.graph.map (·.taskId)).Nodup) {g : Graph} (hp : Progress gt g handed h) (hsound : Sound gt h)
    {node : Task} (hnode : node ∈ gt.graph) (hvisited : node.taskId ∈ g.sorter.visited) {graph : Option Graph}
    (hgraph : ∀ g', graph = some g' → g' = g) {args : List Argument}
    (hargs : Graph.argumentObjects graph node.functionArgs = .ok args) : List.Forall₂ (Filled h) node.functionArgs args := by
  have hall : ∀ a ∈ node.functionArgs, ∀ b, Graph.Resolved graph a b → Filled h a b := by
    intro a ha b hresolved
    cases a with
    | objectID id => exact hresolved
    | task d =>
      obtain ⟨g', info, o, hg', hinfo, ho, rfl⟩ := hresolved
      obtain rfl := hgraph g' hg'
      have hdepends : gt.DependsOn node.taskId d := (dependsOn_iff hnodup hnode).mpr ha
      have hreported := (hp.doneKeys d).mp (hp.issuing.pred_done hvisited ((hp.matrix _ _).mpr hdepends))
      obtain ⟨r, hr, hid⟩ := id hreported
      obtain ⟨dep, hdep, hdepId⟩ := hsound.node (hsound.submitted_of_reported hreported)
      obtain ⟨info', hinfo', -, hobjects⟩ := hp.tasks dep hdep
      rw [hdepId, hinfo] at hinfo'
      obtain rfl := Option.some.inj hinfo'
      refine ⟨r, hr, hid, o, ?_, rfl⟩
      rw [← hobjects r hr (hid.trans hdepId.symm), ho]
  clear hnode hvisited
  generalize node.functionArgs = as at hall hargs
  have hresolved := Graph.argumentObjects_ok hargs
  clear hargs
  induction hresolved with
  | nil => exact .nil
  | cons hab _ ih =>
    exact .cons (hall _ List.mem_cons_self _ hab) (ih fun a ha => hall a (List.mem_cons_of_mem _ ha))

/-- What holds all along. -/
theorem Successes.invariant (hnodup : (gt.graph.map (·.taskId)).Nodup) (hrun : Successes client gt ref s handed h) :
    Sound gt h ∧ Progress gt (s.graphs ref) handed h ∧ Mapped gt ref s h := by
  induction hrun with
  | @register s sorter hprepare href hids =>
    subst href
    have hgraph : (s.registerGraph gt.taskId (Graph.ofTasks client gt sorter)).graphs s.nextGraph = Graph.ofTasks client gt sorter :=
      Function.update_self _ _ _
    refine ⟨trivial, ?_, ?_, ?_, .inl ⟨Dict.get?_set_self _ _ _, ?_⟩⟩
    · rw [hgraph]
      exact progress_register hnodup hprepare
    · intro task htask g hg
      exact Option.some.inj (hg.symm.trans (hids task htask))
    · intro task _ hreported
      exact absurd hreported.choose_spec.1 List.not_mem_nil
    · exact fun task htask _ => hids task htask
  | handOut _ href hactive hready ih =>
    obtain ⟨hsound, hp, hm⟩ := ih
    obtain ⟨hissuing, hvisited, hdone, hmatrix, hnew⟩ := hp.issuing.getReady hready
    have hprepared := TopologicalSorter.readyNodes_getReady _ hp.prepared
    rw [hready] at hprepared
    refine ⟨hsound, ?_, hm.of_eq rfl (fun t => ?_) fun _ _ => rfl⟩
    · rw [graphs_setGraph]
      refine hp.of_sorter hprepared hissuing hvisited hdone hmatrix fun t ht => ?_
      rw [hvisited]
      exact (List.mem_append.mp ht).elim (hp.handed t) (hnew t)
    · rw [graphs_setGraph]
      exact iff_of_eq (congrArg (t ∈ ·) hvisited)
  | @finish s handed h _ href hactive ih =>
    obtain ⟨hsound, hp, hm⟩ := ih
    have hall : ∀ t ∈ (s.graphs ref).sorter.visited, Reported h t := fun t ht =>
      (hp.doneKeys t).mp (hp.issuing.mem_doneKeys hactive ht)
    exact ⟨hsound, graphs_popGraph s gt.taskId ▸ hp, hm.finish href hall⟩
  | @submit s s' handed h t task _ ht hsubmit ih =>
    obtain ⟨hsound, hp, hm⟩ := ih
    obtain ⟨⟨e, he⟩, -⟩ | ⟨info, running, hinfo, hgraph, href, hids, hok⟩ := submitNode_cases hsubmit
    · cases he
    · obtain ⟨args, hargs, rfl⟩ := hok task rfl
      obtain ⟨hnode, rfl⟩ := hp.nodes t info hinfo
      have hvisited := hp.handed _ ht
      have hp' := hp.running info.task.taskId running
      have hsame := sorter_running info.task.taskId running hgraph
      rw [← hgraph] at hp'
      have hplace : ∀ g', (s.graphTaskIdToGraph.get? gt.taskId).map s'.graphs = some g' → g' = s'.graphs ref := by
        intro g' hg'
        rcases hm.place with ⟨hsome, -⟩ | ⟨hnone, -⟩
        · rw [hsome] at hg'
          exact (Option.some.inj hg').symm
        · rw [hnone] at hg'
          cases hg'
      have hfilled := hp'.filled hnodup hsound hnode (hsame ▸ hvisited) hplace hargs
      refine ⟨⟨⟨info.task, hnode, rfl, hfilled⟩, hsound⟩, ?_, ?_⟩
      · refine { hp' with handed := fun x hx => hp'.handed x (List.mem_of_mem_erase hx), submitted := fun t ht => ?_ }
        rcases (submitted_submitted _).mp ht with rfl | ht
        · exact hsame ▸ hvisited
        · exact hp'.submitted t ht
      · exact (hm.of_eq (by rw [href]) (fun t => by rw [hsame]) fun _ _ => by rw [hids]).submitted _
  | @submitFail s s' handed h t e _ ht hsubmit ih =>
    obtain ⟨hsound, hp, hm⟩ := ih
    obtain ⟨-, rfl⟩ | ⟨info, running, -, hgraph, href, hids, -⟩ := submitNode_cases hsubmit
    · exact ⟨hsound, { hp with handed := fun x hx => hp.handed x (List.mem_of_mem_erase hx) }, hm⟩
    · have hp' := hp.running t running
      rw [← hgraph] at hp'
      refine ⟨hsound, { hp' with handed := fun x hx => hp'.handed x (List.mem_of_mem_erase hx) }, ?_⟩
      exact hm.of_eq (by rw [href]) (fun t' => by rw [sorter_running t running hgraph]) fun _ _ => by rw [hids]
  | @report s s' handed h r x g running undispatched deleted error _ hsubmitted _ hgraph hdone htrace ih =>
    obtain ⟨hsound, hp, hm⟩ := ih
    obtain ⟨node, hnode, hid⟩ := hsound.node hsubmitted
    rw [← hid] at hgraph
    obtain ⟨hget, href, hnew⟩ := hm.report hnode hgraph
    rw [hid] at hget hnew
    obtain ⟨g', deleted', hmark, hevent, hp'⟩ := hp.report hnodup hsound hsubmitted hnew
    obtain ⟨tracker, deletedIds, heq⟩ := Sched.markNodeDone_eq hget href
    rw [hdone, hmark] at heq
    obtain ⟨rfl, rfl⟩ := Prod.mk.inj heq
    obtain ⟨hobs, -⟩ := List.cons.inj htrace
    obtain ⟨rfl, -, -, -, rfl, rfl⟩ := Obs.nodeDone.inj hobs
    refine ⟨⟨hevent, hsound⟩, ?_, fun task htask g hg => ?_, fun task htask hreported => ?_, .inl ⟨href, fun task htask hnot => ?_⟩⟩
    · exact (graphs_setGraph s ref g').symm ▸ hp'
    · dsimp only at hg
      rw [Dict.get?_erase] at hg
      split at hg
      · cases hg
      · exact hm.ids task htask g hg
    · dsimp only
      rw [Dict.get?_erase]
      split
      · rfl
      · next hne =>
        rcases (reported_reported r deleted' none).mp hreported with heq | hreported
        · exact absurd heq.symm hne
        · exact hm.popped task htask hreported
    · rw [reported_reported, not_or] at hnot
      dsimp only
      rw [Dict.get?_erase_ne _ (Ne.symm hnot.1)]
      rcases hm.place with ⟨-, hknown⟩ | ⟨hnone, -⟩
      · exact hknown task htask hnot.2
      · rw [href] at hnone
        cases hnone
  | other _ href hgraph hids ih =>
    obtain ⟨hsound, hp, hm⟩ := ih
    refine ⟨hsound, ?_, hm.of_eq href (fun t => ?_) hids⟩
    · rw [hgraph]
      exact hp
    · rw [hgraph]

/-- `__check_one_graph` hands out nodes or forgets the graph. -/
theorem Successes.checkOneGraph (hrun : Successes client gt ref s handed h) (href : s.graphTaskIdToGraph.get? gt.taskId = some ref)
    {u : Multiset Tok} (hcheck : CheckStep gt.taskId s s' u) : ∃ handed', Successes client gt ref s' handed' h := by
  cases hcheck with
  | done href' hactive hpop =>
    obtain rfl := Option.some.inj (href.symm.trans href')
    have hfinish := hrun.finish href hactive
    cases hpop with
    | ok hpop =>
      rw [hpop] at hfinish
      exact ⟨handed, hfinish.other rfl rfl fun _ _ => rfl⟩
    | sendFail hpop =>
      rw [hpop] at hfinish
      exact ⟨handed, hfinish.other rfl rfl fun _ _ => rfl⟩
    | popFail hpop =>
      rw [hpop] at hfinish
      exact ⟨handed, hfinish.other rfl rfl fun _ _ => rfl⟩
  | ready href' hactive hready =>
    obtain rfl := Option.some.inj (href.symm.trans href')
    exact ⟨_, hrun.handOut href hactive hready⟩

/-- `on_graph_sub_task_result` of a success: the node is done, and the graph is checked. -/
theorem Successes.onGraphSubTaskResult (hnodup : (gt.graph.map (·.taskId)).Nodup) (hrun : Successes client gt ref s handed h)
    {r : TaskResult} (hsubmitted : Submitted h r.taskId) (hsuccess : r.resultType = .success)
    (hgraph : (s.graphForSubtask r.taskId).isSome) {s₁ : Sched} (hdone : s.markNodeDone r = (.ok (), s₁)) {u : Multiset Tok}
    (hcheck : CheckStep gt.taskId s₁ s' u) : ∃ handed' deleted, Successes client gt ref s' handed' (.reported r deleted none :: h) := by
  obtain ⟨hsound, -, hm⟩ := hrun.invariant hnodup
  obtain ⟨node, hnode, hid⟩ := hsound.node hsubmitted
  obtain ⟨hget, href, -⟩ := hm.report hnode (hid ▸ hgraph)
  rw [hid] at hget
  obtain ⟨tracker, deletedIds, heq⟩ := Sched.markNodeDone_eq hget href
  obtain ⟨hok, hstate⟩ := Prod.mk.inj (hdone.symm.trans heq)
  rw [← hok] at hstate
  have hreport := hrun.report hsubmitted hsuccess hgraph hdone (congrArg Sched.trace hstate)
  have href₁ : s₁.graphTaskIdToGraph.get? gt.taskId = some ref := by
    rw [hstate]
    exact href
  obtain ⟨handed', hrun'⟩ := hreport.checkOneGraph href₁ hcheck
  exact ⟨handed', _, hrun'⟩

end Runs

section Deletions

variable {gt : GraphTask} {h before later : List NodeEvent} {d : TaskID}

/-- The nodes whose results were deleted. -/
def deletions (h : List NodeEvent) : List TaskID := (h.flatMap NodeEvent.deleted).map Prod.fst

/-- No node needs the result of `d` any more, and the client did not ask for it. -/
def Dead (gt : GraphTask) (h : List NodeEvent) (d : TaskID) : Prop :=
  d ∉ gt.targets ∧ (∃ t, gt.DependsOn t d) ∧ ∀ t, gt.DependsOn t d → Reported h t

theorem dead_reported {r : TaskResult} {deleted : List (TaskID × List ObjectID)} {error : Option Exn}
    (hevent : EventSound gt before (.reported r deleted error)) :
    (gt.DependsOn r.taskId d ∧ d ∉ gt.targets ∧ ∀ t, gt.DependsOn t d → Reported before t ∨ t = r.taskId) ↔
      Dead gt (.reported r deleted error :: before) d ∧ ¬ Dead gt before d := by
  have hnew := hevent.2.2.1
  constructor
  · rintro ⟨hdepends, htarget, hall⟩
    refine ⟨⟨htarget, ⟨r.taskId, hdepends⟩, fun t ht => ?_⟩, fun hdead => hnew (hdead.2.2 r.taskId hdepends)⟩
    rw [reported_reported]
    exact (hall t ht).symm.imp_left Eq.symm
  · rintro ⟨⟨htarget, hsome, hall⟩, hnot⟩
    have hall' : ∀ t, gt.DependsOn t d → Reported before t ∨ t = r.taskId := fun t ht =>
      ((reported_reported r deleted error).mp (hall t ht)).symm.imp_right Eq.symm
    have hlast : ∃ t, gt.DependsOn t d ∧ ¬ Reported before t := by
      by_contra hno
      push Not at hno
      exact hnot ⟨htarget, hsome, hno⟩
    obtain ⟨t, ht, hwaiting⟩ := hlast
    obtain rfl := (hall' t ht).resolve_left hwaiting
    exact ⟨ht, htarget, hall'⟩

theorem mem_deleted {r : TaskResult} {deleted : List (TaskID × List ObjectID)} {error : Option Exn}
    (hevent : EventSound gt before (.reported r deleted error)) :
    d ∈ deleted.map Prod.fst ↔ Dead gt (.reported r deleted error :: before) d ∧ ¬ Dead gt before d := by
  obtain ⟨-, -, -, hreported, -, hdeleted⟩ := id hevent
  rw [← dead_reported hevent, List.mem_map]
  constructor
  · rintro ⟨⟨d, objs⟩, hmem, rfl⟩
    obtain ⟨hdepends, htarget, hall, -⟩ := (hdeleted d objs).mp hmem
    exact ⟨hdepends, htarget, hall⟩
  · rintro ⟨hdepends, htarget, hall⟩
    obtain ⟨r', hr', hid⟩ := hreported d hdepends
    exact ⟨(d, r'.results.dedup), (hdeleted _ _).mpr ⟨hdepends, htarget, hall, r', hr', hid, rfl⟩, rfl⟩

theorem Dead.mono {event : NodeEvent} (hdead : Dead gt before d) : Dead gt (event :: before) d := by
  obtain ⟨htarget, hsome, hall⟩ := hdead
  refine ⟨htarget, hsome, fun t ht => ?_⟩
  cases event with
  | submitted task => exact hall t ht
  | reported r deleted error => exact (reported_reported r deleted error).mpr (.inr (hall t ht))

/-- Each result is deleted once when it is dead, and not before. -/
theorem Sound.count_deletions (hsound : Sound gt h) (d : TaskID) :
    (Dead gt h d → (deletions h).count d = 1) ∧ (¬ Dead gt h d → (deletions h).count d = 0) := by
  induction h with
  | nil =>
    refine ⟨fun hdead => ?_, fun _ => rfl⟩
    obtain ⟨-, ⟨t, ht⟩, hall⟩ := hdead
    exact absurd (hall t ht).choose_spec.1 List.not_mem_nil
  | cons event before ih =>
    obtain ⟨hevent, hbefore⟩ := hsound
    cases event with
    | submitted task => exact ih hbefore
    | reported r deleted error =>
      have hcount : (deletions (.reported r deleted error :: before)).count d =
          (deleted.map Prod.fst).count d + (deletions before).count d := by
        rw [deletions, List.flatMap_cons, List.map_append, List.count_append]
        rfl
      have hnodup := hevent.2.2.2.2.1
      have hmem := mem_deleted (d := d) hevent
      rw [hcount]
      by_cases hold : Dead gt before d
      · have hnot : d ∉ deleted.map Prod.fst := fun hd => (hmem.mp hd).2 hold
        rw [List.count_eq_zero_of_not_mem hnot, (ih hbefore).1 hold]
        exact ⟨fun _ => rfl, fun hno => absurd hold.mono hno⟩
      · rw [(ih hbefore).2 hold]
        constructor
        · intro hdead
          rw [List.count_eq_one_of_mem hnodup (hmem.mpr ⟨hdead, hold⟩)]
        · intro hnot
          rw [List.count_eq_zero_of_not_mem fun hd => hnot (hmem.mp hd).1]

theorem Sound.unique (hsound : Sound gt h) {r r' : TaskResult} (hr : r ∈ results h) (hr' : r' ∈ results h)
    (heq : r.taskId = r'.taskId) : r = r' := by
  induction h with
  | nil => exact absurd hr List.not_mem_nil
  | cons event before ih =>
    cases event with
    | submitted task => exact ih hsound.2 hr hr'
    | reported r₁ deleted error =>
      have hnew := hsound.1.2.2.1
      rcases List.mem_cons.mp hr with rfl | hold
      · rcases List.mem_cons.mp hr' with rfl | hold'
        · rfl
        · exact absurd ⟨r', hold', heq.symm⟩ hnew
      · rcases List.mem_cons.mp hr' with rfl | hold'
        · exact absurd ⟨r, hold, heq⟩ hnew
        · exact ih hsound.2 hold hold'

theorem results_append : results (later ++ before) = results later ++ results before := List.filterMap_append

theorem filled_at {as bs : List Argument} (hfilled : List.Forall₂ (Filled before) as bs) {i : Nat} (hi : as[i]? = some (.task d)) :
    ∃ r ∈ results before, r.taskId = d ∧ ∃ o, r.results = [o] ∧ bs[i]? = some (.objectID o) := by
  induction hfilled generalizing i with
  | nil => cases hi
  | cons hab _ ih =>
    cases i with
    | zero =>
      rw [List.getElem?_cons_zero] at hi ⊢
      obtain rfl := Option.some.inj hi
      obtain ⟨r, hr, hid, o, ho, rfl⟩ := hab
      exact ⟨r, hr, hid, o, ho, rfl⟩
    | succ i =>
      rw [List.getElem?_cons_succ] at hi ⊢
      exact ih hi

end Deletions

/-- What is deleted in the history of a graph. -/
structure FreedExactly (gt : GraphTask) (h : List NodeEvent) : Prop where
  noError : ∀ r deleted error, .reported r deleted error ∈ h → error = none
  once : ∀ d, Dead gt h d → (deletions h).count d = 1
  kept : ∀ d, ¬ Dead gt h d → (deletions h).count d = 0
  atLast : ∀ later r deleted error before, h = later ++ NodeEvent.reported r deleted error :: before → ∀ d objs,
    (d, objs) ∈ deleted ↔ Dead gt (.reported r deleted error :: before) d ∧ ¬ Dead gt before d ∧
      ∃ r' ∈ results before, r'.taskId = d ∧ objs = r'.results.dedup
  dispatched : ∀ later r deleted error before, h = later ++ NodeEvent.reported r deleted error :: before → ∀ d objs, (d, objs) ∈ deleted →
    ∀ node ∈ gt.graph, .task d ∈ node.functionArgs → ∃ task o, .submitted task ∈ before ∧ task.taskId = node.taskId ∧ objs = [o] ∧
      ∀ i : Nat, node.functionArgs[i]? = some (.task d) → task.functionArgs[i]? = some (.objectID o)

theorem Sound.freedExactly {gt : GraphTask} (hnodup : (gt.graph.map (·.taskId)).Nodup) {h : List NodeEvent} (hsound : Sound gt h) :
    FreedExactly gt h := by
  refine ⟨?_, fun d => (hsound.count_deletions d).1, fun d => (hsound.count_deletions d).2, ?_, ?_⟩
  · intro r deleted error hmem
    obtain ⟨before, later, hsplit⟩ := List.append_of_mem hmem
    exact (hsound.at hsplit).1.1
  · intro later r deleted error before hsplit d objs
    have hevent := (hsound.at hsplit).1
    have hdead := dead_reported (d := d) hevent
    rw [hevent.2.2.2.2.2 d objs]
    constructor
    · rintro ⟨hdepends, htarget, hall, hresult⟩
      obtain ⟨hafter, hbefore⟩ := hdead.mp ⟨hdepends, htarget, hall⟩
      exact ⟨hafter, hbefore, hresult⟩
    · rintro ⟨hafter, hbefore, hresult⟩
      obtain ⟨hdepends, htarget, hall⟩ := hdead.mpr ⟨hafter, hbefore⟩
      exact ⟨hdepends, htarget, hall, hresult⟩
  · intro later r deleted error before hsplit d objs hmem node hnode harg
    obtain ⟨hevent, hbefore⟩ := hsound.at hsplit
    obtain ⟨-, -, hall, r', hr', hid', rfl⟩ := (hevent.2.2.2.2.2 d objs).mp hmem
    have hsubmitted : Submitted before node.taskId := by
      rcases hall node.taskId ⟨node, hnode, rfl, harg⟩ with hreported | heq
      · exact hbefore.submitted_of_reported hreported
      · rw [heq]
        exact hevent.2.1
    obtain ⟨task, htask, hid⟩ := hsubmitted
    obtain ⟨newer, older, rfl⟩ := List.append_of_mem htask
    obtain ⟨⟨node', hnode', hsame, hfilled⟩, -⟩ := hbefore.at rfl
    obtain rfl := List.inj_on_of_nodup_map hnodup hnode' hnode (hsame.trans hid)
    have hone : ∀ i : Nat, node'.functionArgs[i]? = some (.task d) →
        ∃ o, r'.results = [o] ∧ task.functionArgs[i]? = some (.objectID o) := by
      intro i hi
      obtain ⟨r₁, hr₁, hid₁, o, ho, hat⟩ := filled_at hfilled hi
      have hmem₁ : r₁ ∈ results (newer ++ .submitted task :: older) := by
        rw [results_append, results_submitted]
        exact List.mem_append_right _ hr₁
      obtain rfl := hbefore.unique hmem₁ hr' (hid₁.trans hid'.symm)
      exact ⟨o, ho, hat⟩
    obtain ⟨i, hi⟩ := List.mem_iff_getElem?.mp harg
    obtain ⟨o, ho, -⟩ := hone i hi
    refine ⟨task, o, htask, hid, by rw [ho]; rfl, fun j hj => ?_⟩
    obtain ⟨o', ho', hat⟩ := hone j hj
    rw [ho] at ho'
    rwa [(List.cons.inj ho').1]

/-- The second node names the first one twice, and only the second one is a target. -/
def twice : GraphTask :=
  ⟨⟨0⟩, ⟨9⟩, [⟨2⟩], [⟨⟨1⟩, ⟨9⟩, [], ⟨7⟩, [], []⟩, ⟨⟨2⟩, ⟨9⟩, [], ⟨7⟩, [.task ⟨1⟩, .task ⟨1⟩], []⟩]⟩

end IntermediateResults

end Scaler
