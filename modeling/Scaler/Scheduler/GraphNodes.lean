import Scaler.Graph.Issuing
import Scaler.Scheduler.Sane
import Scaler.Utility.ManyToMany

/-! The nodes of one graph and what depends on them: what `__add_new_graph` builds from a message, what
`__get_argument_object` looks up and what `__clean_intermediate_result` deletes. -/

namespace Scaler

open Collections

namespace Graph

/-- What `__clean_intermediate_result` does where every pair it removes is there. -/
theorem cleanIntermediateResult_eq {t : TaskID} {ds : List TaskID} (hnodup : ds.Nodup) {g : Graph}
    (hwf : g.dependedTaskIdToTaskId.Wf) (hpairs : ∀ d ∈ ds, g.dependedTaskIdToTaskId.Pair d t)
    (htasks : ∀ d ∈ ds, ∃ info, g.tasks.get? d = some info) :
    ∃ deps deleted, g.cleanIntermediateResult t ds = (.ok (), { g with dependedTaskIdToTaskId := deps }, deleted) ∧ deps.Wf ∧
      (∀ l r, deps.Pair l r ↔ g.dependedTaskIdToTaskId.Pair l r ∧ ¬ (l ∈ ds ∧ r = t)) ∧ (deleted.map Prod.fst).Nodup ∧
      ∀ d objs, (d, objs) ∈ deleted ↔ d ∈ ds ∧ d ∉ g.targetTaskIds ∧ (∀ r, g.dependedTaskIdToTaskId.Pair d r → r = t) ∧
        ∃ info, g.tasks.get? d = some info ∧ objs = info.resultObjectIds.dedup := by
  induction ds generalizing g with
  | nil => exact ⟨_, [], rfl, hwf, by simp, List.nodup_nil, by simp⟩
  | cons d ds ih =>
    obtain ⟨hd, hnodup⟩ := List.nodup_cons.mp hnodup
    have hpair := hpairs d List.mem_cons_self
    have hremove := ManyToManyDict.remove_of_pair hwf hpair
    have hleft : ∀ l r, (g.dependedTaskIdToTaskId.remove d t).2.Pair l r ↔ g.dependedTaskIdToTaskId.Pair l r ∧ ¬ (l = d ∧ r = t) :=
      fun l r => ManyToManyDict.pair_remove hwf hpair
    have hwf' := hwf.remove hpair
    set deps := (g.dependedTaskIdToTaskId.remove d t).2 with hdeps
    have hok : g.dependedTaskIdToTaskId.remove d t = (.ok (), deps) := by rw [hdeps, hremove]
    obtain ⟨deps', deleted, hrest, hwf'', hpairs', hnodup', hdeleted⟩ :=
      ih hnodup (g := { g with dependedTaskIdToTaskId := deps }) hwf'
        (fun x hx => (hleft x t).mpr ⟨hpairs x (List.mem_cons_of_mem _ hx), fun heq => hd (heq.1 ▸ hx)⟩)
        (fun x hx => htasks x (List.mem_cons_of_mem _ hx))
    have hfinal : ∀ l r, deps'.Pair l r ↔ g.dependedTaskIdToTaskId.Pair l r ∧ ¬ (l ∈ d :: ds ∧ r = t) := by
      intro l r
      rw [hpairs', hleft, List.mem_cons]
      tauto
    -- the dependencies behind `d` lose other pairs only
    have hothers : ∀ x ∈ ds, (∀ r, deps.Pair x r → r = t) ↔ ∀ r, g.dependedTaskIdToTaskId.Pair x r → r = t := by
      intro x hx
      refine forall_congr' fun r => ?_
      have hne : x ≠ d := fun heq => hd (heq ▸ hx)
      rw [hleft]
      tauto
    have hlast : deps.hasLeftKey d = true ↔ ¬ ∀ r, g.dependedTaskIdToTaskId.Pair d r → r = t := by
      rw [ManyToManyDict.hasLeftKey_iff hwf', not_forall]
      refine exists_congr fun r => ?_
      rw [hleft]
      tauto
    have hnot : d ∉ deleted.map Prod.fst := by
      intro hmem
      obtain ⟨⟨x, objs⟩, hx, rfl⟩ := List.mem_map.mp hmem
      exact hd ((hdeleted x objs).mp hx).1
    have hkept : d ∈ g.targetTaskIds ∨ deps.hasLeftKey d = true →
        ∀ x objs, (x, objs) ∈ deleted ↔ x ∈ d :: ds ∧ x ∉ g.targetTaskIds ∧
          (∀ r, g.dependedTaskIdToTaskId.Pair x r → r = t) ∧ ∃ info, g.tasks.get? x = some info ∧ objs = info.resultObjectIds.dedup := by
      intro hkeep x objs
      rw [hdeleted, List.mem_cons]
      constructor
      · rintro ⟨hx, htarget, hall, hinfo⟩
        exact ⟨.inr hx, htarget, (hothers x hx).mp hall, hinfo⟩
      · rintro ⟨rfl | hx, htarget, hall, hinfo⟩
        · exact absurd hall (hlast.mp (hkeep.resolve_left htarget))
        · exact ⟨hx, htarget, (hothers x hx).mpr hall, hinfo⟩
    rw [cleanIntermediateResult, hok]
    dsimp only
    by_cases hleftKey : deps.hasLeftKey d = true
    · rw [if_pos hleftKey]
      exact ⟨deps', deleted, hrest, hwf'', hfinal, hnodup', hkept (.inr hleftKey)⟩
    · rw [if_neg hleftKey]
      by_cases htarget : d ∈ g.targetTaskIds
      · rw [if_pos htarget]
        exact ⟨deps', deleted, hrest, hwf'', hfinal, hnodup', hkept (.inl htarget)⟩
      · obtain ⟨info, hinfo⟩ := htasks d List.mem_cons_self
        rw [if_neg htarget, hinfo]
        dsimp only
        rw [hrest]
        refine ⟨deps', (d, info.resultObjectIds.dedup) :: deleted, rfl, hwf'', hfinal, List.nodup_cons.mpr ⟨hnot, hnodup'⟩, ?_⟩
        intro x objs
        rw [List.mem_cons, hdeleted, List.mem_cons]
        constructor
        · rintro (heq | ⟨hx, htarget', hall, hinfo'⟩)
          · obtain ⟨rfl, rfl⟩ := Prod.mk.inj heq
            exact ⟨.inl rfl, htarget, not_not.mp (mt hlast.mpr hleftKey), info, hinfo, rfl⟩
          · exact ⟨.inr hx, htarget', (hothers x hx).mp hall, hinfo'⟩
        · rintro ⟨rfl | hx, htarget', hall, info', hinfo', rfl⟩
          · left
            rw [Option.some.inj (hinfo'.symm.trans hinfo)]
          · exact .inr ⟨hx, htarget', (hothers x hx).mpr hall, info', hinfo', rfl⟩

@[simp] theorem get?_setInfo (g : Graph) (t t' : TaskID) (f : TaskInfo → TaskInfo) :
    (g.setInfo t f).tasks.get? t' = if t' = t then (g.tasks.get? t').map f else g.tasks.get? t' := by
  rw [setInfo]
  by_cases ht : t' = t
  · subst ht
    cases hget : g.tasks.get? t' with
    | none => simp [hget]
    | some info => simp
  · cases hget : g.tasks.get? t with
    | none => simp [ht]
    | some info => simp [ht, Dict.get?_set_ne]

@[simp] theorem dependedTaskIdToTaskId_setInfo (g : Graph) (t : TaskID) (f : TaskInfo → TaskInfo) :
    (g.setInfo t f).dependedTaskIdToTaskId = g.dependedTaskIdToTaskId := by
  rw [setInfo]
  cases g.tasks.get? t <;> rfl

@[simp] theorem targetTaskIds_setInfo (g : Graph) (t : TaskID) (f : TaskInfo → TaskInfo) :
    (g.setInfo t f).targetTaskIds = g.targetTaskIds := by
  rw [setInfo]
  cases g.tasks.get? t <;> rfl

/-- What `__get_argument_object` puts in the place of an argument. -/
def Resolved (g : Option Graph) : Argument → Argument → Prop
  | .objectID id, b => b = .objectID id
  | .task d, b => ∃ graph info o, g = some graph ∧ graph.tasks.get? d = some info ∧ info.resultObjectIds = [o] ∧ b = .objectID o

theorem argumentObjects_ok {g : Option Graph} {as bs : List Argument} (h : argumentObjects g as = .ok bs) :
    List.Forall₂ (Resolved g) as bs := by
  induction as generalizing bs with
  | nil =>
    obtain rfl := Except.ok.inj h
    exact .nil
  | cons a as ih =>
    cases hrest : argumentObjects g as with
    | error e =>
      cases a with
      | objectID id =>
        rw [argumentObjects, hrest] at h
        cases h
      | task d =>
        rw [argumentObjects, hrest] at h
        repeat' split at h
        all_goals cases h
    | ok rest =>
      cases a with
      | objectID id =>
        rw [argumentObjects, hrest] at h
        obtain rfl := Except.ok.inj h
        exact .cons rfl (ih hrest)
      | task d =>
        rw [argumentObjects, hrest] at h
        cases g with
        | none => cases h
        | some graph =>
          split at h
          · cases h
          · next info hinfo =>
            split at h
            · next o ho =>
              obtain rfl := Except.ok.inj h
              exact .cons ⟨graph, info, o, rfl, hinfo, ho, rfl⟩ (ih hrest)
            · cases h

end Graph

theorem Task.mem_requiredTaskIds {task : Task} {d : TaskID} : d ∈ task.requiredTaskIds ↔ .task d ∈ task.functionArgs := by
  rw [requiredTaskIds, List.mem_dedup, List.mem_filterMap]
  constructor
  · rintro ⟨arg, hmem, hsome⟩
    cases arg with
    | task id => exact Option.some.inj hsome ▸ hmem
    | objectID id => cases hsome
  · exact fun hmem => ⟨.task d, hmem, rfl⟩

/-- The node `t` names the node `d` among its arguments. -/
def GraphTask.DependsOn (gt : GraphTask) (t d : TaskID) : Prop :=
  ∃ task ∈ gt.graph, task.taskId = t ∧ .task d ∈ task.functionArgs

namespace NewGraph

theorem foldl_addTask (tasks : List Task) (n : NewGraph) :
    tasks.foldl addTask n =
      { graph := tasks.foldl (fun d task => d.set task.taskId task.requiredTaskIds) n.graph
        tasks := tasks.foldl (fun d task => d.set task.taskId ⟨.inactive, task, []⟩) n.tasks
        depended := tasks.foldl (fun deps task => task.requiredTaskIds.foldl (fun d r => d.add r task.taskId) deps) n.depended } := by
  induction tasks generalizing n with
  | nil => rfl
  | cons task tasks ih => exact ih (n.addTask task)

theorem entries_ofTasks {tasks : List Task} (hnodup : (tasks.map (·.taskId)).Nodup) :
    (ofTasks tasks).graph.entries = tasks.map fun task => (task.taskId, task.requiredTaskIds) := by
  have hkeys : (((Dict.empty : Dict TaskID (List TaskID)).entries ++
      tasks.map fun task => (task.taskId, task.requiredTaskIds)).map Prod.fst).Nodup := by
    simpa [Dict.empty, Function.comp_def] using hnodup
  have hentries := Dict.entries_foldl_set hkeys
  rw [List.foldl_map] at hentries
  rw [ofTasks, foldl_addTask]
  exact hentries

theorem tasks_ofTasks {tasks : List Task} (hnodup : (tasks.map (·.taskId)).Nodup) (t : TaskID) (info : TaskInfo) :
    (ofTasks tasks).tasks.get? t = some info ↔ ∃ task ∈ tasks, task.taskId = t ∧ info = ⟨.inactive, task, []⟩ := by
  rw [ofTasks, foldl_addTask]
  dsimp only
  rw [Dict.get?_foldl_set _ _ hnodup, Dict.get?_empty, Option.or_none, Option.map_eq_some_iff]
  constructor
  · rintro ⟨task, hfind, rfl⟩
    exact ⟨task, List.mem_of_find?_eq_some hfind, by simpa using List.find?_some hfind, rfl⟩
  · rintro ⟨task, hmem, rfl, rfl⟩
    cases hfind : tasks.find? fun task' => task'.taskId = task.taskId with
    | none => exact absurd (decide_eq_true rfl) (List.find?_eq_none.mp hfind task hmem)
    | some task' =>
      have heq : task'.taskId = task.taskId := by simpa using List.find?_some hfind
      rw [List.inj_on_of_nodup_map hnodup (List.mem_of_find?_eq_some hfind) hmem heq]
      exact ⟨task, rfl, rfl⟩

theorem depended_ofTasks (tasks : List Task) :
    (ofTasks tasks).depended.Wf ∧
      ∀ d t, (ofTasks tasks).depended.Pair d t ↔ ∃ task ∈ tasks, task.taskId = t ∧ .task d ∈ task.functionArgs := by
  rw [ofTasks, foldl_addTask]
  dsimp only
  have hfold : ∀ deps : ManyToManyDict TaskID TaskID, deps.Wf →
      (tasks.foldl (fun deps task => task.requiredTaskIds.foldl (fun d r => d.add r task.taskId) deps) deps).Wf ∧
        ∀ d t, (tasks.foldl (fun deps task => task.requiredTaskIds.foldl (fun d r => d.add r task.taskId) deps) deps).Pair d t ↔
          deps.Pair d t ∨ ∃ task ∈ tasks, task.taskId = t ∧ .task d ∈ task.functionArgs := by
    induction tasks with
    | nil => exact fun deps hwf => ⟨hwf, fun d t => by simp⟩
    | cons task tasks ih =>
      intro deps hwf
      have hadded := ManyToManyDict.foldl_add id (fun _ => task.taskId) task.requiredTaskIds hwf
      obtain ⟨hwf', hpairs⟩ := ih (task.requiredTaskIds.foldl (fun d r => d.add r task.taskId) deps) hadded.1
      refine ⟨hwf', fun d t => ?_⟩
      rw [List.foldl_cons, hpairs, List.exists_mem_cons_iff, ← or_assoc]
      refine or_congr_left ((hadded.2 d t).trans (or_congr_right ?_))
      rw [← Task.mem_requiredTaskIds]
      constructor
      · rintro ⟨r, hr, rfl, rfl⟩
        exact ⟨rfl, hr⟩
      · rintro ⟨rfl, hd⟩
        exact ⟨d, hd, rfl, rfl⟩
  obtain ⟨hwf, hpairs⟩ := hfold .empty .empty
  refine ⟨hwf, fun d t => (hpairs d t).trans (or_iff_right ?_)⟩
  exact List.not_mem_nil

theorem matrix_ofTasks {gt : GraphTask} (hnodup : (gt.graph.map (·.taskId)).Nodup) (t d : TaskID) :
    (t, d) ∈ (TopologicalSorter.ofGraph (ofTasks gt.graph).graph.entries).matrix ↔ gt.DependsOn t d := by
  rw [TopologicalSorter.mem_matrix_ofGraph, entries_ofTasks hnodup]
  constructor
  · rintro ⟨entry, hentry, rfl, hd⟩
    obtain ⟨task, htask, rfl⟩ := List.mem_map.mp hentry
    exact ⟨task, htask, rfl, Task.mem_requiredTaskIds.mp hd⟩
  · rintro ⟨task, htask, rfl, hd⟩
    exact ⟨_, List.mem_map_of_mem htask, rfl, Task.mem_requiredTaskIds.mpr hd⟩

theorem prepare_eq (n : NewGraph) :
    n.prepare = (TopologicalSorter.ofGraph n.graph.entries).prepare.1.map fun _ =>
      (TopologicalSorter.ofGraph n.graph.entries).prepare.2 := by
  rw [prepare, TopologicalSorter.ofGraph]
  obtain ⟨x, sorter⟩ := (TopologicalSorter.empty.mergeGraph n.graph.entries).2.prepare
  cases x <;> rfl

theorem prepare_ok {n : NewGraph} {sorter : TopologicalSorter TaskID} (h : n.prepare = .ok sorter) :
    sorter = (TopologicalSorter.ofGraph n.graph.entries).prepare.2 := by
  rw [prepare_eq] at h
  cases hx : (TopologicalSorter.ofGraph n.graph.entries).prepare.1 with
  | error e =>
    rw [hx] at h
    cases h
  | ok =>
    rw [hx] at h
    exact (Except.ok.inj h).symm

/-- `prepare` accepts a graph without a cycle. -/
theorem prepare_of_acyclic {gt : GraphTask} (hnodup : (gt.graph.map (·.taskId)).Nodup)
    (hacyclic : ∀ t, ¬ Relation.TransGen gt.DependsOn t t) : ∃ sorter, (ofTasks gt.graph).prepare = .ok sorter := by
  set s := TopologicalSorter.ofGraph (ofTasks gt.graph).graph.entries with hs
  have hcycle : s.hasCycle = false := by
    rw [Bool.eq_false_iff]
    intro hcycle
    obtain ⟨t, hpath⟩ := (TopologicalSorter.hasCycle_iff (TopologicalSorter.closed_ofGraph _)).mp hcycle
    refine hacyclic t (Relation.TransGen.mono (fun a b hedge => ?_) t t hpath)
    exact (matrix_ofTasks hnodup a b).mp hedge
  have hprepare : s.prepare.1 = .ok () := by rw [TopologicalSorter.prepare_eq rfl, hcycle, if_neg Bool.false_ne_true]
  exact ⟨s.prepare.2, by rw [prepare_eq, hprepare]; rfl⟩

end NewGraph

end Scaler
