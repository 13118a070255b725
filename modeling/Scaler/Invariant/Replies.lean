import Scaler.Invariant.Accounts
import Scaler.Invariant.GraphRuns
import Scaler.Invariant.Registry

/-! A task that no graph names is left alone by the graph controller. Its client is told once how it ended, and
before the task is forgotten. -/

namespace Scaler

open Collections Coroutine

/-- The task is a node of the graph or an argument of a node. -/
def GraphTask.Mentions (gt : GraphTask) (t : TaskID) : Prop := ∃ node ∈ gt.graph, node.taskId = t ∨ t ∈ node.requiredTaskIds

/-- The task is the graph itself or is mentioned in it. -/
def GraphTask.Names (gt : GraphTask) (t : TaskID) : Prop := gt.taskId = t ∨ gt.Mentions t

/-- The graph controller does not work on the task. -/
def Tok.spares (t : TaskID) : Tok → Bool
  | .canceling g _ | .swept g _ | .aborting g _ _ => g ≠ t
  | .owes _ m | .owed _ m => !m.repliesTo t
  | _ => true

/-- Nothing of the graph controller is about the task. -/
structure Sched.Apart (s : Sched) (t : TaskID) (T : Multiset Tok) : Prop where
  ids : s.taskIdToGraphTaskId.get? t = none
  keys : ∀ ref, t ∉ (s.graphs ref).sorter.keys
  toks : ∀ a ∈ T, a.spares t = true

/-- The graph controller went on with something else. -/
structure Sched.Passes (s s' : Sched) (t : TaskID) : Prop where
  standing : s'.standing t = s.standing t
  ids : s.taskIdToGraphTaskId.get? t = none → s'.taskIdToGraphTaskId.get? t = none
  keys : (∀ ref, t ∉ (s.graphs ref).sorter.keys) → ∀ ref, t ∉ (s'.graphs ref).sorter.keys

section Graphs

variable {i : Tid} {s s' s'' : Sched} {t g : TaskID} {ref : Nat} {u u' T T' R : Multiset Tok}

theorem Sched.Passes.refl (s : Sched) (t : TaskID) : s.Passes s t := ⟨rfl, id, id⟩

theorem Sched.Passes.trans (h : s.Passes s' t) (h' : s'.Passes s'' t) : s.Passes s'' t :=
  ⟨h'.standing.trans h.standing, h'.ids ∘ h.ids, h'.keys ∘ h.keys⟩

theorem Sched.Passes.note {o : Obs} (h : s.Passes s' t) (ho : o.bears t = false) (hf : o.faults t = false) :
    s.Passes (s'.note o) t :=
  ⟨(Sched.standing_note ho hf).trans h.standing, h.ids, h.keys⟩

theorem Sched.Apart.pass (ha : s.Apart t T) (h : s.Passes s' t) (htoks : ∀ a ∈ T', a ∈ T ∨ a.spares t = true) : s'.Apart t T' :=
  ⟨h.ids ha.ids, h.keys ha.keys, fun a hmem => (htoks a hmem).elim (ha.toks a) id⟩

theorem Sched.Idles.passes (h : s.Idles s') (hstanding : s'.standing t = s.standing t)
    (hids : s.taskIdToGraphTaskId.get? t = none → s'.taskIdToGraphTaskId.get? t = none) : s.Passes s' t where
  standing := hstanding
  ids := hids
  keys hkeys ref := by
    rw [(h.graphs ref).sorter.keys]
    exact hkeys ref

theorem Sched.passes_setGraph {graph : Graph} (h : graph.sorter.keys = (s.graphs ref).sorter.keys) : s.Passes (s.setGraph ref graph) t where
  standing := rfl
  ids := id
  keys hkeys r := by
    change t ∉ (Function.update s.graphs ref graph r).sorter.keys
    by_cases hr : r = ref
    · rw [hr, Function.update_self, h]
      exact hkeys ref
    · rw [Function.update_of_ne hr]
      exact hkeys r

theorem Dict.get?_erase_none {K V : Type} [DecidableEq K] {d : Dict K V} {k k' : K} (h : d.get? k = none) : (d.erase k').get? k = none := by
  rw [Dict.get?_erase]
  split
  · rfl
  · exact h

theorem Sched.popGraph_passes (hg : t ≠ g) : s.Passes (s.popGraph g).2 t := by
  have hfinish : (s.onTaskFinish g).standing t = s.standing t := (s.standing_onTaskFinish t g).trans (if_neg hg)
  have hids : (s.onTaskFinish g).taskIdToGraphTaskId = s.taskIdToGraphTaskId :=
    congrArg GraphView.taskIdToGraphTaskId (congrArg Prod.fst (s.offTask_onTaskFinish g))
  refine (s.popGraph_idles g).passes ?_ fun hnone => ?_
  · rw [Sched.popGraph]
    split
    · exact hfinish
    · dsimp only
      split <;> exact hfinish
  · rw [← hids] at hnone
    rw [Sched.popGraph]
    split
    · exact hnone
    · dsimp only
      split
      · exact Dict.get?_erase_none hnone
      · rw [Dict.get?_foldl_erase]
        split
        · rfl
        · exact Dict.get?_erase_none hnone

theorem PopStep.passes {m : Message} (h : PopStep g m s s' u) (hg : t ≠ g) (hm : m.repliesTo t = false) :
    s.Passes s' t ∧ ∀ a ∈ u, a.spares t = true := by
  have hpop : s.Passes (s.popGraph g).2 t := Sched.popGraph_passes hg
  cases h with
  | ok h =>
    rw [h] at hpop
    exact ⟨hpop.note hm rfl, fun a ha => absurd ha (Multiset.notMem_zero a)⟩
  | sendFail h =>
    rw [h] at hpop
    exact ⟨hpop.note rfl rfl, fun a ha => Multiset.mem_singleton.mp ha ▸ rfl⟩
  | popFail h =>
    rw [h] at hpop
    exact ⟨hpop.note rfl rfl, fun a ha => Multiset.mem_singleton.mp ha ▸ rfl⟩

theorem spares_toks {α : Type} {f : α → Tok} {l : List α} (h : ∀ x ∈ l, (f x).spares t = true) : ∀ a ∈ toks f l, a.spares t = true := by
  intro a ha
  obtain ⟨x, hx, rfl⟩ := mem_toks.mp ha
  exact h x hx

theorem CheckStep.passes (h : CheckStep g s s' u) (hg : t ≠ g) : s.Passes s' t ∧ ∀ a ∈ u, a.spares t = true := by
  cases h with
  | done _ _ hp => exact hp.passes hg (by simpa [Message.repliesTo] using hg.symm)
  | ready _ _ hr => exact ⟨Sched.passes_setGraph (TopologicalSorter.getReady_onward hr).1.keys, spares_toks fun _ _ => rfl⟩

theorem VisitStep.passes (h : VisitStep g s s' u) (hg : t ≠ g) : s.Passes s' t ∧ ∀ a ∈ u, a.spares t = true := by
  cases h with
  | pop _ hp => exact hp.passes hg (by simpa [Message.repliesTo] using hg.symm)
  | pass => exact ⟨.refl s t, fun a ha => absurd ha (Multiset.notMem_zero a)⟩
  | @accept ref _ _ =>
    have hset : s.Passes (s.setGraph ref { s.graphs ref with status := .canceling }) t := Sched.passes_setGraph rfl
    refine ⟨hset.note (o := .graphCanceling g _ _) rfl rfl, fun a ha => ?_⟩
    simpa [Multiset.mem_singleton.mp ha, Tok.spares] using hg.symm

theorem AbortStep.passes {x : TaskResultType} (h : AbortStep g x s s' u) (hg : t ≠ g) : s.Passes s' t ∧ ∀ a ∈ u, a.spares t = true := by
  cases h with
  | pop _ hp => exact hp.passes hg (by simpa [Message.repliesTo] using hg.symm)
  | abort =>
    refine ⟨Sched.passes_setGraph rfl, fun a ha => ?_⟩
    rcases Multiset.mem_add.mp ha with ha | ha
    · simpa [Multiset.mem_singleton.mp ha, Tok.spares] using hg.symm
    · exact spares_toks (f := (.retire g _ · x)) (fun _ _ => rfl) a ha

theorem Sched.markNodeDone_passes {r : TaskResult} {x : Except Exn Unit} (h : s.markNodeDone r = (x, s')) :
    s.Passes s' t ∧ (x = .ok () → ∃ g, s.taskIdToGraphTaskId.get? r.taskId = some g) := by
  cases hg : s.taskIdToGraphTaskId.get? r.taskId with
  | none =>
    rw [Sched.markNodeDone, hg] at h
    obtain ⟨rfl, rfl⟩ := Prod.mk.inj h
    exact ⟨(Passes.refl s t).note rfl rfl, fun hok => by cases hok⟩
  | some g =>
    refine ⟨?_, fun _ => ⟨g, rfl⟩⟩
    have herased : s.Passes { s with taskIdToGraphTaskId := s.taskIdToGraphTaskId.erase r.taskId } t := ⟨rfl, Dict.get?_erase_none, id⟩
    cases hr : s.graphTaskIdToGraph.get? g with
    | none =>
      rw [Sched.markNodeDone, hg] at h
      dsimp only at h
      rw [hr] at h
      obtain ⟨-, rfl⟩ := Prod.mk.inj h
      exact herased.note rfl rfl
    | some ref =>
      obtain ⟨y, graph, results, hmark⟩ : ∃ y graph results, (s.graphs ref).markNodeDone r = (y, graph, results) := ⟨_, _, _, rfl⟩
      have hkeys : graph.sorter.keys = (s.graphs ref).sorter.keys := by
        rw [(Graph.markNodeDone_onward hmark).1.sorter.keys, Graph.reported, Graph.sorter_setInfo]
      obtain ⟨tracker, deleted, heq⟩ := Sched.markNodeDone_eq hg hr
      rw [heq, hmark] at h
      obtain ⟨-, rfl⟩ := Prod.mk.inj h
      have hset := Sched.passes_setGraph (t := t) (s := { s with taskIdToGraphTaskId := s.taskIdToGraphTaskId.erase r.taskId }) hkeys
      have hpasses : ∀ fault, s.Passes (({ s with taskIdToGraphTaskId := s.taskIdToGraphTaskId.erase r.taskId }.setGraph ref graph).note
          (.nodeDone g r (s.graphs ref).runningTaskIds (s.graphs ref).undispatched results fault)) t := fun fault =>
        (herased.trans hset).note rfl rfl
      exact ⟨(hpasses _).standing, (hpasses none).ids, (hpasses none).keys⟩

theorem Sched.markNodeCanceled_passes {c : TaskCancelConfirm} {x : Except Exn Unit} (h : s.markNodeCanceled g ref c = (x, s')) :
    s.Passes s' t := by
  rw [Sched.markNodeCanceled] at h
  obtain ⟨-, rfl⟩ := Prod.mk.inj h
  exact (Sched.passes_setGraph (Graph.markNodeCanceled_onward rfl).sorter.keys).note (o := .nodeCanceled g c.taskId _ _) rfl rfl

theorem Sched.submitNode_passes {u : TaskID} {x : Except Exn Task} (h : s.submitNode g ref u = (x, s')) : s.Passes s' t := by
  have hset : s.Passes (s.setGraph ref { (s.graphs ref).setInfo u ({ · with state := .running }) with
      runningTaskIds := (s.graphs ref).runningTaskIds.insert u }) t :=
    Sched.passes_setGraph (congrArg TopologicalSorter.keys (Graph.sorter_setInfo _ _ _))
  rw [Sched.submitNode] at h
  split at h
  · obtain ⟨-, rfl⟩ := Prod.mk.inj h
    exact .refl s t
  · dsimp only at h
    split at h
    · obtain ⟨-, rfl⟩ := Prod.mk.inj h
      exact hset
    · obtain ⟨-, rfl⟩ := Prod.mk.inj h
      exact hset.note (o := .submitted g _) rfl rfl

/-- What `__cancel_whole_graph` confirms for nodes that were never submitted. -/
theorem Graph.cancelInactive_keys {n : Nat} {graph graph' : Graph} {confirms : List TaskCancelConfirm} (hs : graph.sorter.Serving)
    (h : cancelInactive n graph = (.ok confirms, graph')) : ∀ c ∈ confirms, c.taskId ∈ graph.sorter.keys := by
  induction n generalizing graph graph' confirms with
  | zero =>
    obtain ⟨hok, -⟩ := Prod.mk.inj h
    cases hok
    exact fun c hc => absurd hc List.not_mem_nil
  | succ n ih =>
    rw [cancelInactive] at h
    split at h
    · obtain ⟨hok, -⟩ := Prod.mk.inj h
      cases hok
      exact fun c hc => absurd hc List.not_mem_nil
    · obtain ⟨y, sorter, hready⟩ : ∃ y sorter, graph.sorter.getReady = (y, sorter) := ⟨_, _, rfl⟩
      obtain ⟨honward, hready'⟩ := TopologicalSorter.getReady_onward hready
      rw [hready] at h
      cases y with
      | error e =>
        obtain ⟨hok, -⟩ := Prod.mk.inj h
        cases hok
      | ok ready =>
        dsimp only at h
        split at h
        · obtain ⟨hok, -⟩ := Prod.mk.inj h
          cases hok
          exact fun c hc => absurd hc List.not_mem_nil
        · obtain ⟨z, graph₁, hmark⟩ : ∃ z graph₁, markAllCanceled ready { graph with sorter := sorter } = (z, graph₁) := ⟨_, _, rfl⟩
          have hmarked := (Onward.of_sorter honward).trans (markAllCanceled_onward hmark)
          rw [hmark] at h
          cases z with
          | error e =>
            obtain ⟨hok, -⟩ := Prod.mk.inj h
            cases hok
          | ok =>
            obtain ⟨hok, -⟩ := Prod.mk.inj h
            obtain ⟨rest, hrest, rfl⟩ : ∃ rest, (cancelInactive n graph₁).1 = .ok rest ∧
                ready.map (fun t => ⟨t, .canceled⟩) ++ rest = confirms := by
              cases hrest : (cancelInactive n graph₁).1 with
              | error e =>
                rw [hrest] at hok
                cases hok
              | ok rest =>
                rw [hrest] at hok
                exact ⟨rest, rfl, Except.ok.inj hok⟩
            intro c hc
            rcases List.mem_append.mp hc with hc | hc
            · obtain ⟨k, hk, rfl⟩ := List.mem_map.mp hc
              obtain rfl := (hready' ready rfl).1
              exact (hs.issuing.visited k (hs.issuing.ready k hk)).1
            · rw [← hmarked.sorter.keys]
              exact ih (hmarked.sorter.serving hs) (Prod.ext hrest rfl) c hc

theorem Sched.sweep_passes {x : Except Exn (List TaskCancelConfirm)} (hs : (s.graphs ref).sorter.Serving) (h : s.sweep g ref = (x, s')) :
    s.Passes s' t ∧ ∀ confirms, x = .ok confirms → ∀ c ∈ confirms, c.taskId ∈ (s.graphs ref).sorter.keys := by
  obtain ⟨y, graph, hcancel⟩ : ∃ y graph, (s.graphs ref).cancelInactive ((s.graphs ref).sorter.keys.length + 1) = (y, graph) := ⟨_, _, rfl⟩
  have hset : s.Passes (s.setGraph ref graph) t := Sched.passes_setGraph (Graph.cancelInactive_onward hcancel).sorter.keys
  rw [Sched.sweep, hcancel] at h
  obtain ⟨rfl, rfl⟩ := Prod.mk.inj h
  cases y with
  | ok confirms =>
    refine ⟨hset.note (o := .graphSwept g) rfl rfl, fun confirms' hok => ?_⟩
    cases hok
    exact Graph.cancelInactive_keys hs hcancel
  | error e => exact ⟨hset.note (o := .sweepFailed g) rfl rfl, fun confirms hok => by cases hok⟩

/-- The graph that is registered has only nodes that the message names. -/
theorem NewGraph.keys_prepare {gt : GraphTask} {sorter : TopologicalSorter TaskID} (h : (NewGraph.ofTasks gt.graph).prepare = .ok sorter)
    {k : TaskID} (hk : k ∈ sorter.keys) : gt.Mentions k := by
  rw [NewGraph.prepare_ok h, TopologicalSorter.prepare_eq rfl] at hk
  have hreads := NewGraph.reads_ofTasks gt.graph
  rcases GraphTask.mem_keys_sorter.mp hk with ⟨node, hnode, hid⟩ | ⟨t', ds, hds, hd⟩
  · exact ⟨node, hnode, .inl hid⟩
  · rw [hreads.required, Option.map_eq_some_iff] at hds
    obtain ⟨info, hinfo, rfl⟩ := hds
    exact ⟨info.task, (hreads.node _ _ hinfo).2, .inr hd⟩

theorem Sched.registerGraph_passes {client : ClientID} {gt : GraphTask} {sorter : TopologicalSorter TaskID}
    (h : (NewGraph.ofTasks gt.graph).prepare = .ok sorter) (hnot : ¬ gt.Names t) :
    s.Passes (s.registerGraph gt.taskId (Graph.ofTasks client gt sorter)) t where
  standing := Sched.standing_note (o := .graphRegistered gt.taskId s.nextGraph) (s := s) rfl rfl
  ids := id
  keys hkeys ref := by
    change t ∉ (Function.update s.graphs s.nextGraph (Graph.ofTasks client gt sorter) ref).sorter.keys
    by_cases hr : ref = s.nextGraph
    · rw [hr, Function.update_self]
      exact fun hk => hnot (.inr (NewGraph.keys_prepare h hk))
    · rw [Function.update_of_ne hr]
      exact hkeys ref

theorem Sched.Serves.ne_registered (hs : s.Serves T) (hnot : ∀ client gt, Heard s.graphHistory client gt → ¬ gt.Names t)
    (hr : s.graphTaskIdToGraph.get? g = some ref) : t ≠ g := by
  obtain ⟨client, gt, hheard, rfl, -⟩ := hs.message g ref (hs.registered g ref hr)
  rintro rfl
  exact hnot client gt hheard (.inl rfl)

theorem Sched.Apart.ne_entry (ha : s.Apart t T) {v : TaskID} (h : s.taskIdToGraphTaskId.get? v = some g) : v ≠ t := by
  rintro rfl
  rw [ha.ids] at h
  cases h

theorem Sched.set_passes {v w : TaskID} (hv : t ≠ v) :
    s.Passes { s with taskIdToGraphTaskId := s.taskIdToGraphTaskId.set v w } t :=
  ⟨rfl, fun hnone => (Dict.get?_set_ne _ hv _).trans hnone, id⟩

theorem GraphStep.apart (h : GraphStep i s u s' u') (hs : s.Serves (graphToks (u + R)))
    (hnot : ∀ client gt, Heard s.graphHistory client gt → ¬ gt.Names t) (ha : s.Apart t (u + R)) :
    (s.Passes s' t ∨ ∃ c, s.getStateMachine t = none ∧ s' = s.noteSent (.client c) (.taskCancelConfirm ⟨t, .cancelNotFound⟩)) ∧
      ∀ a ∈ u', a ∈ u ∨ a.spares t = true := by
  have hall : ∀ {b : Tok}, b.spares t = true → ∀ a ∈ ({b} : Multiset Tok), a ∈ u ∨ a.spares t = true := by
    intro b hb a hmem
    exact .inr (Multiset.mem_singleton.mp hmem ▸ hb)
  have hzero : ∀ a ∈ (0 : Multiset Tok), a ∈ u ∨ a.spares t = true := fun a hmem => absurd hmem (Multiset.notMem_zero a)
  have hmine : ∀ a ∈ u, a.spares t = true := fun a hmem => ha.toks a (Multiset.mem_add.mpr (.inl hmem))
  have hadd : ∀ {v w : Multiset Tok}, v ≤ u → (∀ a ∈ w, a.spares t = true) → ∀ a ∈ v + w, a ∈ u ∨ a.spares t = true := by
    intro v w hv hw a hmem
    exact (Multiset.mem_add.mp hmem).imp (Multiset.mem_of_le hv) (hw a)
  have htaken : ∀ {client gt}, .taken client gt ∈ u → ¬ gt.Names t := by
    intro client gt hmem
    exact hnot client gt (hs.taken client gt (Multiset.mem_filter.mpr ⟨Multiset.mem_add.mpr (.inl hmem), rfl⟩))
  have hadding : ∀ {client gt done}, .adding client gt done ∈ u → ¬ gt.Names t := by
    intro client gt done hmem
    exact hnot client gt (hs.adding client gt done (Multiset.mem_filter.mpr ⟨Multiset.mem_add.mpr (.inl hmem), rfl⟩))
  have hne : ∀ {g ref}, s.graphTaskIdToGraph.get? g = some ref → t ≠ g := hs.ne_registered hnot
  cases h with
  | queueGraph => exact ⟨.inl ⟨rfl, id, id⟩, hzero⟩
  | takeGraph => exact ⟨.inl ⟨rfl, id, id⟩, hall rfl⟩
  | refuseGraph => exact ⟨.inl ((Sched.Passes.refl s t).note rfl rfl), hall rfl⟩
  | @beginGraph client gt s₁ h =>
    have hg : t ≠ gt.taskId := fun heq => htaken (Multiset.mem_singleton_self _) (.inl heq.symm)
    obtain rfl : (s.onTaskBegin client gt.taskId).2 = s₁ := congrArg Prod.snd h
    have hbegin : s.Passes (s.onTaskBegin client gt.taskId).2 t :=
      ⟨congrArg (fun owner => { s.standing t with owner }) (OneToManyDict.getKey?_add rfl hg), id, id⟩
    exact ⟨.inl (hbegin.trans (Sched.set_passes hg)), hall rfl⟩
  | @addNode client gt done task rest h =>
    have hnode : t ≠ task.taskId := by
      refine fun heq => hadding (Multiset.mem_singleton_self _) (.inr ⟨task, ?_, .inl heq.symm⟩)
      simp [h]
    exact ⟨.inl (Sched.set_passes hnode), hall rfl⟩
  | rejectGraph => exact ⟨.inl ((Sched.Passes.refl s t).note rfl rfl), hall rfl⟩
  | registerGraph h hc =>
    have hnames := hadding (Multiset.mem_singleton_self _)
    obtain ⟨hcheck, htoks⟩ := hc.passes fun heq => hnames (.inl heq.symm)
    exact ⟨.inl ((Sched.registerGraph_passes h hnames).trans hcheck), fun a hmem => .inr (htoks a hmem)⟩
  | submit h =>
    refine ⟨.inl (Sched.submitNode_passes h), fun a hmem => .inr ?_⟩
    rcases Multiset.mem_cons.mp hmem with rfl | hmem
    · rfl
    · exact Multiset.mem_singleton.mp hmem ▸ rfl
  | submitted => exact ⟨.inl (.refl s t), hzero⟩
  | submitFail h => exact ⟨.inl ((Sched.submitNode_passes h).note rfl rfl), hall rfl⟩
  | loseBatch => exact ⟨.inl (.refl s t), hall rfl⟩
  | loseRefused => exact ⟨.inl (.refl s t), fun a hmem => .inl (Multiset.mem_add.mpr (.inr hmem))⟩
  | giveUp => exact ⟨.inl (.refl s t), hall rfl⟩
  | @nodeDone r s₁ g ref w s' v _ hg hr _ h _ hok hx =>
    have hdone : s.Passes s₁ t := (Sched.markNodeDone_passes h).1
    rcases Classical.em (r.resultType = .success) with hsuccess | hfailed
    · obtain ⟨hcheck, htoks⟩ := (hok hsuccess).passes (hne hr)
      exact ⟨.inl (hdone.trans hcheck), hadd le_rfl htoks⟩
    · obtain ⟨habort, htoks⟩ := (hx hfailed).passes (hne hr)
      exact ⟨.inl (hdone.trans habort), hadd le_rfl htoks⟩
  | nodeDoneFail _ h =>
    refine ⟨.inl (Sched.markNodeDone_passes h).1, hadd (w := {.fault .other}) le_rfl fun a hmem => ?_⟩
    exact Multiset.mem_singleton.mp hmem ▸ rfl
  | nodeCanceled _ _ hr h hv =>
    obtain ⟨hvisit, htoks⟩ := hv.passes (hne hr)
    exact ⟨.inl ((Sched.markNodeCanceled_passes h).trans hvisit), hadd le_rfl htoks⟩
  | nodeCanceledFail _ _ _ h =>
    refine ⟨.inl (Sched.markNodeCanceled_passes h), hadd (w := {.fault .other}) le_rfl fun a hmem => ?_⟩
    exact Multiset.mem_singleton.mp hmem ▸ rfl
  | @stranger c v h hg =>
    obtain ⟨g, hentry⟩ := Option.isSome_iff_exists.mp hg
    exact ⟨.inl (.refl s t), hall (by simpa [Tok.spares, Message.repliesTo] using ha.ne_entry hentry)⟩
  | @notFound c v h =>
    by_cases hv : v = t
    · subst hv
      exact ⟨.inr ⟨c, h, rfl⟩, hzero⟩
    · exact ⟨.inl ((Sched.Passes.refl s t).note (by simpa [Obs.bears, Message.repliesTo] using hv) rfl), hzero⟩
  | visit h hv =>
    obtain ⟨ref, hr⟩ := Option.isSome_iff_exists.mp h
    obtain ⟨hvisit, htoks⟩ := hv.passes (hne hr)
    exact ⟨.inl hvisit, fun a hmem => .inr (htoks a hmem)⟩
  | @sweep g ref confirms s' h =>
    have hg : g ≠ t := by simpa [Tok.spares] using hmine _ (Multiset.mem_singleton_self _)
    obtain ⟨hsweep, hkeys⟩ := Sched.sweep_passes (t := t) (hs.serving ref) h
    refine ⟨.inl hsweep, fun a hmem => .inr ?_⟩
    rcases Multiset.mem_add.mp hmem with hmem | hmem
    · simpa [Multiset.mem_singleton.mp hmem, Tok.spares] using hg
    · refine spares_toks (fun c hc => ?_) a hmem
      have hc' : c.taskId ≠ t := fun heq => ha.keys ref (heq ▸ hkeys confirms rfl c hc)
      simpa [Tok.spares, Message.repliesTo] using hc'
  | sweepFail h => exact ⟨.inl (Sched.sweep_passes (hs.serving _) h).1, hall rfl⟩
  | sweptEnd => exact ⟨.inl (.refl s t), hzero⟩
  | @sweptPop g _ _ _ _ hp =>
    have hg : g ≠ t := by simpa [Tok.spares] using hmine _ (Multiset.mem_singleton_self _)
    obtain ⟨hpop, htoks⟩ := hp.passes hg.symm (by simpa [Message.repliesTo] using hg)
    exact ⟨.inl hpop, fun a hmem => .inr (htoks a hmem)⟩
  | @retire g ref v x r _ hw _ h =>
    obtain ⟨hdone, hentry⟩ := Sched.markNodeDone_passes (t := t) h
    obtain ⟨g', hg'⟩ := hentry rfl
    exact ⟨.inl hdone, hall (by simpa [Tok.spares, Message.repliesTo] using ha.ne_entry hg')⟩
  | abortReady _ hr =>
    exact ⟨.inl (Sched.passes_setGraph (TopologicalSorter.getReady_onward hr).1.keys), hadd le_rfl (spares_toks fun _ _ => rfl)⟩
  | abortedEnd => exact ⟨.inl (.refl s t), hzero⟩
  | @abortedPop g _ _ _ _ _ hp =>
    have hg : g ≠ t := by simpa [Tok.spares] using hmine _ (Multiset.mem_singleton_self _)
    obtain ⟨hpop, htoks⟩ := hp.passes hg.symm (by simpa [Message.repliesTo] using hg)
    exact ⟨.inl hpop, fun a hmem => .inr (htoks a hmem)⟩
  | address => exact ⟨.inl (.refl s t), hall (hmine (.owes _ _) (Multiset.mem_singleton_self _))⟩
  | @send c m =>
    have hm : m.repliesTo t = false := by simpa [Tok.spares] using hmine _ (Multiset.mem_singleton_self _)
    exact ⟨.inl ((Sched.Passes.refl s t).note hm rfl), hzero⟩
  | sendFail => exact ⟨.inl ((Sched.Passes.refl s t).note rfl rfl), hall rfl⟩
  | lose => exact ⟨.inl (.refl s t), hall rfl⟩

theorem Sched.standing_noteHeartbeat (s : Sched) (t : TaskID) (w : WorkerID) (info : WorkerHeartbeat) :
    (s.noteHeartbeat w info).standing t = s.standing t := by
  unfold noteHeartbeat
  dsimp only
  split <;> rfl

theorem Message.IsPlain.repliesTo {m : Message} (h : m.IsPlain) : m.repliesTo t = false := by
  cases m with
  | taskResult => exact h.elim
  | taskCancelConfirm => exact h.elim
  | _ => rfl

theorem OtherStep.standing (h : OtherStep i s u s' u') : s'.standing t = s.standing t := by
  have hremoved : ∀ {w} {x : Except Exn (List TaskID)} {s₁ : Sched}, s.removeWorker w = (x, s₁) → s₁.standing t = s.standing t := by
    intro w x s₁ hr
    rw [show s₁ = _ from (congrArg Prod.snd hr).symm]
    exact Sched.standing_note (o := .workerRemoved w _ _) (s := s) rfl rfl
  cases h with
  | @plainSend peer m h =>
    refine Sched.standing_note ?_ rfl
    cases peer with
    | worker w => rfl
    | client c => exact h.repliesTo
  | addWorker h => exact congrArg (fun r => Sched.standing r.2 t) h.symm
  | connect => exact Sched.standing_noteHeartbeat _ _ _ _
  | heartbeat => exact Sched.standing_noteHeartbeat _ _ _ _
  | @leave w _ =>
    obtain ⟨ms, ws, heq⟩ := Sched.removeWorkerFromManager_eq { s with workerAliveSince := s.workerAliveSince.erase w } w
    rw [heq]
    rfl
  | removeWorker h => exact hremoved h
  | removeWorkerFail h => exact (Sched.standing_note rfl rfl).trans (hremoved h)
  | receive => exact Sched.standing_note rfl rfl
  | sendFail => exact Sched.standing_note rfl rfl
  | storageFail => exact Sched.standing_note rfl rfl
  | payloadMissing => exact Sched.standing_note rfl rfl
  | cancelRefused => exact Sched.standing_note rfl rfl
  | _ => rfl

theorem applying_taskToks (t : TaskID) (T : Multiset Tok) : applying t (taskToks T) = applying t T := by
  rw [applying, taskToks, Multiset.filter_filter]
  refine Multiset.filter_congr fun a _ => and_iff_left_of_imp fun ha => ?_
  cases a with
  | apply => rfl
  | _ => cases ha

theorem OtherStep.applying (h : OtherStep i s u s' u') : Scaler.applying t u' = Scaler.applying t u := by
  cases h with
  | removeWorker h =>
    refine applying_eq_zero fun a ha => ?_
    obtain ⟨x, -, rfl⟩ := mem_toks.mp ha
    rfl
  | _ => simp [Tok.applies]

theorem OtherStep.spares (h : OtherStep i s u s' u') : ∀ a ∈ u', a.spares t = true := by
  cases h with
  | removeWorker h => exact spares_toks fun _ _ => rfl
  | _ => exact forall_of_filter rfl

theorem TaskStep.spares (h : TaskStep i s u s' u') : ∀ a ∈ u', a.spares t = true := by
  cases h <;> exact forall_of_filter rfl

/-- The account of a task that is not known stays closed when the client hears that it is not known. -/
theorem Standing.Keeps.notFound {v : Standing} {A : Multiset Tok} (h : v.Keeps t A) (habsent : v.absent = true) (c : ClientID)
    (holder : Option WorkerID) :
    Standing.Keeps { v with trace := .sent (.client c) (.taskCancelConfirm ⟨t, .cancelNotFound⟩) holder :: v.trace } t A := by
  have hclosed : account t v.trace = .closed := h.absent.mp habsent
  have hsame : account t (.sent (.client c) (.taskCancelConfirm ⟨t, .cancelNotFound⟩) holder :: v.trace) = account t v.trace := by
    rw [account, if_neg fun hdue => ?_]
    rw [hclosed] at hdue
    cases hdue.2
  constructor
  · rw [hsame]
    exact h.absent
  · intro uid e source phase hmem
    rw [hsame]
    exact h.applied uid e source phase hmem
  · rw [hsame]
    exact h.idle
  · rw [hsame]
    exact h.owned
  · exact ⟨fun _ => .inr ⟨hclosed, rfl⟩, h.answers⟩
  · exact fun hf => ⟨trivial, h.goes hf⟩

theorem Step.keeps (h : Step i s u s' u') (hs : s.Serves (graphToks (u + R))) (hl : Locked s.taskView (taskToks (u + R)))
    (hnot : ∀ client gt, Heard s.graphHistory client gt → ¬ gt.Names t) (ha : s.Apart t (u + R))
    (hk : (s.standing t).Keeps t (applying t (u + R))) :
    s'.Apart t (u' + R) ∧ (s'.standing t).Keeps t (applying t (u' + R)) := by
  have hview : s'.graphView = s.graphView → (∀ a ∈ u', a.spares t = true) → s'.Apart t (u' + R) := by
    intro hsame hspares
    have hids : s'.taskIdToGraphTaskId = s.taskIdToGraphTaskId := congrArg GraphView.taskIdToGraphTaskId hsame
    have hgraphs : s'.graphs = s.graphs := congrArg GraphView.graphs hsame
    refine ⟨hids ▸ ha.ids, hgraphs ▸ ha.keys, fun a hmem => ?_⟩
    exact (Multiset.mem_add.mp hmem).elim (hspares a) fun hmem => ha.toks a (Multiset.mem_add.mpr (.inr hmem))
  cases h with
  | task h =>
    rw [taskToks_add] at hl
    exact ⟨hview h.graphView h.spares, h.keeps hl hk⟩
  | graph h =>
    have hsame : applying t (u' + R) = applying t (u + R) := by
      rw [applying_add, applying_add, ← applying_taskToks t u', h.taskToks, applying_taskToks]
    obtain ⟨hcases, hspares⟩ := h.apart hs hnot ha
    have htoks : ∀ a ∈ u' + R, a ∈ u + R ∨ a.spares t = true := by
      intro a hmem
      rcases Multiset.mem_add.mp hmem with hmem | hmem
      · exact (hspares a hmem).imp_left fun hmem => Multiset.mem_add.mpr (.inl hmem)
      · exact .inl (Multiset.mem_add.mpr (.inr hmem))
    rw [hsame]
    rcases hcases with hpasses | ⟨c, hnone, rfl⟩
    · rw [hpasses.standing]
      exact ⟨ha.pass hpasses htoks, hk⟩
    · refine ⟨⟨ha.ids, ha.keys, fun a hmem => (htoks a hmem).elim (ha.toks a) id⟩, ?_⟩
      rw [Sched.standing_noteSent (by simp [Message.repliesTo])]
      refine hk.notFound ?_ c none
      rw [Sched.standing, hnone]
      rfl
  | other h =>
    rw [applying_add, h.applying, ← applying_add, h.standing]
    exact ⟨hview h.graphView h.spares, hk⟩

end Graphs

section Runs

variable {cfg : SchedulerConfig} {s : Sched} {t : TaskID} {tr : List Obs}

theorem Heard.of_suffix {h h' : List Obs} {client : ClientID} {gt : GraphTask} (hheard : Heard h client gt) (hsuffix : h <:+ h') :
    Heard h' client gt := hsuffix.subset hheard

theorem Step.graphHistory {i : Tid} {s s' : Sched} {u u' : Multiset Tok} (h : Step i s u s' u') : s.graphHistory <:+ s'.graphHistory := by
  obtain ⟨later, hlater⟩ := h.trace
  exact ⟨later.filter Obs.isGraph, by rw [Sched.graphHistory, Sched.graphHistory, ← hlater, List.filter_append]⟩

theorem map_snd_tag (i : Tid) (u : Multiset Tok) : (tag i u).map Prod.snd = u := by
  rw [tag, Multiset.map_map]
  exact Multiset.map_id u

theorem Run.keeps {M : Multiset (Tid × Tok)} (h : Run cfg s M) (hnot : ∀ client gt, Heard s.graphHistory client gt → ¬ gt.Names t) :
    s.Apart t (M.map Prod.snd) ∧ (s.standing t).Keeps t (applying t (M.map Prod.snd)) := by
  induction h with
  | init =>
    refine ⟨⟨rfl, fun ref => List.not_mem_nil, fun a ha => absurd ha (Multiset.notMem_zero a)⟩, ?_⟩
    constructor
    · exact iff_of_true rfl rfl
    · exact fun _ _ _ _ ha => absurd ha (Multiset.notMem_zero _)
    · simp [Sched.standing, Sched.init, account]
    · simp [Sched.standing, Sched.init, account]
    · trivial
    · exact fun _ => trivial
  | @step s s' i u u' M hrun hs ih =>
    have hbefore : ∀ client gt, Heard s.graphHistory client gt → ¬ gt.Names t :=
      fun client gt hheard => hnot client gt (hheard.of_suffix hs.graphHistory)
    obtain ⟨ha, hk⟩ := ih hbefore
    have hserves := hrun.serves
    have hlocked := hrun.locked
    rw [Multiset.map_add, map_snd_tag] at ha hk hserves hlocked ⊢
    exact hs.keeps hserves hlocked hbefore ha hk
  | fork _ _ ih =>
    rw [Multiset.map_cons] at ih ⊢
    exact ih hnot
  | join _ ih =>
    rw [Multiset.map_cons] at ih ⊢
    exact ih hnot

/-- Nothing was said of the task since it was registered. -/
theorem account_due (h : account t tr = .due) :
    ∃ mid uid pending before, tr = mid ++ Obs.registered t uid pending :: before ∧ ∀ o ∈ mid, o.bears t = false := by
  induction tr with
  | nil => cases h
  | cons o tr ih =>
    have hlater : o.bears t = false → ∃ mid uid pending before,
        o :: tr = mid ++ Obs.registered t uid pending :: before ∧ ∀ o ∈ mid, o.bears t = false := by
      intro ho
      rw [account_cons ho] at h
      obtain ⟨mid, uid, pending, before, rfl, hmid⟩ := ih h
      exact ⟨o :: mid, uid, pending, before, rfl, List.forall_mem_cons.mpr ⟨ho, hmid⟩⟩
    cases ho : o.bears t with
    | false => exact hlater ho
    | true =>
      cases o with
      | registered u uid pending =>
        obtain rfl : u = t := of_decide_eq_true ho
        exact ⟨[], uid, pending, tr, rfl, fun o ho => absurd ho List.not_mem_nil⟩
      | removed u uid x =>
        rw [account, if_pos (of_decide_eq_true ho)] at h
        cases h
      | sent peer m holder =>
        cases peer with
        | worker w => cases ho
        | client c =>
          have hm : m.repliesTo t = true := ho
          by_cases hdue : account t tr = .due
          · rw [account, if_pos ⟨hm, hdue⟩] at h
            cases h
          · rw [account, if_neg fun h => hdue h.2] at h
            exact absurd h hdue
      | _ => cases ho

/-- The last that was said of the task is the answer. -/
theorem account_settled (h : account t tr = .settled) :
    ∃ mid client m holder before, tr = mid ++ Obs.sent (.client client) m holder :: before ∧ m.IsReplyTo t ∧ ∀ o ∈ mid, o.bears t = false := by
  induction tr with
  | nil => cases h
  | cons o tr ih =>
    cases ho : o.bears t with
    | false =>
      rw [account_cons ho] at h
      obtain ⟨mid, client, m, holder, before, rfl, hm, hmid⟩ := ih h
      exact ⟨o :: mid, client, m, holder, before, rfl, hm, List.forall_mem_cons.mpr ⟨ho, hmid⟩⟩
    | true =>
      cases o with
      | registered u uid pending =>
        rw [account, if_pos (of_decide_eq_true ho)] at h
        cases h
      | removed u uid x =>
        rw [account, if_pos (of_decide_eq_true ho)] at h
        cases h
      | sent peer m holder =>
        cases peer with
        | worker w => cases ho
        | client c =>
          have hm : m.repliesTo t = true := ho
          exact ⟨[], c, m, holder, tr, rfl, Message.repliesTo_iff.mp hm, fun o ho => absurd ho List.not_mem_nil⟩
      | _ => cases ho

/-- The task was removed since it was last registered. -/
theorem account_closed (h : account t tr = .closed) {mid before : List Obs} {uid : Nat} {pending : List TaskEvent}
    (hsplit : tr = mid ++ .registered t uid pending :: before) : ∃ uid x, .removed t uid x ∈ mid := by
  induction mid generalizing tr with
  | nil =>
    rw [hsplit, List.nil_append, account, if_pos rfl] at h
    cases h
  | cons o mid ih =>
    subst hsplit
    have hrest : account t (mid ++ .registered t uid pending :: before) = .closed → ∃ uid x, .removed t uid x ∈ o :: mid := by
      intro hclosed
      obtain ⟨uid', x, hmem⟩ := ih hclosed rfl
      exact ⟨uid', x, List.mem_cons_of_mem o hmem⟩
    cases ho : o.bears t with
    | false =>
      rw [List.cons_append, account_cons ho] at h
      exact hrest h
    | true =>
      cases o with
      | registered u uid' pending' =>
        rw [List.cons_append, account, if_pos (of_decide_eq_true ho)] at h
        cases h
      | removed u uid' x =>
        obtain rfl : u = t := of_decide_eq_true ho
        exact ⟨uid', x, List.mem_cons_self⟩
      | sent peer m holder =>
        cases peer with
        | worker w => cases ho
        | client c =>
          rw [List.cons_append, account] at h
          split at h
          · cases h
          · exact hrest h
      | _ => cases ho

/-- A client that is told how a task outside all graphs ended hears it for the first time since the task was registered,
or hears that the task is not known, and then it is not registered. -/
theorem answered_once {c : Config Sched Exn Label Proc} (h : Reachable scheduler (Sched.init cfg) c) (hc : c.Suspended)
    (hnot : ∀ source gt, .received source (.graphTask gt) ∈ c.state.trace → ¬ gt.Names t) {client : ClientID} {m : Message}
    {holder : Option WorkerID} {later earlier : List Obs} (htrace : c.state.trace = later ++ .sent (.client client) m holder :: earlier)
    (hm : m.IsReplyTo t) :
    (∃ mid uid pending before, earlier = mid ++ Obs.registered t uid pending :: before ∧ ∀ o ∈ mid, o.bears t = false) ∨
      m = .taskCancelConfirm ⟨t, .cancelNotFound⟩ ∧ ∀ mid uid pending before,
        earlier = mid ++ Obs.registered t uid pending :: before → ∃ uid x, Obs.removed t uid x ∈ mid := by
  obtain ⟨M, hrun, -⟩ := exists_run h hc
  have hkeeps := (hrun.keeps fun client gt hheard => hnot client.bytes gt (List.mem_of_mem_filter hheard)).2
  have hanswers := answersDue_filter.mp hkeeps.answers
  rw [htrace] at hanswers
  rcases hanswers.split (Message.repliesTo_iff.mpr hm) with hdue | ⟨hclosed, rfl⟩
  · exact .inl (account_due hdue)
  · exact .inr ⟨rfl, fun mid uid pending before hsplit => account_closed hclosed hsplit⟩

/-- While no transition of a task outside all graphs raises, the scheduler forgets the task only after its client was told
how it ended. -/
theorem told_before_removal {c : Config Sched Exn Label Proc} (h : Reachable scheduler (Sched.init cfg) c) (hc : c.Suspended)
    (hnot : ∀ source gt, .received source (.graphTask gt) ∈ c.state.trace → ¬ gt.Names t)
    (hcalm : ∀ e : TaskEvent, e.taskId = t → .faulted e ∉ c.state.trace) {uid : Nat} {x : TaskState} {later earlier : List Obs}
    (htrace : c.state.trace = later ++ .removed t uid x :: earlier) :
    ∃ mid client m holder before, earlier = mid ++ Obs.sent (.client client) m holder :: before ∧ m.IsReplyTo t ∧
      ∀ o ∈ mid, o.bears t = false := by
  obtain ⟨M, hrun, -⟩ := exists_run h hc
  have hkeeps := (hrun.keeps fun client gt hheard => hnot client.bytes gt (List.mem_of_mem_filter hheard)).2
  have hfaulted : (c.state.standing t).faulted = false := by
    refine List.any_eq_false.mpr fun o ho hf => ?_
    cases o with
    | faulted e => exact hcalm e (of_decide_eq_true hf) ho
    | _ => cases hf
  have hgoes := goesSettled_filter.mp (hkeeps.goes hfaulted)
  rw [htrace] at hgoes
  exact account_settled (hgoes.split rfl)

/-- A worker connects and reports the result of the first task. -/
def firstResult : List (Move Proc) :=
  [.spawn (.onReceiveMessage 200 (.workerHeartbeat ⟨1, [], []⟩)), .resume [0], .resume [0], .resume [0],
    .spawn (.onReceiveMessage 100 (.task ⟨⟨1⟩, ⟨100⟩, [], ⟨0⟩, [], []⟩)), .resume [1], .resume [1], .resume [1], .resume [1],
    .spawn (.onReceiveMessage 200 (.taskResult ⟨⟨1⟩, .success, [], [⟨7⟩]⟩)), .resume [2], .resume [2]]

def Obs.isGraphTask : Obs → Bool
  | .received _ (.graphTask _) => true
  | _ => false

def Obs.isFaulted : Obs → Bool
  | .faulted _ => true
  | _ => false

/-- A run without graphs and without exceptions ends with the observation. -/
def endsPlainly (moves : List (Move Proc)) (o : Obs) : Bool :=
  (drive scheduler 50 (start (Sched.init ⟨.evenLoad, false⟩)) moves).any fun c => c.current.isNone &&
    c.state.trace.all (fun o => !o.isGraphTask && !o.isFaulted) && decide (c.state.trace.head? = some o)

theorem exists_plain {moves : List (Move Proc)} {o : Obs} (h : endsPlainly moves o = true) :
    ∃ (c : Config Sched Exn Label Proc) (earlier : List Obs), Reachable scheduler (Sched.init ⟨.evenLoad, false⟩) c ∧ c.Suspended ∧
      (∀ t source gt, .received source (.graphTask gt) ∈ c.state.trace → ¬ gt.Names t) ∧ (∀ e, .faulted e ∉ c.state.trace) ∧
      c.state.trace = o :: earlier := by
  obtain ⟨c, hc, hb⟩ := (Option.any_eq_true _ _).mp h
  simp only [Bool.and_eq_true, Option.isNone_iff_eq_none, List.all_eq_true, decide_eq_true_eq] at hb
  obtain ⟨⟨hs, hplain⟩, hhead⟩ := hb
  obtain ⟨earlier, hearlier⟩ := List.head?_eq_some_iff.mp hhead
  refine ⟨c, earlier, Reachable.drive .start hc, hs, fun t source gt hmem => ?_, fun e hmem => ?_, hearlier⟩
  · cases (hplain _ hmem).1
  · cases (hplain _ hmem).2

theorem answered_once_first : ∃ (c : Config Sched Exn Label Proc) (earlier : List Obs),
    Reachable scheduler (Sched.init ⟨.evenLoad, false⟩) c ∧
      c.state.trace = .sent (.client ⟨100⟩) (.taskResult ⟨⟨1⟩, .success, [], [⟨7⟩]⟩) none :: earlier ∧
      ∃ mid uid pending before, earlier = mid ++ Obs.registered ⟨1⟩ uid pending :: before ∧ ∀ o ∈ mid, o.bears ⟨1⟩ = false := by
  have hend : endsPlainly firstResult (.sent (.client ⟨100⟩) (.taskResult ⟨⟨1⟩, .success, [], [⟨7⟩]⟩) none) = true := by
    decide +kernel
  obtain ⟨c, earlier, hr, hs, hnot, -, htrace⟩ := exists_plain hend
  refine ⟨c, earlier, hr, htrace, ?_⟩
  rw [← List.nil_append (_ :: earlier)] at htrace
  exact (answered_once hr hs (hnot _) htrace rfl).resolve_right fun hfound => by cases hfound.1

theorem told_before_removal_first : ∃ (c : Config Sched Exn Label Proc) (earlier : List Obs),
    Reachable scheduler (Sched.init ⟨.evenLoad, false⟩) c ∧ c.state.trace = .removed ⟨1⟩ 0 .success :: earlier ∧
      ∃ mid client m holder before, earlier = mid ++ Obs.sent (.client client) m holder :: before ∧ m.IsReplyTo ⟨1⟩ ∧
        ∀ o ∈ mid, o.bears ⟨1⟩ = false := by
  have hend : endsPlainly (firstResult ++ [Move.resume [2], .resume [2]]) (.removed ⟨1⟩ 0 .success) = true := by
    decide +kernel
  obtain ⟨c, earlier, hr, hs, hnot, hcalm, htrace⟩ := exists_plain hend
  refine ⟨c, earlier, hr, htrace, ?_⟩
  rw [← List.nil_append (_ :: earlier)] at htrace
  exact told_before_removal hr hs (hnot _) (fun e _ => hcalm e) htrace

end Runs

end Scaler
