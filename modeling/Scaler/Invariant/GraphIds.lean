import Scaler.Invariant.GraphRuns

/-! The two maps of the graph controller agree: an id that stands for a node or for a graph belongs to a graph that
is registered or that is being added. -/

namespace Scaler

open Collections Coroutine

variable {cfg : SchedulerConfig} {i : Tid} {s s' s₁ : Sched} {t t' R T T' : Multiset Tok} {g : TaskID}

def Tok.isFault : Tok → Bool
  | .fault _ => true
  | _ => false

/-- No exception was observed. -/
def Sched.Calm (s : Sched) : Prop := ∀ o ∈ s.trace, o.isFault = false

theorem Sched.Calm.of_suffix (h : s'.Calm) (hsuffix : s.trace <:+ s'.trace) : s.Calm := fun o ho => h o (hsuffix.subset ho)

/-- What the entry `t ↦ g` is there for. -/
def Sched.Explains (s : Sched) (T : Multiset Tok) (t g : TaskID) : Prop :=
  (∃ ref, s.graphTaskIdToGraph.get? g = some ref ∧ (t = g ∨ ((s.graphs ref).tasks.get? t).isSome)) ∨
    ∃ client gt done, .adding client gt done ∈ T ∧ gt.taskId = g ∧ (t = g ∨ ∃ task ∈ done, task.taskId = t)

def Sched.Accounts (s : Sched) (T : Multiset Tok) : Prop :=
  ∀ t g, s.taskIdToGraphTaskId.get? t = some g → s.Explains T t g

section Faults

theorem PopStep.calm {m : Message} (h : PopStep g m s s' t) (hc : s'.Calm) :
    t = 0 ∧ ∃ info s₁, s.popGraph g = (.ok info, s₁) ∧ s' = s₁.noteSent (.client info.client) m := by
  cases h with
  | ok h => exact ⟨rfl, _, _, h, rfl⟩
  | sendFail =>
    have hfault := hc .sendFailed List.mem_cons_self
    cases hfault
  | popFail =>
    have hfault := hc (.popFailed g) List.mem_cons_self
    cases hfault

theorem CheckStep.calm (h : CheckStep g s s' t) (hc : s'.Calm) : ∀ a ∈ t, a.isFault = false := by
  cases h with
  | done _ _ hp =>
    rw [(hp.calm hc).1]
    exact fun a ha => absurd ha (Multiset.notMem_zero a)
  | ready =>
    intro a ha
    obtain ⟨x, -, rfl⟩ := mem_toks.mp ha
    rfl

theorem VisitStep.calm (h : VisitStep g s s' t) (hc : s'.Calm) : ∀ a ∈ t, a.isFault = false := by
  cases h with
  | pop _ hp =>
    rw [(hp.calm hc).1]
    exact fun a ha => absurd ha (Multiset.notMem_zero a)
  | pass => exact fun a ha => absurd ha (Multiset.notMem_zero a)
  | accept => simp [Tok.isFault]

theorem AbortStep.calm {x : TaskResultType} (h : AbortStep g x s s' t) (hc : s'.Calm) : ∀ a ∈ t, a.isFault = false := by
  cases h with
  | pop _ hp =>
    rw [(hp.calm hc).1]
    exact fun a ha => absurd ha (Multiset.notMem_zero a)
  | abort => simp [mem_toks, Tok.isFault]

/-- The sorter refuses a node only when it does not wait for it. -/
theorem TopologicalSorter.Serving.done_error {K : Type} [DecidableEq K] {sorter sorter' : TopologicalSorter K} {k : K} {e : Exn}
    (hs : sorter.Serving) (h : sorter.done [k] = (.error e, sorter')) : ¬ (k ∈ sorter.visited ∧ k ∉ sorter.doneKeys) := by
  rintro ⟨hvisited, hdone⟩
  obtain ⟨s'', hok, -⟩ := hs.issuing.done hs.prepared hvisited hdone
  rw [hok] at h
  cases h

theorem Sched.markNodeDone_fault {r : TaskResult} {e : Exn} (h : s.markNodeDone r = (.error e, s')) : ∃ o ∈ s'.trace, o.isFault = true := by
  cases hg : s.taskIdToGraphTaskId.get? r.taskId with
  | none =>
    rw [Sched.markNodeDone, hg] at h
    obtain ⟨-, rfl⟩ := Prod.mk.inj h
    exact ⟨.nodeMissing r.taskId, List.mem_cons_self, rfl⟩
  | some g =>
    cases hr : s.graphTaskIdToGraph.get? g with
    | none =>
      rw [Sched.markNodeDone, hg] at h
      dsimp only at h
      rw [hr] at h
      obtain ⟨-, rfl⟩ := Prod.mk.inj h
      exact ⟨.nodeMissing r.taskId, List.mem_cons_self, rfl⟩
    | some ref =>
      obtain ⟨tracker, deleted, heq⟩ := Sched.markNodeDone_eq hg hr
      rw [heq] at h
      obtain ⟨herror, rfl⟩ := Prod.mk.inj h
      refine ⟨_, List.mem_cons_self, ?_⟩
      rw [herror]
      rfl

theorem Sched.markNodeCanceled_fault {ref : Nat} {c : TaskCancelConfirm} {e : Exn} (hs : (s.graphs ref).sorter.Serving)
    (h : s.markNodeCanceled g ref c = (.error e, s')) : ∃ o ∈ s'.trace, o.isFault = true := by
  rw [Sched.markNodeCanceled] at h
  obtain ⟨herror, rfl⟩ := Prod.mk.inj h
  refine ⟨_, List.mem_cons_self, ?_⟩
  have hunsettled : (s.graphs ref).isUnsettled c.taskId = false := by
    rw [Graph.markNodeCanceled] at herror
    split at herror
    · cases herror
    · cases hdone : (s.graphs ref).sorter.done [c.taskId] with
      | mk x sorter =>
        rw [hdone] at herror
        cases x with
        | ok => cases herror
        | error e' => exact decide_eq_false (hs.done_error hdone)
  rw [hunsettled]
  rfl

theorem Sched.sweep_fault {ref : Nat} {e : Exn} (h : s.sweep g ref = (.error e, s')) : ∃ o ∈ s'.trace, o.isFault = true := by
  rw [Sched.sweep] at h
  obtain ⟨herror, rfl⟩ := Prod.mk.inj h
  refine ⟨_, List.mem_cons_self, ?_⟩
  rw [herror]
  rfl

theorem TaskStep.calm (h : TaskStep i s t s' t') (hc : s'.Calm) (ht : ∀ a ∈ t, a.isFault = false) : ∀ a ∈ t', a.isFault = false := by
  have hnote : ∀ {s : Sched} {o : Obs}, o.isFault = true → (s.note o).Calm → ∀ a ∈ t', a.isFault = false := by
    intro s o ho hcalm
    rw [hcalm o List.mem_cons_self] at ho
    cases ho
  cases h with
  | refuse => exact hnote rfl hc
  | drainFail => exact hnote rfl hc
  | releaseFail => exact hnote rfl hc
  | placeFail => exact hnote rfl hc
  | spoil => exact hnote rfl hc
  | spoilFault h =>
    rcases h with rfl | rfl
    · exact hnote rfl hc
    · exact hnote rfl hc
  | loseEvent =>
    intro a ha
    exact ht a (Multiset.mem_add.mpr (.inr ha))
  | _ => simp [Tok.isFault]

theorem OtherStep.calm (h : OtherStep i s t s' t') (hc : s'.Calm) (ht : ∀ a ∈ t, a.isFault = false) : ∀ a ∈ t', a.isFault = false := by
  have hnote : ∀ {s : Sched} {o : Obs}, o.isFault = true → (s.note o).Calm → ∀ a ∈ t', a.isFault = false := by
    intro s o ho hcalm
    rw [hcalm o List.mem_cons_self] at ho
    cases ho
  have hfault : ∀ {f : Fault}, .fault f ∈ t → ∀ a ∈ t', a.isFault = false := by
    intro f hf
    have hno := ht _ hf
    cases hno
  cases h with
  | sendFail => exact hnote rfl hc
  | storageFail => exact hnote rfl hc
  | payloadMissing => exact hnote rfl hc
  | cancelRefused => exact hnote rfl hc
  | removeWorkerFail => exact hnote rfl hc
  | weaken => exact hfault (Multiset.mem_singleton_self _)
  | weakenRefused => exact hfault (Multiset.mem_singleton_self _)
  | refuse => exact hfault (Multiset.mem_singleton_self _)
  | _ => simp [mem_toks, Tok.isFault]

theorem GraphStep.calm (h : GraphStep i s t s' t') (hserving : ∀ ref, (s.graphs ref).sorter.Serving) (hc : s'.Calm)
    (ht : ∀ a ∈ t, a.isFault = false) : ∀ a ∈ t', a.isFault = false := by
  have hnote : ∀ {s : Sched} {o : Obs}, o.isFault = true → (s.note o).Calm → ∀ a ∈ t', a.isFault = false := by
    intro s o ho hcalm
    rw [hcalm o List.mem_cons_self] at ho
    cases ho
  have hobserved : (∃ o ∈ s'.trace, o.isFault = true) → ∀ a ∈ t', a.isFault = false := by
    rintro ⟨o, ho, hfault⟩
    rw [hc o ho] at hfault
    cases hfault
  have hfault : ∀ {f : Fault}, .fault f ∈ t → ∀ a ∈ t', a.isFault = false := by
    intro f hf
    have hno := ht _ hf
    cases hno
  have hadd : ∀ {u v : Multiset Tok}, (∀ a ∈ u, a.isFault = false) → (∀ a ∈ v, a.isFault = false) → ∀ a ∈ u + v, a.isFault = false :=
    fun hu hv a ha => (Multiset.mem_add.mp ha).elim (hu a) (hv a)
  cases h with
  | refuseGraph => exact hnote rfl hc
  | rejectGraph => exact hnote rfl hc
  | registerGraph _ h => exact h.calm hc
  | submitFail => exact hnote rfl hc
  | loseBatch => exact hfault (Multiset.mem_add.mpr (.inr (Multiset.mem_singleton_self _)))
  | loseRefused => exact hfault (Multiset.mem_add.mpr (.inr (Multiset.mem_cons_of_mem (Multiset.mem_singleton_self _))))
  | giveUp => exact hfault (Multiset.mem_cons_of_mem (Multiset.mem_singleton_self _))
  | nodeDone _ _ _ _ _ _ hok hx =>
    rcases Classical.em _ with hsuccess | hfailed
    · exact hadd ht ((hok hsuccess).calm hc)
    · exact hadd ht ((hx hfailed).calm hc)
  | nodeDoneFail _ h => exact hobserved (Sched.markNodeDone_fault h)
  | nodeCanceled _ _ _ _ hv => exact hadd ht (hv.calm hc)
  | nodeCanceledFail _ _ _ h => exact hobserved (Sched.markNodeCanceled_fault (hserving _) h)
  | visit _ hv => exact hv.calm hc
  | sweepFail h => exact hobserved (Sched.sweep_fault h)
  | sweptPop _ hp =>
    rw [(hp.calm hc).1]
    exact fun a ha => absurd ha (Multiset.notMem_zero a)
  | abortedPop _ hp =>
    rw [(hp.calm hc).1]
    exact fun a ha => absurd ha (Multiset.notMem_zero a)
  | sendFail => exact hnote rfl hc
  | lose => exact hfault (Multiset.mem_add.mpr (.inr (Multiset.mem_singleton_self _)))
  | _ => simp [mem_toks, Tok.isFault]

/-- An exception is under way only after it was observed. -/
theorem Step.calm (h : Step i s t s' t') (hserving : ∀ ref, (s.graphs ref).sorter.Serving) (hc : s'.Calm)
    (ht : ∀ a ∈ t, a.isFault = false) : ∀ a ∈ t', a.isFault = false := by
  cases h with
  | task h => exact h.calm hc ht
  | graph h => exact h.calm hserving hc ht
  | other h => exact h.calm hc ht

end Faults

section Entries

theorem Sched.Explains.mono {u g : TaskID} (h : s.Explains T u g) (hrefs : s'.graphTaskIdToGraph = s.graphTaskIdToGraph)
    (htasks : ∀ ref t, ((s.graphs ref).tasks.get? t).isSome → ((s'.graphs ref).tasks.get? t).isSome)
    (ht : ∀ client gt done, .adding client gt done ∈ T → .adding client gt done ∈ T') : s'.Explains T' u g := by
  obtain ⟨ref, href, hnode⟩ | ⟨client, gt, done, hadding, hrest⟩ := h
  · exact .inl ⟨ref, hrefs ▸ href, hnode.imp_right (htasks ref u)⟩
  · exact .inr ⟨client, gt, done, ht _ _ _ hadding, hrest⟩

theorem Sched.Accounts.mono (h : s.Accounts T) (hids : ∀ u g, s'.taskIdToGraphTaskId.get? u = some g → s.taskIdToGraphTaskId.get? u = some g)
    (hrefs : s'.graphTaskIdToGraph = s.graphTaskIdToGraph)
    (htasks : ∀ ref t, ((s.graphs ref).tasks.get? t).isSome → ((s'.graphs ref).tasks.get? t).isSome)
    (ht : ∀ client gt done, .adding client gt done ∈ T → .adding client gt done ∈ T') : s'.Accounts T' :=
  fun u g hg => (h u g (hids u g hg)).mono hrefs htasks ht

theorem Graph.Onward.tasks_isSome {g g' : Graph} (h : g.Onward g') {t : TaskID} (hsome : (g.tasks.get? t).isSome) :
    (g'.tasks.get? t).isSome := by
  have hkept := congrArg Option.isSome (h.tasks t)
  rw [Option.isSome_map, Option.isSome_map] at hkept
  exact hkept.trans hsome

theorem Sched.popGraph_ok {info : Graph} (h : s.popGraph g = (.ok info, s')) :
    ∃ ref, s.graphTaskIdToGraph.get? g = some ref ∧ s'.graphTaskIdToGraph = s.graphTaskIdToGraph.erase g ∧ s'.graphs = s.graphs ∧
      ∀ u v, s'.taskIdToGraphTaskId.get? u = some v →
        s.taskIdToGraphTaskId.get? u = some v ∧ u ≠ g ∧ (s.graphs ref).tasks.get? u = none := by
  have hfinish := congrArg Prod.fst (s.offTask_onTaskFinish g)
  have hrefs : (s.onTaskFinish g).graphTaskIdToGraph = s.graphTaskIdToGraph := congrArg GraphView.graphTaskIdToGraph hfinish
  have hids : (s.onTaskFinish g).taskIdToGraphTaskId = s.taskIdToGraphTaskId := congrArg GraphView.taskIdToGraphTaskId hfinish
  have hgraphs : (s.onTaskFinish g).graphs = s.graphs := congrArg GraphView.graphs hfinish
  rw [Sched.popGraph] at h
  split at h
  · cases congrArg Prod.fst h
  · dsimp only at h
    rw [Sched.graph?] at h
    dsimp only at h
    rw [hrefs, hids, hgraphs] at h
    cases hr : s.graphTaskIdToGraph.get? g with
    | none =>
      rw [hr] at h
      cases congrArg Prod.fst h
    | some ref =>
      rw [hr] at h
      obtain ⟨-, rfl⟩ := Prod.mk.inj h
      refine ⟨ref, rfl, rfl, rfl, fun u v hu => ?_⟩
      change ((s.graphs ref).tasks.keys.foldl Dict.erase (s.taskIdToGraphTaskId.erase g)).get? u = some v at hu
      rw [Dict.get?_foldl_erase, Dict.get?_erase] at hu
      split at hu
      · cases hu
      · next hkey =>
        split at hu
        · cases hu
        · next hne =>
          rw [Dict.mem_keys, Bool.not_eq_true, Option.isSome_eq_false_iff, Option.isNone_iff_eq_none] at hkey
          exact ⟨hu, hne, hkey⟩

theorem PopStep.accounts {m : Message} (h : PopStep g m s s' t) (hc : s'.Calm) (hj : s.Accounts T) : s'.Accounts T := by
  obtain ⟨-, info, s₁, hpop, rfl⟩ := h.calm hc
  obtain ⟨ref, href, hrefs, hgraphs, hids⟩ := Sched.popGraph_ok hpop
  intro u v hu
  obtain ⟨hold, hne, hnone⟩ := hids u v hu
  obtain ⟨ref', href', hnode⟩ | hadding := hj u v hold
  · refine .inl ⟨ref', ?_, ?_⟩
    · change s₁.graphTaskIdToGraph.get? v = some ref'
      rw [hrefs, Dict.get?_erase_ne]
      · exact href'
      · rintro rfl
        obtain rfl := Option.some.inj (href.symm.trans href')
        rcases hnode with rfl | hsome
        · exact hne rfl
        · rw [hnone] at hsome
          cases hsome
    · change u = v ∨ ((s₁.graphs ref').tasks.get? u).isSome
      rwa [hgraphs]
  · exact .inr hadding

theorem Sched.tasks_setGraph {ref : Nat} {graph : Graph} (h : (s.graphs ref).Onward graph) (r : Nat) (t : TaskID)
    (hsome : ((s.graphs r).tasks.get? t).isSome) : (((s.setGraph ref graph).graphs r).tasks.get? t).isSome :=
  ((Sched.Idles.setGraph h).graphs r).tasks_isSome hsome

theorem CheckStep.accounts (h : CheckStep g s s' t) (hc : s'.Calm) (hj : s.Accounts T) : s'.Accounts T := by
  cases h with
  | done _ _ hp => exact hp.accounts hc hj
  | ready _ _ hr =>
    have honward := Graph.Onward.of_sorter (TopologicalSorter.getReady_onward hr).1
    exact hj.mono (fun _ _ hu => hu) rfl (Sched.tasks_setGraph honward) fun _ _ _ ha => ha

theorem VisitStep.accounts (h : VisitStep g s s' t) (hc : s'.Calm) (hj : s.Accounts T) : s'.Accounts T := by
  cases h with
  | pop _ hp => exact hp.accounts hc hj
  | pass => exact hj
  | @accept ref _ _ =>
    refine hj.mono (fun _ _ hu => hu) rfl (fun r u hsome => ?_) fun _ _ _ ha => ha
    exact ((s.acceptCancel_idles g ref).graphs r).tasks_isSome hsome

theorem AbortStep.accounts {x : TaskResultType} (h : AbortStep g x s s' t) (hc : s'.Calm) (hj : s.Accounts T) : s'.Accounts T := by
  cases h with
  | pop _ hp => exact hp.accounts hc hj
  | abort => exact hj.mono (fun _ _ hu => hu) rfl (Sched.tasks_setGraph ⟨.refl _, fun _ => rfl⟩) fun _ _ _ ha => ha

theorem Sched.Accounts.markNodeDone (hj : s.Accounts T) {r : TaskResult} {x : Except Exn Unit} (h : s.markNodeDone r = (x, s')) :
    s'.Accounts T := by
  cases hg : s.taskIdToGraphTaskId.get? r.taskId with
  | none =>
    rw [Sched.markNodeDone, hg] at h
    obtain ⟨-, rfl⟩ := Prod.mk.inj h
    exact hj
  | some g =>
    have herase : ∀ u v, (s.taskIdToGraphTaskId.erase r.taskId).get? u = some v → s.taskIdToGraphTaskId.get? u = some v := by
      intro u v hu
      rw [Dict.get?_erase] at hu
      split at hu
      · cases hu
      · exact hu
    cases hr : s.graphTaskIdToGraph.get? g with
    | none =>
      rw [Sched.markNodeDone, hg] at h
      dsimp only at h
      rw [hr] at h
      obtain ⟨-, rfl⟩ := Prod.mk.inj h
      exact hj.mono herase rfl (fun _ _ hsome => hsome) fun _ _ _ ha => ha
    | some ref =>
      obtain ⟨tracker, deleted, heq⟩ := Sched.markNodeDone_eq hg hr
      rw [heq] at h
      obtain ⟨-, rfl⟩ := Prod.mk.inj h
      refine hj.mono herase rfl (fun r' u hsome => ?_) fun _ _ _ ha => ha
      change ((Function.update s.graphs ref ((s.graphs ref).markNodeDone r).2.1 r').tasks.get? u).isSome
      by_cases hne : r' = ref
      · rw [hne] at hsome
        rw [hne, Function.update_self]
        obtain ⟨y, graph, deleted', hmark⟩ : ∃ y graph deleted', (s.graphs ref).markNodeDone r = (y, graph, deleted') := ⟨_, _, _, rfl⟩
        rw [hmark]
        refine (Graph.markNodeDone_onward hmark).1.tasks_isSome ?_
        rw [Graph.reported, Graph.get?_setInfo]
        split
        · rwa [Option.isSome_map]
        · exact hsome
      · rwa [Function.update_of_ne hne]

theorem CheckStep.graphHistory (h : CheckStep g s s' t) : s'.graphHistory = s.graphHistory := by
  cases h with
  | done _ _ hp => exact hp.idles.1.history
  | ready => rfl

theorem Sched.maps_submitNode (s : Sched) (g : TaskID) (ref : Nat) (u : TaskID) :
    (s.submitNode g ref u).2.taskIdToGraphTaskId = s.taskIdToGraphTaskId ∧
      (s.submitNode g ref u).2.graphTaskIdToGraph = s.graphTaskIdToGraph := by
  rw [Sched.submitNode]
  split
  · exact ⟨rfl, rfl⟩
  · dsimp only
    split <;> exact ⟨rfl, rfl⟩

theorem GraphStep.accounts (h : GraphStep i s t s' t') (hs : s.Serves (graphToks (t + R))) (hc : s'.Calm)
    (honce : ∀ g, (registrations g s'.graphHistory).length ≤ 1) (ht : ∀ a ∈ t, a.isFault = false) (hj : s.Accounts (t + R)) :
    s'.Accounts (t' + R) := by
  have hnone : ∀ {t : Multiset Tok}, (∀ client gt done, .adding client gt done ∉ t) → ∀ client gt done,
      .adding client gt done ∈ t + R → .adding client gt done ∈ t' + R := fun hno client gt done ha =>
    Multiset.mem_add.mpr (.inr ((Multiset.mem_add.mp ha).resolve_left (hno client gt done)))
  have hstays : (∀ client gt done, .adding client gt done ∈ t → .adding client gt done ∈ t') → s.Accounts (t' + R) := by
    intro hsub
    refine hj.mono (fun _ _ hu => hu) rfl (fun _ _ hsome => hsome) fun client gt done ha => ?_
    exact Multiset.mem_add.mpr ((Multiset.mem_add.mp ha).imp_left (hsub client gt done))
  have hkeep : ∀ {s₁}, s.Idles s₁ → s₁.taskIdToGraphTaskId = s.taskIdToGraphTaskId → s₁.graphTaskIdToGraph = s.graphTaskIdToGraph →
      (∀ client gt done, .adding client gt done ∈ t → .adding client gt done ∈ t') → s₁.Accounts (t' + R) :=
    fun hi hids hrefs hsub => (hstays hsub).mono (fun u v hu => hids ▸ hu) hrefs (fun ref u => (hi.graphs ref).tasks_isSome) fun _ _ _ ha => ha
  have hobserved : ∀ {o : Obs}, o ∈ s'.trace → o.isFault = true → False := by
    intro o ho hfault
    rw [hc o ho] at hfault
    cases hfault
  have hfault : ∀ {f : Fault}, .fault f ∉ t := by
    intro f hf
    cases ht _ hf
  cases h with
  | queueGraph => exact hj.mono (fun _ _ hu => hu) rfl (fun _ _ hsome => hsome) fun _ _ _ ha => ha
  | takeGraph => exact hj.mono (fun _ _ hu => hu) rfl (fun _ _ hsome => hsome) (hnone (by simp))
  | refuseGraph => exact (hobserved List.mem_cons_self rfl).elim
  | @beginGraph client gt s₁ h =>
    obtain rfl : (s.onTaskBegin client gt.taskId).2 = s₁ := congrArg Prod.snd h
    intro u v hu
    rcases Dict.get?_set_cases hu with ⟨rfl, rfl⟩ | hold
    · exact .inr ⟨client, gt, [], Multiset.mem_add.mpr (.inl (Multiset.mem_singleton_self _)), rfl, .inl rfl⟩
    · exact (hj u v hold).mono rfl (fun _ _ hsome => hsome) (hnone (by simp))
  | @addNode client gt done task rest h =>
    have hnew : .adding client gt (done ++ [task]) ∈ ({.adding client gt (done ++ [task])} : Multiset Tok) + R :=
      Multiset.mem_add.mpr (.inl (Multiset.mem_singleton_self _))
    intro u v hu
    rcases Dict.get?_set_cases hu with ⟨rfl, rfl⟩ | hold
    · exact .inr ⟨client, gt, _, hnew, rfl, .inr ⟨task, List.mem_append_right _ (List.mem_singleton_self _), rfl⟩⟩
    · obtain hregistered | ⟨client', gt', done', hadding, hrest⟩ := hj u v hold
      · exact .inl hregistered
      · rcases Multiset.mem_add.mp hadding with hmine | hother
        · obtain ⟨rfl, rfl, rfl⟩ := Tok.adding.inj (Multiset.mem_singleton.mp hmine)
          refine .inr ⟨client', gt', _, hnew, hrest.1, hrest.2.imp_right ?_⟩
          rintro ⟨task', htask', hid⟩
          exact ⟨task', List.mem_append_left _ htask', hid⟩
        · exact .inr ⟨client', gt', done', Multiset.mem_add.mpr (.inr hother), hrest⟩
  | rejectGraph => exact (hobserved List.mem_cons_self rfl).elim
  | @registerGraph client gt sorter _ _ h hcheck =>
    refine hcheck.accounts hc ?_
    set graph := Graph.ofTasks client gt sorter with hgraph
    have hfirst : s.graphTaskIdToGraph.get? gt.taskId = none := by
      by_contra hsome
      obtain ⟨ref, href⟩ := Option.ne_none_iff_exists'.mp hsome
      have hmem := hs.registered _ _ href
      have hlength := honce gt.taskId
      rw [hcheck.graphHistory, graphHistory_cons (s := s) rfl rfl, registrations_registered, if_pos rfl, List.length_cons] at hlength
      have hpos := List.length_pos_of_mem hmem
      omega
    have hself : (s.registerGraph gt.taskId graph).graphs s.nextGraph = graph := Function.update_self _ _ _
    have hfound : (s.registerGraph gt.taskId graph).graphTaskIdToGraph.get? gt.taskId = some s.nextGraph := Dict.get?_set_self _ _ _
    intro u v hu
    obtain ⟨ref, href, hnode⟩ | ⟨client', gt', done', hadding, rfl, hentry⟩ := hj u v hu
    · have hne : v ≠ gt.taskId := by
        rintro rfl
        rw [hfirst] at href
        cases href
      have holder : (s.registerGraph gt.taskId graph).graphs ref = s.graphs ref := by
        refine Function.update_of_ne ?_ _ _
        exact Nat.ne_of_lt (hs.fresh v ref (hs.registered v ref href))
      refine .inl ⟨ref, ?_, by rwa [holder]⟩
      change (s.graphTaskIdToGraph.set gt.taskId s.nextGraph).get? v = some ref
      rwa [Dict.get?_set_ne _ hne]
    · rcases Multiset.mem_add.mp hadding with hmine | hother
      · obtain ⟨rfl, rfl, rfl⟩ := Tok.adding.inj (Multiset.mem_singleton.mp hmine)
        refine .inl ⟨s.nextGraph, hfound, hentry.imp_right ?_⟩
        rintro ⟨task, htask, rfl⟩
        rw [hself]
        obtain ⟨info, hinfo⟩ := (NewGraph.reads_ofTasks gt'.graph).isNode task htask
        exact Option.isSome_iff_exists.mpr ⟨info, hinfo⟩
      · exact .inr ⟨client', gt', done', Multiset.mem_add.mpr (.inr hother), rfl, hentry⟩
  | @submit g ref t task _ h =>
    obtain ⟨⟨e, herror⟩, -⟩ | ⟨info, s₁, args, -, hidle, -, -, rfl⟩ := Sched.submitNode_idles h
    · cases herror
    · obtain ⟨hids, hrefs⟩ := s.maps_submitNode g ref t
      rw [h] at hids hrefs
      exact hj.mono (fun u v hu => hids ▸ hu) hrefs (fun r u => (hidle.graphs r).tasks_isSome) (hnone (by simp))
  | submitted => exact hstays (by simp)
  | submitFail => exact (hobserved List.mem_cons_self rfl).elim
  | loseBatch => exact (hfault (Multiset.mem_add.mpr (.inr (Multiset.mem_singleton_self _)))).elim
  | loseRefused => exact (hfault (Multiset.mem_add.mpr (.inr (Multiset.mem_cons_of_mem (Multiset.mem_singleton_self _))))).elim
  | giveUp => exact (hfault (Multiset.mem_cons_of_mem (Multiset.mem_singleton_self _))).elim
  | @nodeDone r s₁ _ _ w _ u _ _ _ _ h _ hok hx =>
    have hdone : s₁.Accounts ({w} + u + R) := (hj.markNodeDone h).mono (fun _ _ hu => hu) rfl (fun _ _ hsome => hsome) fun client gt done ha => by
      rw [add_right_comm]
      exact Multiset.mem_add.mpr (.inl ha)
    rcases Classical.em _ with hsuccess | hfailed
    · exact (hok hsuccess).accounts hc hdone
    · exact (hx hfailed).accounts hc hdone
  | nodeDoneFail _ h =>
    obtain ⟨o, ho, hfault'⟩ := Sched.markNodeDone_fault h
    exact (hobserved ho hfault').elim
  | @nodeCanceled _ ref c s₁ w _ u _ _ _ h hv =>
    refine hv.accounts hc ?_
    obtain rfl : (s.markNodeCanceled _ ref c).2 = s₁ := congrArg Prod.snd h
    refine hkeep (Sched.markNodeCanceled_idles rfl) rfl rfl fun client gt done ha => ?_
    exact Multiset.mem_add.mpr (.inl ha)
  | nodeCanceledFail _ _ _ h =>
    obtain ⟨o, ho, hfault'⟩ := Sched.markNodeCanceled_fault (hs.serving _) h
    exact (hobserved ho hfault').elim
  | stranger => exact hstays (by simp)
  | notFound => exact hkeep (.note (.refl s) rfl) rfl rfl (by simp)
  | visit _ hv => exact hv.accounts hc (hstays (by simp))
  | @sweep g ref confirms _ h =>
    obtain rfl : (s.sweep g ref).2 = s' := congrArg Prod.snd h
    exact hkeep (Sched.sweep_idles rfl) rfl rfl (by simp)
  | sweepFail h =>
    obtain ⟨o, ho, hfault'⟩ := Sched.sweep_fault h
    exact (hobserved ho hfault').elim
  | sweptEnd => exact hstays (by simp)
  | sweptPop _ hp => exact hp.accounts hc (hstays (by simp))
  | retire _ _ h => exact (hj.markNodeDone h).mono (fun _ _ hu => hu) rfl (fun _ _ hsome => hsome) (hnone (by simp))
  | abortReady _ hr =>
    have honward := Graph.Onward.of_sorter (TopologicalSorter.getReady_onward hr).1
    exact hkeep (.setGraph honward) rfl rfl (by simp)
  | abortedEnd => exact hstays (by simp)
  | abortedPop _ hp => exact hp.accounts hc (hstays (by simp))
  | address => exact hstays (by simp)
  | send => exact hkeep (.note (.refl s) rfl) rfl rfl (by simp)
  | sendFail => exact (hobserved List.mem_cons_self rfl).elim
  | lose => exact (hfault (Multiset.mem_add.mpr (.inr (Multiset.mem_singleton_self _)))).elim

theorem Sched.Accounts.of_view (hj : s.Accounts (t + R)) (hview : s'.graphView = s.graphView)
    (ht : ∀ client gt done, .adding client gt done ∉ t) : s'.Accounts (t' + R) := by
  have hids : s'.taskIdToGraphTaskId = s.taskIdToGraphTaskId := congrArg GraphView.taskIdToGraphTaskId hview
  have hrefs : s'.graphTaskIdToGraph = s.graphTaskIdToGraph := congrArg GraphView.graphTaskIdToGraph hview
  have hgraphs : s'.graphs = s.graphs := congrArg GraphView.graphs hview
  refine hj.mono (fun u v hu => hids ▸ hu) hrefs (fun ref u hsome => hgraphs ▸ hsome) fun client gt done ha => ?_
  exact Multiset.mem_add.mpr (.inr ((Multiset.mem_add.mp ha).resolve_left (ht client gt done)))

theorem not_mem_of_graphToks (h : graphToks t = 0) (client : ClientID) (gt : GraphTask) (done : List Task) : .adding client gt done ∉ t := by
  intro ha
  have hmem : .adding client gt done ∈ graphToks t := Multiset.mem_filter.mpr ⟨ha, rfl⟩
  rw [h] at hmem
  exact absurd hmem (Multiset.notMem_zero _)

theorem Step.accounts (h : Step i s t s' t') (hs : s.Serves (graphToks (t + R))) (hc : s'.Calm)
    (honce : ∀ g, (registrations g s'.graphHistory).length ≤ 1) (ht : ∀ a ∈ t, a.isFault = false) (hj : s.Accounts (t + R)) :
    s'.Accounts (t' + R) := by
  cases h with
  | task h => exact hj.of_view h.graphView (not_mem_of_graphToks h.graphToks.1)
  | graph h => exact h.accounts hs hc honce ht hj
  | other h => exact hj.of_view h.graphView (not_mem_of_graphToks h.graphToks.1)

theorem registrations_suffix {h h' : List Obs} (hsuffix : h <:+ h') (g : TaskID) : (registrations g h).length ≤ (registrations g h').length := by
  obtain ⟨later, rfl⟩ := hsuffix
  unfold registrations
  rw [List.filterMap_append, List.length_append]
  omega

/-- While nothing raises and every graph is registered once, no exception is under way and all entries are accounted for. -/
theorem Run.accounts {M : Multiset (Tid × Tok)} (h : Run cfg s M) (hc : s.Calm) (honce : ∀ g, (registrations g s.graphHistory).length ≤ 1) :
    s.Accounts (M.map Prod.snd) := by
  have hall : s.Serves (graphToks (M.map Prod.snd)) ∧ (s.Calm → (∀ g, (registrations g s.graphHistory).length ≤ 1) →
      (∀ a ∈ M.map Prod.snd, a.isFault = false) ∧ s.Accounts (M.map Prod.snd)) := by
    refine Run.invariant (J := fun s T => s.Serves (graphToks T) ∧ (s.Calm → (∀ g, (registrations g s.graphHistory).length ≤ 1) →
      (∀ a ∈ T, a.isFault = false) ∧ s.Accounts T)) ?_ ?_ h
    · refine ⟨Sched.serves_init cfg, fun _ _ => ⟨fun a ha => absurd ha (Multiset.notMem_zero a), fun u v hu => ?_⟩⟩
      cases hu
    · rintro i s s' t t' R hstep ⟨hs, hj⟩
      refine ⟨?_, fun hc' honce' => ?_⟩
      · rw [graphToks_add] at hs ⊢
        exact hstep.serves hs
      · have hsuffix := hstep.trace
        have hhistory : s.graphHistory <:+ s'.graphHistory := by
          obtain ⟨later, hlater⟩ := hsuffix
          exact ⟨later.filter Obs.isGraph, by rw [Sched.graphHistory, Sched.graphHistory, ← hlater, List.filter_append]⟩
        obtain ⟨hnofault, haccounts⟩ := hj (hc'.of_suffix hsuffix) fun g => (registrations_suffix hhistory g).trans (honce' g)
        have ht : ∀ a ∈ t, a.isFault = false := fun a ha => hnofault a (Multiset.mem_add.mpr (.inl ha))
        refine ⟨fun a ha => ?_, hstep.accounts hs hc' honce' ht haccounts⟩
        rcases Multiset.mem_add.mp ha with ha | ha
        · exact hstep.calm hs.serving hc' ht a ha
        · exact hnofault a (Multiset.mem_add.mpr (.inr ha))
  exact (hall.2 hc honce).2

end Entries

/-- The ids that graphs were registered under. -/
def registeredIds (h : List Obs) : List TaskID :=
  h.filterMap fun
    | .graphRegistered g _ => some g
    | _ => none

theorem length_registrations (h : List Obs) (g : TaskID) : (registrations g h).length = (registeredIds h).count g := by
  induction h with
  | nil => rfl
  | cons o h ih =>
    cases o with
    | graphRegistered g' ref =>
      have hids : registeredIds (.graphRegistered g' ref :: h) = g' :: registeredIds h := rfl
      rw [registrations_registered, hids, List.count_cons, ← ih]
      by_cases hg : g' = g
      · simp [hg]
      · simp [hg]
    | _ => exact ih

/-- Between additions of graphs, while nothing raised and graphs have ids of their own, the id map knows only nodes and ids
of registered graphs: a graph that ends takes all its entries along. -/
theorem graph_ids_registered {c : Config Sched Exn Label Proc} (h : Reachable scheduler (Sched.init cfg) c) (hsuspended : c.Suspended)
    (hcalm : c.state.Calm) (hnodup : (registeredIds c.state.trace).Nodup) (hidle : ∀ th ∈ c.threads, .graphRoutine ∉ th.frames)
    {u g : TaskID} (hu : c.state.taskIdToGraphTaskId.get? u = some g) :
    ∃ ref, c.state.graphTaskIdToGraph.get? g = some ref ∧ (u = g ∨ ((c.state.graphs ref).tasks.get? u).isSome) := by
  obtain ⟨M, hrun, hkeeps, -⟩ := exists_run h hsuspended
  have honce : ∀ g, (registrations g c.state.graphHistory).length ≤ 1 := by
    intro g
    have hless : (registrations g c.state.graphHistory).length ≤ (registrations g c.state.trace).length :=
      ((List.filter_sublist (p := Obs.isGraph) (l := c.state.trace)).filterMap _).length_le
    refine hless.trans ?_
    rw [length_registrations]
    exact List.nodup_iff_count_le_one.mp hnodup g
  obtain hregistered | ⟨client, gt, done, hadding, -⟩ := hrun.accounts hcalm honce u g hu
  · exact hregistered
  · obtain ⟨⟨i, a⟩, hmem, rfl⟩ := Multiset.mem_map.mp hadding
    obtain ⟨th, hth, -, p, hp, rfl⟩ := hkeeps i _ hmem
    exact absurd hp (hidle th hth)

/-- The second node of the chain while it runs. -/
theorem graph_ids_registered_chain : ∃ c : Config Sched Exn Label Proc, Reachable scheduler (Sched.init ⟨.evenLoad, false⟩) c ∧
    c.state.taskIdToGraphTaskId.get? ⟨2⟩ = some ⟨5⟩ ∧ ∃ ref, c.state.graphTaskIdToGraph.get? ⟨5⟩ = some ref := by
  have hd : (drive scheduler 50 (start (Sched.init ⟨.evenLoad, false⟩)) chainRun).any (fun c => c.current.isNone &&
      c.state.trace.all (fun o => !o.isFault) && decide (registeredIds c.state.trace).Nodup &&
      c.threads.all (fun th => decide (.graphRoutine ∉ th.frames)) &&
      decide (c.state.taskIdToGraphTaskId.get? ⟨2⟩ = some ⟨5⟩)) = true := by
    decide +kernel
  obtain ⟨c, hc, hb⟩ := (Option.any_eq_true _ _).mp hd
  simp only [Bool.and_eq_true, Option.isNone_iff_eq_none, List.all_eq_true, decide_eq_true_eq, Bool.not_eq_true'] at hb
  obtain ⟨⟨⟨⟨hs, hcalm⟩, hnodup⟩, hidle⟩, hu⟩ := hb
  have hr : Reachable scheduler (Sched.init ⟨.evenLoad, false⟩) c := Reachable.drive .start hc
  obtain ⟨ref, href, -⟩ := graph_ids_registered hr hs hcalm hnodup hidle hu
  exact ⟨c, hr, hu, ref, href⟩

end Scaler
