import Scaler.Policy.Workers
import Scaler.Scheduler.Frames

/-! Simple facts of every run: assigning a task does not raise, every graph is
prepared, and an event speaks about its own task. -/

namespace Scaler

open Collections Coroutine

namespace TopologicalSorter

variable {K : Type} [DecidableEq K] (s : TopologicalSorter K)

@[simp] theorem readyNodes_release : s.release.readyNodes.isSome := rfl

theorem readyNodes_prepare : s.prepare.2.readyNodes.isSome := by
  unfold prepare
  split
  · next h => exact h
  · rfl

omit [DecidableEq K] in
theorem readyNodes_getReady (h : s.readyNodes.isSome) : s.getReady.2.readyNodes.isSome := by
  unfold getReady
  split
  · exact h
  · rfl

theorem readyNodes_maskDone (ks : List K) : (s.maskDone ks).2.readyNodes = s.readyNodes := by
  induction ks generalizing s with
  | nil => rfl
  | cons k ks ih =>
    unfold maskDone
    split
    · rfl
    · exact ih _

theorem readyNodes_done (h : s.readyNodes.isSome) (ks : List K) :
    (s.done ks).2.readyNodes.isSome := by
  unfold done
  split
  · exact h
  · have hm := s.readyNodes_maskDone ks
    split
    · next he =>
      rw [he] at hm
      rw [hm]
      exact h
    · rfl

end TopologicalSorter

namespace Graph

/-- `prepare` of the sorter was called. -/
def Prepared (g : Graph) : Prop := g.sorter.readyNodes.isSome

@[simp] theorem sorter_setInfo (g : Graph) (t : TaskID) (f : TaskInfo → TaskInfo) :
    (g.setInfo t f).sorter = g.sorter := by
  unfold setInfo
  split <;> rfl

theorem prepared_markNodeCanceled {g : Graph} (h : g.Prepared) (c : TaskCancelConfirm) :
    (g.markNodeCanceled c).2.Prepared := by
  have hd := g.sorter.readyNodes_done h [c.taskId]
  unfold markNodeCanceled
  split
  · exact h
  · split
    · next he =>
      rw [he] at hd
      exact hd
    · next he =>
      rw [he] at hd
      exact hd

theorem prepared_markAllCanceled {g : Graph} (h : g.Prepared) (ts : List TaskID) :
    (markAllCanceled ts g).2.Prepared := by
  induction ts generalizing g with
  | nil => exact h
  | cons t ts ih =>
    have hm := prepared_markNodeCanceled h ⟨t, .canceled⟩
    unfold markAllCanceled
    split
    · next he =>
      rw [he] at hm
      exact hm
    · next he =>
      rw [he] at hm
      exact ih hm

theorem prepared_cancelInactive {g : Graph} (h : g.Prepared) (n : Nat) :
    (cancelInactive n g).2.Prepared := by
  induction n generalizing g with
  | zero => exact h
  | succ n ih =>
    have hr := g.sorter.readyNodes_getReady h
    unfold cancelInactive
    split
    · exact h
    · split
      · next he =>
        rw [he] at hr
        exact hr
      · next ready sorter he =>
        rw [he] at hr
        have hm := prepared_markAllCanceled (g := { g with sorter := sorter }) hr ready
        split
        · exact hr
        · split
          · next he' =>
            rw [he'] at hm
            exact hm
          · next he' =>
            rw [he'] at hm
            exact ih hm

theorem sorter_cleanIntermediateResult (t : TaskID) (ds : List TaskID) (g : Graph) :
    (g.cleanIntermediateResult t ds).2.1.sorter = g.sorter := by
  induction ds generalizing g with
  | nil => rfl
  | cons d ds ih =>
    unfold cleanIntermediateResult
    split
    · rfl
    · dsimp only
      split
      · exact ih _
      · split
        · exact ih _
        · split
          · rfl
          · exact ih _

theorem prepared_markNodeDone {g : Graph} (h : g.Prepared) (r : TaskResult) :
    (g.markNodeDone r).2.1.Prepared := by
  unfold markNodeDone
  split
  · exact h
  · next info hi =>
    dsimp only
    generalize hg : (g.setInfo r.taskId _ : Graph) = g'
    have hs : g'.sorter = g.sorter := by
      subst hg
      simp
    have hc := sorter_cleanIntermediateResult r.taskId info.task.requiredTaskIds g'
    split
    · next he =>
      rw [he] at hc
      unfold Prepared
      rw [hc, hs]
      exact h
    · next g₁ deleted he =>
      rw [he] at hc
      have hd := g₁.sorter.readyNodes_done (by rw [hc, hs]; exact h) [r.taskId]
      split
      · next he' =>
        rw [he'] at hd
        exact hd
      · next he' =>
        rw [he'] at hd
        exact hd

theorem prepared_ofTasks {n : NewGraph} {sorter : TopologicalSorter TaskID}
    (h : n.prepare = .ok sorter) : sorter.readyNodes.isSome := by
  unfold NewGraph.prepare at h
  have hp := TopologicalSorter.readyNodes_prepare (TopologicalSorter.empty.mergeGraph n.graph.entries).2
  dsimp only at h
  split at h
  · cases h
  · next he =>
    rw [he] at hp
    cases h
    exact hp

end Graph

/-- Synchronous calls do not raise where the source does not expect it. -/
structure Sched.Sane (s : Sched) : Prop where
  policy : s.policy.Sound
  graphs : ∀ ref, (s.graphs ref).Prepared

/-- An event speaks about its own task, and `route` never raises. -/
def Tok.Wf : Tok → Prop
  | .event e | .wait _ e | .apply _ e _ _ => e.Wf
  | .fault .absurd => False
  | _ => True

namespace Sched

theorem prepared_setGraph {s : Sched} (h : ∀ ref, (s.graphs ref).Prepared) {ref : Nat} {g : Graph}
    (hg : g.Prepared) : ∀ r, ((s.setGraph ref g).graphs r).Prepared := by
  intro r
  change (Function.update s.graphs ref g r).Prepared
  by_cases hr : r = ref
  · subst hr
    rwa [Function.update_self]
  · rw [Function.update_of_ne hr]
    exact h r

theorem graphs_popGraph (s : Sched) (g : TaskID) : (s.popGraph g).2.graphs = s.graphs := by
  have hf : (s.onTaskFinish g).graphs = s.graphs :=
    congrArg (·.1.graphs) (s.offTask_onTaskFinish g)
  unfold popGraph
  dsimp only
  split
  · exact hf
  · split
    · exact hf
    · exact hf

theorem prepared_markNodeDone {s s' : Sched} (h : ∀ ref, (s.graphs ref).Prepared) {r : TaskResult}
    {x : Except Exn Unit} (he : s.markNodeDone r = (x, s')) : ∀ ref, (s'.graphs ref).Prepared := by
  obtain rfl : (s.markNodeDone r).2 = s' := congrArg Prod.snd he
  unfold markNodeDone
  split
  · exact h
  · dsimp only
    split
    · exact h
    · next ref _ =>
      obtain ⟨tracker, deleted, he⟩ := deleteResults_eq
        (Sched.setGraph _ ref _) _ ((s.graphs ref).markNodeDone r).2.2
      rw [he]
      exact prepared_setGraph h (Graph.prepared_markNodeDone (h ref) r)

theorem prepared_submitNode {s s' : Sched} (h : ∀ ref, (s.graphs ref).Prepared) {g : TaskID}
    {ref : Nat} {t : TaskID} {x : Except Exn Task} (he : s.submitNode g ref t = (x, s')) :
    ∀ r, (s'.graphs r).Prepared := by
  obtain rfl : (s.submitNode g ref t).2 = s' := congrArg Prod.snd he
  have hs : ∀ (x : List TaskID) (f : TaskInfo → TaskInfo),
      ({ (s.graphs ref).setInfo t f with runningTaskIds := x } : Graph).Prepared := by
    intro x f
    change ((s.graphs ref).setInfo t f).sorter.readyNodes.isSome
    rw [Graph.sorter_setInfo]
    exact h ref
  unfold submitNode
  split
  · exact h
  · dsimp only
    split
    · exact prepared_setGraph h (hs _ _)
    · exact prepared_setGraph h (hs _ _)

theorem prepared_markNodeCanceled {s s' : Sched} (h : ∀ ref, (s.graphs ref).Prepared) {g : TaskID}
    {ref : Nat} {c : TaskCancelConfirm} {x : Except Exn Unit}
    (he : s.markNodeCanceled g ref c = (x, s')) : ∀ r, (s'.graphs r).Prepared := by
  obtain rfl : (s.markNodeCanceled g ref c).2 = s' := congrArg Prod.snd he
  exact prepared_setGraph h (Graph.prepared_markNodeCanceled (h ref) c)

theorem prepared_sweep {s s' : Sched} (h : ∀ ref, (s.graphs ref).Prepared) {g : TaskID} {ref : Nat}
    {x : Except Exn (List TaskCancelConfirm)} (he : s.sweep g ref = (x, s')) :
    ∀ r, (s'.graphs r).Prepared := by
  obtain rfl : (s.sweep g ref).2 = s' := congrArg Prod.snd he
  exact prepared_setGraph h (Graph.prepared_cancelInactive (h ref) _)

end Sched

theorem PopStep.graphs {g : TaskID} {m : Message} {s s' : Sched} {t : Multiset Tok}
    (h : PopStep g m s s' t) : s'.graphs = s.graphs := by
  cases h with
  | ok h => exact (congrArg (·.2.graphs) h).symm.trans (s.graphs_popGraph g)
  | sendFail h => exact (congrArg (·.2.graphs) h).symm.trans (s.graphs_popGraph g)
  | popFail h => exact (congrArg (·.2.graphs) h).symm.trans (s.graphs_popGraph g)

section

variable {g : TaskID} {s s' : Sched} {t : Multiset Tok}

theorem CheckStep.prepared (h : CheckStep g s s' t) (hg : ∀ ref, (s.graphs ref).Prepared) :
    ∀ ref, (s'.graphs ref).Prepared := by
  cases h with
  | done _ _ hp => rwa [hp.graphs]
  | @ready ref _ sorter _ _ hr =>
    have hs := (s.graphs ref).sorter.readyNodes_getReady (hg ref)
    rw [hr] at hs
    exact Sched.prepared_setGraph hg hs

theorem VisitStep.prepared (h : VisitStep g s s' t) (hg : ∀ ref, (s.graphs ref).Prepared) :
    ∀ ref, (s'.graphs ref).Prepared := by
  cases h with
  | pop _ hp => rwa [hp.graphs]
  | pass => exact hg
  | @accept ref => exact Sched.prepared_setGraph hg (hg ref)

theorem AbortStep.prepared {x : TaskResultType} (h : AbortStep g x s s' t)
    (hg : ∀ ref, (s.graphs ref).Prepared) : ∀ ref, (s'.graphs ref).Prepared := by
  cases h with
  | pop _ hp => rwa [hp.graphs]
  | @abort ref => exact Sched.prepared_setGraph hg (hg ref)

end

theorem GraphStep.prepared {i : Tid} {s s' : Sched} {t t' : Multiset Tok}
    (h : GraphStep i s t s' t') (hg : ∀ ref, (s.graphs ref).Prepared) :
    ∀ ref, (s'.graphs ref).Prepared := by
  cases h with
  | beginGraph h =>
    intro ref
    have hs := congrArg (·.2.graphs) h
    rw [← (show s.graphs = _ from hs)]
    exact hg ref
  | registerGraph h hc => exact hc.prepared (Sched.prepared_setGraph hg (Graph.prepared_ofTasks h))
  | submit h => exact Sched.prepared_submitNode hg h
  | submitFail h => exact fun ref => Sched.prepared_submitNode hg h ref
  | nodeDone _ _ _ _ h _ hc hx =>
    have hm := Sched.prepared_markNodeDone hg h
    rcases Classical.em _ with hs | hs
    · exact (hc hs).prepared hm
    · exact (hx hs).prepared hm
  | nodeDoneFail _ h => exact Sched.prepared_markNodeDone hg h
  | nodeCanceled _ _ _ h hv => exact hv.prepared (Sched.prepared_markNodeCanceled hg h)
  | nodeCanceledFail _ _ _ h => exact Sched.prepared_markNodeCanceled hg h
  | visit _ hv => exact hv.prepared hg
  | sweep h => exact Sched.prepared_sweep hg h
  | sweepFail h => exact Sched.prepared_sweep hg h
  | sweptPop _ hp => rwa [hp.graphs]
  | retire _ _ h => exact Sched.prepared_markNodeDone hg h
  | @abortReady _ ref _ _ sorter _ hr =>
    have hs := (s.graphs ref).sorter.readyNodes_getReady (hg ref)
    rw [hr] at hs
    exact Sched.prepared_setGraph hg hs
  | abortedPop _ hp => rwa [hp.graphs]
  | _ => exact hg

/-- The other controllers never touch the graphs. -/
theorem OtherStep.graphView {i : Tid} {s s' : Sched} {t t' : Multiset Tok}
    (h : OtherStep i s t s' t') : s'.graphView = s.graphView := by
  cases h with
  | addWorker h => exact congrArg (·.2.graphView) h.symm
  | connect => exact Sched.graphView_noteHeartbeat _ _ _
  | heartbeat => exact Sched.graphView_noteHeartbeat _ _ _
  | leave =>
    unfold Sched.removeWorkerFromManager
    split
    · rfl
    · dsimp only
      split
      · rfl
      · split <;> rfl
  | removeWorker h => exact congrArg (·.2.graphView) h.symm
  | removeWorkerFail h => exact congrArg (·.2.graphView) h.symm
  | _ => rfl

theorem TaskStep.policy_sound {i : Tid} {s s' : Sched} {t t' : Multiset Tok}
    (h : TaskStep i s t s' t') (hs : s.policy.Sound) : s'.policy.Sound := by
  have hassign : ∀ {task : Task} {r p}, s.policy.assignTask task = (r, p) → p.Sound := by
    intro task r p he
    obtain ⟨_, q, hq, hp⟩ := AllocatePolicy.assignTask_sound hs task
    rw [he] at hq
    cases hq
    exact hp
  have hremove : ∀ {t : TaskID} {r p}, s.policy.removeTask t = (r, p) → p.Sound := by
    intro t r p he
    have hp := AllocatePolicy.removeTask_sound hs t
    rwa [he] at hp
  cases h with
  | hold _ _ hp => exact hassign hp
  | assign _ _ hp => exact hassign hp
  | acquire _ _ hp => exact hassign hp
  | acquireNone _ _ hp => exact hassign hp
  | release _ _ _ _ h => exact hremove h
  | releaseFail h => exact hremove h
  | place _ _ _ hp => exact hassign hp
  | placeFail _ _ _ hp => exact hassign hp
  | suspend _ _ _ hp => exact hassign hp
  | free h => exact hremove h
  | finish => rwa [Sched.policy_onTaskFinish]
  | popOwner => rwa [Sched.policy_onTaskFinish]
  | settle => rwa [Sched.policy_releaseLock, Sched.policy_settle]
  | tearDown => rwa [Sched.policy_tearDown]
  | _ => exact hs

theorem OtherStep.policy_sound {i : Tid} {s s' : Sched} {t t' : Multiset Tok}
    (h : OtherStep i s t s' t') (hs : s.policy.Sound) : s'.policy.Sound := by
  have hremove : ∀ {w r s'}, s.removeWorker w = (r, s') → s'.policy.Sound := by
    intro w r s' he
    obtain rfl : (s.removeWorker w).2 = s' := congrArg Prod.snd he
    exact AllocatePolicy.removeWorker_sound hs w
  cases h with
  | addWorker h =>
    rw [show s' = _ from (congrArg Prod.snd h).symm]
    exact AllocatePolicy.addWorker_sound hs _ _ _
  | connect =>
    rw [Sched.policy_noteHeartbeat]
    exact hs
  | heartbeat => rwa [Sched.policy_noteHeartbeat]
  | leave => rwa [Sched.policy_removeWorkerFromManager]
  | removeWorker h => exact hremove h
  | removeWorkerFail h => exact (hremove h :)
  | _ => exact hs

theorem Step.sane {i : Tid} {s s' : Sched} {t t' : Multiset Tok} (h : Step i s t s' t')
    (hs : s.Sane) : s'.Sane := by
  cases h with
  | task h =>
    refine ⟨h.policy_sound hs.policy, ?_⟩
    rw [show s'.graphs = s.graphs from congrArg GraphView.graphs h.graphView]
    exact hs.graphs
  | graph h =>
    refine ⟨?_, h.prepared hs.graphs⟩
    rw [show s'.policy = s.policy from congrArg TaskView.policy h.taskView]
    exact hs.policy
  | other h =>
    refine ⟨h.policy_sound hs.policy, ?_⟩
    rw [show s'.graphs = s.graphs from congrArg GraphView.graphs h.graphView]
    exact hs.graphs

section

variable {i : Tid} {s s' : Sched} {t t' : Multiset Tok}

theorem mem_toks {α : Type} {f : α → Tok} {l : List α} {a : Tok} :
    a ∈ toks f l ↔ ∃ x ∈ l, f x = a := by
  simp [toks]

theorem wf_zero : ∀ a ∈ (0 : Multiset Tok), a.Wf := fun a ha => absurd ha (Multiset.notMem_zero a)

theorem wf_singleton {a : Tok} (ha : a.Wf) : ∀ b ∈ ({a} : Multiset Tok), b.Wf := fun _ hb => (Multiset.mem_singleton.mp hb).symm ▸ ha

theorem wf_toks {α : Type} {f : α → Tok} {l : List α} (h : ∀ x, (f x).Wf) : ∀ a ∈ toks f l, a.Wf := by
  intro a ha
  obtain ⟨x, -, rfl⟩ := mem_toks.mp ha
  exact h x

theorem PopStep.tok_wf {g : TaskID} {m : Message} (h : PopStep g m s s' t) : ∀ a ∈ t, a.Wf := by
  cases h <;> simp [Tok.Wf]

theorem CheckStep.tok_wf {g : TaskID} (h : CheckStep g s s' t) : ∀ a ∈ t, a.Wf := by
  cases h with
  | done _ _ hp => exact hp.tok_wf
  | ready => simp [mem_toks, Tok.Wf]

theorem VisitStep.tok_wf {g : TaskID} (h : VisitStep g s s' t) : ∀ a ∈ t, a.Wf := by
  cases h with
  | pop _ hp => exact hp.tok_wf
  | pass => simp
  | accept => simp [Tok.Wf]

theorem AbortStep.tok_wf {g : TaskID} {x : TaskResultType} (h : AbortStep g x s s' t) :
    ∀ a ∈ t, a.Wf := by
  cases h with
  | pop _ hp => exact hp.tok_wf
  | abort => simp [mem_toks, Tok.Wf]

theorem TaskStep.tok_wf (h : TaskStep i s t s' t') (ht : ∀ a ∈ t, a.Wf) : ∀ a ∈ t', a.Wf := by
  have htwo : ∀ {a : Tok} {o : Obs}, a.Wf → ∀ b ∈ ({a, .fault (.seen o)} : Multiset Tok), b.Wf := by
    intro a o ha b hb
    rcases Multiset.mem_cons.mp hb with rfl | hb
    · exact ha
    · exact wf_singleton (a := .fault (.seen o)) trivial b hb
  have hmine : ∀ {a : Tok}, (∀ b ∈ ({a} : Multiset Tok), b.Wf) → a.Wf := fun h => h _ (Multiset.mem_singleton_self _)
  cases h with
  | report hw => exact wf_singleton hw
  | _ =>
    -- the event of the token is the one of the token before
    first
    | exact wf_zero
    | exact wf_singleton trivial
    | have he := hmine ht
      first
      | exact wf_singleton he
      | exact htwo he

theorem GraphStep.tok_wf (h : GraphStep i s t s' t') (ht : ∀ a ∈ t, a.Wf) : ∀ a ∈ t', a.Wf := by
  have hadd : ∀ {u v : Multiset Tok}, (∀ a ∈ u, a.Wf) → (∀ a ∈ v, a.Wf) → ∀ a ∈ u + v, a.Wf := by
    intro u v hu hv a ha
    exact (Multiset.mem_add.mp ha).elim (hu a) (hv a)
  cases h with
  | registerGraph _ hc => exact hc.tok_wf
  | nodeDone _ _ _ _ _ _ hc hx =>
    rcases Classical.em _ with hs | hs
    · exact hadd ht (hc hs).tok_wf
    · exact hadd ht (hx hs).tok_wf
  | nodeCanceled _ _ _ _ hv => exact hadd ht hv.tok_wf
  | visit _ hv => exact hv.tok_wf
  | sweptPop _ hp => exact hp.tok_wf
  | abortedPop _ hp => exact hp.tok_wf
  | nodeDoneFail =>
    refine hadd ht (v := {.fault .other}) ?_
    simp [Tok.Wf]
  | nodeCanceledFail =>
    refine hadd ht (v := {.fault .other}) ?_
    simp [Tok.Wf]
  | lose => exact fun a ha => ht a (Multiset.mem_add.mpr (.inr ha))
  | _ =>
    first
    | exact wf_zero
    | exact wf_singleton trivial
    | simp [mem_toks, Tok.Wf]

theorem OtherStep.tok_wf (h : OtherStep i s t s' t') : ∀ a ∈ t', a.Wf := by
  cases h with
  | removeWorker => exact wf_toks fun _ => trivial
  | _ =>
    first
    | exact wf_zero
    | exact wf_singleton trivial

theorem Step.tok_wf (h : Step i s t s' t') (ht : ∀ a ∈ t, a.Wf) : ∀ a ∈ t', a.Wf := by
  cases h with
  | task h => exact h.tok_wf ht
  | graph h => exact h.tok_wf ht
  | other h => exact h.tok_wf

end

section

variable {cfg : SchedulerConfig} {s : Sched}
  {M : Multiset (Tid × Tok)}

theorem Run.sane (h : Run cfg s M) : s.Sane := by
  induction h with
  | init => exact ⟨AllocatePolicy.sound_create _, fun _ => rfl⟩
  | step _ hs ih => exact hs.sane ih
  | fork _ _ ih => exact ih
  | join _ ih => exact ih

theorem Run.tok_wf (h : Run cfg s M) : ∀ p ∈ M, p.2.Wf := by
  induction h with
  | init => simp
  | @step s s' i t t' M _ hs ih =>
    intro p hp
    rcases Multiset.mem_add.mp hp with hp | hp
    · refine hs.tok_wf (fun a ha => ?_) p.2 (mem_tag.mp hp).2
      exact ih (i, a) (Multiset.mem_add.mpr (.inl (mem_tag.mpr ⟨rfl, ha⟩)))
    · exact ih p (Multiset.mem_add.mpr (.inr hp))
  | @fork _ i _ a _ _ _ ih =>
    intro p hp
    rcases Multiset.mem_cons.mp hp with rfl | hp
    · exact ih (i, a) (Multiset.mem_cons_self _ _)
    · exact ih p (Multiset.mem_cons_of_mem hp)
  | @join _ i n f _ _ ih =>
    intro p hp
    rcases Multiset.mem_cons.mp hp with rfl | hp
    · exact ih (n :: i, .fault f) (Multiset.mem_cons_self _ _)
    · exact ih p (Multiset.mem_cons_of_mem hp)

end

end Scaler
