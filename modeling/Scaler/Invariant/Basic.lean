import Scaler.Refinement.Scheduler

/-! How invariants of the step system become invariants of the scheduler, and which
steps an invariant of the task controller has to look at. -/

namespace Scaler

open Collections Coroutine

variable {cfg : SchedulerConfig}

/-- Which thread holds a token matters to few invariants. -/
theorem Run.invariant {J : Sched → Multiset Tok → Prop} (h0 : J (Sched.init cfg) 0)
    (hstep : ∀ {i s s' t t' R}, Step i s t s' t' → J s (t + R) → J s' (t' + R)) {s : Sched}
    {M : Multiset (Tid × Tok)} (h : Run cfg s M) : J s (M.map Prod.snd) := by
  have htag : ∀ (i : Tid) (t : Multiset Tok), (tag i t).map Prod.snd = t := by
    intro i t
    unfold tag
    rw [Multiset.map_map]
    exact Multiset.map_id t
  induction h with
  | init => exact h0
  | step _ hs ih =>
    rw [Multiset.map_add, htag] at ih ⊢
    exact hstep hs ih
  | fork _ _ ih =>
    rw [Multiset.map_cons] at ih ⊢
    exact ih
  | join _ ih =>
    rw [Multiset.map_cons] at ih ⊢
    exact ih

/-- A suspended scheduler is in a state of the step system, and every token belongs to
a coroutine in progress that may keep it. -/
theorem exists_run {c : Config Sched Exn Label Proc} (h : Reachable scheduler (Sched.init cfg) c)
    (hc : c.Suspended) : ∃ M, Run cfg c.state M ∧
      (∀ i a, (i, a) ∈ M → ∃ th ∈ c.threads, th.id = i ∧ ∃ p ∈ th.frames, p.keeps a) ∧
      ∀ th ∈ c.threads, ∀ l r k, th.code = .run (.await l r k) →
        ∃ t, l.waits t ∧ tag th.id t ≤ M :=
  (protocol_verifies cfg).invariant Run.init h hc

/-- The tokens of the task controller. -/
def Tok.isTask : Tok → Bool
  | .event _ | .wait _ _ | .apply _ _ _ _ | .closing _ => true
  | _ => false

/-- The tokens of the worker controller. -/
def Tok.isWorker : Tok → Bool
  | .connecting _ => true
  | _ => false

def taskToks (t : Multiset Tok) : Multiset Tok := t.filter fun a => a.isTask = true

def workerToks (t : Multiset Tok) : Multiset Tok := t.filter fun a => a.isWorker = true

/-- The tokens that the graph controller neither makes nor uses up. -/
def offGraphToks (t : Multiset Tok) : Multiset Tok :=
  t.filter fun a => (a.isTask || a.isWorker) = true

@[simp] theorem taskToks_zero : taskToks 0 = 0 := rfl

@[simp] theorem workerToks_zero : workerToks 0 = 0 := rfl

@[simp] theorem taskToks_add (t u : Multiset Tok) : taskToks (t + u) = taskToks t + taskToks u :=
  Multiset.filter_add _ _ _

@[simp] theorem workerToks_add (t u : Multiset Tok) :
    workerToks (t + u) = workerToks t + workerToks u := Multiset.filter_add _ _ _

@[simp] theorem offGraphToks_add (t u : Multiset Tok) :
    offGraphToks (t + u) = offGraphToks t + offGraphToks u := Multiset.filter_add _ _ _

theorem taskToks_offGraphToks (t : Multiset Tok) : taskToks (offGraphToks t) = taskToks t := by
  unfold taskToks offGraphToks
  rw [Multiset.filter_filter]
  refine Multiset.filter_congr fun a _ => ?_
  simp +contextual

theorem workerToks_offGraphToks (t : Multiset Tok) :
    workerToks (offGraphToks t) = workerToks t := by
  unfold workerToks offGraphToks
  rw [Multiset.filter_filter]
  refine Multiset.filter_congr fun a _ => ?_
  simp +contextual

theorem mem_taskToks {t : Multiset Tok} {a : Tok} : a ∈ taskToks t ↔ a ∈ t ∧ a.isTask = true :=
  Multiset.mem_filter

theorem offGraphToks_eq_zero {t : Multiset Tok} (h : ∀ a ∈ t, (a.isTask || a.isWorker) = false) :
    offGraphToks t = 0 := by
  refine Multiset.filter_eq_nil.mpr ?_
  intro a ha
  simp [h a ha]

theorem offGraphToks_toks {α : Type} {f : α → Tok} {l : List α}
    (h : ∀ a, ((f a).isTask || (f a).isWorker) = false) : offGraphToks (toks f l) = 0 := by
  refine offGraphToks_eq_zero fun a ha => ?_
  obtain ⟨x, _, rfl⟩ := mem_toks.mp ha
  exact h x

theorem forall_of_filter {p : Tok → Bool} {t : Multiset Tok} (h : (t.filter fun a => p a = false) = 0) : ∀ a ∈ t, p a = true :=
  fun a ha => Bool.eq_true_of_not_eq_false (Multiset.filter_eq_nil.mp h a ha)

theorem taskToks_toks {α : Type} {f : α → Tok} {l : List α} (h : ∀ a, (f a).isTask = true) :
    taskToks (toks f l) = toks f l := by
  refine Multiset.filter_eq_self.mpr ?_
  intro a ha
  obtain ⟨x, _, rfl⟩ := mem_toks.mp ha
  exact h x

theorem PopStep.offGraphToks {g : TaskID} {m : Message} {s s' : Sched} {t : Multiset Tok}
    (h : PopStep g m s s' t) : offGraphToks t = 0 := by
  cases h <;> rfl

theorem CheckStep.offGraphToks {g : TaskID} {s s' : Sched} {t : Multiset Tok}
    (h : CheckStep g s s' t) : Scaler.offGraphToks t = 0 := by
  cases h with
  | done _ _ hp => exact hp.offGraphToks
  | ready => exact offGraphToks_toks fun _ => rfl

theorem VisitStep.offGraphToks {g : TaskID} {s s' : Sched} {t : Multiset Tok}
    (h : VisitStep g s s' t) : Scaler.offGraphToks t = 0 := by
  cases h with
  | pop _ hp => exact hp.offGraphToks
  | pass => rfl
  | accept => rfl

theorem AbortStep.offGraphToks {g : TaskID} {x : TaskResultType} {s s' : Sched} {t : Multiset Tok}
    (h : AbortStep g x s s' t) : Scaler.offGraphToks t = 0 := by
  cases h with
  | pop _ hp => exact hp.offGraphToks
  | abort =>
    rw [offGraphToks_add, offGraphToks_toks fun _ => rfl]
    rfl

theorem Tok.IsWork.offGraph {a : Tok} (h : a.IsWork) : (a.isTask || a.isWorker) = false := by
  cases a with
  | event => exact h.elim
  | wait => exact h.elim
  | apply => exact h.elim
  | closing => exact h.elim
  | connecting => exact h.elim
  | _ => rfl

theorem GraphStep.offGraphToks {i : Tid} {s s' : Sched} {t t' : Multiset Tok}
    (h : GraphStep i s t s' t') : Scaler.offGraphToks t' = Scaler.offGraphToks t := by
  cases h with
  | registerGraph _ hc => exact hc.offGraphToks
  | nodeDone _ _ _ _ _ _ hc hx =>
    rcases Classical.em _ with hs | hs
    · rw [offGraphToks_add, (hc hs).offGraphToks, add_zero]
    · rw [offGraphToks_add, (hx hs).offGraphToks, add_zero]
  | nodeDoneFail =>
    rw [pair_eq, offGraphToks_add]
    exact add_zero _
  | nodeCanceled _ _ _ _ hv => rw [offGraphToks_add, hv.offGraphToks, add_zero]
  | nodeCanceledFail =>
    rw [pair_eq, offGraphToks_add]
    exact add_zero _
  | visit _ hv => exact hv.offGraphToks
  | sweep =>
    rw [offGraphToks_add, offGraphToks_toks fun _ => rfl]
    rfl
  | sweptPop _ hp => exact hp.offGraphToks
  | abortReady =>
    rw [offGraphToks_add, offGraphToks_toks fun _ => rfl]
    rfl
  | abortedPop _ hp => exact hp.offGraphToks
  | @lose a f h =>
    have ha : Scaler.offGraphToks {a} = 0 := by
      refine offGraphToks_eq_zero fun b hb => ?_
      rw [Multiset.mem_singleton.mp hb]
      exact h.offGraph
    rw [offGraphToks_add, ha, zero_add]
  | _ => rfl

/-- The graph controller neither makes nor uses up work of the task controller. -/
theorem GraphStep.taskToks {i : Tid} {s s' : Sched} {t t' : Multiset Tok}
    (h : GraphStep i s t s' t') : Scaler.taskToks t' = Scaler.taskToks t := by
  rw [← taskToks_offGraphToks, h.offGraphToks, taskToks_offGraphToks]

theorem GraphStep.workerToks {i : Tid} {s s' : Sched} {t t' : Multiset Tok}
    (h : GraphStep i s t s' t') : Scaler.workerToks t' = Scaler.workerToks t := by
  rw [← workerToks_offGraphToks, h.offGraphToks, workerToks_offGraphToks]

/-- An invariant of the task controller has to be checked at its own steps and where
workers come and go. -/
theorem Run.taskInvariant {J : TaskView → Multiset Tok → Prop} (h0 : J (Sched.init cfg).taskView 0)
    (htask : ∀ {i s s' t t' K}, TaskStep i s t s' t' → J s.taskView (taskToks t + K) →
      J s'.taskView (taskToks t' + K))
    (hadd : ∀ {s : Sched} {w c n K}, J s.taskView K →
      J { s with policy := (s.policy.addWorker w c n).2 }.taskView K)
    (hremove : ∀ {s s' : Sched} {w ts K}, s.removeWorker w = (.ok ts, s') → J s.taskView K →
      J s'.taskView (toks (fun t => .event (.workerDisconnected t w)) ts + K))
    (hfail : ∀ {s s' : Sched} {w e K}, s.removeWorker w = (.error e, s') → J s.taskView K →
      J (s'.note .policyFailed).taskView K)
    {s : Sched} {M : Multiset (Tid × Tok)} (h : Run cfg s M) :
    J s.taskView (taskToks (M.map Prod.snd)) := by
  refine Run.invariant (J := fun s T => J s.taskView (taskToks T)) h0 ?_ h
  intro i s s' t t' R hs hj
  rw [taskToks_add] at hj ⊢
  cases hs with
  | task h => exact htask h hj
  | graph h => rwa [h.taskView, h.taskToks]
  | other h =>
    cases h with
    | addWorker h =>
      rw [show s' = _ from (congrArg Prod.snd h).symm]
      exact hadd hj
    | connect =>
      rw [Sched.taskView_noteHeartbeat]
      exact hj
    | removeWorker h =>
      rw [taskToks_zero, zero_add] at hj
      rw [taskToks_toks fun _ => rfl]
      exact hremove h hj
    | removeWorkerFail h =>
      rw [taskToks_zero, zero_add] at hj
      rw [show taskToks {Tok.fault _} = 0 from rfl, zero_add]
      exact hfail h hj
    | heartbeat => rwa [Sched.taskView_noteHeartbeat]
    | leave =>
      rw [Sched.taskView_removeWorkerFromManager]
      exact hj
    | @plainSend peer m hm =>
      rw [Sched.noteSent, Sched.taskView_note]
      · exact hj
      · cases m with
        | task => exact hm.elim
        | _ => cases peer <;> rfl
    | _ => exact hj

section Trace

variable {i : Tid} {s s' : Sched} {t t' : Multiset Tok}

theorem Sched.trace_popGraph (s : Sched) (g : TaskID) : (s.popGraph g).2.trace = s.trace := by
  unfold popGraph
  dsimp only
  split
  · simp
  · split <;> simp

theorem PopStep.trace {g : TaskID} {m : Message} (h : PopStep g m s s' t) :
    s.trace <:+ s'.trace := by
  cases h with
  | ok h =>
    rw [← s.trace_popGraph g, h]
    exact List.suffix_cons _ _
  | sendFail h =>
    rw [← s.trace_popGraph g, h]
    exact List.suffix_cons _ _
  | popFail h =>
    rw [← s.trace_popGraph g, h]
    exact List.suffix_cons _ _

theorem CheckStep.trace {g : TaskID} (h : CheckStep g s s' t) : s.trace <:+ s'.trace := by
  cases h with
  | done _ _ hp => exact hp.trace
  | ready => exact List.suffix_refl _

theorem VisitStep.trace {g : TaskID} (h : VisitStep g s s' t) : s.trace <:+ s'.trace := by
  cases h with
  | pop _ hp => exact hp.trace
  | pass => exact List.suffix_refl _
  | accept => exact List.suffix_cons _ _

theorem AbortStep.trace {g : TaskID} {x : TaskResultType} (h : AbortStep g x s s' t) :
    s.trace <:+ s'.trace := by
  cases h with
  | pop _ hp => exact hp.trace
  | abort => exact List.suffix_refl _

theorem Sched.trace_markNodeDone {s s' : Sched} {r : TaskResult} {x : Except Exn Unit}
    (h : s.markNodeDone r = (x, s')) : s.trace <:+ s'.trace := by
  obtain rfl : (s.markNodeDone r).2 = s' := congrArg Prod.snd h
  cases hg : s.taskIdToGraphTaskId.get? r.taskId with
  | none =>
    simp only [markNodeDone, hg]
    exact List.suffix_cons _ _
  | some g =>
    cases hr : s.graphTaskIdToGraph.get? g with
    | none =>
      simp only [markNodeDone, hg, hr]
      exact List.suffix_cons _ _
    | some ref =>
      obtain ⟨tracker, deleted, he⟩ := markNodeDone_eq hg hr
      rw [he]
      exact List.suffix_cons _ _

theorem Sched.trace_submitNode {s s' : Sched} {g : TaskID} {ref : Nat} {t : TaskID}
    {x : Except Exn Task} (h : s.submitNode g ref t = (x, s')) : s.trace <:+ s'.trace := by
  obtain rfl : (s.submitNode g ref t).2 = s' := congrArg Prod.snd h
  unfold submitNode
  split
  · exact List.suffix_refl _
  · dsimp only
    split
    · exact List.suffix_refl _
    · exact List.suffix_cons _ _

theorem GraphStep.trace (h : GraphStep i s t s' t') : s.trace <:+ s'.trace := by
  cases h with
  | refuseGraph => exact List.suffix_cons _ _
  | beginGraph h =>
    rw [show s.trace = _ from congrArg (·.2.trace) h]
  | rejectGraph => exact List.suffix_cons _ _
  | registerGraph _ hc => exact (List.suffix_cons _ _).trans hc.trace
  | submit h => exact Sched.trace_submitNode h
  | submitFail h => exact (Sched.trace_submitNode h).trans (List.suffix_cons _ _)
  | nodeDone _ _ _ _ h _ hc hx =>
    have hm := Sched.trace_markNodeDone h
    rcases Classical.em _ with hs | hs
    · exact hm.trans (hc hs).trace
    · exact hm.trans (hx hs).trace
  | nodeDoneFail _ h => exact Sched.trace_markNodeDone h
  | nodeCanceled _ _ _ h hv =>
    refine List.IsSuffix.trans ?_ hv.trace
    rw [show _ = _ from (congrArg (·.2.trace) h).symm]
    exact List.suffix_cons _ _
  | nodeCanceledFail _ _ _ h =>
    rw [show s'.trace = _ from (congrArg (·.2.trace) h).symm]
    exact List.suffix_cons _ _
  | notFound => exact List.suffix_cons _ _
  | visit _ hv => exact hv.trace
  | sweep h =>
    rw [show s'.trace = _ from (congrArg (·.2.trace) h).symm]
    exact List.suffix_cons _ _
  | sweepFail h =>
    rw [show s'.trace = _ from (congrArg (·.2.trace) h).symm]
    exact List.suffix_cons _ _
  | sweptPop _ hp => exact hp.trace
  | retire _ _ h => exact Sched.trace_markNodeDone h
  | abortedPop _ hp => exact hp.trace
  | send => exact List.suffix_cons _ _
  | sendFail => exact List.suffix_cons _ _
  | _ => exact List.suffix_refl _

theorem Sched.trace_commit (s : Sched) (t : TaskID) (x : TaskState) :
    (s.commit t x).trace = s.trace := by
  unfold commit
  split
  · rfl
  · split <;> rfl

theorem Sched.trace_removeStateMachine (s : Sched) (t : TaskID) :
    s.trace <:+ (s.removeStateMachine t).trace := by
  unfold removeStateMachine
  split
  · exact List.suffix_refl _
  · exact List.suffix_cons _ _

theorem Sched.trace_settle (s : Sched) (t : TaskID) (x : TaskState) :
    s.trace <:+ (s.settle t x).trace := by
  rw [← s.trace_commit t x]
  unfold settle
  split
  · exact Sched.trace_removeStateMachine _ _
  · exact List.suffix_refl _

theorem Sched.trace_tearDown (s : Sched) (t : TaskID) : s.trace <:+ (s.tearDown t).trace := by
  rw [← s.trace_commit t .failed]
  exact Sched.trace_removeStateMachine _ _

theorem TaskStep.trace (h : TaskStep i s t s' t') : s.trace <:+ s'.trace := by
  cases h with
  | finish => simp
  | popOwner => simp
  | settle => exact s.trace_settle _ _
  | tearDown => exact s.trace_tearDown _
  | refuse => exact (List.suffix_cons _ _).trans (List.suffix_cons _ _)
  | _ => first | exact List.suffix_refl _ | exact List.suffix_cons _ _

theorem Sched.trace_noteHeartbeat (s : Sched) (w : WorkerID) (info : WorkerHeartbeat) :
    (s.noteHeartbeat w info).trace = s.trace := by
  unfold noteHeartbeat
  dsimp only
  split <;> rfl

theorem OtherStep.trace (h : OtherStep i s t s' t') : s.trace <:+ s'.trace := by
  cases h with
  | addWorker h =>
    rw [show s' = _ from (congrArg Prod.snd h).symm]
    exact List.suffix_refl _
  | connect => rw [Sched.trace_noteHeartbeat]; exact List.suffix_refl _
  | heartbeat => rw [Sched.trace_noteHeartbeat]
  | leave =>
    unfold Sched.removeWorkerFromManager
    split
    · exact List.suffix_refl _
    · dsimp only
      split
      · exact List.suffix_refl _
      · split <;> exact List.suffix_refl _
  | removeWorker h =>
    rw [show s'.trace = _ from (congrArg (·.2.trace) h).symm]
    exact List.suffix_cons _ _
  | removeWorkerFail h =>
    refine List.IsSuffix.trans ?_ (List.suffix_cons _ _)
    rw [show _ = _ from (congrArg (·.2.trace) h).symm]
    exact List.suffix_cons _ _
  | _ => first | exact List.suffix_refl _ | exact List.suffix_cons _ _

/-- The trace only grows. -/
theorem Step.trace (h : Step i s t s' t') : s.trace <:+ s'.trace := by
  cases h with
  | task h => exact h.trace
  | graph h => exact h.trace
  | other h => exact h.trace

end Trace

end Scaler
