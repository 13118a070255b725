import Scaler.Invariant.Whereabouts

/-! Who has a task. As long as nothing loses track of a task, it is never with two workers at once, and as long as
no event is dropped either, no task is lost. -/

namespace Scaler

open Collections Coroutine

section Runs

variable {cfg : SchedulerConfig} {s : Sched} {M : Multiset (Tid × Tok)}

/-- Nothing that loses track of a task has happened. -/
def Sched.Undisturbed (s : Sched) : Prop := ∀ o ∈ s.trace, o.Undisturbed

theorem Run.kept (strict : Prop) (h : Run cfg s M) (hu : s.Undisturbed)
    (hdropped : strict → ∀ o ∈ s.trace, o.isTimeout = false) :
    Everywhere True (Place.Kept strict) s.taskView (taskToks (M.map Prod.snd)) := by
  refine h.everywhere (C := fun o => o.Undisturbed ∧ (strict → o.isTimeout = false)) (fun _ => Place.Kept.empty)
    (fun hs hC hp => hs.kept (fun o ho => (hC o ho).1) (fun hx o ho => (hC o ho).2 hx) hp) ?_
    (fun _ _ _ hp => hp.unheld) (fun o ho => ⟨hu o ho, fun hx => hdropped hx o ho⟩)
  intro t p hp hq
  obtain ⟨m, hm, _⟩ := hp.booked.queue hq
  rw [hp.booked.payload, hm]
  rfl

theorem AllocatePolicy.mem_getWorkerIds {p : AllocatePolicy} (h : p.Wf) {t : TaskID} {w : WorkerID}
    (hw : p.getWorkerByTaskId t = some w) : w ∈ p.getWorkerIds := by
  cases p with
  | evenLoad p =>
    obtain ⟨ids, hids, _⟩ := (h.held t w).mp hw
    exact EvenLoadAllocatePolicy.mem_getWorkerIds.mpr (Option.isSome_iff_exists.mpr ⟨ids, hids⟩)
  | capability p =>
    obtain ⟨holder, hholder, _⟩ := (h.held t w).mp hw
    exact CapabilityAllocatePolicy.mem_getWorkerIds.mpr (Option.isSome_iff_exists.mpr ⟨holder, hholder⟩)

/-- A task goes to the worker that the policy has recorded for it, and only when no other worker has it. -/
theorem single_holder {c : Config Sched Exn Label Proc} (h : Reachable scheduler (Sched.init cfg) c) (hc : c.Suspended)
    (hu : c.state.Undisturbed) {w : WorkerID} {task : Task} {holder : Option WorkerID} {earlier : List Obs}
    (hsent : .sent (.worker w) (.task task) holder :: earlier <:+ c.state.trace) :
    holder = some w ∧ outstanding task.taskId earlier = none := by
  obtain ⟨M, hM, _⟩ := exists_run h hc
  obtain ⟨p, hs, hp⟩ := (hM.kept False hu False.elim).places task.taskId
  have hsuffix := (hsent.filter Obs.isTask).filter (Obs.concerns task.taskId)
  rw [List.filter_cons_of_pos (by rfl), List.filter_cons_of_pos (by simp [Obs.concerns])] at hsuffix
  have hfilter : (c.state.trace.filter Obs.isTask).filter (Obs.concerns task.taskId) = p.history := hs.history
  rw [hfilter] at hsuffix
  obtain ⟨hnobody, hholder⟩ := hp.apart w task holder _ hsuffix
  rw [outstanding_filter] at hnobody
  exact ⟨hholder, hnobody⟩

/-- A worker gets the first task and leaves, and the task goes to the other worker. -/
def redispatch : List (Move Proc) :=
  [.spawn (.onReceiveMessage 200 (.workerHeartbeat ⟨1, [], []⟩)), .resume [0], .resume [0], .resume [0],
    .spawn (.onReceiveMessage 100 (.task (plainTask 1))), .resume [1], .resume [1], .resume [1], .resume [1],
    .spawn (.onReceiveMessage 201 (.workerHeartbeat ⟨1, [], []⟩)), .resume [2], .resume [2], .resume [2],
    .spawn (.onReceiveMessage 200 .workerDisconnectNotification),
    .resume [3], .resume [3], .resume [3], .resume [3], .resume [3]]

/-- A test for `Obs.Undisturbed` that is enough for short runs. -/
def Obs.isCalm : Obs → Bool
  | .registered _ _ pending => pending.isEmpty
  | .workerRemoved _ undispatched _ => undispatched.isEmpty
  | .refused _ | .faulted _ => false
  | .applied e _ _ _ _ => !e.givesBack
  | _ => true

theorem Obs.undisturbed_of_isCalm {o : Obs} (h : o.isCalm = true) : o.Undisturbed := by
  cases o with
  | registered t uid pending => exact List.isEmpty_iff.mp h
  | applied e source holder c q =>
    have hback : e.givesBack = false := by simpa [Obs.isCalm] using h
    cases source with
    | balanceCanceling =>
      intro he
      rw [hback] at he
      cases he
    | _ => trivial
  | refused => cases h
  | faulted => cases h
  | workerRemoved w undispatched d => exact List.isEmpty_iff.mp h
  | _ => trivial

theorem redispatch_runs : ∃ c : Config Sched Exn Label Proc, Reachable scheduler (Sched.init ⟨.evenLoad, false⟩) c ∧
    c.Suspended ∧ c.state.Undisturbed ∧ (∀ o ∈ c.state.trace, o.isTimeout = false) ∧ c.threads = [] ∧
      ∃ earlier, .sent (.worker ⟨201⟩) (.task (plainTask 1)) (some ⟨201⟩) :: earlier = c.state.trace ∧
        .sent (.worker ⟨200⟩) (.task (plainTask 1)) (some ⟨200⟩) ∈ earlier := by
  have hd : (drive scheduler 100 (start (Sched.init ⟨.evenLoad, false⟩)) redispatch).any (fun c =>
      c.current.isNone && c.state.trace.all (fun o => o.isCalm && !o.isTimeout) && c.threads.isEmpty &&
        decide (c.state.trace.head? = some (.sent (.worker ⟨201⟩) (.task (plainTask 1)) (some ⟨201⟩))) &&
        decide (.sent (.worker ⟨200⟩) (.task (plainTask 1)) (some ⟨200⟩) ∈ c.state.trace.tail)) = true := by
    decide +kernel
  obtain ⟨c, hc, hb⟩ := (Option.any_eq_true _ _).mp hd
  simp only [Bool.and_eq_true, Option.isNone_iff_eq_none, List.all_eq_true, List.isEmpty_iff, decide_eq_true_eq,
    Bool.not_eq_true'] at hb
  obtain ⟨⟨⟨⟨hs, hcalm⟩, hthreads⟩, hsent⟩, hfirst⟩ := hb
  obtain ⟨earlier, hearlier⟩ := List.head?_eq_some_iff.mp hsent
  rw [hearlier, List.tail_cons] at hfirst
  exact ⟨c, Reachable.drive .start hc, hs, fun o ho => Obs.undisturbed_of_isCalm (hcalm o ho).1,
    fun o ho => (hcalm o ho).2, hthreads, earlier, hearlier.symm, hfirst⟩

theorem single_holder_redispatch : ∃ (c : Config Sched Exn Label Proc) (earlier : List Obs),
    Reachable scheduler (Sched.init ⟨.evenLoad, false⟩) c ∧
      .sent (.worker ⟨201⟩) (.task (plainTask 1)) (some ⟨201⟩) :: earlier = c.state.trace ∧
      .sent (.worker ⟨200⟩) (.task (plainTask 1)) (some ⟨200⟩) ∈ earlier ∧ outstanding ⟨1⟩ earlier = none := by
  obtain ⟨c, hr, hs, hu, -, -, earlier, hsent, hfirst⟩ := redispatch_runs
  have hsuffix : .sent (.worker ⟨201⟩) (.task (plainTask 1)) (some ⟨201⟩) :: earlier <:+ c.state.trace := by
    rw [hsent]
  exact ⟨c, earlier, hr, hsent, hfirst, (single_holder hr hs hu hsuffix).2⟩

/-- The task is where its machine says it is. -/
def Sched.Tracks (s : Sched) (t : TaskID) : Prop :=
  match s.getStateMachine t with
  | none => t ∉ s.unassigned ∧ s.policy.getWorkerByTaskId t = none
  | some m =>
    if m.state = .inactive then s.unassigned.count t = 1 ∧ s.policy.getWorkerByTaskId t = none
    else t ∉ s.unassigned ∧ ∃ w ∈ s.policy.getWorkerIds, s.policy.getWorkerByTaskId t = some w

/-- Without an event that is routed and a worker that is being removed nothing is under way for a task. -/
theorem taskToks_of_idle {threads : List (Thread Sched Exn Label Proc)}
    (hkeep : ∀ i a, (i, a) ∈ M → ∃ th ∈ threads, th.id = i ∧ ∃ p ∈ th.frames, p.keeps a)
    (hidle : ∀ th ∈ threads, ∀ p ∈ th.frames, (∀ e, p ≠ .route e) ∧ ∀ w, p ≠ .disconnectWorker w) :
    taskToks (M.map Prod.snd) = 0 := by
  refine Multiset.filter_eq_nil.mpr fun a ha => ?_
  obtain ⟨⟨i, a⟩, hmem, rfl⟩ := Multiset.mem_map.mp ha
  obtain ⟨th, hth, -, p, hp, hkeeps⟩ := hkeep i a hmem
  obtain ⟨hroute, hdisconnect⟩ := hidle th hth p hp
  intro htask
  cases a with
  | event =>
    rcases hkeeps with ⟨e, rfl⟩ | ⟨w, rfl⟩
    · exact hroute e rfl
    · exact hdisconnect w rfl
  | wait =>
    obtain ⟨e, rfl⟩ := hkeeps
    exact hroute e rfl
  | apply =>
    obtain ⟨e, rfl⟩ := hkeeps
    exact hroute e rfl
  | closing =>
    obtain ⟨e, rfl⟩ := hkeeps
    exact hroute e rfl
  | _ => cases htask

theorem Place.idle_of_toks {p : Place} (h : p.toks = 0) : p.busy = none ∧ p.waits = 0 := by
  unfold Place.toks at h
  rw [add_eq_zero_iff_of_nonneg (Multiset.zero_le _) (Multiset.zero_le _)] at h
  obtain ⟨hbusy, hwaits⟩ := h
  refine ⟨?_, Multiset.map_eq_zero.mp hwaits⟩
  cases hb : p.busy with
  | none => rfl
  | some b =>
    rw [hb] at hbusy
    exact absurd hbusy (Multiset.singleton_ne_zero _)

/-- Where nothing is under way the machine says where the task is. -/
theorem Place.Kept.tracks {t : TaskID} {p : Place} (hp : p.Kept True t) (hs : p.Shows s.taskView 0 t)
    (hwf : s.policy.Wf) : s.Tracks t := by
  obtain ⟨hb, hw⟩ := Place.idle_of_toks hs.toks.symm
  have hmachine : s.getStateMachine t = p.machine := hs.machine
  have hqueued : s.unassigned.count t = p.queued := hs.queued
  have hholder : s.policy.getWorkerByTaskId t = p.holder := hs.holder
  have hlosses : p.losses = 0 := by rw [Place.losses, hw, Multiset.countP_zero]
  have hdispatches : p.dispatches = 0 := by rw [Place.dispatches, hw, Multiset.countP_zero]
  unfold Sched.Tracks
  rw [hmachine, hholder]
  cases hm : p.machine with
  | none =>
    obtain ⟨-, hnobody, hq, -⟩ := hp.gone hm
    exact ⟨List.count_eq_zero.mp (hqueued.trans hq), hnobody⟩
  | some m =>
    have hstands := (Place.fits_idle hb hm).mp hp.fits
    unfold Place.Stands at hstands
    dsimp only
    split at hstands
    · next hinactive =>
      have hone := hstands.one.resolve_right fun hn => hn.1 trivial
      rw [if_pos hinactive]
      exact ⟨by omega, hp.queue (by omega)⟩
    · next hactive =>
      rw [if_neg hactive]
      obtain ⟨w, hw'⟩ := Option.ne_none_iff_exists'.mp ((hstands.held trivial).resolve_right (by omega))
      have hq : p.queued = 0 := Nat.eq_zero_of_not_pos fun hpos => by
        rw [hp.queue hpos] at hw'
        cases hw'
      refine ⟨List.count_eq_zero.mp (hqueued.trans hq), w, ?_, hw'⟩
      exact AllocatePolicy.mem_getWorkerIds hwf (hholder.trans hw')

/-- While no event is routed and no worker is being removed, every registered task is either queued once or held by
a worker that the policy knows, if no event was dropped. -/
theorem no_lost_task {c : Config Sched Exn Label Proc} (h : Reachable scheduler (Sched.init cfg) c) (hc : c.Suspended)
    (hu : c.state.Undisturbed) (hdropped : ∀ o ∈ c.state.trace, o.isTimeout = false)
    (hidle : ∀ th ∈ c.threads, ∀ p ∈ th.frames, (∀ e, p ≠ .route e) ∧ ∀ w, p ≠ .disconnectWorker w) (t : TaskID) :
    c.state.Tracks t := by
  obtain ⟨M, hM, hkeep, _⟩ := exists_run h hc
  have hkept := hM.kept True hu fun _ => hdropped
  obtain ⟨p, hs, hp⟩ := hkept.places t
  rw [taskToks_of_idle hkeep hidle] at hs
  exact hp.tracks hs (hkept.inOrder trivial).policy

theorem no_lost_task_redispatch : ∃ c : Config Sched Exn Label Proc,
    Reachable scheduler (Sched.init ⟨.evenLoad, false⟩) c ∧
      .sent (.worker ⟨201⟩) (.task (plainTask 1)) (some ⟨201⟩) ∈ c.state.trace ∧ ∀ t, c.state.Tracks t := by
  obtain ⟨c, hr, hs, hu, hdropped, hthreads, earlier, hsent, -⟩ := redispatch_runs
  refine ⟨c, hr, hsent ▸ List.mem_cons_self, no_lost_task hr hs hu hdropped fun th hth => ?_⟩
  rw [hthreads] at hth
  cases hth

end Runs

end Scaler
