import Scaler.Invariant.Place

/-! Every step of the scheduler is a step at the place of each task, so what the steps
at one place keep holds for all tasks in all runs. -/

namespace Scaler

open Collections Coroutine

variable {cfg : SchedulerConfig} {ok : Prop} {i : Tid} {s s' : Sched} {t₁ t₂ K : Multiset Tok} {u : TaskID} {p : Place}

/-- Payloads are kept under their own ids. -/
def Keyed (v : TaskView) (_ : Multiset Tok) : Prop :=
  ∀ t task, v.taskIdToTask.get? t = some task → task.taskId = t

/-- The policy keeps its tables in order, and no drain of the queue failed. -/
structure TaskView.InOrder (v : TaskView) : Prop where
  policy : v.policy.Wf
  policyFailed : Obs.policyFailed ∉ v.history
  drainFailed : Obs.drainFailed ∉ v.history

theorem Sched.JustApplied.place {e : TaskEvent} {source : TaskState} (hj : s.JustApplied e source)
    (hs : p.Shows s.taskView K e.taskId) : p.JustApplied e source := by
  obtain ⟨tr, hj⟩ := hj
  refine ⟨s.clientToTaskIds.getKey? e.taskId, (tr.filter Obs.isTask).filter (Obs.concerns e.taskId), ?_⟩
  rw [← hs.history, ← hs.holder, ← hs.queued]
  simp [taskView, hj, Obs.isTask, Obs.concerns, List.count_pos_iff]

theorem holder_assignTask {task : Task} {r : Option WorkerID} {q : AllocatePolicy}
    (hok : ok → s.taskView.InOrder) (hs : p.Shows s.taskView K u)
    (hp : s.policy.assignTask task = (.ok r, q)) :
    (r = none ∨ u ≠ task.taskId) → ok → q.getWorkerByTaskId u = p.holder := by
  intro hr ho
  rw [AllocatePolicy.getWorkerByTaskId_assignTask (hok ho).policy hp u, if_neg]
  · exact hs.holder
  · rintro ⟨hu, hr'⟩
    rcases hr with rfl | hr
    · cases hr'
    · exact hr hu

theorem holder_assigned {task : Task} {w : WorkerID} {q : AllocatePolicy} (hok : ok → s.taskView.InOrder)
    (hp : s.policy.assignTask task = (.ok (some w), q)) (hu : task.taskId = u) :
    ok → q.getWorkerByTaskId u = some w := by
  intro ho
  rw [AllocatePolicy.getWorkerByTaskId_assignTask (hok ho).policy hp u, if_pos ⟨hu.symm, rfl⟩]

theorem holder_removeTask {t : TaskID} {r : Except Exn (Option WorkerID)} {q : AllocatePolicy}
    (hok : ok → s.taskView.InOrder) (hp : s.policy.removeTask t = (r, q)) :
    ok → q.getWorkerByTaskId u = if u = t then none else s.policy.getWorkerByTaskId u := by
  intro ho
  have hw : s.policy.Wf := (hok ho).policy
  obtain ⟨r', q', hq, _, _, hg⟩ := AllocatePolicy.removeTask_wf hw t
  rw [hq] at hp
  cases hp
  exact hg u

theorem Place.Shows.waits_bound (hs : p.Shows s.taskView K u) (hl : Locked s.taskView K) :
    ∀ w ∈ p.waits, ∀ n, w.uid = some n → n < s.nextUid := by
  rintro ⟨_, e⟩ hw n rfl
  exact hl.waits (hs.mem_waits hw)

theorem Place.Shows.waits_raised (hs : p.Shows s.taskView K u) (hn : Noted s.raised K) :
    ∀ w ∈ p.waits, w.event.IsInternal → w.event ∈ s.raised.filter fun e => e.taskId = u := by
  rintro ⟨x, e⟩ hw hi
  have hm : Waiting.tok ⟨x, e⟩ ∈ K.filter fun a => a.concerns u = true := by
    rw [hs.toks]
    exact Multiset.mem_add.mpr (.inr (Multiset.mem_map_of_mem _ hw))
  obtain ⟨hk, hc⟩ := Multiset.mem_filter.mp hm
  have hp : 0 < pending e K := by
    refine Multiset.countP_pos.mpr ⟨_, hk, ?_⟩
    cases x <;> simp [Waiting.tok, Tok.pends]
  refine List.mem_filter.mpr ⟨List.count_pos_iff.mp (lt_of_lt_of_le hp (hn e hi)), ?_⟩
  cases x <;> simpa [Waiting.tok, Tok.concerns] using hc

theorem count_append_singleton_of_ne {l : List TaskID} {t : TaskID} (h : t ≠ u) :
    (l ++ [t]).count u = l.count u := by
  simp [List.count_append, h]

/-- A part of an action that changes nothing at the place. -/
theorem Place.Shows.next {v : TaskView} {uid : Nat} {e : TaskEvent} {source : TaskState}
    {phase phase' : Phase} (hs : p.Shows v ({.apply uid e source phase} + K) u)
    (h : phase.Next phase') :
    ∃ p', p'.Shows v ({.apply uid e source phase'} + K) u ∧ PlaceStep ok u p p' := by
  by_cases hu : e.taskId = u
  · obtain ⟨hb, hk⟩ := Place.Shows.busy ⟨uid, e, source, phase⟩ hs hu
    refine ⟨_, ?_, .next hb h⟩
    exact ⟨hs.machine, hs.payload, hs.queued, hs.holder, hs.history, toks_busy ⟨_, _, _, _⟩ hu hk⟩
  · have ht : ∀ x, Tok.concerns u (.apply uid e source x) = false := fun _ => by simp [Tok.concerns, hu]
    have hbefore : p.Shows v (taskToks {.apply uid e source phase} + K) u := hs
    have hafter : ∃ p', p'.Shows v (taskToks {.apply uid e source phase'} + K) u ∧ PlaceStep ok u p p' :=
      hbefore.elsewhere (by simp [ht]) (by simp [ht]) rfl rfl rfl rfl rfl
    exact hafter

theorem TaskStep.placeStep (h : TaskStep i s t₁ s' t₂) (hl : Locked s.taskView (taskToks t₁ + K))
    (hn : Noted s.raised (taskToks t₁ + K)) (hy : Keyed s.taskView (taskToks t₁ + K))
    (hok : ok → s.taskView.InOrder) (hs : p.Shows s.taskView (taskToks t₁ + K) u) :
    ∃ p', p'.Shows s'.taskView (taskToks t₂ + K) u ∧ PlaceStep ok u p p' := by
  have hidle : ∀ {v : TaskView} {L : Multiset Tok}, p.Shows v L u →
      ∃ p', p'.Shows v L u ∧ PlaceStep ok u p p' := fun h => ⟨p, h, .drift fun _ => rfl⟩
  cases h with
  | message => exact hidle hs
  | known => exact hidle hs
  | @refuse e task h ho =>
    by_cases hu : task.taskId = u
    · subst hu
      refine ⟨_, ?_, .refuse s.nextUid (s.raised.filter fun e => e.taskId = task.taskId)⟩
      refine ⟨?_, hs.payload, hs.queued, hs.holder, ?_, hs.toks⟩
      · exact Dict.get?_set_self _ _ _
      · rw [← hs.history]
        simp [Sched.taskView, Sched.note, Sched.addStateMachine, Obs.isTask, Obs.concerns]
    · refine ⟨_, hs.drift ?_ rfl rfl ?_ rfl, .drift fun _ => hs.holder⟩
      · exact Dict.get?_set_ne _ (Ne.symm hu) _
      · simp [Sched.taskView, Sched.note, Sched.addStateMachine, Obs.isTask, Obs.concerns, hu]
  | @hold q owners task h ho hp =>
    by_cases hu : task.taskId = u
    · subst hu
      refine ⟨_, ?_, .hold task (hs.machine.symm.trans h) rfl (hs.waits_bound hl)
        (hs.waits_raised hn) (holder_assignTask hok hs hp (.inl rfl))⟩
      refine ⟨Dict.get?_set_self _ _ _, Dict.get?_set_self _ _ _, ?_, rfl, ?_, hs.toks⟩
      · rw [← hs.queued]
        simp [Sched.taskView]
      · rw [← hs.history]
        simp [Sched.taskView, Sched.addStateMachine, Obs.isTask, Obs.concerns]
    · refine ⟨_, hs.drift (Dict.get?_set_ne _ (Ne.symm hu) _) (Dict.get?_set_ne _ (Ne.symm hu) _) ?_ ?_ rfl,
        .drift (holder_assignTask hok hs hp (.inl rfl))⟩
      · exact count_append_singleton_of_ne hu
      · simp [Sched.taskView, Sched.addStateMachine, Obs.isTask, Obs.concerns, hu]
  | @assign q w owners task h ho hp =>
    by_cases hu : task.taskId = u
    · subst hu
      refine ⟨_, ?_, .assign task w (hs.machine.symm.trans h) rfl
        (hs.waits_bound hl) (hs.waits_raised hn) (holder_assigned hok hp rfl)⟩
      refine ⟨Dict.get?_set_self _ _ _, Dict.get?_set_self _ _ _, hs.queued, rfl, ?_, ?_⟩
      · rw [← hs.history]
        simp [Sched.taskView, Sched.addStateMachine, Obs.isTask, Obs.concerns]
      · have hk := hs.toks
        rw [show taskToks {Tok.fresh task} = 0 from rfl, zero_add] at hk
        exact toks_waiting ⟨none, .hasCapacity task.taskId w⟩ rfl hk rfl
    · refine ⟨_, hs.drift (Dict.get?_set_ne _ (Ne.symm hu) _) (Dict.get?_set_ne _ (Ne.symm hu) _)
        rfl ?_ ?_, .drift (holder_assignTask hok hs hp (.inr (Ne.symm hu)))⟩
      · simp [Sched.taskView, Sched.addStateMachine, Obs.isTask, Obs.concerns, hu]
      · exact toks_elsewhere (by simp [Tok.concerns]) (by simp [Tok.concerns, TaskEvent.taskId, hu])
  | @acquire q t w rest task hq ht hp =>
    have htt : task.taskId = t := hy t task ht
    by_cases hu : t = u
    · subst hu
      have hc : 1 + rest.count t = p.queued := by
        rw [← hs.queued, show s.taskView.unassigned = _ from hq, List.count_cons_self, add_comm]
      refine ⟨_, ?_, .acquire w (by omega) (holder_assigned hok hp htt)⟩
      refine ⟨hs.machine, hs.payload, ?_, rfl, hs.history, ?_⟩
      · change rest.count t = p.queued - 1
        omega
      · have hk := hs.toks
        rw [taskToks_zero, zero_add] at hk
        exact toks_waiting ⟨none, .hasCapacity t w⟩ rfl hk rfl
    · refine ⟨_, hs.drift rfl rfl ?_ rfl ?_, .drift (holder_assignTask hok hs hp (.inr ?_))⟩
      · rw [show s.taskView.unassigned = _ from hq, List.count_cons_of_ne hu]
        rfl
      · exact toks_elsewhere (by simp) (by simp [Tok.concerns, TaskEvent.taskId, hu])
      · rw [htt]
        exact Ne.symm hu
  | acquireNone hq ht hp =>
    exact ⟨_, hs.drift rfl rfl rfl rfl rfl, .drift (holder_assignTask hok hs hp (.inl rfl))⟩
  | drainFail =>
    refine hidle ⟨hs.machine, hs.payload, hs.queued, hs.holder, ?_, hs.toks⟩
    rw [← hs.history]
    simp [Sched.taskView, Sched.note, Obs.isTask, Obs.concerns]
  | @loseEvent e hd =>
    by_cases hu : e.taskId = u
    · obtain ⟨R, hR, hk⟩ := Place.Shows.waiting ⟨none, e⟩ hs hu
      refine ⟨_, ?_, .lose hR fun ho => (hok ho).drainFailed (List.mem_filter.mpr ⟨hd, rfl⟩)⟩
      refine ⟨hs.machine, hs.payload, hs.queued, hs.holder, hs.history, ?_⟩
      rw [← hk]
      exact congrArg _ (zero_add K)
    · exact hs.elsewhere (by simp [Tok.concerns, hu]) (by simp [Tok.concerns]) rfl rfl rfl rfl rfl
  | @report e hw hi =>
    by_cases hu : e.taskId = u
    · have hk := hs.toks
      rw [taskToks_zero, zero_add] at hk
      refine ⟨_, ?_, .report hu hi⟩
      exact ⟨hs.machine, hs.payload, hs.queued, hs.holder, hs.history,
        toks_waiting ⟨none, e⟩ hu hk rfl⟩
    · exact hs.elsewhere (by simp) (by simp [Tok.concerns, hu]) rfl rfl rfl rfl rfl
  | @drop e h =>
    by_cases hu : e.taskId = u
    · obtain ⟨R, hR, hk⟩ := Place.Shows.waiting ⟨none, e⟩ hs hu
      refine ⟨_, ?_, .drop hR (hs.machine.symm.trans (hu ▸ h))⟩
      refine ⟨hs.machine, hs.payload, hs.queued, hs.holder, hs.history, ?_⟩
      rw [← hk]
      exact congrArg _ (zero_add K)
    · exact hs.elsewhere (by simp [Tok.concerns, hu]) (by simp) rfl rfl rfl rfl rfl
  | @enqueue e m h =>
    by_cases hu : e.taskId = u
    · obtain ⟨R, hR, hk⟩ := Place.Shows.waiting ⟨none, e⟩ hs hu
      refine ⟨_, ?_, .enqueue hR (hs.machine.symm.trans (hu ▸ h))⟩
      exact ⟨hs.machine, hs.payload, hs.queued, hs.holder, hs.history,
        toks_waiting ⟨some m.uid, e⟩ hu hk rfl⟩
    · exact hs.elsewhere (by simp [Tok.concerns, hu]) (by simp [Tok.concerns, hu]) rfl rfl rfl rfl rfl
  | @expire uid e =>
    by_cases hu : e.taskId = u
    · obtain ⟨R, hR, hk⟩ := Place.Shows.waiting ⟨some uid, e⟩ hs hu
      refine ⟨_, ?_, .expire hR hu⟩
      refine ⟨hs.machine, hs.payload, hs.queued, hs.holder, ?_, ?_⟩
      · rw [← hs.history]
        simp [Sched.taskView, Sched.expireEvent, Sched.dropEvent, Sched.leaveWaiters, Sched.setLock, Sched.note,
          Obs.isTask, Obs.concerns, hu]
      · exact (congrArg _ (zero_add K)).trans hk
    · refine hs.elsewhere (by simp [Tok.concerns, hu]) (by simp) rfl rfl rfl rfl ?_
      simp [Sched.taskView, Sched.expireEvent, Sched.dropEvent, Sched.leaveWaiters, Sched.setLock, Sched.note,
        Obs.isTask, Obs.concerns, hu]
  | @takeStale uid e hr h =>
    by_cases hu : e.taskId = u
    · obtain ⟨R, hR, hk⟩ := Place.Shows.waiting ⟨some uid, e⟩ hs hu
      refine ⟨_, ?_, .stale hR fun m hm => h m ?_⟩
      · refine ⟨hs.machine, hs.payload, hs.queued, hs.holder, hs.history, ?_⟩
        rw [← hk]
        exact congrArg _ (zero_add K)
      · rw [hu]
        exact hs.machine.trans hm
    · exact hs.elsewhere (by simp [Tok.concerns, hu]) (by simp) rfl rfl rfl rfl rfl
  | @take uid e source hr h =>
    by_cases hu : e.taskId = u
    · subst hu
      obtain ⟨R, hR, hk⟩ := Place.Shows.waiting ⟨some uid, e⟩ hs rfl
      have hm : p.machine = some ⟨uid, source⟩ := hs.machine.symm.trans h
      have hb := hs.idle hl hm (lockReady_owner hr)
      refine ⟨_, ?_, .take (c := s.clientToTaskIds.getKey? e.taskId) hR rfl hm hb⟩
      refine ⟨hs.machine, hs.payload, hs.queued, hs.holder, ?_, toks_busy ⟨uid, e, source, .start⟩ rfl ?_⟩
      · rw [← hs.history, ← hs.holder, ← hs.queued]
        simp [Sched.taskView, Sched.recordApplied, Sched.dropEvent, Sched.takeLock, Sched.setLock,
          Obs.isTask, Obs.concerns, List.count_pos_iff]
        exact decide_eq_decide.mpr Iff.rfl
      · rw [hk, Place.toks, hb, zero_add]
    · refine hs.elsewhere (by simp [Tok.concerns, hu]) (by simp [Tok.concerns, hu]) rfl rfl rfl rfl ?_
      simp [Sched.taskView, Sched.recordApplied, Sched.dropEvent, Sched.takeLock, Sched.setLock,
        Obs.isTask, Obs.concerns, hu]
  | @decline uid e source hj h =>
    by_cases hu : e.taskId = u
    · subst hu
      obtain ⟨hb, hk⟩ := Place.Shows.busy ⟨uid, e, source, .start⟩ hs rfl
      refine ⟨_, ?_, .decline hb (hj.place hs) (h.imp_right fun h => ?_)⟩
      · exact ⟨hs.machine, hs.payload, hs.queued, hs.holder, hs.history, toks_idle hk⟩
      · rw [← hs.holder]
        exact h
    · exact hs.elsewhere (by simp [Tok.concerns, hu]) (by simp) rfl rfl rfl rfl rfl
  | @dispatch uid t w task hj h =>
    have htt : task.taskId = t := hy t task h
    by_cases hu : t = u
    · subst hu
      obtain ⟨hb, hk⟩ := Place.Shows.busy ⟨uid, .hasCapacity t w, .inactive, .start⟩ hs rfl
      refine ⟨_, ?_, .dispatch hb (hj.place hs) (hs.payload.symm.trans h)⟩
      refine ⟨hs.machine, hs.payload, hs.queued, hs.holder, ?_, toks_busy ⟨_, _, _, _⟩ rfl hk⟩
      rw [← hs.history, ← hs.holder]
      simp [Sched.taskView, Sched.noteSent, Sched.note, Sched.holderOf, Obs.isTask, Obs.concerns, htt]
    · refine hs.elsewhere (by simp [Tok.concerns, TaskEvent.taskId, hu]) (by simp [Tok.concerns, TaskEvent.taskId, hu]) rfl rfl rfl rfl ?_
      simp [Sched.taskView, Sched.noteSent, Sched.note, Obs.isTask, Obs.concerns, htt, hu]
  | @unqueue uid t c m hj h =>
    by_cases hu : t = u
    · subst hu
      obtain ⟨hb, hk⟩ := Place.Shows.busy ⟨uid, .taskCancelRequested t c m, .inactive, .start⟩ hs rfl
      have hq : 0 < p.queued := by
        rw [← hs.queued]
        exact List.count_pos_iff.mpr h
      refine ⟨_, ?_, .unqueue hb (hj.place hs) hq⟩
      refine ⟨hs.machine, hs.payload, ?_, hs.holder, hs.history, toks_busy ⟨_, _, _, _⟩ rfl hk⟩
      rw [← hs.queued]
      exact List.count_erase_self
    · exact hs.elsewhere (by simp [Tok.concerns, TaskEvent.taskId, hu]) (by simp [Tok.concerns, TaskEvent.taskId, hu]) rfl rfl
        (List.count_erase_of_ne (Ne.symm hu)) rfl rfl
  | @release uid e source q holder hj he hq ho h =>
    by_cases hu : e.taskId = u
    · subst hu
      obtain ⟨hb, hk⟩ := Place.Shows.busy ⟨uid, e, source, .start⟩ hs rfl
      refine ⟨_, ?_, .release (h := q.getWorkerByTaskId e.taskId) hb (hj.place hs) he
        (fun hx => ?_) ?_ fun hx => ?_⟩
      · exact ⟨hs.machine, hs.payload, hs.queued, rfl, hs.history, toks_busy ⟨_, _, _, _⟩ rfl hk⟩
      · rw [← hs.queued]
        exact List.count_eq_zero.mpr (hq hx)
      · rw [← hs.holder]
        exact ho
      · rw [holder_removeTask hok h hx, if_pos rfl]
    · refine ⟨_, hs.drift rfl rfl rfl rfl ?_, .drift fun hx => ?_⟩
      · exact toks_elsewhere (by simp [Tok.concerns, hu]) (by simp [Tok.concerns, hu])
      · change q.getWorkerByTaskId u = p.holder
        rw [holder_removeTask hok h hx, if_neg (Ne.symm hu)]
        exact hs.holder
  | @releaseFail uid e source phase q x h =>
    refine ⟨_, hs.drift rfl rfl rfl ?_ rfl, .drift fun hx => ?_⟩
    · simp [Sched.taskView, Sched.note, Obs.isTask, Obs.concerns]
    · have hw : s.policy.Wf := (hok hx).policy
      obtain ⟨r, q', hq, _⟩ := AllocatePolicy.removeTask_wf hw e.taskId
      rw [hq] at h
      cases h
  | owner => exact hidle hs
  | @tell uid e source w m he hw h =>
    have hv : (s.noteSent (.worker w) (.taskCancel m)).taskView = s.taskView :=
      s.taskView_note rfl
    rw [hv]
    by_cases hu : e.taskId = u
    · subst hu
      obtain ⟨hb, hk⟩ := Place.Shows.busy ⟨uid, e, source, .start⟩ hs rfl
      refine ⟨_, ?_, .tell hb he (hs.holder.symm.trans h)⟩
      exact ⟨hs.machine, hs.payload, hs.queued, hs.holder, hs.history, toks_busy ⟨_, _, _, _⟩ rfl hk⟩
    · exact hs.elsewhere (by simp [Tok.concerns, hu]) (by simp [Tok.concerns, hu]) rfl rfl rfl rfl rfl
  | @place uid e source phase task w q he hj ht hp =>
    have htt : task.taskId = e.taskId := hy _ task ht
    by_cases hu : e.taskId = u
    · subst hu
      obtain ⟨hb, hk⟩ := Place.Shows.busy ⟨uid, e, source, phase⟩ hs rfl
      refine ⟨_, ?_, .place (w := w) hb he (fun hx => (hj hx).place hs) (hs.payload.symm.trans ht)
        (holder_assigned hok hp htt)⟩
      refine ⟨hs.machine, hs.payload, hs.queued, rfl, ?_, toks_busy ⟨_, _, _, _⟩ rfl hk⟩
      rw [← hs.history]
      simp [Sched.taskView, Sched.noteSent, Sched.note, Sched.holderOf, Obs.isTask, Obs.concerns, htt]
    · refine ⟨_, hs.drift rfl rfl rfl ?_ ?_, .drift (holder_assignTask hok hs hp (.inr ?_))⟩
      · simp [Sched.taskView, Sched.noteSent, Sched.note, Obs.isTask, Obs.concerns, htt, hu]
      · exact toks_elsewhere (by simp [Tok.concerns, hu]) (by simp [Tok.concerns, hu])
      · rw [htt]
        exact Ne.symm hu
  | @placeFail uid e source phase task w q he hj ht hp =>
    have htt : task.taskId = e.taskId := hy _ task ht
    by_cases hu : e.taskId = u
    · subst hu
      obtain ⟨hb, hk⟩ := Place.Shows.busy ⟨uid, e, source, phase⟩ hs rfl
      refine ⟨_, ?_, .placeFail (w := w) hb he (fun hx => (hj hx).place hs)
        (holder_assigned hok hp htt)⟩
      exact ⟨hs.machine, hs.payload, hs.queued, rfl, hs.history, toks_busy ⟨_, _, _, _⟩ rfl hk⟩
    · refine ⟨_, hs.drift rfl rfl rfl rfl ?_, .drift (holder_assignTask hok hs hp (.inr ?_))⟩
      · exact toks_elsewhere (by simp [Tok.concerns, hu]) (by simp [Tok.concerns, hu])
      · rw [htt]
        exact Ne.symm hu
  | @suspend uid e source phase task q he hj ht hp =>
    by_cases hu : e.taskId = u
    · subst hu
      obtain ⟨hb, hk⟩ := Place.Shows.busy ⟨uid, e, source, phase⟩ hs rfl
      refine ⟨_, ?_, .suspend hb he (fun hx => (hj hx).place hs)
        (holder_assignTask hok hs hp (.inl rfl))⟩
      refine ⟨hs.machine, hs.payload, ?_, rfl, hs.history, toks_busy ⟨_, _, _, _⟩ rfl hk⟩
      rw [← hs.queued]
      simp [Sched.taskView]
    · refine ⟨_, hs.drift rfl rfl ?_ rfl ?_, .drift (holder_assignTask hok hs hp (.inl rfl))⟩
      · exact count_append_singleton_of_ne hu
      · exact toks_elsewhere (by simp [Tok.concerns, hu]) (by simp [Tok.concerns, hu])
  | @finish uid e source phase he hh hj =>
    rw [Sched.taskView_onTaskFinish]
    by_cases hu : e.taskId = u
    · subst hu
      obtain ⟨hb, hk⟩ := Place.Shows.busy ⟨uid, e, source, phase⟩ hs rfl
      refine ⟨_, ?_, .finish (s.clientToTaskIds.getKey? e.taskId) hb he (fun hx hy => hs.holder.symm.trans (hh hx hy))
        fun hx hy => (hj hx hy).place hs⟩
      exact ⟨hs.machine, hs.payload, hs.queued, hs.holder, hs.history, toks_busy ⟨_, _, _, _⟩ rfl hk⟩
    · exact hs.elsewhere (by simp [Tok.concerns, hu]) (by simp [Tok.concerns, hu]) rfl rfl rfl rfl rfl
  | @answer uid e source c m h =>
    have hv : (s.noteSent (.client c) m).taskView = s.taskView := by
      refine s.taskView_note ?_
      cases m <;> rfl
    rw [hv]
    exact hs.next .answer
  | spoil =>
    rw [Sched.taskView_note _ rfl]
    exact hs.next .spoil
  | @settle uid e source phase y h =>
    have hl : Locked _ ({.apply uid e source phase} + K) := hl
    cases hy : y.isTerminal with
    | false =>
      rw [Sched.settle_eq hl.get hl.owner hy]
      by_cases hu : e.taskId = u
      · subst hu
        obtain ⟨hb, hk⟩ := Place.Shows.busy ⟨uid, e, source, phase⟩ hs rfl
        refine ⟨_, ?_, .settle hb h hy⟩
        exact ⟨Dict.get?_set_self _ _ _, hs.payload, hs.queued, hs.holder, hs.history, toks_idle hk⟩
      · exact hs.elsewhere (by simp [Tok.concerns, hu]) (by simp)
          (Dict.get?_set_ne _ (Ne.symm hu) _) rfl rfl rfl rfl
    | true =>
      rw [Sched.settle_terminal_eq hl.get hl.owner hy]
      by_cases hu : e.taskId = u
      · subst hu
        obtain ⟨hb, hk⟩ := Place.Shows.busy ⟨uid, e, source, phase⟩ hs rfl
        refine ⟨_, ?_, .finished hb h hy⟩
        refine ⟨Dict.get?_erase_self _ _, Dict.get?_erase_self _ _, hs.queued, hs.holder, ?_,
          toks_idle hk⟩
        rw [← hs.history]
        simp [Sched.taskView, Sched.releaseLock, Sched.setLock, Obs.isTask, Obs.concerns]
      · refine hs.elsewhere (by simp [Tok.concerns, hu]) (by simp)
          (Dict.get?_erase_ne _ (Ne.symm hu)) (Dict.get?_erase_ne _ (Ne.symm hu)) rfl rfl ?_
        simp [Sched.taskView, Sched.releaseLock, Sched.setLock, Obs.isTask, Obs.concerns, hu]
  | @faulted uid e source phase =>
    by_cases hu : e.taskId = u
    · subst hu
      obtain ⟨hb, hk⟩ := Place.Shows.busy ⟨uid, e, source, phase⟩ hs rfl
      refine ⟨_, ?_, .fault hb⟩
      refine ⟨hs.machine, hs.payload, hs.queued, hs.holder, ?_, toks_busy ⟨_, _, _, _⟩ rfl hk⟩
      rw [← hs.history]
      simp [Sched.taskView, Sched.note, Obs.isTask, Obs.concerns]
    · refine hs.elsewhere (by simp [Tok.concerns, hu]) (by simp [Tok.concerns, hu]) rfl rfl rfl rfl ?_
      simp [Sched.taskView, Sched.note, Obs.isTask, Obs.concerns, hu]
  | popOwner =>
    rw [Sched.taskView_onTaskFinish]
    exact hs.next .popOwner
  | @answerFault uid e source c m h =>
    have hv : (s.noteSent (.client c) m).taskView = s.taskView := by
      refine s.taskView_note ?_
      cases m <;> rfl
    rw [hv]
    exact hs.next .answerFault
  | spoilFault ho =>
    rw [Sched.taskView_note]
    · exact hs.next .answerFault
    · rcases ho with rfl | rfl <;> rfl
  | @free uid e source q holder h =>
    by_cases hu : e.taskId = u
    · subst hu
      obtain ⟨hb, hk⟩ := Place.Shows.busy ⟨uid, e, source, .reported none⟩ hs rfl
      refine ⟨_, ?_, .free (h := q.getWorkerByTaskId e.taskId) hb fun hx => ?_⟩
      · exact ⟨hs.machine, hs.payload, hs.queued, rfl, hs.history, toks_busy ⟨_, _, _, _⟩ rfl hk⟩
      · rw [holder_removeTask hok h hx, if_pos rfl]
    · refine ⟨_, hs.drift rfl rfl rfl rfl ?_, .drift fun hx => ?_⟩
      · exact toks_elsewhere (by simp [Tok.concerns, hu]) (by simp [Tok.concerns, hu])
      · change q.getWorkerByTaskId u = p.holder
        rw [holder_removeTask hok h hx, if_neg (Ne.symm hu)]
        exact hs.holder
  | @tearDown uid e source phase h =>
    have hl : Locked _ ({.apply uid e source phase} + K) := hl
    rw [Sched.tearDown_eq hl.get hl.owner]
    by_cases hu : e.taskId = u
    · subst hu
      obtain ⟨hb, hk⟩ := Place.Shows.busy ⟨uid, e, source, phase⟩ hs rfl
      refine ⟨_, ?_, .tearDown hb (h.imp_right fun h => ⟨h.1, fun hx =>
        (hok hx).policyFailed (List.mem_filter.mpr ⟨h.2, rfl⟩)⟩)⟩
      refine ⟨Dict.get?_erase_self _ _, Dict.get?_erase_self _ _, ?_, hs.holder, ?_, ?_⟩
      · rw [← hs.queued]
        exact List.count_erase_self
      · rw [← hs.history]
        simp [Sched.taskView, Obs.isTask, Obs.concerns]
      · exact (filter_concerns_add_of_false rfl).trans (hk.trans (zero_add _).symm)
    · refine hs.elsewhere (by simp [Tok.concerns, hu]) (by simp [Tok.concerns])
        (Dict.get?_erase_ne _ (Ne.symm hu)) (Dict.get?_erase_ne _ (Ne.symm hu))
        (List.count_erase_of_ne (Ne.symm hu)) rfl ?_
      simp [Sched.taskView, Obs.isTask, Obs.concerns, hu]
  | @close uid =>
    refine hidle ⟨hs.machine, hs.payload, hs.queued, hs.holder, hs.history, ?_⟩
    rw [← hs.toks]
    exact (congrArg _ (zero_add K)).trans (filter_concerns_add_of_false rfl).symm

theorem Place.Shows.undispatched (hs : p.Shows s.taskView K u) (hn : Noted s.raised K) {w : WorkerID} :
    p.holder = some w → ∀ x ∈ p.waits, x.event = .hasCapacity u w → u ∈ s.undispatched w := by
  intro hw x hx he
  have hm := hs.waits_raised hn x hx (by rw [he]; trivial)
  rw [he] at hm
  refine List.mem_filterMap.mpr ⟨_, (List.mem_filter.mp hm).1, ?_⟩
  exact if_pos ⟨rfl, hs.holder.trans hw⟩

theorem filter_disconnects {w : WorkerID} {ts : List TaskID} :
    (toks (fun t => .event (.workerDisconnected t w)) ts).filter (fun a => a.concerns u = true) =
      Multiset.replicate (ts.count u) (.event (.workerDisconnected u w)) := by
  induction ts with
  | nil => rfl
  | cons t ts ih =>
    have hc : toks (fun t => .event (.workerDisconnected t w)) (t :: ts) =
        {.event (.workerDisconnected t w)} + toks (fun t => .event (.workerDisconnected t w)) ts := rfl
    rw [hc]
    by_cases ht : t = u
    · subst ht
      rw [filter_concerns_add (by simp [Tok.concerns, TaskEvent.taskId]), ih, List.count_cons_self,
        Multiset.replicate_succ, Multiset.singleton_add]
    · rw [filter_concerns_add_of_false (show Tok.concerns u (.event (.workerDisconnected t w)) = false from decide_eq_false ht), ih,
        List.count_cons_of_ne ht]

theorem removeWorker_placeStep {w : WorkerID} {ts : List TaskID}
    (h : s.removeWorker w = (.ok ts, s')) (hn : Noted s.raised K) (hok : ok → s.taskView.InOrder)
    (hs : p.Shows s.taskView K u) :
    ∃ p', p'.Shows s'.taskView (toks (fun t => .event (.workerDisconnected t w)) ts + K) u ∧
      PlaceStep ok u p p' := by
  obtain ⟨hr, rfl⟩ := Prod.mk.inj h
  refine ⟨_, ?_, .lost (h := (s.policy.removeWorker w).2.getWorkerByTaskId u) w (s.undispatched w)
    (s.returning w) (ts.count u) ?_ ?_⟩
  · refine ⟨hs.machine, hs.payload, hs.queued, rfl, ?_, ?_⟩
    · rw [← hs.history]
      simp [Sched.taskView, Obs.isTask, Obs.concerns]
    · rw [Multiset.filter_add, hs.toks, filter_disconnects]
      unfold Place.toks
      rw [Multiset.map_add, Multiset.map_replicate]
      exact add_left_comm _ _ _
  · exact hs.undispatched hn
  · intro ho
    have hw : s.policy.Wf := (hok ho).policy
    obtain ⟨ts', q, hq, _, hnd, hm, hg, _⟩ := AllocatePolicy.removeWorker_wf hw w
    rw [hq] at hr
    cases hr
    rw [hq, ← hs.holder, hg]
    by_cases hu : s.policy.getWorkerByTaskId u = some w
    · rw [if_pos hu]
      exact .inl ⟨List.count_eq_one_of_mem hnd ((hm u).mpr hu), hu, rfl⟩
    · rw [if_neg hu]
      exact .inr ⟨List.count_eq_zero.mpr fun h => hu ((hm u).mp h), hu, rfl⟩

theorem Keyed.set {v v' : TaskView} {L : Multiset Tok} (h : Keyed v K) {task : Task}
    (hv : v'.taskIdToTask = v.taskIdToTask.set task.taskId task) : Keyed v' L := by
  intro t task' ht
  rw [hv, Dict.get?_set] at ht
  split at ht
  · next he =>
    cases ht
    exact he.symm
  · exact h t task' ht

theorem Keyed.erase {v v' : TaskView} {L : Multiset Tok} (h : Keyed v K) {u : TaskID}
    (hv : v'.taskIdToTask = v.taskIdToTask.erase u) : Keyed v' L := by
  intro t task' ht
  rw [hv, Dict.get?_erase] at ht
  split at ht
  · cases ht
  · exact h t task' ht

theorem TaskStep.keyed (h : TaskStep i s t₁ s' t₂) (hl : Locked s.taskView (taskToks t₁ + K))
    (hk : Keyed s.taskView (taskToks t₁ + K)) : Keyed s'.taskView (taskToks t₂ + K) := by
  cases h with
  | hold => exact hk.set rfl
  | assign => exact hk.set rfl
  | finish =>
    rw [Sched.taskView_onTaskFinish]
    exact hk
  | popOwner =>
    rw [Sched.taskView_onTaskFinish]
    exact hk
  | @settle uid e source phase y =>
    have hl : Locked _ ({.apply uid e source phase} + K) := hl
    cases hy : y.isTerminal with
    | false =>
      rw [Sched.settle_eq hl.get hl.owner hy]
      exact hk
    | true =>
      rw [Sched.settle_terminal_eq hl.get hl.owner hy]
      exact hk.erase rfl
  | @tearDown uid e source phase =>
    have hl : Locked _ ({.apply uid e source phase} + K) := hl
    rw [Sched.tearDown_eq hl.get hl.owner]
    exact hk.erase rfl
  | _ => exact hk

/-- What holds whatever the tasks do. -/
structure Regular (v : TaskView) (K : Multiset Tok) : Prop where
  locked : Locked v K
  noted : Noted v.raised K
  keyed : Keyed v K

theorem TaskStep.regular (h : TaskStep i s t₁ s' t₂) (hr : Regular s.taskView (taskToks t₁ + K)) :
    Regular s'.taskView (taskToks t₂ + K) :=
  ⟨h.locked hr.locked, h.noted hr.noted, h.keyed hr.locked hr.keyed⟩

/-- Where a worker is chosen for the task, none holds it. -/
structure Place.Unheld (p : Place) : Prop where
  new : p.machine = none → p.holder = none
  queue : 0 < p.queued → p.holder = none
  placing : ∀ b, p.busy = some b → b.event.Places b.source b.phase →
    (b.phase = .start → p.JustApplied b.event b.source) → p.holder = none

theorem TaskStep.policy_wf (h : TaskStep i s t₁ s' t₂) (hy : Keyed s.taskView (taskToks t₁ + K))
    (hf : ∀ t, ∃ p : Place, p.Shows s.taskView (taskToks t₁ + K) t ∧ p.Unheld)
    (hw : s.policy.Wf) : s'.policy.Wf := by
  have hassign : ∀ {task : Task} {r : Option WorkerID} {q : AllocatePolicy},
      s.policy.getWorkerByTaskId task.taskId = none → s.policy.assignTask task = (.ok r, q) → q.Wf :=
    fun hn hp => (AllocatePolicy.assignTask_wf hw hn hp).1
  have hremove : ∀ {t : TaskID} {r : Except Exn (Option WorkerID)} {q : AllocatePolicy},
      s.policy.removeTask t = (r, q) → q.Wf := by
    intro t r q hr
    obtain ⟨_, q', hq, hq', _⟩ := AllocatePolicy.removeTask_wf hw t
    rw [hr] at hq
    cases hq
    exact hq'
  have hplace : ∀ {uid e source phase}, t₁ = {.apply uid e source phase} →
      e.Places source phase → (phase = .start → s.JustApplied e source) →
      s.policy.getWorkerByTaskId e.taskId = none := by
    rintro uid e source phase rfl he hj
    obtain ⟨p, hs, hp⟩ := hf e.taskId
    obtain ⟨hb, _⟩ := Place.Shows.busy ⟨uid, e, source, phase⟩ hs rfl
    exact hs.holder.trans (hp.placing _ hb he fun hx => (hj hx).place hs)
  cases h with
  | @hold _ _ task h _ hp =>
    obtain ⟨p, hs, hu⟩ := hf task.taskId
    exact hassign (hs.holder.trans (hu.new (hs.machine.symm.trans h))) hp
  | @assign _ _ _ task h _ hp =>
    obtain ⟨p, hs, hu⟩ := hf task.taskId
    exact hassign (hs.holder.trans (hu.new (hs.machine.symm.trans h))) hp
  | @acquire _ t _ rest task hq ht hp =>
    obtain ⟨p, hs, hu⟩ := hf task.taskId
    refine hassign (hs.holder.trans (hu.queue ?_)) hp
    rw [← hs.queued, show s.taskView.unassigned = _ from hq, hy t task ht]
    simp
  | @acquireNone _ t rest task hq ht hp =>
    obtain ⟨p, hs, hu⟩ := hf task.taskId
    refine hassign (hs.holder.trans (hu.queue ?_)) hp
    rw [← hs.queued, show s.taskView.unassigned = _ from hq, hy t task ht]
    simp
  | place he hj ht hp => exact hassign ((hy _ _ ht).symm ▸ hplace rfl he hj) hp
  | placeFail he hj ht hp => exact hassign ((hy _ _ ht).symm ▸ hplace rfl he hj) hp
  | suspend he hj ht hp => exact hassign ((hy _ _ ht).symm ▸ hplace rfl he hj) hp
  | release _ _ _ _ h => exact hremove h
  | releaseFail h => exact hremove h
  | free h => exact hremove h
  | settle =>
    rw [Sched.policy_releaseLock, Sched.policy_settle]
    exact hw
  | tearDown =>
    rw [Sched.policy_tearDown]
    exact hw
  | finish =>
    rw [Sched.policy_onTaskFinish]
    exact hw
  | popOwner =>
    rw [Sched.policy_onTaskFinish]
    exact hw
  | _ => exact hw

theorem mem_trace_removeStateMachine {t : TaskID} {o : Obs}
    (h : o ∈ (s.removeStateMachine t).trace) : o ∈ s.trace ∨ ∃ uid x, o = .removed t uid x := by
  unfold Sched.removeStateMachine at h
  split at h
  · exact .inl h
  · rcases List.mem_cons.mp h with rfl | h
    · exact .inr ⟨_, _, rfl⟩
    · exact .inl h

theorem mem_trace_settle {t : TaskID} {x : TaskState} {o : Obs} (h : o ∈ (s.settle t x).trace) :
    o ∈ s.trace ∨ ∃ uid y, o = .removed t uid y := by
  unfold Sched.settle at h
  split at h
  · rw [← s.trace_commit t x]
    exact mem_trace_removeStateMachine h
  · rw [s.trace_commit] at h
    exact .inl h

theorem mem_trace_tearDown {t : TaskID} {o : Obs} (h : o ∈ (s.tearDown t).trace) :
    o ∈ s.trace ∨ ∃ uid y, o = .removed t uid y := by
  rw [← s.trace_commit t .failed]
  exact mem_trace_removeStateMachine h

/-- The policy and the drain fail for their own reasons only. -/
theorem TaskStep.failed (h : TaskStep i s t₁ s' t₂) {o : Obs} (ho : o ∈ s'.trace)
    (hf : o = .policyFailed ∨ o = .drainFailed) :
    o ∈ s.trace ∨ o = .policyFailed ∧ ¬ s.policy.Wf ∨
      o = .drainFailed ∧ ∃ t ∈ s.unassigned, s.taskIdToTask.get? t = none := by
  have hcons : ∀ {o' : Obs}, o ∈ o' :: s.trace → o' ≠ .policyFailed → o' ≠ .drainFailed →
      o ∈ s.trace := by
    intro o' ho hp hd
    rcases List.mem_cons.mp ho with rfl | ho
    · exact absurd hf (not_or.mpr ⟨hp, hd⟩)
    · exact ho
  cases h with
  | refuse =>
    refine .inl ?_
    rcases List.mem_cons.mp ho with rfl | ho
    · rcases hf with hf | hf <;> cases hf
    · exact hcons ho (by rintro ⟨⟩) (by rintro ⟨⟩)
  | drainFail hq ht =>
    rcases List.mem_cons.mp ho with rfl | ho
    · refine .inr (.inr ⟨rfl, _, ?_, ht⟩)
      rw [hq]
      exact List.mem_cons_self
    · exact .inl ho
  | @releaseFail _ e _ _ _ _ h =>
    rcases List.mem_cons.mp ho with rfl | ho
    · refine .inr (.inl ⟨rfl, fun hw => ?_⟩)
      obtain ⟨_, _, hq, _⟩ := AllocatePolicy.removeTask_wf hw e.taskId
      rw [h] at hq
      cases hq
    · exact .inl ho
  | finish =>
    rw [Sched.trace_onTaskFinish] at ho
    exact .inl ho
  | popOwner =>
    rw [Sched.trace_onTaskFinish] at ho
    exact .inl ho
  | settle =>
    rcases mem_trace_settle ho with ho | ⟨_, _, rfl⟩
    · exact .inl ho
    · rcases hf with hf | hf <;> cases hf
  | tearDown =>
    rcases mem_trace_tearDown ho with ho | ⟨_, _, rfl⟩
    · exact .inl ho
    · rcases hf with hf | hf <;> cases hf
  | spoilFault h =>
    refine .inl (hcons ho ?_ ?_)
    · rcases h with rfl | rfl <;> rintro ⟨⟩
    · rcases h with rfl | rfl <;> rintro ⟨⟩
  | _ => first | exact .inl ho | exact .inl (hcons ho (by rintro ⟨⟩) (by rintro ⟨⟩))

section Runs

variable {C : Obs → Prop} {J : TaskID → Place → Prop} {M : Multiset (Tid × Tok)}

/-- `J` holds at every place, as long as all observations meet the condition `C`. -/
structure Everywhere (ok : Prop) (J : TaskID → Place → Prop) (v : TaskView) (K : Multiset Tok) :
    Prop where
  drained : Obs.drainFailed ∉ v.history
  inOrder : ok → v.InOrder
  places : ∀ t, ∃ p : Place, p.Shows v K t ∧ J t p

theorem Place.Shows.history_mem {v : TaskView} (hs : p.Shows v K u) {o : Obs} (ho : o ∈ p.history) :
    o ∈ v.history := by
  rw [← hs.history] at ho
  exact List.mem_of_mem_filter ho

theorem TaskStep.everywhere (h : TaskStep i s t₁ s' t₂)
    (hstep : ∀ {t p p'}, PlaceStep ok t p p' → (∀ o ∈ p'.history, C o) → J t p → J t p')
    (hdrain : ∀ {t p}, J t p → 0 < p.queued → p.payload.isSome = true)
    (hfree : ok → ∀ {t p}, J t p → p.Unheld) (hr : Regular s.taskView (taskToks t₁ + K))
    (he : Everywhere ok J s.taskView (taskToks t₁ + K)) (hC : ∀ o ∈ s'.taskView.history, C o) :
    Everywhere ok J s'.taskView (taskToks t₂ + K) := by
  have hd : ∀ t ∈ s.unassigned, s.taskIdToTask.get? t ≠ none := by
    intro t ht hn
    obtain ⟨p, hs, hp⟩ := he.places t
    have hq : 0 < p.queued := by
      rw [← hs.queued]
      exact List.count_pos_iff.mpr ht
    have := hdrain hp hq
    rw [← hs.payload, show s.taskView.taskIdToTask.get? t = none from hn] at this
    cases this
  have hfail : ∀ {o : Obs}, (o = .policyFailed ∨ o = .drainFailed) → (o = .policyFailed → s.policy.Wf) →
      o ∉ s.taskView.history → o ∉ s'.taskView.history := by
    intro o ho hw hn hm
    rw [Sched.taskView, List.mem_filter] at hm
    rcases h.failed hm.1 ho with hm' | ⟨rfl, hx⟩ | ⟨rfl, t, ht, hx⟩
    · exact hn (List.mem_filter.mpr ⟨hm', hm.2⟩)
    · exact hx (hw rfl)
    · exact hd t ht hx
  refine ⟨hfail (.inr rfl) (by rintro ⟨⟩) he.drained, fun ho => ⟨?_, ?_, ?_⟩, fun t => ?_⟩
  · refine h.policy_wf hr.keyed (fun t => ?_) (he.inOrder ho).policy
    obtain ⟨p, hs, hp⟩ := he.places t
    exact ⟨p, hs, hfree ho hp⟩
  · exact hfail (.inl rfl) (fun _ => (he.inOrder ho).policy) (he.inOrder ho).policyFailed
  · exact hfail (.inr rfl) (by rintro ⟨⟩) he.drained
  · obtain ⟨p, hs, hp⟩ := he.places t
    obtain ⟨p', hs', hp'⟩ := h.placeStep hr.locked hr.noted hr.keyed he.inOrder hs
    exact ⟨p', hs', hstep hp' (fun o ho => hC o (hs'.history_mem ho)) hp⟩

theorem history_removeWorker {w : WorkerID} {x : Except Exn (List TaskID)}
    (h : s.removeWorker w = (x, s')) :
    s'.taskView.history =
      .workerRemoved w (s.undispatched w) (s.returning w) :: s.taskView.history := by
  rw [show s' = _ from (congrArg Prod.snd h).symm]
  rfl

/-- What the steps at one place keep holds at all places in all runs. -/
theorem Run.everywhere (h0 : ∀ t, J t .empty)
    (hstep : ∀ {t p p'}, PlaceStep ok t p p' → (∀ o ∈ p'.history, C o) → J t p → J t p')
    (hdrain : ∀ {t p}, J t p → 0 < p.queued → p.payload.isSome = true)
    (hfree : ok → ∀ {t p}, J t p → p.Unheld) (h : Run cfg s M) (hC : ∀ o ∈ s.trace, C o) :
    Everywhere ok J s.taskView (taskToks (M.map Prod.snd)) := by
  have hall : Regular s.taskView (taskToks (M.map Prod.snd)) ∧
      ((∀ o ∈ s.taskView.history, C o) → Everywhere ok J s.taskView (taskToks (M.map Prod.snd))) := by
    refine Run.taskInvariant (J := fun v K => Regular v K ∧ ((∀ o ∈ v.history, C o) →
      Everywhere ok J v K)) ?_ ?_ ?_ ?_ ?_ h
    · have hi : Run cfg (Sched.init cfg) 0 := .init
      refine ⟨⟨hi.locked, hi.noted, by rintro t task ⟨⟩⟩, fun _ => ⟨by rintro ⟨⟩, ?_, ?_⟩⟩
      · exact fun _ => ⟨AllocatePolicy.wf_create _, by rintro ⟨⟩, by rintro ⟨⟩⟩
      · exact fun t => ⟨.empty, ⟨rfl, rfl, rfl, AllocatePolicy.getWorkerByTaskId_create _ _, rfl, rfl⟩, h0 t⟩
    · rintro i s s' t t' K hs ⟨hr, he⟩
      refine ⟨hs.regular hr, fun hC => hs.everywhere hstep hdrain hfree hr (he fun o ho => hC o ?_) hC⟩
      exact (List.IsSuffix.filter _ hs.trace).subset ho
    · rintro s w c n K ⟨hr, he⟩
      refine ⟨⟨hr.locked.frame rfl (fun _ => rfl) rfl, hr.noted, hr.keyed⟩, fun hC => ?_⟩
      have he := he hC
      have hadd := fun ho : ok => AllocatePolicy.addWorker_wf (he.inOrder ho).policy w c n
      refine ⟨he.drained, fun ho => ⟨(hadd ho).1, (he.inOrder ho).policyFailed, he.drained⟩, fun t => ?_⟩
      obtain ⟨p, hs, hp⟩ := he.places t
      refine ⟨_, hs.drift rfl rfl rfl rfl rfl, hstep (.drift fun ho => ?_) ?_ hp⟩
      · exact ((hadd ho).2.1 t).trans hs.holder
      · exact fun o ho => hC o (hs.history_mem ho)
    · rintro s s' w ts K hs ⟨hr, he⟩
      have hh := history_removeWorker hs
      refine ⟨⟨?_, ?_, ?_⟩, fun hC => ?_⟩
      · exact removeWorker_locked hs hr.locked
      · exact removeWorker_noted hs hr.noted
      · rw [show s' = _ from (congrArg Prod.snd hs).symm]
        exact hr.keyed
      · have he := he fun o ho => hC o (hh ▸ List.mem_cons_of_mem _ ho)
        have hd : Obs.drainFailed ∉ s'.taskView.history := by
          rw [hh]
          exact fun hm => he.drained (List.mem_of_ne_of_mem (by rintro ⟨⟩) hm)
        refine ⟨hd, fun ho => ⟨?_, ?_, hd⟩, fun t => ?_⟩
        · obtain ⟨ts', q, hq, hw, _⟩ := AllocatePolicy.removeWorker_wf (he.inOrder ho).policy w
          rw [show s' = _ from (congrArg Prod.snd hs).symm]
          change (s.taskView.policy.removeWorker w).2.Wf
          rw [hq]
          exact hw
        · rw [hh]
          exact fun hm => (he.inOrder ho).policyFailed (List.mem_of_ne_of_mem (by rintro ⟨⟩) hm)
        · obtain ⟨p, hp, hj⟩ := he.places t
          obtain ⟨p', hp', hj'⟩ := removeWorker_placeStep hs hr.noted he.inOrder hp
          exact ⟨p', hp', hstep hj' (fun o ho => hC o (hp'.history_mem ho)) hj⟩
    · rintro s s' w x K hs ⟨hr, he⟩
      obtain ⟨hx, rfl⟩ := Prod.mk.inj hs
      refine ⟨⟨hr.locked.frame rfl (fun _ => rfl) rfl, ?_, hr.keyed⟩, fun hC => ?_⟩
      · change Noted (List.map _ ((s.policy.removeWorker w).1.toOption.getD []) ++ s.raised) K
        rw [hx]
        exact hr.noted
      · have he := he fun o ho => hC o (List.mem_cons_of_mem _ (List.mem_cons_of_mem _ ho))
        have hno : ¬ ok := by
          intro ho
          have hw : s.policy.Wf := (he.inOrder ho).policy
          obtain ⟨ts, q, hq, _⟩ := AllocatePolicy.removeWorker_wf hw w
          rw [hq] at hx
          cases hx
        refine ⟨fun hm => he.drained ?_, fun ho => absurd ho hno, fun t => ?_⟩
        · exact List.mem_of_ne_of_mem (by rintro ⟨⟩) (List.mem_of_ne_of_mem (by rintro ⟨⟩) hm)
        · obtain ⟨p, hp, hj⟩ := he.places t
          refine ⟨_, ?_, hstep (.lost (h := (s.policy.removeWorker w).2.getWorkerByTaskId t) w
            (s.undispatched w) (s.returning w) 0 ?_ fun ho => absurd ho hno) ?_ hj⟩
          · refine ⟨hp.machine, hp.payload, hp.queued, rfl, ?_, ?_⟩
            · rw [← hp.history]
              rfl
            · rw [Multiset.replicate_zero, zero_add]
              exact hp.toks
          · exact hp.undispatched hr.noted
          · rintro o (_ | ⟨_, ho⟩)
            · exact hC _ (List.mem_cons_of_mem _ List.mem_cons_self)
            · exact hC o (List.mem_cons_of_mem _ (List.mem_cons_of_mem _ (hp.history_mem ho)))
  exact hall.2 fun o ho => hC o (List.mem_of_mem_filter ho)

end Runs

end Scaler
