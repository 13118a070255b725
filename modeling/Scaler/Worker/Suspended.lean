import Scaler.Worker.Canceled

/-! Suspended tasks are queued. What the heartbeat reports as queued is the size of the queue
without them, so it would be negative if one were missing there. -/

namespace Scaler

open Collections

namespace StablePriorityQueue

variable {α : Type} [DecidableEq α] {q : StablePriorityQueue α} {a : α}

theorem count_put (q : StablePriorityQueue α) (n : Int) (a b : α) :
    (q.put n a).count b = q.count b + if a = b then 1 else 0 := by
  have hp := (insertSorted_perm (n, q.itemCounter) a q.queue).countP_eq fun e => decide (e.2 = b)
  rw [count, put, hp, List.countP_cons]
  simp [count]

theorem count_get {n : Int} {q' : StablePriorityQueue α} (hg : q.get = some ((n, a), q')) (b : α) :
    q.count b = q'.count b + if a = b then 1 else 0 := by
  obtain ⟨k, hq, -, -⟩ := get_some hg
  rw [count, hq, List.countP_cons]
  simp [count]

theorem count_remove_le (q : StablePriorityQueue α) (a b : α) : (q.remove a).count b ≤ q.count b := by
  unfold remove
  split
  · exact Nat.le_refl _
  · exact List.filter_sublist.countP_le

/-- What is in the queue, and how often. -/
theorem mem_map_snd : a ∈ q.queue.map Prod.snd ↔ 0 < q.count a := by
  rw [count, List.countP_pos_iff]
  simp

end StablePriorityQueue

namespace Worker.Agent

variable {s s' : Agent} {t : TaskID} {p : Nat}

/-- Every task is queued once, the entries are those of the queue, and suspended tasks have
one. -/
structure Filed (s : Agent) : Prop where
  once : ∀ t, s.queuedTaskIds.count t ≤ 1
  known : ∀ t, 0 < s.queuedTaskIds.count t → (s.queuedTaskIdToTask.get? t).isSome
  suspended : ∀ t, (s.suspendedHoldersByTaskId.get? t).isSome → (s.queuedTaskIdToTask.get? t).isSome

/-- The task that runs is not queued, and none runs while the dispatcher may take one. -/
structure Backed (s : Agent) : Prop where
  filed : s.Filed
  running : ∀ t, s.currentTaskId = some t → s.queuedTaskIdToTask.get? t = none
  idle : s.dispatcher ≠ .waitUntilCanAcceptTask ∨ s.canAcceptTaskLock = false → s.currentTaskId = none

theorem currentTaskId_eq (s : Agent) : s.currentTaskId = s.currentHolder.bind s.taskOf := by
  unfold currentTaskId currentTask taskOf
  cases s.currentHolder <;> rfl

theorem Filed.congr (h : s.Filed) (hqueue : s'.queuedTaskIds = s.queuedTaskIds)
    (htasks : s'.queuedTaskIdToTask = s.queuedTaskIdToTask)
    (hsus : ∀ t, (s'.suspendedHoldersByTaskId.get? t).isSome → (s.suspendedHoldersByTaskId.get? t).isSome) :
    s'.Filed := by
  refine ⟨?_, ?_, ?_⟩
  · rw [hqueue]
    exact h.once
  · rw [hqueue, htasks]
    exact h.known
  · intro t ht
    rw [htasks]
    exact h.suspended t (hsus t ht)

section Backed

variable (h : s.Backed)

include h

theorem Backed.of_idle (hqueue : s'.queuedTaskIds = s.queuedTaskIds)
    (htasks : s'.queuedTaskIdToTask = s.queuedTaskIdToTask)
    (hsus : ∀ t, (s'.suspendedHoldersByTaskId.get? t).isSome → (s.suspendedHoldersByTaskId.get? t).isSome)
    (hidle : s'.currentTaskId = none) : s'.Backed := by
  refine ⟨h.filed.congr hqueue htasks hsus, ?_, fun _ => hidle⟩
  intro t ht
  rw [hidle] at ht
  cases ht

theorem Backed.of_same (hqueue : s'.queuedTaskIds = s.queuedTaskIds)
    (htasks : s'.queuedTaskIdToTask = s.queuedTaskIdToTask)
    (hsus : ∀ t, (s'.suspendedHoldersByTaskId.get? t).isSome → (s.suspendedHoldersByTaskId.get? t).isSome)
    (hcurrent : s'.currentTaskId = s.currentTaskId) (hdispatcher : s'.dispatcher = s.dispatcher)
    (hlock : s'.canAcceptTaskLock = s.canAcceptTaskLock) : s'.Backed := by
  refine ⟨h.filed.congr hqueue htasks hsus, ?_, ?_⟩
  · rw [hcurrent, htasks]
    exact h.running
  · rw [hcurrent, hdispatcher, hlock]
    exact h.idle

end Backed

theorem currentTaskId_startNewProcessor (s : Agent) : s.startNewProcessor.currentTaskId = none := by
  rw [currentTaskId_eq]
  exact (taskOf_startNewProcessor s s.started).trans (if_pos rfl)

theorem currentTaskId_killProcessor (hp : s.currentHolder ≠ some p) :
    (s.killProcessor p).currentTaskId = s.currentTaskId := by
  rw [currentTaskId_eq, currentTaskId_eq]
  have hc : (s.killProcessor p).currentHolder = s.currentHolder := rfl
  rw [hc]
  cases hs : s.currentHolder with
  | none => rfl
  | some c =>
    have hcp : c ≠ p := by
      rintro rfl
      exact hp hs
    simp [hcp]

theorem currentTaskId_endTask (hc : s.currentHolder = some p) : (s.endTask p).currentTaskId = none := by
  rw [currentTaskId_eq]
  have hcurrent : (s.endTask p).currentHolder = some p := hc
  rw [hcurrent]
  exact (taskOf_setHolder s p p { s.holders p with task := none }).trans (if_pos rfl)

theorem Filed.enqueue (h : s.Filed) (task : Task) (ht : s.queuedTaskIdToTask.get? task.taskId = none) (n : Int) :
    Filed { s with
      queuedTaskIds := s.queuedTaskIds.put n task.taskId
      queuedTaskIdToTask := s.queuedTaskIdToTask.set task.taskId task } := by
  have hzero : s.queuedTaskIds.count task.taskId = 0 := by
    by_contra hne
    have hsome := h.known task.taskId (Nat.pos_of_ne_zero hne)
    rw [ht] at hsome
    cases hsome
  refine ⟨?_, ?_, ?_⟩
  · intro u
    have honce := h.once u
    dsimp only
    rw [StablePriorityQueue.count_put]
    split
    · next hu =>
      rw [← hu, hzero]
    · exact honce
  · intro u hu
    dsimp only at hu ⊢
    rw [StablePriorityQueue.count_put] at hu
    rw [Dict.get?_set]
    split
    · rfl
    · next hne =>
      rw [if_neg (Ne.symm hne)] at hu
      exact h.known u hu
  · intro u hu
    dsimp only
    rw [Dict.get?_set]
    split
    · rfl
    · exact h.suspended u hu

theorem Filed.remove (h : s.Filed) (hq : s.Queued) (hsus : s.suspendedHoldersByTaskId.get? t = none) :
    Filed { s with
      queuedTaskIds := s.queuedTaskIds.remove t
      queuedTaskIdToTask := s.queuedTaskIdToTask.erase t } := by
  refine ⟨?_, ?_, ?_⟩
  · intro u
    exact Nat.le_trans (StablePriorityQueue.count_remove_le _ t u) (h.once u)
  · intro u hu
    have hbefore : 0 < s.queuedTaskIds.count u := Nat.lt_of_lt_of_le hu (StablePriorityQueue.count_remove_le _ t u)
    have hut : u ≠ t := by
      rintro rfl
      have hlocated := (hq.both u).symm.trans (h.known u hbefore)
      have hgone := StablePriorityQueue.count_eq_zero.mpr (hq.located.not_mem_remove hlocated (h.once u))
      dsimp only at hu
      omega
    dsimp only
    rw [Dict.get?_erase_ne _ hut]
    exact h.known u hbefore
  · intro u hu
    have hut : u ≠ t := by
      rintro rfl
      dsimp only at hu
      rw [hsus] at hu
      cases hu
    dsimp only
    rw [Dict.get?_erase_ne _ hut]
    exact h.suspended u hu

theorem isSome_get?_erase {d : Dict TaskID Nat} {u : TaskID} (hu : ((d.erase t).get? u).isSome) :
    (d.get? u).isSome := by
  rw [Dict.get?_erase] at hu
  split at hu
  · cases hu
  · exact hu

theorem enqueueTask_spec (s : Agent) (task : Task) (isSuspended : Bool) :
    Ends Any (s.enqueueTask task isSuspended) fun s' => ∃ n, s' = { s with
      queuedTaskIds := s.queuedTaskIds.put n task.taskId
      queuedTaskIdToTask := s.queuedTaskIdToTask.set task.taskId task } := by
  unfold Agent.enqueueTask
  cases getTaskPriority task with
  | error e => exact trivial
  | ok priority => exact ⟨_, rfl⟩

section Steps

variable (h : s.Backed)

include h

theorem Backed.restart : Ends Any s.restartCurrentProcessor Backed := by
  unfold restartCurrentProcessor
  split
  · exact trivial
  · exact h.of_idle rfl rfl (fun _ hu => hu) (currentTaskId_startNewProcessor _)

theorem Backed.onCancelProcessor (hne : ∀ t p, s.suspendedHoldersByTaskId.get? t = some p → s.currentHolder ≠ some p)
    (t : TaskID) : Ends Any (s.onCancelProcessor t) Backed := by
  unfold Agent.onCancelProcessor
  split
  · exact trivial
  split
  · exact h.restart
  split
  · next p hp =>
    exact h.of_same rfl rfl (fun _ hu => isSome_get?_erase hu)
      (currentTaskId_killProcessor (s := { s with
        suspendedHoldersByTaskId := s.suspendedHoldersByTaskId.erase t }) (hne t p hp)) rfl rfl
  · exact h

/-- A processor that failed is no longer suspended for its task. -/
theorem Backed.onFailingProcessor (i : Nat) : Ends Any (s.onFailingProcessor i) fun r =>
    r.1.Backed ∧ (s.currentTaskId = none → r.1.currentTaskId = none) := by
  unfold Agent.onFailingProcessor
  split
  · exact trivial
  split
  · exact ⟨h, id⟩
  next p _ =>
  dsimp only
  cases ht : (s.holders p).task with
  | none =>
    dsimp only
    split
    · refine Ends.bind (P := fun s' => s'.Backed ∧ s'.currentTaskId = none) ?_ fun s' hs' => ⟨hs'.1, fun _ => hs'.2⟩
      unfold restartCurrentProcessor
      split
      · exact trivial
      · have hnone := currentTaskId_startNewProcessor
        exact ⟨h.of_idle rfl rfl (fun _ hu => hu) (hnone _), hnone _⟩
    · next hc =>
      have hsame := currentTaskId_killProcessor hc
      exact ⟨h.of_same rfl rfl (fun _ hu => hu) hsame rfl rfl, fun hnone => hsame.trans hnone⟩
  | some task =>
    dsimp only
    split
    · refine Ends.bind (P := fun s' => s'.Backed ∧ s'.currentTaskId = none) ?_ fun s' hs' => ⟨hs'.1, fun _ => hs'.2⟩
      unfold restartCurrentProcessor
      split
      · exact trivial
      · have hnone := currentTaskId_startNewProcessor
        exact ⟨h.of_idle rfl rfl (fun _ hu => isSome_get?_erase hu) (hnone _), hnone _⟩
    · next hc =>
      have hsame : (killProcessor (endTask { s with
          suspendedHoldersByTaskId := s.suspendedHoldersByTaskId.erase task.taskId } p) p).currentTaskId =
          s.currentTaskId := by
        rw [killProcessor_endTask]
        exact currentTaskId_killProcessor hc
      exact ⟨h.of_same rfl rfl (fun _ hu => isSome_get?_erase hu) hsame rfl rfl, fun hnone => hsame.trans hnone⟩

theorem Backed.release (hidle : s.currentTaskId = none) : Ends Any s.release Backed := by
  unfold Agent.release
  split
  · exact h.of_idle rfl rfl (fun _ hu => hu) hidle
  · exact trivial

theorem Backed.onResult (hq : s.Queued) (hsus : s.suspendedHoldersByTaskId.get? t = none)
    (resultType : TaskResultType) :
    Ends Any (s.onResult t resultType) fun s' => s'.Backed ∧ s'.currentTaskId = s.currentTaskId := by
  unfold Agent.onResult
  dsimp only
  split
  · split
    · refine ⟨⟨?_, ?_, h.idle⟩, rfl⟩
      · have hfiled := h.filed.remove hq hsus
        exact hfiled.congr rfl rfl fun _ hu => hu
      · intro u hu
        have hnone := h.running u hu
        dsimp only [Agent.send]
        rw [Dict.get?_erase]
        split
        · rfl
        · exact hnone
    · exact trivial
  · split
    · exact ⟨h.of_same rfl rfl (fun _ hu => hu) rfl rfl rfl, rfl⟩
    · exact trivial

theorem Backed.onStored (hq : s.Queued) {task : Task} (hsus : s.suspendedHoldersByTaskId.get? task.taskId = none) :
    Ends Any (s.onStored task) fun s' => s'.Backed ∧ s'.currentTaskId = s.currentTaskId := by
  have hsent : (s.send (.objectCreated task.source)).Backed :=
    h.of_same rfl rfl (fun _ hu => hu) rfl rfl rfl
  have hqueued := (hq.send none (.objectCreated task.source) fun p task he => by cases he).queued
  exact hsent.onResult hqueued hsus .failed

theorem Backed.onProcessorInitialized (hworking : ∀ p t, s.taskOf p = some t → s.idOf p = some p) (i : Nat) :
    Ends Any (s.onProcessorInitialized i) Backed := by
  unfold Agent.onProcessorInitialized
  split
  · exact trivial
  next p hc =>
  split
  · exact h
  · next hnot =>
    have hfree : s.taskOf p = none := by
      cases ht : s.taskOf p with
      | none => rfl
      | some t =>
        have hid := hworking p t ht
        rw [idOf] at hid
        rw [hid] at hnot
        exact absurd rfl hnot
    have hidle : (Agent.setHolder { s with holdersByProcessorId := s.holdersByProcessorId.set i p } p
        { s.holders p with processorId := some i }).currentTaskId = none := by
      rw [currentTaskId_eq]
      have hcurrent : (Agent.setHolder { s with holdersByProcessorId := s.holdersByProcessorId.set i p } p
        { s.holders p with processorId := some i }).currentHolder = some p := hc
      rw [hcurrent]
      refine (taskOf_setHolder _ p p _).trans ?_
      rw [if_pos rfl]
      exact hfree
    exact Backed.release (h.of_idle rfl rfl (fun _ hu => hu) hidle) hidle

/-- The current process is suspended, and its task goes back to the queue. -/
theorem Backed.suspendCurrent {current : Task} (hid : s.currentTaskId = some current.taskId) :
    Ends Any (s.enqueueTask current true >>= fun s => s.onSuspendTask current.taskId) Backed := by
  refine Ends.bind (enqueueTask_spec s current true) ?_
  rintro _ ⟨n, rfl⟩
  have hfiled := h.filed.enqueue current (h.running _ hid) n
  unfold Agent.onSuspendTask
  split
  · exact trivial
  next p _ =>
  split
  · unfold Agent.suspend
    dsimp only
    split
    · refine ⟨⟨hfiled.once, hfiled.known, ?_⟩, ?_, fun _ => currentTaskId_startNewProcessor _⟩
      · intro u hu
        have hu' : ((s.suspendedHoldersByTaskId.set current.taskId p).get? u).isSome := hu
        rw [Dict.get?_set] at hu'
        split at hu'
        · next hut =>
          have hself := Dict.get?_set_self s.queuedTaskIdToTask current.taskId current
          rw [hut]
          exact (congrArg Option.isSome hself).trans rfl
        · exact hfiled.suspended u hu'
      · intro u hu
        have hidle := currentTaskId_startNewProcessor (Agent.setHolder { s with
          queuedTaskIds := s.queuedTaskIds.put n current.taskId
          queuedTaskIdToTask := s.queuedTaskIdToTask.set current.taskId current
          suspendedHoldersByTaskId := s.suspendedHoldersByTaskId.set current.taskId p } p
            { s.holders p with suspended := true })
        cases hidle.symm.trans hu
    · exact trivial
  · next hne => exact absurd hid hne

variable (hs : s.Sound)

include hs

theorem Backed.onTaskNew {task : Task} (hqueued : s.queuedTaskIdToTask.get? task.taskId = none)
    (hnew : task.taskId ∉ s.processingTaskIds) : Ends Any (s.onTaskNew task) Backed := by
  unfold Agent.onTaskNew
  refine Ends.bind (enqueueTask_spec s task false) ?_
  rintro _ ⟨n, rfl⟩
  have hs₁ : Backed { s with
      queuedTaskIds := s.queuedTaskIds.put n task.taskId
      queuedTaskIdToTask := s.queuedTaskIdToTask.set task.taskId task } := by
    refine ⟨h.filed.enqueue task hqueued _, ?_, h.idle⟩
    intro t ht
    have hcurrent : s.currentTaskId = some t := ht
    obtain ⟨p, -, hp⟩ := currentTaskId_eq_some.mp hcurrent
    have hne : t ≠ task.taskId := by
      rintro rfl
      exact hnew (hs.wf.held.held p _ hp).1
    dsimp only
    rw [Dict.get?_set_ne _ hne]
    exact h.running t hcurrent
  unfold suspendIfPriorityIsHigher
  split
  · exact hs₁
  next current hrunning =>
  refine Ends.bind (P := fun _ => True) ?_ fun newPriority _ => ?_
  · cases getTaskPriority task <;> exact trivial
  refine Ends.bind (P := fun _ => True) ?_ fun currentPriority _ => ?_
  · cases getTaskPriority current <;> exact trivial
  split
  · exact hs₁
  · refine hs₁.suspendCurrent ?_
    rw [currentTaskId, hrunning]
    rfl

theorem Backed.onCancelTask (cancel : TaskCancel) : Ends Any (s.onCancelTask cancel) Backed := by
  have hsend : ∀ {s' : Agent} (message : AgentMessage), s'.Backed → (s'.send message).Backed :=
    fun _ h' => h'.of_same rfl rfl (fun _ hu => hu) rfl rfl rfl
  unfold Agent.onCancelTask
  dsimp only
  split
  · exact hsend _ h
  split
  · exact hsend _ h
  split
  · have herased : Backed { s with processingTaskIds := s.processingTaskIds.erase cancel.taskId } :=
      h.of_same rfl rfl (fun _ hu => hu) rfl rfl rfl
    have hcanceled := herased.onCancelProcessor (fun t p hp => (hs.wf.held.suspended t p hp).2.1) cancel.taskId
    exact Ends.bind hcanceled fun s' hs' => hsend _ hs'
  · next hnew =>
    have hsus : s.suspendedHoldersByTaskId.get? cancel.taskId = none := by
      cases hp : s.suspendedHoldersByTaskId.get? cancel.taskId with
      | none => rfl
      | some p => exact absurd (hs.wf.held.held p _ (hs.wf.held.suspended _ p hp).1).1 hnew
    refine hsend _ ⟨h.filed.remove hs.queued hsus, ?_, h.idle⟩
    intro t ht
    have hnone := h.running t ht
    dsimp only
    rw [Dict.get?_erase]
    split
    · rfl
    · exact hnone

theorem Backed.onTaskResult (i : Nat) (t : TaskID) (resultType : TaskResultType) :
    Ends Any (s.onTaskResult i t resultType) Backed := by
  unfold Agent.onTaskResult
  split
  · exact trivial
  next c hc =>
  split
  · next hid =>
    split
    · have hended : (s.endTask c).Backed := h.of_idle rfl rfl (fun _ hu => hu) (currentTaskId_endTask hc)
      have hqueued := (hs.queued.keep none (Quiet.setHolder (p := c)
        (r := { s.holders c with task := none }) (.inl rfl))).queued
      obtain ⟨p, hp, htask⟩ := currentTaskId_eq_some.mp hid
      have hsus := hs.wf.held.alone p t hp htask
      refine Ends.bind (hended.onResult hqueued hsus resultType) ?_
      rintro s' ⟨hs', hcurrent⟩
      exact hs'.release (hcurrent.trans (currentTaskId_endTask hc))
    · exact trivial
  split
  · next p hp =>
    split
    · dsimp only
      rw [killProcessor_endTask]
      have hne := (hs.wf.held.suspended t p hp).2.1
      have hdropped : (killProcessor { s with
          suspendedHoldersByTaskId := s.suspendedHoldersByTaskId.erase t } p).Backed :=
        h.of_same rfl rfl (fun _ hu => isSome_get?_erase hu)
          (currentTaskId_killProcessor (s := { s with
            suspendedHoldersByTaskId := s.suspendedHoldersByTaskId.erase t }) hne) rfl rfl
      have hkill := Quiet.kill { s with suspendedHoldersByTaskId := s.suspendedHoldersByTaskId.erase t } p
      have hquiet : Quiet s (killProcessor { s with
          suspendedHoldersByTaskId := s.suspendedHoldersByTaskId.erase t } p) := ⟨rfl, rfl, rfl, rfl, hkill.held⟩
      have hqueued := (hs.queued.keep none hquiet).queued
      exact (hdropped.onResult hqueued (Dict.get?_erase_self _ _) resultType).mono fun s' hs' => hs'.1
    · exact trivial
  · exact h

end Steps

theorem Filed.taken (h : s.Filed) {n : Int} {queue : StablePriorityQueue TaskID}
    (hg : s.queuedTaskIds.get = some ((n, t), queue)) :
    (∀ u, queue.count u ≤ 1) ∧
      (∀ u, 0 < queue.count u → ((s.queuedTaskIdToTask.erase t).get? u).isSome) ∧
      ∀ u, u ≠ t → (s.suspendedHoldersByTaskId.get? u).isSome →
        ((s.queuedTaskIdToTask.erase t).get? u).isSome := by
  refine ⟨?_, ?_, ?_⟩
  · intro u
    have hcount := StablePriorityQueue.count_get hg u
    have honce := h.once u
    omega
  · intro u hu
    have hcount := StablePriorityQueue.count_get hg u
    have honce := h.once u
    have hut : u ≠ t := by
      rintro rfl
      rw [if_pos rfl] at hcount
      omega
    rw [Dict.get?_erase_ne _ hut]
    exact h.known u (by omega)
  · intro u hut hu
    rw [Dict.get?_erase_ne _ hut]
    exact h.suspended u hu

/-- The process that was suspended for the task takes the place of the current one, unless it
died. -/
theorem backed_onResumeTask (hidle : s.currentTaskId = none)
    (honce : ∀ u, s.queuedTaskIds.count u ≤ 1)
    (hknown : ∀ u, 0 < s.queuedTaskIds.count u → (s.queuedTaskIdToTask.get? u).isSome)
    (hsus : ∀ u, u ≠ t → (s.suspendedHoldersByTaskId.get? u).isSome → (s.queuedTaskIdToTask.get? u).isSome)
    (htaken : s.queuedTaskIdToTask.get? t = none)
    (hheld : ∀ p, s.suspendedHoldersByTaskId.get? t = some p → s.taskOf p = some t ∧ s.currentHolder ≠ some p)
    (resumes : Bool) : Ends Any (s.onResumeTask t resumes) Backed := by
  have herased : Backed { s with suspendedHoldersByTaskId := s.suspendedHoldersByTaskId.erase t } := by
    refine ⟨⟨honce, hknown, ?_⟩, ?_, fun _ => hidle⟩
    · intro u hu
      dsimp only at hu
      rw [Dict.get?_erase] at hu
      split at hu
      · cases hu
      · next hut => exact hsus u hut hu
    · intro u hu
      cases hidle.symm.trans hu
  unfold Agent.onResumeTask
  split
  · next hlock =>
    split
    · next hsome =>
      have hnone : s.currentTask = none := by
        rw [currentTaskId] at hidle
        exact Option.map_eq_none_iff.mp hidle
      rw [hnone] at hsome
      cases hsome
    split
    · next hnone =>
      have hsame : s.suspendedHoldersByTaskId.erase t = s.suspendedHoldersByTaskId := Dict.erase_of_get?_none hnone
      rw [hsame] at herased
      exact herased.of_idle rfl rfl (fun _ hu => hu) hidle
    next p hp =>
    obtain ⟨htask, hne⟩ := hheld p hp
    dsimp only [Agent.resume]
    split
    · cases resumes with
      | true =>
        cases hc : s.currentHolder with
        | none => exact trivial
        | some c =>
          have hpc : p ≠ c := by
            rintro rfl
            exact hne hc
          have hcurrent : (done { killProcessor (Agent.setHolder { s with
              suspendedHoldersByTaskId := s.suspendedHoldersByTaskId.erase t } p
                { s.holders p with suspended := false }) c with currentHolder := some p }).currentTaskId =
              some t := by
            rw [currentTaskId_eq]
            have hkilled := taskOf_killProcessor (Agent.setHolder { s with
              suspendedHoldersByTaskId := s.suspendedHoldersByTaskId.erase t } p
                { s.holders p with suspended := false }) c p
            rw [if_neg hpc] at hkilled
            refine hkilled.trans ?_
            refine (taskOf_setHolder _ p p _).trans ?_
            rw [if_pos rfl]
            exact htask
          refine ⟨herased.filed.congr rfl rfl fun _ hu => hu, ?_, ?_⟩
          · intro u hu
            have hu' := hcurrent.symm.trans hu
            cases hu'
            exact htaken
          · rintro (hwait | hfree)
            · exact absurd rfl hwait
            · have hfree' : s.canAcceptTaskLock = false := hfree
              rw [hlock.1] at hfree'
              cases hfree'
      | false =>
        refine Ends.bind (P := (· = (_, false))) rfl ?_
        rintro _ rfl
        rw [if_neg Bool.false_ne_true]
        dsimp only
        split
        · exact trivial
        next i _ =>
        refine Ends.bind (herased.onFailingProcessor i) ?_
        rintro ⟨s', task⟩ ⟨hs', hstill⟩
        have hnone := hstill hidle
        cases task with
        | none =>
          have hdone : s'.done.Backed := Backed.of_idle hs' rfl rfl (fun _ hu => hu) hnone
          exact hdone.release hnone
        | some task => exact Backed.of_idle hs' rfl rfl (fun _ hu => hu) hnone
    · exact trivial
  · exact trivial

theorem Backed.processingTask (h : s.Backed) (hs : s.Sound) (hd : s.dispatcher = .get) (resumes : Bool) :
    Ends Any (s.processingTask resumes) Backed := by
  have hidle : s.currentTaskId = none := h.idle (.inl (by rw [hd]; exact Dispatcher.noConfusion))
  unfold Agent.processingTask
  split
  · exact h
  next n t queue hget =>
  dsimp only
  split
  · exact trivial
  next task htask =>
  obtain ⟨honce, hknown, hsus⟩ := h.filed.taken hget
  have hname := hs.queued.named t task htask
  split
  · next hnew =>
    have hfree : s.suspendedHoldersByTaskId.get? t = none := by
      cases hp : s.suspendedHoldersByTaskId.get? t with
      | none => rfl
      | some p => exact absurd (hs.wf.held.held p _ (hs.wf.held.suspended _ p hp).1).1 hnew
    unfold Agent.onTask
    split
    · exact trivial
    next p hc =>
    split
    · exact trivial
    next i hid =>
    split
    · next hlock =>
      refine ⟨⟨honce, hknown, ?_⟩, ?_, ?_⟩
      · intro u hu
        refine hsus u ?_ hu
        rintro rfl
        have hu' : (s.suspendedHoldersByTaskId.get? u).isSome := hu
        rw [hfree] at hu'
        cases hu'
      · intro u hu
        rw [currentTaskId_eq] at hu
        have hrun : s.currentHolder.bind (s.setHolder p { s.holders p with task := some task }).taskOf = some u := hu
        rw [hc, Option.bind_some, taskOf_setHolder, if_pos rfl] at hrun
        have hut : u = t := (Option.some.inj hrun).symm.trans hname
        rw [hut]
        exact Dict.get?_erase_self _ _
      · rintro (hwait | hfree)
        · exact absurd rfl hwait
        · have hfree' : s.canAcceptTaskLock = false := hfree
          rw [hlock.1] at hfree'
          cases hfree'
    · exact trivial
  · exact backed_onResumeTask
      (s := { s with queuedTaskIds := queue, queuedTaskIdToTask := s.queuedTaskIdToTask.erase t })
      hidle honce hknown hsus (Dict.get?_erase_self _ _)
      (fun p hp => ⟨(hs.wf.held.suspended t p hp).1, (hs.wf.held.suspended t p hp).2.1⟩) resumes

/-- A task arrives once, and a forced cancel is not for a task whose failure is being stored. -/
def Expected (s : Agent) : AgentEvent → Prop
  | .task task => s.queuedTaskIdToTask.get? task.taskId = none ∧ task.taskId ∉ s.processingTaskIds
  | .taskCancel cancel => cancel.force = true → cancel.taskId ∉ s.reported
  | _ => True

theorem Backed.step (h : s.Backed) (hs : s.Sound) {e : AgentEvent} (he : s.Expected e) :
    Ends Any (s.step e) Backed := by
  have hfree : ∀ t ∈ s.reported, s.suspendedHoldersByTaskId.get? t = none := by
    intro t ht
    cases hp : s.suspendedHoldersByTaskId.get? t with
    | none => rfl
    | some p => exact absurd (hs.wf.held.suspended t p hp).1 ((hs.wf.held.reported t ht).2 p)
  cases e with
  | storageConnected =>
    dsimp only [Agent.step]
    split
    · exact h.of_idle rfl rfl (fun _ hu => hu) (currentTaskId_startNewProcessor s)
    · exact h
  | task task => exact h.onTaskNew hs he.1 he.2
  | taskCancel cancel => exact h.onCancelTask hs cancel
  | processorInitialized i =>
    dsimp only [Agent.step]
    split
    · have hannounced : Backed { s with announced := i :: s.announced } :=
        h.of_same rfl rfl (fun _ hu => hu) rfl rfl rfl
      exact hannounced.onProcessorInitialized hs.wf.identified.working i
    · exact h
  | taskResult i t resultType =>
    dsimp only [Agent.step]
    split
    · exact h.onTaskResult hs i t resultType
    · exact h
  | processorDied i =>
    dsimp only [Agent.step]
    split
    · refine Ends.bind (h.onFailingProcessor i) ?_
      rintro ⟨s', task⟩ ⟨hs', -⟩
      exact hs'.of_same rfl rfl (fun _ hu => hu) rfl rfl rfl
    · exact h
  | heartbeatStored =>
    dsimp only [Agent.step]
    split
    · exact h
    · next task hbeat =>
      have hnone : Backed { s with heartbeat := none } := h.of_same rfl rfl (fun _ hu => hu) rfl rfl rfl
      have hqueued : Queued { s with heartbeat := none } := ⟨hs.queued.located, hs.queued.both, hs.queued.named⟩
      refine (hnone.onStored hqueued (hfree task.taskId ?_)).mono fun s' hs' => hs'.1
      rw [Agent.reported, hbeat]
      exact List.mem_append_left _ (List.mem_singleton_self _)
  | lockAcquired =>
    dsimp only [Agent.step]
    split
    · next hd => exact h.of_idle rfl rfl (fun _ hu => hu) (h.idle (.inr hd.2))
    · exact h
  | taskTaken resumes =>
    dsimp only [Agent.step]
    split
    · next hd => exact h.processingTask hs hd resumes
    · exact h
  | dispatcherStored =>
    dsimp only [Agent.step]
    split
    · next task hd =>
      have hidle : s.currentTaskId = none := h.idle (.inl (by rw [hd]; exact Dispatcher.noConfusion))
      have hdone : s.done.Backed := h.of_idle rfl rfl (fun _ hu => hu) hidle
      have hqueued : s.done.Queued := ⟨hs.queued.located, hs.queued.both, hs.queued.named⟩
      have hsus : s.suspendedHoldersByTaskId.get? task.taskId = none := by
        refine hfree task.taskId ?_
        rw [Agent.reported, hd]
        exact List.mem_append_right _ (List.mem_singleton_self _)
      refine Ends.bind (hdone.onStored hqueued hsus) ?_
      rintro s' ⟨hs', hcurrent⟩
      exact hs'.release (hcurrent.trans hidle)
    · exact h

theorem backed_new : new.Backed := by
  refine ⟨⟨fun t => Nat.zero_le 1, fun t ht => ?_, fun t ht => ?_⟩, fun t ht => ?_, fun _ => rfl⟩
  · cases ht
  · cases ht
  · cases ht

def getQueuedSize (s : Agent) : Nat := s.queuedTaskIds.queue.length

def numSuspendedProcessors (s : Agent) : Nat := s.suspendedHoldersByTaskId.keys.length

/-- Suspended processors have tasks that are queued, the queue and its entries agree, and the
heartbeat does not report a negative number of queued tasks. -/
structure SuspendedQueued (s : Agent) : Prop where
  suspended : ∀ t p, s.suspendedHoldersByTaskId.get? t = some p → s.taskOf p = some t ∧
    t ∈ s.queuedTaskIds.queue.map Prod.snd ∧ (s.queuedTaskIdToTask.get? t).isSome
  entries : ∀ t, t ∈ s.queuedTaskIds.queue.map Prod.snd ↔ (s.queuedTaskIdToTask.get? t).isSome
  reported : 0 ≤ (s.getQueuedSize : Int) - s.numSuspendedProcessors

theorem Backed.suspendedQueued (h : s.Backed) (hs : s.Sound) : s.SuspendedQueued := by
  have hentries : ∀ t, t ∈ s.queuedTaskIds.queue.map Prod.snd ↔ (s.queuedTaskIdToTask.get? t).isSome := by
    intro t
    refine ⟨fun ht => h.filed.known t (StablePriorityQueue.mem_map_snd.mp ht), fun ht => ?_⟩
    obtain ⟨k, hk⟩ := Option.isSome_iff_exists.mp ((hs.queued.both t).symm.trans ht)
    exact List.mem_map.mpr ⟨(k, t), hs.queued.located.located t k hk, rfl⟩
  refine ⟨?_, hentries, ?_⟩
  · intro t p hp
    have hqueued := h.filed.suspended t (by rw [hp]; rfl)
    exact ⟨(hs.wf.held.suspended t p hp).1, (hentries t).mpr hqueued, hqueued⟩
  · have hsub : s.suspendedHoldersByTaskId.keys ⊆ s.queuedTaskIds.queue.map Prod.snd := by
      intro t ht
      exact (hentries t).mpr (h.filed.suspended t ((Dict.mem_keys _ t).mp ht))
    have hnodup : s.suspendedHoldersByTaskId.keys.Nodup := s.suspendedHoldersByTaskId.nodup
    have hle := (List.subperm_of_subset hnodup hsub).length_le
    have hlen : (s.queuedTaskIds.queue.map Prod.snd).length = s.queuedTaskIds.queue.length := List.length_map _
    unfold getQueuedSize numSuspendedProcessors
    omega

end Worker.Agent

namespace Worker

open Agent

/-- In every run in which tasks arrive once and no forced cancel is for a task whose failure is
being stored, suspended tasks are queued. -/
theorem suspended_tasks_queued (events : List AgentEvent) (s : Agent)
    (hexpected : Along Agent.step Expected Agent.new events) (hrun : Agent.new.run events = .ok s) :
    s.SuspendedQueued := by
  have hstep : ∀ (s : Agent) (e : AgentEvent), s.Sound ∧ s.Backed → s.Expected e →
      Ends Any (s.step e) fun s' => s'.Sound ∧ s'.Backed := by
    rintro s e ⟨hs, h⟩ he
    refine (hs.step ?_).and (h.step hs he)
    rintro cancel rfl hforce
    exact he hforce
  obtain ⟨hs, h⟩ := (Ends.foldlM hstep ⟨sound_new, backed_new⟩ hexpected).of_eq hrun
  exact h.suspendedQueued hs

/-- A task is suspended, its processor dies, and the failure is stored while another task is
suspended in its place. -/
def exampleSuspensions : List AgentEvent :=
  [.storageConnected, .processorInitialized 0, .lockAcquired, .task (taskOfPriority 1 0), .taskTaken true,
    .task (taskOfPriority 2 1), .processorInitialized 1, .lockAcquired, .taskTaken true, .processorDied 0,
    .task (taskOfPriority 3 2), .heartbeatStored, .processorInitialized 2, .lockAcquired, .taskTaken true]

theorem suspended_tasks_queued_two : ∃ s, Agent.new.run exampleSuspensions = .ok s ∧
    s.suspendedHoldersByTaskId.keys = [⟨2⟩] ∧ s.SuspendedQueued := by
  refine ⟨_, rfl, by decide, suspended_tasks_queued exampleSuspensions _ ?_ rfl⟩
  refine .cons rfl trivial (.cons rfl trivial (.cons rfl trivial (.cons rfl ?_ (.cons rfl trivial
    (.cons rfl ?_ (.cons rfl trivial (.cons rfl trivial (.cons rfl trivial (.cons rfl trivial (.cons rfl ?_
    (.cons rfl trivial (.cons rfl trivial (.cons rfl trivial (.cons rfl trivial trivial))))))))))))))
  · exact ⟨rfl, by decide⟩
  · exact ⟨rfl, by decide⟩
  · exact ⟨rfl, by decide⟩

/-- While the failure of a suspended task is stored, the task is canceled by force. It is still
in the queue and runs again; when it is suspended once more, the stored failure takes its
entry away, and the heartbeat counts -1 queued tasks. -/
theorem suspended_task_not_queued : ∃ s,
    Agent.new.run [.storageConnected, .processorInitialized 0, .lockAcquired, .task (taskOfPriority 1 0),
      .taskTaken true, .task (taskOfPriority 2 1), .processorDied 0, .taskCancel ⟨⟨1⟩, true⟩,
      .processorInitialized 1, .lockAcquired, .taskTaken true, .taskResult 1 ⟨2⟩ .success, .lockAcquired,
      .taskTaken true, .task (taskOfPriority 3 1), .processorInitialized 2, .lockAcquired, .taskTaken true,
      .heartbeatStored] = .ok s ∧
    (s.getQueuedSize : Int) - s.numSuspendedProcessors = -1 ∧ ¬s.SuspendedQueued := by
  refine ⟨_, rfl, by decide, fun h => ?_⟩
  have hreported := h.reported
  revert hreported
  decide

end Worker

end Scaler
