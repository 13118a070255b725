import Scaler.Worker.Queued

/-! A task that the agent has confirmed as canceled is nowhere in the agent and is not sent to
a processor, unless it was in two places when the cancel came. -/

namespace Scaler.Worker

open Collections

namespace Agent

variable {s s' s'' : Agent} {t : TaskID} {p n : Nat} {a : Option TaskID}

/-- The agent does not have the task, and after its first `n` messages it has not sent it to a
processor. -/
structure Gone (t : TaskID) (n : Nat) (s : Agent) : Prop where
  tasks : s.queuedTaskIdToTask.get? t = none
  queue : s.queuedTaskIds.count t = 0
  processing : t ∉ s.processingTaskIds
  held : ∀ p, s.taskOf p ≠ some t
  unsent : ∀ p task, .toProcessor p task ∈ s.sent.drop n → task.taskId ≠ t

/-- The queue stays consistent, and tasks that are gone stay gone unless they arrive. -/
structure Keeps (a : Option TaskID) (s s' : Agent) : Prop where
  queued : s'.Queued
  gone : ∀ t n, a ≠ some t → s.Gone t n → s'.Gone t n

theorem Keeps.trans (h : Keeps a s s') (h' : Keeps a s' s'') : Keeps a s s'' :=
  ⟨h'.queued, fun t n ha hg => h'.gone t n ha (h.gone t n ha hg)⟩

section Keeps

variable (hs : s.Queued)

include hs

theorem Queued.keep (a : Option TaskID) (h : Quiet s s') : Keeps a s s' := by
  refine ⟨⟨?_, ?_, ?_⟩, fun t n _ hg => ⟨?_, ?_, ?_, fun p hp => hg.held p (h.held p t hp), ?_⟩⟩
  · rw [h.queue]
    exact hs.located
  · rw [h.queue, h.tasks]
    exact hs.both
  · rw [h.tasks]
    exact hs.named
  · rw [h.tasks]
    exact hg.tasks
  · rw [h.queue]
    exact hg.queue
  · rw [h.processing]
    exact hg.processing
  · rw [h.sent]
    exact hg.unsent

theorem Queued.finish (a : Option TaskID) (t : TaskID) :
    Keeps a s { s with processingTaskIds := s.processingTaskIds.erase t } :=
  ⟨⟨hs.located, hs.both, hs.named⟩, fun _ _ _ hg =>
    ⟨hg.tasks, hg.queue, fun hm => hg.processing (List.mem_of_mem_erase hm), hg.held, hg.unsent⟩⟩

theorem Queued.send (a : Option TaskID) (message : AgentMessage) (hm : ∀ p task, message ≠ .toProcessor p task) :
    Keeps a s (s.send message) := by
  refine ⟨⟨hs.located, hs.both, hs.named⟩, fun t n _ hg =>
    ⟨hg.tasks, hg.queue, hg.processing, hg.held, fun p task hp => ?_⟩⟩
  rw [Agent.send, List.drop_append] at hp
  rcases List.mem_append.mp hp with hp | hp
  · exact hg.unsent p task hp
  · exact absurd (List.mem_singleton.mp (List.mem_of_mem_drop hp)).symm (hm p task)

theorem Queued.remove (a : Option TaskID) (t : TaskID) :
    Keeps a s { s with
      queuedTaskIds := s.queuedTaskIds.remove t
      queuedTaskIdToTask := s.queuedTaskIdToTask.erase t } := by
  refine ⟨⟨hs.located.remove t, fun u => ?_, fun u task hu => ?_⟩, fun u n _ hg =>
    ⟨?_, ?_, hg.processing, hg.held, hg.unsent⟩⟩
  · rw [StablePriorityQueue.locator_remove, Dict.get?_erase, Dict.get?_erase]
    split
    · rfl
    · exact hs.both u
  · rw [Dict.get?_erase] at hu
    split at hu
    · cases hu
    · exact hs.named u task hu
  · rw [Dict.get?_erase, hg.tasks, ite_self]
  · refine StablePriorityQueue.count_eq_zero.mpr fun k hk => ?_
    exact StablePriorityQueue.count_eq_zero.mp hg.queue k (StablePriorityQueue.mem_remove hk)

/-- A task is queued when it arrives or when its process is suspended. -/
theorem Queued.enqueueTask {task : Task} (ha : a = some task.taskId ∨ ∃ p, s.taskOf p = some task.taskId)
    (isSuspended : Bool) : Ends Any (s.enqueueTask task isSuspended) (Keeps a s) := by
  unfold Agent.enqueueTask
  cases getTaskPriority task with
  | error e => exact trivial
  | ok priority =>
    refine ⟨⟨hs.located.put _ _, fun u => ?_, fun u task' hu => ?_⟩, fun u n hne hg => ?_⟩
    · rw [StablePriorityQueue.put, Dict.get?_set, Dict.get?_set]
      split
      · rfl
      · exact hs.both u
    · rw [Dict.get?_set] at hu
      split at hu
      · next hut =>
        cases hu
        exact hut.symm
      · exact hs.named u task' hu
    · have hut : u ≠ task.taskId := by
        rintro rfl
        rcases ha with ha | ⟨p, hp⟩
        · exact hne ha
        · exact hg.held p hp
      refine ⟨?_, StablePriorityQueue.count_eq_zero.mpr fun k hk => ?_, hg.processing, hg.held, hg.unsent⟩
      · rw [Dict.get?_set, if_neg hut, hg.tasks]
      · rcases StablePriorityQueue.mem_put.mp hk with he | hk
        · exact hut (congrArg Prod.snd he)
        · exact StablePriorityQueue.count_eq_zero.mp hg.queue k hk

theorem Queued.onTaskNew (task : Task) : Ends Any (s.onTaskNew task) (Keeps (some task.taskId) s) := by
  refine Ends.bind (hs.enqueueTask (.inl rfl) false) fun s₁ hs₁ => ?_
  unfold suspendIfPriorityIsHigher
  split
  · exact hs₁
  next current hcurrent =>
  have hheld : ∃ p, s₁.taskOf p = some current.taskId := by
    have hid : s₁.currentTaskId = some current.taskId := by
      rw [currentTaskId, hcurrent]
      rfl
    obtain ⟨p, -, hp⟩ := currentTaskId_eq_some.mp hid
    exact ⟨p, hp⟩
  cases getTaskPriority task with
  | error e => exact trivial
  | ok newPriority =>
    cases getTaskPriority current with
    | error e => exact trivial
    | ok currentPriority =>
      refine Ends.bind (P := fun _ => True) trivial fun _ _ => ?_
      refine Ends.bind (P := fun _ => True) trivial fun _ _ => ?_
      split
      · exact hs₁
      · refine Ends.bind (hs₁.queued.enqueueTask (a := some task.taskId) (.inr hheld) true) fun s₂ hs₂ => ?_
        exact (Quiet.onSuspendTask s₂ current.taskId).mono fun s₃ h =>
          hs₁.trans (hs₂.trans (hs₂.queued.keep _ h))

theorem Queued.onResult (t : TaskID) (resultType : TaskResultType) :
    Ends Any (s.onResult t resultType) (Keeps a s) := by
  have hend : ∀ {s' : Agent}, Keeps a s s' →
      Keeps a s ({ s' with processingTaskIds := s'.processingTaskIds.erase t }.send (.taskResult t resultType)) := by
    intro s' h
    have hfin := h.queued.finish a t
    exact h.trans (hfin.trans (hfin.queued.send a _ fun p task he => by cases he))
  unfold Agent.onResult
  dsimp only
  split
  · split
    · exact hend (hs.remove a t)
    · exact trivial
  · split
    · exact hend (hs.keep a (.refl s))
    · exact trivial

theorem Queued.onTaskResult (i : Nat) (t : TaskID) (resultType : TaskResultType) :
    Ends Any (s.onTaskResult i t resultType) (Keeps a s) := by
  unfold Agent.onTaskResult
  split
  · exact trivial
  next c _ =>
  split
  · split
    · have hend : Keeps a s (s.endTask c) := hs.keep a (.setHolder (.inl rfl))
      refine Ends.bind (hend.queued.onResult (a := a) t resultType) fun s' hs' => ?_
      exact (Quiet.refl s').release.mono fun s'' h => hend.trans (hs'.trans (hs'.queued.keep a h))
    · exact trivial
  split
  · next p _ =>
    dsimp only
    split
    · have hkill := Quiet.kill { s with suspendedHoldersByTaskId := s.suspendedHoldersByTaskId.erase t } p
      have hdrop : Keeps a s (killProcessor { s with
          suspendedHoldersByTaskId := s.suspendedHoldersByTaskId.erase t } p) :=
        hs.keep a ⟨rfl, rfl, rfl, rfl, hkill.held⟩
      rw [killProcessor_endTask]
      exact (hdrop.queued.onResult t resultType).mono fun s' h => hdrop.trans h
    · exact trivial
  · exact hs.keep a (.refl s)

theorem Queued.onStored (task : Task) : Ends Any (s.onStored task) (Keeps a s) := by
  have hsend := hs.send a (.objectCreated task.source) fun p task he => by cases he
  exact (hsend.queued.onResult task.taskId .failed).mono fun s' h => hsend.trans h

/-- The task that is taken from the queue is not one that is gone. -/
theorem Queued.processingTask (resumes : Bool) : Ends Any (s.processingTask resumes) (Keeps a s) := by
  unfold Agent.processingTask
  split
  · exact hs.keep a (.refl s)
  next t queue hget =>
  dsimp only
  split
  · exact trivial
  next task htask =>
  have hname := hs.named t task htask
  obtain ⟨k, hq, hl, -⟩ := StablePriorityQueue.get_some hget
  have hpresent : ∀ {u m}, s.Gone u m → u ≠ t := by
    rintro u m hg rfl
    refine StablePriorityQueue.count_eq_zero.mp hg.queue k ?_
    rw [hq]
    exact List.mem_cons_self
  have htaken : Keeps a s { s with queuedTaskIds := queue, queuedTaskIdToTask := s.queuedTaskIdToTask.erase t } := by
    refine ⟨⟨hs.located.get hget, fun u => ?_, fun u task hu => ?_⟩, fun u n _ hg =>
      ⟨?_, ?_, hg.processing, hg.held, hg.unsent⟩⟩
    · rw [hl, Dict.get?_erase, Dict.get?_erase]
      split
      · rfl
      · exact hs.both u
    · rw [Dict.get?_erase] at hu
      split at hu
      · cases hu
      · exact hs.named u task hu
    · rw [Dict.get?_erase, hg.tasks, ite_self]
    · refine StablePriorityQueue.count_eq_zero.mpr fun k' hk => ?_
      refine StablePriorityQueue.count_eq_zero.mp hg.queue k' ?_
      rw [hq]
      exact List.mem_cons_of_mem _ hk
  split
  · refine Ends.bind (P := Keeps a s) ?_ fun s' h => h.trans (h.queued.keep a ⟨rfl, rfl, rfl, rfl, fun _ _ h => h⟩)
    unfold Agent.onTask
    split
    · exact trivial
    next p _ =>
    split
    · exact trivial
    next i _ =>
    split
    · refine ⟨⟨htaken.queued.located, htaken.queued.both, htaken.queued.named⟩, fun u m ha hg => ?_⟩
      have hg' := htaken.gone u m ha hg
      have hne := hpresent hg
      refine ⟨hg'.tasks, hg'.queue, fun hm => ?_, fun q hq' => ?_, fun q task' hsent => ?_⟩
      · rcases List.mem_append.mp hm with hm | hm
        · exact hg.processing hm
        · exact hne (List.mem_singleton.mp hm)
      · have hset : (s.setHolder p { s.holders p with task := some task }).taskOf q = some u := hq'
        rw [taskOf_setHolder] at hset
        split at hset
        · exact hne ((Option.some.inj hset).symm.trans hname)
        · exact hg.held q hset
      · have hsent' : AgentMessage.toProcessor q task' ∈ (s.sent ++ [AgentMessage.toProcessor i task]).drop m := hsent
        rw [List.drop_append] at hsent'
        rcases List.mem_append.mp hsent' with hm | hm
        · exact hg.unsent q task' hm
        · cases List.mem_singleton.mp (List.mem_of_mem_drop hm)
          exact fun he => hne (he.symm.trans hname)
    · exact trivial
  · exact (Quiet.onResumeTask _ t resumes).mono fun s' h => htaken.trans (htaken.queued.keep a h)

theorem Queued.onCancelTask (cancel : TaskCancel) : Ends Any (s.onCancelTask cancel) (Keeps a s) := by
  have hconfirm : ∀ {s'}, Keeps a s s' → ∀ confirm, Keeps a s (s'.send (.taskCancelConfirm confirm)) :=
    fun h _ => h.trans (h.queued.send a _ fun p task he => by cases he)
  unfold Agent.onCancelTask
  dsimp only
  split
  · exact hconfirm (hs.keep a (.refl s)) _
  split
  · exact hconfirm (hs.keep a (.refl s)) _
  split
  · have hfin := hs.finish a cancel.taskId
    refine Ends.bind (Quiet.onCancelProcessor _ cancel.taskId) fun s' h => ?_
    exact hconfirm (hfin.trans (hfin.queued.keep a h)) _
  · exact hconfirm (hs.remove a cancel.taskId) _

/-- The task that comes with an event. -/
def arrival : AgentEvent → Option TaskID
  | .task task => some task.taskId
  | _ => none

theorem Queued.step (e : AgentEvent) : Ends Any (s.step e) (Keeps (arrival e) s) := by
  have hsame : ∀ {s' : Agent}, Quiet s s' → Keeps none s s' := hs.keep none
  cases e with
  | storageConnected =>
    dsimp only [Agent.step]
    split
    · exact hsame (.start s)
    · exact hsame (.refl s)
  | task task => exact hs.onTaskNew task
  | taskCancel cancel => exact hs.onCancelTask cancel
  | processorInitialized i =>
    dsimp only [Agent.step]
    split
    · refine (Quiet.onProcessorInitialized _ i).mono fun s' h => hsame ?_
      exact ⟨h.queue, h.tasks, h.processing, h.sent, h.held⟩
    · exact hsame (.refl s)
  | taskResult i t resultType =>
    dsimp only [Agent.step]
    split
    · exact hs.onTaskResult i t resultType
    · exact hsame (.refl s)
  | processorDied i =>
    dsimp only [Agent.step]
    split
    · refine Ends.bind (Quiet.onFailingProcessor s i) fun r h => hsame ?_
      exact ⟨h.queue, h.tasks, h.processing, h.sent, h.held⟩
    · exact hsame (.refl s)
  | heartbeatStored =>
    dsimp only [Agent.step]
    split
    · exact hsame (.refl s)
    · next task _ =>
      have hnone : Keeps none s { s with heartbeat := none } := hsame ⟨rfl, rfl, rfl, rfl, fun _ _ h => h⟩
      exact (hnone.queued.onStored task).mono fun s' h => hnone.trans h
  | lockAcquired =>
    dsimp only [Agent.step]
    split
    · exact hsame ⟨rfl, rfl, rfl, rfl, fun _ _ h => h⟩
    · exact hsame (.refl s)
  | taskTaken resumes =>
    dsimp only [Agent.step]
    split
    · exact hs.processingTask resumes
    · exact hsame (.refl s)
  | dispatcherStored =>
    dsimp only [Agent.step]
    split
    · next task _ =>
      have hdone : Keeps none s s.done := hsame ⟨rfl, rfl, rfl, rfl, fun _ _ h => h⟩
      refine Ends.bind (hdone.queued.onStored (a := none) task) fun s' hs' => ?_
      exact (Quiet.refl s').release.mono fun s'' h => hdone.trans (hs'.trans (hs'.queued.keep none h))
    · exact hsame (.refl s)

end Keeps

/-- A cancel finds its task once: a task that is processed is not queued, which is not so when
it is suspended, and its failure is not being stored, and a queued task is queued once. -/
def InOnePlace (s : Agent) : AgentEvent → Prop
  | .taskCancel cancel =>
    if cancel.taskId ∈ s.processingTaskIds then
      cancel.force = true → s.queuedTaskIds.count cancel.taskId = 0 ∧ cancel.taskId ∉ s.reported
    else s.queuedTaskIdToTask.contains cancel.taskId = true → s.queuedTaskIds.count cancel.taskId ≤ 1
  | _ => True

/-- A task that is nowhere in the queue has no entry. -/
theorem Queued.absent (hq : s.Queued) (ht : s.queuedTaskIds.count t = 0) : s.queuedTaskIdToTask.get? t = none := by
  have hboth := hq.both t
  cases hl : s.queuedTaskIds.locator.get? t with
  | none =>
    rw [hl] at hboth
    exact Option.isSome_eq_false_iff.mp hboth |> Option.isNone_iff_eq_none.mp
  | some k => exact absurd (hq.located.located t k hl) (StablePriorityQueue.count_eq_zero.mp ht k)

/-- A cancel that finds its task once leaves nothing of it. -/
theorem Gone.onCancelTask (hs : s.Wf) (hq : s.Queued) {cancel : TaskCancel} (hone : s.InOnePlace (.taskCancel cancel)) :
    Ends Any (s.onCancelTask cancel) fun s' =>
      s'.sent = s.sent ++ [AgentMessage.taskCancelConfirm ⟨cancel.taskId, .canceled⟩] →
        s'.Gone cancel.taskId s'.sent.length := by
  have hunsent : ∀ (l : List AgentMessage) p task, .toProcessor p task ∈ l.drop l.length →
      task.taskId ≠ cancel.taskId := by
    intro l p task hp
    rw [List.drop_length] at hp
    cases hp
  unfold Agent.onCancelTask
  dsimp only [InOnePlace] at hone ⊢
  split
  · intro he
    simp [Agent.send] at he
  split
  · intro he
    simp [Agent.send] at he
  next hfound hforced =>
  split
  · next hmem =>
    rw [if_pos hmem] at hone
    have hforce : cancel.force = true := by
      cases hf : cancel.force with
      | true => rfl
      | false => exact absurd ⟨hmem, hf⟩ hforced
    obtain ⟨hcount, hrep⟩ := hone hforce
    have hwf := hs.onCancelProcessor hrep
    have hquiet := Quiet.onCancelProcessor { s with
      processingTaskIds := s.processingTaskIds.erase cancel.taskId } cancel.taskId
    refine Ends.bind (hwf.and hquiet) fun s' hs' => ?_
    obtain ⟨⟨-, hfree⟩, hs'⟩ := hs'
    intro _
    refine ⟨?_, ?_, fun hm => ?_, hfree, hunsent _⟩
    · exact (congrArg (Dict.get? · cancel.taskId) hs'.tasks).trans (hq.absent hcount)
    · exact (congrArg (StablePriorityQueue.count · cancel.taskId) hs'.queue).trans hcount
    · have hm' : cancel.taskId ∈ s'.processingTaskIds := hm
      rw [hs'.processing] at hm'
      exact hs.held.nodup.not_mem_erase hm'
  · next hmem =>
    rw [if_neg hmem] at hone
    have hqueued : s.queuedTaskIdToTask.contains cancel.taskId = true := by
      cases hcon : s.queuedTaskIdToTask.contains cancel.taskId with
      | true => rfl
      | false => exact absurd ⟨hmem, hcon⟩ hfound
    have hlocated : (s.queuedTaskIds.locator.get? cancel.taskId).isSome := (hq.both _).symm.trans hqueued
    intro _
    refine ⟨Dict.get?_erase_self _ _, StablePriorityQueue.count_eq_zero.mpr ?_, hmem, fun p hp => ?_, hunsent _⟩
    · exact hq.located.not_mem_remove hlocated (hone hqueued)
    · exact hmem (hs.held.held p _ hp).1

/-- The invariants of the agent. -/
structure Sound (s : Agent) : Prop where
  wf : s.Wf
  queued : s.Queued

theorem sound_new : new.Sound := by
  refine ⟨⟨⟨?_, ?_, ?_, ?_, List.nodup_nil, ?_, List.nodup_nil⟩, ⟨?_, ?_, ?_, ?_, ?_, ?_⟩⟩,
    ⟨StablePriorityQueue.located_empty, fun _ => rfl, ?_⟩⟩
  all_goals simp [new, taskOf, idOf, Agent.reported]

theorem Sound.step (hs : s.Sound) {e : AgentEvent}
    (he : ∀ cancel, e = .taskCancel cancel → cancel.force = true → cancel.taskId ∉ s.reported) :
    Ends Any (s.step e) Sound :=
  ((hs.wf.step hs.queued.named e he).and (hs.queued.step e)).mono fun _ h => ⟨h.1, h.2.queued⟩

theorem InOnePlace.not_reported (hs : s.Sound) {cancel : TaskCancel} (hone : s.InOnePlace (.taskCancel cancel))
    (hforce : cancel.force = true) : cancel.taskId ∉ s.reported := by
  dsimp only [InOnePlace] at hone
  split at hone
  · exact (hone hforce).2
  · next hmem => exact fun hr => hmem (hs.wf.held.reported _ hr).1

/-- Once it is gone, a task comes back only when it arrives. -/
theorem Gone.run (hq : s.Queued) (hg : s.Gone t n) {events : List AgentEvent}
    (hnew : ∀ e ∈ events, arrival e ≠ some t) (hrun : s.run events = .ok s') : s'.Gone t n := by
  induction events generalizing s with
  | nil =>
    cases hrun
    exact hg
  | cons e events ih =>
    rw [Agent.run, List.foldlM_cons] at hrun
    cases he : s.step e with
    | error err =>
      rw [he] at hrun
      cases hrun
    | ok s₁ =>
      rw [he] at hrun
      have hkeep := (hq.step e).of_eq he
      refine ih hkeep.queued (hkeep.gone t n (hnew e List.mem_cons_self) hg) (fun e' he' => ?_) hrun
      exact hnew e' (List.mem_cons_of_mem _ he')

end Agent

open Agent

/-- When every cancel of a run finds its task in one place, a task whose cancel was confirmed
is gone, until it arrives again. -/
theorem canceled_task_gone (before after : List AgentEvent) (cancel : TaskCancel) (s s₁ s₂ : Agent)
    (hone : Along Agent.step InOnePlace Agent.new (before ++ [AgentEvent.taskCancel cancel]))
    (hbefore : Agent.new.run before = .ok s) (hcancel : s.step (.taskCancel cancel) = .ok s₁)
    (hconfirm : s₁.sent = s.sent ++ [AgentMessage.taskCancelConfirm ⟨cancel.taskId, .canceled⟩])
    (hnew : ∀ e ∈ after, arrival e ≠ some cancel.taskId) (hafter : s₁.run after = .ok s₂) :
    s₂.Gone cancel.taskId s₁.sent.length := by
  obtain ⟨hbefore', hcancel', -⟩ := hone.append hbefore
  have hstep : ∀ (s : Agent) (e : AgentEvent), s.Sound → s.InOnePlace e → Ends Any (s.step e) Sound := by
    intro s e hs hone
    exact hs.step fun cancel he hforce => InOnePlace.not_reported hs (he ▸ hone) hforce
  have hs : s.Sound := (Ends.foldlM hstep sound_new hbefore').of_eq hbefore
  have hgone := (Gone.onCancelTask hs.wf hs.queued hcancel').of_eq hcancel hconfirm
  exact hgone.run ((hs.queued.step _).of_eq hcancel).queued hnew hafter

/-- A task whose flags give it this priority. -/
def taskOfPriority (n : Nat) (priority : UInt8) : Task := ⟨⟨n⟩, ⟨0⟩, [1, 0, 0, 0, priority, 0], ⟨0⟩, [], []⟩

/-- A running task is canceled by force, and the processor gets another one. -/
theorem canceled_task_gone_running : ∃ s s₁ s₂,
    Agent.new.run [.storageConnected, .processorInitialized 0, .lockAcquired, .task (taskOfPriority 1 0),
      .taskTaken true] = .ok s ∧ s.step (.taskCancel ⟨⟨1⟩, true⟩) = .ok s₁ ∧
    s₁.run [.processorInitialized 1, .lockAcquired, .task (taskOfPriority 2 0), .taskTaken true] = .ok s₂ ∧
    s₂.Gone ⟨1⟩ s₁.sent.length := by
  refine ⟨_, _, _, rfl, rfl, rfl, ?_⟩
  refine canceled_task_gone [.storageConnected, .processorInitialized 0, .lockAcquired, .task (taskOfPriority 1 0),
      .taskTaken true] [.processorInitialized 1, .lockAcquired, .task (taskOfPriority 2 0), .taskTaken true]
    ⟨⟨1⟩, true⟩ _ _ _ ?_ rfl rfl rfl (by decide) rfl
  refine .cons rfl trivial (.cons rfl trivial (.cons rfl trivial (.cons rfl trivial (.cons rfl trivial
    (.cons rfl ?_ trivial)))))
  exact fun _ => ⟨rfl, by decide⟩

/-- A suspended task is canceled by force and stays in the queue: when the task that took its
place is done, it is sent to the processor again. -/
theorem canceled_suspended_task_runs : ∃ s s₁ s₂,
    Agent.new.run [.storageConnected, .processorInitialized 0, .lockAcquired, .task (taskOfPriority 1 0),
      .taskTaken true, .task (taskOfPriority 2 1)] = .ok s ∧
    s.step (.taskCancel ⟨⟨1⟩, true⟩) = .ok s₁ ∧
    s₁.sent = s.sent ++ [AgentMessage.taskCancelConfirm ⟨⟨1⟩, .canceled⟩] ∧
    s₁.run [.processorInitialized 1, .lockAcquired, .taskTaken true, .taskResult 1 ⟨2⟩ .success, .lockAcquired,
      .taskTaken true] = .ok s₂ ∧
    .toProcessor 1 (taskOfPriority 1 0) ∈ s₂.sent.drop s₁.sent.length ∧ ¬ s₂.Gone ⟨1⟩ s₁.sent.length := by
  refine ⟨_, _, _, rfl, rfl, rfl, rfl, ?_, fun hgone => ?_⟩
  · decide
  · exact hgone.unsent 1 (taskOfPriority 1 0) (by decide) rfl

end Scaler.Worker
