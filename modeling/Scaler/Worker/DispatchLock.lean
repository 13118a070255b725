import Scaler.Worker.Canceled

/-! The lock of the dispatcher: outside a hand-over it is held exactly while the current
processor is not initialised or has a task, and no assertion fails, as long as no idle processor
dies and no task is in the hands of two parties. -/

namespace Scaler.Worker

open Collections

namespace Agent

variable {s s' : Agent} {t : TaskID} {p : Nat}

/-- Whether a process is marked as suspended. -/
def markOf (s : Agent) (process : Nat) : Bool := (s.holders process).suspended

@[simp] theorem markOf_setHolder (s : Agent) (p q : Nat) (r : Holder) :
    (s.setHolder p r).markOf q = if q = p then r.suspended else s.markOf q := by
  simp only [markOf, setHolder, Function.update_apply]
  split <;> rfl

@[simp] theorem markOf_killProcessor (s : Agent) (p q : Nat) : (s.killProcessor p).markOf q = s.markOf q := by
  refine (markOf_setHolder s p q { s.holders p with task := none }).trans ?_
  split
  · next hq =>
    rw [hq]
    rfl
  · rfl

@[simp] theorem markOf_startNewProcessor (s : Agent) (q : Nat) :
    s.startNewProcessor.markOf q = if q = s.started then false else s.markOf q :=
  markOf_setHolder s s.started q ⟨none, none, false⟩

/-- The current process is initialised and has no task. -/
def Ready (s : Agent) : Prop := ∃ p, s.currentHolder = some p ∧ s.idOf p = some p ∧ s.taskOf p = none

/-- The queue has an entry for each of its tasks, and a queued task that is processed is
suspended, or its failure is being stored. -/
structure Listed (s : Agent) : Prop where
  queue : s.queuedTaskIds.Wf
  resumable : ∀ t, s.queuedTaskIdToTask.contains t = true → t ∈ s.processingTaskIds →
    (s.suspendedHoldersByTaskId.get? t).isSome ∨ t ∈ s.heartbeat.map (·.taskId)

/-- Exactly the suspended processes are marked. -/
structure Marked (s : Agent) : Prop where
  current : ∀ p, s.currentHolder = some p → s.markOf p = false
  suspended : ∀ t p, s.suspendedHoldersByTaskId.get? t = some p → s.markOf p = true

/-- The dispatcher has the lock while it hands over, and a process does otherwise. -/
structure Guarded (s : Agent) : Prop where
  waiting : s.dispatcher = .waitUntilCanAcceptTask → (s.canAcceptTaskLock = true ↔ ¬ s.Ready)
  handing : s.dispatcher ≠ .waitUntilCanAcceptTask → s.canAcceptTaskLock = true ∧ s.Ready

/-- Before the first process is started there is nothing. -/
def Asleep (s : Agent) : Prop :=
  s.currentHolder = none → s.processingTaskIds = [] ∧ s.started = 0 ∧ ∀ p task, .toProcessor p task ∉ s.sent

/-- The invariant of the lock. -/
structure Locked (s : Agent) : Prop where
  listed : s.Listed
  marked : s.Marked
  guarded : s.Guarded
  asleep : s.Asleep

section Guarded

theorem ready_congr (hc : s'.currentHolder = s.currentHolder)
    (hid : ∀ p, s.currentHolder = some p → s'.idOf p = s.idOf p)
    (htask : ∀ p, s.currentHolder = some p → s'.taskOf p = s.taskOf p) : s'.Ready ↔ s.Ready := by
  unfold Ready
  rw [hc]
  refine ⟨fun ⟨p, hp, hi, ht⟩ => ⟨p, hp, ?_, ?_⟩, fun ⟨p, hp, hi, ht⟩ => ⟨p, hp, ?_, ?_⟩⟩
  · rw [← hid p hp, hi]
  · rw [← htask p hp, ht]
  · rw [hid p hp, hi]
  · rw [htask p hp, ht]

theorem Guarded.congr (hs : s.Guarded) (hready : s'.Ready ↔ s.Ready) (hlock : s'.canAcceptTaskLock = s.canAcceptTaskLock)
    (hd : s'.dispatcher = s.dispatcher) : s'.Guarded := by
  refine ⟨fun h => ?_, fun h => ?_⟩
  · rw [hlock, hready]
    exact hs.waiting (hd ▸ h)
  · rw [hlock, hready]
    exact hs.handing (hd ▸ h)

/-- While the current process is at work, the dispatcher waits. -/
theorem Guarded.busy (hs : s.Guarded) (hbusy : ¬ s.Ready) :
    s.dispatcher = .waitUntilCanAcceptTask ∧ s.canAcceptTaskLock = true := by
  have hd : s.dispatcher = .waitUntilCanAcceptTask := by
    by_contra hd
    exact hbusy (hs.handing hd).2
  exact ⟨hd, (hs.waiting hd).mpr hbusy⟩

/-- The process that works is replaced by one that is not ready either. -/
theorem Guarded.replace (hs : s.Guarded) (hbusy : ¬ s.Ready) (hbusy' : ¬ s'.Ready)
    (hlock : s'.canAcceptTaskLock = s.canAcceptTaskLock) (hd : s'.dispatcher = s.dispatcher) : s'.Guarded := by
  obtain ⟨hwait, hheld⟩ := hs.busy hbusy
  refine ⟨fun _ => ?_, fun h => absurd (hd.trans hwait) h⟩
  rw [hlock]
  exact ⟨fun _ => hbusy', fun _ => hheld⟩

theorem Guarded.released (hready : s.Ready) (hlock : s.canAcceptTaskLock = false)
    (hd : s.dispatcher = .waitUntilCanAcceptTask) : s.Guarded := by
  refine ⟨fun _ => ?_, fun h => absurd hd h⟩
  rw [hlock]
  exact ⟨fun h => absurd h Bool.false_ne_true, fun h => absurd hready h⟩

theorem not_ready_start (s : Agent) : ¬ s.startNewProcessor.Ready := by
  rintro ⟨p, hc, hid, -⟩
  cases hc
  rw [idOf_startNewProcessor, if_pos rfl] at hid
  cases hid

theorem not_ready_of_task (hc : s.currentHolder = some p) (ht : s.taskOf p = some t) : ¬ s.Ready := by
  rintro ⟨q, hq, -, hnone⟩
  cases hc.symm.trans hq
  cases ht.symm.trans hnone

end Guarded

/-- Only an invalid priority ends the agent. -/
def InvalidPriority : AgentError → Prop := (· = .valueError)

theorem getTaskPriority_ends (task : Task) : Ends InvalidPriority (getTaskPriority task) fun _ => True := by
  have hretrieve : Ends InvalidPriority (retrievePriority task) fun _ => True := by
    unfold retrievePriority
    split
    · exact trivial
    split
    · exact trivial
    · exact rfl
  refine Ends.bind hretrieve fun priority _ => ?_
  split
  · exact rfl
  · exact trivial

theorem Marked.start (hs : s.Marked) (hlt : ∀ t p, s.suspendedHoldersByTaskId.get? t = some p → p < s.started) :
    s.startNewProcessor.Marked := by
  refine ⟨fun p hc => ?_, fun t p hp => ?_⟩
  · cases hc
    rw [markOf_startNewProcessor, if_pos rfl]
  · rw [markOf_startNewProcessor, if_neg (Nat.ne_of_lt (hlt t p hp))]
    exact hs.suspended t p hp

theorem Marked.mono (hs : s.Marked) (hc : s'.currentHolder = s.currentHolder)
    (hsus : ∀ t p, s'.suspendedHoldersByTaskId.get? t = some p → s.suspendedHoldersByTaskId.get? t = some p)
    (hmark : ∀ p, s'.markOf p = s.markOf p) : s'.Marked := by
  refine ⟨fun p hp => ?_, fun t p hp => ?_⟩
  · rw [hmark]
    exact hs.current p (hc ▸ hp)
  · rw [hmark]
    exact hs.suspended t p (hsus t p hp)

theorem Listed.drop (hs : s.Listed) (t : TaskID) (hqueue : s'.queuedTaskIds.Wf)
    (hkeep : ∀ u, s'.queuedTaskIdToTask.contains u = true → u ∈ s'.processingTaskIds →
      u ≠ t ∧ s.queuedTaskIdToTask.contains u = true ∧ u ∈ s.processingTaskIds)
    (hsus : ∀ u, u ≠ t → s'.suspendedHoldersByTaskId.get? u = s.suspendedHoldersByTaskId.get? u)
    (hbeat : ∀ u, u ≠ t → u ∈ s.heartbeat.map (·.taskId) → u ∈ s'.heartbeat.map (·.taskId)) : s'.Listed := by
  refine ⟨hqueue, fun u hu hm => ?_⟩
  obtain ⟨hne, hu, hm⟩ := hkeep u hu hm
  rw [hsus u hne]
  exact (hs.resumable u hu hm).imp_right (hbeat u hne)

/-- The agent forgets a task that is processed. -/
def finishTask (s : Agent) (t : TaskID) : Agent :=
  { s with
    queuedTaskIds := s.queuedTaskIds.remove t
    queuedTaskIdToTask := s.queuedTaskIdToTask.erase t
    processingTaskIds := s.processingTaskIds.erase t }

theorem onResult_eq (hq : s.Queued) (ht : t ∈ s.processingTaskIds) (resultType : TaskResultType) :
    s.onResult t resultType = .ok ((s.finishTask t).send (.taskResult t resultType)) := by
  unfold Agent.onResult
  dsimp only
  split
  · rfl
  · next hcon =>
    have hnone : s.queuedTaskIdToTask.get? t = none := Option.not_isSome_iff_eq_none.mp hcon
    have hboth := hq.both t
    rw [hnone] at hboth
    have hlocator : s.queuedTaskIds.locator.get? t = none :=
      Option.not_isSome_iff_eq_none.mp (by rw [← hboth]; exact Bool.false_ne_true)
    have hremove : s.queuedTaskIds.remove t = s.queuedTaskIds := by
      rw [StablePriorityQueue.remove, hlocator]
    rw [finishTask, hremove, Dict.erase_of_get?_none hnone]

theorem release_eq (h : s.canAcceptTaskLock = true) : s.release = .ok { s with canAcceptTaskLock := false } := if_pos h

/-- A task is forgotten, whether it was suspended or its failure was being stored. -/
theorem Listed.finish (hs : s.Listed) (hqueue : s'.queuedTaskIds = s.queuedTaskIds.remove t)
    (hdict : s'.queuedTaskIdToTask = s.queuedTaskIdToTask.erase t)
    (hproc : s'.processingTaskIds = s.processingTaskIds.erase t)
    (hsus : ∀ u, u ≠ t → s'.suspendedHoldersByTaskId.get? u = s.suspendedHoldersByTaskId.get? u)
    (hbeat : ∀ u, u ≠ t → u ∈ s.heartbeat.map (·.taskId) → u ∈ s'.heartbeat.map (·.taskId)) : s'.Listed := by
  refine hs.drop t (hqueue ▸ (StablePriorityQueue.remove_wf hs.queue t).1) (fun u hu hm => ?_) hsus hbeat
  rw [hproc] at hm
  rw [hdict, Dict.contains, Dict.get?_erase] at hu
  split at hu
  · cases hu
  · next hne => exact ⟨hne, hu, List.mem_of_mem_erase hm⟩

theorem onSuspendTask_eq (hc : s.currentHolder = some p) (ht : s.taskOf p = some t) (hmark : s.markOf p = false)
    (hid : s.idOf p = some p) : s.onSuspendTask t = .ok (startNewProcessor {
      s.setHolder p { s.holders p with suspended := true } with
        suspendedHoldersByTaskId := s.suspendedHoldersByTaskId.set t p }) := by
  have hcur : s.currentTaskId = some t := currentTaskId_eq_some.mpr ⟨p, hc, ht⟩
  have hsome : (s.holders p).task.isSome = true := by
    obtain ⟨task, htask, -⟩ := Option.map_eq_some_iff.mp ht
    rw [htask]
    rfl
  have hinit : (s.holders p).processorId.isSome = true := by
    rw [show (s.holders p).processorId = some p from hid]
    rfl
  have hholds : (s.holders p).task.isSome = true ∧ (s.holders p).suspended = false ∧
      (s.holders p).processorId.isSome = true := ⟨hsome, hmark, hinit⟩
  unfold Agent.onSuspendTask
  split
  · next h => cases hc.symm.trans h
  · next q h =>
    cases hc.symm.trans h
    rw [if_pos hcur, Agent.suspend]
    dsimp only
    rw [if_pos hholds]
    rfl

section OnFailingProcessor

variable {task : Task}

theorem onFailingProcessor_current (hc : s.currentHolder = some p) (hreg : s.holdersByProcessorId.get? p = some p)
    (htask : (s.holders p).task = some task) (hsus : s.suspendedHoldersByTaskId.get? task.taskId = none) :
    s.onFailingProcessor p = .ok ((s.killProcessor p).startNewProcessor, some task) := by
  have hnone : s.currentHolder ≠ none := by
    rw [hc]
    exact Option.some_ne_none p
  have hrestart : restartCurrentProcessor (s.endTask p) = .ok (s.killProcessor p).startNewProcessor := by
    rw [restartCurrentProcessor, show (s.endTask p).currentHolder = some p from hc, ← killProcessor_endTask]
  rw [onFailingProcessor, if_neg hnone, hreg]
  dsimp only
  rw [htask]
  dsimp only
  rw [Dict.erase_of_get?_none hsus]
  refine (if_pos hc).trans ?_
  exact congrArg (· >>= fun s => .ok (s, some task)) hrestart

theorem onFailingProcessor_suspended (hnone : s.currentHolder ≠ none) (hc : s.currentHolder ≠ some p)
    (hreg : s.holdersByProcessorId.get? p = some p) (htask : (s.holders p).task = some task) :
    s.onFailingProcessor p = .ok (killProcessor { s with
      suspendedHoldersByTaskId := s.suspendedHoldersByTaskId.erase task.taskId } p, some task) := by
  rw [onFailingProcessor, if_neg hnone, hreg]
  dsimp only
  rw [htask]
  refine (if_neg hc).trans ?_
  rw [killProcessor_endTask]
  rfl

theorem onFailingProcessor_idle (hnone : s.currentHolder ≠ none) (hc : s.currentHolder ≠ some p)
    (hreg : s.holdersByProcessorId.get? p = some p) (htask : (s.holders p).task = none) :
    s.onFailingProcessor p = .ok (s.killProcessor p, none) := by
  rw [onFailingProcessor, if_neg hnone, hreg]
  dsimp only
  rw [htask]
  exact if_neg hc

end OnFailingProcessor

section Locked

variable (hs : s.Sound) (hl : s.Locked)

include hs hl

/-- The task of the current process is not queued. -/
theorem Locked.current_absent (hc : s.currentHolder = some p) (ht : s.taskOf p = some t) :
    s.queuedTaskIdToTask.contains t = false := by
  by_contra hcon
  rw [Bool.not_eq_false] at hcon
  rcases hl.listed.resumable t hcon (hs.wf.held.held p t ht).1 with hsus | hbeat
  · rw [hs.wf.held.alone p t hc ht] at hsus
    cases hsus
  · refine (hs.wf.held.reported t ?_).2 p ht
    rw [Agent.reported]
    exact List.mem_append_left _ (by simpa using hbeat)

theorem Locked.enqueueTask {task : Task} (hnew : s.queuedTaskIdToTask.contains task.taskId = false)
    (isSuspended : Bool) : Ends InvalidPriority (s.enqueueTask task isSuspended) fun s' => ∃ queue,
      queue.Wf ∧ s' = { s with
        queuedTaskIds := queue, queuedTaskIdToTask := s.queuedTaskIdToTask.set task.taskId task } := by
  refine Ends.bind (getTaskPriority_ends task) fun priority _ => ?_
  refine ⟨_, StablePriorityQueue.wf_insert hl.listed.queue ?_ _, rfl⟩
  have hboth := hs.queued.both task.taskId
  rw [show (s.queuedTaskIdToTask.get? task.taskId).isSome = false from hnew] at hboth
  exact Option.not_isSome_iff_eq_none.mp (by rw [← hboth]; exact Bool.false_ne_true)

theorem Locked.onSuspendTask {task : Task} {queue : StablePriorityQueue TaskID} (hqueue : queue.Wf)
    (hc : s.currentHolder = some p) (ht : s.taskOf p = some task.taskId) :
    Ends InvalidPriority (onSuspendTask { s with
      queuedTaskIds := queue, queuedTaskIdToTask := s.queuedTaskIdToTask.set task.taskId task } task.taskId) Locked := by
  have hid := hs.wf.identified.working p _ ht
  have hlt := hs.wf.held.current p hc
  rw [onSuspendTask_eq (s := { s with
    queuedTaskIds := queue, queuedTaskIdToTask := s.queuedTaskIdToTask.set task.taskId task }) hc ht
      (hl.marked.current p hc) hid]
  refine ⟨⟨hqueue, fun u hu hm => ?_⟩, ?_, ?_, fun h => by cases h⟩
  · show ((s.suspendedHoldersByTaskId.set task.taskId p).get? u).isSome ∨ _
    rw [Dict.get?_set]
    split
    · exact .inl rfl
    · next hne =>
      have hu' : (s.queuedTaskIdToTask.set task.taskId task).contains u = true := hu
      rw [Dict.contains, Dict.get?_set, if_neg hne] at hu'
      exact hl.listed.resumable u hu' hm
  · refine ⟨fun q hq => ?_, fun u q hq => ?_⟩
    · cases hq
      rw [markOf_startNewProcessor, if_pos rfl]
    · have hq' : (s.suspendedHoldersByTaskId.set task.taskId p).get? u = some q := hq
      rw [Dict.get?_set] at hq'
      have hset := markOf_setHolder s p q { s.holders p with suspended := true }
      have hold : q < s.started ∧ (q = p ∨ s.markOf q = true) := by
        split at hq'
        · cases hq'
          exact ⟨hlt, .inl rfl⟩
        · exact ⟨(hs.wf.held.suspended u q hq').2.2, .inr (hl.marked.suspended u q hq')⟩
      refine (markOf_startNewProcessor _ q).trans ((if_neg (Nat.ne_of_lt hold.1)).trans (hset.trans ?_))
      split
      · rfl
      · next hne => exact hold.2.resolve_left hne
  · exact hl.guarded.replace (not_ready_of_task hc ht) (not_ready_start _) rfl rfl

theorem Locked.onTaskNew {task : Task} (hnew : s.queuedTaskIdToTask.contains task.taskId = false)
    (hproc : task.taskId ∉ s.processingTaskIds) : Ends InvalidPriority (s.onTaskNew task) Locked := by
  have hsound := (hs.wf.enqueueTask task false).and (hs.queued.enqueueTask (a := some task.taskId) (.inl rfl) false)
  refine Ends.bind ((hl.enqueueTask hs hnew false).and hsound) ?_
  rintro _ ⟨⟨queue, hqueue, rfl⟩, hwf, hkeep⟩
  have hs₁ : Sound { s with
      queuedTaskIds := queue, queuedTaskIdToTask := s.queuedTaskIdToTask.set task.taskId task } := ⟨hwf, hkeep.queued⟩
  have hl₁ : Locked { s with
      queuedTaskIds := queue, queuedTaskIdToTask := s.queuedTaskIdToTask.set task.taskId task } := by
    refine ⟨⟨hqueue, fun u hu hm => ?_⟩, hl.marked.mono rfl (fun _ _ h => h) fun _ => rfl,
      hl.guarded.congr (ready_congr rfl (fun _ _ => rfl) fun _ _ => rfl) rfl rfl, hl.asleep⟩
    have hne : u ≠ task.taskId := fun he => hproc (he ▸ hm)
    rw [Dict.contains, Dict.get?_set, if_neg hne] at hu
    exact hl.listed.resumable u hu hm
  unfold suspendIfPriorityIsHigher
  split
  · exact hl₁
  next current hcurrent =>
  refine Ends.bind (getTaskPriority_ends task) fun newPriority _ => ?_
  refine Ends.bind (getTaskPriority_ends current) fun currentPriority _ => ?_
  split
  · exact hl₁
  · obtain ⟨p, hc, htask⟩ := Option.bind_eq_some_iff.mp hcurrent
    have ht : taskOf { s with
        queuedTaskIds := queue, queuedTaskIdToTask := s.queuedTaskIdToTask.set task.taskId task } p =
          some current.taskId := by
      rw [taskOf, htask]
      rfl
    refine Ends.bind (hl₁.enqueueTask hs₁ (hl₁.current_absent hs₁ hc ht) true) ?_
    rintro _ ⟨queue', hqueue', rfl⟩
    exact hl₁.onSuspendTask hs₁ hqueue' hc ht

omit hs in
theorem Locked.send {message : AgentMessage} (hm : ∀ p task, message ≠ .toProcessor p task) :
    (s.send message).Locked := by
  refine ⟨⟨hl.listed.queue, hl.listed.resumable⟩, hl.marked.mono rfl (fun _ _ h => h) fun _ => rfl,
    hl.guarded.congr (ready_congr rfl (fun _ _ => rfl) fun _ _ => rfl) rfl rfl, fun hnone => ?_⟩
  obtain ⟨hproc, hstarted, hsent⟩ := hl.asleep hnone
  refine ⟨hproc, hstarted, fun p task hp => ?_⟩
  rcases List.mem_append.mp hp with hp | hp
  · exact hsent p task hp
  · exact hm p task (List.mem_singleton.mp hp).symm

theorem Locked.restart (hc : s.currentHolder = some p) (ht : s.taskOf p = some t) {s₁ : Agent}
    (hlisted : s₁.Listed) (hholders : s₁.holders = s.holders)
    (hsuspended : s₁.suspendedHoldersByTaskId = s.suspendedHoldersByTaskId) (hstarted : s₁.started = s.started)
    (hlock : s₁.canAcceptTaskLock = s.canAcceptTaskLock) (hd : s₁.dispatcher = s.dispatcher)
    (hcur : s₁.currentHolder = s.currentHolder) : (s₁.killProcessor p).startNewProcessor.Locked := by
  have hmarked : (s₁.killProcessor p).Marked := by
    refine hl.marked.mono hcur (fun t q hq => hsuspended ▸ hq) fun q => ?_
    rw [markOf_killProcessor, markOf, markOf, hholders]
  refine ⟨⟨hlisted.queue, hlisted.resumable⟩, hmarked.start fun t q hq => ?_, ?_, fun h => by cases h⟩
  · have hq' : s.suspendedHoldersByTaskId.get? t = some q := hsuspended ▸ hq
    exact hstarted ▸ (hs.wf.held.suspended t q hq').2.2
  · exact hl.guarded.replace (not_ready_of_task hc ht) (not_ready_start _) hlock hd

theorem Locked.drop (hsus : s.suspendedHoldersByTaskId.get? t = some p) {s₁ : Agent} (hlisted : s₁.Listed)
    (hholders : s₁.holders = s.holders) (hsuspended : s₁.suspendedHoldersByTaskId = s.suspendedHoldersByTaskId.erase t)
    (hlock : s₁.canAcceptTaskLock = s.canAcceptTaskLock) (hd : s₁.dispatcher = s.dispatcher)
    (hcur : s₁.currentHolder = s.currentHolder) : (s₁.killProcessor p).Locked := by
  obtain ⟨-, hpc, hlt⟩ := hs.wf.held.suspended t p hsus
  refine ⟨⟨hlisted.queue, hlisted.resumable⟩, ?_, ?_, fun hnone => ?_⟩
  · refine hl.marked.mono hcur (fun u q hq => ?_) fun q => ?_
    · have hq' : (s.suspendedHoldersByTaskId.erase t).get? u = some q := hsuspended ▸ hq
      rw [Dict.get?_erase] at hq'
      split at hq'
      · cases hq'
      · exact hq'
    · rw [markOf_killProcessor, markOf, markOf, hholders]
  · refine hl.guarded.congr (ready_congr hcur (fun q hq => ?_) fun q hq => ?_) hlock hd
    · rw [idOf_killProcessor, idOf, idOf, hholders]
    · have hne : q ≠ p := fun he => hpc (he ▸ hq)
      rw [taskOf_killProcessor, if_neg hne, taskOf, taskOf, hholders]
  · obtain ⟨-, hstarted, -⟩ := hl.asleep (hcur.symm.trans hnone)
    omega

theorem Locked.onCancelProcessor (ht : t ∈ s.processingTaskIds) :
    Ends InvalidPriority (onCancelProcessor { s with processingTaskIds := s.processingTaskIds.erase t } t) Locked := by
  have hlisted : ∀ suspended : Dict TaskID Nat,
      (∀ u, u ≠ t → suspended.get? u = s.suspendedHoldersByTaskId.get? u) → Listed { s with
        processingTaskIds := s.processingTaskIds.erase t, suspendedHoldersByTaskId := suspended } := by
    intro suspended hsus
    refine hl.listed.drop t hl.listed.queue (fun u hu hm => ⟨?_, hu, List.mem_of_mem_erase hm⟩) hsus fun _ _ h => h
    rintro rfl
    exact hs.wf.held.nodup.not_mem_erase hm
  unfold Agent.onCancelProcessor
  split
  · next hnone =>
    rw [(hl.asleep hnone).1] at ht
    cases ht
  split
  · next hcur =>
    obtain ⟨p, hc, htp⟩ := currentTaskId_eq_some.mp hcur
    rw [restartCurrentProcessor]
    split
    · next h => cases hc.symm.trans h
    · next q h =>
      cases hc.symm.trans h
      exact hl.restart hs hc htp (hlisted _ fun _ _ => rfl) rfl rfl rfl rfl rfl rfl
  split
  · next p hsus =>
    refine hl.drop hs hsus (hlisted _ fun u hu => ?_) rfl rfl rfl rfl rfl
    exact Dict.get?_erase_ne _ hu
  · refine ⟨hlisted _ fun _ _ => rfl, hl.marked.mono rfl (fun _ _ h => h) fun _ => rfl,
      hl.guarded.congr (ready_congr rfl (fun _ _ => rfl) fun _ _ => rfl) rfl rfl, fun hnone => ?_⟩
    rw [(hl.asleep hnone).1] at ht
    cases ht

theorem Locked.onCancelTask (cancel : TaskCancel) : Ends InvalidPriority (s.onCancelTask cancel) Locked := by
  have hconfirm : ∀ {s' : Agent}, s'.Locked → ∀ confirm, (s'.send (.taskCancelConfirm confirm)).Locked :=
    fun h _ => h.send fun p task he => by cases he
  unfold Agent.onCancelTask
  dsimp only
  split
  · exact hconfirm hl _
  split
  · exact hconfirm hl _
  split
  · next hmem =>
    refine Ends.bind (hl.onCancelProcessor hs hmem) fun s' hl' => ?_
    exact hconfirm hl' _
  · have hremoved : Locked { s with
        queuedTaskIds := s.queuedTaskIds.remove cancel.taskId
        queuedTaskIdToTask := s.queuedTaskIdToTask.erase cancel.taskId } := by
      refine ⟨?_, hl.marked.mono rfl (fun _ _ h => h) fun _ => rfl,
        hl.guarded.congr (ready_congr rfl (fun _ _ => rfl) fun _ _ => rfl) rfl rfl, hl.asleep⟩
      refine hl.listed.drop cancel.taskId (StablePriorityQueue.remove_wf hl.listed.queue _).1 (fun u hu hm => ?_)
        (fun _ _ => rfl) fun _ _ h => h
      rw [Dict.contains, Dict.get?_erase] at hu
      split at hu
      · cases hu
      · next hne => exact ⟨hne, hu, hm⟩
    exact hconfirm hremoved _

theorem Locked.onTaskResult (hsent : s.wasSent p t = true) (hp : ∀ q, s.taskOf q = some t → q = p)
    (resultType : TaskResultType) : Ends InvalidPriority (s.onTaskResult p t resultType) Locked := by
  unfold Agent.onTaskResult
  split
  · next hnone =>
    obtain ⟨message, hm, hsent⟩ := List.any_eq_true.mp hsent
    cases message with
    | toProcessor q task => exact absurd hm ((hl.asleep hnone).2.2 q task)
    | taskCancelConfirm confirm => cases hsent
    | taskResult taskId resultType => cases hsent
    | objectCreated source => cases hsent
  next c hc =>
  split
  · next hcur =>
    obtain ⟨q, hq, htask⟩ := currentTaskId_eq_some.mp hcur
    cases hc.symm.trans hq
    have hid := hs.wf.identified.working c t htask
    obtain rfl := hp c htask
    obtain ⟨hd, hlock⟩ := hl.guarded.busy (not_ready_of_task hc htask)
    have hq : (s.endTask c).Queued := ⟨hs.queued.located, hs.queued.both, hs.queued.named⟩
    have hresult : (s.endTask c).onResult t resultType = _ := onResult_eq hq (hs.wf.held.held c t htask).1 resultType
    rw [if_pos (show (s.holders c).processorId = some c from hid), hresult]
    refine Ends.bind (P := (· = _)) rfl ?_
    rintro _ rfl
    rw [release_eq (s := ((s.endTask c).finishTask t).send (.taskResult t resultType)) hlock]
    refine ⟨hl.listed.finish rfl rfl rfl (fun _ _ => rfl) fun _ _ h => h,
      hl.marked.mono rfl (fun _ _ h => h) fun q => ?_,
      .released ⟨c, hc, ?_, ?_⟩ rfl hd,
      fun hnone => by cases hc.symm.trans hnone⟩
    · refine (markOf_setHolder s c q { s.holders c with task := none }).trans ?_
      split
      · next hqc =>
        rw [hqc]
        rfl
      · rfl
    · refine (idOf_setHolder s c c { s.holders c with task := none }).trans ?_
      rw [if_pos rfl]
      exact hid
    · refine (taskOf_setHolder s c c { s.holders c with task := none }).trans ?_
      rw [if_pos rfl]
      rfl
  · split
    · next q hsus =>
      have htask := (hs.wf.held.suspended t q hsus).1
      have hid := hs.wf.identified.working q t htask
      obtain rfl := hp q htask
      have hq : (killProcessor { s with suspendedHoldersByTaskId := s.suspendedHoldersByTaskId.erase t } q).Queued :=
        ⟨hs.queued.located, hs.queued.both, hs.queued.named⟩
      dsimp only
      rw [if_pos (show (s.holders q).processorId = some q from hid), killProcessor_endTask,
        onResult_eq hq (hs.wf.held.held q t htask).1]
      have hlisted : Listed (finishTask { s with
          suspendedHoldersByTaskId := s.suspendedHoldersByTaskId.erase t } t) := by
        refine hl.listed.finish rfl rfl rfl (fun u hu => ?_) fun _ _ h => h
        exact Dict.get?_erase_ne _ hu
      exact Locked.send (hl.drop hs hsus hlisted rfl rfl rfl rfl rfl) fun p task he => by cases he
    · exact hl

/-- A processor that is registered dies, other than an idle one that is the current one. -/
theorem Locked.processorDied (hbeat : s.heartbeat = none) (hreg : s.holdersByProcessorId.contains p = true)
    (hidle : s.currentHolder = some p → s.taskOf p ≠ none) :
    Ends InvalidPriority (s.onFailingProcessor p) fun r => Locked { r.1 with heartbeat := r.2 } := by
  obtain ⟨q, hown⟩ := Option.isSome_iff_exists.mp hreg
  obtain rfl := (hs.wf.identified.own q p (hs.wf.identified.entries p q hown)).1
  have hlt := (hs.wf.identified.own p p (hs.wf.identified.entries p p hown)).2
  have hnone : s.currentHolder ≠ none := by
    intro hnone
    obtain ⟨-, hstarted, -⟩ := hl.asleep hnone
    omega
  cases htask : (s.holders p).task with
  | none =>
    have ht : s.taskOf p = none := by rw [taskOf, htask]; rfl
    have hc : s.currentHolder ≠ some p := fun hc => hidle hc ht
    rw [onFailingProcessor_idle hnone hc hown htask]
    refine ⟨⟨hl.listed.queue, fun u hu hm => ?_⟩, hl.marked.mono rfl (fun _ _ h => h) fun q => ?_,
      hl.guarded.congr (ready_congr rfl (fun q _ => ?_) fun q hq => ?_) rfl rfl, fun h => absurd h hnone⟩
    · exact (hl.listed.resumable u hu hm).imp_right fun h => by rw [hbeat] at h; cases h
    · exact markOf_killProcessor s p q
    · exact idOf_killProcessor s p q
    · refine (taskOf_killProcessor s p q).trans (if_neg ?_)
      rintro rfl
      exact hc hq
  | some task =>
    have ht : s.taskOf p = some task.taskId := by rw [taskOf, htask]; rfl
    have hbeat' : ∀ u, u ∉ s.heartbeat.map (·.taskId) := by
      intro u hu
      rw [hbeat] at hu
      cases hu
    rcases (hs.wf.held.held p _ ht).2 with hc | hsus
    · rw [onFailingProcessor_current hc hown htask (hs.wf.held.alone p _ hc ht)]
      have hlisted : Listed { s with heartbeat := some task } :=
        ⟨hl.listed.queue, fun u hu hm => .inl ((hl.listed.resumable u hu hm).resolve_right (hbeat' u))⟩
      exact hl.restart hs hc ht hlisted rfl rfl rfl rfl rfl rfl
    · rw [onFailingProcessor_suspended hnone (hs.wf.held.suspended _ p hsus).2.1 hown htask]
      have hlisted : Listed { s with
          suspendedHoldersByTaskId := s.suspendedHoldersByTaskId.erase task.taskId, heartbeat := some task } := by
        refine ⟨hl.listed.queue, fun u hu hm => ?_⟩
        by_cases hut : u = task.taskId
        · exact .inr (by simp [hut])
        · refine .inl ?_
          rw [Dict.get?_erase_ne _ hut]
          exact (hl.listed.resumable u hu hm).resolve_right (hbeat' u)
      exact hl.drop hs hsus hlisted rfl rfl rfl rfl rfl

omit hs in
theorem Locked.onTask {task : Task} {queue : StablePriorityQueue TaskID} (hqueue : queue.Wf)
    (hd : s.dispatcher = .get) (hname : task.taskId = t) :
    Ends InvalidPriority (onTask { s with
      queuedTaskIds := queue
      queuedTaskIdToTask := s.queuedTaskIdToTask.erase t
      processingTaskIds := s.processingTaskIds ++ [t] } task) fun s' => s'.done.Locked := by
  have hget : s.dispatcher ≠ .waitUntilCanAcceptTask := by
    rw [hd]
    exact fun h => by cases h
  obtain ⟨hlock, c, hc, hid, htask⟩ := hl.guarded.handing hget
  have hidle : (s.holders c).task = none := Option.map_eq_none_iff.mp htask
  unfold Agent.onTask
  split
  · next h => cases hc.symm.trans h
  next q h =>
  cases hc.symm.trans h
  split
  · next h => cases hid.symm.trans h
  next i hi =>
  rw [if_pos ⟨hlock, hidle⟩]
  refine ⟨?_, hl.marked.mono rfl (fun _ _ h => h) fun q => ?_, ⟨fun _ => ⟨fun _ => ?_, fun _ => hlock⟩, fun h => ?_⟩,
    fun hnone => ?_⟩
  · refine hl.listed.drop t hqueue (fun u hu hm => ?_) (fun _ _ => rfl) fun _ _ h => h
    have hu' : (s.queuedTaskIdToTask.erase t).contains u = true := hu
    have hm' : u ∈ s.processingTaskIds ++ [t] := hm
    rw [Dict.contains, Dict.get?_erase] at hu'
    split at hu'
    · cases hu'
    · next hne =>
      refine ⟨hne, hu', (List.mem_append.mp hm').resolve_right fun hut => hne (List.mem_singleton.mp hut)⟩
  · refine (markOf_setHolder s c q { s.holders c with task := some task }).trans ?_
    split
    · next hqc =>
      rw [hqc]
      rfl
    · rfl
  · refine not_ready_of_task (t := t) hc ?_
    refine (taskOf_setHolder s c c { s.holders c with task := some task }).trans ?_
    rw [if_pos rfl, ← hname]
    rfl
  · exact absurd rfl h
  · cases hc.symm.trans hnone

/-- A task that is suspended is resumed, or its process turns out to be dead. -/
theorem Locked.onResumeTask {queue : StablePriorityQueue TaskID} (hqueue : queue.Wf) (hd : s.dispatcher = .get)
    (hsus : s.suspendedHoldersByTaskId.get? t = some p) (resumes : Bool) :
    Ends InvalidPriority (onResumeTask { s with
      queuedTaskIds := queue, queuedTaskIdToTask := s.queuedTaskIdToTask.erase t } t resumes) Locked := by
  have hget : s.dispatcher ≠ .waitUntilCanAcceptTask := by
    rw [hd]
    exact fun h => by cases h
  obtain ⟨hlock, c, hc, hid, hidle⟩ := hl.guarded.handing hget
  obtain ⟨htp, hpc, hlt⟩ := hs.wf.held.suspended t p hsus
  obtain ⟨task, htask, rfl⟩ := Option.map_eq_some_iff.mp htp
  have hinit : s.currentProcessorIsInitialized = true := by
    rw [currentProcessorIsInitialized, hc, Option.any_some, show (s.holders c).processorId = some c from hid]
    rfl
  have hnone : ¬ s.currentTask.isSome = true := by
    rw [currentTask, hc, Option.bind_some, Option.map_eq_none_iff.mp hidle]
    exact Bool.false_ne_true
  have hpaused : (s.holders p).task.isSome = true ∧ (s.holders p).suspended = true := by
    rw [htask]
    exact ⟨rfl, hl.marked.suspended _ p hsus⟩
  have hcp : c ≠ p := fun he => hpc (he ▸ hc)
  have hlisted : Listed { s with
      queuedTaskIds := queue
      queuedTaskIdToTask := s.queuedTaskIdToTask.erase task.taskId
      suspendedHoldersByTaskId := s.suspendedHoldersByTaskId.erase task.taskId } := by
    refine hl.listed.drop task.taskId hqueue (fun u hu hm => ?_) (fun u hu => Dict.get?_erase_ne _ hu) fun _ _ h => h
    rw [Dict.contains, Dict.get?_erase] at hu
    split at hu
    · cases hu
    · next hne => exact ⟨hne, hu, hm⟩
  unfold Agent.onResumeTask
  refine (congrArg (Ends InvalidPriority · Locked) ((if_pos ⟨hlock, hinit⟩).trans (if_neg hnone))).mpr ?_
  dsimp only
  rw [hsus]
  dsimp only [Agent.resume]
  rw [if_pos hpaused]
  cases resumes with
  | true =>
    refine Ends.bind (P := (· = (_, true))) rfl ?_
    rintro _ rfl
    rw [if_pos rfl]
    split
    · next h => cases hc.symm.trans h
    next q h =>
    cases hc.symm.trans h
    have hmark : ∀ q, (killProcessor (setHolder { s with
        queuedTaskIds := queue
        queuedTaskIdToTask := s.queuedTaskIdToTask.erase task.taskId
        suspendedHoldersByTaskId := s.suspendedHoldersByTaskId.erase task.taskId } p
          { s.holders p with suspended := false }) c).markOf q = if q = p then false else s.markOf q := by
      intro q
      rw [markOf_killProcessor, markOf_setHolder]
      rfl
    refine ⟨⟨hlisted.queue, hlisted.resumable⟩, ⟨fun q hq => ?_, fun u q hq => ?_⟩,
      ⟨fun _ => ⟨fun _ => ?_, fun _ => hlock⟩, fun h => absurd rfl h⟩, fun h => by cases h⟩
    · cases hq
      exact (hmark p).trans (if_pos rfl)
    · have hq' : (s.suspendedHoldersByTaskId.erase task.taskId).get? u = some q := hq
      rw [Dict.get?_erase] at hq'
      split at hq'
      · cases hq'
      next hne =>
      have hqp : q ≠ p := by
        rintro rfl
        exact hne (Option.some.inj ((hs.wf.held.suspended u q hq').1.symm.trans htp))
      exact (hmark q).trans ((if_neg hqp).trans (hl.marked.suspended u q hq'))
    · refine not_ready_of_task (t := task.taskId) rfl ?_
      refine (taskOf_killProcessor _ c p).trans ((if_neg (Ne.symm hcp)).trans ?_)
      refine (taskOf_setHolder _ p p _).trans ((if_pos rfl).trans ?_)
      rw [htask]
      rfl
  | false =>
    have hreg := hs.wf.identified.suspended _ p hsus
    have hidp : (s.holders p).processorId = some p := hs.wf.identified.working p _ htp
    have hfail := onFailingProcessor_suspended (s := { s with
      queuedTaskIds := queue
      queuedTaskIdToTask := s.queuedTaskIdToTask.erase task.taskId
      suspendedHoldersByTaskId := s.suspendedHoldersByTaskId.erase task.taskId })
      (by rw [hc]; exact Option.some_ne_none c) hpc hreg htask
    refine Ends.bind (P := (· = (_, false))) rfl ?_
    rintro _ rfl
    rw [if_neg Bool.false_ne_true]
    dsimp only
    rw [hidp]
    refine (congrArg (fun r => Ends InvalidPriority (r >>= _) Locked) hfail).mpr ?_
    have htwice : (s.suspendedHoldersByTaskId.erase task.taskId).erase task.taskId =
        s.suspendedHoldersByTaskId.erase task.taskId :=
      Dict.erase_of_get?_none (Dict.get?_erase_self _ _)
    have hdrop := hl.drop hs hsus hlisted rfl rfl rfl rfl rfl
    dsimp only
    rw [htwice]
    refine ⟨⟨hdrop.listed.queue, hdrop.listed.resumable⟩, hdrop.marked.mono rfl (fun _ _ h => h) fun _ => rfl,
      ⟨fun h => (by cases h), fun _ => ?_⟩, hdrop.asleep⟩
    exact hdrop.guarded.handing hget

/-- The dispatcher takes a task whose failure is not being stored. -/
theorem Locked.processingTask (hd : s.dispatcher = .get)
    (hhead : ∀ e ∈ s.queuedTaskIds.queue.head?, e.2 ∉ s.heartbeat.map (·.taskId)) (resumes : Bool) :
    Ends InvalidPriority (s.processingTask resumes) Locked := by
  unfold Agent.processingTask
  split
  · exact hl
  next t queue hget =>
  obtain ⟨hqueue, hlocated, -⟩ := StablePriorityQueue.get_eq hl.listed.queue hget
  have hcon : s.queuedTaskIdToTask.contains t = true := (hs.queued.both t).trans hlocated
  dsimp only
  split
  · next hnone =>
    rw [Dict.contains, hnone] at hcon
    cases hcon
  next task htask =>
  split
  · exact Ends.bind (hl.onTask hqueue hd (hs.queued.named t task htask)) fun s' h => h
  · next hmem =>
    obtain ⟨k, hq, -, -⟩ := StablePriorityQueue.get_some hget
    have hnot := hhead (k, t) (by rw [hq]; exact rfl)
    have hsus := (hl.listed.resumable t hcon (Decidable.not_not.mp hmem)).resolve_right hnot
    obtain ⟨p, hp⟩ := Option.isSome_iff_exists.mp hsus
    exact hl.onResumeTask hs hqueue hd hp resumes

theorem Locked.heartbeatStored {task : Task} (hbeat : s.heartbeat = some task) :
    Ends InvalidPriority (onStored { s with heartbeat := none } task) Locked := by
  have hrep : task.taskId ∈ s.reported := by
    rw [Agent.reported, hbeat]
    exact List.mem_cons_self
  have hmem := (hs.wf.held.reported _ hrep).1
  have hq : Queued (Agent.send { s with heartbeat := none } (.objectCreated task.source)) :=
    ⟨hs.queued.located, hs.queued.both, hs.queued.named⟩
  rw [onStored, onResult_eq hq hmem]
  have hfinished : Locked (finishTask { s with heartbeat := none } task.taskId) := by
    refine ⟨hl.listed.finish rfl rfl rfl (fun _ _ => rfl) fun u hne hu => ?_,
      hl.marked.mono rfl (fun _ _ h => h) fun _ => rfl,
      hl.guarded.congr (ready_congr rfl (fun _ _ => rfl) fun _ _ => rfl) rfl rfl, fun hnone => ?_⟩
    · rw [hbeat] at hu
      exact absurd (by simpa using hu) (Ne.symm hne)
    · rw [(hl.asleep hnone).1] at hmem
      cases hmem
  have hsent : Locked (finishTask (Agent.send { s with heartbeat := none } (.objectCreated task.source)) task.taskId) :=
    hfinished.send fun p task he => by cases he
  exact hsent.send fun p task he => by cases he

theorem Locked.dispatcherStored {task : Task} (hd : s.dispatcher = .storing task) :
    Ends InvalidPriority (s.done.onStored task >>= release) Locked := by
  have hrep : task.taskId ∈ s.reported := by
    rw [Agent.reported, hd]
    exact List.mem_append_right _ List.mem_cons_self
  have hmem := (hs.wf.held.reported _ hrep).1
  have hq : Queued (s.done.send (.objectCreated task.source)) :=
    ⟨hs.queued.located, hs.queued.both, hs.queued.named⟩
  have hwait : s.dispatcher ≠ .waitUntilCanAcceptTask := by
    rw [hd]
    exact fun h => by cases h
  obtain ⟨hlock, hready⟩ := hl.guarded.handing hwait
  obtain ⟨c, hc, hid, hidle⟩ := hready
  rw [onStored, onResult_eq hq hmem]
  refine Ends.bind (P := (· = _)) rfl ?_
  rintro _ rfl
  rw [release_eq (s := (finishTask (s.done.send (.objectCreated task.source)) task.taskId).send
    (.taskResult task.taskId .failed)) hlock]
  exact ⟨hl.listed.finish rfl rfl rfl (fun _ _ => rfl) fun _ _ h => h,
    hl.marked.mono rfl (fun _ _ h => h) fun _ => rfl, .released ⟨c, hc, hid, hidle⟩ rfl rfl,
    fun hnone => by cases hc.symm.trans hnone⟩

theorem Locked.onProcessorInitialized (hi : p < s.started) (hnew : p ∉ s.announced) :
    Ends InvalidPriority (onProcessorInitialized { s with announced := p :: s.announced } p) Locked := by
  obtain ⟨hc, hid⟩ := hs.wf.identified.pending p hi hnew
  have htask : s.taskOf p = none := by
    cases ht : s.taskOf p with
    | none => rfl
    | some t => cases hid.symm.trans (hs.wf.identified.working p t ht)
  have hbusy : ¬ s.Ready := by
    rintro ⟨q, hq, hidq, -⟩
    cases hc.symm.trans hq
    cases hid.symm.trans hidq
  obtain ⟨hd, hlock⟩ := hl.guarded.busy hbusy
  rw [onProcessorInitialized_eq (s := { s with announced := p :: s.announced }) hc hid]
  rw [release_eq (s := setHolder { s with
    announced := p :: s.announced
    holdersByProcessorId := s.holdersByProcessorId.set p p } p { s.holders p with processorId := some p }) hlock]
  refine ⟨⟨hl.listed.queue, hl.listed.resumable⟩, hl.marked.mono rfl (fun _ _ h => h) fun q => ?_,
    .released ⟨p, hc, ?_, ?_⟩ rfl hd, fun hnone => by cases hc.symm.trans hnone⟩
  · refine (markOf_setHolder s p q { s.holders p with processorId := some p }).trans ?_
    split
    · next hqp =>
      rw [hqp]
      rfl
    · rfl
  · refine (idOf_setHolder s p p { s.holders p with processorId := some p }).trans ?_
    exact if_pos rfl
  · refine (taskOf_setHolder s p p { s.holders p with processorId := some p }).trans ?_
    rw [if_pos rfl]
    exact htask

theorem Locked.start (hnone : s.currentHolder = none) : s.startNewProcessor.Locked := by
  have hbusy : ¬ s.Ready := by
    rintro ⟨p, hc, -⟩
    cases hnone.symm.trans hc
  refine ⟨⟨hl.listed.queue, hl.listed.resumable⟩, hl.marked.start fun t p hp => (hs.wf.held.suspended t p hp).2.2,
    hl.guarded.replace hbusy (not_ready_start s) rfl rfl, fun h => by cases h⟩

end Locked

/-- A task arrives that the agent does not have, a forced cancel is not for a task whose failure
is being stored, a result comes from the process that has the task, no idle processor that is
the current one dies, and the dispatcher does not take a task whose failure is being stored. -/
def Orderly (s : Agent) : AgentEvent → Prop
  | .task task => s.queuedTaskIdToTask.contains task.taskId = false ∧ task.taskId ∉ s.processingTaskIds
  | .taskCancel cancel => cancel.force = true → cancel.taskId ∉ s.reported
  | .taskResult processorId taskId _ => ∀ p, s.taskOf p = some taskId → p = processorId
  | .processorDied processorId => s.holdersByProcessorId.contains processorId = true →
    s.currentHolder = some processorId → s.taskOf processorId ≠ none
  | .taskTaken _ => s.dispatcher = .get → ∀ e ∈ s.queuedTaskIds.queue.head?, e.2 ∉ s.heartbeat.map (·.taskId)
  | _ => True

theorem Locked.step (hs : s.Sound) (hl : s.Locked) {e : AgentEvent} (he : s.Orderly e) :
    Ends InvalidPriority (s.step e) Locked := by
  cases e with
  | storageConnected =>
    dsimp only [Agent.step]
    split
    · next hnone => exact hl.start hs hnone
    · exact hl
  | task task => exact hl.onTaskNew hs he.1 he.2
  | taskCancel cancel => exact hl.onCancelTask hs cancel
  | processorInitialized i =>
    dsimp only [Agent.step]
    split
    · next hi => exact hl.onProcessorInitialized hs hi.1 hi.2
    · exact hl
  | taskResult i t resultType =>
    dsimp only [Agent.step]
    split
    · next hsent => exact hl.onTaskResult hs hsent he resultType
    · exact hl
  | processorDied i =>
    dsimp only [Agent.step]
    split
    · next hdied => exact Ends.bind (hl.processorDied hs hdied.1 hdied.2 (he hdied.2)) fun r h => h
    · exact hl
  | heartbeatStored =>
    dsimp only [Agent.step]
    split
    · exact hl
    · next task hbeat => exact hl.heartbeatStored hs hbeat
  | lockAcquired =>
    dsimp only [Agent.step]
    split
    · next hfree =>
      have hready : s.Ready := by
        by_contra hbusy
        have hlock := (hl.guarded.waiting hfree.1).mpr hbusy
        cases hfree.2.symm.trans hlock
      exact ⟨⟨hl.listed.queue, hl.listed.resumable⟩, hl.marked.mono rfl (fun _ _ h => h) fun _ => rfl,
        ⟨fun h => (by cases h), fun _ => ⟨rfl, hready⟩⟩, hl.asleep⟩
    · exact hl
  | taskTaken resumes =>
    dsimp only [Agent.step]
    split
    · next hd => exact hl.processingTask hs hd (he hd) resumes
    · exact hl
  | dispatcherStored =>
    dsimp only [Agent.step]
    split
    · next task hd => exact hl.dispatcherStored hs hd
    · exact hl

theorem locked_new : new.Locked := by
  refine ⟨⟨StablePriorityQueue.wf_empty, ?_⟩, ⟨?_, ?_⟩, ⟨fun _ => ⟨fun _ => ?_, fun _ => rfl⟩, ?_⟩, fun _ => ?_⟩
  · exact fun t h => by cases h
  · exact fun p h => by cases h
  · exact fun t p h => by cases h
  · rintro ⟨p, h, -⟩
    cases h
  · exact fun h => absurd rfl h
  · exact ⟨rfl, rfl, fun p task h => by cases h⟩

/-- The dispatcher is not between taking the lock and its hand-over, or the lock is held exactly
while the current processor is not initialised or has a task. -/
def LockHeldWhileBusy (s : Agent) : Prop :=
  s.dispatcher = .waitUntilCanAcceptTask →
    (s.canAcceptTaskLock = true ↔ s.currentProcessorIsInitialized = false ∨ s.currentTask.isSome = true)

theorem Locked.lockHeldWhileBusy (hs : s.Sound) (hl : s.Locked) : s.LockHeldWhileBusy := by
  intro hd
  rw [hl.guarded.waiting hd]
  unfold Ready currentProcessorIsInitialized currentTask
  cases hc : s.currentHolder with
  | none => simp
  | some c =>
    have hid : (s.holders c).processorId.isSome = true ↔ s.idOf c = some c := by
      refine ⟨fun h => ?_, fun h => Option.isSome_iff_exists.mpr ⟨c, h⟩⟩
      obtain ⟨i, hi⟩ := Option.isSome_iff_exists.mp h
      exact (hs.wf.identified.own c i hi).1 ▸ hi
    have htask : s.taskOf c = none ↔ (s.holders c).task = none := Option.map_eq_none_iff
    by_cases hinit : s.idOf c = some c
    · simp [hid.mpr hinit, hinit, htask, Option.isSome_iff_ne_none]
    · have hinit' : (s.holders c).processorId.isSome = false := by
        rw [← Bool.not_eq_true, hid]
        exact hinit
      simp [hinit', hinit]

end Agent

open Agent

/-- In a run with orderly steps no assertion and no lookup fails, and outside a hand-over the lock
is held exactly while the current processor is not initialised or has a task. -/
theorem dispatch_lock_protocol (events : List AgentEvent) (h : Along Agent.step Orderly Agent.new events) :
    Ends (· = .valueError) (Agent.new.run events) LockHeldWhileBusy := by
  have hstep : ∀ (s : Agent) (e : AgentEvent), s.Sound ∧ s.Locked → s.Orderly e →
      Ends InvalidPriority (s.step e) fun s' => s'.Sound ∧ s'.Locked := by
    rintro s e ⟨hs, hl⟩ he
    have hsound := hs.step (e := e) fun cancel h hforce => by
      subst h
      exact he hforce
    exact ((hl.step hs he).and hsound).mono fun _ h => h.symm
  exact (Ends.foldlM hstep ⟨sound_new, locked_new⟩ h).mono fun s hs => hs.2.lockHeldWhileBusy hs.1

/-- A running task is suspended for one with a higher priority. -/
theorem dispatch_lock_protocol_suspend :
    Along Agent.step Orderly Agent.new [.storageConnected, .processorInitialized 0, .task (taskOfPriority 1 0),
      .lockAcquired, .taskTaken true, .task (taskOfPriority 2 1)] ∧
    ∃ s, Agent.new.run [.storageConnected, .processorInitialized 0, .task (taskOfPriority 1 0), .lockAcquired,
      .taskTaken true, .task (taskOfPriority 2 1)] = .ok s ∧ s.LockHeldWhileBusy := by
  have horderly : Along Agent.step Orderly Agent.new [.storageConnected, .processorInitialized 0,
      .task (taskOfPriority 1 0), .lockAcquired, .taskTaken true, .task (taskOfPriority 2 1)] := by
    refine .cons rfl trivial (.cons rfl trivial (.cons rfl ⟨rfl, by decide⟩ (.cons rfl trivial (.cons rfl ?_
      (.cons rfl ⟨rfl, by decide⟩ trivial)))))
    exact fun _ e _ h => by cases h
  exact ⟨horderly, _, rfl, (dispatch_lock_protocol _ horderly).of_eq rfl⟩

/-- When an idle processor dies, its successor is not initialised and the lock is free; and when
the dispatcher has the lock already, the next task finds no initialised processor. -/
theorem idle_processor_death_frees_lock :
    (∃ s, Agent.new.run [.storageConnected, .processorInitialized 0, .processorDied 0] = .ok s ∧
      ¬ s.LockHeldWhileBusy) ∧
    Agent.new.run [.storageConnected, .processorInitialized 0, .lockAcquired, .processorDied 0,
      .task (taskOfPriority 1 0), .taskTaken true] = .error .assertionError := by
  refine ⟨⟨_, rfl, fun h => ?_⟩, rfl⟩
  exact Bool.false_ne_true ((h rfl).mpr (.inl rfl))

end Scaler.Worker
