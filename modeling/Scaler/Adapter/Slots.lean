import Mathlib.Logic.Relation
import Scaler.Adapter.TaskManager
import Scaler.Policy.EvenLoadInvariant

/-! The slots of the adapter's task manager. Every permit of the semaphore is free, or belongs to a
task, or is in the hands of `process_task`, as long as no cancel takes a task for a queued one that
has left the queue. -/

namespace Scaler

open Collections

namespace Adapter

/-- What the tables and the coroutines say about one task. -/
@[ext] structure View where
  held : Prop
  waiting : Prop
  queued : Prop
  acquiring : Prop
  processing : Prop
  canceled : Prop
  running : Prop
  resolving : Prop
  executing : Prop
  bypassing : Prop
  canceling : Prop

/-- The tables agree about a task. -/
structure View.Ok (v : View) : Prop where
  waiting : v.waiting → v.held ∧ v.queued ∧ ¬v.acquiring ∧ ¬v.processing ∧ ¬v.canceled ∧ ¬v.running ∧ ¬v.resolving
  processing : v.processing → v.held ∧ ¬v.canceled ∧ ¬v.resolving ∧ (v.running ∨ v.executing ∨ v.bypassing)
  canceled : v.canceled → v.held ∧ v.running ∧ ¬v.acquiring ∧ ¬v.resolving
  running : v.running → v.held ∧ (v.processing ∨ v.canceled)
  resolving : v.resolving → v.held
  acquiring : v.acquiring → v.held ∧ v.queued
  executing : v.executing → v.processing ∧ v.acquiring ∧ ¬v.running
  bypassing : v.bypassing → v.processing ∧ ¬v.acquiring ∧ ¬v.running
  canceling : v.canceling → ¬v.queued ∧ (v.processing → v.running)

section

variable {v : View}

theorem View.Ok.enqueued (h : v.Ok) (hheld : ¬v.held) (hidle : ¬v.canceling) :
    View.Ok { v with held := True, waiting := True, queued := True } := by
  obtain ⟨_, _, _, _, _, _, _, _, _⟩ := h
  constructor <;> simp_all

theorem View.Ok.bypassed (h : v.Ok) (hheld : ¬v.held) (hidle : ¬v.canceling) :
    View.Ok { v with held := True, processing := True, bypassing := True } := by
  obtain ⟨_, _, _, _, _, _, _, _, _⟩ := h
  constructor <;> simp_all

theorem View.Ok.dropped (h : v.Ok) (hwaiting : v.waiting) :
    View.Ok { v with held := False, waiting := False, queued := False } := by
  obtain ⟨_, _, _, _, _, _, _, _, _⟩ := h
  constructor <;> simp_all

theorem View.Ok.cancelRequested (h : v.Ok) (hqueued : ¬v.queued) (hrunning : v.running) :
    View.Ok { v with canceling := True } := by
  obtain ⟨_, _, _, _, _, _, _, _, _⟩ := h
  constructor <;> simp_all

theorem View.Ok.canceledRunning (h : v.Ok) (hprocessing : v.processing) (hcanceling : v.canceling) :
    View.Ok { v with processing := False, canceled := True, canceling := False } := by
  obtain ⟨_, _, _, _, _, _, _, _, _⟩ := h
  constructor <;> simp_all

theorem View.Ok.bypassRegistered (h : v.Ok) (hbypassing : v.bypassing) (hidle : ¬v.canceling) :
    View.Ok { v with running := True, bypassing := False } := by
  obtain ⟨_, _, _, _, _, _, _, _, _⟩ := h
  constructor <;> simp_all

theorem View.Ok.dispatched (h : v.Ok) (hwaiting : v.waiting) :
    View.Ok { v with waiting := False, acquiring := True, processing := True, executing := True } := by
  obtain ⟨_, _, _, _, _, _, _, _, _⟩ := h
  constructor <;> simp_all

theorem View.Ok.executionRegistered (h : v.Ok) (hexecuting : v.executing) :
    View.Ok { v with running := True, executing := False } := by
  obtain ⟨_, _, _, _, _, _, _, _, _⟩ := h
  constructor <;> simp_all

theorem View.Ok.released (h : v.Ok) (hprocessing : ¬v.processing) :
    View.Ok { v with acquiring := False } := by
  obtain ⟨_, _, _, _, _, _, _, _, _⟩ := h
  constructor <;> simp_all

theorem View.Ok.forgotten (h : v.Ok) (hwaiting : ¬v.waiting) (hprocessing : ¬v.processing) (hcanceled : ¬v.canceled)
    (hresolving : ¬v.resolving) :
    View.Ok { v with held := False, acquiring := False } := by
  obtain ⟨_, _, _, _, _, _, _, _, _⟩ := h
  constructor <;> simp_all

theorem View.Ok.collected (h : v.Ok) (hprocessing : v.processing) (hrunning : v.running) (resolving : Prop) :
    View.Ok { v with running := False, processing := False, resolving := resolving } := by
  obtain ⟨_, _, _, _, _, _, _, _, _⟩ := h
  constructor <;> simp_all

theorem View.Ok.uncanceled (h : v.Ok) (hprocessing : ¬v.processing) :
    View.Ok { v with running := False, canceled := False } := by
  obtain ⟨_, _, _, _, _, _, _, _, _⟩ := h
  constructor <;> simp_all

theorem View.Ok.resolved (h : v.Ok) :
    View.Ok { v with resolving := False } := by
  obtain ⟨_, _, _, _, _, _, _, _, _⟩ := h
  constructor <;> simp_all

/-- A task that went past the queue and has begun has its future. -/
theorem View.Ok.running_of_processing (h : v.Ok) (hprocessing : v.processing) (hqueued : ¬v.queued)
    (hbypassing : ¬v.bypassing) : v.running := by
  obtain ⟨_, _, _, _, _, _, _, _, _⟩ := h
  simp_all

end

namespace TaskManager

def Resolves (m : TaskManager) (t : TaskID) : Prop :=
  match m.resolver with
  | .resolving _ taskId _ _ => taskId = t
  | _ => False

def Executes (m : TaskManager) (t : TaskID) : Prop :=
  match m.processor with
  | .execute task => task.taskId = t
  | _ => False

def Bypasses (m : TaskManager) (t : TaskID) : Prop :=
  match m.receiver with
  | .execute task => task.taskId = t
  | _ => False

def view (m : TaskManager) (t : TaskID) : View where
  held := m.taskIdToTask.contains t
  waiting := m.queuedTaskIdQueue.locator.contains t
  queued := t ∈ m.queuedTaskIds
  acquiring := t ∈ m.acquiringTaskIds
  processing := t ∈ m.processingTaskIds
  canceled := t ∈ m.canceledTaskIds
  running := m.taskIdToFuture.contains t
  resolving := m.Resolves t
  executing := m.Executes t
  bypassing := m.Bypasses t
  canceling := m.receiver = .onCancel t

/-- The permits that are free, those of tasks, and the one that `process_task` may have. -/
def slots (m : TaskManager) : Nat :=
  m.executorSemaphore + m.acquiringTaskIds.length + if m.processor = .get then 1 else 0

/-- Every task is stored under its own identifier. -/
def Keyed (tasks : Dict TaskID Task) : Prop := ∀ t task, tasks.get? t = some task → task.taskId = t

structure Wf (m : TaskManager) : Prop where
  keyed : Keyed m.taskIdToTask
  queue : m.queuedTaskIdQueue.Wf
  nodup : m.acquiringTaskIds.Nodup
  accounted : m.slots = m.baseConcurrency
  ok : ∀ t, (m.view t).Ok

/-- Listed as queued, but no longer in the queue. -/
def Stale (m : TaskManager) (t : TaskID) : Prop :=
  t ∈ m.queuedTaskIds ∧ m.queuedTaskIdQueue.locator.contains t = false

/-- A task comes with an identifier that is not in use; a cancel that is not refused does not take
a task for a queued one that has left the queue. -/
def Safe (m : TaskManager) : Event → Prop
  | .taskNew task => m.taskIdToTask.contains task.taskId = false
  | .cancelTask taskId force => m.Stale taskId → taskId ∈ m.processingTaskIds ∧ force = false
  | _ => True

def SafeStep (m m' : TaskManager) : Prop := ∃ event, m.Safe event ∧ m.step event = m'

/-- No slot is lost, and what holds a slot or is processed is a known task. -/
structure Accounted (m : TaskManager) : Prop where
  slots : m.slots = m.baseConcurrency
  acquiring : ∀ t ∈ m.acquiringTaskIds, m.taskIdToTask.contains t = true
  processing : ∀ t ∈ m.processingTaskIds, m.taskIdToTask.contains t = true

theorem Wf.toAccounted {m : TaskManager} (h : m.Wf) : m.Accounted where
  slots := h.accounted
  acquiring := fun t ht => ((h.ok t).acquiring ht).1
  processing := fun t ht => ((h.ok t).processing ht).1

theorem Keyed.set {tasks : Dict TaskID Task} (h : Keyed tasks) (task : Task) : Keyed (tasks.set task.taskId task) := by
  intro t task' hget
  obtain ⟨heq, htask⟩ | hget := Dict.get?_set_cases hget
  · rw [heq, htask]
  · exact h t task' hget

theorem Keyed.erase {tasks : Dict TaskID Task} (h : Keyed tasks) (taskId : TaskID) : Keyed (tasks.erase taskId) := by
  intro t task hget
  rw [Dict.get?_erase] at hget
  split at hget
  · cases hget
  · exact h t task hget

theorem create_wf (baseConcurrency : Nat) : (create baseConcurrency).Wf where
  keyed := by
    intro t task hget
    cases hget
  queue := StablePriorityQueue.wf_empty
  nodup := List.nodup_nil
  accounted := rfl
  ok := by
    intro t
    constructor <;> simp [view, create, Dict.contains, StablePriorityQueue.empty, Resolves, Executes, Bypasses]

/-- Only fields that the tables do not have were changed. -/
theorem Wf.congr {m m' : TaskManager} (h : m.Wf) (hk : m'.taskIdToTask = m.taskIdToTask)
    (hq : m'.queuedTaskIdQueue = m.queuedTaskIdQueue)
    (ha : m'.acquiringTaskIds = m.acquiringTaskIds) (hs : m'.slots = m'.baseConcurrency)
    (hv : ∀ t, m'.view t = m.view t) : m'.Wf where
  keyed := hk ▸ h.keyed
  queue := hq ▸ h.queue
  nodup := ha ▸ h.nodup
  accounted := hs
  ok := fun t => hv t ▸ h.ok t

theorem raise_wf {m : TaskManager} (h : m.Wf) (e : Exn) : (m.raise e).Wf :=
  h.congr rfl rfl rfl h.accounted fun _ => rfl

theorem send_wf {m : TaskManager} (h : m.Wf) (message : Sent) : (m.send message).Wf :=
  h.congr rfl rfl rfl h.accounted fun _ => rfl

theorem enqueue_view (m : TaskManager) (task : Task) (t : TaskID) :
    (m.enqueue task).view t =
      if t = task.taskId then { m.view t with held := True, waiting := True, queued := True } else m.view t := by
  by_cases heq : t = task.taskId
  · subst heq
    simp [view, enqueue, Resolves, Executes, Bypasses, StablePriorityQueue.put, Dict.contains]
  · simp [view, enqueue, Resolves, Executes, Bypasses, StablePriorityQueue.put, Dict.contains, Dict.get?_set_ne, heq]

theorem enqueue_wf {m : TaskManager} (h : m.Wf) {task : Task} (hreceiver : m.receiver = .message)
    (hfresh : m.taskIdToTask.contains task.taskId = false) : (m.enqueue task).Wf where
  keyed := h.keyed.set task
  queue := by
    refine StablePriorityQueue.wf_insert h.queue ?_ _
    by_contra hwaiting
    have hheld := ((h.ok task.taskId).waiting (Option.isSome_iff_ne_none.mpr hwaiting)).1
    simp [view, hfresh] at hheld
  nodup := h.nodup
  accounted := h.accounted
  ok := by
    intro t
    have ht := h.ok t
    rw [enqueue_view]
    split
    · next heq =>
      subst heq
      have hheld : ¬(m.view task.taskId).held := by simp [view, hfresh]
      have hidle : ¬(m.view task.taskId).canceling := by simp [view, hreceiver]
      exact ht.enqueued hheld hidle
    · exact ht

theorem bypass_view {m : TaskManager} (hreceiver : m.receiver = .message) (task : Task) (t : TaskID) :
    (m.bypass task).view t =
      if t = task.taskId then { m.view t with held := True, processing := True, bypassing := True } else m.view t := by
  by_cases heq : t = task.taskId
  · subst heq
    simp [view, bypass, Resolves, Executes, Bypasses, Dict.contains, hreceiver]
  · simp [view, bypass, Resolves, Executes, Bypasses, Dict.contains, Dict.get?_set_ne, heq, Ne.symm heq, hreceiver]

theorem bypass_wf {m : TaskManager} (h : m.Wf) {task : Task} (hreceiver : m.receiver = .message)
    (hfresh : m.taskIdToTask.contains task.taskId = false) : (m.bypass task).Wf where
  keyed := h.keyed.set task
  queue := h.queue
  nodup := h.nodup
  accounted := h.accounted
  ok := by
    intro t
    have ht := h.ok t
    rw [bypass_view hreceiver]
    split
    · next heq =>
      subst heq
      have hheld : ¬(m.view task.taskId).held := by simp [view, hfresh]
      have hidle : ¬(m.view task.taskId).canceling := by simp [view, hreceiver]
      exact ht.bypassed hheld hidle
    · exact ht

theorem outranks_ok {m : TaskManager} (h : m.Wf) (priority : Int) {ids : List TaskID}
    (hids : ∀ t ∈ ids, t ∈ m.acquiringTaskIds) : ∃ b, m.outranks priority ids = .ok b := by
  induction ids with
  | nil => exact ⟨true, rfl⟩
  | cons t ids ih =>
    have hheld : m.taskIdToTask.contains t = true := ((h.ok t).acquiring (hids t List.mem_cons_self)).1
    obtain ⟨task, htask⟩ := Option.isSome_iff_exists.mp hheld
    rw [outranks, htask]
    dsimp only
    split
    · exact ⟨false, rfl⟩
    · exact ih fun t' ht' => hids t' (List.mem_cons_of_mem _ ht')

theorem onTaskNew_wf {m : TaskManager} (h : m.Wf) {task : Task} (hreceiver : m.receiver = .message)
    (hfresh : m.taskIdToTask.contains task.taskId = false) : (m.onTaskNew task).Wf := by
  rw [onTaskNew]
  split
  · exact raise_wf h _
  · split
    · obtain ⟨b, hb⟩ := outranks_ok h task.priority (fun _ ht => ht)
      rw [hb]
      cases b with
      | true => exact bypass_wf h hreceiver hfresh
      | false => exact enqueue_wf h hreceiver hfresh
    · exact enqueue_wf h hreceiver hfresh

theorem dropQueued_view {m : TaskManager} (h : m.Wf) {taskId : TaskID}
    (hheld : m.taskIdToTask.contains taskId = true) (t : TaskID) :
    (m.dropQueued taskId).view t =
      if t = taskId then { m.view t with held := False, waiting := False, queued := False } else m.view t := by
  have hlocator := (StablePriorityQueue.remove_wf h.queue taskId).2
  rw [dropQueued, if_pos hheld]
  by_cases heq : t = taskId
  · subst heq
    simp [view, hlocator, Resolves, Executes, Bypasses, Dict.contains]
  · simp [view, hlocator, Resolves, Executes, Bypasses, Dict.contains, Dict.get?_erase_ne, heq]

theorem dropQueued_wf {m : TaskManager} (h : m.Wf) {taskId : TaskID}
    (hwaiting : m.queuedTaskIdQueue.locator.contains taskId = true) : (m.dropQueued taskId).Wf := by
  have hheld : m.taskIdToTask.contains taskId = true := ((h.ok taskId).waiting hwaiting).1
  refine ⟨?_, ?_, ?_, ?_, fun t => ?_⟩
  · rw [dropQueued, if_pos hheld]
    exact h.keyed.erase taskId
  · rw [dropQueued, if_pos hheld]
    exact (StablePriorityQueue.remove_wf h.queue taskId).1
  · rw [dropQueued, if_pos hheld]
    exact h.nodup
  · rw [dropQueued, if_pos hheld]
    exact h.accounted
  · have ht := h.ok t
    rw [dropQueued_view h hheld]
    split
    · next heq =>
      subst heq
      exact ht.dropped hwaiting
    · exact ht

theorem cancelProcessing_view {m : TaskManager} (hreceiver : m.receiver = .message) {taskId : TaskID} {future : Nat}
    (hfuture : m.taskIdToFuture.get? taskId = some future) (t : TaskID) :
    (m.cancelProcessing taskId).view t = if t = taskId then { m.view t with canceling := True } else m.view t := by
  rw [cancelProcessing, hfuture]
  by_cases heq : t = taskId
  · subst heq
    simp [view, cancelFuture, Resolves, Executes, Bypasses, hreceiver]
  · simp [view, cancelFuture, Resolves, Executes, Bypasses, hreceiver, heq, Ne.symm heq]

/-- Between two messages a task that went past the queue has its future. -/
theorem exists_future {m : TaskManager} (h : m.Wf) {taskId : TaskID} (hreceiver : m.receiver = .message)
    (hprocessing : taskId ∈ m.processingTaskIds) (hqueued : taskId ∉ m.queuedTaskIds) :
    ∃ future, m.taskIdToFuture.get? taskId = some future := by
  have hbypassing : ¬(m.view taskId).bypassing := by simp [view, Bypasses, hreceiver]
  have hrunning : (m.view taskId).running := (h.ok taskId).running_of_processing hprocessing hqueued hbypassing
  exact Option.isSome_iff_exists.mp hrunning

theorem cancelProcessing_wf {m : TaskManager} (h : m.Wf) {taskId : TaskID} (hreceiver : m.receiver = .message)
    (hprocessing : taskId ∈ m.processingTaskIds) (hqueued : taskId ∉ m.queuedTaskIds) :
    (m.cancelProcessing taskId).Wf := by
  obtain ⟨future, hfuture⟩ := exists_future h hreceiver hprocessing hqueued
  refine ⟨?_, ?_, ?_, ?_, fun t => ?_⟩
  · rw [cancelProcessing, hfuture]
    exact h.keyed
  · rw [cancelProcessing, hfuture]
    exact h.queue
  · rw [cancelProcessing, hfuture]
    exact h.nodup
  · rw [cancelProcessing, hfuture]
    exact h.accounted
  · have ht := h.ok t
    rw [cancelProcessing_view hreceiver hfuture]
    split
    · next heq =>
      subst heq
      have hrunning : (m.view t).running := by simp [view, Dict.contains, hfuture]
      exact ht.cancelRequested hqueued hrunning
    · exact ht

theorem onCancelTask_wf {m : TaskManager} (h : m.Wf) {taskId : TaskID} {force : Bool}
    (hreceiver : m.receiver = .message) (hsafe : m.Stale taskId → taskId ∈ m.processingTaskIds ∧ force = false)
    (hrunning : m.exception = none) : (m.onCancelTask taskId force).Wf := by
  rw [onCancelTask]
  dsimp only
  by_cases hqueued : taskId ∈ m.queuedTaskIds
  · rw [if_neg (by simp [hqueued])]
    split
    · exact send_wf h _
    · next hpast =>
      have hwaiting : m.queuedTaskIdQueue.locator.contains taskId = true := by
        by_contra hgone
        obtain ⟨hprocessing, hforce⟩ := hsafe ⟨hqueued, Bool.eq_false_iff.mpr hgone⟩
        exact hpast ⟨hprocessing, by simp [hforce]⟩
      have hidle : taskId ∉ m.processingTaskIds := ((h.ok taskId).waiting hwaiting).2.2.2.1
      rw [if_neg hidle]
      split
      · exact dropQueued_wf h hwaiting
      · exact send_wf (dropQueued_wf h hwaiting) _
  · by_cases hprocessing : taskId ∈ m.processingTaskIds
    · rw [if_neg (by simp [hprocessing])]
      split
      · exact send_wf h _
      · rw [if_neg (by simp [hrunning])]
        exact cancelProcessing_wf h hreceiver hprocessing hqueued
    · rw [if_pos ⟨hqueued, hprocessing⟩]
      exact send_wf h _

theorem canceled_view {m : TaskManager} {taskId : TaskID} (hreceiver : m.receiver = .onCancel taskId)
    (hprocessing : taskId ∈ m.processingTaskIds) (t : TaskID) :
    (m.canceled taskId).view t =
      if t = taskId then { m.view t with processing := False, canceled := True, canceling := False }
      else m.view t := by
  rw [canceled, if_pos hprocessing]
  by_cases heq : t = taskId
  · subst heq
    simp [view, send, Resolves, Executes, Bypasses, hreceiver]
  · simp [view, send, Resolves, Executes, Bypasses, hreceiver, heq, Ne.symm heq]

theorem canceled_wf {m : TaskManager} (h : m.Wf) {taskId : TaskID} (hreceiver : m.receiver = .onCancel taskId) :
    (m.canceled taskId).Wf := by
  by_cases hprocessing : taskId ∈ m.processingTaskIds
  · refine ⟨?_, ?_, ?_, ?_, fun t => ?_⟩
    · rw [canceled, if_pos hprocessing]
      exact h.keyed
    · rw [canceled, if_pos hprocessing]
      exact h.queue
    · rw [canceled, if_pos hprocessing]
      exact h.nodup
    · rw [canceled, if_pos hprocessing]
      exact h.accounted
    · have ht := h.ok t
      rw [canceled_view hreceiver hprocessing]
      split
      · next heq =>
        subst heq
        exact ht.canceledRunning hprocessing hreceiver
      · exact ht
  · rw [canceled, if_neg hprocessing]
    exact raise_wf h _

theorem receiverReturns_wf {m : TaskManager} (h : m.Wf) : m.receiverReturns.Wf := by
  rw [receiverReturns]
  split
  · exact h
  · next task hreceiver =>
    refine ⟨h.keyed, h.queue, h.nodup, h.accounted, fun t => ?_⟩
    have ht := h.ok t
    by_cases heq : t = task.taskId
    · subst heq
      have hview : { m.registerFuture task.taskId with receiver := .message }.view task.taskId =
          { m.view task.taskId with running := True, bypassing := False } := by
        simp [view, registerFuture, Resolves, Executes, Bypasses, Dict.contains, hreceiver]
      have hbypassing : (m.view task.taskId).bypassing := by simp [view, Bypasses, hreceiver]
      have hidle : ¬(m.view task.taskId).canceling := by simp [view, hreceiver]
      rw [hview]
      exact ht.bypassRegistered hbypassing hidle
    · have hview : { m.registerFuture task.taskId with receiver := .message }.view t = m.view t := by
        simp [view, registerFuture, Resolves, Executes, Bypasses, Dict.contains, Dict.get?_set_ne, hreceiver, heq,
          Ne.symm heq]
      rw [hview]
      exact ht
  · next taskId hreceiver => exact canceled_wf h hreceiver

theorem dispatch_wf {m : TaskManager} (h : m.Wf) (hprocessor : m.processor = .get) {priority : Int} {taskId : TaskID}
    {queue : StablePriorityQueue TaskID} (hget : m.queuedTaskIdQueue.get = some ((priority, taskId), queue)) :
    (dispatch { m with queuedTaskIdQueue := queue } taskId).Wf := by
  obtain ⟨hqueue, hwaiting, hlocator⟩ := StablePriorityQueue.get_eq h.queue hget
  have hw : (m.view taskId).waiting := hwaiting
  obtain ⟨hheld, -, hnot, -⟩ := (h.ok taskId).waiting hw
  obtain ⟨task, htask⟩ := Option.isSome_iff_exists.mp hheld
  have hid : task.taskId = taskId := h.keyed taskId task htask
  rw [dispatch, htask]
  refine ⟨h.keyed, hqueue, h.nodup.insert, ?_, fun t => ?_⟩
  · have haccounted := h.accounted
    simp only [slots, hprocessor, if_true] at haccounted
    simp only [slots, List.length_insert_of_not_mem hnot, reduceCtorEq, if_false]
    omega
  · have ht := h.ok t
    by_cases heq : t = taskId
    · subst heq
      have hview : TaskManager.view
          { m with
            queuedTaskIdQueue := queue
            acquiringTaskIds := m.acquiringTaskIds.insert t
            processingTaskIds := insert t m.processingTaskIds
            processor := .execute task } t =
          { m.view t with waiting := False, acquiring := True, processing := True, executing := True } := by
        simp [view, hlocator, Resolves, Executes, Bypasses, Dict.contains, hid]
      rw [hview]
      exact ht.dispatched hw
    · have hview : TaskManager.view
          { m with
            queuedTaskIdQueue := queue
            acquiringTaskIds := m.acquiringTaskIds.insert taskId
            processingTaskIds := insert taskId m.processingTaskIds
            processor := .execute task } t = m.view t := by
        simp [view, hlocator, Resolves, Executes, Bypasses, Dict.contains, hid, hprocessor, Dict.get?_erase_ne, heq,
          Ne.symm heq]
      rw [hview]
      exact ht

theorem processorRuns_wf {m : TaskManager} (h : m.Wf) : m.processorRuns.Wf := by
  have haccounted := h.accounted
  rw [slots] at haccounted
  rw [processorRuns]
  split
  · next hprocessor =>
    rw [hprocessor] at haccounted
    split
    · next hzero =>
      exact h.congr rfl rfl rfl haccounted fun t => by
        simp [view, Resolves, Executes, Bypasses, hprocessor]
    · next hfree =>
      refine h.congr rfl rfl rfl ?_ fun t => by simp [view, Resolves, Executes, Bypasses, hprocessor]
      simp only [slots, reduceCtorEq, if_false, if_true] at haccounted ⊢
      omega
  · exact h
  · next hprocessor =>
    split
    · exact h
    · next hget => exact dispatch_wf h hprocessor hget
  · next task hprocessor =>
    refine ⟨h.keyed, h.queue, h.nodup, ?_, fun t => ?_⟩
    · simpa [slots, registerFuture, hprocessor] using haccounted
    · have ht := h.ok t
      by_cases heq : t = task.taskId
      · subst heq
        have hview : { m.registerFuture task.taskId with processor := .start }.view task.taskId =
            { m.view task.taskId with running := True, executing := False } := by
          simp [view, registerFuture, Resolves, Executes, Bypasses, Dict.contains]
        have hexecuting : (m.view task.taskId).executing := by simp [view, Executes, hprocessor]
        rw [hview]
        exact ht.executionRegistered hexecuting
      · have hview : { m.registerFuture task.taskId with processor := .start }.view t = m.view t := by
          simp [view, registerFuture, Resolves, Executes, Bypasses, Dict.contains, Dict.get?_set_ne, hprocessor, heq,
            Ne.symm heq]
        rw [hview]
        exact ht

theorem release_slots (m : TaskManager) : m.release.slots = m.slots + 1 := by
  rw [release]
  split
  · next hprocessor => simp [slots, hprocessor]
  · simp only [slots]
    omega

theorem release_view (m : TaskManager) (t : TaskID) : m.release.view t = m.view t := by
  rw [release]
  split
  · next hprocessor => simp [view, Resolves, Executes, Bypasses, hprocessor]
  · rfl

theorem releaseSlot_frame (m : TaskManager) (taskId : TaskID) :
    (m.releaseSlot taskId).taskIdToTask = m.taskIdToTask ∧
      (m.releaseSlot taskId).queuedTaskIdQueue = m.queuedTaskIdQueue ∧
      (m.releaseSlot taskId).baseConcurrency = m.baseConcurrency ∧
      (m.releaseSlot taskId).acquiringTaskIds = m.acquiringTaskIds.erase taskId := by
  rw [releaseSlot]
  split
  · rw [release]
    split
    · exact ⟨rfl, rfl, rfl, rfl⟩
    · exact ⟨rfl, rfl, rfl, rfl⟩
  · next hnot => exact ⟨rfl, rfl, rfl, (List.erase_of_not_mem hnot).symm⟩

theorem releaseSlot_view {m : TaskManager} (hnodup : m.acquiringTaskIds.Nodup) (taskId t : TaskID) :
    (m.releaseSlot taskId).view t = if t = taskId then { m.view t with acquiring := False } else m.view t := by
  rw [releaseSlot]
  split
  · rw [release_view]
    by_cases heq : t = taskId
    · subst heq
      simp [view, Resolves, Executes, Bypasses, hnodup.mem_erase_iff]
    · simp [view, Resolves, Executes, Bypasses, hnodup.mem_erase_iff, heq]
  · next hnot =>
    split
    · next heq =>
      subst heq
      simp [view, hnot]
    · rfl

theorem releaseSlot_slots (m : TaskManager) (taskId : TaskID) : (m.releaseSlot taskId).slots = m.slots := by
  rw [releaseSlot]
  split
  · next hmem =>
    rw [release_slots]
    have hlength := List.length_erase_of_mem hmem
    have hpos := List.length_pos_of_mem hmem
    simp only [slots, hlength]
    omega
  · rfl

/-- A task that is nowhere but in the tables of `resolve_tasks` can be forgotten. -/
theorem forget_wf {m : TaskManager} (h : m.Wf) (taskId : TaskID) (hwaiting : ¬(m.view taskId).waiting)
    (hprocessing : ¬(m.view taskId).processing) (hcanceled : ¬(m.view taskId).canceled)
    (hresolving : ¬(m.view taskId).resolving) : (m.forget taskId).Wf := by
  obtain ⟨htasks, hqueue, hbase, hids⟩ := releaseSlot_frame m taskId
  have hview := releaseSlot_view h.nodup taskId
  have hslots : (m.releaseSlot taskId).slots = (m.releaseSlot taskId).baseConcurrency := by
    rw [releaseSlot_slots, hbase, h.accounted]
  have hnodup : (m.releaseSlot taskId).acquiringTaskIds.Nodup := hids ▸ h.nodup.erase taskId
  rw [forget]
  split
  · refine ⟨htasks ▸ h.keyed.erase taskId, hqueue ▸ h.queue, hnodup, hslots, fun t => ?_⟩
    have ht := h.ok t
    by_cases heq : t = taskId
    · subst heq
      have hthis : TaskManager.view { m.releaseSlot t with taskIdToTask := (m.releaseSlot t).taskIdToTask.erase t } t =
          { (m.releaseSlot t).view t with held := False } := by
        simp [view, Resolves, Executes, Bypasses, Dict.contains]
      rw [hthis, hview, if_pos rfl]
      exact ht.forgotten hwaiting hprocessing hcanceled hresolving
    · have hother : TaskManager.view
          { m.releaseSlot taskId with taskIdToTask := (m.releaseSlot taskId).taskIdToTask.erase taskId } t =
          (m.releaseSlot taskId).view t := by
        simp [view, Resolves, Executes, Bypasses, Dict.contains, Dict.get?_erase_ne, heq]
      rw [hother, hview, if_neg heq]
      exact ht
  · refine raise_wf ⟨htasks ▸ h.keyed, hqueue ▸ h.queue, hnodup, hslots, fun t => ?_⟩ _
    have ht := h.ok t
    rw [hview]
    split
    · next heq =>
      subst heq
      exact ht.released hprocessing
    · exact ht

theorem taskOfFuture_eq {m : TaskManager} {future : Nat} {taskId : TaskID} (h : m.taskOfFuture future = some taskId) :
    m.taskIdToFuture.get? taskId = some future := by
  obtain ⟨⟨t, f⟩, hfind, rfl⟩ := Option.map_eq_some_iff.mp h
  have hfuture : f = future := by simpa using List.find?_some hfind
  exact (Dict.mem_entries _ _ _).mp (hfuture ▸ List.mem_of_find?_eq_some hfind)

/-- A task that was processed has left the tables of the executions; `resolve_tasks` may go on with
it or stop there. -/
theorem collect_wf {m : TaskManager} (h : m.Wf) (hresolver : m.resolver = .start) {taskId : TaskID}
    (hrunning : (m.view taskId).running) (hprocessing : taskId ∈ m.processingTaskIds) {resolver : ResolverAt}
    (hnext : resolver = .start ∨ resolver = .ended ∨ ∃ stage resultType done, resolver = .resolving stage taskId resultType done) :
    Wf { m with
      taskIdToFuture := m.taskIdToFuture.erase taskId
      processingTaskIds := m.processingTaskIds.erase taskId
      resolver := resolver } := by
  refine ⟨h.keyed, h.queue, h.nodup, h.accounted, fun t => ?_⟩
  have ht := h.ok t
  have hstart : ∀ t', ¬m.Resolves t' := by simp [Resolves, hresolver]
  by_cases heq : t = taskId
  · subst heq
    have hview : ∃ resolving, TaskManager.view
        { m with
          taskIdToFuture := m.taskIdToFuture.erase t
          processingTaskIds := m.processingTaskIds.erase t
          resolver := resolver } t =
        { m.view t with running := False, processing := False, resolving := resolving } :=
      ⟨(TaskManager.view { m with resolver := resolver } t).resolving, by
        simp [view, Resolves, Executes, Bypasses, Dict.contains]⟩
    obtain ⟨resolving, hview⟩ := hview
    rw [hview]
    exact ht.collected hprocessing hrunning resolving
  · have hview : TaskManager.view
        { m with
          taskIdToFuture := m.taskIdToFuture.erase taskId
          processingTaskIds := m.processingTaskIds.erase taskId
          resolver := resolver } t = m.view t := by
      have hresolves : ¬Resolves
          { m with
            taskIdToFuture := m.taskIdToFuture.erase taskId
            processingTaskIds := m.processingTaskIds.erase taskId
            resolver := resolver } t := by
        obtain rfl | rfl | ⟨stage, resultType, done, rfl⟩ := hnext
        · simp [Resolves]
        · simp [Resolves]
        · simp [Resolves, Ne.symm heq]
      simp [view, Executes, Bypasses, Dict.contains, Dict.get?_erase_ne, heq, hresolves, hstart]
    rw [hview]
    exact ht

theorem takeResult_wf {m : TaskManager} (h : m.Wf) (hresolver : m.resolver = .start) {taskId : TaskID} {task : Task}
    (hid : task.taskId = taskId) (hrunning : (m.view taskId).running) (hprocessing : taskId ∈ m.processingTaskIds)
    (future : Nat) (done : List Nat) :
    (takeResult { m with taskIdToFuture := m.taskIdToFuture.erase taskId } task future done).Wf := by
  subst hid
  have hstop := collect_wf h hresolver hrunning hprocessing (.inl hresolver)
  rw [takeResult]
  dsimp only
  split
  · split
    · exact raise_wf hstop _
    · split
      · exact collect_wf h hresolver hrunning hprocessing (.inr (.inr ⟨_, _, _, rfl⟩))
      · exact raise_wf hstop _
  · exact collect_wf h hresolver hrunning hprocessing (.inr (.inr ⟨_, _, _, rfl⟩))
  · exact collect_wf h hresolver hrunning hprocessing (.inr (.inl rfl))

/-- A canceled task whose future was taken. -/
theorem uncancel_wf {m : TaskManager} (h : m.Wf) {taskId : TaskID} (hrunning : (m.view taskId).running)
    (hprocessing : taskId ∉ m.processingTaskIds) :
    Wf { m with
      taskIdToFuture := m.taskIdToFuture.erase taskId
      canceledTaskIds := m.canceledTaskIds.erase taskId } := by
  refine ⟨h.keyed, h.queue, h.nodup, h.accounted, fun t => ?_⟩
  have ht := h.ok t
  by_cases heq : t = taskId
  · subst heq
    have hview : TaskManager.view
        { m with
          taskIdToFuture := m.taskIdToFuture.erase t
          canceledTaskIds := m.canceledTaskIds.erase t } t =
        { m.view t with running := False, canceled := False } := by
      simp [view, Resolves, Executes, Bypasses, Dict.contains]
    rw [hview]
    exact ht.uncanceled hprocessing
  · have hview : TaskManager.view
        { m with
          taskIdToFuture := m.taskIdToFuture.erase taskId
          canceledTaskIds := m.canceledTaskIds.erase taskId } t = m.view t := by
      simp [view, Resolves, Executes, Bypasses, Dict.contains, Dict.get?_erase_ne, heq]
    rw [hview]
    exact ht

theorem forget_resolver (m : TaskManager) (taskId : TaskID) : (m.forget taskId).resolver = m.resolver := by
  have hslot : (m.releaseSlot taskId).resolver = m.resolver := by
    rw [releaseSlot]
    split
    · rw [release]
      split
      · rfl
      · rfl
    · rfl
  rw [forget]
  split
  · exact hslot
  · exact hslot

theorem resolveDone_wf {m : TaskManager} (h : m.Wf) (hresolver : m.resolver = .start) (done : List Nat) :
    (m.resolveDone done).Wf := by
  induction done generalizing m with
  | nil => exact h
  | cons future done ih =>
    rw [resolveDone]
    split
    · exact raise_wf h _
    · next taskId hfuture =>
      have hrunning : (m.view taskId).running := by
        simp [view, Dict.contains, taskOfFuture_eq hfuture]
      obtain ⟨hheld, hwhere⟩ := (h.ok taskId).running hrunning
      obtain ⟨task, htask⟩ := Option.isSome_iff_exists.mp hheld
      dsimp only
      rw [htask]
      dsimp only
      by_cases hprocessing : taskId ∈ m.processingTaskIds
      · rw [if_pos hprocessing]
        exact takeResult_wf h hresolver (h.keyed taskId task htask) hrunning hprocessing future done
      · have hcanceled : taskId ∈ m.canceledTaskIds := hwhere.resolve_left hprocessing
        have hforget := forget_wf (uncancel_wf h hrunning hprocessing) taskId
          (fun hw => hprocessing.elim ?_) hprocessing (by simp [view]) (by simp [view, Resolves, hresolver])
        · rw [if_neg hprocessing, if_pos hcanceled]
          split
          · exact hforget
          · exact ih hforget ((forget_resolver _ _).trans hresolver)
        · exact absurd ((h.ok taskId).waiting hw).2.2.2.2.1 (not_not.mpr hcanceled)

/-- A task whose result was sent is forgotten. -/
theorem forget_resolved_wf {m : TaskManager} (h : m.Wf) {stage : ResolveStage} {taskId : TaskID}
    {resultType : TaskResultType} {rest : List Nat} (hresolver : m.resolver = .resolving stage taskId resultType rest) :
    (forget { m with resolver := .start } taskId).Wf := by
  have hresolving : (m.view taskId).resolving := by simp [view, Resolves, hresolver]
  have hthis := h.ok taskId
  have hstart : Wf { m with resolver := .start } := by
    refine ⟨h.keyed, h.queue, h.nodup, h.accounted, fun t => ?_⟩
    have ht := h.ok t
    have hview : TaskManager.view { m with resolver := .start } t = { m.view t with resolving := False } := by
      simp [view, Resolves, Executes, Bypasses]
    rw [hview]
    exact ht.resolved
  exact forget_wf hstart _ (fun hw => (hthis.waiting hw).2.2.2.2.2.2 hresolving)
    (fun hp => (hthis.processing hp).2.2.1 hresolving) (fun hc => (hthis.canceled hc).2.2.2 hresolving)
    (by simp [view, Resolves])

theorem resolverRuns_wf {m : TaskManager} (h : m.Wf) (done : List Nat) : (m.resolverRuns done).Wf := by
  rw [resolverRuns]
  split
  · next hresolver =>
    split
    · exact h
    · exact h.congr rfl rfl rfl h.accounted fun t => by simp [view, Resolves, Executes, Bypasses, hresolver]
  · next futures hresolver =>
    split
    · refine resolveDone_wf ?_ rfl done
      exact h.congr rfl rfl rfl h.accounted fun t => by simp [view, Resolves, Executes, Bypasses, hresolver]
    · exact h
  · next taskId resultType rest hresolver =>
    exact h.congr rfl rfl rfl h.accounted fun t => by simp [view, Resolves, Executes, Bypasses, hresolver]
  · next taskId resultType rest hresolver =>
    exact h.congr rfl rfl rfl h.accounted fun t => by simp [view, send, Resolves, Executes, Bypasses, hresolver]
  · next taskId resultType rest hresolver =>
    have hforget := forget_resolved_wf h hresolver
    dsimp only
    split
    · exact hforget
    · exact resolveDone_wf hforget (forget_resolver _ _) rest
  · exact h

/-- Every event keeps the tables in agreement, also one that ends with an exception. -/
theorem step_wf {m : TaskManager} (h : m.Wf) {event : Event} (hsafe : m.Safe event) : (m.step event).Wf := by
  unfold step
  split
  · exact h
  · next hexception =>
    have hnone : m.exception = none := by simpa using hexception
    cases event with
    | taskNew task =>
      dsimp only
      rw [receive]
      split
      · next hreceiver =>
        have hreceived : Wf { m with received := m.received ++ [task.taskId] } :=
          h.congr rfl rfl rfl h.accounted fun _ => rfl
        exact onTaskNew_wf hreceived hreceiver hsafe
      · exact h
    | cancelTask taskId force =>
      dsimp only
      rw [receive]
      split
      · next hreceiver => exact onCancelTask_wf h hreceiver hsafe hnone
      · exact h
    | objectDelete source =>
      dsimp only
      rw [receive]
      split
      · exact h.congr rfl rfl rfl h.accounted fun _ => rfl
      · exact h
    | receiverReturns => exact receiverReturns_wf h
    | receiverRaises e =>
      dsimp only
      rw [receiverRaises]
      split
      · exact h
      · exact raise_wf h e
    | processorRuns => exact processorRuns_wf h
    | processorRaises e =>
      dsimp only
      rw [processorRaises]
      split
      · exact raise_wf h e
      · exact h
    | resolverRuns done => exact resolverRuns_wf h done
    | resolverRaises e =>
      dsimp only
      rw [resolverRaises]
      split
      · exact raise_wf h e
      · exact h
    | complete future outcome =>
      dsimp only
      rw [complete]
      split
      · exact h.congr rfl rfl rfl h.accounted fun _ => rfl
      · exact h
    | loadSerializer source => exact h.congr rfl rfl rfl h.accounted fun _ => rfl

theorem reachable_wf {baseConcurrency : Nat} {m : TaskManager}
    (h : Relation.ReflTransGen SafeStep (create baseConcurrency) m) : m.Wf := by
  induction h with
  | refl => exact create_wf baseConcurrency
  | tail _ hstep ih =>
    obtain ⟨event, hsafe, rfl⟩ := hstep
    exact step_wf ih hsafe

/-- No slot is lost in any run in which tasks come under new identifiers and no accepted cancel
meets a task that is listed as queued but has left the queue. -/
theorem slots_accounted (baseConcurrency : Nat) (m : TaskManager)
    (h : Relation.ReflTransGen SafeStep (create baseConcurrency) m) : m.Accounted := (reachable_wf h).toAccounted

def runs (m : TaskManager) (events : List Event) : TaskManager := events.foldl step m

/-- Every event of a run meets `P` where it happens. -/
def Each (P : TaskManager → Event → Prop) : TaskManager → List Event → Prop
  | _, [] => True
  | m, event :: events => P m event ∧ Each P (m.step event) events

theorem Each.steps {P : TaskManager → Event → Prop} {m : TaskManager} {events : List Event} (h : Each P m events) :
    Relation.ReflTransGen (fun m m' => ∃ event, P m event ∧ m.step event = m') m (m.runs events) := by
  induction events generalizing m with
  | nil => exact .refl
  | cons event events ih => exact .head ⟨event, h.1, rfl⟩ (ih h.2)

/-- A task that `process_task` has started. -/
def startedTask : List Event :=
  [.taskNew ⟨⟨7⟩, ⟨1⟩, 0⟩, .processorRuns, .processorRuns, .processorRuns]

/-- Task 7 runs while task 8 is canceled in the queue and its own cancel is refused; its result is
sent, then task 9 fails, and the cancel of a task that is not there comes last. -/
def answeredTasks : List Event :=
  startedTask ++ [Event.taskNew ⟨⟨8⟩, ⟨1⟩, 0⟩, .cancelTask ⟨8⟩ false, .cancelTask ⟨7⟩ false, .taskNew ⟨⟨9⟩, ⟨1⟩, 0⟩,
    .loadSerializer ⟨1⟩, .complete 0 (.returned true), .resolverRuns [], .resolverRuns [0], .resolverRuns [],
    .resolverRuns [], .resolverRuns [], .processorRuns, .processorRuns, .processorRuns, .complete 1 .raised,
    .resolverRuns [], .resolverRuns [1], .resolverRuns [], .resolverRuns [], .resolverRuns [], .cancelTask ⟨4⟩ true]

theorem slots_accounted_answered : ((create 1).runs answeredTasks).Accounted ∧
    ((create 1).runs answeredTasks).sent = [.cancelConfirm ⟨8⟩ .canceled, .cancelConfirm ⟨7⟩ .cancelFailed,
      .taskResult ⟨7⟩ .success, .taskResult ⟨9⟩ .failed, .cancelConfirm ⟨4⟩ .cancelNotFound] := by
  refine ⟨slots_accounted 1 _ (Each.steps (P := Safe) ?_), by decide +kernel⟩
  refine ⟨rfl, trivial, trivial, trivial, rfl, fun h => absurd h.2 ?_, fun _ => ?_, rfl, trivial, trivial, trivial, trivial,
    trivial, trivial, trivial, trivial, trivial, trivial, trivial, trivial, trivial, trivial, trivial, trivial,
    fun h => absurd h.1 ?_, trivial⟩
  · decide +kernel
  · decide +kernel
  · decide +kernel

/-- A forced cancel of a running task takes the task from the table; its slot never comes back. -/
theorem forced_cancel_loses_slot :
    ¬((create 1).runs (startedTask ++ [Event.cancelTask ⟨7⟩ true, .receiverReturns, .resolverRuns [], .resolverRuns [0]])).Accounted := by
  intro h
  have hheld := h.acquiring ⟨7⟩ (by decide +kernel)
  revert hheld
  decide +kernel

end TaskManager

end Adapter

end Scaler
