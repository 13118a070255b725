import Mathlib.Data.List.Basic
import Scaler.Collections.Outcome
import Scaler.Policy.EvenLoadInvariant

/-! The order of the worker's queue: `VanillaTaskManager.__enqueue_task` over `AsyncPriorityQueue` and
`StablePriorityQueue` with its machine integers. Priority and suspension make one number, and the
insertion counter decides between equal ones, as long as it has not wrapped. -/

namespace Scaler

open Collections

namespace StablePriorityQueue

section Assign

variable {α : Type}

/-- `_queue[key] = data`. -/
def assignSorted (k : MapKey) (a : α) : List (MapKey × α) → List (MapKey × α)
  | [] => [(k, a)]
  | e :: es =>
    if MapKey.lt e.1 k then e :: assignSorted k a es
    else if e.1 = k then (k, a) :: es
    else (k, a) :: e :: es

def Strict (es : List (MapKey × α)) : Prop := es.Pairwise fun a b => MapKey.lt a.1 b.1 = true

theorem lt_iff {a b : MapKey} : MapKey.lt a b = true ↔ a.1 < b.1 ∨ a.1 = b.1 ∧ a.2 < b.2 := by
  simp [MapKey.lt]

theorem lt_trans {a b c : MapKey} (hab : MapKey.lt a b = true) (hbc : MapKey.lt b c = true) : MapKey.lt a c = true := by
  rw [lt_iff] at *
  omega

theorem lt_of_not_lt {a b : MapKey} (h : ¬ MapKey.lt a b = true) (hne : a ≠ b) : MapKey.lt b a = true := by
  have hparts : ¬ (a.1 = b.1 ∧ a.2 = b.2) := fun heq => hne (Prod.ext heq.1 heq.2)
  rw [lt_iff] at *
  omega

theorem assignSorted_eq {k : MapKey} {es : List (MapKey × α)} (h : k ∉ es.map Prod.fst) (a : α) :
    assignSorted k a es = insertSorted k a es := by
  induction es with
  | nil => rfl
  | cons e es ih =>
    rw [List.map_cons, List.mem_cons, not_or] at h
    rw [assignSorted, insertSorted, ih h.2, if_neg (c := e.1 = k) fun heq => h.1 heq.symm]

theorem strict_insertSorted {k : MapKey} {a : α} {es : List (MapKey × α)} (h : Strict es) (hk : k ∉ es.map Prod.fst) :
    Strict (insertSorted k a es) := by
  induction es with
  | nil => exact List.pairwise_singleton _ _
  | cons e es ih =>
    obtain ⟨he, hes⟩ := List.pairwise_cons.mp h
    rw [List.map_cons, List.mem_cons, not_or] at hk
    rw [insertSorted]
    split
    · next hlt =>
      refine List.pairwise_cons.mpr ⟨fun x hx => ?_, ih hes hk.2⟩
      rcases List.mem_cons.mp ((insertSorted_perm k a es).mem_iff.mp hx) with rfl | hx
      · exact hlt
      · exact he x hx
    · next hnot =>
      have hlt := lt_of_not_lt hnot fun heq => hk.1 heq.symm
      refine List.pairwise_cons.mpr ⟨fun x hx => ?_, h⟩
      rcases List.mem_cons.mp hx with rfl | hx
      · exact hlt
      · exact lt_trans hlt (he x hx)

end Assign

variable {α : Type} [DecidableEq α]

/-- `put` with a priority of 64 bits, which is refused if it does not fit, and a counter of 64 bits. -/
def putWord (q : StablePriorityQueue α) (priority : Int) (a : α) : Option (StablePriorityQueue α) :=
  if -2 ^ 63 ≤ priority ∧ priority < 2 ^ 63 then
    some {
      locator := q.locator.set a (priority, q.itemCounter)
      queue := assignSorted (priority, q.itemCounter) a q.queue
      itemCounter := (q.itemCounter + 1) % 2 ^ 64 }
  else none

variable {q : StablePriorityQueue α}

/-- The next key is not in the queue. -/
theorem Wf.key_fresh (h : q.Wf) (priority : Int) : (priority, q.itemCounter) ∉ q.queue.map Prod.fst := by
  intro hmem
  obtain ⟨entry, hentry, hkey⟩ := List.mem_map.mp hmem
  have hfresh := h.fresh entry hentry
  rw [hkey] at hfresh
  exact absurd hfresh (Nat.lt_irrefl _)

/-- Below 2^64 insertions the counter does not wrap. -/
theorem Wf.putWord (h : q.Wf) {priority : Int} (hrange : -2 ^ 63 ≤ priority ∧ priority < 2 ^ 63)
    (hcount : q.itemCounter + 1 < 2 ^ 64) (a : α) : q.putWord priority a = some (q.put priority a) := by
  rw [StablePriorityQueue.putWord, if_pos hrange, assignSorted_eq (h.key_fresh priority), Nat.mod_eq_of_lt hcount]
  rfl

end StablePriorityQueue

namespace Worker

/-- A task with the priority of its flags. -/
structure PrioritizedTask where
  taskId : TaskID
  priority : Int
  deriving DecidableEq

structure TaskQueue where
  queuedTaskIds : StablePriorityQueue TaskID
  queuedTaskIdToTask : Dict TaskID PrioritizedTask

inductive QueueEvent where
  | enqueue (task : PrioritizedTask) (isSuspended : Bool)
  | remove (taskId : TaskID)
  | dequeue

namespace TaskQueue

def empty : TaskQueue := ⟨.empty, .empty⟩

variable (q : TaskQueue)

def queuePriority (task : PrioritizedTask) (isSuspended : Bool) : Int := -(task.priority * 10 + if isSuspended then 1 else 0)

/-- `__enqueue_task`: a negative priority is refused. -/
def enqueueTask (task : PrioritizedTask) (isSuspended : Bool) : Option TaskQueue :=
  if task.priority < 0 then none
  else
    match q.queuedTaskIds.putWord (queuePriority task isSuspended) task.taskId with
    | none => none
    | some queuedTaskIds => some ⟨queuedTaskIds, q.queuedTaskIdToTask.set task.taskId task⟩

def removeTask (taskId : TaskID) : TaskQueue := ⟨q.queuedTaskIds.remove taskId, q.queuedTaskIdToTask.erase taskId⟩

/-- The head of `__processing_task`, which waits while the queue is empty. -/
def dequeue : Except Exn (Option (PrioritizedTask × TaskQueue)) :=
  match q.queuedTaskIds.get with
  | none => .ok none
  | some ((_, taskId), queuedTaskIds) =>
    match q.queuedTaskIdToTask.get? taskId with
    | none => .error .keyError
    | some task => .ok (some (task, ⟨queuedTaskIds, q.queuedTaskIdToTask.erase taskId⟩))

/-- An event that completes, with the task that it returns. -/
def step : QueueEvent → Option (Option PrioritizedTask × TaskQueue)
  | .enqueue task isSuspended => (q.enqueueTask task isSuspended).map fun q => (none, q)
  | .remove taskId => some (none, q.removeTask taskId)
  | .dequeue =>
    match q.dequeue with
    | .ok (some (task, q)) => some (some task, q)
    | _ => none

end TaskQueue

/-- An enqueued task, with its number among the enqueues. -/
structure Queued where
  task : PrioritizedTask
  suspended : Bool
  number : Nat
  deriving DecidableEq

/-- Higher priority first, then suspended before not yet started, then earlier enqueued first. -/
def Queued.Before (e f : Queued) : Prop :=
  f.task.priority < e.task.priority ∨ e.task.priority = f.task.priority ∧
    (e.suspended = true ∧ f.suspended = false ∨ e.suspended = f.suspended ∧ e.number < f.number)

/-- What has become of the enqueued tasks, by the events alone. -/
structure Account where
  enqueued : List Queued
  pending : List Queued
  returned : List Queued
  removed : List Queued

namespace Account

def empty : Account := ⟨[], [], [], []⟩

variable (account : Account)

def without (taskId : TaskID) : List Queued := account.pending.filter fun e => e.task.taskId ≠ taskId

def named (taskId : TaskID) : List Queued := account.pending.filter fun e => e.task.taskId = taskId

def record : QueueEvent → Option PrioritizedTask → Account
  | .enqueue task isSuspended, _ =>
    let e := ⟨task, isSuspended, account.enqueued.length⟩
    { account with enqueued := account.enqueued ++ [e], pending := account.pending ++ [e] }
  | .remove taskId, _ =>
    { account with pending := account.without taskId, removed := account.removed ++ account.named taskId }
  | .dequeue, some task =>
    { account with pending := account.without task.taskId, returned := account.returned ++ account.named task.taskId }
  | .dequeue, none => account

end Account

structure QueueRun where
  queue : TaskQueue
  account : Account

namespace QueueRun

def start : QueueRun := ⟨.empty, .empty⟩

def step (s : QueueRun) (event : QueueEvent) : Option QueueRun :=
  match s.queue.step event with
  | none => none
  | some (task, queue) => some ⟨queue, s.account.record event task⟩

/-- Priorities are in range, and no task is enqueued while it is queued. -/
def Allowed (s : QueueRun) : QueueEvent → Prop
  | .enqueue task _ => 0 ≤ task.priority ∧ task.priority < 2 ^ 59 ∧ ∀ e ∈ s.account.pending, e.task.taskId ≠ task.taskId
  | _ => True

variable {s s' : QueueRun}

/-- The key under which a task is queued. -/
def key (e : Queued) : MapKey := (TaskQueue.queuePriority e.task e.suspended, e.number)

theorem key_lt_iff {e f : Queued} : MapKey.lt (key e) (key f) = true ↔ e.Before f := by
  obtain ⟨⟨_, p⟩, es, n⟩ := e
  obtain ⟨⟨_, p'⟩, fs, n'⟩ := f
  rw [StablePriorityQueue.lt_iff]
  cases es <;> cases fs <;> simp [key, TaskQueue.queuePriority, Queued.Before] <;> omega

/-- The queue with the counter that it would have without the wrap. -/
def unwrapped (s : QueueRun) : StablePriorityQueue TaskID :=
  { s.queue.queuedTaskIds with itemCounter := s.account.enqueued.length }

/-- The two indexes of the queue and the dictionary of tasks hold what is pending. -/
structure Sound (s : QueueRun) : Prop where
  wf : s.unwrapped.Wf
  counter : s.queue.queuedTaskIds.itemCounter = s.account.enqueued.length % 2 ^ 64
  strict : StablePriorityQueue.Strict s.queue.queuedTaskIds.queue
  items : ∀ k a, (k, a) ∈ s.queue.queuedTaskIds.queue ↔ ∃ e ∈ s.account.pending, e.task.taskId = a ∧ k = key e
  ids : (s.account.pending.map fun e => e.task.taskId).Nodup
  tasks : ∀ taskId task, s.queue.queuedTaskIdToTask.get? taskId = some task ↔
    ∃ e ∈ s.account.pending, e.task = task ∧ task.taskId = taskId

theorem Sound.start : start.Sound where
  wf := StablePriorityQueue.wf_empty
  counter := rfl
  strict := List.Pairwise.nil
  items := fun _ _ => ⟨fun h => absurd h List.not_mem_nil, fun ⟨_, he, _⟩ => absurd he List.not_mem_nil⟩
  ids := List.nodup_nil
  tasks := fun _ _ => ⟨nofun, fun ⟨_, he, _⟩ => absurd he List.not_mem_nil⟩

/-- The pending task with an id. -/
theorem Sound.eq_of_taskId (h : s.Sound) {e f : Queued} (he : e ∈ s.account.pending) (hf : f ∈ s.account.pending)
    (hid : e.task.taskId = f.task.taskId) : e = f :=
  List.inj_on_of_nodup_map h.ids he hf hid

theorem Sound.named_eq (h : s.Sound) {e : Queued} (he : e ∈ s.account.pending) : s.account.named e.task.taskId = [e] := by
  have hnodup : (s.account.named e.task.taskId).Nodup := (h.ids.of_map _).filter _
  refine List.perm_singleton.mp ((List.perm_ext_iff_of_nodup hnodup (List.nodup_singleton e)).mpr fun f => ?_)
  rw [Account.named, List.mem_filter, decide_eq_true_iff, List.mem_singleton]
  constructor
  · exact fun hf => h.eq_of_taskId hf.1 he hf.2
  · rintro rfl
    exact ⟨he, rfl⟩

theorem Sound.locator_none (h : s.Sound) {taskId : TaskID} (hnew : ∀ e ∈ s.account.pending, e.task.taskId ≠ taskId) :
    s.queue.queuedTaskIds.locator.get? taskId = none := by
  refine Option.eq_none_iff_forall_not_mem.mpr fun k hk => ?_
  obtain ⟨e, he, hid, -⟩ := (h.items k taskId).mp ((h.wf.locate taskId k).mp hk)
  exact hnew e he hid

theorem Sound.key_fresh (h : s.Sound) (priority : Int) :
    (priority, s.account.enqueued.length) ∉ s.queue.queuedTaskIds.queue.map Prod.fst := h.wf.key_fresh priority

theorem Sound.putWord (h : s.Sound) {taskId : TaskID} {priority : Int} (hrange : -2 ^ 63 ≤ priority ∧ priority < 2 ^ 63)
    (hcount : s.account.enqueued.length < 2 ^ 64) :
    s.queue.queuedTaskIds.putWord priority taskId =
      some { s.unwrapped.put priority taskId with itemCounter := (s.account.enqueued.length + 1) % 2 ^ 64 } := by
  have hcounter : s.queue.queuedTaskIds.itemCounter = s.account.enqueued.length := by
    rw [h.counter, Nat.mod_eq_of_lt hcount]
  rw [StablePriorityQueue.putWord, if_pos hrange, hcounter, StablePriorityQueue.assignSorted_eq (h.key_fresh priority)]
  rfl

theorem queuePriority_range {task : PrioritizedTask} (hlow : 0 ≤ task.priority) (hhigh : task.priority < 2 ^ 59) (isSuspended : Bool) :
    -2 ^ 63 ≤ TaskQueue.queuePriority task isSuspended ∧ TaskQueue.queuePriority task isSuspended < 2 ^ 63 := by
  cases isSuspended <;> simp only [TaskQueue.queuePriority, Bool.false_eq_true, if_false, if_true] <;> omega

/-- An allowed task is enqueued. -/
theorem Sound.enqueueTask (h : s.Sound) {task : PrioritizedTask} {isSuspended : Bool} (hallowed : s.Allowed (.enqueue task isSuspended))
    (hcount : s.account.enqueued.length < 2 ^ 64) :
    s.queue.enqueueTask task isSuspended = some
      ⟨{ s.unwrapped.put (TaskQueue.queuePriority task isSuspended) task.taskId with
          itemCounter := (s.account.enqueued.length + 1) % 2 ^ 64 },
        s.queue.queuedTaskIdToTask.set task.taskId task⟩ := by
  obtain ⟨hlow, hhigh, -⟩ := hallowed
  rw [TaskQueue.enqueueTask, if_neg (Int.not_lt.mpr hlow), h.putWord (queuePriority_range hlow hhigh isSuspended) hcount]

theorem Sound.enqueue (h : s.Sound) {task : PrioritizedTask} {isSuspended : Bool} (hallowed : s.Allowed (.enqueue task isSuspended))
    (hcount : s.account.enqueued.length < 2 ^ 64) (hstep : s.step (.enqueue task isSuspended) = some s') : s'.Sound := by
  rw [QueueRun.step, TaskQueue.step, h.enqueueTask hallowed hcount] at hstep
  cases hstep
  obtain ⟨-, -, hnew⟩ := hallowed
  have hlength : (s.account.record (.enqueue task isSuspended) none).enqueued.length = s.account.enqueued.length + 1 :=
    List.length_append
  have hmem : ∀ e, e ∈ (s.account.record (.enqueue task isSuspended) none).pending ↔
      e ∈ s.account.pending ∨ e = ⟨task, isSuspended, s.account.enqueued.length⟩ := fun e => by
    rw [← List.mem_singleton, ← List.mem_append]
    rfl
  refine ⟨?_, ?_, StablePriorityQueue.strict_insertSorted h.strict (h.key_fresh _), fun k a => ?_, ?_, fun taskId task' => ?_⟩
  · unfold unwrapped
    rw [hlength]
    exact StablePriorityQueue.wf_insert h.wf (h.locator_none hnew) _
  · rw [hlength]
  · refine (StablePriorityQueue.insertSorted_perm _ _ _).mem_iff.trans ?_
    rw [List.mem_cons, show s.unwrapped.queue = s.queue.queuedTaskIds.queue from rfl, h.items]
    constructor
    · rintro (heq | ⟨e, he, hid, hk⟩)
      · obtain ⟨rfl, rfl⟩ := Prod.mk.inj heq
        exact ⟨_, (hmem _).mpr (.inr rfl), rfl, rfl⟩
      · exact ⟨e, (hmem e).mpr (.inl he), hid, hk⟩
    · rintro ⟨e, he, hid, hk⟩
      rcases (hmem e).mp he with hold | rfl
      · exact .inr ⟨e, hold, hid, hk⟩
      · exact .inl (Prod.ext hk hid.symm)
  · change ((s.account.pending ++ [_]).map _).Nodup
    rw [List.map_append]
    refine List.nodup_append.mpr ⟨h.ids, List.nodup_singleton _, ?_⟩
    rintro a hold b hlast rfl
    obtain ⟨e, he, rfl⟩ := List.mem_map.mp hold
    exact hnew e he (List.mem_singleton.mp hlast)
  · change (s.queue.queuedTaskIdToTask.set task.taskId task).get? taskId = some task' ↔ _
    rw [Dict.get?_set]
    split
    · next heq =>
      subst heq
      constructor
      · rintro ⟨⟩
        exact ⟨_, (hmem _).mpr (.inr rfl), rfl, rfl⟩
      · rintro ⟨e, he, rfl, hid⟩
        rcases (hmem e).mp he with hold | rfl
        · exact absurd hid (hnew e hold)
        · rfl
    · next hne =>
      rw [h.tasks]
      constructor
      · rintro ⟨e, he, htask⟩
        exact ⟨e, (hmem e).mpr (.inl he), htask⟩
      · rintro ⟨e, he, rfl, hid⟩
        rcases (hmem e).mp he with hold | rfl
        · exact ⟨e, hold, rfl, hid⟩
        · exact absurd hid.symm hne

/-- The queue without one task. -/
theorem Sound.without (h : s.Sound) {taskId : TaskID} {queuedTaskIds : StablePriorityQueue TaskID} {account : Account}
    (hwf : ({ queuedTaskIds with itemCounter := s.account.enqueued.length } : StablePriorityQueue TaskID).Wf)
    (hcounter : queuedTaskIds.itemCounter = s.queue.queuedTaskIds.itemCounter)
    (hlocator : queuedTaskIds.locator = s.queue.queuedTaskIds.locator.erase taskId)
    (hsublist : queuedTaskIds.queue.Sublist s.queue.queuedTaskIds.queue)
    (henqueued : account.enqueued = s.account.enqueued) (hpending : account.pending = s.account.without taskId) :
    Sound ⟨⟨queuedTaskIds, s.queue.queuedTaskIdToTask.erase taskId⟩, account⟩ := by
  have hmem : ∀ e, e ∈ account.pending ↔ e ∈ s.account.pending ∧ e.task.taskId ≠ taskId := fun e => by
    rw [hpending, Account.without, List.mem_filter, decide_eq_true_iff]
  refine ⟨?_, ?_, List.Pairwise.sublist hsublist h.strict, fun k a => ?_, ?_, fun taskId' task => ?_⟩
  · unfold unwrapped
    rw [henqueued]
    exact hwf
  · rw [henqueued, ← h.counter]
    exact hcounter
  · rw [← hwf.locate, hlocator, Dict.get?_erase]
    split
    · next heq =>
      refine ⟨fun hnone => absurd hnone.symm (Option.some_ne_none _), ?_⟩
      rintro ⟨e, he, hid, -⟩
      exact absurd (hid.trans heq) ((hmem e).mp he).2
    · next hne =>
      rw [show s.queue.queuedTaskIds.locator.get? a = some k ↔ _ from h.wf.locate a k,
        show s.unwrapped.queue = s.queue.queuedTaskIds.queue from rfl, h.items]
      constructor
      · rintro ⟨e, he, hid, hk⟩
        exact ⟨e, (hmem e).mpr ⟨he, fun heq => hne (hid.symm.trans heq)⟩, hid, hk⟩
      · rintro ⟨e, he, hid, hk⟩
        exact ⟨e, ((hmem e).mp he).1, hid, hk⟩
  · rw [hpending]
    exact (List.filter_sublist.map _).nodup h.ids
  · change (s.queue.queuedTaskIdToTask.erase taskId).get? taskId' = some task ↔ _
    rw [Dict.get?_erase]
    split
    · next heq =>
      refine ⟨fun hnone => absurd hnone.symm (Option.some_ne_none _), ?_⟩
      rintro ⟨e, he, rfl, hid⟩
      exact absurd (hid.trans heq) ((hmem e).mp he).2
    · next hne =>
      rw [h.tasks]
      constructor
      · rintro ⟨e, he, rfl, hid⟩
        exact ⟨e, (hmem e).mpr ⟨he, fun heq => hne (hid.symm.trans heq)⟩, rfl, hid⟩
      · rintro ⟨e, he, rfl, hid⟩
        exact ⟨e, ((hmem e).mp he).1, rfl, hid⟩

theorem Sound.remove (h : s.Sound) {taskId : TaskID} (hstep : s.step (.remove taskId) = some s') : s'.Sound := by
  cases hstep
  obtain ⟨hwf, hlocator⟩ := StablePriorityQueue.remove_wf h.wf taskId
  have hunwrapped : s.unwrapped.remove taskId =
      { s.queue.queuedTaskIds.remove taskId with itemCounter := s.account.enqueued.length } := by
    rw [StablePriorityQueue.remove, StablePriorityQueue.remove,
      show s.unwrapped.locator = s.queue.queuedTaskIds.locator from rfl]
    cases s.queue.queuedTaskIds.locator.get? taskId <;> rfl
  rw [hunwrapped] at hwf hlocator
  refine h.without hwf ?_ hlocator ?_ rfl rfl
  · unfold StablePriorityQueue.remove
    split <;> rfl
  · unfold StablePriorityQueue.remove
    split
    · exact .refl _
    · exact List.filter_sublist

/-- What a dequeue finds: nothing if nothing is pending, and else the first in the order. -/
theorem Sound.dequeue (h : s.Sound) :
    (s.account.pending = [] ∧ s.queue.dequeue = .ok none) ∨
      ∃ e ∈ s.account.pending, (∀ f ∈ s.account.pending, f ≠ e → e.Before f) ∧ ∃ queue, s.queue.dequeue = .ok (some (e.task, queue)) ∧
        ∀ account : Account, account.enqueued = s.account.enqueued → account.pending = s.account.without e.task.taskId →
          Sound ⟨queue, account⟩ := by
  cases hqueue : s.queue.queuedTaskIds.queue with
  | nil =>
    refine .inl ⟨List.eq_nil_iff_forall_not_mem.mpr fun e he => ?_, ?_⟩
    · have hitem := (h.items (key e) e.task.taskId).mpr ⟨e, he, rfl, rfl⟩
      rw [hqueue] at hitem
      exact absurd hitem List.not_mem_nil
    · rw [TaskQueue.dequeue, StablePriorityQueue.get, hqueue]
  | cons entry rest =>
    obtain ⟨k, a⟩ := entry
    obtain ⟨e, he, rfl, rfl⟩ := (h.items k a).mp (hqueue ▸ List.mem_cons_self)
    let left : StablePriorityQueue TaskID :=
      ⟨s.queue.queuedTaskIds.locator.erase e.task.taskId, rest, s.queue.queuedTaskIds.itemCounter⟩
    have hget : s.queue.queuedTaskIds.get = some ((TaskQueue.queuePriority e.task e.suspended, e.task.taskId), left) := by
      rw [StablePriorityQueue.get, hqueue]
      rfl
    have hget' : s.unwrapped.get = some ((TaskQueue.queuePriority e.task e.suspended, e.task.taskId),
        { left with itemCounter := s.account.enqueued.length }) := by
      rw [StablePriorityQueue.get, show s.unwrapped.queue = s.queue.queuedTaskIds.queue from rfl, hqueue]
      rfl
    have htask := (h.tasks e.task.taskId e.task).mpr ⟨e, he, rfl, rfl⟩
    have hstrict := h.strict
    rw [hqueue] at hstrict
    refine .inr ⟨e, he, fun f hf hne => ?_, ⟨left, s.queue.queuedTaskIdToTask.erase e.task.taskId⟩, ?_, fun account henqueued hpending => ?_⟩
    · rw [← key_lt_iff]
      have hitem := (h.items (key f) f.task.taskId).mpr ⟨f, hf, rfl, rfl⟩
      rw [hqueue] at hitem
      rcases List.mem_cons.mp hitem with heq | hrest
      · exact absurd (h.eq_of_taskId hf he (congrArg Prod.snd heq)) hne
      · exact (List.pairwise_cons.mp hstrict).1 _ hrest
    · rw [TaskQueue.dequeue, hget]
      dsimp only
      rw [htask]
    · refine h.without (StablePriorityQueue.get_eq h.wf hget').1 rfl rfl ?_ henqueued hpending
      rw [hqueue]
      exact List.sublist_cons_self _ _

theorem Sound.step (h : s.Sound) {event : QueueEvent} (hallowed : s.Allowed event)
    (hcount : s'.account.enqueued.length ≤ 2 ^ 64) (hstep : s.step event = some s') : s'.Sound := by
  cases event with
  | enqueue task isSuspended =>
    refine h.enqueue hallowed ?_ hstep
    unfold QueueRun.step at hstep
    split at hstep
    · cases hstep
    · cases hstep
      rw [Account.record, List.length_append] at hcount
      exact hcount
  | remove taskId => exact h.remove hstep
  | dequeue =>
    rw [QueueRun.step, TaskQueue.step] at hstep
    rcases h.dequeue with ⟨-, hnone⟩ | ⟨e, -, -, queue, hsome, hsound⟩
    · rw [hnone] at hstep
      cases hstep
    · rw [hsome] at hstep
      cases hstep
      exact hsound _ rfl rfl

/-- Every enqueued task is pending, returned or removed, and numbered in its turn. -/
structure Balanced (account : Account) : Prop where
  perm : account.enqueued.Perm (account.pending ++ account.returned ++ account.removed)
  numbered : account.enqueued.map Queued.number = List.range account.enqueued.length

theorem without_append_named (account : Account) (taskId : TaskID) :
    account.pending.Perm (account.without taskId ++ account.named taskId) := by
  have hperm := List.filter_append_perm (fun e : Queued => decide (e.task.taskId ≠ taskId)) account.pending
  simp only [decide_not, Bool.not_not] at hperm
  rw [Account.without, Account.named]
  simp only [decide_not]
  exact hperm.symm

theorem Balanced.record {account : Account} (h : Balanced account) (event : QueueEvent) (task : Option PrioritizedTask) :
    Balanced (account.record event task) := by
  have hcount := fun e => h.perm.count_eq e
  have hpartition := fun taskId e => (without_append_named account taskId).count_eq e
  simp only [List.count_append] at hcount hpartition
  cases event with
  | enqueue task isSuspended =>
    refine ⟨List.perm_iff_count.mpr fun e => ?_, ?_⟩
    · simp only [Account.record, List.count_append, hcount e]
      omega
    · rw [Account.record, List.map_append, h.numbered, List.length_append, List.length_singleton, List.range_succ]
      rfl
  | remove taskId =>
    refine ⟨List.perm_iff_count.mpr fun e => ?_, h.numbered⟩
    simp only [Account.record, List.count_append, hcount e, hpartition taskId e]
    omega
  | dequeue =>
    cases task with
    | none => exact h
    | some task =>
      refine ⟨List.perm_iff_count.mpr fun e => ?_, h.numbered⟩
      simp only [Account.record, List.count_append, hcount e, hpartition task.taskId e]
      omega

theorem account_step {event : QueueEvent} (hstep : s.step event = some s') :
    ∃ task, s'.account = s.account.record event task := by
  unfold QueueRun.step at hstep
  split at hstep
  · cases hstep
  · cases hstep
    exact ⟨_, rfl⟩

theorem length_enqueued_le {event : QueueEvent} (hstep : s.step event = some s') :
    s.account.enqueued.length ≤ s'.account.enqueued.length := by
  obtain ⟨task, haccount⟩ := account_step hstep
  rw [haccount]
  unfold Account.record
  split
  · rw [List.length_append]
    exact Nat.le_add_right _ _
  · exact Nat.le_refl _
  · exact Nat.le_refl _
  · exact Nat.le_refl _

/-- With at most `2 ^ 64` enqueues every dequeue returns the pending task that is first in the order, and
only this one; every enqueued task is still pending, has been returned or was removed; and an allowed
task can be enqueued. -/
theorem queue_order (events : List QueueEvent) (hallowed : AlongSome step Allowed start events)
    (hrun : events.foldlM step start = some s) (hcount : s.account.enqueued.length ≤ 2 ^ 64) :
    (s.account.pending = [] ∧ s.queue.dequeue = .ok none ∨
      ∃ e ∈ s.account.pending, (∀ f ∈ s.account.pending, f ≠ e → e.Before f) ∧ s.account.named e.task.taskId = [e] ∧
        ∃ queue, s.queue.dequeue = .ok (some (e.task, queue))) ∧
    s.account.enqueued.Perm (s.account.pending ++ s.account.returned ++ s.account.removed) ∧ s.account.enqueued.Nodup ∧
    ∀ task isSuspended, s.Allowed (.enqueue task isSuspended) → s.account.enqueued.length < 2 ^ 64 →
      (s.queue.enqueueTask task isSuspended).isSome = true := by
  have hsound : s.Sound := hallowed.foldlM (I := fun s => s.account.enqueued.length ≤ 2 ^ 64 → s.Sound)
    (fun _ _ _ h hok hstep hle => (h (Nat.le_trans (length_enqueued_le hstep) hle)).step hok hle hstep) (fun _ => .start) hrun hcount
  have hbalanced : Balanced s.account := foldlM_some (I := fun s => Balanced s.account)
    (fun _ _ _ h hstep => by
      obtain ⟨task, haccount⟩ := account_step hstep
      rw [haccount]
      exact h.record _ task) ⟨.refl _, rfl⟩ hrun
  refine ⟨?_, hbalanced.perm, ?_, fun task isSuspended hallowed hlt => ?_⟩
  · rcases hsound.dequeue with hnone | ⟨e, he, hfirst, queue, hsome, -⟩
    · exact .inl hnone
    · exact .inr ⟨e, he, hfirst, hsound.named_eq he, queue, hsome⟩
  · have hnodup : (s.account.enqueued.map Queued.number).Nodup := by
      rw [hbalanced.numbered]
      exact List.nodup_range
    exact hnodup.of_map _
  · rw [hsound.enqueueTask hallowed hlt]
    rfl

theorem queue_order_suspended : ∃ s, [.enqueue ⟨⟨1⟩, 3⟩ false, .enqueue ⟨⟨2⟩, 3⟩ true].foldlM step start = some s ∧
    s.account.pending ≠ [] ∧ ∃ e ∈ s.account.pending, (∀ f ∈ s.account.pending, f ≠ e → e.Before f) ∧
      ∃ queue, s.queue.dequeue = .ok (some (e.task, queue)) := by
  have hallowed : AlongSome step Allowed start [.enqueue ⟨⟨1⟩, 3⟩ false, .enqueue ⟨⟨2⟩, 3⟩ true] := by
    refine ⟨⟨by decide, by decide, fun _ he => absurd he List.not_mem_nil⟩, fun s hs => ?_⟩
    obtain rfl := Option.some.inj hs
    refine ⟨⟨by decide, by decide, fun e he => ?_⟩, fun _ _ => trivial⟩
    obtain rfl := List.mem_singleton.mp he
    decide
  obtain ⟨hnone | ⟨e, he, hfirst, -, hdequeue⟩, -⟩ := queue_order _ hallowed rfl (by decide)
  · exact absurd hnone.1 nofun
  · exact ⟨_, rfl, nofun, e, he, hfirst, hdequeue⟩

section Wrap

/-- A task comes and goes. -/
def round : List QueueEvent := [.enqueue ⟨⟨0⟩, 0⟩ false, .dequeue]

/-- Nothing is queued. -/
def idle (itemCounter : Nat) (enqueued returned : List Queued) : QueueRun :=
  ⟨⟨⟨.empty, [], itemCounter⟩, .empty⟩, ⟨enqueued, [], returned, []⟩⟩

/-- One task is queued. -/
def busy (taskId : TaskID) (itemCounter next : Nat) (enqueued returned : List Queued) : QueueRun :=
  ⟨⟨⟨Dict.empty.set taskId (0, itemCounter), [((0, itemCounter), taskId)], next⟩, Dict.empty.set taskId ⟨taskId, 0⟩⟩,
    ⟨enqueued ++ [⟨⟨taskId, 0⟩, false, enqueued.length⟩], [⟨⟨taskId, 0⟩, false, enqueued.length⟩], returned, []⟩⟩

theorem step_idle (taskId : TaskID) (itemCounter : Nat) (enqueued returned : List Queued) :
    (idle itemCounter enqueued returned).step (.enqueue ⟨taskId, 0⟩ false) =
      some (busy taskId itemCounter ((itemCounter + 1) % 2 ^ 64) enqueued returned) := rfl

theorem step_busy (itemCounter : Nat) (enqueued returned : List Queued) :
    (busy ⟨0⟩ itemCounter ((itemCounter + 1) % 2 ^ 64) enqueued returned).step .dequeue = some (idle ((itemCounter + 1) % 2 ^ 64)
      (enqueued ++ [⟨⟨⟨0⟩, 0⟩, false, enqueued.length⟩]) (returned ++ [⟨⟨⟨0⟩, 0⟩, false, enqueued.length⟩])) := rfl

theorem run_rounds (n c : Nat) (enqueued returned : List Queued) : ∃ enqueued' returned',
    ∀ events : List QueueEvent,
      ((List.replicate n round).flatten ++ events).foldlM step (idle (c % 2 ^ 64) enqueued returned) =
        events.foldlM step (idle ((c + n) % 2 ^ 64) enqueued' returned') ∧
      (AlongSome step Allowed (idle ((c + n) % 2 ^ 64) enqueued' returned') events →
        AlongSome step Allowed (idle (c % 2 ^ 64) enqueued returned) ((List.replicate n round).flatten ++ events)) := by
  induction n generalizing c enqueued returned with
  | zero => exact ⟨enqueued, returned, fun events => ⟨rfl, id⟩⟩
  | succ n ih =>
    obtain ⟨enqueued', returned', hrest⟩ := ih (c + 1) (enqueued ++ [⟨⟨⟨0⟩, 0⟩, false, enqueued.length⟩])
      (returned ++ [⟨⟨⟨0⟩, 0⟩, false, enqueued.length⟩])
    have hcounter : (c % 2 ^ 64 + 1) % 2 ^ 64 = (c + 1) % 2 ^ 64 := Nat.mod_add_mod c (2 ^ 64) 1
    have hsum : c + 1 + n = c + (n + 1) := by omega
    rw [hsum] at hrest
    refine ⟨enqueued', returned', fun events => ?_⟩
    obtain ⟨hrun, hallowed⟩ := hrest events
    have hevents : (List.replicate (n + 1) round).flatten ++ events =
        .enqueue ⟨⟨0⟩, 0⟩ false :: .dequeue :: ((List.replicate n round).flatten ++ events) := rfl
    rw [hevents]
    constructor
    · rw [List.foldlM_cons, step_idle, Option.bind_eq_bind, Option.bind_some, List.foldlM_cons, step_busy, Option.bind_eq_bind,
        Option.bind_some, hcounter]
      exact hrun
    · intro hlast
      refine ⟨⟨by decide, by decide, fun _ he => absurd he List.not_mem_nil⟩, fun s hs => ⟨trivial, fun s' hs' => ?_⟩⟩
      obtain rfl := Option.some.inj ((step_idle _ _ _ _).symm.trans hs)
      obtain rfl := Option.some.inj ((step_busy _ _ _).symm.trans hs')
      rw [hcounter]
      exact hallowed hlast

-- the counter is at its last value for task 1 and at zero for task 2
theorem wrapped_counter_reverses_order : ∃ s queue,
    AlongSome step Allowed start ((List.replicate (2 ^ 64 - 1) round).flatten ++ [QueueEvent.enqueue ⟨⟨1⟩, 0⟩ false, .enqueue ⟨⟨2⟩, 0⟩ false]) ∧
      ((List.replicate (2 ^ 64 - 1) round).flatten ++ [QueueEvent.enqueue ⟨⟨1⟩, 0⟩ false, .enqueue ⟨⟨2⟩, 0⟩ false]).foldlM step start =
        some s ∧
      s.queue.dequeue = .ok (some (⟨⟨2⟩, 0⟩, queue)) ∧
      ∃ e ∈ s.account.pending, e.task = ⟨⟨1⟩, 0⟩ ∧ ∀ f ∈ s.account.pending, f ≠ e → e.Before f := by
  obtain ⟨enqueued, returned, hrounds⟩ := run_rounds (2 ^ 64 - 1) 0 [] []
  obtain ⟨hrun, hallowed⟩ := hrounds [QueueEvent.enqueue ⟨⟨1⟩, 0⟩ false, .enqueue ⟨⟨2⟩, 0⟩ false]
  have hcounter : (0 + (2 ^ 64 - 1)) % 2 ^ 64 = 2 ^ 64 - 1 := by decide
  have hwrap : (2 ^ 64 - 1 + 1) % 2 ^ 64 = 0 := by decide
  have hone := step_idle ⟨1⟩ (2 ^ 64 - 1) enqueued returned
  rw [hwrap] at hone
  rw [hcounter, List.foldlM_cons, hone, Option.bind_eq_bind, Option.bind_some, List.foldlM_cons] at hrun
  rw [hcounter] at hallowed
  refine ⟨_, _, hallowed ?_, hrun.trans rfl, rfl, ⟨⟨⟨1⟩, 0⟩, false, enqueued.length⟩, List.mem_cons_self, rfl, fun f hf hne => ?_⟩
  · refine ⟨⟨by decide, by decide, fun _ he => absurd he List.not_mem_nil⟩, fun s hs => ⟨⟨by decide, by decide, fun e he => ?_⟩, fun _ _ => trivial⟩⟩
    obtain rfl := Option.some.inj (hone.symm.trans hs)
    obtain rfl := List.mem_singleton.mp he
    change (⟨1⟩ : TaskID) ≠ ⟨2⟩
    decide
  · rcases List.mem_cons.mp hf with rfl | hf
    · exact absurd rfl hne
    · obtain rfl := List.mem_singleton.mp hf
      refine .inr ⟨rfl, .inr ⟨rfl, ?_⟩⟩
      change enqueued.length < (enqueued ++ [_]).length
      rw [List.length_append]
      exact Nat.lt_succ_self _

end Wrap

end QueueRun

end Worker

end Scaler
