import Scaler.Policy.Calls
import Scaler.Policy.EvenLoadInvariant

/-! The priorities of the worker queue are the loads of the workers, so the worker at its
front is one with the fewest tasks. -/

namespace Scaler

open Collections

namespace StablePriorityQueue

variable {α : Type}

def Sorted (es : List (MapKey × α)) : Prop := es.Pairwise fun a b => a.1.1 ≤ b.1.1

theorem lt_priority {a b : MapKey} (h : MapKey.lt a b = true) : a.1 ≤ b.1 := by
  simp only [MapKey.lt, Bool.or_eq_true, decide_eq_true_eq, Bool.and_eq_true, beq_iff_eq] at h
  omega

theorem not_lt_priority {a b : MapKey} (h : ¬MapKey.lt a b = true) : b.1 ≤ a.1 := by
  simp only [MapKey.lt, Bool.or_eq_true, decide_eq_true_eq, Bool.and_eq_true, beq_iff_eq] at h
  omega

theorem sorted_insertSorted {k : MapKey} {a : α} {es : List (MapKey × α)} (h : Sorted es) :
    Sorted (insertSorted k a es) := by
  induction es with
  | nil => exact List.pairwise_singleton _ _
  | cons e es ih =>
    obtain ⟨he, hes⟩ := List.pairwise_cons.mp h
    simp only [insertSorted]
    split
    · next hlt =>
      refine List.pairwise_cons.mpr ⟨fun x hx => ?_, ih hes⟩
      rcases List.mem_cons.mp ((insertSorted_perm k a es).mem_iff.mp hx) with rfl | hx
      · exact lt_priority hlt
      · exact he x hx
    · next hlt =>
      have hk := not_lt_priority hlt
      refine List.pairwise_cons.mpr ⟨fun x hx => ?_, h⟩
      rcases List.mem_cons.mp hx with rfl | hx
      · exact hk
      · exact Int.le_trans hk (he x hx)

/-- `std::map` keeps its smallest key first, so the front has the lowest priority. -/
theorem sorted_head_le {e : MapKey × α} {es : List (MapKey × α)} (h : Sorted (e :: es))
    {x : MapKey × α} (hx : x ∈ e :: es) : e.1.1 ≤ x.1.1 := by
  rcases List.mem_cons.mp hx with rfl | hx
  · exact Int.le_refl _
  · exact (List.pairwise_cons.mp h).1 x hx

variable [DecidableEq α]

theorem mem_queue_unique {q : StablePriorityQueue α} (h : q.Wf) {a : α} {k k' : MapKey}
    (hk : (k, a) ∈ q.queue) (hk' : (k', a) ∈ q.queue) : k = k' := by
  have h1 := (h.locate a k).mpr hk
  rw [(h.locate a k').mpr hk'] at h1
  exact (Option.some.inj h1).symm

theorem sorted_remove {q : StablePriorityQueue α} (h : Sorted q.queue) (a : α) :
    Sorted (q.remove a).queue := by
  unfold remove
  split
  · exact h
  · exact List.Pairwise.sublist List.filter_sublist h

theorem sorted_decreasePriority {q : StablePriorityQueue α} (h : Sorted q.queue) (a : α) :
    Sorted (q.decreasePriority a).queue := by
  unfold decreasePriority
  split
  · exact h
  · exact sorted_insertSorted (List.Pairwise.sublist List.filter_sublist h)

/-- The priority of an item, if it is queued. -/
def priority? (q : StablePriorityQueue α) (a : α) : Option Int := (q.locator.get? a).map Prod.fst

theorem priority?_put (q : StablePriorityQueue α) (n : Int) (a b : α) :
    (q.put n a).priority? b = if b = a then some n else q.priority? b := by
  simp only [priority?, put, Dict.get?_set]
  split <;> rfl

theorem priority?_remove {q : StablePriorityQueue α} (h : q.Wf) (a b : α) :
    (q.remove a).priority? b = if b = a then none else q.priority? b := by
  rw [priority?, (remove_wf h a).2, Dict.get?_erase]
  split <;> rfl

theorem priority?_decreasePriority (q : StablePriorityQueue α) (a b : α) :
    (q.decreasePriority a).priority? b =
      if b = a then (q.priority? a).map (· - 1) else q.priority? b := by
  unfold decreasePriority
  cases ha : q.locator.get? a with
  | none =>
    by_cases hb : b = a
    · simp [priority?, hb, ha]
    · rw [if_neg hb]
  | some k =>
    simp only [priority?, Dict.get?_set, ha]
    split <;> rfl

/-- What `get` takes is the front, and no item has a lower priority. -/
theorem get_min {q q' : StablePriorityQueue α} {n : Int} {a : α} (h : q.Wf) (hs : Sorted q.queue)
    (hg : q.get = some ((n, a), q')) :
    q.priority? a = some n ∧ Sorted q'.queue ∧
      (∀ b, q'.priority? b = if b = a then none else q.priority? b) ∧
      ∀ b m, q.priority? b = some m → n ≤ m := by
  unfold get at hg
  cases hq : q.queue with
  | nil => simp [hq] at hg
  | cons e es =>
    obtain ⟨k, c⟩ := e
    simp only [hq, Option.some.injEq, Prod.mk.injEq] at hg
    obtain ⟨⟨rfl, rfl⟩, rfl⟩ := hg
    rw [hq] at hs
    have hfront : q.locator.get? c = some k := (h.locate c k).mpr (by simp [hq])
    refine ⟨by simp [priority?, hfront], (List.pairwise_cons.mp hs).2, fun b => ?_, ?_⟩
    · simp only [priority?, Dict.get?_erase]
      split <;> rfl
    · intro b m hb
      obtain ⟨k', hk', rfl⟩ := Option.map_eq_some_iff.mp hb
      have hmem : (k', b) ∈ (k, c) :: es := by
        rw [← hq]
        exact (h.locate b k').mp hk'
      exact sorted_head_le hs hmem

end StablePriorityQueue

namespace EvenLoadAllocatePolicy

/-- The agreement of the tables, and the queue of workers ordered by their loads. -/
structure Loaded (p : EvenLoadAllocatePolicy) : Prop where
  wf : p.Wf
  sorted : StablePriorityQueue.Sorted p.workerQueue.queue
  load : ∀ w, p.workerQueue.priority? w =
    (p.workersToTaskIds.get? w).map fun ids => (ids.size : Int)
  bounded : ∀ w ids size, p.workersToTaskIds.get? w = some ids →
    p.workersToQueueSize.get? w = some size → ids.size ≤ size

theorem loaded_empty : empty.Loaded where
  wf := wf_empty
  sorted := List.Pairwise.nil
  load := fun _ => rfl
  bounded := by simp [empty]

theorem addWorker_loaded {p : EvenLoadAllocatePolicy} (h : p.Loaded) (w : WorkerID) (size : Nat) :
    (p.addWorker w size).2.Loaded := by
  have hwf := (addWorker_wf h.wf w size).1
  unfold addWorker at hwf ⊢
  split
  · exact h
  · next hc =>
    rw [if_neg hc] at hwf
    refine ⟨hwf, StablePriorityQueue.sorted_insertSorted h.sorted, fun v => ?_, ?_⟩
    · rw [StablePriorityQueue.priority?_put, h.load, Dict.get?_set]
      split <;> rfl
    · intro v ids n hv hn
      simp only [Dict.get?_set] at hv hn
      by_cases he : v = w
      · rw [if_pos he] at hv
        cases hv
        exact Nat.zero_le _
      · rw [if_neg he] at hv hn
        exact h.bounded v ids n hv hn

theorem removeWorker_loaded {p : EvenLoadAllocatePolicy} (h : p.Loaded) (w : WorkerID) :
    (p.removeWorker w).2.Loaded := by
  have hwf : (p.removeWorker w).2.Wf := by
    obtain ⟨_, _, he, hwf, _⟩ := removeWorker_wf h.wf w
    rw [he]
    exact hwf
  unfold removeWorker at hwf ⊢
  split
  · exact h
  · next q hq =>
    simp only [hq] at hwf
    refine ⟨hwf, StablePriorityQueue.sorted_remove h.sorted w, fun v => ?_, ?_⟩
    · rw [StablePriorityQueue.priority?_remove h.wf.queue, h.load, Dict.get?_erase]
      split <;> rfl
    · intro v ids n hv hn
      simp only [Dict.get?_erase] at hv hn
      by_cases he : v = w
      · rw [if_pos he] at hv
        cases hv
      · rw [if_neg he] at hv hn
        exact h.bounded v ids n hv hn

/-- Every branch that `assign_task` can take for a task that nobody holds. -/
theorem assignTask_cases {p : EvenLoadAllocatePolicy} (h : p.Loaded) {task : Task}
    (ht : p.taskIdToWorker.get? task.taskId = none) :
    (p.getWorkerIds = [] ∧ p.assignTask task = (.ok none, p)) ∨
    ∃ w ids size queue, p.workersToTaskIds.get? w = some ids ∧
      p.workersToQueueSize.get? w = some size ∧
      p.workerQueue.get = some (((ids.size : Int), w), queue) ∧
      (ids.size = size ∧
          p.assignTask task = (.ok none, { p with workerQueue := queue.put ids.size w }) ∨
        ids.size < size ∧ p.assignTask task = (.ok (some w),
          { p with
            workersToTaskIds := p.workersToTaskIds.set w ⟨task.taskId :: ids.list⟩
            taskIdToWorker := p.taskIdToWorker.set task.taskId w
            workerQueue := queue.put (ids.size + 1) w })) := by
  unfold assignTask
  simp only [ht]
  cases hg : p.workerQueue.get with
  | none =>
    refine .inl ⟨?_, rfl⟩
    have hq : p.workerQueue.queue = [] := by
      unfold StablePriorityQueue.get at hg
      split at hg
      · assumption
      · cases hg
    refine List.eq_nil_iff_forall_not_mem.mpr fun w hw => ?_
    rw [mem_getWorkerIds, ← h.wf.queued] at hw
    obtain ⟨k, hk⟩ := Option.isSome_iff_exists.mp hw
    have := (h.wf.queue.locate w k).mp hk
    rw [hq] at this
    cases this
  | some r =>
    obtain ⟨⟨count, w⟩, queue⟩ := r
    obtain ⟨hprio, -, -, -⟩ := StablePriorityQueue.get_min h.wf.queue h.sorted hg
    rw [h.load] at hprio
    obtain ⟨ids, hids, rfl⟩ := Option.map_eq_some_iff.mp hprio
    have hsize : (p.workersToQueueSize.get? w).isSome := by rw [h.wf.sized, hids]; rfl
    obtain ⟨size, hsize⟩ := Option.isSome_iff_exists.mp hsize
    have hle := h.bounded w ids size hids hsize
    have hnot : task.taskId ∉ ids.list := by
      intro hm
      rw [(h.wf.held _ w).mpr ⟨ids, hids, hm⟩] at ht
      cases ht
    refine .inr ⟨w, ids, size, queue, hids, hsize, rfl, ?_⟩
    simp only [hsize, hids, IndexedQueue.put, if_neg hnot]
    by_cases hfull : ids.size = size
    · exact .inl ⟨hfull, by rw [if_pos (by exact_mod_cast hfull)]⟩
    · exact .inr ⟨by omega, by rw [if_neg (by exact_mod_cast hfull)]⟩

theorem assignTask_loaded {p : EvenLoadAllocatePolicy} (h : p.Loaded) (task : Task) :
    (p.assignTask task).2.Loaded := by
  obtain ⟨r, p', he, hwf, -⟩ := assignTask_wf h.wf task
  rw [he]
  cases ht : p.taskIdToWorker.get? task.taskId with
  | some w =>
    have hsame : p.assignTask task = (.ok (some w), p) := by simp [assignTask, ht]
    cases hsame.symm.trans he
    exact h
  | none =>
    obtain ⟨-, hnone⟩ | ⟨w, ids, size, queue, hids, hsize, hg, hcase⟩ := assignTask_cases h ht
    · cases hnone.symm.trans he
      exact h
    obtain ⟨-, hsorted, hprio, -⟩ := StablePriorityQueue.get_min h.wf.queue h.sorted hg
    have hput : ∀ n v, (queue.put n w).priority? v =
        if v = w then some n else (p.workersToTaskIds.get? v).map fun ids => (ids.size : Int) := by
      intro n v
      rw [StablePriorityQueue.priority?_put, hprio, h.load]
      split <;> rfl
    obtain ⟨-, hfull⟩ | ⟨hfree, hsome⟩ := hcase
    · cases hfull.symm.trans he
      refine ⟨hwf, StablePriorityQueue.sorted_insertSorted hsorted, fun v => ?_, h.bounded⟩
      rw [hput]
      split
      · next hv => rw [hv, hids]; rfl
      · rfl
    · cases hsome.symm.trans he
      refine ⟨hwf, StablePriorityQueue.sorted_insertSorted hsorted, fun v => ?_, ?_⟩
      · rw [hput, Dict.get?_set]
        split
        · simp [IndexedQueue.size]
        · rfl
      · intro v vs n hv hn
        simp only [Dict.get?_set] at hv
        split at hv
        · next hvw =>
          cases hv
          rw [hvw, hsize] at hn
          cases hn
          exact hfree
        · exact h.bounded v vs n hv hn

theorem removeTask_loaded {p : EvenLoadAllocatePolicy} (h : p.Loaded) (t : TaskID) :
    (p.removeTask t).2.Loaded := by
  have hwf : (p.removeTask t).2.Wf := by
    obtain ⟨_, _, he, hwf, _⟩ := removeTask_wf h.wf t
    rw [he]
    exact hwf
  unfold removeTask at hwf ⊢
  cases ht : p.taskIdToWorker.get? t with
  | none => exact h
  | some w =>
    obtain ⟨ids, hids, hm⟩ := (h.wf.held t w).mp ht
    simp only [ht, hids, IndexedQueue.remove, if_pos hm] at hwf ⊢
    have hlen := List.length_erase_of_mem hm
    have hpos := List.length_pos_of_mem hm
    refine ⟨hwf, StablePriorityQueue.sorted_decreasePriority h.sorted w, fun v => ?_, ?_⟩
    · rw [StablePriorityQueue.priority?_decreasePriority, h.load, h.load, Dict.get?_set]
      split
      · simp only [hids, Option.map_some, IndexedQueue.size, hlen, Option.some.injEq]
        omega
      · rfl
    · intro v vs n hv hn
      simp only [Dict.get?_set] at hv
      split at hv
      · next hvw =>
        cases hv
        rw [hvw] at hn
        have := h.bounded w ids n hids hn
        simp only [IndexedQueue.size, hlen] at this ⊢
        omega
      · exact h.bounded v vs n hv hn

theorem call_loaded {p : EvenLoadAllocatePolicy} (h : p.Loaded) (c : PolicyCall) :
    ∃ p', p.call c = .ok p' ∧ p'.Loaded := by
  cases c with
  | addWorker w capabilities queueSize => exact ⟨_, rfl, addWorker_loaded h w queueSize⟩
  | removeWorker w =>
    obtain ⟨_, _, he, -⟩ := removeWorker_wf h.wf w
    have hl := removeWorker_loaded h w
    rw [he] at hl
    exact ⟨_, by rw [call, he, afterCall_ok], hl⟩
  | assignTask order task =>
    obtain ⟨_, _, he, -⟩ := assignTask_wf h.wf task
    have hl := assignTask_loaded h task
    rw [he] at hl
    exact ⟨_, by rw [call, he, afterCall_ok], hl⟩
  | removeTask t =>
    obtain ⟨_, _, he, -⟩ := removeTask_wf h.wf t
    have hl := removeTask_loaded h t
    rw [he] at hl
    exact ⟨_, by rw [call, he, afterCall_ok], hl⟩

theorem calls_loaded {p : EvenLoadAllocatePolicy} (h : p.Loaded) (cs : List PolicyCall) :
    ∃ p', cs.foldlM call p = .ok p' ∧ p'.Loaded := by
  induction cs generalizing p with
  | nil => exact ⟨p, rfl, h⟩
  | cons c cs ih =>
    obtain ⟨p', hc, hp⟩ := call_loaded h c
    obtain ⟨p'', hcs, hp'⟩ := ih hp
    exact ⟨p'', by rw [List.foldlM_cons, hc]; exact hcs, hp'⟩

/-- Workers and their priorities, read off the queue. -/
def priorities (p : EvenLoadAllocatePolicy) : List (WorkerID × Int) :=
  p.workerQueue.queue.map fun e => (e.2, e.1.1)

/-- Workers and the lengths of their task queues. -/
def loads (p : EvenLoadAllocatePolicy) : List (WorkerID × Int) :=
  p.workersToTaskIds.entries.map fun e => (e.1, e.2.size)

theorem Loaded.priorities_perm {p : EvenLoadAllocatePolicy} (h : p.Loaded) :
    p.priorities.Perm p.loads := by
  have hqueue : p.priorities.Nodup := by
    refine List.Nodup.map_on ?_ (List.Nodup.of_map _ h.wf.queue.unique)
    rintro ⟨k, a⟩ hk ⟨k', a'⟩ hk' he
    obtain rfl : a = a' := congrArg Prod.fst he
    rw [StablePriorityQueue.mem_queue_unique h.wf.queue hk hk']
  have hloads : p.loads.Nodup := by
    refine List.Nodup.of_map Prod.fst ?_
    have hkeys := p.workersToTaskIds.nodup
    simpa [loads, Function.comp_def] using hkeys
  refine (List.perm_ext_iff_of_nodup hqueue hloads).mpr ?_
  rintro ⟨w, n⟩
  have hload : p.workerQueue.priority? w = some n ↔
      ∃ ids, p.workersToTaskIds.get? w = some ids ∧ (ids.size : Int) = n := by
    rw [h.load, Option.map_eq_some_iff]
  constructor
  · intro hm
    obtain ⟨⟨k, a⟩, he, hk⟩ := List.mem_map.mp hm
    cases hk
    obtain ⟨ids, hids, hn⟩ := hload.mp (by
      rw [StablePriorityQueue.priority?, (h.wf.queue.locate _ _).mpr he]
      rfl)
    exact List.mem_map.mpr ⟨(a, ids), (Dict.mem_entries _ _ _).mpr hids, by rw [hn]⟩
  · intro hm
    obtain ⟨⟨v, ids⟩, he, hk⟩ := List.mem_map.mp hm
    cases hk
    obtain ⟨k, hk, hn⟩ := Option.map_eq_some_iff.mp
      (hload.mpr ⟨ids, (Dict.mem_entries _ _ _).mp he, rfl⟩)
    exact List.mem_map.mpr ⟨(k, v), (h.wf.queue.locate _ _).mp hk, by rw [← hn]⟩

/-- The invariant in the words of the policy: each registered worker is queued once under
its load, both tables of assignments say the same, and no queue is overfull. -/
structure Balanced (p : EvenLoadAllocatePolicy) : Prop where
  queued : p.priorities.Perm p.loads
  assigned : ∀ t w, p.taskIdToWorker.get? t = some w ↔
    ∃ ids, p.workersToTaskIds.get? w = some ids ∧ t ∈ ids.list
  distinct : ∀ w ids, p.workersToTaskIds.get? w = some ids → ids.list.Nodup
  bounded : ∀ w ids, p.workersToTaskIds.get? w = some ids →
    ∃ size, p.workersToQueueSize.get? w = some size ∧ ids.size ≤ size

theorem Loaded.balanced {p : EvenLoadAllocatePolicy} (h : p.Loaded) : p.Balanced where
  queued := h.priorities_perm
  assigned := h.wf.held
  distinct := h.wf.nodup
  bounded := by
    intro w ids hids
    have hsize : (p.workersToQueueSize.get? w).isSome := by rw [h.wf.sized, hids]; rfl
    obtain ⟨size, hsize⟩ := Option.isSome_iff_exists.mp hsize
    exact ⟨size, hsize, h.bounded w ids size hids hsize⟩

def FewestTasks (p : EvenLoadAllocatePolicy) (w : WorkerID) : Prop :=
  ∃ ids, p.workersToTaskIds.get? w = some ids ∧
    ∀ v vs, p.workersToTaskIds.get? v = some vs → ids.size ≤ vs.size

def SameSizes (p : EvenLoadAllocatePolicy) : Prop :=
  ∀ v w m n, p.workersToQueueSize.get? v = some m → p.workersToQueueSize.get? w = some n → m = n

def AllFull (p : EvenLoadAllocatePolicy) : Prop :=
  ∀ w ids, p.workersToTaskIds.get? w = some ids → p.workersToQueueSize.get? w = some ids.size

theorem assignTask_fewest {p : EvenLoadAllocatePolicy} (h : p.Loaded) {task : Task}
    (ht : p.taskIdToWorker.get? task.taskId = none) :
    ∃ r p', p.assignTask task = (.ok r, p') ∧ (∀ w, r = some w → p.FewestTasks w) ∧
      (p.SameSizes → (r = none ↔ p.AllFull)) := by
  obtain ⟨hnil, hnone⟩ | ⟨w, ids, size, queue, hids, hsize, hg, hcase⟩ := assignTask_cases h ht
  · refine ⟨none, p, hnone, by simp, fun _ => iff_of_true rfl fun w ids hids => ?_⟩
    have hw : w ∈ p.getWorkerIds := mem_getWorkerIds.mpr (by simp [hids])
    simp [hnil] at hw
  obtain ⟨-, -, -, hmin⟩ := StablePriorityQueue.get_min h.wf.queue h.sorted hg
  have hfewest : ∀ v vs, p.workersToTaskIds.get? v = some vs → ids.size ≤ vs.size := by
    intro v vs hv
    have := hmin v vs.size (by rw [h.load, hv]; rfl)
    omega
  obtain ⟨hfull, he⟩ | ⟨hfree, he⟩ := hcase
  · refine ⟨none, _, he, by simp, fun hsame => iff_of_true rfl fun v vs hv => ?_⟩
    obtain ⟨n, hn, hle⟩ := h.balanced.bounded v vs hv
    have hsizes := hsame v w n size hn hsize
    have hload := hfewest v vs hv
    rw [hn, show n = vs.size by omega]
  · refine ⟨some w, _, he, ?_, fun _ => iff_of_false (by simp) fun hfull => ?_⟩
    · rintro v hv
      cases hv
      exact ⟨ids, hids, hfewest⟩
    · have := hfull w ids hids
      rw [hsize] at this
      have := Option.some.inj this
      omega

/-- No call on the even load policy raises, the invariant holds after every sequence of
calls, and a new task then goes to a worker with the fewest tasks. -/
theorem even_load_runs (cs : List PolicyCall) :
    ∃ p, cs.foldlM call empty = .ok p ∧ p.Balanced ∧
      ∀ task : Task, p.taskIdToWorker.get? task.taskId = none →
        ∃ r p', p.assignTask task = (.ok r, p') ∧ (∀ w, r = some w → p.FewestTasks w) ∧
          (p.SameSizes → (r = none ↔ p.AllFull)) := by
  obtain ⟨p, hcs, hp⟩ := calls_loaded loaded_empty cs
  exact ⟨p, hcs, hp.balanced, fun _ ht => assignTask_fewest hp ht⟩

end EvenLoadAllocatePolicy

end Scaler
