import Scaler.Policy.AllocateInvariant
import Scaler.Policy.CapabilityIndex
import Scaler.Policy.EvenLoads

/-! Assigning a task that is already assigned. The even load policy answers with the worker
that has it; the capability policy picks a worker anew, and when that is another one the
first worker keeps a slot that nothing frees any more. -/

namespace Scaler

open Collections

namespace AllocatePolicy

/-- The queue of a worker, from the oldest task to the youngest. -/
def tasksOf (p : AllocatePolicy) (w : WorkerID) : List TaskID :=
  match p with
  | .evenLoad p => ((p.workersToTaskIds.get? w).map IndexedQueue.toList).getD []
  | .capability p => ((p.workerIdToWorker.get? w).map fun x => x.taskIdToTask.keys).getD []

/-- Each task is in one queue at most and the policy reports the worker of that queue;
removing a task takes it out of every queue, and no worker is refused to leave. -/
structure Tidy (p : AllocatePolicy) : Prop where
  distinct : ∀ w, (p.tasksOf w).Nodup
  reported : ∀ t w, t ∈ p.tasksOf w ↔ p.getWorkerByTaskId t = some w
  removed : ∀ t, ∃ r p', p.removeTask t = (.ok r, p') ∧ ∀ w, t ∉ p'.tasksOf w
  leaves : ∀ w, ∃ ts p', p.removeWorker w = (.ok ts, p')

theorem Wf.mem_tasksOf {p : AllocatePolicy} (h : p.Wf) (t : TaskID) (w : WorkerID) :
    t ∈ p.tasksOf w ↔ p.getWorkerByTaskId t = some w := by
  cases p with
  | evenLoad p =>
    rw [getWorkerByTaskId, EvenLoadAllocatePolicy.getWorkerByTaskId, h.held]
    cases hw : p.workersToTaskIds.get? w with
    | none => simp [tasksOf, hw]
    | some ids => simp [tasksOf, hw, IndexedQueue.toList]
  | capability p =>
    rw [getWorkerByTaskId, CapabilityAllocatePolicy.getWorkerByTaskId, h.held]
    cases hw : p.workerIdToWorker.get? w with
    | none => simp [tasksOf, hw]
    | some x => simp [tasksOf, hw, Dict.mem_keys]

theorem Wf.nodup_tasksOf {p : AllocatePolicy} (h : p.Wf) (w : WorkerID) : (p.tasksOf w).Nodup := by
  cases p with
  | evenLoad p =>
    cases hw : p.workersToTaskIds.get? w with
    | none => simp [tasksOf, hw]
    | some ids => simpa [tasksOf, hw, IndexedQueue.toList] using h.nodup w ids hw
  | capability p =>
    cases hw : p.workerIdToWorker.get? w with
    | none => simp [tasksOf, hw]
    | some x => simpa [tasksOf, hw, Dict.keys] using x.taskIdToTask.nodup

theorem Wf.tidy {p : AllocatePolicy} (h : p.Wf) : p.Tidy where
  distinct := h.nodup_tasksOf
  reported := h.mem_tasksOf
  removed := by
    intro t
    obtain ⟨r, p', he, hp', -, hget⟩ := removeTask_wf h t
    refine ⟨r, p', he, fun w hw => ?_⟩
    rw [hp'.mem_tasksOf, hget, if_pos rfl] at hw
    cases hw
  leaves := by
    intro w
    obtain ⟨ts, p', he, -⟩ := removeWorker_wf h w
    exact ⟨ts, p', he⟩

/-- What each policy keeps over its calls. -/
def Kept : AllocatePolicy → Prop
  | .evenLoad p => p.Loaded
  | .capability p => p.Exact

theorem Kept.wf {p : AllocatePolicy} (h : p.Kept) : p.Wf := by
  cases p with
  | evenLoad p => exact EvenLoadAllocatePolicy.Loaded.wf h
  | capability p => exact CapabilityAllocatePolicy.Exact.wf h

theorem kept_create (strategy : AllocatePolicyStrategy) : (createAllocatePolicy strategy).Kept := by
  cases strategy with
  | capability => exact CapabilityAllocatePolicy.exact_empty
  | evenLoad => exact EvenLoadAllocatePolicy.loaded_empty

/-- The even load policy never moves an assigned task. -/
def StaysPut : AllocatePolicy → PolicyCall → Prop
  | .evenLoad _, _ => True
  | .capability p, c => p.StaysPut c

theorem call_kept {p : AllocatePolicy} (h : p.Kept) {c : PolicyCall} (hc : p.StaysPut c) :
    ∃ p', p.call c = .ok p' ∧ p'.Kept := by
  cases p with
  | evenLoad p =>
    obtain ⟨p', he, hp'⟩ := EvenLoadAllocatePolicy.call_loaded h c
    exact ⟨.evenLoad p', by simp [call, he, Except.map], hp'⟩
  | capability p =>
    obtain ⟨p', he, hp'⟩ := CapabilityAllocatePolicy.call_exact h hc
    exact ⟨.capability p', by simp [call, he, Except.map], hp'⟩

/-- Whichever the policy, a sequence of calls that never assigns a task anew to another
worker keeps the queues tidy and does not raise. -/
theorem allocation_runs_tidy (strategy : AllocatePolicyStrategy) (cs : List PolicyCall)
    (hcs : Along call StaysPut (createAllocatePolicy strategy) cs) :
    ∃ p, cs.foldlM call (createAllocatePolicy strategy) = .ok p ∧ p.Tidy := by
  have hstep : ∀ p c, Kept p → p.StaysPut c → Ends (fun _ => False) (p.call c) Kept := by
    intro p c hp hc
    obtain ⟨p', he, hp'⟩ := call_kept hp hc
    rw [he]
    exact hp'
  obtain ⟨p, he, hp⟩ := (Ends.foldlM hstep (kept_create strategy) hcs).exists_ok fun _ => id
  exact ⟨p, he, hp.wf.tidy⟩

/-- A task that any worker can run. -/
def plainTask : Task := ⟨⟨7⟩, ⟨0⟩, [], ⟨0⟩, [], []⟩

/-- With one worker the capability policy assigns the task to it again. -/
theorem allocation_runs_tidy_one_worker :
    ∃ p, [PolicyCall.addWorker ⟨1⟩ [] 2, .assignTask .insertion plainTask,
        .assignTask .insertion plainTask].foldlM call (createAllocatePolicy .capability) = .ok p ∧
      p.Tidy := by
  refine allocation_runs_tidy .capability _
    (.cons rfl trivial (.cons rfl (fun w hw => ?_) (.cons rfl (fun w hw v hv => ?_) trivial)))
  · exact absurd (show none = some w from hw) (by simp)
  · obtain ⟨x, hx, -⟩ := hv
    have hmem : v ∈ [(⟨1⟩ : WorkerID)] :=
      CapabilityAllocatePolicy.mem_getWorkerIds.mpr (by rw [hx.registered]; rfl)
    exact (List.mem_singleton.mp hmem).trans (Option.some.inj hw)

/-- With two workers the second assignment records the task with the second worker while
the first keeps it; removing the task frees one of the two slots, and the worker with the
other one cannot leave. -/
theorem repeated_assignment_leaves_phantom :
    ∃ p, [PolicyCall.addWorker ⟨1⟩ [] 2, .addWorker ⟨2⟩ [] 2, .assignTask .insertion plainTask,
        .assignTask .insertion plainTask].foldlM call (createAllocatePolicy .capability) = .ok p ∧
      ¬p.Tidy ∧ ⟨7⟩ ∈ p.tasksOf ⟨1⟩ ∧ ⟨7⟩ ∈ p.tasksOf ⟨2⟩ ∧
      ⟨7⟩ ∈ (p.removeTask ⟨7⟩).2.tasksOf ⟨1⟩ ∧
      ((p.removeTask ⟨7⟩).2.removeWorker ⟨1⟩).1 = .error .keyError := by
  refine ⟨_, rfl, fun h => ?_, by decide, by decide, by decide, by rfl⟩
  have h1 := (h.reported ⟨7⟩ ⟨1⟩).mp (by decide)
  exact absurd h1 (by decide)

end AllocatePolicy

end Scaler
