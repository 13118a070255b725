import Scaler.Policy.Allocate
import Scaler.Policy.CapabilityInvariant

/-! What the scheduler relies on from its allocation policy, whichever it is. -/

namespace Scaler

open Collections

namespace AllocatePolicy

/-- Assigning works: the even load policy keeps its tables in agreement whatever it is
asked, the capability policy looks nothing up that can be missing and keeps every worker
under its own identifier. -/
def Sound : AllocatePolicy → Prop
  | .evenLoad p => p.Wf
  | .capability p => p.Keyed

theorem sound_create (strategy : AllocatePolicyStrategy) :
    (createAllocatePolicy strategy).Sound := by
  cases strategy with
  | capability => exact CapabilityAllocatePolicy.wf_empty.ident
  | evenLoad => exact EvenLoadAllocatePolicy.wf_empty

theorem addWorker_sound {p : AllocatePolicy} (h : p.Sound) (w : WorkerID)
    (capabilities : List (String × Int)) (size : Nat) :
    (p.addWorker w capabilities size).2.Sound := by
  cases p with
  | evenLoad p => exact (EvenLoadAllocatePolicy.addWorker_wf h w size).1
  | capability p => exact CapabilityAllocatePolicy.addWorker_keyed h w capabilities size

theorem removeWorker_sound {p : AllocatePolicy} (h : p.Sound) (w : WorkerID) :
    (p.removeWorker w).2.Sound := by
  cases p with
  | evenLoad p =>
    obtain ⟨ts, p', he, hp, _⟩ := EvenLoadAllocatePolicy.removeWorker_wf h w
    simp only [removeWorker, he]
    exact hp
  | capability p => exact CapabilityAllocatePolicy.removeWorker_keyed h w

theorem assignTask_sound {p : AllocatePolicy} (h : p.Sound) (task : Task) :
    ∃ r p', p.assignTask task = (.ok r, p') ∧ p'.Sound := by
  cases p with
  | evenLoad p =>
    obtain ⟨r, p', he, hp, _⟩ := EvenLoadAllocatePolicy.assignTask_wf h task
    exact ⟨r, .evenLoad p', by simp [assignTask, he], hp⟩
  | capability p => exact ⟨_, _, rfl, CapabilityAllocatePolicy.assignTask_keyed h task⟩

theorem removeTask_sound {p : AllocatePolicy} (h : p.Sound) (t : TaskID) :
    (p.removeTask t).2.Sound := by
  cases p with
  | evenLoad p =>
    obtain ⟨r, p', he, hp, _⟩ := EvenLoadAllocatePolicy.removeTask_wf h t
    simp only [removeTask, he]
    exact hp
  | capability p => exact CapabilityAllocatePolicy.removeTask_keyed h t

/-- The tables of the policy agree. -/
def Wf : AllocatePolicy → Prop
  | .evenLoad p => p.Wf
  | .capability p => p.Wf

theorem wf_create (strategy : AllocatePolicyStrategy) : (createAllocatePolicy strategy).Wf := by
  cases strategy with
  | capability => exact CapabilityAllocatePolicy.wf_empty
  | evenLoad => exact EvenLoadAllocatePolicy.wf_empty

@[simp] theorem getWorkerByTaskId_create (strategy : AllocatePolicyStrategy) (t : TaskID) :
    (createAllocatePolicy strategy).getWorkerByTaskId t = none := by
  cases strategy <;> rfl

theorem addWorker_wf {p : AllocatePolicy} (h : p.Wf) (w : WorkerID)
    (capabilities : List (String × Int)) (size : Nat) :
    (p.addWorker w capabilities size).2.Wf ∧
      (∀ t, (p.addWorker w capabilities size).2.getWorkerByTaskId t = p.getWorkerByTaskId t) ∧
      ∀ v, v ∈ (p.addWorker w capabilities size).2.getWorkerIds ↔ v ∈ p.getWorkerIds ∨ v = w := by
  cases p with
  | evenLoad p =>
    obtain ⟨h1, h2, h3⟩ := EvenLoadAllocatePolicy.addWorker_wf h w size
    refine ⟨h1, fun t => ?_, h3⟩
    simp only [addWorker, Prod.map, getWorkerByTaskId, EvenLoadAllocatePolicy.getWorkerByTaskId, h2]
  | capability p =>
    obtain ⟨h1, h2, h3⟩ := CapabilityAllocatePolicy.addWorker_wf h w capabilities size
    refine ⟨h1, fun t => ?_, h3⟩
    simp only [addWorker, Prod.map, getWorkerByTaskId, CapabilityAllocatePolicy.getWorkerByTaskId, h2]

theorem removeWorker_wf {p : AllocatePolicy} (h : p.Wf) (w : WorkerID) :
    ∃ ts p', p.removeWorker w = (.ok ts, p') ∧ p'.Wf ∧ ts.Nodup ∧
      (∀ t, t ∈ ts ↔ p.getWorkerByTaskId t = some w) ∧
      (∀ t, p'.getWorkerByTaskId t =
        if p.getWorkerByTaskId t = some w then none else p.getWorkerByTaskId t) ∧
      ∀ v, v ∈ p'.getWorkerIds ↔ v ∈ p.getWorkerIds ∧ v ≠ w := by
  cases p with
  | evenLoad p =>
    obtain ⟨ts, p', he, hr⟩ := EvenLoadAllocatePolicy.removeWorker_wf h w
    exact ⟨ts, .evenLoad p', by simp [removeWorker, he], hr⟩
  | capability p =>
    obtain ⟨ts, p', he, hr⟩ := CapabilityAllocatePolicy.removeWorker_wf h w
    exact ⟨ts, .capability p', by simp [removeWorker, he], hr⟩

theorem assignTask_wf {p p' : AllocatePolicy} (h : p.Wf) {task : Task} {r : Option WorkerID}
    (ht : p.getWorkerByTaskId task.taskId = none) (he : p.assignTask task = (.ok r, p')) :
    p'.Wf ∧ (∀ v, v ∈ p'.getWorkerIds ↔ v ∈ p.getWorkerIds) ∧
      (r = none → ∀ t, p'.getWorkerByTaskId t = p.getWorkerByTaskId t) ∧
      ∀ w, r = some w → w ∈ p.getWorkerIds ∧ ∀ t, p'.getWorkerByTaskId t =
        if t = task.taskId then some w else p.getWorkerByTaskId t := by
  cases p with
  | evenLoad p =>
    obtain ⟨r', q, hq, h1, h2, h3, h4⟩ := EvenLoadAllocatePolicy.assignTask_wf h task
    simp only [assignTask, hq, Prod.map, id, Prod.mk.injEq, Except.ok.injEq] at he
    obtain ⟨rfl, rfl⟩ := he
    refine ⟨h1, h2, fun hr t => ?_, h4⟩
    simp only [getWorkerByTaskId, EvenLoadAllocatePolicy.getWorkerByTaskId, h3 hr]
  | capability p =>
    obtain ⟨h1, h2, h3, h4⟩ := CapabilityAllocatePolicy.assignTask_wf h task ht
    simp only [assignTask, Prod.map, Prod.mk.injEq, Except.ok.injEq] at he
    obtain ⟨rfl, rfl⟩ := he
    refine ⟨h1, h2, fun hr t => ?_, h4⟩
    simp only [getWorkerByTaskId, CapabilityAllocatePolicy.getWorkerByTaskId, h3 hr]

/-- Assigning records the task, also one that was recorded before. -/
theorem getWorkerByTaskId_assignTask {p p' : AllocatePolicy} (h : p.Wf) {task : Task}
    {r : Option WorkerID} (he : p.assignTask task = (.ok r, p')) (t : TaskID) :
    p'.getWorkerByTaskId t =
      if t = task.taskId ∧ r.isSome = true then r else p.getWorkerByTaskId t := by
  cases p with
  | evenLoad p =>
    obtain ⟨r', q, hq, _, _, h3, h4⟩ := EvenLoadAllocatePolicy.assignTask_wf h task
    simp only [assignTask, hq, Prod.map, id, Prod.mk.injEq, Except.ok.injEq] at he
    obtain ⟨rfl, rfl⟩ := he
    cases r' with
    | none => simp [getWorkerByTaskId, EvenLoadAllocatePolicy.getWorkerByTaskId, h3 rfl]
    | some w =>
      simpa [getWorkerByTaskId, EvenLoadAllocatePolicy.getWorkerByTaskId] using (h4 w rfl).2 t
  | capability p =>
    simp only [assignTask, Prod.map, Prod.mk.injEq, Except.ok.injEq] at he
    obtain ⟨rfl, rfl⟩ := he
    unfold CapabilityAllocatePolicy.assignTask
    cases CapabilityAllocatePolicy.minLoaded (p.availableWorkers task.capabilities) with
    | none => simp
    | some x =>
      simp [getWorkerByTaskId, CapabilityAllocatePolicy.getWorkerByTaskId, Dict.get?_set]

theorem removeTask_wf {p : AllocatePolicy} (h : p.Wf) (t : TaskID) :
    ∃ r p', p.removeTask t = (.ok r, p') ∧ p'.Wf ∧
      (∀ v, v ∈ p'.getWorkerIds ↔ v ∈ p.getWorkerIds) ∧
      ∀ u, p'.getWorkerByTaskId u = if u = t then none else p.getWorkerByTaskId u := by
  cases p with
  | evenLoad p =>
    obtain ⟨r, p', he, hr⟩ := EvenLoadAllocatePolicy.removeTask_wf h t
    exact ⟨r, .evenLoad p', by simp [removeTask, he], hr⟩
  | capability p =>
    obtain ⟨r, p', he, hr⟩ := CapabilityAllocatePolicy.removeTask_wf h t
    exact ⟨r, .capability p', by simp [removeTask, he], hr⟩

end AllocatePolicy

end Scaler
