import Scaler.Policy.AllocateInvariant

/-! Which workers an allocation policy knows, and that its statistics have an entry for
each of them. -/

namespace Scaler

open Collections

namespace EvenLoadAllocatePolicy

variable {p : EvenLoadAllocatePolicy}

theorem addWorker_known {w : WorkerID} {size : Nat} (h : (p.addWorker w size).1 = false) :
    w ∈ p.getWorkerIds ∧ (p.addWorker w size).2 = p := by
  unfold addWorker at h ⊢
  split at h
  · next hc => exact ⟨mem_getWorkerIds.mpr hc, by rw [if_pos hc]⟩
  · cases h

theorem mem_removeWorker {v w : WorkerID} (hv : v ∈ p.getWorkerIds) (hw : v ≠ w) :
    v ∈ (p.removeWorker w).2.getWorkerIds := by
  unfold removeWorker
  split
  · exact hv
  · rw [mem_getWorkerIds] at hv ⊢
    dsimp only
    rwa [Dict.get?_erase_ne _ hw]

theorem statistics_ok (h : p.Wf) : ∃ d, p.statistics = .ok d ∧
    ∀ w, (d.get? w).isSome ↔ w ∈ p.getWorkerIds := by
  have hsize : ∀ e ∈ p.workersToTaskIds.entries, ∃ size, p.workersToQueueSize.get? e.1 = some size := by
    rintro ⟨w, q⟩ he
    have hs := h.sized w
    rw [(Dict.mem_entries _ w q).mp he] at hs
    exact Option.isSome_iff_exists.mp hs
  refine (Dict.comprehend_ok Prod.fst (fun e he => ?_) Dict.empty).imp fun d hd =>
    ⟨hd.1, fun w => ?_⟩
  · obtain ⟨size, hs⟩ := hsize e he
    exact ⟨_, by rw [hs]⟩
  · rw [hd.2 w]
    simp [getWorkerIds, Dict.keys]

end EvenLoadAllocatePolicy

namespace CapabilityAllocatePolicy

variable {p : CapabilityAllocatePolicy}

theorem addWorker_known {w : WorkerID} {capabilities : List (String × Int)} {size : Nat}
    (h : (p.addWorker w capabilities size).1 = false) :
    w ∈ p.getWorkerIds ∧ (p.addWorker w capabilities size).2 = p := by
  unfold addWorker at h ⊢
  split at h
  · next hc => exact ⟨mem_getWorkerIds.mpr hc, by rw [if_pos hc]⟩
  · cases h

theorem mem_set {p' : CapabilityAllocatePolicy} {v w : WorkerID} {x : WorkerHolder}
    (he : p'.workerIdToWorker = p.workerIdToWorker.set w x) (hv : v ∈ p.getWorkerIds ∨ v = w) :
    v ∈ p'.getWorkerIds := by
  rw [mem_getWorkerIds, he, Dict.get?_set]
  split
  · rfl
  · next hne => exact mem_getWorkerIds.mp (hv.resolve_right hne)

theorem mem_removeWorker {v w : WorkerID} (hv : v ∈ p.getWorkerIds) (hw : v ≠ w) :
    v ∈ (p.removeWorker w).2.getWorkerIds := by
  have herase : ∀ {p' : CapabilityAllocatePolicy},
      p'.workerIdToWorker = p.workerIdToWorker.erase w → v ∈ p'.getWorkerIds := by
    intro p' he
    rw [mem_getWorkerIds] at hv ⊢
    rwa [he, Dict.get?_erase_ne _ hw]
  unfold removeWorker
  split
  · exact hv
  · dsimp only
    split
    · exact herase rfl
    · exact herase rfl

theorem statistics_ok (h : p.Keyed) : ∃ d, p.statistics = .ok d ∧
    ∀ w, (d.get? w).isSome ↔ w ∈ p.getWorkerIds := by
  have hvalue : ∀ x ∈ p.workerIdToWorker.entries.map Prod.snd,
      ∃ n, (.ok ⟨x.nFree, x.nTasks⟩ : Except Exn TaskNumbers) = .ok n := fun _ _ => ⟨_, rfl⟩
  obtain ⟨d, hd, hk⟩ := Dict.comprehend_ok WorkerHolder.workerId hvalue Dict.empty
  refine ⟨d, hd, fun w => ?_⟩
  have hid : ∀ e ∈ p.workerIdToWorker.entries, e.2.workerId = e.1 :=
    fun e he => h e.1 e.2 ((Dict.mem_entries _ _ _).mp he)
  rw [hk w, getWorkerIds, Dict.keys, List.mem_map]
  simp only [Dict.get?_empty, Option.isSome_none, Bool.false_eq_true, false_or, List.mem_map]
  constructor
  · rintro ⟨_, ⟨e, he, rfl⟩, rfl⟩
    exact ⟨e, he, (hid e he).symm⟩
  · rintro ⟨e, he, rfl⟩
    exact ⟨e.2, ⟨e, he, rfl⟩, hid e he⟩

end CapabilityAllocatePolicy

namespace AllocatePolicy

variable {p : AllocatePolicy} {v w : WorkerID}

/-- A worker that is not added is one that the policy knows. -/
theorem addWorker_known {capabilities : List (String × Int)} {size : Nat}
    (h : (p.addWorker w capabilities size).1 = false) :
    w ∈ p.getWorkerIds ∧ (p.addWorker w capabilities size).2 = p := by
  cases p with
  | evenLoad p =>
    obtain ⟨h1, h2⟩ := EvenLoadAllocatePolicy.addWorker_known h
    exact ⟨h1, congrArg AllocatePolicy.evenLoad h2⟩
  | capability p =>
    obtain ⟨h1, h2⟩ := CapabilityAllocatePolicy.addWorker_known h
    exact ⟨h1, congrArg AllocatePolicy.capability h2⟩

theorem mem_addWorker (h : p.Sound) {capabilities : List (String × Int)} {size : Nat}
    (hv : v ∈ p.getWorkerIds ∨ v = w) : v ∈ (p.addWorker w capabilities size).2.getWorkerIds := by
  cases p with
  | evenLoad p => exact ((EvenLoadAllocatePolicy.addWorker_wf h w size).2.2 v).mpr hv
  | capability p =>
    change v ∈ (p.addWorker w capabilities size).2.getWorkerIds
    unfold CapabilityAllocatePolicy.addWorker
    split
    · next hc =>
      rcases hv with hv | rfl
      · exact hv
      · exact CapabilityAllocatePolicy.mem_getWorkerIds.mpr hc
    · exact CapabilityAllocatePolicy.mem_set rfl hv

theorem mem_removeWorker (hv : v ∈ p.getWorkerIds) (hw : v ≠ w) :
    v ∈ (p.removeWorker w).2.getWorkerIds := by
  cases p with
  | evenLoad p => exact EvenLoadAllocatePolicy.mem_removeWorker hv hw
  | capability p => exact CapabilityAllocatePolicy.mem_removeWorker hv hw

theorem mem_assignTask (h : p.Sound) (task : Task) (hv : v ∈ p.getWorkerIds) :
    v ∈ (p.assignTask task).2.getWorkerIds := by
  cases p with
  | evenLoad p =>
    obtain ⟨r, q, hq, _, hm, _⟩ := EvenLoadAllocatePolicy.assignTask_wf h task
    change v ∈ (p.assignTask task).2.getWorkerIds
    rw [hq]
    exact (hm v).mpr hv
  | capability p =>
    change v ∈ (p.assignTask task).2.getWorkerIds
    unfold CapabilityAllocatePolicy.assignTask
    split
    · exact hv
    · exact CapabilityAllocatePolicy.mem_set rfl (.inl hv)

theorem mem_removeTask (h : p.Sound) (t : TaskID) (hv : v ∈ p.getWorkerIds) :
    v ∈ (p.removeTask t).2.getWorkerIds := by
  cases p with
  | evenLoad p =>
    obtain ⟨r, q, hq, _, hm, _⟩ := EvenLoadAllocatePolicy.removeTask_wf h t
    change v ∈ (p.removeTask t).2.getWorkerIds
    rw [hq]
    exact (hm v).mpr hv
  | capability p =>
    change v ∈ (p.removeTask t).2.getWorkerIds
    unfold CapabilityAllocatePolicy.removeTask
    split
    · exact hv
    · dsimp only
      split
      · exact hv
      · split
        · exact CapabilityAllocatePolicy.mem_set rfl (.inl hv)
        · exact hv

theorem statistics_ok (h : p.Sound) : ∃ d, p.statistics = .ok d ∧
    ∀ w, (d.get? w).isSome ↔ w ∈ p.getWorkerIds := by
  cases p with
  | evenLoad p => exact EvenLoadAllocatePolicy.statistics_ok h
  | capability p => exact CapabilityAllocatePolicy.statistics_ok h

end AllocatePolicy

end Scaler
