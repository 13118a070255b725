import Scaler.Collections.Outcome
import Scaler.Policy.Calls
import Scaler.Policy.CapabilityInvariant

/-! The three indexes of `CapabilityAllocatePolicy` stay exact as long as only unassigned
tasks are assigned, and the worker it picks is then a least loaded one. -/

namespace Scaler

open Collections

namespace CapabilityAllocatePolicy

theorem minLoaded_eq_none {hs : List WorkerHolder} : minLoaded hs = none ↔ hs = [] := by
  cases hs with
  | nil => simp [minLoaded]
  | cons h hs =>
    simp only [minLoaded, reduceCtorEq, iff_false]
    split
    · simp
    · split <;> simp

theorem minLoaded_le {hs : List WorkerHolder} {m : WorkerHolder} (hm : minLoaded hs = some m) :
    ∀ h ∈ hs, m.nTasks ≤ h.nTasks := by
  induction hs generalizing m with
  | nil => simp [minLoaded] at hm
  | cons a hs ih =>
    simp only [minLoaded] at hm
    cases hr : minLoaded hs with
    | none =>
      rw [minLoaded_eq_none] at hr
      subst hr
      simp only [minLoaded, Option.some.injEq] at hm
      simp [hm]
    | some n =>
      simp only [hr] at hm
      have hn := ih hr
      intro h hh
      split at hm
      · next hlt =>
        cases hm
        rcases List.mem_cons.mp hh with rfl | hh
        · omega
        · exact hn h hh
      · next hge =>
        cases hm
        rcases List.mem_cons.mp hh with rfl | hh
        · exact Nat.le_refl _
        · have := hn h hh
          omega

/-- The agreement of the tables, the bounds of the queues, and a capability index without
a worker too many. -/
structure Exact (p : CapabilityAllocatePolicy) : Prop where
  wf : p.Wf
  bounded : ∀ w h, p.workerIdToWorker.get? w = some h → h.nTasks ≤ h.queueSize
  supported : ∀ w h, p.workerIdToWorker.get? w = some h → ∀ t cs,
    h.taskIdToTask.get? t = some cs → ∀ c ∈ cs, c ∈ h.capabilities
  listed : ∀ c ws, p.capabilityToWorkerIds.get? c = some ws → ws ≠ [] ∧ ws.Nodup ∧
    ∀ w ∈ ws, ∃ h, p.workerIdToWorker.get? w = some h ∧ c ∈ h.capabilities

theorem exact_empty : empty.Exact where
  wf := wf_empty
  bounded := by simp [empty]
  supported := by simp [empty]
  listed := by simp [empty]

theorem addWorker_exact {p : CapabilityAllocatePolicy} (h : p.Exact) (w : WorkerID)
    (capabilities : List (String × Int)) (size : Nat) :
    (p.addWorker w capabilities size).2.Exact := by
  have hwf := (addWorker_wf h.wf w capabilities size).1
  unfold addWorker at hwf ⊢
  split
  · exact h
  · next hc =>
    rw [if_neg hc] at hwf
    have hnone : p.workerIdToWorker.get? w = none := by simpa [Dict.contains] using hc
    refine ⟨hwf, ?_, ?_, ?_⟩
    · intro v x hv
      simp only [Dict.get?_set] at hv
      split at hv
      · cases hv
        exact Nat.zero_le _
      · exact h.bounded v x hv
    · intro v x hv t cs ht
      simp only [Dict.get?_set] at hv
      split at hv
      · cases hv
        simp at ht
      · exact h.supported v x hv t cs ht
    · intro c ws hws
      simp only [get?_addCapability_foldl (List.nodup_dedup _)] at hws
      have hold : ∀ v, (∃ vs, p.capabilityToWorkerIds.get? c = some vs ∧ v ∈ vs) →
          v ≠ w ∧ ∃ x, p.workerIdToWorker.get? v = some x ∧ c ∈ x.capabilities := by
        rintro v ⟨vs, hvs, hv⟩
        obtain ⟨x, hx, hcx⟩ := (h.listed c vs hvs).2.2 v hv
        refine ⟨?_, x, hx, hcx⟩
        rintro rfl
        rw [hnone] at hx
        cases hx
      split at hws
      · next hcn =>
        cases hws
        refine ⟨List.ne_nil_of_mem List.mem_insert_self, ?_, ?_⟩
        · cases hvs : p.capabilityToWorkerIds.get? c with
          | none => exact List.Nodup.insert List.nodup_nil
          | some vs => exact List.Nodup.insert (h.listed c vs hvs).2.1
        · intro v hv
          rcases List.mem_insert_iff.mp hv with rfl | hv
          · exact ⟨_, Dict.get?_set_self _ _ _, hcn⟩
          · cases hvs : p.capabilityToWorkerIds.get? c with
            | none => simp [hvs] at hv
            | some vs =>
              obtain ⟨hne, x, hx⟩ := hold v ⟨vs, hvs, by simpa [hvs] using hv⟩
              exact ⟨x, by rw [Dict.get?_set_ne _ hne]; exact hx.1, hx.2⟩
      · obtain ⟨h1, h2, -⟩ := h.listed c ws hws
        refine ⟨h1, h2, fun v hv => ?_⟩
        obtain ⟨hne, x, hx⟩ := hold v ⟨ws, hws, hv⟩
        exact ⟨x, by rw [Dict.get?_set_ne _ hne]; exact hx.1, hx.2⟩

/-- Without `w` a list of distinct workers is a nonempty one of distinct workers, or not kept. -/
theorem withoutWorker_eq_some {w : WorkerID} {ws vs : List WorkerID} (hn : ws.Nodup)
    (h : withoutWorker w ws = some vs) : vs ≠ [] ∧ vs.Nodup ∧ ∀ v ∈ vs, v ∈ ws ∧ v ≠ w := by
  unfold withoutWorker at h
  split at h
  · cases h
  · next hne =>
    cases h
    refine ⟨hne, hn.erase w, fun v hv => ?_⟩
    obtain ⟨hvw, hmem⟩ := (List.Nodup.mem_erase_iff hn).mp hv
    exact ⟨hmem, hvw⟩

theorem removeWorker_exact {p : CapabilityAllocatePolicy} (h : p.Exact) (w : WorkerID) :
    (p.removeWorker w).2.Exact := by
  have hwf : (p.removeWorker w).2.Wf := by
    obtain ⟨_, _, he, hwf, _⟩ := removeWorker_wf h.wf w
    rw [he]
    exact hwf
  unfold removeWorker at hwf ⊢
  cases hq : p.workerIdToWorker.get? w with
  | none => exact h
  | some x =>
    obtain ⟨d1, d2⟩ := dropCapabilities_ok (w := w) (d := p.capabilityToWorkerIds)
      (h.wf.distinct w x hq) (fun c hc => by
        obtain ⟨ws, hws, _⟩ := h.wf.offered w x hq c hc
        simp [hws])
    generalize hd : dropCapabilities w p.capabilityToWorkerIds x.capabilities = r at d1 d2
    obtain ⟨r1, r2⟩ := r
    simp only at d1 d2
    subst d1
    simp only [hq, hd] at hwf ⊢
    refine ⟨hwf, ?_, ?_, ?_⟩
    · intro v y hv
      simp only [Dict.get?_erase] at hv
      split at hv
      · cases hv
      · exact h.bounded v y hv
    · intro v y hv
      simp only [Dict.get?_erase] at hv
      split at hv
      · cases hv
      · exact h.supported v y hv
    · intro c ws hws
      simp only [d2] at hws
      have hkeep : ∀ v ∈ ws, v ≠ w → (∃ y, p.workerIdToWorker.get? v = some y ∧ c ∈ y.capabilities) →
          ∃ y, (p.workerIdToWorker.erase w).get? v = some y ∧ c ∈ y.capabilities := by
        rintro v - hne ⟨y, hy, hcy⟩
        exact ⟨y, by rw [Dict.get?_erase_ne _ hne]; exact hy, hcy⟩
      split at hws
      · obtain ⟨vs, hvs, hw⟩ := Option.bind_eq_some_iff.mp hws
        obtain ⟨-, hn, hin⟩ := h.listed c vs hvs
        obtain ⟨h1, h2, h3⟩ := withoutWorker_eq_some hn hw
        exact ⟨h1, h2, fun v hv => hkeep v hv (h3 v hv).2 (hin v (h3 v hv).1)⟩
      · next hcx =>
        obtain ⟨h1, h2, hin⟩ := h.listed c ws hws
        refine ⟨h1, h2, fun v hv => hkeep v hv ?_ (hin v hv)⟩
        -- A worker is listed only under what it offers, and `w` does not offer `c`.
        rintro rfl
        obtain ⟨y, hy, hcy⟩ := hin v hv
        rw [hq] at hy
        cases hy
        exact hcx hcy

/-- Replacing the queue of one worker leaves the capability index exact. -/
theorem Exact.listed_set {p : CapabilityAllocatePolicy} (h : p.Exact) {w : WorkerID}
    {x y : WorkerHolder} (hx : p.workerIdToWorker.get? w = some x)
    (hy : y.capabilities = x.capabilities) (c : String) (ws : List WorkerID)
    (hws : p.capabilityToWorkerIds.get? c = some ws) : ws ≠ [] ∧ ws.Nodup ∧
      ∀ v ∈ ws, ∃ z, (p.workerIdToWorker.set w y).get? v = some z ∧ c ∈ z.capabilities := by
  obtain ⟨h1, h2, h3⟩ := h.listed c ws hws
  refine ⟨h1, h2, fun v hv => ?_⟩
  obtain ⟨z, hz, hcz⟩ := h3 v hv
  rw [Dict.get?_set]
  by_cases he : v = w
  · subst he
    rw [hx] at hz
    cases hz
    exact ⟨y, if_pos rfl, hy ▸ hcz⟩
  · exact ⟨z, by rw [if_neg he, hz], hcz⟩

/-- A worker that `assign_task` may pick for the task. -/
structure Candidate (p : CapabilityAllocatePolicy) (task : Task) (w : WorkerID) (x : WorkerHolder) :
    Prop where
  registered : p.workerIdToWorker.get? w = some x
  offers : ∀ c ∈ task.capabilities, c.1 ∈ x.capabilities
  free : x.nTasks < x.queueSize

theorem mem_availableWorkers {p : CapabilityAllocatePolicy} (h : p.Exact) {task : Task}
    {x : WorkerHolder} :
    x ∈ p.availableWorkers task.capabilities ↔ p.Candidate task x.workerId x := by
  have hfree : (decide (0 < x.nFree) = true) ↔ x.nTasks < x.queueSize := by
    rw [decide_eq_true_eq, WorkerHolder.nFree]
    omega
  constructor
  · intro hx
    have hreg := get?_of_mem_available h.wf hx
    unfold availableWorkers at hx
    split at hx
    · simp at hx
    · obtain ⟨-, hb⟩ := List.mem_filter.mp hx
      obtain ⟨hall, hfx⟩ := Bool.and_eq_true_iff.mp hb
      refine ⟨hreg, fun c hc => ?_, hfree.mp hfx⟩
      have hin := List.all_eq_true.mp hall c hc
      rw [decide_eq_true_eq] at hin
      cases hws : p.capabilityToWorkerIds.get? c.1 with
      | none => simp [hws] at hin
      | some ws =>
        rw [hws] at hin
        obtain ⟨y, hy, hcy⟩ := (h.listed c.1 ws hws).2.2 _ hin
        rw [hreg] at hy
        cases hy
        exact hcy
  · rintro ⟨hreg, hoffers, hfx⟩
    have hlisted : ∀ c ∈ task.capabilities,
        ∃ ws, p.capabilityToWorkerIds.get? c.1 = some ws ∧ x.workerId ∈ ws :=
      fun c hc => h.wf.offered _ x hreg c.1 (hoffers c hc)
    unfold availableWorkers
    rw [if_neg]
    · refine List.mem_filter.mpr ⟨?_, ?_⟩
      · exact List.mem_map.mpr ⟨(x.workerId, x), (Dict.mem_entries _ _ _).mpr hreg, rfl⟩
      · refine Bool.and_eq_true_iff.mpr ⟨List.all_eq_true.mpr fun c hc => ?_, hfree.mpr hfx⟩
        obtain ⟨ws, hws, hmem⟩ := hlisted c hc
        simpa [hws] using hmem
    · rw [List.any_eq_true]
      rintro ⟨c, hc, hmissing⟩
      obtain ⟨ws, hws, -⟩ := hlisted c hc
      simp [Dict.contains, hws] at hmissing

/-- Every branch that `assign_task` can take. -/
theorem assignTaskIn_cases {p : CapabilityAllocatePolicy} (h : p.Exact) (order : SetOrder)
    (task : Task) :
    ((∀ w x, ¬p.Candidate task w x) ∧ p.assignTaskIn order task = (none, p)) ∨
    ∃ x, p.Candidate task x.workerId x ∧ (∀ w y, p.Candidate task w y → x.nTasks ≤ y.nTasks) ∧
      p.assignTaskIn order task = (some x.workerId, p.place x task) := by
  have hperm := order.perm (p.availableWorkers task.capabilities)
  have hmem : ∀ w y, p.Candidate task w y →
      y ∈ order.walk (p.availableWorkers task.capabilities) := by
    intro w y hy
    have hid := h.wf.ident w y hy.registered
    subst hid
    exact hperm.mem_iff.mpr ((mem_availableWorkers h).mpr hy)
  unfold assignTaskIn
  cases hm : minLoaded (order.walk (p.availableWorkers task.capabilities)) with
  | none =>
    refine .inl ⟨fun w x hx => ?_, rfl⟩
    have := hmem w x hx
    rw [minLoaded_eq_none.mp hm] at this
    cases this
  | some x =>
    refine .inr ⟨x, ?_, fun w y hy => minLoaded_le hm y (hmem w y hy), rfl⟩
    exact (mem_availableWorkers h).mp (hperm.mem_iff.mp (minLoaded_mem hm))

/-- A worker that nobody who may be picked for the task beats. -/
def LeastLoaded (p : CapabilityAllocatePolicy) (task : Task) (w : WorkerID) : Prop :=
  ∃ x, p.Candidate task w x ∧ ∀ v y, p.Candidate task v y → x.nTasks ≤ y.nTasks

/-- Storing a task that the worker has no other record of adds at most one. -/
theorem nTasks_set_le (x : WorkerHolder) (t : TaskID) (cs : List String) :
    (x.taskIdToTask.set t cs).entries.length ≤ x.nTasks + 1 := by
  have hcount : ∀ d : Dict TaskID (List String), d.countValues (fun _ => true) = d.entries.length :=
    fun d => by simp [Dict.countValues]
  cases hg : x.taskIdToTask.get? t with
  | none =>
    have h := x.taskIdToTask.countValues_set_absent (v := cs) (fun _ => true) hg
    simp only [hcount, if_true] at h
    exact Nat.le_of_eq h
  | some old =>
    have h := x.taskIdToTask.countValues_set_present (v := cs) (fun _ => true) hg
    simp only [hcount, if_true] at h
    unfold WorkerHolder.nTasks
    omega

/-- The indexes survive a repeated assignment that does not move the task. -/
theorem assignTaskIn_exact {p : CapabilityAllocatePolicy} (h : p.Exact) (order : SetOrder)
    {task : Task} (ht : ∀ w, p.taskIdToWorkerId.get? task.taskId = some w →
      ∀ v, p.LeastLoaded task v → v = w) : (p.assignTaskIn order task).2.Exact := by
  obtain ⟨-, he⟩ | ⟨x, hx, hmin, he⟩ := assignTaskIn_cases h order task
  · rw [he]
    exact h
  rw [he]
  have hsame : ∀ w, p.taskIdToWorkerId.get? task.taskId = some w → w = x.workerId :=
    fun w hw => (ht w hw x.workerId ⟨x, hx, hmin⟩).symm
  refine ⟨(place_wf h.wf hx.registered hsame).1, ?_, ?_, ?_⟩
  · intro v y hv
    simp only [place, Dict.get?_set] at hv
    split at hv
    · cases hv
      exact Nat.le_trans (nTasks_set_le x _ _) hx.free
    · exact h.bounded v y hv
  · intro v y hv t cs htc c hc
    simp only [place, Dict.get?_set] at hv
    split at hv
    · cases hv
      simp only [Dict.get?_set] at htc
      split at htc
      · cases htc
        obtain ⟨e, he, rfl⟩ := List.mem_map.mp hc
        exact hx.offers e he
      · exact h.supported _ x hx.registered t cs htc c hc
    · exact h.supported v y hv t cs htc c hc
  · exact h.listed_set hx.registered rfl

theorem removeTask_exact {p : CapabilityAllocatePolicy} (h : p.Exact) (t : TaskID) :
    (p.removeTask t).2.Exact := by
  have hwf : (p.removeTask t).2.Wf := by
    obtain ⟨_, _, he, hwf, _⟩ := removeTask_wf h.wf t
    rw [he]
    exact hwf
  unfold removeTask at hwf ⊢
  cases ht : p.taskIdToWorkerId.get? t with
  | none => exact h
  | some w =>
    obtain ⟨x, hx, hm⟩ := (h.wf.held t w).mp ht
    have hc : x.taskIdToTask.contains t = true := hm
    simp only [ht, hx, hc, if_true] at hwf ⊢
    refine ⟨hwf, ?_, ?_, ?_⟩
    · intro v y hv
      simp only [Dict.get?_set] at hv
      split at hv
      · cases hv
        have hlen := (eraseIn_sublist t x.taskIdToTask.entries).length_le
        have hle := h.bounded w x hx
        simp only [WorkerHolder.nTasks, Dict.erase] at hle ⊢
        omega
      · exact h.bounded v y hv
    · intro v y hv u cs hu c hc
      simp only [Dict.get?_set] at hv
      split at hv
      · cases hv
        simp only [Dict.get?_erase] at hu
        split at hu
        · cases hu
        · exact h.supported w x hx u cs hu c hc
      · exact h.supported v y hv u cs hu c hc
    · exact h.listed_set hx rfl

/-- The call does not assign a task again to another worker: a task that is assigned is
passed to `assign_task` only where no other worker is a least loaded candidate for it. -/
def StaysPut (p : CapabilityAllocatePolicy) : PolicyCall → Prop
  | .assignTask _ task => ∀ w, p.taskIdToWorkerId.get? task.taskId = some w →
      ∀ v, p.LeastLoaded task v → v = w
  | _ => True

theorem call_exact {p : CapabilityAllocatePolicy} (h : p.Exact) {c : PolicyCall}
    (hc : p.StaysPut c) : ∃ p', p.call c = .ok p' ∧ p'.Exact := by
  cases c with
  | addWorker w capabilities queueSize =>
    exact ⟨_, rfl, addWorker_exact h w capabilities queueSize⟩
  | removeWorker w =>
    obtain ⟨_, _, he, -⟩ := removeWorker_wf h.wf w
    have hl := removeWorker_exact h w
    rw [he] at hl
    exact ⟨_, by rw [call, he, afterCall_ok], hl⟩
  | assignTask order task => exact ⟨_, rfl, assignTaskIn_exact h order hc⟩
  | removeTask t =>
    obtain ⟨_, _, he, -⟩ := removeTask_wf h.wf t
    have hl := removeTask_exact h t
    rw [he] at hl
    exact ⟨_, by rw [call, he, afterCall_ok], hl⟩

/-- The call is not `assign_task` of a task that a worker holds. -/
def AssignsNew (p : CapabilityAllocatePolicy) : PolicyCall → Prop
  | .assignTask _ task => p.taskIdToWorkerId.get? task.taskId = none
  | _ => True

theorem AssignsNew.staysPut {p : CapabilityAllocatePolicy} {c : PolicyCall} (h : p.AssignsNew c) :
    p.StaysPut c := by
  cases c with
  | assignTask order task =>
    intro w hw
    rw [show p.taskIdToWorkerId.get? task.taskId = none from h] at hw
    cases hw
  | addWorker w capabilities queueSize => trivial
  | removeWorker w => trivial
  | removeTask t => trivial

theorem calls_exact {p : CapabilityAllocatePolicy} (h : p.Exact) {cs : List PolicyCall}
    (hcs : Along call AssignsNew p cs) : ∃ p', cs.foldlM call p = .ok p' ∧ p'.Exact := by
  have hstep : ∀ p c, Exact p → p.AssignsNew c → Ends (fun _ => False) (p.call c) Exact := by
    intro p c hp hc
    obtain ⟨p', he, hp'⟩ := call_exact hp hc.staysPut
    rw [he]
    exact hp'
  exact (Ends.foldlM hstep h hcs).exists_ok fun _ => id

/-- The invariant in the words of the policy. -/
structure Indexed (p : CapabilityAllocatePolicy) : Prop where
  assigned : ∀ t w, p.taskIdToWorkerId.get? t = some w ↔
    ∃ x, p.workerIdToWorker.get? w = some x ∧ (x.taskIdToTask.get? t).isSome
  bounded : ∀ w x, p.workerIdToWorker.get? w = some x → x.nTasks ≤ x.queueSize
  supported : ∀ w x, p.workerIdToWorker.get? w = some x → ∀ t cs,
    x.taskIdToTask.get? t = some cs → ∀ c ∈ cs, c ∈ x.capabilities
  offered : ∀ c w, (∃ ws, p.capabilityToWorkerIds.get? c = some ws ∧ w ∈ ws) ↔
    ∃ x, p.workerIdToWorker.get? w = some x ∧ c ∈ x.capabilities
  nonempty : ∀ c, p.capabilityToWorkerIds.get? c ≠ some []

theorem Exact.indexed {p : CapabilityAllocatePolicy} (h : p.Exact) : p.Indexed where
  assigned := h.wf.held
  bounded := h.bounded
  supported := h.supported
  offered := by
    intro c w
    constructor
    · rintro ⟨ws, hws, hw⟩
      exact (h.listed c ws hws).2.2 w hw
    · rintro ⟨x, hx, hc⟩
      exact h.wf.offered w x hx c hc
  nonempty := fun c hc => (h.listed c [] hc).1 rfl

end CapabilityAllocatePolicy

end Scaler
