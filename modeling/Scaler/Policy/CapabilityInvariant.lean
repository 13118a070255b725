import Mathlib.Data.List.Dedup
import Scaler.Policy.Capability
import Scaler.Policy.EvenLoadInvariant

/-! The tables of `CapabilityAllocatePolicy` agree as long as no task is assigned
that a worker already holds. -/

namespace Scaler

open Collections

namespace CapabilityAllocatePolicy

theorem minLoaded_mem {hs : List WorkerHolder} {h : WorkerHolder} (he : minLoaded hs = some h) :
    h ∈ hs := by
  induction hs generalizing h with
  | nil => simp [minLoaded] at he
  | cons a hs ih =>
    simp only [minLoaded] at he
    cases hm : minLoaded hs with
    | none =>
      simp only [hm, Option.some.injEq] at he
      simp [he]
    | some m =>
      simp only [hm] at he
      split at he
      · cases he
        exact List.mem_cons_of_mem _ (ih hm)
      · cases he
        simp

/-- Every worker is stored under its own identifier. -/
def Keyed (p : CapabilityAllocatePolicy) : Prop :=
  ∀ w h, p.workerIdToWorker.get? w = some h → h.workerId = w

theorem Keyed.set {p p' : CapabilityAllocatePolicy} {w : WorkerID} {x : WorkerHolder} (h : p.Keyed)
    (he : p'.workerIdToWorker = p.workerIdToWorker.set w x) (hw : x.workerId = w) : p'.Keyed := by
  intro v y hy
  rw [he, Dict.get?_set] at hy
  split at hy
  · next hv =>
    cases hy
    exact hw.trans hv.symm
  · exact h v y hy

theorem addWorker_keyed {p : CapabilityAllocatePolicy} (h : p.Keyed) (w : WorkerID)
    (capabilities : List (String × Int)) (size : Nat) : (p.addWorker w capabilities size).2.Keyed := by
  unfold addWorker
  split
  · exact h
  · exact h.set rfl rfl

theorem removeWorker_keyed {p : CapabilityAllocatePolicy} (h : p.Keyed) (w : WorkerID) :
    (p.removeWorker w).2.Keyed := by
  have herase : ∀ {p' : CapabilityAllocatePolicy},
      p'.workerIdToWorker = p.workerIdToWorker.erase w → p'.Keyed := by
    intro p' he v x hx
    rw [he, Dict.get?_erase] at hx
    split at hx
    · cases hx
    · exact h v x hx
  unfold removeWorker
  split
  · exact h
  · dsimp only
    split
    · exact herase rfl
    · exact herase rfl

theorem assignTask_keyed {p : CapabilityAllocatePolicy} (h : p.Keyed) (task : Task) :
    (p.assignTask task).2.Keyed := by
  unfold assignTask
  split
  · exact h
  · exact h.set rfl rfl

theorem removeTask_keyed {p : CapabilityAllocatePolicy} (h : p.Keyed) (t : TaskID) :
    (p.removeTask t).2.Keyed := by
  unfold removeTask
  split
  · exact h
  · dsimp only
    split
    · exact h
    · next x hx =>
      split
      · exact h.set rfl (h _ x hx)
      · exact h

structure Wf (p : CapabilityAllocatePolicy) : Prop where
  ident : ∀ w h, p.workerIdToWorker.get? w = some h → h.workerId = w
  held : ∀ t w, p.taskIdToWorkerId.get? t = some w ↔
    ∃ h, p.workerIdToWorker.get? w = some h ∧ (h.taskIdToTask.get? t).isSome
  distinct : ∀ w h, p.workerIdToWorker.get? w = some h → h.capabilities.Nodup
  offered : ∀ w h, p.workerIdToWorker.get? w = some h → ∀ c ∈ h.capabilities,
    ∃ ws, p.capabilityToWorkerIds.get? c = some ws ∧ w ∈ ws

theorem wf_empty : empty.Wf where
  ident := by simp [empty]
  held := by simp [empty]
  distinct := by simp [empty]
  offered := by simp [empty]

theorem mem_getWorkerIds {p : CapabilityAllocatePolicy} {w : WorkerID} :
    w ∈ p.getWorkerIds ↔ (p.workerIdToWorker.get? w).isSome := Dict.mem_keys _ _

/-- What is listed after `w` was added under distinct names. -/
theorem get?_addCapability_foldl {w : WorkerID} {cs : List String} (hn : cs.Nodup)
    (d : Dict String (List WorkerID)) (a : String) :
    (cs.foldl (addCapability w) d).get? a =
      if a ∈ cs then some (((d.get? a).getD []).insert w) else d.get? a := by
  induction cs generalizing d with
  | nil => simp
  | cons c cs ih =>
    obtain ⟨hc, hn⟩ := List.nodup_cons.mp hn
    rw [List.foldl_cons, ih hn, addCapability]
    by_cases ha : a = c
    · subst ha
      simp [hc]
    · simp [ha, Dict.get?_set_ne _ ha]

theorem addWorker_wf {p : CapabilityAllocatePolicy} (h : p.Wf) (w : WorkerID)
    (capabilities : List (String × Int)) (size : Nat) :
    (p.addWorker w capabilities size).2.Wf ∧
      (p.addWorker w capabilities size).2.taskIdToWorkerId = p.taskIdToWorkerId ∧
      ∀ v, v ∈ (p.addWorker w capabilities size).2.getWorkerIds ↔ v ∈ p.getWorkerIds ∨ v = w := by
  unfold addWorker
  split
  · next hc =>
    refine ⟨h, rfl, fun v => ?_⟩
    rw [mem_getWorkerIds]
    refine ⟨Or.inl, ?_⟩
    rintro (hv | rfl)
    · exact hv
    · exact hc
  · next hc =>
    have hnone : p.workerIdToWorker.get? w = none := by simpa [Dict.contains] using hc
    have hlisted := get?_addCapability_foldl (w := w)
      (List.nodup_dedup (capabilities.map Prod.fst)) p.capabilityToWorkerIds
    refine ⟨⟨?_, ?_, ?_, ?_⟩, rfl, ?_⟩
    · intro v x hv
      simp only [Dict.get?_set] at hv
      split at hv
      · next he =>
        cases hv
        exact he.symm
      · exact h.ident v x hv
    · intro t v
      rw [h.held]
      simp only [Dict.get?_set]
      by_cases hv : v = w
      · subst hv
        simp [hnone]
      · simp [hv]
    · intro v x hv
      simp only [Dict.get?_set] at hv
      split at hv
      · cases hv
        exact List.nodup_dedup _
      · exact h.distinct v x hv
    · intro v x hv c hcx
      simp only [Dict.get?_set] at hv
      split at hv
      · next he =>
        cases hv
        exact ⟨_, by rw [hlisted, if_pos hcx], by simp [he]⟩
      · obtain ⟨ws, hws, hmem⟩ := h.offered v x hv c hcx
        simp only [hlisted, hws]
        split
        · exact ⟨_, rfl, List.mem_insert_of_mem hmem⟩
        · exact ⟨ws, rfl, hmem⟩
    · intro v
      simp only [mem_getWorkerIds, Dict.get?_set]
      split
      · next hv => simp [hv]
      · next hv => simp [hv]

/-- What is left of a set of workers without `w`: an empty set is not kept. -/
def withoutWorker (w : WorkerID) (ws : List WorkerID) : Option (List WorkerID) :=
  if ws.erase w = [] then none else some (ws.erase w)

/-- Forgetting `w` under listed names does not raise. -/
theorem dropCapabilities_ok {w : WorkerID} {cs : List String} {d : Dict String (List WorkerID)}
    (hn : cs.Nodup) (h : ∀ c ∈ cs, (d.get? c).isSome) :
    (dropCapabilities w d cs).1 = .ok () ∧ ∀ a, (dropCapabilities w d cs).2.get? a =
      if a ∈ cs then (d.get? a).bind (withoutWorker w) else d.get? a := by
  induction cs generalizing d with
  | nil => exact ⟨rfl, fun _ => by simp [dropCapabilities]⟩
  | cons c cs ih =>
    obtain ⟨hc, hn⟩ := List.nodup_cons.mp hn
    obtain ⟨ws, hws⟩ := Option.isSome_iff_exists.mp (h c (by simp))
    simp only [dropCapabilities, hws]
    have hget : ∀ a, (if ws.erase w = [] then d.erase c else d.set c (ws.erase w)).get? a =
        if a = c then withoutWorker w ws else d.get? a := by
      intro a
      unfold withoutWorker
      split
      · exact Dict.get?_erase _ _ _
      · exact Dict.get?_set _ _ _ _
    obtain ⟨h1, h2⟩ := ih (d := if ws.erase w = [] then d.erase c else d.set c (ws.erase w)) hn
      (fun a ha => by
        have hne : a ≠ c := fun he => hc (he ▸ ha)
        rw [hget, if_neg hne]
        exact h a (by simp [ha]))
    refine ⟨h1, fun a => ?_⟩
    rw [h2, hget]
    by_cases ha : a = c
    · subst ha
      simp [hc, hws]
    · simp [ha]

theorem removeWorker_wf {p : CapabilityAllocatePolicy} (h : p.Wf) (w : WorkerID) :
    ∃ ts p', p.removeWorker w = (.ok ts, p') ∧ p'.Wf ∧ ts.Nodup ∧
      (∀ t, t ∈ ts ↔ p.taskIdToWorkerId.get? t = some w) ∧
      (∀ t, p'.taskIdToWorkerId.get? t =
        if p.taskIdToWorkerId.get? t = some w then none else p.taskIdToWorkerId.get? t) ∧
      ∀ v, v ∈ p'.getWorkerIds ↔ v ∈ p.getWorkerIds ∧ v ≠ w := by
  unfold removeWorker
  cases hq : p.workerIdToWorker.get? w with
  | none =>
    have hno : ∀ t, p.taskIdToWorkerId.get? t ≠ some w := by
      intro t ht
      obtain ⟨x, hx, _⟩ := (h.held t w).mp ht
      rw [hq] at hx
      cases hx
    refine ⟨[], p, rfl, h, List.nodup_nil, fun t => ?_, fun t => ?_, fun v => ?_⟩
    · simp [hno t]
    · rw [if_neg (hno t)]
    · refine ⟨fun hv => ⟨hv, ?_⟩, fun hv => hv.1⟩
      rintro rfl
      rw [mem_getWorkerIds, hq] at hv
      cases hv
  | some x =>
    have hmem : ∀ t, t ∈ x.taskIdToTask.keys ↔ p.taskIdToWorkerId.get? t = some w := by
      intro t
      rw [Dict.mem_keys, h.held]
      simp [hq]
    have hnd : x.taskIdToTask.keys.Nodup := x.taskIdToTask.nodup
    obtain ⟨h1, h2⟩ := popAll_ok hnd (d := p.taskIdToWorkerId) (fun t ht => by simp [(hmem t).mp ht])
    obtain ⟨d1, d2⟩ := dropCapabilities_ok (w := w) (d := p.capabilityToWorkerIds) (h.distinct w x hq)
      (fun c hc => by
        obtain ⟨ws, hws, _⟩ := h.offered w x hq c hc
        simp [hws])
    have hget : ∀ t, (popAll p.taskIdToWorkerId x.taskIdToTask.keys).2.get? t =
        if p.taskIdToWorkerId.get? t = some w then none else p.taskIdToWorkerId.get? t := by
      intro t
      rw [h2]
      simp only [hmem]
    refine ⟨x.taskIdToTask.keys, ⟨p.workerIdToWorker.erase w,
      (popAll p.taskIdToWorkerId x.taskIdToTask.keys).2,
      (dropCapabilities w p.capabilityToWorkerIds x.capabilities).2⟩, ?_, ⟨?_, ?_, ?_, ?_⟩, hnd, hmem,
      hget, ?_⟩
    · generalize hd : dropCapabilities w p.capabilityToWorkerIds x.capabilities = r at d1 ⊢
      obtain ⟨r1, r2⟩ := r
      simp only at d1
      subst d1
      simp only [hd, h1]
      rfl
    · intro v y hv
      simp only [Dict.get?_erase] at hv
      split at hv
      · cases hv
      · exact h.ident v y hv
    · intro t v
      rw [hget]
      simp only [Dict.get?_erase]
      by_cases hv : v = w
      · subst hv
        simp
      · rw [if_neg hv, ← h.held]
        constructor
        · intro ht
          split at ht
          · cases ht
          · exact ht
        · intro ht
          rw [if_neg, ht]
          rw [ht]
          exact fun he => hv (Option.some.inj he)
    · intro v y hv
      simp only [Dict.get?_erase] at hv
      split at hv
      · cases hv
      · exact h.distinct v y hv
    · intro v y hv c hc
      simp only [Dict.get?_erase] at hv
      split at hv
      · cases hv
      · next hne =>
        obtain ⟨ws, hws, hmem⟩ := h.offered v y hv c hc
        simp only [d2, hws]
        split
        · have hin : v ∈ ws.erase w := (List.mem_erase_of_ne hne).mpr hmem
          exact ⟨ws.erase w, if_neg (List.ne_nil_of_mem hin), hin⟩
        · exact ⟨ws, rfl, hmem⟩
    · intro v
      simp only [mem_getWorkerIds, Dict.get?_erase]
      split
      · next hv => simp [hv]
      · next hv => simp [hv]

/-- `task` recorded with the worker `x`. -/
def place (p : CapabilityAllocatePolicy) (x : WorkerHolder) (task : Task) :
    CapabilityAllocatePolicy :=
  { p with
    workerIdToWorker := p.workerIdToWorker.set x.workerId
      { x with taskIdToTask := x.taskIdToTask.set task.taskId (task.capabilities.map Prod.fst) }
    taskIdToWorkerId := p.taskIdToWorkerId.set task.taskId x.workerId }

theorem get?_of_mem_available {p : CapabilityAllocatePolicy} (h : p.Wf) {x : WorkerHolder}
    {capabilities : List (String × Int)} (hx : x ∈ p.availableWorkers capabilities) :
    p.workerIdToWorker.get? x.workerId = some x := by
  unfold availableWorkers at hx
  split at hx
  · simp at hx
  · obtain ⟨⟨w, y⟩, hy, rfl⟩ := List.mem_map.mp (List.mem_of_mem_filter hx)
    have hg := (Dict.mem_entries _ _ _).mp hy
    rwa [h.ident w y hg]

theorem place_wf {p : CapabilityAllocatePolicy} (h : p.Wf) {x : WorkerHolder} {task : Task}
    (hx : p.workerIdToWorker.get? x.workerId = some x)
    (ht : ∀ w, p.taskIdToWorkerId.get? task.taskId = some w → w = x.workerId) :
    (p.place x task).Wf ∧ ∀ v, v ∈ (p.place x task).getWorkerIds ↔ v ∈ p.getWorkerIds := by
  refine ⟨⟨?_, ?_, ?_, ?_⟩, ?_⟩
  · intro v y hv
    simp only [place, Dict.get?_set] at hv
    split at hv
    · next he =>
      cases hv
      exact he.symm
    · exact h.ident v y hv
  · intro t v
    simp only [place, Dict.get?_set]
    by_cases hte : t = task.taskId
    · subst hte
      by_cases hv : v = x.workerId
      · subst hv
        simp
      · simp only [if_pos, Option.some.injEq, if_neg hv]
        refine ⟨fun he => absurd he.symm hv, ?_⟩
        rintro ⟨y, hy, hs⟩
        exact absurd (ht v ((h.held _ v).mpr ⟨y, hy, hs⟩)) hv
    · rw [if_neg hte, h.held]
      by_cases hv : v = x.workerId
      · subst hv
        simp [hx, Dict.get?_set_ne _ hte]
      · simp [hv]
  · intro v y hv
    simp only [place, Dict.get?_set] at hv
    split at hv
    · next he =>
      cases hv
      exact h.distinct _ x hx
    · exact h.distinct v y hv
  · intro v y hv c hc
    simp only [place, Dict.get?_set] at hv
    split at hv
    · next he =>
      cases hv
      rw [he]
      exact h.offered _ x hx c hc
    · exact h.offered v y hv c hc
  · intro v
    simp only [mem_getWorkerIds, place, Dict.get?_set]
    split
    · next hv => simp [hv, hx]
    · exact Iff.rfl

theorem assignTask_wf {p : CapabilityAllocatePolicy} (h : p.Wf) (task : Task)
    (ht : p.taskIdToWorkerId.get? task.taskId = none) :
    (p.assignTask task).2.Wf ∧
      (∀ v, v ∈ (p.assignTask task).2.getWorkerIds ↔ v ∈ p.getWorkerIds) ∧
      ((p.assignTask task).1 = none →
        (p.assignTask task).2.taskIdToWorkerId = p.taskIdToWorkerId) ∧
      ∀ w, (p.assignTask task).1 = some w → w ∈ p.getWorkerIds ∧
        ∀ t, (p.assignTask task).2.taskIdToWorkerId.get? t =
          if t = task.taskId then some w else p.taskIdToWorkerId.get? t := by
  unfold assignTask
  cases hm : minLoaded (p.availableWorkers task.capabilities) with
  | none => exact ⟨h, fun _ => Iff.rfl, by simp, by simp⟩
  | some x =>
    have hx := get?_of_mem_available h (minLoaded_mem hm)
    obtain ⟨hwf, hids⟩ := place_wf h hx fun w hw => by
      rw [ht] at hw
      cases hw
    refine ⟨hwf, hids, by simp, ?_⟩
    rintro v hv
    obtain rfl := Option.some.inj hv
    exact ⟨mem_getWorkerIds.mpr (by simp [hx]), fun t => Dict.get?_set _ _ _ _⟩

theorem removeTask_wf {p : CapabilityAllocatePolicy} (h : p.Wf) (t : TaskID) :
    ∃ r p', p.removeTask t = (.ok r, p') ∧ p'.Wf ∧
      (∀ v, v ∈ p'.getWorkerIds ↔ v ∈ p.getWorkerIds) ∧
      ∀ u, p'.taskIdToWorkerId.get? u = if u = t then none else p.taskIdToWorkerId.get? u := by
  unfold removeTask
  cases ht : p.taskIdToWorkerId.get? t with
  | none =>
    refine ⟨none, p, rfl, h, fun _ => Iff.rfl, fun u => ?_⟩
    split
    · next he => rw [he, ht]
    · rfl
  | some w =>
    obtain ⟨x, hx, hm⟩ := (h.held t w).mp ht
    have hc : x.taskIdToTask.contains t = true := hm
    simp only [hx, hc, if_true]
    refine ⟨some w, _, rfl, ⟨?_, ?_, ?_, ?_⟩, ?_, fun u => Dict.get?_erase _ _ _⟩
    · intro v y hv
      simp only [Dict.get?_set] at hv
      split at hv
      · next he =>
        cases hv
        rw [he]
        exact h.ident _ x hx
      · exact h.ident v y hv
    · intro u v
      simp only [Dict.get?_erase, Dict.get?_set]
      by_cases hut : u = t
      · subst hut
        simp only [if_pos, reduceCtorEq, false_iff]
        rintro ⟨y, hy, hs⟩
        split at hy
        · cases hy
          simp at hs
        · next hv =>
          have := (h.held u v).mpr ⟨y, hy, hs⟩
          rw [ht] at this
          exact hv (Option.some.inj this).symm
      · rw [if_neg hut, h.held]
        by_cases hv : v = w
        · subst hv
          simp [hx, Dict.get?_erase_ne _ hut]
        · simp [hv]
    · intro v y hv
      simp only [Dict.get?_set] at hv
      split at hv
      · cases hv
        exact h.distinct _ x hx
      · exact h.distinct v y hv
    · intro v y hv c hc
      simp only [Dict.get?_set] at hv
      split at hv
      · next he =>
        cases hv
        rw [he]
        exact h.offered _ x hx c hc
      · exact h.offered v y hv c hc
    · intro v
      simp only [mem_getWorkerIds, Dict.get?_set]
      split
      · next hv => simp [hv, hx]
      · exact Iff.rfl

end CapabilityAllocatePolicy

end Scaler
