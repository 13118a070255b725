import Scaler.Policy.EvenLoad

/-! The tables of `EvenLoadAllocatePolicy` agree: every registered worker is in the
priority queue, and a task is mapped to the worker in whose queue it is. -/

namespace Scaler

open Collections

namespace StablePriorityQueue

theorem insertSorted_perm {α : Type} (k : MapKey) (a : α) (es : List (MapKey × α)) :
    (insertSorted k a es).Perm ((k, a) :: es) := by
  induction es with
  | nil => exact .refl _
  | cons e es ih =>
    simp only [insertSorted]
    split
    · exact (ih.cons e).trans (.swap _ _ _)
    · exact .refl _

variable {α : Type} [DecidableEq α]

/-- Keys are distinct and older than the counter, and the locator finds every item. -/
structure Wf (q : StablePriorityQueue α) : Prop where
  unique : (q.queue.map Prod.fst).Nodup
  fresh : ∀ e ∈ q.queue, e.1.2 < q.itemCounter
  locate : ∀ a k, q.locator.get? a = some k ↔ (k, a) ∈ q.queue

theorem wf_empty : (empty : StablePriorityQueue α).Wf where
  unique := List.nodup_nil
  fresh := by simp [empty]
  locate := by simp [empty]

theorem wf_insert {q : StablePriorityQueue α} (h : q.Wf) {a : α} (ha : q.locator.get? a = none)
    (n : Int) : (q.put n a).Wf where
  unique := by
    have hp := (insertSorted_perm (n, q.itemCounter) a q.queue).map Prod.fst
    refine hp.nodup_iff.mpr (List.nodup_cons.mpr ⟨fun hm => ?_, h.unique⟩)
    obtain ⟨e, he, heq⟩ := List.mem_map.mp hm
    have hlt := h.fresh e he
    rw [heq] at hlt
    exact Nat.lt_irrefl _ hlt
  fresh := by
    intro e he
    rcases List.mem_cons.mp ((insertSorted_perm _ _ _).mem_iff.mp he) with rfl | he
    · exact Nat.lt_succ_self _
    · exact Nat.lt_succ_of_lt (h.fresh e he)
  locate := by
    intro b k
    simp only [put, Dict.get?_set, (insertSorted_perm _ _ _).mem_iff, List.mem_cons, Prod.mk.injEq]
    by_cases hb : b = a
    · subst hb
      have hnot : (k, b) ∉ q.queue := by
        intro hm
        rw [(h.locate b k).mpr hm] at ha
        cases ha
      simp [hnot, eq_comm]
    · simp [hb, h.locate]

theorem get_eq {q : StablePriorityQueue α} {n : Int} {a : α} {q' : StablePriorityQueue α}
    (h : q.Wf) (hg : q.get = some ((n, a), q')) :
    q'.Wf ∧ (q.locator.get? a).isSome ∧ q'.locator = q.locator.erase a := by
  unfold get at hg
  cases hq : q.queue with
  | nil => simp [hq] at hg
  | cons e es =>
    obtain ⟨k, b⟩ := e
    simp only [hq, Option.some.injEq, Prod.mk.injEq] at hg
    obtain ⟨⟨rfl, rfl⟩, rfl⟩ := hg
    have hu := h.unique
    rw [hq, List.map_cons, List.nodup_cons] at hu
    have hl : q.locator.get? b = some k := (h.locate b k).mpr (by simp [hq])
    refine ⟨⟨hu.2, fun e he => h.fresh e (by simp [hq, he]), ?_⟩, by simp [hl], rfl⟩
    intro c k'
    rw [Dict.get?_erase]
    by_cases hc : c = b
    · subst hc
      simp only [if_pos, reduceCtorEq, false_iff]
      intro hm
      have hk := (h.locate c k').mpr (by simp [hq, hm])
      rw [hl] at hk
      obtain rfl := Option.some.inj hk
      exact hu.1 (List.mem_map.mpr ⟨_, hm, rfl⟩)
    · rw [if_neg hc, h.locate, hq, List.mem_cons]
      simp [hc]

/-- Taking an item out by its key. -/
theorem wf_filter {q : StablePriorityQueue α} (h : q.Wf) {a : α} {k : MapKey}
    (ha : q.locator.get? a = some k) :
    ({ q with queue := q.queue.filter fun e => e.1 ≠ k, locator := q.locator.erase a } :
      StablePriorityQueue α).Wf where
  unique := (List.filter_sublist.map _).nodup h.unique
  fresh := fun e he => h.fresh e (List.mem_of_mem_filter he)
  locate := by
    intro b k'
    simp only [Dict.get?_erase, List.mem_filter, decide_eq_true_eq]
    by_cases hb : b = a
    · subst hb
      simp only [if_pos, reduceCtorEq, false_iff]
      rintro ⟨hm, hk⟩
      have := (h.locate b k').mpr hm
      rw [ha] at this
      exact hk (Option.some.inj this).symm
    · rw [if_neg hb, h.locate]
      refine ⟨fun hm => ⟨hm, fun hk => hb ?_⟩, fun hm => hm.1⟩
      have hm' : (k, a) ∈ q.queue := (h.locate a k).mp ha
      have he := List.inj_on_of_nodup_map h.unique hm hm' (by simpa using hk)
      exact congrArg Prod.snd he

theorem remove_wf {q : StablePriorityQueue α} (h : q.Wf) (a : α) :
    (q.remove a).Wf ∧ (q.remove a).locator = q.locator.erase a := by
  unfold remove
  cases ha : q.locator.get? a with
  | some k => exact ⟨wf_filter h ha, rfl⟩
  | none =>
    refine ⟨h, ?_⟩
    rw [Dict.erase_of_get?_none ha]

theorem decreasePriority_wf {q : StablePriorityQueue α} (h : q.Wf) (a : α) :
    (q.decreasePriority a).Wf ∧
      ∀ b, ((q.decreasePriority a).locator.get? b).isSome = (q.locator.get? b).isSome := by
  unfold decreasePriority
  cases ha : q.locator.get? a with
  | none => exact ⟨h, fun _ => rfl⟩
  | some k =>
    have hw := wf_insert (wf_filter h ha) (a := a) (Dict.get?_erase_self _ _) (k.1 - 1)
    refine ⟨⟨hw.unique, hw.fresh, ?_⟩, ?_⟩
    · intro b k'
      refine Iff.trans ?_ (hw.locate b k')
      simp only [put, Dict.get?_set, Dict.get?_erase]
      split <;> rfl
    · intro b
      simp only [Dict.get?_set]
      split
      · next hb => simp [hb, ha]
      · rfl

end StablePriorityQueue

/-- `popAll` of distinct keys that are all there. -/
theorem popAll_ok {K V : Type} [DecidableEq K] {ks : List K} {d : Dict K V} (hn : ks.Nodup)
    (h : ∀ k ∈ ks, (d.get? k).isSome) :
    (popAll d ks).1 = .ok () ∧ ∀ k, (popAll d ks).2.get? k = if k ∈ ks then none else d.get? k := by
  induction ks generalizing d with
  | nil => simp [popAll]
  | cons a ks ih =>
    obtain ⟨ha, hn⟩ := List.nodup_cons.mp hn
    have hc : d.contains a = true := h a (by simp)
    have hrest : ∀ k ∈ ks, ((d.erase a).get? k).isSome := by
      intro k hk
      rw [Dict.get?_erase_ne]
      · exact h k (by simp [hk])
      · rintro rfl
        exact ha hk
    obtain ⟨h1, h2⟩ := ih hn hrest
    simp only [popAll, hc, if_true]
    refine ⟨h1, fun k => ?_⟩
    rw [h2, Dict.get?_erase]
    by_cases hk : k = a
    · simp [hk]
    · simp [hk]

namespace EvenLoadAllocatePolicy

structure Wf (p : EvenLoadAllocatePolicy) : Prop where
  queue : p.workerQueue.Wf
  queued : ∀ w, (p.workerQueue.locator.get? w).isSome = (p.workersToTaskIds.get? w).isSome
  sized : ∀ w, (p.workersToQueueSize.get? w).isSome = (p.workersToTaskIds.get? w).isSome
  nodup : ∀ w ids, p.workersToTaskIds.get? w = some ids → ids.list.Nodup
  held : ∀ t w, p.taskIdToWorker.get? t = some w ↔
    ∃ ids, p.workersToTaskIds.get? w = some ids ∧ t ∈ ids.list

theorem wf_empty : empty.Wf where
  queue := StablePriorityQueue.wf_empty
  queued := fun _ => rfl
  sized := fun _ => rfl
  nodup := by simp [empty]
  held := by simp [empty]

theorem mem_getWorkerIds {p : EvenLoadAllocatePolicy} {w : WorkerID} :
    w ∈ p.getWorkerIds ↔ (p.workersToTaskIds.get? w).isSome := Dict.mem_keys _ _

theorem addWorker_wf {p : EvenLoadAllocatePolicy} (h : p.Wf) (w : WorkerID) (size : Nat) :
    (p.addWorker w size).2.Wf ∧ (p.addWorker w size).2.taskIdToWorker = p.taskIdToWorker ∧
      ∀ v, v ∈ (p.addWorker w size).2.getWorkerIds ↔ v ∈ p.getWorkerIds ∨ v = w := by
  unfold addWorker
  split
  · next hc =>
    refine ⟨h, rfl, fun v => ?_⟩
    rw [mem_getWorkerIds]
    refine ⟨Or.inl, ?_⟩
    rintro (hv | rfl)
    · exact hv
    · exact hc
  · next hc =>
    have hnone : p.workersToTaskIds.get? w = none := by
      simpa [Dict.contains] using hc
    have hloc : p.workerQueue.locator.get? w = none := by
      have := h.queued w
      rw [hnone] at this
      simpa using this
    refine ⟨⟨StablePriorityQueue.wf_insert h.queue hloc 0, ?_, ?_, ?_, ?_⟩, rfl, ?_⟩
    · intro v
      simp only [StablePriorityQueue.put, Dict.get?_set]
      split
      · rfl
      · exact h.queued v
    · intro v
      simp only [Dict.get?_set]
      split
      · rfl
      · exact h.sized v
    · intro v ids hv
      simp only [Dict.get?_set] at hv
      split at hv
      · cases hv
        exact List.nodup_nil
      · exact h.nodup v ids hv
    · intro t v
      rw [h.held]
      simp only [Dict.get?_set]
      by_cases hv : v = w
      · subst hv
        simp [hnone, IndexedQueue.empty]
      · simp [hv]
    · intro v
      simp only [mem_getWorkerIds, Dict.get?_set]
      split
      · next hv => simp [hv]
      · next hv => simp [hv]

theorem removeWorker_wf {p : EvenLoadAllocatePolicy} (h : p.Wf) (w : WorkerID) :
    ∃ ts p', p.removeWorker w = (.ok ts, p') ∧ p'.Wf ∧ ts.Nodup ∧
      (∀ t, t ∈ ts ↔ p.taskIdToWorker.get? t = some w) ∧
      (∀ t, p'.taskIdToWorker.get? t =
        if p.taskIdToWorker.get? t = some w then none else p.taskIdToWorker.get? t) ∧
      ∀ v, v ∈ p'.getWorkerIds ↔ v ∈ p.getWorkerIds ∧ v ≠ w := by
  unfold removeWorker
  cases hq : p.workersToTaskIds.get? w with
  | none =>
    have hno : ∀ t, p.taskIdToWorker.get? t ≠ some w := by
      intro t ht
      obtain ⟨ids, hids, _⟩ := (h.held t w).mp ht
      rw [hq] at hids
      cases hids
    refine ⟨[], p, rfl, h, List.nodup_nil, fun t => ?_, fun t => ?_, fun v => ?_⟩
    · simp [hno t]
    · rw [if_neg (hno t)]
    · refine ⟨fun hv => ⟨hv, ?_⟩, fun hv => hv.1⟩
      rintro rfl
      rw [mem_getWorkerIds, hq] at hv
      cases hv
  | some q =>
    have hmem : ∀ t, t ∈ q.toList ↔ p.taskIdToWorker.get? t = some w := by
      intro t
      rw [IndexedQueue.toList, List.mem_reverse, h.held]
      simp [hq]
    have hnd : q.toList.Nodup := List.nodup_reverse.mpr (h.nodup w q hq)
    obtain ⟨h1, h2⟩ := popAll_ok hnd (d := p.taskIdToWorker) (fun t ht => by simp [(hmem t).mp ht])
    have hget : ∀ t, (popAll p.taskIdToWorker q.toList).2.get? t =
        if p.taskIdToWorker.get? t = some w then none else p.taskIdToWorker.get? t := by
      intro t
      rw [h2]
      simp only [hmem]
    obtain ⟨hrw, hrl⟩ := StablePriorityQueue.remove_wf h.queue w
    refine ⟨q.toList, ⟨p.workersToQueueSize.erase w, p.workersToTaskIds.erase w,
      (popAll p.taskIdToWorker q.toList).2, p.workerQueue.remove w⟩, ?_,
      ⟨hrw, ?_, ?_, ?_, ?_⟩, hnd, hmem, hget, ?_⟩
    · simp only [h1]
      rfl
    · intro v
      rw [hrl]
      simp only [Dict.get?_erase]
      split
      · rfl
      · exact h.queued v
    · intro v
      simp only [Dict.get?_erase]
      split
      · rfl
      · exact h.sized v
    · intro v ids hv
      simp only [Dict.get?_erase] at hv
      split at hv
      · cases hv
      · exact h.nodup v ids hv
    · intro t v
      rw [hget]
      simp only [Dict.get?_erase]
      by_cases hv : v = w
      · subst hv
        simp
      · rw [if_neg hv, ← h.held]
        constructor
        · intro ht
          split at ht
          · cases ht
          · exact ht
        · intro ht
          rw [if_neg, ht]
          rw [ht]
          exact fun he => hv (Option.some.inj he)
    · intro v
      simp only [mem_getWorkerIds, Dict.get?_erase]
      split
      · next hv => simp [hv]
      · next hv => simp [hv]

theorem assignTask_wf {p : EvenLoadAllocatePolicy} (h : p.Wf) (task : Task) :
    ∃ r p', p.assignTask task = (.ok r, p') ∧ p'.Wf ∧
      (∀ v, v ∈ p'.getWorkerIds ↔ v ∈ p.getWorkerIds) ∧
      (r = none → p'.taskIdToWorker = p.taskIdToWorker) ∧
      ∀ w, r = some w → w ∈ p.getWorkerIds ∧
        ∀ t, p'.taskIdToWorker.get? t =
          if t = task.taskId then some w else p.taskIdToWorker.get? t := by
  unfold assignTask
  cases ht : p.taskIdToWorker.get? task.taskId with
  | some w =>
    refine ⟨some w, p, rfl, h, fun _ => Iff.rfl, by simp, ?_⟩
    rintro v hv
    obtain rfl := Option.some.inj hv
    obtain ⟨ids, hids, _⟩ := (h.held _ _).mp ht
    refine ⟨mem_getWorkerIds.mpr (by simp [hids]), fun t => ?_⟩
    split
    · next he => rw [he, ht]
    · rfl
  | none =>
    cases hg : p.workerQueue.get with
    | none => exact ⟨none, p, rfl, h, fun _ => Iff.rfl, by simp, by simp⟩
    | some r =>
      obtain ⟨⟨count, w⟩, queue⟩ := r
      obtain ⟨hqw, hloc, hlq⟩ := StablePriorityQueue.get_eq h.queue hg
      have hids : (p.workersToTaskIds.get? w).isSome := by rw [← h.queued, hloc]
      obtain ⟨ids, hids⟩ := Option.isSome_iff_exists.mp hids
      have hsize : (p.workersToQueueSize.get? w).isSome := by rw [h.sized, hids]; rfl
      obtain ⟨size, hsize⟩ := Option.isSome_iff_exists.mp hsize
      have habs : queue.locator.get? w = none := by rw [hlq, Dict.get?_erase_self]
      have hloc' : ∀ n v, (((queue.put n w).locator.get? v).isSome =
          (p.workersToTaskIds.get? v).isSome) := by
        intro n v
        simp only [StablePriorityQueue.put, Dict.get?_set, hlq, Dict.get?_erase]
        by_cases hv : v = w
        · simp [hv, hids]
        · simp [hv, h.queued]
      simp only [hsize, hids]
      split
      · refine ⟨none, _, rfl, ⟨StablePriorityQueue.wf_insert hqw habs count, hloc' count, h.sized,
          h.nodup, h.held⟩, fun _ => Iff.rfl, by simp, by simp⟩
      · have hnot : task.taskId ∉ ids.list := by
          intro hm
          rw [(h.held _ w).mpr ⟨ids, hids, hm⟩] at ht
          cases ht
        simp only [IndexedQueue.put, if_neg hnot]
        refine ⟨some w, _, rfl, ⟨StablePriorityQueue.wf_insert hqw habs (count + 1), ?_, ?_, ?_, ?_⟩,
          ?_, by simp, ?_⟩
        · intro v
          rw [hloc']
          simp only [Dict.get?_set]
          split
          · next hv => simp [hv, hids]
          · rfl
        · intro v
          simp only [Dict.get?_set]
          split
          · next hv => simp [hv, hsize]
          · exact h.sized v
        · intro v is hv
          simp only [Dict.get?_set] at hv
          split at hv
          · cases hv
            exact List.nodup_cons.mpr ⟨hnot, h.nodup w ids hids⟩
          · exact h.nodup v is hv
        · intro t v
          simp only [Dict.get?_set]
          by_cases hv : v = w
          · subst hv
            by_cases hte : t = task.taskId
            · simp [hte]
            · simp [hte, h.held, hids]
          · by_cases hte : t = task.taskId
            · have hno : ¬ ∃ is, p.workersToTaskIds.get? v = some is ∧ task.taskId ∈ is.list := by
                rw [← h.held, ht]
                simp
              simp [hte, hv, hno, Ne.symm hv]
            · simp [hte, hv, h.held]
        · intro v
          simp only [mem_getWorkerIds, Dict.get?_set]
          split
          · next hv => simp [hv, hids]
          · exact Iff.rfl
        · rintro v hv
          obtain rfl := Option.some.inj hv
          exact ⟨mem_getWorkerIds.mpr (by simp [hids]), fun t => Dict.get?_set _ _ _ _⟩

theorem removeTask_wf {p : EvenLoadAllocatePolicy} (h : p.Wf) (t : TaskID) :
    ∃ r p', p.removeTask t = (.ok r, p') ∧ p'.Wf ∧
      (∀ v, v ∈ p'.getWorkerIds ↔ v ∈ p.getWorkerIds) ∧
      ∀ u, p'.taskIdToWorker.get? u = if u = t then none else p.taskIdToWorker.get? u := by
  unfold removeTask
  cases ht : p.taskIdToWorker.get? t with
  | none =>
    refine ⟨none, p, rfl, h, fun _ => Iff.rfl, fun u => ?_⟩
    split
    · next he => rw [he, ht]
    · rfl
  | some w =>
    obtain ⟨ids, hids, hm⟩ := (h.held t w).mp ht
    simp only [hids, IndexedQueue.remove, if_pos hm]
    obtain ⟨hdw, hdl⟩ := StablePriorityQueue.decreasePriority_wf h.queue w
    refine ⟨some w, _, rfl, ⟨hdw, ?_, ?_, ?_, ?_⟩, ?_, fun u => Dict.get?_erase _ _ _⟩
    · intro v
      rw [hdl]
      simp only [Dict.get?_set]
      split
      · next hv => simp [hv, h.queued, hids]
      · exact h.queued v
    · intro v
      simp only [Dict.get?_set]
      split
      · next hv => simp [hv, h.sized, hids]
      · exact h.sized v
    · intro v is hv
      simp only [Dict.get?_set] at hv
      split at hv
      · cases hv
        exact (h.nodup w ids hids).erase t
      · exact h.nodup v is hv
    · intro u v
      simp only [Dict.get?_erase, Dict.get?_set]
      by_cases hut : u = t
      · subst hut
        simp only [if_pos, reduceCtorEq, false_iff]
        rintro ⟨is, his, hmem⟩
        split at his
        · cases his
          exact (h.nodup w ids hids).not_mem_erase hmem
        · next hv =>
          have := (h.held u v).mpr ⟨is, his, hmem⟩
          rw [ht] at this
          exact hv (Option.some.inj this).symm
      · rw [if_neg hut, h.held]
        by_cases hv : v = w
        · subst hv
          simp [hids, List.mem_erase_of_ne hut]
        · simp [hv]
    · intro v
      simp only [mem_getWorkerIds, Dict.get?_set]
      split
      · next hv => simp [hv, hids]
      · exact Iff.rfl

end EvenLoadAllocatePolicy

end Scaler
