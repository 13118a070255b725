import Scaler.Policy.EvenLoadInvariant
import Scaler.Worker.Holders

/-! The tasks that the agent has queued, and the steps that leave them alone. -/

namespace Scaler

open Collections

namespace StablePriorityQueue

variable {α : Type} [DecidableEq α] {q : StablePriorityQueue α} {a : α}

/-- Keys are distinct and older than the counter, and what the locator says is true. An item
may be there more than once, and the locator knows the last one. -/
structure Located (q : StablePriorityQueue α) : Prop where
  unique : (q.queue.map Prod.fst).Nodup
  fresh : ∀ e ∈ q.queue, e.1.2 < q.itemCounter
  located : ∀ a k, q.locator.get? a = some k → (k, a) ∈ q.queue

theorem located_empty : (empty : StablePriorityQueue α).Located :=
  ⟨List.nodup_nil, fun _ he => (by cases he), fun _ _ he => (by cases he)⟩

theorem mem_put {n : Int} {e : MapKey × α} :
    e ∈ (q.put n a).queue ↔ e = ((n, q.itemCounter), a) ∨ e ∈ q.queue := by
  rw [put, (insertSorted_perm _ _ _).mem_iff, List.mem_cons]

theorem Located.put (h : q.Located) (n : Int) (a : α) : (q.put n a).Located where
  unique := by
    have hp := (insertSorted_perm (n, q.itemCounter) a q.queue).map Prod.fst
    refine hp.nodup_iff.mpr (List.nodup_cons.mpr ⟨fun hm => ?_, h.unique⟩)
    obtain ⟨e, he, heq⟩ := List.mem_map.mp hm
    have hlt := h.fresh e he
    rw [heq] at hlt
    exact Nat.lt_irrefl _ hlt
  fresh := by
    intro e he
    rcases mem_put.mp he with rfl | he
    · exact Nat.lt_succ_self _
    · exact Nat.lt_succ_of_lt (h.fresh e he)
  located := by
    intro b k hb
    rw [StablePriorityQueue.put, Dict.get?_set] at hb
    refine mem_put.mpr ?_
    split at hb
    · next hba =>
      cases hb
      exact .inl (by rw [hba])
    · exact .inr (h.located b k hb)

theorem get_some {n : Int} {q' : StablePriorityQueue α} (hg : q.get = some ((n, a), q')) :
    ∃ k, q.queue = (k, a) :: q'.queue ∧ q'.locator = q.locator.erase a ∧ q'.itemCounter = q.itemCounter := by
  unfold get at hg
  cases hq : q.queue with
  | nil =>
    rw [hq] at hg
    cases hg
  | cons e es =>
    rw [hq] at hg
    cases hg
    exact ⟨e.1, rfl, rfl, rfl⟩

theorem Located.get (h : q.Located) {n : Int} {q' : StablePriorityQueue α} (hg : q.get = some ((n, a), q')) :
    q'.Located := by
  obtain ⟨k, hq, hl, hc⟩ := get_some hg
  obtain ⟨hu, hf, hlo⟩ := h
  rw [hq] at hu hf hlo
  refine ⟨(List.nodup_cons.mp hu).2, fun e he => hc ▸ hf e (List.mem_cons_of_mem _ he), fun b k' hb => ?_⟩
  rw [hl, Dict.get?_erase] at hb
  split at hb
  · cases hb
  · next hne =>
    rcases List.mem_cons.mp (hlo b k' hb) with he | hm
    · cases he
      exact absurd rfl hne
    · exact hm

theorem mem_remove {e : MapKey × α} (he : e ∈ (q.remove a).queue) : e ∈ q.queue := by
  unfold remove at he
  split at he
  · exact he
  · exact List.mem_of_mem_filter he

theorem Located.remove (h : q.Located) (a : α) : (q.remove a).Located := by
  unfold StablePriorityQueue.remove
  cases hk : q.locator.get? a with
  | none => exact h
  | some k =>
    refine ⟨(List.filter_sublist.map _).nodup h.unique, fun e he => h.fresh e (List.mem_of_mem_filter he),
      fun b k' hb => ?_⟩
    dsimp only at hb ⊢
    rw [Dict.get?_erase] at hb
    split at hb
    · cases hb
    · next hne =>
      have hm := h.located b k' hb
      refine List.mem_filter.mpr ⟨hm, ?_⟩
      rw [decide_eq_true_eq]
      rintro rfl
      have he := List.inj_on_of_nodup_map h.unique hm (h.located a k' hk) rfl
      exact hne (congrArg Prod.snd he)

theorem locator_remove (q : StablePriorityQueue α) (a : α) : (q.remove a).locator = q.locator.erase a := by
  unfold StablePriorityQueue.remove
  split
  · next hk => rw [Dict.erase_of_get?_none hk]
  · rfl

/-- How often an item is in the queue. -/
def count (q : StablePriorityQueue α) (a : α) : Nat := q.queue.countP fun e => e.2 = a

theorem count_eq_zero : q.count a = 0 ↔ ∀ k, (k, a) ∉ q.queue := by
  rw [count, List.countP_eq_zero]
  refine ⟨fun h k hm => h _ hm (by simp), fun h e he => ?_⟩
  rw [decide_eq_true_eq]
  rintro rfl
  exact h e.1 he

/-- An item that is there once is gone when it is removed. -/
theorem Located.not_mem_remove (h : q.Located) (ha : (q.locator.get? a).isSome) (hone : q.count a ≤ 1) (k : MapKey) :
    (k, a) ∉ (q.remove a).queue := by
  obtain ⟨l, hl⟩ := Option.isSome_iff_exists.mp ha
  intro hm
  have hrem : (q.remove a).queue = q.queue.filter fun e => e.1 ≠ l := by
    unfold StablePriorityQueue.remove
    rw [hl]
  rw [hrem] at hm
  obtain ⟨hm, hk⟩ := List.mem_filter.mp hm
  have hk' : k ≠ l := by simpa using hk
  have hl' := h.located a l hl
  have hsub : [(k, a), (l, a)].Subperm q.queue := by
    refine List.subperm_of_subset ?_ fun e he => ?_
    · simp [hk']
    · rcases List.mem_cons.mp he with rfl | he
      · exact hm
      · rw [List.mem_singleton.mp he]
        exact hl'
  have hle := hsub.countP_le fun e => decide (e.2 = a)
  rw [count] at hone
  simp at hle
  omega

end StablePriorityQueue

namespace Worker.Agent

variable {s s' : Agent} {t : TaskID} {p : Nat}

/-- Queued tasks are in the priority queue, under their own ids. -/
structure Queued (s : Agent) : Prop where
  located : s.queuedTaskIds.Located
  both : ∀ t, (s.queuedTaskIdToTask.get? t).isSome = (s.queuedTaskIds.locator.get? t).isSome
  named : ∀ t task, s.queuedTaskIdToTask.get? t = some task → task.taskId = t

/-- Nothing is queued, processed or sent, and no process gets a task. -/
structure Quiet (s s' : Agent) : Prop where
  queue : s'.queuedTaskIds = s.queuedTaskIds
  tasks : s'.queuedTaskIdToTask = s.queuedTaskIdToTask
  processing : s'.processingTaskIds = s.processingTaskIds
  sent : s'.sent = s.sent
  held : ∀ p t, s'.taskOf p = some t → s.taskOf p = some t

section Quiet

variable {s'' : Agent}

theorem Quiet.refl (s : Agent) : Quiet s s := ⟨rfl, rfl, rfl, rfl, fun _ _ h => h⟩

theorem Quiet.trans (h : Quiet s s') (h' : Quiet s' s'') : Quiet s s'' :=
  ⟨h'.queue.trans h.queue, h'.tasks.trans h.tasks, h'.processing.trans h.processing, h'.sent.trans h.sent,
    fun p t ht => h.held p t (h'.held p t ht)⟩

theorem Quiet.setHolder {r : Holder} (hr : r.task = none ∨ r.task = (s.holders p).task) :
    Quiet s (s.setHolder p r) := by
  refine ⟨rfl, rfl, rfl, rfl, fun q t hq => ?_⟩
  rw [taskOf_setHolder] at hq
  split at hq
  · next hqp =>
    rcases hr with hr | hr
    · rw [hr] at hq
      cases hq
    · rw [hr] at hq
      rw [hqp]
      exact hq
  · exact hq

theorem Quiet.kill (s : Agent) (p : Nat) : Quiet s (s.killProcessor p) := by
  have h := Quiet.setHolder (s := s) (p := p) (r := { s.holders p with task := none }) (.inl rfl)
  exact ⟨rfl, rfl, rfl, rfl, h.held⟩

theorem Quiet.start (s : Agent) : Quiet s s.startNewProcessor := by
  have h := Quiet.setHolder (s := s) (p := s.started) (r := ⟨none, none, false⟩) (.inl rfl)
  exact ⟨rfl, rfl, rfl, rfl, h.held⟩

theorem Quiet.restart (h : Quiet s s') : Ends Any s'.restartCurrentProcessor (Quiet s) := by
  unfold restartCurrentProcessor
  split
  · exact trivial
  · exact (h.trans (.kill s' _)).trans (.start _)

theorem Quiet.onCancelProcessor (s : Agent) (t : TaskID) : Ends Any (s.onCancelProcessor t) (Quiet s) := by
  unfold Agent.onCancelProcessor
  split
  · exact trivial
  split
  · exact (Quiet.refl s).restart
  split
  · next p _ =>
    have h := Quiet.kill { s with suspendedHoldersByTaskId := s.suspendedHoldersByTaskId.erase t } p
    exact ⟨rfl, rfl, rfl, rfl, h.held⟩
  · exact Quiet.refl s

theorem Quiet.onFailingProcessor (s : Agent) (i : Nat) :
    Ends Any (s.onFailingProcessor i) fun r => Quiet s r.1 := by
  unfold Agent.onFailingProcessor
  split
  · exact trivial
  split
  · exact Quiet.refl s
  next p _ =>
  dsimp only
  cases (s.holders p).task with
  | none =>
    dsimp only
    split
    · refine Ends.bind (Quiet.refl s).restart fun s' h => ?_
      exact h
    · exact Quiet.kill s p
  | some task =>
    have hend : Quiet s (endTask { s with
        suspendedHoldersByTaskId := s.suspendedHoldersByTaskId.erase task.taskId } p) := by
      have h := Quiet.setHolder (s := s) (p := p) (r := { s.holders p with task := none }) (.inl rfl)
      exact ⟨rfl, rfl, rfl, rfl, h.held⟩
    dsimp only
    split
    · refine Ends.bind hend.restart fun s' h => ?_
      exact h
    · exact hend.trans (.kill _ p)

theorem Quiet.onSuspendTask (s : Agent) (t : TaskID) : Ends Any (s.onSuspendTask t) (Quiet s) := by
  unfold Agent.onSuspendTask
  split
  · exact trivial
  next p _ =>
  split
  · unfold Agent.suspend
    dsimp only
    split
    · have h := Quiet.setHolder (s := s) (p := p) (r := { s.holders p with suspended := true }) (.inr rfl)
      have hset : Quiet s { s.setHolder p { s.holders p with suspended := true } with
          suspendedHoldersByTaskId := s.suspendedHoldersByTaskId.set t p } := ⟨rfl, rfl, rfl, rfl, h.held⟩
      exact hset.trans (.start _)
    · exact trivial
  · exact Quiet.refl s

theorem Quiet.release (h : Quiet s s') : Ends Any s'.release (Quiet s) := by
  unfold Agent.release
  split
  · exact ⟨h.queue, h.tasks, h.processing, h.sent, h.held⟩
  · exact trivial

theorem Quiet.onProcessorInitialized (s : Agent) (i : Nat) : Ends Any (s.onProcessorInitialized i) (Quiet s) := by
  unfold Agent.onProcessorInitialized
  split
  · exact trivial
  next p _ =>
  split
  · exact Quiet.refl s
  · have h := Quiet.setHolder (s := s) (p := p) (r := { s.holders p with processorId := some i }) (.inr rfl)
    exact Quiet.release ⟨rfl, rfl, rfl, rfl, h.held⟩

theorem Quiet.onResumeTask (s : Agent) (t : TaskID) (resumes : Bool) :
    Ends Any (s.onResumeTask t resumes) (Quiet s) := by
  have hdone : ∀ {s' : Agent}, Quiet s s' → Quiet s s'.done := fun h => ⟨h.queue, h.tasks, h.processing, h.sent, h.held⟩
  unfold Agent.onResumeTask
  split
  · split
    · exact hdone (.refl s)
    split
    · exact hdone (.refl s)
    next p _ =>
    dsimp only [Agent.resume]
    split
    · cases resumes with
      | true =>
        have h := Quiet.setHolder (s := s) (p := p) (r := { s.holders p with suspended := false }) (.inr rfl)
        cases s.currentHolder with
        | none => exact trivial
        | some c =>
          have hkill := Quiet.kill (Agent.setHolder { s with
            suspendedHoldersByTaskId := s.suspendedHoldersByTaskId.erase t } p
              { s.holders p with suspended := false }) c
          exact ⟨rfl, rfl, rfl, rfl, fun q u hq => h.held q u (hkill.held q u hq)⟩
      | false =>
        refine Ends.bind (P := (· = (_, false))) rfl ?_
        rintro _ rfl
        rw [if_neg Bool.false_ne_true]
        dsimp only
        split
        · exact trivial
        next i _ =>
        have hfail := Quiet.onFailingProcessor { s with
          suspendedHoldersByTaskId := s.suspendedHoldersByTaskId.erase t } i
        refine Ends.bind hfail ?_
        rintro ⟨s', task⟩ h
        have h' : Quiet s s' := ⟨h.queue, h.tasks, h.processing, h.sent, h.held⟩
        cases task with
        | none => exact (hdone h').release
        | some task => exact ⟨h.queue, h.tasks, h.processing, h.sent, h.held⟩
    · exact trivial
  · exact trivial

end Quiet

end Worker.Agent

end Scaler
