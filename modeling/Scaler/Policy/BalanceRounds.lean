import Mathlib.Algebra.BigOperators.Group.List.Basic
import Mathlib.Algebra.Order.AbsoluteValue.Basic
import Mathlib.Data.List.Flatten
import Scaler.Policy.BalanceMoves

/-! The rounds of `CapabilityAllocatePolicy.balance`. Every round drops a worker from the list or
takes a task from a worker above the target, so the loop ends. -/

namespace Scaler

open Collections

namespace CapabilityAllocatePolicy

section

variable {target : ℚ}

theorem isBalanced_iff {w : WorkerHolder} :
    isBalanced target w = true ↔ target - 1 < w.nTasks ∧ (w.nTasks : ℚ) < target + 1 := by
  rw [isBalanced, decide_eq_true_eq, abs_lt]
  constructor
  · rintro ⟨hlow, hhigh⟩
    exact ⟨by linarith, by linarith⟩
  · rintro ⟨hlow, hhigh⟩
    exact ⟨by linarith, by linarith⟩

theorem isHighLoad_iff {w : WorkerHolder} : isHighLoad target w = true ↔ target + 1 ≤ w.nTasks := by
  rw [isHighLoad, decide_eq_true_eq]
  constructor
  · intro h
    linarith
  · intro h
    linarith

/-- A worker of the list that is below the target is so by a whole task. -/
theorem le_of_unbalanced {w : WorkerHolder} (h : isBalanced target w = false) (hlt : (w.nTasks : ℚ) < target) :
    (w.nTasks : ℚ) ≤ target - 1 := by
  by_contra hgt
  have hbalanced : isBalanced target w = true := isBalanced_iff.mpr ⟨by linarith, by linarith⟩
  rw [h] at hbalanced
  cases hbalanced

theorem balanceTryReassignTask_none {task : TaskHolder} {workers : List WorkerHolder}
    (h : balanceTryReassignTask task workers = none) : ∀ w ∈ workers, ¬w.Accepts task := by
  intro w hw haccepts
  have hnone := List.findIdx?_eq_none_iff.mp h w hw
  rw [List.all_eq_false] at hnone
  obtain ⟨c, hc, hnot⟩ := hnone
  exact hnot (decide_eq_true (haccepts c hc))

theorem balanceTryReassignTask_some {task : TaskHolder} {workers : List WorkerHolder} {index : Nat}
    (h : balanceTryReassignTask task (workers.takeWhile fun w => (w.nTasks : ℚ) < target) = some index) :
    ∃ receiver, workers[index]? = some receiver ∧ (receiver.nTasks : ℚ) < target ∧ receiver.Accepts task ∧
      ∀ j w, j < index → workers[j]? = some w → ¬w.Accepts task := by
  obtain ⟨hlt, hall, hfirst⟩ := List.findIdx?_eq_some_iff_getElem.mp h
  have hlength := (List.takeWhile_prefix (fun w : WorkerHolder => (w.nTasks : ℚ) < target) (l := workers)).length_le
  have hindex := (List.takeWhile_prefix (fun w : WorkerHolder => (w.nTasks : ℚ) < target) (l := workers)).getElem hlt
  refine ⟨_, List.getElem?_eq_some_iff.mpr ⟨Nat.lt_of_lt_of_le hlt hlength, hindex.symm⟩, ?_, fun c hc => ?_, ?_⟩
  · have htrue := List.mem_takeWhile_imp (List.getElem_mem hlt)
    exact of_decide_eq_true htrue
  · exact of_decide_eq_true (List.all_eq_true.mp hall c hc)
  · intro j w hj hw haccepts
    have hj' := Nat.lt_trans hj hlt
    have hsame := (List.takeWhile_prefix (fun w : WorkerHolder => (w.nTasks : ℚ) < target) (l := workers)).getElem hj'
    obtain ⟨hjl, rfl⟩ := List.getElem?_eq_some_iff.mp hw
    refine hfirst j hj (List.all_eq_true.mpr fun c hc => decide_eq_true ?_)
    rw [hsame]
    exact haccepts c hc

/-- What is remembered of the tasks that nobody below the target accepts. -/
structure Refuses (target : ℚ) (workers : List WorkerHolder) (tasks : List TaskHolder) (before after : List TaskID) :
    Prop where
  kept : before ⊆ after
  refused : ∀ t ∈ after, t ∈ before ∨
    ∃ task ∈ tasks, task.1 = t ∧ ∀ w ∈ workers.takeWhile (fun w => (w.nTasks : ℚ) < target), ¬w.Accepts task

/-- What a search has found: nobody for any of the tasks, or a receiver for one of them. -/
def Found (target : ℚ) (workers : List WorkerHolder) (tasks : List TaskHolder) (found : Search) : Prop :=
  (found.movedTask = none ∧ found.sortedWorkers = workers ∧ ∀ task ∈ tasks, task.1 ∈ found.unbalanceableTasks) ∨
    ∃ task ∈ tasks, ∃ index receiver, workers[index]? = some receiver ∧ (receiver.nTasks : ℚ) < target ∧
      receiver.Accepts task ∧ (∀ j w, j < index → workers[j]? = some w → ¬w.Accepts task) ∧
      found.movedTask = some task ∧ found.receivingWorker = some receiver ∧ found.sortedWorkers = workers.eraseIdx index

variable (target) in
theorem search_spec (workers : List WorkerHolder) (tasks : List TaskHolder) (unbalanceable : List TaskID) :
    ∃ found, search target workers tasks unbalanceable = .ok found ∧
      Refuses target workers tasks unbalanceable found.unbalanceableTasks ∧ Found target workers tasks found := by
  induction tasks generalizing unbalanceable with
  | nil => exact ⟨_, rfl, ⟨List.Subset.refl _, fun t ht => .inl ht⟩, .inl ⟨rfl, rfl, nofun⟩⟩
  | cons task tasks ih =>
    have hlater : ∀ {found : Search}, task.1 ∈ found.unbalanceableTasks → Found target workers tasks found →
        Found target workers (task :: tasks) found := by
      intro found hfirst hfound
      obtain ⟨hnone, hsame, hall⟩ | ⟨task', htask', hrest⟩ := hfound
      · refine .inl ⟨hnone, hsame, fun task' htask' => ?_⟩
        obtain rfl | htask' := List.mem_cons.mp htask'
        · exact hfirst
        · exact hall task' htask'
      · exact .inr ⟨task', List.mem_cons_of_mem _ htask', hrest⟩
    rw [search]
    split
    · next hmem =>
      obtain ⟨found, heq, hrefuses, hfound⟩ := ih unbalanceable
      refine ⟨found, heq, ⟨hrefuses.kept, fun t ht => ?_⟩, hlater (hrefuses.kept hmem) hfound⟩
      obtain hold | ⟨task', htask', hrest⟩ := hrefuses.refused t ht
      · exact .inl hold
      · exact .inr ⟨task', List.mem_cons_of_mem _ htask', hrest⟩
    · split
      · next hnone =>
        obtain ⟨found, heq, hrefuses, hfound⟩ := ih (task.1 :: unbalanceable)
        obtain ⟨hfirst, hkept⟩ := List.cons_subset.mp hrefuses.kept
        refine ⟨found, heq, ⟨hkept, fun t ht => ?_⟩, hlater hfirst hfound⟩
        obtain hold | ⟨task', htask', hrest⟩ := hrefuses.refused t ht
        · obtain rfl | hold := List.mem_cons.mp hold
          · exact .inr ⟨task, List.mem_cons_self, rfl, balanceTryReassignTask_none hnone⟩
          · exact .inl hold
        · exact .inr ⟨task', List.mem_cons_of_mem _ htask', hrest⟩
      · next index hsome =>
        obtain ⟨receiver, hreceiver, hbelow, haccepts, hfirst⟩ := balanceTryReassignTask_some hsome
        rw [hreceiver]
        exact ⟨_, rfl, ⟨List.Subset.refl _, fun t ht => .inl ht⟩,
          .inr ⟨task, List.mem_cons_self, index, receiver, hreceiver, hbelow, haccepts, hfirst, rfl, rfl, rfl⟩⟩

variable (target) (lists : SortedKeyList WorkerHolder WorkerHolder.nTasks)

/-- All that a round can do: the loop ends, a worker whose tasks nobody accepts is dropped, or a
task is moved. -/
inductive Round (st : BalanceState) : BalanceState → Bool → Prop
  | stops {workers : List WorkerHolder} {most : WorkerHolder} (split : st.sortedWorkers = workers ++ [most])
    (low : isHighLoad target most = false) : Round st { st with sortedWorkers := workers } false
  | drops {workers : List WorkerHolder} {most : WorkerHolder} {unbalanceable : List TaskID}
    (split : st.sortedWorkers = workers ++ [most]) (high : isHighLoad target most = true)
    (refuses : Refuses target workers most.taskIdToTask.entries st.unbalanceableTasks unbalanceable)
    (all : ∀ task ∈ most.taskIdToTask.entries, task.1 ∈ unbalanceable) :
    Round st { st with sortedWorkers := workers, unbalanceableTasks := unbalanceable } true
  | moves {workers : List WorkerHolder} {most receiver : WorkerHolder} {unbalanceable : List TaskID}
    {task : TaskHolder} {index : Nat} (split : st.sortedWorkers = workers ++ [most])
    (high : isHighLoad target most = true)
    (refuses : Refuses target workers most.taskIdToTask.entries st.unbalanceableTasks unbalanceable)
    (held : most.taskIdToTask.get? task.1 = some task.2) (found : workers[index]? = some receiver)
    (below : (receiver.nTasks : ℚ) < target) (accepts : receiver.Accepts task)
    (first : ∀ j w, j < index → workers[j]? = some w → ¬w.Accepts task) :
    Round st
      (BalanceState.move target lists
        { st with sortedWorkers := workers.eraseIdx index, unbalanceableTasks := unbalanceable } most task receiver)
      true

variable {target lists}

variable (target lists) in
theorem balanceRound_spec {st : BalanceState} (h : st.sortedWorkers ≠ []) :
    ∃ st' goOn, balanceRound target lists st = .ok (st', goOn) ∧ Round target lists st st' goOn := by
  obtain ⟨workers, most, hsplit⟩ : ∃ workers most, st.sortedWorkers = workers ++ [most] :=
    ⟨_, _, (List.dropLast_append_getLast h).symm⟩
  rw [balanceRound, hsplit, List.getLast?_concat, List.dropLast_concat]
  dsimp only
  cases hhigh : isHighLoad target most with
  | false => exact ⟨_, _, rfl, .stops hsplit hhigh⟩
  | true =>
    obtain ⟨found, heq, ⟨hkept, hrefused⟩, hfound⟩ :=
      search_spec target workers most.taskIdToTask.entries.reverse st.unbalanceableTasks
    have hrefuses : Refuses target workers most.taskIdToTask.entries st.unbalanceableTasks found.unbalanceableTasks := by
      refine ⟨hkept, fun t ht => ?_⟩
      obtain hold | ⟨task, htask, hrest⟩ := hrefused t ht
      · exact .inl hold
      · exact .inr ⟨task, List.mem_reverse.mp htask, hrest⟩
    rw [heq]
    obtain ⟨hnone, hsame, hall⟩ | ⟨task, htask, index, receiver, hindex, hbelow, haccepts, hfirst, hmoved, hreceiver, hrest⟩ := hfound
    · refine ⟨{ st with sortedWorkers := workers, unbalanceableTasks := found.unbalanceableTasks }, true, ?_,
        .drops hsplit hhigh hrefuses fun task htask => hall task (List.mem_reverse.mpr htask)⟩
      simp [Bind.bind, Except.bind, hnone, hsame]
    · have hheld : most.taskIdToTask.get? task.1 = some task.2 :=
        (Dict.mem_entries _ _ _).mp (List.mem_reverse.mp htask)
      refine ⟨_, true, ?_, .moves hsplit hhigh hrefuses hheld hindex hbelow haccepts hfirst⟩
      simp [Bind.bind, Except.bind, hmoved, hreceiver, hrest, Dict.contains, hheld]

/-- What is left to do for a worker of the list. -/
def weight (target : ℚ) (w : WorkerHolder) : Nat := 1 + if isHighLoad target w then w.nTasks else 0

def remaining (target : ℚ) (workers : List WorkerHolder) : Nat := (workers.map (weight target)).sum

variable (target) in
theorem remaining_perm {ws vs : List WorkerHolder} (h : ws.Perm vs) : remaining target ws = remaining target vs :=
  (h.map _).sum_eq

theorem remaining_cons (w : WorkerHolder) (ws : List WorkerHolder) :
    remaining target (w :: ws) = weight target w + remaining target ws := by
  rw [remaining, List.map_cons, List.sum_cons]
  rfl

variable (target lists) in
theorem remaining_reinsert_le (w : WorkerHolder) (ws : List WorkerHolder) :
    remaining target (reinsert target lists w ws) ≤ weight target w + remaining target ws := by
  rw [reinsert]
  split
  · exact Nat.le_add_left _ _
  · rw [remaining_perm target (lists.perm_add w ws), remaining_cons]

theorem remaining_append (ws : List WorkerHolder) (w : WorkerHolder) :
    remaining target (ws ++ [w]) = remaining target ws + weight target w := by
  rw [remaining, List.map_append, List.sum_append]
  rfl

/-- A task less on a worker above the target. -/
theorem weight_dropTask {w : WorkerHolder} (hhigh : isHighLoad target w = true) {t : TaskID} {cs : List String}
    (h : w.taskIdToTask.get? t = some cs) : weight target (w.dropTask t) < weight target w := by
  have hone := WorkerHolder.nTasks_dropTask h
  rw [weight, weight, if_pos hhigh]
  split
  · omega
  · omega

theorem weight_addTask {w : WorkerHolder} (hbelow : (w.nTasks : ℚ) < target) (task : TaskHolder) :
    weight target (w.addTask task) = 1 := by
  have hle : ((w.addTask task).nTasks : ℚ) ≤ w.nTasks + 1 := by
    exact_mod_cast WorkerHolder.nTasks_addTask_le task
  have hlow : ¬isHighLoad target (w.addTask task) = true := by
    intro hhigh
    have hge := isHighLoad_iff.mp hhigh
    linarith
  rw [weight, if_neg hlow]

theorem perm_eraseIdx {workers : List WorkerHolder} {index : Nat} {w : WorkerHolder} (h : workers[index]? = some w) :
    workers.Perm (w :: workers.eraseIdx index) := by
  obtain ⟨hlt, rfl⟩ := List.getElem?_eq_some_iff.mp h
  exact (List.getElem_cons_eraseIdx_perm hlt).symm

theorem Round.remaining_lt {st st' : BalanceState} (h : Round target lists st st' true) :
    remaining target st'.sortedWorkers < remaining target st.sortedWorkers := by
  cases h with
  | drops hsplit _ _ _ =>
    rw [hsplit, remaining_append, weight]
    dsimp only
    omega
  | @moves workers most receiver _ task index hsplit hhigh _ hheld hfound hbelow _ _ =>
    have hdonor := weight_dropTask hhigh hheld
    have hreceiver := weight_addTask hbelow task
    have hfirst := remaining_reinsert_le target lists (most.dropTask task.1) (workers.eraseIdx index)
    have hsecond := remaining_reinsert_le target lists (receiver.addTask task)
      (reinsert target lists (most.dropTask task.1) (workers.eraseIdx index))
    have hperm := remaining_perm target (perm_eraseIdx hfound)
    rw [remaining_cons] at hperm
    have hone : 1 ≤ weight target receiver := Nat.le_add_right 1 _
    rw [hsplit, remaining_append, BalanceState.move]
    dsimp only
    omega

/-- The loop ends in this state: too few workers are left, or none above the target. -/
def Halts (target : ℚ) (st : BalanceState) : Prop :=
  st.sortedWorkers.length < 2 ∨
    ∃ workers most, st.sortedWorkers = workers ++ [most] ∧ isHighLoad target most = false

/-- What every round keeps holds in the state in which the loop ends; nothing is moved or advised
after it. -/
theorem balanceLoop_run {I : BalanceState → Prop}
    (hkeeps : ∀ st st', I st → Round target lists st st' true → I st') {st : BalanceState} (h : I st) :
    ∃ last final, I last ∧ Halts target last ∧ final.moves = last.moves ∧
      final.balancingAdvice = last.balancingAdvice ∧
      ∀ n, remaining target st.sortedWorkers < n → balanceLoop target lists n st = some (.ok final) := by
  induction hn : remaining target st.sortedWorkers using Nat.strongRecOn generalizing st with
  | ind k ih =>
    subst hn
    by_cases hfew : st.sortedWorkers.length < 2
    · refine ⟨st, st, h, .inl hfew, rfl, rfl, fun n hn => ?_⟩
      obtain ⟨n, rfl⟩ := Nat.exists_eq_succ_of_ne_zero (Nat.ne_zero_of_lt hn)
      rw [balanceLoop, if_pos hfew]
    · have hne : st.sortedWorkers ≠ [] := by
        intro hnil
        rw [hnil] at hfew
        exact hfew Nat.zero_lt_two
      obtain ⟨st', goOn, hround, hstep⟩ := balanceRound_spec target lists hne
      cases goOn with
      | true =>
        obtain ⟨last, final, hlast, hhalts, hmoves, hadvice, hrun⟩ := ih _ hstep.remaining_lt (hkeeps st st' h hstep) rfl
        refine ⟨last, final, hlast, hhalts, hmoves, hadvice, fun n hn => ?_⟩
        obtain ⟨n, rfl⟩ := Nat.exists_eq_succ_of_ne_zero (Nat.ne_zero_of_lt hn)
        rw [balanceLoop, if_neg hfew, hround]
        exact hrun n (Nat.lt_of_lt_of_le hstep.remaining_lt (Nat.lt_succ_iff.mp hn))
      | false =>
        cases hstep with
        | @stops workers most hsplit hlow =>
          refine ⟨st, { st with sortedWorkers := workers }, h, .inr ⟨workers, most, hsplit, hlow⟩, rfl, rfl, fun n hn => ?_⟩
          obtain ⟨n, rfl⟩ := Nat.exists_eq_succ_of_ne_zero (Nat.ne_zero_of_lt hn)
          rw [balanceLoop, if_neg hfew, hround]

end

end CapabilityAllocatePolicy

end Scaler
