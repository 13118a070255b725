import Scaler.Policy.BalanceRounds

/-! The advice of `CapabilityAllocatePolicy.balance` is sound and leaves no move undone that it
could have made. -/

namespace Scaler

open Collections

namespace CapabilityAllocatePolicy

/-- The list holds copies of workers as the moves have left them, and all of those that are below
the target by a whole task. -/
structure Listed (p : CapabilityAllocatePolicy) (target : ℚ) (st : BalanceState) : Prop where
  keyed : p.Keyed
  sorted : SortedBy WorkerHolder.nTasks st.sortedWorkers
  distinct : (st.sortedWorkers.map WorkerHolder.workerId).Nodup
  present : ∀ w ∈ st.sortedWorkers, (p.afterMoves st.moves).get? w.workerId = some w
  unbalanced : ∀ w ∈ st.sortedWorkers, isBalanced target w = false
  low : ∀ v x, (p.afterMoves st.moves).get? v = some x → (x.nTasks : ℚ) ≤ target - 1 → x ∈ st.sortedWorkers
  advised : ∀ w, (st.balancingAdvice.get? w).getD [] =
    (st.moves.filter fun m => m.donor = w).map fun m => m.task.1
  moved : p.Moved target st.moves

theorem Keyed.mem_workers {p : CapabilityAllocatePolicy} (h : p.Keyed) {w : WorkerHolder} :
    w ∈ p.workers ↔ p.workerIdToWorker.get? w.workerId = some w := by
  rw [workers, List.mem_map]
  constructor
  · rintro ⟨⟨v, x⟩, hmem, rfl⟩
    have hget := (Dict.mem_entries _ _ _).mp hmem
    rw [h v x hget]
    exact hget
  · intro hget
    exact ⟨(w.workerId, w), (Dict.mem_entries _ _ _).mpr hget, rfl⟩

theorem Keyed.nodup_workers {p : CapabilityAllocatePolicy} (h : p.Keyed) : (p.workers.map WorkerHolder.workerId).Nodup := by
  have heq : p.workers.map WorkerHolder.workerId = p.workerIdToWorker.keys := by
    rw [workers, List.map_map, Dict.keys]
    refine List.map_congr_left fun e he => ?_
    exact h e.1 e.2 ((Dict.mem_entries _ _ _).mp he)
  rw [heq]
  exact p.workerIdToWorker.nodup

theorem listed_start (lists : SortedKeyList WorkerHolder WorkerHolder.nTasks) {p : CapabilityAllocatePolicy} (h : p.Keyed) :
    p.Listed p.balanceTarget (p.balanceStart lists) := by
  have hmem : ∀ {w}, w ∈ (p.balanceStart lists).sortedWorkers ↔ w ∈ p.workers ∧ isBalanced p.balanceTarget w = false := by
    intro w
    rw [balanceStart, (lists.perm_ofList _).mem_iff, List.mem_filter, Bool.not_eq_true']
  refine ⟨h, lists.sorted_ofList _, ?_, ?_, fun w hw => (hmem.mp hw).2, ?_, fun w => rfl, moved_nil p _⟩
  · rw [balanceStart, ((lists.perm_ofList _).map _).nodup_iff]
    exact h.nodup_workers.sublist (List.filter_sublist.map _)
  · exact fun w hw => h.mem_workers.mp (hmem.mp hw).1
  · intro v x hx hlow
    have hget : p.workerIdToWorker.get? v = some x := hx
    refine hmem.mpr ⟨h.mem_workers.mpr (h v x hget ▸ hget), Bool.eq_false_iff.mpr fun hbalanced => ?_⟩
    have hlt := (isBalanced_iff.mp hbalanced).1
    linarith

section

variable {p : CapabilityAllocatePolicy} {target : ℚ} {lists : SortedKeyList WorkerHolder WorkerHolder.nTasks}
  {st st' : BalanceState}

theorem mem_reinsert {w v : WorkerHolder} {ws : List WorkerHolder} :
    v ∈ reinsert target lists w ws ↔ v ∈ ws ∨ v = w ∧ isBalanced target w = false := by
  rw [reinsert]
  split
  · next hbalanced => simp [hbalanced]
  · next hnot =>
    rw [(lists.perm_add w ws).mem_iff, List.mem_cons, Bool.eq_false_iff.mpr hnot]
    tauto

theorem sortedBy_reinsert {ws : List WorkerHolder} (h : SortedBy WorkerHolder.nTasks ws) (w : WorkerHolder) :
    SortedBy WorkerHolder.nTasks (reinsert target lists w ws) := by
  rw [reinsert]
  split
  · exact h
  · exact lists.sorted_add w ws h

theorem nodup_reinsert {w : WorkerHolder} {ws : List WorkerHolder} (h : (ws.map WorkerHolder.workerId).Nodup)
    (hnew : w.workerId ∉ ws.map WorkerHolder.workerId) :
    ((reinsert target lists w ws).map WorkerHolder.workerId).Nodup := by
  rw [reinsert]
  split
  · exact h
  · rw [((lists.perm_add w ws).map _).nodup_iff, List.map_cons, List.nodup_cons]
    exact ⟨hnew, h⟩

/-- The worker that gives and the worker that gets are the last of the list and one before it. -/
theorem Listed.movable (h : p.Listed target st) {workers : List WorkerHolder} {most receiver : WorkerHolder}
    {task : TaskHolder} {index : Nat} (hsplit : st.sortedWorkers = workers ++ [most])
    (hhigh : isHighLoad target most = true) (hheld : most.taskIdToTask.get? task.1 = some task.2)
    (hfound : workers[index]? = some receiver) (hbelow : (receiver.nTasks : ℚ) < target)
    (haccepts : receiver.Accepts task) : p.Movable target st.moves most task receiver := by
  have hmost : most ∈ st.sortedWorkers := hsplit ▸ List.mem_append_right _ List.mem_cons_self
  have hreceiver : receiver ∈ st.sortedWorkers :=
    hsplit ▸ List.mem_append_left _ (List.mem_of_getElem? hfound)
  exact ⟨h.present most hmost, h.present receiver hreceiver, isHighLoad_iff.mp hhigh,
    le_of_unbalanced (h.unbalanced receiver hreceiver) hbelow, hheld, haccepts⟩

/-- The others are the workers of the list but the two that take part. -/
theorem mem_eraseIdx_iff {workers : List WorkerHolder} {most receiver : WorkerHolder} {index : Nat}
    (hdistinct : ((workers ++ [most]).map WorkerHolder.workerId).Nodup) (hfound : workers[index]? = some receiver)
    {w : WorkerHolder} :
    w ∈ workers.eraseIdx index ↔
      w ∈ workers ++ [most] ∧ w.workerId ≠ receiver.workerId ∧ w.workerId ≠ most.workerId := by
  have hperm : (workers ++ [most]).Perm (receiver :: most :: workers.eraseIdx index) := by
    refine ((perm_eraseIdx hfound).append_right [most]).trans ((List.Perm.cons receiver ?_))
    exact List.perm_append_singleton _ _
  rw [(hperm.map _).nodup_iff, List.map_cons, List.map_cons, List.nodup_cons, List.nodup_cons, List.mem_cons,
    not_or] at hdistinct
  obtain ⟨⟨-, hreceiver⟩, hmost, -⟩ := hdistinct
  rw [hperm.mem_iff, List.mem_cons, List.mem_cons]
  constructor
  · intro hw
    exact ⟨.inr (.inr hw), fun heq => hreceiver (heq ▸ List.mem_map_of_mem hw),
      fun heq => hmost (heq ▸ List.mem_map_of_mem hw)⟩
  · rintro ⟨rfl | rfl | hw, hne, hne'⟩
    · exact absurd rfl hne
    · exact absurd rfl hne'
    · exact hw

theorem Listed.drops (h : p.Listed target st) {workers : List WorkerHolder} {most : WorkerHolder}
    (hsplit : st.sortedWorkers = workers ++ [most]) (hhigh : isHighLoad target most = true) (unbalanceable : List TaskID) :
    p.Listed target { st with sortedWorkers := workers, unbalanceableTasks := unbalanceable } := by
  have hsub : ∀ w ∈ workers, w ∈ st.sortedWorkers := fun w hw => hsplit ▸ List.mem_append_left _ hw
  have hsorted := h.sorted
  have hdistinct := h.distinct
  rw [hsplit] at hsorted hdistinct
  refine { h with
    sorted := (List.pairwise_append.mp hsorted).1
    distinct := ?_
    present := fun w hw => h.present w (hsub w hw)
    unbalanced := fun w hw => h.unbalanced w (hsub w hw)
    low := fun v x hx hlow => ?_ }
  · rw [List.map_append, List.nodup_append] at hdistinct
    exact hdistinct.1
  · have hmem := h.low v x hx hlow
    rw [hsplit] at hmem
    obtain hmem | hlast := List.mem_append.mp hmem
    · exact hmem
    · obtain rfl := List.mem_singleton.mp hlast
      have hge := isHighLoad_iff.mp hhigh
      linarith

theorem Listed.moves (h : p.Listed target st) {workers : List WorkerHolder} {most receiver : WorkerHolder}
    {task : TaskHolder} {index : Nat} (hsplit : st.sortedWorkers = workers ++ [most])
    (hfound : workers[index]? = some receiver) (hm : p.Movable target st.moves most task receiver)
    (unbalanceable : List TaskID) :
    p.Listed target
      (BalanceState.move target lists
        { st with sortedWorkers := workers.eraseIdx index, unbalanceableTasks := unbalanceable } most task receiver) := by
  have hsorted := h.sorted
  have hdistinct := h.distinct
  rw [hsplit] at hsorted hdistinct
  have hothers := fun {w : WorkerHolder} => mem_eraseIdx_iff hdistinct hfound (w := w)
  have hsublist : (workers.eraseIdx index).Sublist (workers ++ [most]) :=
    (List.eraseIdx_sublist _ _).trans (List.sublist_append_left _ _)
  have hmem : ∀ {w : WorkerHolder}, w ∈ (BalanceState.move target lists
      { st with sortedWorkers := workers.eraseIdx index, unbalanceableTasks := unbalanceable } most task receiver).sortedWorkers ↔
      (w ∈ workers.eraseIdx index ∨ w = most.dropTask task.1 ∧ isBalanced target (most.dropTask task.1) = false) ∨
        w = receiver.addTask task ∧ isBalanced target (receiver.addTask task) = false := by
    intro w
    rw [BalanceState.move, mem_reinsert, mem_reinsert]
  refine ⟨h.keyed, ?_, ?_, ?_, ?_, ?_, ?_, hm.moved h.moved⟩
  · exact sortedBy_reinsert (sortedBy_reinsert (hsorted.sublist hsublist) _) _
  · refine nodup_reinsert (nodup_reinsert (hdistinct.sublist (hsublist.map _)) ?_) ?_
    · rintro hin
      obtain ⟨w, hw, heq⟩ := List.mem_map.mp hin
      exact (hothers.mp hw).2.2 heq
    · rintro hin
      obtain ⟨w, hw, heq⟩ := List.mem_map.mp hin
      obtain hw | ⟨rfl, -⟩ := mem_reinsert.mp hw
      · exact (hothers.mp hw).2.1 heq
      · exact hm.ne heq.symm
  · intro w hw
    obtain (hw | ⟨rfl, -⟩) | ⟨rfl, -⟩ := hmem.mp hw
    · obtain ⟨hin, hne, hne'⟩ := hothers.mp hw
      rw [BalanceState.move, hm.get?_after, if_neg hne, if_neg hne']
      exact h.present w (hsplit ▸ hin)
    · exact hm.get?_donor
    · exact hm.get?_receiver
  · intro w hw
    obtain (hw | ⟨rfl, hnot⟩) | ⟨rfl, hnot⟩ := hmem.mp hw
    · exact h.unbalanced w (hsplit ▸ (hothers.mp hw).1)
    · exact hnot
    · exact hnot
  · intro v x hx hlow
    have hnot : isBalanced target x = false := by
      refine Bool.eq_false_iff.mpr fun hbalanced => ?_
      have hlt := (isBalanced_iff.mp hbalanced).1
      linarith
    rw [BalanceState.move, hm.get?_after] at hx
    refine hmem.mpr ?_
    split at hx
    · cases hx
      exact .inr ⟨rfl, hnot⟩
    · next hne =>
      split at hx
      · cases hx
        exact .inl (.inr ⟨rfl, hnot⟩)
      · next hne' =>
        have hin := h.low v x hx hlow
        have hv : x.workerId = v := by
          obtain ⟨y, hy, hsame⟩ := h.moved.same v x hx
          exact hsame.workerId.trans (h.keyed v y hy)
        exact .inl (.inl (hothers.mpr ⟨hsplit ▸ hin, hv ▸ hne, hv ▸ hne'⟩))
  · intro w
    rw [BalanceState.move]
    dsimp only
    rw [List.filter_append, List.map_append, ← h.advised w, Dict.get?_set]
    by_cases heq : w = most.workerId
    · subst heq
      simp
    · simp [heq, Ne.symm heq]

theorem Listed.round (h : p.Listed target st) (hround : Round target lists st st' true) : p.Listed target st' := by
  cases hround with
  | drops hsplit hhigh _ _ => exact h.drops hsplit hhigh _
  | moves hsplit hhigh _ hheld hfound hbelow haccepts _ =>
    exact h.moves hsplit hfound (h.movable hsplit hhigh hheld hfound hbelow haccepts) _

end

/-- What is promised of the advice and of the moves behind it: a task is advised for a worker when
it is moved away from there, the worker holds it, its receiver is another worker that offers what
the task asks for, and the loads stay on their side of the target. -/
structure SoundAdvice (p : CapabilityAllocatePolicy) (advice : Dict WorkerID (List TaskID)) (moves : List BalanceMove) :
    Prop where
  advised : ∀ w, (advice.get? w).getD [] = (moves.filter fun m => m.donor = w).map fun m => m.task.1
  held : ∀ m ∈ moves, ∃ h, p.workerIdToWorker.get? m.donor = some h ∧ h.taskIdToTask.get? m.task.1 = some m.task.2
  accepted : ∀ m ∈ moves, m.receiver ≠ m.donor ∧
    ∃ h, p.workerIdToWorker.get? m.receiver = some h ∧ h.Accepts m.task
  once : (moves.map fun m => (m.donor, m.task.1)).Nodup
  loads : ∀ before m, before ++ [m] <+: moves →
    p.balanceTarget ≤ p.loadAfter (before ++ [m]) m.donor ∧
      (p.loadAfter (before ++ [m]) m.receiver : ℚ) < p.balanceTarget + 1
  final : ∀ m ∈ moves, ∀ m' ∈ moves, m.receiver ≠ m'.donor

theorem Listed.soundAdvice {p : CapabilityAllocatePolicy} {st : BalanceState} (h : p.Listed p.balanceTarget st) :
    p.SoundAdvice st.balancingAdvice st.moves where
  advised := h.advised
  held := h.moved.held
  accepted := fun m hm => ⟨h.moved.apart m hm m hm, h.moved.accepted m hm⟩
  once := h.moved.once
  loads := h.moved.loads
  final := h.moved.apart

/-- No task is in the queues of two workers. -/
def Placed (p : CapabilityAllocatePolicy) : Prop :=
  ∀ v w x y t, p.workerIdToWorker.get? v = some x → p.workerIdToWorker.get? w = some y →
    x.taskIdToTask.contains t = true → y.taskIdToTask.contains t = true → v = w

theorem Wf.placed {p : CapabilityAllocatePolicy} (h : p.Wf) : p.Placed := by
  intro v w x y t hx hy htx hty
  have hv := (h.held t v).mpr ⟨x, hx, htx⟩
  have hw := (h.held t w).mpr ⟨y, hy, hty⟩
  rw [hv] at hw
  exact Option.some.inj hw

/-- Where every task has one place, no task is moved or advised twice. -/
theorem SoundAdvice.nodup {p : CapabilityAllocatePolicy} {advice : Dict WorkerID (List TaskID)} {moves : List BalanceMove}
    (h : p.SoundAdvice advice moves) (hplaced : p.Placed) :
    (moves.map fun m => m.task.1).Nodup ∧ (advice.entries.flatMap Prod.snd).Nodup := by
  have hdonor : ∀ m ∈ moves, ∀ m' ∈ moves, m.task.1 = m'.task.1 → m.donor = m'.donor := by
    intro m hm m' hm' heq
    obtain ⟨x, hx, htx⟩ := h.held m hm
    obtain ⟨y, hy, hty⟩ := h.held m' hm'
    refine hplaced _ _ x y m.task.1 hx hy ?_ ?_
    · rw [Dict.contains, htx]
      rfl
    · rw [Dict.contains, heq, hty]
      rfl
  have hmoves : (moves.map fun m => m.task.1).Nodup := by
    have hnodup := List.Nodup.of_map _ h.once
    refine hnodup.map_on fun m hm m' hm' heq => ?_
    exact List.inj_on_of_nodup_map h.once hm hm' (Prod.ext (hdonor m hm m' hm' heq) heq)
  have hlist : ∀ {w ts}, (w, ts) ∈ advice.entries → ts = (moves.filter fun m => m.donor = w).map fun m => m.task.1 := by
    intro w ts hmem
    have hadvised := h.advised w
    rw [(Dict.mem_entries _ _ _).mp hmem, Option.getD_some] at hadvised
    exact hadvised
  refine ⟨hmoves, List.nodup_flatMap.mpr ⟨?_, ?_⟩⟩
  · rintro ⟨w, ts⟩ hmem
    rw [hlist hmem]
    exact hmoves.sublist (List.filter_sublist.map _)
  · have hkeys : advice.entries.Pairwise fun a b => a.1 ≠ b.1 := List.pairwise_map.mp advice.nodup
    refine hkeys.imp_of_mem ?_
    rintro ⟨v, ts⟩ ⟨w, us⟩ hv hw hne t ht hu
    dsimp only at ht hu
    rw [hlist hv] at ht
    rw [hlist hw] at hu
    obtain ⟨m, hm, heq⟩ := List.mem_map.mp ht
    obtain ⟨m', hm', heq'⟩ := List.mem_map.mp hu
    obtain ⟨hm, hdm⟩ := List.mem_filter.mp hm
    obtain ⟨hm', hdm'⟩ := List.mem_filter.mp hm'
    have hsame := hdonor m hm m' hm' (heq.trans heq'.symm)
    exact hne ((of_decide_eq_true hdm).symm.trans (hsame.trans (of_decide_eq_true hdm')))

/-- The state in which `balance` returns, reached with `n` rounds or more. -/
structure Returns (p : CapabilityAllocatePolicy) (lists : SortedKeyList WorkerHolder WorkerHolder.nTasks) (n : Nat)
    (final : BalanceState) : Prop where
  run : ∀ k, n ≤ k → p.balanceRun lists k = some (.ok final)
  value : ∀ k, n ≤ k → p.balance lists k = some (.ok final.balancingAdvice, p)

theorem returns_of_run {p : CapabilityAllocatePolicy} {lists : SortedKeyList WorkerHolder WorkerHolder.nTasks} {n : Nat}
    {final : BalanceState} (h : ∀ k, n ≤ k → p.balanceRun lists k = some (.ok final)) : p.Returns lists n final := by
  refine ⟨h, fun k hk => ?_⟩
  rw [balance, h k hk]
  rfl

/-- What every round keeps, from the first one on, holds when `balance` returns. -/
theorem returns_of_rounds (lists : SortedKeyList WorkerHolder WorkerHolder.nTasks) {p : CapabilityAllocatePolicy}
    (hidle : p.hasIdleWorkers = true) {I : BalanceState → Prop}
    (hkeeps : ∀ st st', I st → Round p.balanceTarget lists st st' true → I st') (h : I (p.balanceStart lists)) :
    ∃ n final last, p.Returns lists n final ∧ I last ∧ Halts p.balanceTarget last ∧ final.moves = last.moves ∧
      final.balancingAdvice = last.balancingAdvice := by
  obtain ⟨last, final, hlast, hhalts, hmoves, hadvice, hrun⟩ := balanceLoop_run hkeeps h
  refine ⟨remaining p.balanceTarget (p.balanceStart lists).sortedWorkers + 1, final, last,
    returns_of_run fun k hk => ?_, hlast, hhalts, hmoves, hadvice⟩
  rw [balanceRun, if_pos hidle]
  exact hrun k hk

/-- `balance` returns, changes nothing and gives sound advice. -/
theorem balance_sound (lists : SortedKeyList WorkerHolder WorkerHolder.nTasks) {p : CapabilityAllocatePolicy} (h : p.Keyed) :
    ∃ n final, p.Returns lists n final ∧ p.SoundAdvice final.balancingAdvice final.moves ∧
      (p.Placed → (final.moves.map fun m => m.task.1).Nodup ∧
        (final.balancingAdvice.entries.flatMap Prod.snd).Nodup) := by
  by_cases hidle : p.hasIdleWorkers = true
  · obtain ⟨n, final, last, hreturns, hlisted, -, hmoves, hadvice⟩ :=
      returns_of_rounds lists hidle (fun st st' => Listed.round) (listed_start lists h)
    refine ⟨n, final, hreturns, ?_⟩
    rw [hmoves, hadvice]
    exact ⟨hlisted.soundAdvice, hlisted.soundAdvice.nodup⟩
  · refine ⟨0, ⟨[], Dict.empty, [], []⟩, returns_of_run fun k _ => ?_, ?_, fun _ => ⟨List.nodup_nil, List.nodup_nil⟩⟩
    · rw [balanceRun, if_neg hidle]
    · exact ⟨fun w => rfl, by simp, by simp, List.nodup_nil, by simp, by simp⟩

/-- A worker that got `n` tasks while it was alone, and an idle one with a queue of this size. -/
def hoarding (n queueSize : Nat) : CapabilityAllocatePolicy :=
  let alone := (empty.addWorker ⟨1⟩ [] n).2
  let busy := (List.range n).foldl (fun p t => (p.assignTask ⟨⟨t⟩, ⟨0⟩, [], ⟨0⟩, [], []⟩).2) alone
  (busy.addWorker ⟨2⟩ [] queueSize).2

theorem keyed_hoarding (n queueSize : Nat) : (hoarding n queueSize).Keyed := by
  have hempty : empty.Keyed := by
    intro w h hget
    cases hget
  refine addWorker_keyed ?_ _ _ _
  exact List.foldlRecOn (List.range n) _ (addWorker_keyed hempty _ _ _) fun p hp t _ => assignTask_keyed hp _

theorem balance_sound_hoarding : (hoarding 4 4).Keyed ∧
    ∃ n final, (hoarding 4 4).Returns (.stable _) n final ∧
      (hoarding 4 4).SoundAdvice final.balancingAdvice final.moves := by
  obtain ⟨n, final, hreturns, hsound, -⟩ := balance_sound (.stable _) (keyed_hoarding 4 4)
  exact ⟨keyed_hoarding 4 4, n, final, hreturns, hsound⟩

section

variable {p : CapabilityAllocatePolicy} {target : ℚ} {lists : SortedKeyList WorkerHolder WorkerHolder.nTasks}
  {st st' : BalanceState}

/-- A task asks for the same capabilities wherever it is held. -/
def Consistent (p : CapabilityAllocatePolicy) : Prop :=
  ∀ v w x y t cs cs', p.workerIdToWorker.get? v = some x → p.workerIdToWorker.get? w = some y →
    x.taskIdToTask.get? t = some cs → y.taskIdToTask.get? t = some cs' → cs = cs'

theorem Placed.consistent (h : p.Placed) : p.Consistent := by
  intro v w x y t cs cs' hx hy hcs hcs'
  have hcontains : ∀ {z : WorkerHolder} {ds : List String}, z.taskIdToTask.get? t = some ds →
      z.taskIdToTask.contains t = true := by
    intro z ds hds
    rw [Dict.contains, hds]
    rfl
  obtain rfl := h v w x y t hx hy (hcontains hcs) (hcontains hcs')
  rw [hx] at hy
  cases hy
  rw [hcs] at hcs'
  exact Option.some.inj hcs'

/-- A task that is remembered is refused by everybody below the target, and a worker above the
target that has left the list has only such tasks. -/
structure Pruned (p : CapabilityAllocatePolicy) (target : ℚ) (st : BalanceState) : Prop where
  consistent : ∀ v w x y t cs cs', (p.afterMoves st.moves).get? v = some x → (p.afterMoves st.moves).get? w = some y →
    x.taskIdToTask.get? t = some cs → y.taskIdToTask.get? t = some cs' → cs = cs'
  refused : ∀ v x t cs, (p.afterMoves st.moves).get? v = some x → target + 1 ≤ x.nTasks →
    x.taskIdToTask.get? t = some cs → t ∈ st.unbalanceableTasks →
    ∀ w ∈ st.sortedWorkers, (w.nTasks : ℚ) < target → ¬w.Accepts (t, cs)
  dropped : ∀ v x, (p.afterMoves st.moves).get? v = some x → target + 1 ≤ x.nTasks →
    x ∈ st.sortedWorkers ∨ ∀ t cs, x.taskIdToTask.get? t = some cs → t ∈ st.unbalanceableTasks

theorem pruned_start (lists : SortedKeyList WorkerHolder WorkerHolder.nTasks) (h : p.Keyed) (hconsistent : p.Consistent) :
    p.Pruned p.balanceTarget (p.balanceStart lists) where
  consistent := hconsistent
  refused := fun v x t cs _ _ _ ht => by cases ht
  dropped := by
    intro v x hx hhigh
    have hget : p.workerIdToWorker.get? v = some x := hx
    refine .inl ((lists.perm_ofList _).mem_iff.mpr (List.mem_filter.mpr ⟨?_, ?_⟩))
    · exact h.mem_workers.mpr (h v x hget ▸ hget)
    · rw [Bool.not_eq_true']
      refine Bool.eq_false_iff.mpr fun hbalanced => ?_
      have hlt := (isBalanced_iff.mp hbalanced).2
      linarith

/-- Refused by those at the front of the list, a task is refused by all below the target. -/
theorem refused_of_takeWhile {workers : List WorkerHolder} (hsorted : SortedBy WorkerHolder.nTasks workers)
    {task : TaskHolder} (h : ∀ w ∈ workers.takeWhile (fun w => (w.nTasks : ℚ) < target), ¬w.Accepts task)
    {w : WorkerHolder} (hw : w ∈ workers) (hbelow : (w.nTasks : ℚ) < target) : ¬w.Accepts task := by
  refine h w ((hsorted.mem_takeWhile fun a b hab hb => ?_).mpr ⟨hw, decide_eq_true hbelow⟩)
  have hcast : (a.nTasks : ℚ) ≤ b.nTasks := by exact_mod_cast hab
  exact decide_eq_true (lt_of_le_of_lt hcast (of_decide_eq_true hb))

/-- What the most loaded worker could not get rid of is refused by everybody below the target. -/
theorem Pruned.refuses (h : p.Pruned target st) (hlisted : p.Listed target st) {workers : List WorkerHolder}
    {most : WorkerHolder} (hsplit : st.sortedWorkers = workers ++ [most]) {unbalanceable : List TaskID}
    (hrefuses : Refuses target workers most.taskIdToTask.entries st.unbalanceableTasks unbalanceable) {v : WorkerID}
    {x : WorkerHolder} {t : TaskID} {cs : List String} (hx : (p.afterMoves st.moves).get? v = some x)
    (hhigh : target + 1 ≤ x.nTasks) (ht : x.taskIdToTask.get? t = some cs) (hmem : t ∈ unbalanceable)
    {w : WorkerHolder} (hw : w ∈ workers) (hbelow : (w.nTasks : ℚ) < target) : ¬w.Accepts (t, cs) := by
  obtain hold | ⟨⟨t', cs'⟩, htask, rfl, hrefused⟩ := hrefuses.refused t hmem
  · exact h.refused v x t cs hx hhigh ht hold w (hsplit ▸ List.mem_append_left _ hw) hbelow
  · have hmost := hlisted.present most (hsplit ▸ List.mem_append_right _ List.mem_cons_self)
    have hheld : most.taskIdToTask.get? t' = some cs' := (Dict.mem_entries _ _ _).mp htask
    obtain rfl := h.consistent v _ x most t' cs cs' hx hmost ht hheld
    have hsorted := hlisted.sorted
    rw [hsplit] at hsorted
    exact refused_of_takeWhile (List.pairwise_append.mp hsorted).1 hrefused hw hbelow

theorem Pruned.drops (h : p.Pruned target st) (hlisted : p.Listed target st) {workers : List WorkerHolder}
    {most : WorkerHolder} (hsplit : st.sortedWorkers = workers ++ [most]) {unbalanceable : List TaskID}
    (hrefuses : Refuses target workers most.taskIdToTask.entries st.unbalanceableTasks unbalanceable)
    (hall : ∀ task ∈ most.taskIdToTask.entries, task.1 ∈ unbalanceable) :
    p.Pruned target { st with sortedWorkers := workers, unbalanceableTasks := unbalanceable } where
  consistent := h.consistent
  refused := fun v x t cs hx hhigh ht hmem w hw hbelow => h.refuses hlisted hsplit hrefuses hx hhigh ht hmem hw hbelow
  dropped := by
    intro v x hx hhigh
    obtain hin | hgone := h.dropped v x hx hhigh
    · rw [hsplit] at hin
      obtain hin | hlast := List.mem_append.mp hin
      · exact .inl hin
      · obtain rfl := List.mem_singleton.mp hlast
        exact .inr fun t cs ht => hall (t, cs) ((Dict.mem_entries _ _ _).mpr ht)
    · exact .inr fun t cs ht => hrefuses.kept (hgone t cs ht)

/-- What a worker holds after a move somebody held before it. -/
theorem Movable.held_before {moves : List BalanceMove} {donor receiver : WorkerHolder} {task : TaskHolder}
    (h : p.Movable target moves donor task receiver) {v : WorkerID} {x : WorkerHolder} {t : TaskID} {cs : List String}
    (hx : (p.afterMoves (moves ++ [⟨donor.workerId, task, receiver.workerId⟩])).get? v = some x)
    (ht : x.taskIdToTask.get? t = some cs) :
    ∃ w y, (p.afterMoves moves).get? w = some y ∧ y.taskIdToTask.get? t = some cs := by
  rw [h.get?_after] at hx
  split at hx
  · cases hx
    obtain ⟨rfl, rfl⟩ | ht := Dict.get?_set_cases ht
    · exact ⟨_, donor, h.giver, h.held⟩
    · exact ⟨_, receiver, h.taker, ht⟩
  · split at hx
    · cases hx
      rw [WorkerHolder.dropTask, Dict.get?_erase] at ht
      split at ht
      · cases ht
      · exact ⟨_, donor, h.giver, ht⟩
    · exact ⟨v, x, hx, ht⟩

theorem Pruned.moves (h : p.Pruned target st) (hlisted : p.Listed target st) {workers : List WorkerHolder}
    {most receiver : WorkerHolder} {task : TaskHolder} {index : Nat} (hsplit : st.sortedWorkers = workers ++ [most])
    (hfound : workers[index]? = some receiver) (hm : p.Movable target st.moves most task receiver)
    {unbalanceable : List TaskID}
    (hrefuses : Refuses target workers most.taskIdToTask.entries st.unbalanceableTasks unbalanceable) :
    p.Pruned target
      (BalanceState.move target lists
        { st with sortedWorkers := workers.eraseIdx index, unbalanceableTasks := unbalanceable } most task receiver) := by
  have hdistinct := hlisted.distinct
  rw [hsplit] at hdistinct
  -- a worker above the target is the donor with fewer tasks, or did not take part
  have hbefore : ∀ v x, (p.afterMoves (st.moves ++ [⟨most.workerId, task, receiver.workerId⟩])).get? v = some x →
      target + 1 ≤ x.nTasks →
      (v = most.workerId ∧ x = most.dropTask task.1) ∨
        (v ≠ most.workerId ∧ v ≠ receiver.workerId ∧ (p.afterMoves st.moves).get? v = some x) := by
    intro v x hx hhigh
    rw [hm.get?_after] at hx
    split at hx
    · cases hx
      have hle := hm.receiver_le
      linarith
    · next hne =>
      split at hx
      · next heq =>
        cases hx
        exact .inl ⟨heq, rfl⟩
      · next hne' => exact .inr ⟨hne', hne, hx⟩
  refine ⟨?_, ?_, ?_⟩
  · intro v w x y t cs cs' hx hy hcs hcs'
    obtain ⟨v', x', hx', hcs⟩ := hm.held_before hx hcs
    obtain ⟨w', y', hy', hcs'⟩ := hm.held_before hy hcs'
    exact h.consistent v' w' x' y' t cs cs' hx' hy' hcs hcs'
  · intro v x t cs hx hhigh ht hmem w hw hbelow
    -- whoever is below the target was so before, with the same capabilities
    obtain ⟨u, hu, hubelow, hcapabilities⟩ : ∃ u ∈ workers, (u.nTasks : ℚ) < target ∧ u.capabilities = w.capabilities := by
      obtain hw | ⟨rfl, -⟩ := mem_reinsert.mp hw
      · obtain hw | ⟨rfl, -⟩ := mem_reinsert.mp hw
        · exact ⟨w, (List.eraseIdx_sublist _ _).subset hw, hbelow, rfl⟩
        · have hge := hm.le_donor
          linarith
      · have hlow := hm.low
        exact ⟨receiver, List.mem_of_getElem? hfound, by linarith, rfl⟩
    have hnot : ¬u.Accepts (t, cs) := by
      obtain ⟨-, rfl⟩ | ⟨-, -, hx⟩ := hbefore v x hx hhigh
      · rw [WorkerHolder.dropTask, Dict.get?_erase] at ht
        split at ht
        · cases ht
        · exact h.refuses hlisted hsplit hrefuses hm.giver hm.high ht hmem hu hubelow
      · exact h.refuses hlisted hsplit hrefuses hx hhigh ht hmem hu hubelow
    intro haccepts
    refine hnot fun c hc => ?_
    rw [hcapabilities]
    exact haccepts c hc
  · intro v x hx hhigh
    obtain ⟨rfl, rfl⟩ | ⟨hne, hne', hx⟩ := hbefore v x hx hhigh
    · refine .inl (mem_reinsert.mpr (.inl (mem_reinsert.mpr (.inr ⟨rfl, Bool.eq_false_iff.mpr fun hbalanced => ?_⟩))))
      have hlt := (isBalanced_iff.mp hbalanced).2
      linarith
    · obtain hin | hgone := h.dropped v x hx hhigh
      · obtain ⟨y, hy, hsame⟩ := hlisted.moved.same v x hx
        have hv : x.workerId = v := hsame.workerId.trans (hlisted.keyed v y hy)
        refine .inl (mem_reinsert.mpr (.inl (mem_reinsert.mpr (.inl ?_))))
        exact (mem_eraseIdx_iff hdistinct hfound).mpr ⟨hsplit ▸ hin, hv ▸ hne', hv ▸ hne⟩
      · exact .inr fun t cs ht => hrefuses.kept (hgone t cs ht)

theorem Pruned.round (h : p.Pruned target st) (hlisted : p.Listed target st) (hround : Round target lists st st' true) :
    p.Pruned target st' := by
  cases hround with
  | drops hsplit _ hrefuses hall => exact h.drops hlisted hsplit hrefuses hall
  | moves hsplit hhigh hrefuses hheld hfound hbelow haccepts _ =>
    exact h.moves hlisted hsplit hfound (hlisted.movable hsplit hhigh hheld hfound hbelow haccepts) hrefuses

/-- When the loop ends, nobody above the target has a task that somebody below it accepts. -/
theorem Pruned.maximal (h : p.Pruned target st) (hlisted : p.Listed target st) (hhalts : Halts target st)
    {v w : WorkerID} {x y : WorkerHolder} (hx : (p.afterMoves st.moves).get? v = some x)
    (hy : (p.afterMoves st.moves).get? w = some y) (hhigh : target + 1 ≤ x.nTasks) (hlow : (y.nTasks : ℚ) ≤ target - 1)
    {t : TaskID} {cs : List String} (ht : x.taskIdToTask.get? t = some cs) : ¬y.Accepts (t, cs) := by
  have hyin := hlisted.low w y hy hlow
  obtain hxin | hgone := h.dropped v x hx hhigh
  · exfalso
    obtain hfew | ⟨workers, most, hsplit, hnot⟩ := hhalts
    · have hsame : x = y := by
        cases hworkers : st.sortedWorkers with
        | nil =>
          rw [hworkers] at hxin
          cases hxin
        | cons only rest =>
          rw [hworkers, List.length_cons] at hfew
          obtain rfl : rest = [] := List.length_eq_zero_iff.mp (by omega)
          rw [hworkers] at hxin hyin
          exact (List.mem_singleton.mp hxin).trans (List.mem_singleton.mp hyin).symm
      rw [hsame] at hhigh
      linarith
    · have hle : x.nTasks ≤ most.nTasks := by
        have hsorted := hlisted.sorted
        rw [hsplit] at hsorted hxin
        obtain hxin | hlast := List.mem_append.mp hxin
        · exact hsorted.le_of_append_singleton hxin
        · rw [List.mem_singleton.mp hlast]
      have hcast : (x.nTasks : ℚ) ≤ most.nTasks := by exact_mod_cast hle
      have hmost := isHighLoad_iff.mpr (hhigh.trans hcast)
      rw [hnot] at hmost
      cases hmost
  · have hbelow : (y.nTasks : ℚ) < target := by linarith
    exact h.refused v x t cs hx hhigh ht (hgone t cs ht) y hyin hbelow

end

/-- With an idle worker `balance` goes on until no worker above the target has a task left that a
worker below it accepts. -/
theorem balance_maximal (lists : SortedKeyList WorkerHolder WorkerHolder.nTasks) {p : CapabilityAllocatePolicy}
    (h : p.Keyed) (hconsistent : p.Consistent) (hidle : p.hasIdleWorkers = true) :
    ∃ n final, p.Returns lists n final ∧ ∀ v w x y t cs,
      (p.afterMoves final.moves).get? v = some x → (p.afterMoves final.moves).get? w = some y →
      p.balanceTarget + 1 ≤ x.nTasks → (y.nTasks : ℚ) ≤ p.balanceTarget - 1 →
      x.taskIdToTask.get? t = some cs → ¬y.Accepts (t, cs) := by
  obtain ⟨n, final, last, hreturns, ⟨hlisted, hpruned⟩, hhalts, hmoves, -⟩ :=
    returns_of_rounds lists hidle (I := fun st => p.Listed p.balanceTarget st ∧ p.Pruned p.balanceTarget st)
      (fun st st' hst hround => ⟨hst.1.round hround, hst.2.round hst.1 hround⟩)
      ⟨listed_start lists h, pruned_start lists h hconsistent⟩
  refine ⟨n, final, hreturns, fun v w x y t cs hx hy hhigh hlow ht => ?_⟩
  rw [hmoves] at hx hy
  exact hpruned.maximal hlisted hhalts hx hy hhigh hlow ht

theorem placed_hoarding_three : (hoarding 3 3).Placed := by
  have hbusy : ∀ v x t, (hoarding 3 3).workerIdToWorker.get? v = some x → x.taskIdToTask.contains t = true → v = ⟨1⟩ := by
    intro v x t hx ht
    have hmem : (v, x) ∈ [_, (⟨2⟩, ⟨⟨2⟩, [], 3, Dict.empty⟩)] := (Dict.mem_entries _ _ _).mpr hx
    obtain hfirst | hsecond := List.mem_cons.mp hmem
    · exact congrArg Prod.fst hfirst
    · obtain ⟨-, rfl⟩ := Prod.mk.inj (List.mem_singleton.mp hsecond)
      cases ht
  intro v w x y t hx hy htx hty
  rw [hbusy v x t hx htx, hbusy w y t hy hty]

theorem balance_maximal_hoarding :
    ((hoarding 3 3).Keyed ∧ (hoarding 3 3).Consistent ∧ (hoarding 3 3).hasIdleWorkers = true) ∧
    ∃ n final, (hoarding 3 3).Returns (.stable _) n final ∧ ∀ v w x y t cs,
      ((hoarding 3 3).afterMoves final.moves).get? v = some x → ((hoarding 3 3).afterMoves final.moves).get? w = some y →
      (hoarding 3 3).balanceTarget + 1 ≤ x.nTasks → (y.nTasks : ℚ) ≤ (hoarding 3 3).balanceTarget - 1 →
      x.taskIdToTask.get? t = some cs → ¬y.Accepts (t, cs) :=
  ⟨⟨keyed_hoarding 3 3, placed_hoarding_three.consistent, by decide⟩,
    balance_maximal (.stable _) (keyed_hoarding 3 3) placed_hoarding_three.consistent (by decide)⟩

end CapabilityAllocatePolicy

end Scaler
