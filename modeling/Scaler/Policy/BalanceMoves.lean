import Mathlib.Data.List.Nodup
import Mathlib.Tactic.Linarith
import Scaler.Policy.CapabilityBalance
import Scaler.Policy.CapabilityIndex

/-! What the moves of `CapabilityAllocatePolicy.balance` do to the workers. Every move takes a task
from a worker above the target and gives it to one below; donors stay at the target or above,
receivers at the target or below, so nobody is both. -/

namespace Scaler

open Collections

namespace WorkerHolder

variable (w : WorkerHolder)

@[simp] theorem workerId_dropTask (t : TaskID) : (w.dropTask t).workerId = w.workerId := rfl

@[simp] theorem workerId_addTask (task : CapabilityAllocatePolicy.TaskHolder) :
    (w.addTask task).workerId = w.workerId := rfl

@[simp] theorem capabilities_dropTask (t : TaskID) : (w.dropTask t).capabilities = w.capabilities := rfl

@[simp] theorem capabilities_addTask (task : CapabilityAllocatePolicy.TaskHolder) :
    (w.addTask task).capabilities = w.capabilities := rfl

variable {w}

theorem nTasks_dropTask {t : TaskID} {cs : List String} (h : w.taskIdToTask.get? t = some cs) :
    (w.dropTask t).nTasks + 1 = w.nTasks := by
  have hlength := w.taskIdToTask.length_keys_erase h
  rw [Dict.keys, Dict.keys, List.length_map, List.length_map] at hlength
  exact hlength

theorem nTasks_addTask_le (task : CapabilityAllocatePolicy.TaskHolder) : (w.addTask task).nTasks ≤ w.nTasks + 1 :=
  CapabilityAllocatePolicy.nTasks_set_le w task.1 task.2

/-- The worker offers every capability the task asks for. -/
def Accepts (w : WorkerHolder) (task : CapabilityAllocatePolicy.TaskHolder) : Prop :=
  ∀ c ∈ task.2, c ∈ w.capabilities

end WorkerHolder

namespace CapabilityAllocatePolicy

theorem get?_onWorker (workers : Dict WorkerID WorkerHolder) (w v : WorkerID) (f : WorkerHolder → WorkerHolder) :
    (onWorker workers w f).get? v = if v = w then (workers.get? v).map f else workers.get? v := by
  rw [onWorker]
  split
  · next hw =>
    split
    · next heq => rw [heq, hw, Option.map_none]
    · rfl
  · next x hw =>
    rw [Dict.get?_set]
    split
    · next heq => rw [heq, hw, Option.map_some]
    · rfl

theorem get?_applyMove (workers : Dict WorkerID WorkerHolder) {m : BalanceMove} (hne : m.receiver ≠ m.donor)
    (v : WorkerID) :
    (applyMove workers m).get? v =
      if v = m.receiver then (workers.get? v).map (·.addTask m.task)
      else if v = m.donor then (workers.get? v).map (·.dropTask m.task.1) else workers.get? v := by
  rw [applyMove, get?_onWorker]
  split
  · next heq => rw [get?_onWorker, if_neg (heq ▸ hne)]
  · rw [get?_onWorker]

theorem afterMoves_append (p : CapabilityAllocatePolicy) (moves : List BalanceMove) (m : BalanceMove) :
    p.afterMoves (moves ++ [m]) = applyMove (p.afterMoves moves) m := by
  rw [afterMoves, List.foldl_append]
  rfl

/-- The worker as it was before the moves. -/
structure SameWorker (x h : WorkerHolder) : Prop where
  workerId : x.workerId = h.workerId
  capabilities : x.capabilities = h.capabilities
  queueSize : x.queueSize = h.queueSize

/-- What can be said of the moves that the loop has made. -/
structure Moved (p : CapabilityAllocatePolicy) (target : ℚ) (moves : List BalanceMove) : Prop where
  same : ∀ v x, (p.afterMoves moves).get? v = some x → ∃ h, p.workerIdToWorker.get? v = some h ∧ SameWorker x h
  received : ∀ m ∈ moves, ∃ x, (p.afterMoves moves).get? m.receiver = some x ∧ (x.nTasks : ℚ) ≤ target
  gave : ∀ m ∈ moves, ∃ x, (p.afterMoves moves).get? m.donor = some x ∧ target ≤ x.nTasks ∧
    x.taskIdToTask.get? m.task.1 = none
  own : ∀ v x, (p.afterMoves moves).get? v = some x → (∀ m ∈ moves, m.receiver ≠ v) →
    ∀ t cs, x.taskIdToTask.get? t = some cs → ∃ h, p.workerIdToWorker.get? v = some h ∧ h.taskIdToTask.get? t = some cs
  held : ∀ m ∈ moves, ∃ h, p.workerIdToWorker.get? m.donor = some h ∧ h.taskIdToTask.get? m.task.1 = some m.task.2
  accepted : ∀ m ∈ moves, ∃ h, p.workerIdToWorker.get? m.receiver = some h ∧ h.Accepts m.task
  apart : ∀ m ∈ moves, ∀ m' ∈ moves, m.receiver ≠ m'.donor
  once : (moves.map fun m => (m.donor, m.task.1)).Nodup
  loads : ∀ before m, before ++ [m] <+: moves →
    target ≤ p.loadAfter (before ++ [m]) m.donor ∧ (p.loadAfter (before ++ [m]) m.receiver : ℚ) < target + 1

theorem moved_nil (p : CapabilityAllocatePolicy) (target : ℚ) : p.Moved target [] where
  same := fun v x hx => ⟨x, hx, rfl, rfl, rfl⟩
  received := by simp
  gave := by simp
  own := fun v x hx _ t cs ht => ⟨x, hx, ht⟩
  held := by simp
  accepted := by simp
  apart := by simp
  once := List.nodup_nil
  loads := by simp

theorem loadAfter_of_get? {p : CapabilityAllocatePolicy} {moves : List BalanceMove} {v : WorkerID} {x : WorkerHolder}
    (h : (p.afterMoves moves).get? v = some x) : p.loadAfter moves v = x.nTasks := by
  rw [loadAfter, h]
  rfl

section

variable {p : CapabilityAllocatePolicy} {target : ℚ} {moves : List BalanceMove} {donor receiver : WorkerHolder}
  {task : TaskHolder}

/-- A move that the loop can make: from a worker above the target to one below. -/
structure Movable (p : CapabilityAllocatePolicy) (target : ℚ) (moves : List BalanceMove) (donor : WorkerHolder)
    (task : TaskHolder) (receiver : WorkerHolder) : Prop where
  giver : (p.afterMoves moves).get? donor.workerId = some donor
  taker : (p.afterMoves moves).get? receiver.workerId = some receiver
  high : target + 1 ≤ donor.nTasks
  low : (receiver.nTasks : ℚ) ≤ target - 1
  held : donor.taskIdToTask.get? task.1 = some task.2
  accepts : receiver.Accepts task

namespace Movable

variable (h : p.Movable target moves donor task receiver)

include h

theorem ne : receiver.workerId ≠ donor.workerId := by
  intro heq
  have hsame : receiver = donor := by
    have hreceiver := h.taker
    rw [heq, h.giver] at hreceiver
    exact (Option.some.inj hreceiver).symm
  have hhigh := h.high
  have hlow := h.low
  rw [hsame] at hlow
  linarith

theorem get?_after (v : WorkerID) :
    (p.afterMoves (moves ++ [⟨donor.workerId, task, receiver.workerId⟩])).get? v =
      if v = receiver.workerId then some (receiver.addTask task)
      else if v = donor.workerId then some (donor.dropTask task.1) else (p.afterMoves moves).get? v := by
  rw [afterMoves_append, get?_applyMove _ h.ne]
  dsimp only
  split
  · next heq => rw [heq, h.taker, Option.map_some]
  · split
    · next heq => rw [heq, h.giver, Option.map_some]
    · rfl

theorem get?_receiver :
    (p.afterMoves (moves ++ [⟨donor.workerId, task, receiver.workerId⟩])).get? receiver.workerId =
      some (receiver.addTask task) := by
  rw [h.get?_after, if_pos rfl]

theorem get?_donor :
    (p.afterMoves (moves ++ [⟨donor.workerId, task, receiver.workerId⟩])).get? donor.workerId =
      some (donor.dropTask task.1) := by
  rw [h.get?_after, if_neg h.ne.symm, if_pos rfl]

/-- The receiver does not get above the target. -/
theorem receiver_le : ((receiver.addTask task).nTasks : ℚ) ≤ target := by
  have hle : ((receiver.addTask task).nTasks : ℚ) ≤ receiver.nTasks + 1 := by
    exact_mod_cast WorkerHolder.nTasks_addTask_le task
  have hlow := h.low
  linarith

/-- The donor does not get below the target. -/
theorem le_donor : target ≤ (donor.dropTask task.1).nTasks := by
  have hone : ((donor.dropTask task.1).nTasks : ℚ) + 1 = donor.nTasks := by
    exact_mod_cast WorkerHolder.nTasks_dropTask h.held
  have hhigh := h.high
  linarith

/-- A worker above the target has not received anything. -/
theorem donor_receives_nothing (hm : p.Moved target moves) : ∀ m ∈ moves, m.receiver ≠ donor.workerId := by
  intro m hmem heq
  obtain ⟨x, hx, hle⟩ := hm.received m hmem
  rw [heq, h.giver] at hx
  cases hx
  have hhigh := h.high
  linarith

/-- A worker below the target has given nothing away. -/
theorem receiver_gives_nothing (hm : p.Moved target moves) : ∀ m ∈ moves, m.donor ≠ receiver.workerId := by
  intro m hmem heq
  obtain ⟨x, hx, hle, -⟩ := hm.gave m hmem
  rw [heq, h.taker] at hx
  cases hx
  have hlow := h.low
  linarith

theorem moved (hm : p.Moved target moves) : p.Moved target (moves ++ [⟨donor.workerId, task, receiver.workerId⟩]) := by
  have hreceives := h.donor_receives_nothing hm
  have hgives := h.receiver_gives_nothing hm
  refine ⟨?_, ?_, ?_, ?_, ?_, ?_, ?_, ?_, ?_⟩
  · intro v x hx
    rw [h.get?_after] at hx
    split at hx
    · next heq =>
      cases hx
      obtain ⟨y, hy, hsame⟩ := hm.same _ _ h.taker
      exact ⟨y, heq ▸ hy, hsame.1, hsame.2, hsame.3⟩
    · split at hx
      · next heq =>
        cases hx
        obtain ⟨y, hy, hsame⟩ := hm.same _ _ h.giver
        exact ⟨y, heq ▸ hy, hsame.1, hsame.2, hsame.3⟩
      · exact hm.same v x hx
  · intro m hmem
    rw [h.get?_after]
    obtain hmem | hlast := List.mem_append.mp hmem
    · rw [if_neg (hreceives m hmem)]
      split
      · exact ⟨_, rfl, h.receiver_le⟩
      · exact hm.received m hmem
    · obtain rfl := List.mem_singleton.mp hlast
      rw [if_pos rfl]
      exact ⟨_, rfl, h.receiver_le⟩
  · intro m hmem
    rw [h.get?_after]
    obtain hmem | hlast := List.mem_append.mp hmem
    · rw [if_neg (hgives m hmem)]
      obtain ⟨x, hx, hle, hnone⟩ := hm.gave m hmem
      split
      · next heq =>
        rw [heq, h.giver] at hx
        cases hx
        refine ⟨_, rfl, h.le_donor, ?_⟩
        rw [WorkerHolder.dropTask, Dict.get?_erase, hnone, ite_self]
      · exact ⟨x, hx, hle, hnone⟩
    · obtain rfl := List.mem_singleton.mp hlast
      rw [if_neg h.ne.symm, if_pos rfl]
      exact ⟨_, rfl, h.le_donor, Dict.get?_erase_self _ _⟩
  · intro v x hx hnot t cs ht
    have hv : v ≠ receiver.workerId :=
      fun heq => hnot _ (List.mem_append_right _ List.mem_cons_self) heq.symm
    have hnot' : ∀ m ∈ moves, m.receiver ≠ v := fun m hmem => hnot m (List.mem_append_left _ hmem)
    rw [h.get?_after, if_neg hv] at hx
    split at hx
    · next heq =>
      cases hx
      subst heq
      rw [WorkerHolder.dropTask, Dict.get?_erase] at ht
      split at ht
      · cases ht
      · exact hm.own _ _ h.giver hnot' t cs ht
    · exact hm.own v x hx hnot' t cs ht
  · intro m hmem
    obtain hmem | hlast := List.mem_append.mp hmem
    · exact hm.held m hmem
    · obtain rfl := List.mem_singleton.mp hlast
      exact hm.own _ _ h.giver hreceives _ _ h.held
  · intro m hmem
    obtain hmem | hlast := List.mem_append.mp hmem
    · exact hm.accepted m hmem
    · obtain rfl := List.mem_singleton.mp hlast
      obtain ⟨y, hy, hsame⟩ := hm.same _ _ h.taker
      refine ⟨y, hy, fun c hc => ?_⟩
      rw [← hsame.capabilities]
      exact h.accepts c hc
  · intro m hmem m' hmem'
    obtain hmem | hlast := List.mem_append.mp hmem <;> obtain hmem' | hlast' := List.mem_append.mp hmem'
    · exact hm.apart m hmem m' hmem'
    · obtain rfl := List.mem_singleton.mp hlast'
      exact hreceives m hmem
    · obtain rfl := List.mem_singleton.mp hlast
      exact (hgives m' hmem').symm
    · obtain rfl := List.mem_singleton.mp hlast
      obtain rfl := List.mem_singleton.mp hlast'
      exact h.ne
  · rw [List.map_append, List.nodup_append]
    refine ⟨hm.once, List.nodup_singleton _, ?_⟩
    rintro a ha b hb rfl
    obtain ⟨m, hmem, hpair⟩ := List.mem_map.mp ha
    obtain ⟨hdonor, htask⟩ := Prod.mk.inj (hpair.trans (List.mem_singleton.mp hb))
    obtain ⟨x, hx, -, hnone⟩ := hm.gave m hmem
    rw [hdonor, h.giver] at hx
    cases hx
    rw [htask, h.held] at hnone
    cases hnone
  · intro before m hprefix
    obtain heq | hprefix := List.prefix_concat_iff.mp hprefix
    · obtain ⟨rfl, hlast⟩ := List.append_inj' heq rfl
      obtain rfl := List.singleton_inj.mp hlast
      rw [loadAfter_of_get? h.get?_donor, loadAfter_of_get? h.get?_receiver]
      have hle := h.receiver_le
      exact ⟨h.le_donor, by linarith⟩
    · exact hm.loads before m hprefix

end Movable

end

end CapabilityAllocatePolicy

end Scaler
