import Mathlib.Algebra.BigOperators.Group.List.Lemmas
import Mathlib.Algebra.Order.BigOperators.Group.List
import Mathlib.Algebra.Order.Floor.Semiring
import Mathlib.Data.List.Induction
import Mathlib.Data.Rat.Floor
import Scaler.Policy.BalanceAdvice

/-! How many tasks the moves of `balance` take and give. A donor gives no more than it has above the target. The
receiver of a task is the least loaded worker that accepts it, so before a worker is raised above a level all the
others that accept the task have come up to it. -/

namespace Scaler

open Collections

namespace CapabilityAllocatePolicy

/-- Every task was moved to the least loaded worker that accepts it. -/
def Levelled (p : CapabilityAllocatePolicy) (moves : List BalanceMove) : Prop :=
  ∀ before m, before ++ [m] <+: moves → ∀ v x, (p.afterMoves before).get? v = some x → x.Accepts m.task →
    p.loadAfter before m.receiver ≤ x.nTasks

theorem levelled_nil (p : CapabilityAllocatePolicy) : p.Levelled [] := by
  intro before m hprefix
  exact absurd (List.prefix_nil.mp hprefix) (List.append_ne_nil_of_right_ne_nil _ (List.cons_ne_nil _ _))

section

variable {p : CapabilityAllocatePolicy} {target : ℚ} {lists : SortedKeyList WorkerHolder WorkerHolder.nTasks}
  {st st' : BalanceState} {moves : List BalanceMove}

theorem Levelled.append (h : p.Levelled moves) {m : BalanceMove}
    (hleast : ∀ v x, (p.afterMoves moves).get? v = some x → x.Accepts m.task → p.loadAfter moves m.receiver ≤ x.nTasks) :
    p.Levelled (moves ++ [m]) := by
  intro before m' hprefix
  obtain heq | hold := List.prefix_concat_iff.mp hprefix
  · obtain ⟨rfl, hlast⟩ := List.append_inj' heq rfl
    cases hlast
    exact hleast
  · exact h before m' hold

/-- The first worker of the sorted list that accepts the task has no more than the others. -/
theorem Listed.least (h : p.Listed target st) {workers : List WorkerHolder} {most receiver : WorkerHolder}
    {task : TaskHolder} {index : Nat} (hsplit : st.sortedWorkers = workers ++ [most])
    (hhigh : isHighLoad target most = true) (hfound : workers[index]? = some receiver)
    (hm : p.Movable target st.moves most task receiver)
    (hfirst : ∀ j w, j < index → workers[j]? = some w → ¬w.Accepts task) {v : WorkerID} {x : WorkerHolder}
    (hx : (p.afterMoves st.moves).get? v = some x) (haccepts : x.Accepts task) : receiver.nTasks ≤ x.nTasks := by
  by_cases hlow : (x.nTasks : ℚ) ≤ target - 1
  · have hmem := h.low v x hx hlow
    rw [hsplit] at hmem
    have hin : x ∈ workers := by
      refine (List.mem_append.mp hmem).resolve_right fun hlast => ?_
      obtain rfl := List.mem_singleton.mp hlast
      have hge := isHighLoad_iff.mp hhigh
      linarith
    obtain ⟨j, hj⟩ := List.mem_iff_getElem?.mp hin
    have hle : index ≤ j := Nat.le_of_not_lt fun hlt => hfirst j x hlt hj haccepts
    obtain ⟨hjl, hjx⟩ := List.getElem?_eq_some_iff.mp hj
    obtain ⟨hil, hir⟩ := List.getElem?_eq_some_iff.mp hfound
    have hsorted := h.sorted
    rw [hsplit] at hsorted
    obtain rfl | hlt := Nat.eq_or_lt_of_le hle
    · rw [← hjx, ← hir]
    · rw [← hjx, ← hir]
      exact List.pairwise_iff_getElem.mp (List.pairwise_append.mp hsorted).1 index j hil hjl hlt
  · have hreceiver := hm.low
    have hlt : (receiver.nTasks : ℚ) < x.nTasks := by linarith
    exact_mod_cast hlt.le

theorem Levelled.round (h : p.Levelled st.moves) (hlisted : p.Listed target st) (hround : Round target lists st st' true) :
    p.Levelled st'.moves := by
  cases hround with
  | drops => exact h
  | moves hsplit hhigh _ hheld hfound hbelow haccepts hfirst =>
    have hm := hlisted.movable hsplit hhigh hheld hfound hbelow haccepts
    refine h.append fun v x hx hx' => ?_
    dsimp only at hx' ⊢
    rw [loadAfter_of_get? hm.taker]
    exact hlisted.least hsplit hhigh hfound hm hfirst hx hx'

end

theorem exists_afterMoves (p : CapabilityAllocatePolicy) (moves : List BalanceMove) {v : WorkerID} {w : WorkerHolder}
    (hw : p.workerIdToWorker.get? v = some w) : ∃ x, (p.afterMoves moves).get? v = some x ∧ SameWorker x w := by
  have hkeeps : ∀ {workers : Dict WorkerID WorkerHolder} {u : WorkerID} {f : WorkerHolder → WorkerHolder},
      (∀ y, SameWorker (f y) y) → (∃ x, workers.get? v = some x ∧ SameWorker x w) →
        ∃ x, (onWorker workers u f).get? v = some x ∧ SameWorker x w := by
    rintro workers u f hf ⟨x, hx, hsame⟩
    rw [get?_onWorker]
    split
    · obtain ⟨hid, hcapabilities, hqueue⟩ := hf x
      exact ⟨f x, by rw [hx, Option.map_some],
        hid.trans hsame.workerId, hcapabilities.trans hsame.capabilities, hqueue.trans hsame.queueSize⟩
    · exact ⟨x, hx, hsame⟩
  induction moves using List.reverseRecOn with
  | nil => exact ⟨w, hw, rfl, rfl, rfl⟩
  | append_singleton moves m ih =>
    rw [afterMoves_append, applyMove]
    exact hkeeps (fun _ => ⟨rfl, rfl, rfl⟩) (hkeeps (fun _ => ⟨rfl, rfl, rfl⟩) ih)

theorem loadAfter_append_le (p : CapabilityAllocatePolicy) (moves : List BalanceMove) (m : BalanceMove) (v : WorkerID) :
    p.loadAfter (moves ++ [m]) v ≤ p.loadAfter moves v + if m.receiver = v then 1 else 0 := by
  have hdonor : (((onWorker (p.afterMoves moves) m.donor (·.dropTask m.task.1)).get? v).map WorkerHolder.nTasks).getD 0 ≤
      p.loadAfter moves v := by
    rw [get?_onWorker, loadAfter]
    split
    · cases (p.afterMoves moves).get? v with
      | none => exact Nat.le_refl _
      | some x => exact (eraseIn_sublist m.task.1 x.taskIdToTask.entries).length_le
    · exact Nat.le_refl _
  rw [loadAfter, afterMoves_append, applyMove, get?_onWorker]
  split
  · next heq =>
    rw [if_pos heq.symm]
    refine Nat.le_trans ?_ (Nat.add_le_add_right hdonor 1)
    cases (onWorker (p.afterMoves moves) m.donor (·.dropTask m.task.1)).get? v with
    | none => exact Nat.zero_le _
    | some x => exact x.nTasks_addTask_le m.task
  · exact hdonor.trans (Nat.le_add_right _ _)

theorem exists_raise {p : CapabilityAllocatePolicy} {moves : List BalanceMove} {v : WorkerID} {level : Nat}
    (hbefore : p.loadAfter [] v ≤ level) (hafter : level < p.loadAfter moves v) :
    ∃ before m, before ++ [m] <+: moves ∧ m.receiver = v ∧ p.loadAfter before v = level := by
  induction moves using List.reverseRecOn with
  | nil => exact absurd hbefore (Nat.not_le_of_lt hafter)
  | append_singleton moves m ih =>
    by_cases hearlier : level < p.loadAfter moves v
    · obtain ⟨before, m', hprefix, hrest⟩ := ih hearlier
      exact ⟨before, m', hprefix.trans (List.prefix_append _ _), hrest⟩
    · have hle := loadAfter_append_le p moves m v
      refine ⟨moves, m, List.prefix_refl _, ?_, ?_⟩
      · by_contra hne
        rw [if_neg hne] at hle
        omega
      · split at hle <;> omega

theorem length_filter_cons {α κ : Type} [DecidableEq κ] (key : α → κ) (items : List α) {k : κ} {keys : List κ} (hnew : k ∉ keys) :
    (items.filter fun a => key a ∈ k :: keys).length =
      (items.filter fun a => key a = k).length + (items.filter fun a => key a ∈ keys).length := by
  induction items with
  | nil => rfl
  | cons a items ih =>
    simp only [List.filter_cons, List.mem_cons] at ih ⊢
    by_cases hk : key a = k
    · have hnot : key a ∉ keys := hk ▸ hnew
      simp only [hk, hnew, true_or, decide_true, decide_false, if_true, Bool.false_eq_true, if_false, List.length_cons]
      omega
    · by_cases hmem : key a ∈ keys
      · simp only [hk, hmem, false_or, decide_true, decide_false, if_true, Bool.false_eq_true, if_false, List.length_cons]
        omega
      · simp only [hk, hmem, or_self, decide_false, Bool.false_eq_true, if_false]
        exact ih

theorem sum_length_filter {α κ : Type} [DecidableEq κ] (key : α → κ) (items : List α) {keys : List κ} (hnodup : keys.Nodup) :
    (keys.map fun k => (items.filter fun a => key a = k).length).sum = (items.filter fun a => key a ∈ keys).length := by
  induction keys with
  | nil => simp
  | cons k keys ih =>
    obtain ⟨hnew, hnodup⟩ := List.nodup_cons.mp hnodup
    rw [List.map_cons, List.sum_cons, ih hnodup, length_filter_cons key items hnew]

/-- The workers that are above the target by a whole task. -/
def donors (p : CapabilityAllocatePolicy) : List WorkerHolder := p.workers.filter (isHighLoad p.balanceTarget)

/-- What a worker has above the target, in whole tasks. -/
def excess (p : CapabilityAllocatePolicy) (w : WorkerHolder) : Nat := ⌊(w.nTasks : ℚ) - p.balanceTarget⌋₊

def surplus (p : CapabilityAllocatePolicy) : Nat := (p.donors.map p.excess).sum

def acceptable (w : WorkerHolder) (task : TaskHolder) : Bool := task.2.all (· ∈ w.capabilities)

/-- What the donors have for a worker: of each no more than its excess, and no more than it holds of tasks that the
worker accepts. -/
def offered (p : CapabilityAllocatePolicy) (w : WorkerHolder) : Nat :=
  (p.donors.map fun d => min (p.excess d) (d.taskIdToTask.entries.countP (acceptable w))).sum

/-- What it takes to raise a worker above its queue size with this task as the last: the others that accept the task
come up to that level first. -/
def raising (p : CapabilityAllocatePolicy) (w : WorkerHolder) (task : TaskHolder) : Nat :=
  (w.queueSize + 1 - w.nTasks) +
    ((p.workers.filter fun y => decide (y.workerId ≠ w.workerId) && acceptable y task).map fun y =>
      w.queueSize - y.nTasks).sum

section

variable {p : CapabilityAllocatePolicy} {moves : List BalanceMove}

/-- What a worker holds after the moves it held before, or it was moved there. -/
theorem contents_afterMoves (p : CapabilityAllocatePolicy) (moves : List BalanceMove) :
    ∀ v x t, (p.afterMoves moves).get? v = some x → x.taskIdToTask.contains t = true →
      (∃ h, p.workerIdToWorker.get? v = some h ∧ h.taskIdToTask.contains t = true) ∨
        ∃ m ∈ moves, m.receiver = v ∧ m.task.1 = t := by
  induction moves using List.reverseRecOn with
  | nil => exact fun v x t hx ht => .inl ⟨x, hx, ht⟩
  | append_singleton moves m ih =>
    intro v x t hx ht
    have hbefore : ∀ {y}, (p.afterMoves moves).get? v = some y → y.taskIdToTask.contains t = true →
        (∃ h, p.workerIdToWorker.get? v = some h ∧ h.taskIdToTask.contains t = true) ∨
          ∃ m' ∈ moves ++ [m], m'.receiver = v ∧ m'.task.1 = t := by
      intro y hy hty
      obtain hold | ⟨m', hm', hmoved⟩ := ih v y t hy hty
      · exact .inl hold
      · exact .inr ⟨m', List.mem_append_left _ hm', hmoved⟩
    have hdonor : ∀ {y}, (onWorker (p.afterMoves moves) m.donor (·.dropTask m.task.1)).get? v = some y →
        y.taskIdToTask.contains t = true → ∃ z, (p.afterMoves moves).get? v = some z ∧ z.taskIdToTask.contains t = true := by
      intro y hy hty
      rw [get?_onWorker] at hy
      split at hy
      · obtain ⟨z, hz, rfl⟩ := Option.map_eq_some_iff.mp hy
        refine ⟨z, hz, ?_⟩
        rw [WorkerHolder.dropTask, Dict.contains, Dict.get?_erase] at hty
        split at hty
        · cases hty
        · exact hty
      · exact ⟨y, hy, hty⟩
    rw [afterMoves_append, applyMove, get?_onWorker] at hx
    split at hx
    · next hv =>
      obtain ⟨y, hy, rfl⟩ := Option.map_eq_some_iff.mp hx
      by_cases heq : t = m.task.1
      · exact .inr ⟨m, List.mem_append_right _ List.mem_cons_self, hv.symm, heq.symm⟩
      · rw [WorkerHolder.addTask, Dict.contains, Dict.get?_set_ne _ heq] at ht
        obtain ⟨z, hz, htz⟩ := hdonor hy ht
        exact hbefore hz htz
    · obtain ⟨z, hz, htz⟩ := hdonor hx ht
      exact hbefore hz htz

theorem nTasks_le_received {v : WorkerID} {x w : WorkerHolder} (hx : (p.afterMoves moves).get? v = some x)
    (hw : p.workerIdToWorker.get? v = some w) :
    x.nTasks ≤ w.nTasks + (moves.filter fun m => m.receiver = v).length := by
  have hsub : x.taskIdToTask.keys ⊆ w.taskIdToTask.keys ++ (moves.filter fun m => m.receiver = v).map fun m => m.task.1 := by
    intro t ht
    obtain ⟨w', hw', htw⟩ | ⟨m, hm, hreceiver, htask⟩ :=
      contents_afterMoves p moves v x t hx ((Dict.mem_keys _ _).mp ht)
    · rw [hw] at hw'
      cases hw'
      exact List.mem_append_left _ ((Dict.mem_keys _ _).mpr htw)
    · refine List.mem_append_right _ (List.mem_map.mpr ⟨m, List.mem_filter.mpr ⟨hm, ?_⟩, htask⟩)
      exact decide_eq_true hreceiver
  have hle := (x.taskIdToTask.nodup.subperm hsub).length_le
  simp only [Dict.keys, List.length_append, List.length_map] at hle
  exact hle

/-- What a worker has left and what it gave away were its own. -/
theorem Moved.given_add_le (h : p.Moved p.balanceTarget moves) {v : WorkerID} {d x : WorkerHolder}
    (hd : p.workerIdToWorker.get? v = some d) (hx : (p.afterMoves moves).get? v = some x)
    (hgave : ∃ m ∈ moves, m.donor = v) : (moves.filter fun m => m.donor = v).length + x.nTasks ≤ d.nTasks := by
  obtain ⟨m, hm, rfl⟩ := hgave
  have hgiven : ∀ m' ∈ moves.filter fun m' => m'.donor = m.donor, d.taskIdToTask.contains m'.task.1 = true ∧
      x.taskIdToTask.contains m'.task.1 = false := by
    intro m' hm'
    obtain ⟨hm', hdonor⟩ := List.mem_filter.mp hm'
    have hdonor := of_decide_eq_true hdonor
    obtain ⟨d', hd', hheld⟩ := h.held m' hm'
    obtain ⟨x', hx', -, hgone⟩ := h.gave m' hm'
    rw [hdonor, hd] at hd'
    rw [hdonor, hx] at hx'
    cases hd'
    cases hx'
    exact ⟨by rw [Dict.contains, hheld]; rfl, by rw [Dict.contains, hgone]; rfl⟩
  have hnodup : (((moves.filter fun m' => m'.donor = m.donor).map fun m' => m'.task.1) ++ x.taskIdToTask.keys).Nodup := by
    refine List.nodup_append.mpr ⟨?_, x.taskIdToTask.nodup, ?_⟩
    · have honce := h.once.sublist ((List.filter_sublist (p := fun m' => decide (m'.donor = m.donor))).map _)
      refine List.Nodup.of_map (fun t => (m.donor, t)) ?_
      rw [List.map_map]
      refine (List.map_congr_left fun m' hm' => ?_) ▸ honce
      exact congrArg (·, m'.task.1) (of_decide_eq_true (List.mem_filter.mp hm').2)
    · rintro t ht _ ht' rfl
      obtain ⟨m', hm', rfl⟩ := List.mem_map.mp ht
      have hleft : x.taskIdToTask.contains m'.task.1 = true := (Dict.mem_keys _ _).mp ht'
      rw [(hgiven m' hm').2] at hleft
      cases hleft
  have hsub : ((moves.filter fun m' => m'.donor = m.donor).map fun m' => m'.task.1) ++ x.taskIdToTask.keys ⊆
      d.taskIdToTask.keys := by
    intro t ht
    obtain ht | ht := List.mem_append.mp ht
    · obtain ⟨m', hm', rfl⟩ := List.mem_map.mp ht
      exact (Dict.mem_keys _ _).mpr (hgiven m' hm').1
    · obtain ⟨cs, hcs⟩ := Option.isSome_iff_exists.mp ((Dict.mem_keys _ _).mp ht)
      obtain ⟨d', hd', hown⟩ := h.own _ x hx (fun m' hm' heq => h.apart m' hm' m hm heq) t cs hcs
      rw [hd] at hd'
      cases hd'
      exact (Dict.mem_keys _ _).mpr (Option.isSome_iff_exists.mpr ⟨cs, hown⟩)
  have hle := (hnodup.subperm hsub).length_le
  simp only [Dict.keys, List.length_append, List.length_map] at hle
  exact hle

/-- A donor gives away no more than its excess. -/
theorem Moved.given_le (h : p.Moved p.balanceTarget moves) {v : WorkerID} {d : WorkerHolder}
    (hd : p.workerIdToWorker.get? v = some d) : (moves.filter fun m => m.donor = v).length ≤ p.excess d := by
  by_cases hgave : ∃ m ∈ moves, m.donor = v
  · obtain ⟨m, hm, hdonor⟩ := hgave
    obtain ⟨x, hx, hge, -⟩ := h.gave m hm
    rw [hdonor] at hx
    have hle := h.given_add_le hd hx ⟨m, hm, hdonor⟩
    have hcast : ((moves.filter fun m => m.donor = v).length : ℚ) + x.nTasks ≤ d.nTasks := by exact_mod_cast hle
    exact Nat.le_floor (by linarith)
  · have hnil : (moves.filter fun m => m.donor = v) = [] :=
      List.filter_eq_nil_iff.mpr fun m hm heq => hgave ⟨m, hm, of_decide_eq_true heq⟩
    rw [hnil]
    exact Nat.zero_le _

theorem Moved.mem_donors (h : p.Moved p.balanceTarget moves) (hkeyed : p.Keyed) {m : BalanceMove} (hm : m ∈ moves) :
    ∃ d ∈ p.donors, d.workerId = m.donor ∧ d.taskIdToTask.get? m.task.1 = some m.task.2 := by
  obtain ⟨d, hd, hheld⟩ := h.held m hm
  obtain ⟨x, hx, hge, -⟩ := h.gave m hm
  have hle := h.given_add_le hd hx ⟨m, hm, rfl⟩
  have hpos : 0 < (moves.filter fun m' => m'.donor = m.donor).length :=
    List.length_pos_of_mem (List.mem_filter.mpr ⟨hm, decide_eq_true rfl⟩)
  have hlt : (x.nTasks : ℚ) + 1 ≤ d.nTasks := by
    have hnat : x.nTasks + 1 ≤ d.nTasks := by omega
    exact_mod_cast hnat
  have hid : d.workerId = m.donor := hkeyed _ d hd
  refine ⟨d, List.mem_filter.mpr ⟨hkeyed.mem_workers.mpr (hid ▸ hd), isHighLoad_iff.mpr (by linarith)⟩, hid, hheld⟩

theorem Keyed.nodup_donors (h : p.Keyed) : (p.donors.map WorkerHolder.workerId).Nodup :=
  h.nodup_workers.sublist (List.filter_sublist.map _)

theorem Moved.sum_given (h : p.Moved p.balanceTarget moves) (hkeyed : p.Keyed) (which : BalanceMove → Bool) :
    (moves.filter which).length =
      (p.donors.map fun d => ((moves.filter which).filter fun m => m.donor = d.workerId).length).sum := by
  have hsum := sum_length_filter BalanceMove.donor (moves.filter which) hkeyed.nodup_donors
  rw [List.map_map] at hsum
  refine Eq.trans ?_ hsum.symm
  refine congrArg List.length (List.filter_eq_self.mpr fun m hm => decide_eq_true ?_).symm
  obtain ⟨d, hd, hid, -⟩ := h.mem_donors hkeyed (List.mem_filter.mp hm).1
  exact List.mem_map.mpr ⟨d, hd, hid⟩

theorem get?_of_mem_donors (hkeyed : p.Keyed) {d : WorkerHolder} (hd : d ∈ p.donors) :
    p.workerIdToWorker.get? d.workerId = some d := hkeyed.mem_workers.mp (List.mem_filter.mp hd).1

theorem Moved.length_le (h : p.Moved p.balanceTarget moves) (hkeyed : p.Keyed) : moves.length ≤ p.surplus := by
  have hsum := h.sum_given hkeyed fun _ => true
  rw [List.filter_true] at hsum
  rw [hsum]
  exact List.sum_le_sum fun d hd => h.given_le (get?_of_mem_donors hkeyed hd)

theorem Moved.received_le (h : p.Moved p.balanceTarget moves) (hkeyed : p.Keyed) {v : WorkerID} {w : WorkerHolder}
    (hw : p.workerIdToWorker.get? v = some w) :
    (moves.filter fun m => m.receiver = v).length ≤ p.offered w := by
  rw [h.sum_given hkeyed]
  refine List.sum_le_sum fun d hd => le_min ?_ ?_
  · refine Nat.le_trans ?_ (h.given_le (get?_of_mem_donors hkeyed hd))
    exact (List.filter_sublist.filter _).length_le
  · have hmoves : ∀ m ∈ (moves.filter fun m => m.receiver = v).filter fun m => m.donor = d.workerId,
        m ∈ moves ∧ m.receiver = v ∧ m.donor = d.workerId := by
      intro m hm
      obtain ⟨hm, hdonor⟩ := List.mem_filter.mp hm
      obtain ⟨hm, hreceiver⟩ := List.mem_filter.mp hm
      exact ⟨hm, of_decide_eq_true hreceiver, of_decide_eq_true hdonor⟩
    have hnodup : (((moves.filter fun m => m.receiver = v).filter fun m => m.donor = d.workerId).map BalanceMove.task).Nodup := by
      have honce := (List.Nodup.of_map _ h.once).sublist
        ((List.filter_sublist (p := fun m => decide (m.donor = d.workerId))).trans
          (List.filter_sublist (p := fun m => decide (m.receiver = v)) (l := moves)))
      refine honce.map_on fun m hm m' hm' heq => ?_
      obtain ⟨hm, -, hdonor⟩ := hmoves m hm
      obtain ⟨hm', -, hdonor'⟩ := hmoves m' hm'
      exact List.inj_on_of_nodup_map h.once hm hm' (Prod.ext (hdonor.trans hdonor'.symm) (congrArg Prod.fst heq))
    have hsub : ((moves.filter fun m => m.receiver = v).filter fun m => m.donor = d.workerId).map BalanceMove.task ⊆
        d.taskIdToTask.entries.filter (acceptable w) := by
      intro task htask
      obtain ⟨m, hm, rfl⟩ := List.mem_map.mp htask
      obtain ⟨hm, hreceiver, hdonor⟩ := hmoves m hm
      obtain ⟨d', hd', hheld⟩ := h.held m hm
      obtain ⟨w', hw', haccepts⟩ := h.accepted m hm
      rw [hdonor, get?_of_mem_donors hkeyed hd] at hd'
      rw [hreceiver, hw] at hw'
      cases hd'
      cases hw'
      exact List.mem_filter.mpr ⟨(Dict.mem_entries _ _ _).mpr hheld, List.all_eq_true.mpr fun c hc => decide_eq_true (haccepts c hc)⟩
    have hle := (hnodup.subperm hsub).length_le
    rw [List.length_map] at hle
    rwa [List.countP_eq_length_filter]

/-- A worker that is raised above its queue size takes as many moves as there are donors for. -/
theorem Levelled.raising_le (h : p.Levelled moves) (hmoved : p.Moved p.balanceTarget moves) (hkeyed : p.Keyed) {v : WorkerID}
    {w x : WorkerHolder} (hw : p.workerIdToWorker.get? v = some w) (hfits : w.nTasks ≤ w.queueSize)
    (hx : (p.afterMoves moves).get? v = some x) (hover : w.queueSize < x.nTasks) :
    ∃ d ∈ p.donors, ∃ task ∈ d.taskIdToTask.entries, w.Accepts task ∧ p.raising w task ≤ p.surplus := by
  have hstart : p.loadAfter [] v = w.nTasks := loadAfter_of_get? hw
  have hend : p.loadAfter moves v = x.nTasks := loadAfter_of_get? hx
  obtain ⟨before, m, hprefix, hreceiver, hlevel⟩ := exists_raise (hstart.trans_le hfits) (hover.trans_eq hend.symm)
  have hm : m ∈ moves := hprefix.subset (List.mem_append_right _ (List.mem_singleton_self m))
  obtain ⟨d, hd, -, hheld⟩ := hmoved.mem_donors hkeyed hm
  obtain ⟨w', hw', haccepts⟩ := hmoved.accepted m hm
  rw [hreceiver, hw] at hw'
  cases hw'
  refine ⟨d, hd, m.task, (Dict.mem_entries _ _ _).mpr hheld, haccepts, ?_⟩
  have hid : w.workerId = v := hkeyed _ w hw
  let received (u : WorkerID) : Nat := ((before ++ [m]).filter fun m => m.receiver = u).length
  have hown : w.queueSize + 1 - w.nTasks ≤ received v := by
    obtain ⟨y, hy, -⟩ := exists_afterMoves p before hw
    have hle := nTasks_le_received hy hw
    rw [loadAfter_of_get? hy] at hlevel
    have hlast : received v = (before.filter fun m => m.receiver = v).length + 1 := by
      simp [received, List.filter_append, hreceiver]
    omega
  let others := p.workers.filter fun y => decide (y.workerId ≠ w.workerId) && acceptable y m.task
  have hothers : (others.map fun y => w.queueSize - y.nTasks).sum ≤ (others.map fun y => received y.workerId).sum := by
    refine List.sum_le_sum fun y hy => ?_
    obtain ⟨hy, hyes⟩ := List.mem_filter.mp hy
    obtain ⟨-, hacceptable⟩ := Bool.and_eq_true_iff.mp hyes
    have hget := hkeyed.mem_workers.mp hy
    obtain ⟨z, hz, hsame⟩ := exists_afterMoves p before hget
    have hle := nTasks_le_received hz hget
    have hleast := h before m hprefix _ z hz fun c hc =>
      hsame.capabilities ▸ of_decide_eq_true (List.all_eq_true.mp hacceptable c hc)
    rw [hreceiver, hlevel] at hleast
    have hmore : (before.filter fun m => m.receiver = y.workerId).length ≤ received y.workerId :=
      ((List.sublist_append_left before [m]).filter _).length_le
    omega
  have hnodup : (v :: others.map WorkerHolder.workerId).Nodup := by
    refine List.nodup_cons.mpr ⟨fun hmem => ?_, hkeyed.nodup_workers.sublist (List.filter_sublist.map _)⟩
    obtain ⟨y, hy, heq⟩ := List.mem_map.mp hmem
    obtain ⟨-, hyes⟩ := List.mem_filter.mp hy
    exact of_decide_eq_true (Bool.and_eq_true_iff.mp hyes).1 (heq.trans hid.symm)
  have hsum := sum_length_filter BalanceMove.receiver (before ++ [m]) hnodup
  rw [List.map_cons, List.sum_cons, List.map_map] at hsum
  calc p.raising w m.task
      ≤ received v + (others.map fun y => received y.workerId).sum := Nat.add_le_add hown hothers
    _ = ((before ++ [m]).filter fun m => m.receiver ∈ v :: others.map WorkerHolder.workerId).length := hsum
    _ ≤ (before ++ [m]).length := List.filter_sublist.length_le
    _ ≤ moves.length := hprefix.length_le
    _ ≤ p.surplus := hmoved.length_le hkeyed

end

end CapabilityAllocatePolicy

end Scaler
