import Mathlib.Algebra.Order.BigOperators.Group.List
import Mathlib.Data.Rat.Floor
import Scaler.Collections.Outcome
import Scaler.Policy.EvenLoad

/-! `EvenLoadAllocatePolicy.balance`: what is above the mean, topped up to one task for each idle
worker. The quotient of the mean is a float, the ceiling of which is exact below 2^53 tasks. -/

namespace Scaler

open Collections

namespace EvenLoadAllocatePolicy

variable (p : EvenLoadAllocatePolicy)

def queuedTasksPerWorker : Dict WorkerID Int := p.workersToTaskIds.mapValues fun tasks => max 0 (tasks.size - 1)

def numberOfIdleWorkers : Int := p.workersToTaskIds.countValues fun tasks => tasks.size = 0

/-- `math.ceil(sum(values) / len(values))`. -/
def meanQueued (queued : Dict WorkerID Int) : Int := -((-queued.total) / queued.entries.length)

/-- The second pass: as much as is left from each worker in turn. -/
def topUp : List (WorkerID × Int) → Int → Dict WorkerID Int → Except Exn (Dict WorkerID Int)
  | [], _, balanceCount => .ok balanceCount
  | (worker, count) :: queued, totalToBeBalance, balanceCount =>
    if ¬totalToBeBalance ≥ 0 then .error .assertionError
    else if totalToBeBalance = 0 then .ok balanceCount
    else
      match balanceCount.get? worker with
      | none => .error .keyError
      | some balanced =>
        let leftover := count - balanced
        if leftover < 1 then topUp queued totalToBeBalance balanceCount
        else
          let toToBalance := min leftover totalToBeBalance
          topUp queued (totalToBeBalance - toToBalance) (balanceCount.set worker (balanced + toToBalance))

/-- `__get_balance_count_by_worker`. -/
def getBalanceCountByWorker : Except Exn (Dict WorkerID Int) :=
  let queued := p.queuedTasksPerWorker
  if ¬queued.entries.any fun e => e.2 ≠ 0 then .ok .empty
  else if p.numberOfIdleWorkers = 0 then .ok .empty
  else
    let balanceCount := queued.mapValues fun count => max 0 (count - meanQueued queued)
    let minimalAllocate := min p.numberOfIdleWorkers queued.total
    if balanceCount.total ≥ minimalAllocate then .ok balanceCount
    else topUp queued.entries (minimalAllocate - balanceCount.total) balanceCount

/-- `items[start:]` of a list. -/
def sliceFrom {α : Type} (items : List α) (start : Int) : List α :=
  if start < 0 then items.drop (items.length + start).toNat else items.drop start.toNat

/-- The most recently queued tasks of the worker. -/
def balanceOut (e : WorkerID × Int) : Except Exn (List TaskID) :=
  match p.workersToTaskIds.get? e.1 with
  | none => .error .keyError
  | some tasks => .ok (sliceFrom tasks.toList (-e.2))

def balance : Except Exn (Dict WorkerID (List TaskID)) :=
  match p.getBalanceCountByWorker with
  | .error e => .error e
  | .ok balanceCount => Dict.comprehend Prod.fst p.balanceOut (balanceCount.entries.filter fun e => e.2 ≠ 0) .empty

/-- What the counts leave of the queued tasks. -/
def leftover (queued : List (WorkerID × Int)) (balanceCount : Dict WorkerID Int) : Int :=
  (queued.map fun e => e.2 - (balanceCount.get? e.1).getD 0).sum

/-- Every worker has a count, between nothing and what it has queued. -/
def Within (queued : List (WorkerID × Int)) (balanceCount : Dict WorkerID Int) : Prop :=
  ∀ e ∈ queued, ∃ balanced, balanceCount.get? e.1 = some balanced ∧ 0 ≤ balanced ∧ balanced ≤ e.2

theorem leftover_set_of_not_mem {queued : List (WorkerID × Int)} {worker : WorkerID} (h : worker ∉ queued.map Prod.fst)
    (balanceCount : Dict WorkerID Int) (count : Int) :
    leftover queued (balanceCount.set worker count) = leftover queued balanceCount := by
  unfold leftover
  refine congrArg List.sum (List.map_congr_left fun e he => ?_)
  have hne : e.1 ≠ worker := fun heq => h (heq ▸ List.mem_map_of_mem he)
  rw [Dict.get?_set_ne _ hne]

theorem Within.set {queued : List (WorkerID × Int)} {balanceCount : Dict WorkerID Int} (h : Within queued balanceCount)
    {worker : WorkerID} (hworker : worker ∉ queued.map Prod.fst) (count : Int) :
    Within queued (balanceCount.set worker count) := by
  intro e he
  have hne : e.1 ≠ worker := fun heq => hworker (heq ▸ List.mem_map_of_mem he)
  rw [Dict.get?_set_ne _ hne]
  exact h e he

/-- The pass keeps every worker within what it has queued and places all that is to be balanced. -/
theorem topUp_ok {queued : List (WorkerID × Int)} {totalToBeBalance : Int} {balanceCount : Dict WorkerID Int}
    (hnodup : (queued.map Prod.fst).Nodup) (hpositive : 0 ≤ totalToBeBalance) (hwithin : Within queued balanceCount)
    (henough : totalToBeBalance ≤ leftover queued balanceCount) :
    ∃ counts, topUp queued totalToBeBalance balanceCount = .ok counts ∧ counts.keys = balanceCount.keys ∧
      Within queued counts ∧ (∀ w ∉ queued.map Prod.fst, counts.get? w = balanceCount.get? w) ∧
      counts.total = balanceCount.total + totalToBeBalance := by
  induction queued generalizing totalToBeBalance balanceCount with
  | nil =>
    have hzero : totalToBeBalance = 0 := by
      rw [leftover, List.map_nil, List.sum_nil] at henough
      omega
    exact ⟨balanceCount, rfl, rfl, hwithin, fun _ _ => rfl, by rw [hzero, add_zero]⟩
  | cons e queued ih =>
    obtain ⟨worker, count⟩ := e
    rw [List.map_cons, List.nodup_cons] at hnodup
    obtain ⟨balanced, hget, hnonneg, hle⟩ := hwithin _ List.mem_cons_self
    have hrest : Within queued balanceCount := fun e he => hwithin e (List.mem_cons_of_mem _ he)
    rw [leftover, List.map_cons, List.sum_cons, hget, Option.getD_some] at henough
    change totalToBeBalance ≤ count - balanced + leftover queued balanceCount at henough
    unfold topUp
    rw [if_neg (not_not.mpr hpositive)]
    split
    · next hzero =>
      exact ⟨balanceCount, rfl, rfl, hwithin, fun _ _ => rfl, by rw [hzero, add_zero]⟩
    · rw [hget]
      dsimp only
      split
      · next hfull =>
        obtain ⟨counts, hrun, hkeys, hcounts, hsame, htotal⟩ := ih hnodup.2 hpositive hrest (by omega)
        refine ⟨counts, hrun, hkeys, List.forall_mem_cons.mpr ⟨?_, hcounts⟩, fun w hw => ?_, htotal⟩
        · rw [hsame worker hnodup.1]
          exact ⟨balanced, hget, hnonneg, hle⟩
        · exact hsame w fun hmem => hw (List.mem_cons_of_mem _ hmem)
      · next hroom =>
        have hleft : totalToBeBalance - min (count - balanced) totalToBeBalance ≤
            leftover queued (balanceCount.set worker (balanced + min (count - balanced) totalToBeBalance)) := by
          rw [leftover_set_of_not_mem hnodup.1]
          have hrest : 0 ≤ leftover queued balanceCount := by
            refine List.sum_nonneg fun x hx => ?_
            obtain ⟨e, he, rfl⟩ := List.mem_map.mp hx
            obtain ⟨b, hb, -, hb'⟩ := hrest e he
            rw [hb, Option.getD_some]
            omega
          omega
        obtain ⟨counts, hrun, hkeys, hcounts, hsame, htotal⟩ :=
          ih hnodup.2 (by omega) (hrest.set hnodup.1 _) hleft
        refine ⟨counts, hrun, hkeys.trans (Dict.keys_set _ hget), List.forall_mem_cons.mpr ⟨?_, hcounts⟩, fun w hw => ?_, ?_⟩
        · rw [hsame worker hnodup.1, Dict.get?_set_self]
          exact ⟨_, rfl, by omega, by omega⟩
        · rw [List.map_cons, List.mem_cons, not_or] at hw
          rw [hsame w hw.2, Dict.get?_set_ne _ hw.1]
        · rw [htotal, Dict.total_set _ hget]
          omega

/-- What each worker has queued behind the task that it runs, in the order of the workers. -/
def queuedCounts : List Int := p.workersToTaskIds.entries.map fun e => max 0 (e.2.size - 1 : Int)

/-- A worker is idle and another has more than one task. -/
def Unbalanced : Prop :=
  (∃ w tasks, p.workersToTaskIds.get? w = some tasks ∧ tasks.size = 0) ∧
    ∃ w tasks, p.workersToTaskIds.get? w = some tasks ∧ 1 < tasks.size

/-- What is advised altogether when the workers are unbalanced. -/
def balanceTotal : Int :=
  max (p.queuedCounts.map fun count => max 0 (count - ⌈(p.queuedCounts.sum : ℚ) / p.queuedCounts.length⌉)).sum
    (min p.numberOfIdleWorkers p.queuedCounts.sum)

theorem total_queuedTasksPerWorker : p.queuedTasksPerWorker.total = p.queuedCounts.sum := by
  rw [Dict.total, queuedTasksPerWorker, Dict.mapValues, List.map_map]
  rfl

theorem meanQueued_eq :
    meanQueued p.queuedTasksPerWorker = ⌈(p.queuedCounts.sum : ℚ) / p.queuedCounts.length⌉ := by
  have hlength : p.queuedTasksPerWorker.entries.length = p.queuedCounts.length := by
    rw [queuedTasksPerWorker, Dict.mapValues, List.length_map, queuedCounts, List.length_map]
  rw [meanQueued, total_queuedTasksPerWorker, hlength, Rat.ceil_intCast_div_natCast]

theorem total_mapValues (f : Int → Int) :
    (p.queuedTasksPerWorker.mapValues f).total = (p.queuedCounts.map f).sum := by
  rw [Dict.total, Dict.mapValues, queuedTasksPerWorker, Dict.mapValues, queuedCounts, List.map_map, List.map_map, List.map_map]
  rfl

theorem queued_nonneg {e : WorkerID × Int} (he : e ∈ p.queuedTasksPerWorker.entries) : 0 ≤ e.2 := by
  obtain ⟨source, -, rfl⟩ := List.mem_map.mp he
  exact le_max_left 0 _

theorem any_queued_iff :
    (p.queuedTasksPerWorker.entries.any fun e => e.2 ≠ 0) = true ↔
      ∃ w tasks, p.workersToTaskIds.get? w = some tasks ∧ 1 < tasks.size := by
  rw [List.any_eq_true]
  constructor
  · rintro ⟨e, he, hpositive⟩
    obtain ⟨⟨w, tasks⟩, hmem, rfl⟩ := List.mem_map.mp he
    refine ⟨w, tasks, (Dict.mem_entries _ w tasks).mp hmem, ?_⟩
    have hne := of_decide_eq_true hpositive
    dsimp only at hne
    omega
  · rintro ⟨w, tasks, hget, hmany⟩
    refine ⟨_, List.mem_map.mpr ⟨(w, tasks), (Dict.mem_entries _ w tasks).mpr hget, rfl⟩, decide_eq_true ?_⟩
    dsimp only
    omega

theorem numberOfIdleWorkers_ne_zero_iff :
    p.numberOfIdleWorkers ≠ 0 ↔ ∃ w tasks, p.workersToTaskIds.get? w = some tasks ∧ tasks.size = 0 := by
  have hpos := Dict.countValues_pos (d := p.workersToTaskIds) (p := fun tasks => tasks.size = 0)
  simp only [decide_eq_true_eq] at hpos
  rw [numberOfIdleWorkers, Int.natCast_ne_zero, ← Nat.pos_iff_ne_zero, hpos]

theorem leftover_mapValues (queued : Dict WorkerID Int) (f : Int → Int) :
    leftover queued.entries (queued.mapValues f) = queued.total - (queued.mapValues f).total := by
  have hget : leftover queued.entries (queued.mapValues f) = (queued.entries.map fun e => e.2 - f e.2).sum := by
    refine congrArg List.sum (List.map_congr_left fun e he => ?_)
    rw [Dict.get?_mapValues, (Dict.mem_entries queued e.1 e.2).mp he]
    rfl
  have hsub : ∀ es : List (WorkerID × Int), (es.map fun e => e.2 - f e.2).sum =
      (es.map Prod.snd).sum - ((es.map fun e => (e.1, f e.2)).map Prod.snd).sum := by
    intro es
    induction es with
    | nil => rfl
    | cons e es ih =>
      simp only [List.map_cons, List.sum_cons, ih]
      omega
  rw [hget, hsub]
  rfl

theorem within_mapValues {queued : Dict WorkerID Int} (hqueued : ∀ e ∈ queued.entries, 0 ≤ e.2) {f : Int → Int}
    (hf : ∀ count, 0 ≤ count → 0 ≤ f count ∧ f count ≤ count) : Within queued.entries (queued.mapValues f) := by
  intro e he
  refine ⟨f e.2, ?_, hf e.2 (hqueued e he)⟩
  rw [Dict.get?_mapValues, (Dict.mem_entries queued e.1 e.2).mp he]
  rfl

theorem meanQueued_nonneg : 0 ≤ meanQueued p.queuedTasksPerWorker := by
  have htotal : 0 ≤ p.queuedTasksPerWorker.total := by
    refine List.sum_nonneg fun x hx => ?_
    obtain ⟨e, he, rfl⟩ := List.mem_map.mp hx
    exact p.queued_nonneg he
  rw [total_queuedTasksPerWorker] at htotal
  rw [meanQueued_eq]
  exact Int.ceil_nonneg (div_nonneg (Int.cast_nonneg htotal) (Nat.cast_nonneg _))

/-- The counts are within what is queued and add up to the claimed total. -/
theorem getBalanceCountByWorker_ok :
    ∃ counts, p.getBalanceCountByWorker = .ok counts ∧
      ((¬p.Unbalanced ∧ counts = .empty) ∨
        (p.Unbalanced ∧ counts.keys = p.workersToTaskIds.keys ∧ Within p.queuedTasksPerWorker.entries counts ∧
          counts.total = p.balanceTotal)) := by
  unfold getBalanceCountByWorker
  dsimp only
  split
  · next hqueued =>
    refine ⟨.empty, rfl, .inl ⟨fun h => hqueued ?_, rfl⟩⟩
    exact p.any_queued_iff.mpr h.2
  · next hqueued =>
    split
    · next hidle => exact ⟨.empty, rfl, .inl ⟨fun h => p.numberOfIdleWorkers_ne_zero_iff.mpr h.1 hidle, rfl⟩⟩
    · next hidle =>
      have hunbalanced : p.Unbalanced :=
        ⟨p.numberOfIdleWorkers_ne_zero_iff.mp hidle, p.any_queued_iff.mp (not_not.mp hqueued)⟩
      have hwithin : Within p.queuedTasksPerWorker.entries
          (p.queuedTasksPerWorker.mapValues fun count => max 0 (count - meanQueued p.queuedTasksPerWorker)) := by
        refine within_mapValues (fun e he => p.queued_nonneg he) fun count hcount => ?_
        have hmean := p.meanQueued_nonneg
        omega
      have htotal : p.balanceTotal =
          max (p.queuedTasksPerWorker.mapValues fun count => max 0 (count - meanQueued p.queuedTasksPerWorker)).total
            (min p.numberOfIdleWorkers p.queuedTasksPerWorker.total) := by
        rw [total_mapValues, meanQueued_eq, total_queuedTasksPerWorker]
        rfl
      have hkeys : (p.queuedTasksPerWorker.mapValues fun count => max 0 (count - meanQueued p.queuedTasksPerWorker)).keys =
          p.workersToTaskIds.keys := by
        rw [Dict.keys, Dict.mapValues, queuedTasksPerWorker, Dict.mapValues, List.map_map, List.map_map]
        rfl
      split
      · next hover => exact ⟨_, rfl, .inr ⟨hunbalanced, hkeys, hwithin, by rw [htotal, max_eq_left hover]⟩⟩
      · next hover =>
        have hleft := leftover_mapValues p.queuedTasksPerWorker
          fun count => max 0 (count - meanQueued p.queuedTasksPerWorker)
        have hpositive : 0 ≤ min p.numberOfIdleWorkers p.queuedTasksPerWorker.total -
            (p.queuedTasksPerWorker.mapValues fun count => max 0 (count - meanQueued p.queuedTasksPerWorker)).total := by
          omega
        obtain ⟨counts, hrun, hsame, hcounts, -, hsum⟩ :=
          topUp_ok p.queuedTasksPerWorker.nodup hpositive hwithin (by omega)
        exact ⟨counts, hrun, .inr ⟨hunbalanced, hsame.trans hkeys, hcounts, by omega⟩⟩

/-- The last tasks of a list that is longer. -/
theorem sliceFrom_neg {α : Type} {items : List α} {count : Int} (hpositive : 0 < count) (hle : count ≤ items.length) :
    sliceFrom items (-count) <:+ items ∧ ((sliceFrom items (-count)).length : Int) = count := by
  unfold sliceFrom
  rw [if_pos (by omega)]
  refine ⟨List.drop_suffix _ _, ?_⟩
  rw [List.length_drop]
  omega

/-- The advice for a worker. -/
def AdviceFor (p : EvenLoadAllocatePolicy) (e : WorkerID × Int) (tasks : List TaskID) : Prop :=
  ∃ ids, p.workersToTaskIds.get? e.1 = some ids ∧ tasks <:+ ids.toList ∧ tasks.length ≤ ids.size - 1 ∧ (tasks.length : Int) = e.2

theorem adviceFor_of_within {counts : Dict WorkerID Int} (hkeys : counts.keys = p.workersToTaskIds.keys)
    (hwithin : Within p.queuedTasksPerWorker.entries counts) {e : WorkerID × Int} (he : e ∈ counts.entries) (hne : e.2 ≠ 0) :
    ∃ tasks, p.balanceOut e = .ok tasks ∧ p.AdviceFor e tasks := by
  have hmem : e.1 ∈ p.workersToTaskIds.keys := hkeys ▸ List.mem_map_of_mem he
  obtain ⟨ids, hids⟩ := Option.isSome_iff_exists.mp ((Dict.mem_keys _ _).mp hmem)
  have hqueued : (e.1, max 0 (ids.size - 1 : Int)) ∈ p.queuedTasksPerWorker.entries :=
    List.mem_map.mpr ⟨(e.1, ids), (Dict.mem_entries _ _ _).mpr hids, rfl⟩
  obtain ⟨balanced, hget, hnonneg, hle⟩ := hwithin _ hqueued
  cases hget.symm.trans ((Dict.mem_entries counts e.1 e.2).mp he)
  dsimp only at hle
  have hsize : ids.toList.length = ids.size := List.length_reverse
  have hcount : 0 < e.2 ∧ e.2 ≤ ids.toList.length := by omega
  obtain ⟨hsuffix, hlength⟩ := sliceFrom_neg hcount.1 hcount.2
  exact ⟨sliceFrom ids.toList (-e.2), by rw [balanceOut, hids], ids, hids, hsuffix, by omega, hlength⟩

theorem sum_filter_ne_zero (es : List (WorkerID × Int)) : ((es.filter fun e => e.2 ≠ 0).map Prod.snd).sum = (es.map Prod.snd).sum := by
  induction es with
  | nil => rfl
  | cons e es ih =>
    by_cases he : e.2 = 0
    · rw [List.filter_cons_of_neg (by simpa using he), ih, List.map_cons, List.sum_cons, he, zero_add]
    · rw [List.filter_cons_of_pos (by simpa using he), List.map_cons, List.map_cons, List.sum_cons, List.sum_cons, ih]

/-- `balance` returns for every assignment: each worker keeps at least one task and gives up some of
its newest ones, and the total is what is above the mean, at least one task for each idle worker. -/
theorem balance_counts (p : EvenLoadAllocatePolicy) :
    ∃ advice, p.balance = .ok advice ∧
      (∀ w tasks, advice.get? w = some tasks → ∃ ids, p.workersToTaskIds.get? w = some ids ∧
        tasks <:+ ids.toList ∧ tasks.length ≤ ids.size - 1) ∧
      (p.Unbalanced → (advice.entries.map fun e => (e.2.length : Int)).sum = p.balanceTotal) ∧
      (¬p.Unbalanced → advice = .empty) := by
  obtain ⟨counts, hcounts, hcases⟩ := p.getBalanceCountByWorker_ok
  unfold balance
  rw [hcounts]
  rcases hcases with ⟨hbalanced, rfl⟩ | ⟨hunbalanced, hkeys, hwithin, htotal⟩
  · exact ⟨.empty, rfl, fun w tasks h => absurd h nofun, fun h => absurd h hbalanced, fun _ => rfl⟩
  · have hadvice : ∀ e ∈ counts.entries.filter fun e => e.2 ≠ 0, ∃ tasks, p.balanceOut e = .ok tasks ∧ p.AdviceFor e tasks := by
      intro e he
      obtain ⟨hmem, hne⟩ := List.mem_filter.mp he
      exact p.adviceFor_of_within hkeys hwithin hmem (of_decide_eq_true hne)
    obtain ⟨advice, hrun, -⟩ := Dict.comprehend_ok Prod.fst (fun e he => (hadvice e he).imp fun _ h => h.1) .empty
    have hnodup : ((.empty : Dict WorkerID (List TaskID)).keys ++ (counts.entries.filter fun e => e.2 ≠ 0).map Prod.fst).Nodup :=
      counts.nodup.sublist (List.filter_sublist.map _)
    obtain ⟨lists, hlists, hentries⟩ := Dict.entries_comprehend hnodup hrun
    have hall : List.Forall₂ p.AdviceFor (counts.entries.filter fun e => e.2 ≠ 0) lists := by
      refine ((List.forall₂_and_left _ _).mpr ⟨hadvice, hlists⟩).imp ?_
      rintro e tasks ⟨⟨tasks', hvalue, hfor⟩, htasks⟩
      cases hvalue.symm.trans htasks
      exact hfor
    refine ⟨advice, hrun, fun w tasks hget => ?_, fun _ => ?_, fun h => absurd hunbalanced h⟩
    · have hmem := (Dict.mem_entries advice w tasks).mpr hget
      rw [hentries, show (Dict.empty : Dict WorkerID (List TaskID)).entries = [] from rfl, List.nil_append,
        List.zip_map_left] at hmem
      obtain ⟨⟨e, tasks'⟩, hzip, heq⟩ := List.mem_map.mp hmem
      obtain ⟨rfl, rfl⟩ := Prod.mk.inj heq
      obtain ⟨ids, hids, hsuffix, hlength, -⟩ := List.forall₂_zip hall hzip
      exact ⟨ids, hids, hsuffix, hlength⟩
    · have hlengths : List.Forall₂ Eq (lists.map fun tasks => (tasks.length : Int))
          ((counts.entries.filter fun e => e.2 ≠ 0).map Prod.snd) := by
        rw [List.forall₂_map_left_iff, List.forall₂_map_right_iff]
        refine List.Forall₂.flip (hall.imp ?_)
        rintro e tasks ⟨ids, -, -, -, hlength⟩
        exact hlength
      rw [List.forall₂_eq_eq_eq] at hlengths
      have hsnd : advice.entries.map Prod.snd = lists := by
        rw [hentries]
        refine List.map_snd_zip ?_
        rw [List.length_map, hall.length_eq]
      rw [← htotal, Dict.total, ← sum_filter_ne_zero, ← hlengths, ← hsnd, List.map_map]
      rfl

end EvenLoadAllocatePolicy

end Scaler
