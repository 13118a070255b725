import Mathlib.Algebra.Order.BigOperators.Group.List
import Mathlib.Algebra.Order.Group.Int
import Scaler.Policy.CapabilityIndex
import Scaler.Scaling.Commands

/-! Who can run a task, once for `CapabilityAllocatePolicy` and once for `CapabilityScalingPolicy`.
The allocator compares the names of the capabilities. The scaling policy lets the first task of
each set of names stand for the set, and the manager compares this task's values with its own. -/

namespace Scaler

open Collections

/-- An idle worker with the capabilities and room in its queue, in some run of the allocator. -/
structure CapabilityAllocatePolicy.Idle (p : CapabilityAllocatePolicy) (w : WorkerID) (capabilities : Capabilities) :
    Prop where
  reached : ∃ cs, Along call AssignsNew empty cs ∧ cs.foldlM call empty = .ok p
  registered : ∃ size, 0 < size ∧
    p.workerIdToWorker.get? w = some ⟨w, (capabilities.entries.map Prod.fst).dedup, size, Dict.empty⟩

/-- The allocator may give a task with these capabilities to the worker. -/
def CapabilityAllocatePolicy.Accepts (p : CapabilityAllocatePolicy) (w : WorkerID) (task : Capabilities) : Prop :=
  ∃ holder ∈ p.availableWorkers task.entries, holder.workerId = w

namespace CapabilityScalingPolicy

/-- The count that a manager with the heartbeat's capabilities derives from the command. -/
def derivedCount (information : InformationSnapshot) (heartbeat : WorkerManagerHeartbeat) : Nat :=
  extractDesiredCount (buildSetDesiredCommand (computeDesiredPerCapset (groupTasksByCapability information) heartbeat))
    heartbeat.capabilities

/-- A worker is asked for exactly if one could run some task. -/
structure Agrees (p : CapabilityAllocatePolicy) (w : WorkerID) (information : InformationSnapshot)
    (heartbeat : WorkerManagerHeartbeat) : Prop where
  wanted : (∃ task ∈ information.tasks, p.Accepts w task) → 1 ≤ derivedCount information heartbeat
  unwanted : (∀ task ∈ information.tasks, ¬p.Accepts w task) → derivedCount information heartbeat = 0

/-- The first task with its set of names. -/
def Represents (information : InformationSnapshot) (task : Capabilities) : Prop :=
  information.tasks.find? (fun task' => keySet task' = keySet task) = some task

/-- If the names of some task are all offered, then those of some task that stands for its set are
offered with the very values it asks for. -/
def Represented (information : InformationSnapshot) (own : Capabilities) : Prop :=
  (∃ task ∈ information.tasks, keySet task ⊆ keySet own) →
    ∃ task, Represents information task ∧ itemsSubset task own = true

end CapabilityScalingPolicy

namespace CapabilityAllocatePolicy

theorem Idle.exact {p : CapabilityAllocatePolicy} {w : WorkerID} {own : Capabilities} (h : p.Idle w own) : p.Exact := by
  obtain ⟨cs, hcs, hrun⟩ := h.reached
  obtain ⟨p', hrun', hexact⟩ := calls_exact exact_empty hcs
  rw [hrun] at hrun'
  cases hrun'
  exact hexact

theorem mem_dedup_names {own : Capabilities} {name : String} :
    name ∈ (own.entries.map Prod.fst).dedup ↔ name ∈ keySet own := by
  rw [List.mem_dedup, keySet, List.mem_toFinset, Dict.keys]

/-- The allocator asks for the names only. -/
theorem Idle.accepts_iff {p : CapabilityAllocatePolicy} {w : WorkerID} {own task : Capabilities} (h : p.Idle w own) :
    p.Accepts w task ↔ keySet task ⊆ keySet own := by
  obtain ⟨size, hsize, hget⟩ := h.registered
  have havailable : ∀ {x}, x ∈ p.availableWorkers task.entries ↔
      p.Candidate ⟨⟨0⟩, ⟨0⟩, [], ⟨0⟩, [], task.entries⟩ x.workerId x :=
    fun {x} => @mem_availableWorkers _ h.exact ⟨⟨0⟩, ⟨0⟩, [], ⟨0⟩, [], task.entries⟩ x
  constructor
  · rintro ⟨x, hx, rfl⟩ name hname
    obtain ⟨hreg, hoffers, -⟩ := havailable.mp hx
    rw [hget] at hreg
    have hnames : x.capabilities = (own.entries.map Prod.fst).dedup :=
      congrArg WorkerHolder.capabilities (Option.some.inj hreg).symm
    obtain ⟨value, hvalue⟩ := Option.isSome_iff_exists.mp (mem_keySet.mp hname)
    exact mem_dedup_names.mp (hnames ▸ hoffers (name, value) ((Dict.mem_entries task name value).mpr hvalue))
  · intro hsubset
    refine ⟨⟨w, (own.entries.map Prod.fst).dedup, size, Dict.empty⟩, havailable.mpr ⟨hget, ?_, hsize⟩, rfl⟩
    rintro ⟨name, value⟩ hmem
    have hname : name ∈ keySet task := by
      rw [mem_keySet, (Dict.mem_entries task name value).mp hmem]
      rfl
    exact mem_dedup_names.mpr (hsubset hname)

end CapabilityAllocatePolicy

namespace CapabilityScalingPolicy

/-- The tasks with the names, in their order. -/
def sharing (tasks : List Capabilities) (keys : Finset String) : List Capabilities :=
  tasks.filter fun task => keySet task = keys

theorem sharing_append (tasks : List Capabilities) (task : Capabilities) (keys : Finset String) :
    sharing (tasks ++ [task]) keys = if keys = keySet task then sharing tasks keys ++ [task] else sharing tasks keys := by
  rw [sharing, List.filter_append]
  by_cases hkeys : keys = keySet task
  · simp [sharing, hkeys]
  · simpa [sharing, hkeys] using fun h => hkeys h.symm

/-- A group holds the tasks with its names, and only names of tasks have one. -/
theorem get?_groupTasksByCapability {information : InformationSnapshot} {keys : Finset String}
    {tasks : List Capabilities} :
    (groupTasksByCapability information).get? keys = some tasks ↔
      sharing information.tasks keys = tasks ∧ tasks ≠ [] := by
  obtain ⟨all, workers⟩ := information
  rw [groupTasksByCapability]
  induction all using List.reverseRecOn generalizing keys tasks with
  | nil =>
    simp only [sharing, List.foldl_nil, Dict.get?_empty, List.filter_nil, reduceCtorEq, false_iff]
    rintro ⟨rfl, hne⟩
    exact hne rfl
  | append_singleton all task ih =>
    rw [List.foldl_append, List.foldl_cons, List.foldl_nil, Dict.get?_set, sharing_append]
    by_cases hkeys : keys = keySet task
    · subst hkeys
      have hbefore : ((all.foldl
          (fun d task => d.set (keySet task) ((d.get? (keySet task)).getD [] ++ [task])) Dict.empty).get?
            (keySet task)).getD [] = sharing all (keySet task) := by
        cases hget : (all.foldl
            (fun d task => d.set (keySet task) ((d.get? (keySet task)).getD [] ++ [task])) Dict.empty).get?
              (keySet task) with
        | some before => exact (ih.mp hget).1.symm
        | none =>
          by_contra hne
          have hsome := ih.mpr ⟨rfl, fun h => hne h.symm⟩
          rw [hget] at hsome
          cases hsome
      rw [if_pos rfl, if_pos rfl, hbefore, Option.some.injEq]
      constructor
      · rintro rfl
        exact ⟨rfl, List.append_ne_nil_of_right_ne_nil _ (List.cons_ne_nil _ _)⟩
      · exact And.left
    · rw [if_neg hkeys, if_neg hkeys]
      exact ih

theorem represents_iff {information : InformationSnapshot} {task : Capabilities} :
    Represents information task ↔ ∃ rest, sharing information.tasks (keySet task) = task :: rest := by
  rw [Represents, ← List.head?_filter, List.head?_eq_some_iff]
  rfl

theorem keySet_of_mem_sharing {tasks : List Capabilities} {keys : Finset String} {task : Capabilities}
    (h : task ∈ sharing tasks keys) : keySet task = keys := of_decide_eq_true (List.mem_filter.mp h).2

/-- Each set of names has one request, of its first task. -/
theorem mem_computeDesiredPerCapset {information : InformationSnapshot} {heartbeat : WorkerManagerHeartbeat}
    {task : Capabilities} :
    (∃ desired, (task, desired) ∈ computeDesiredPerCapset (groupTasksByCapability information) heartbeat) ↔
      Represents information task := by
  rw [represents_iff]
  constructor
  · rintro ⟨desired, hmem⟩
    obtain ⟨⟨keys, tasks⟩, hentry, hdesired⟩ := List.mem_filterMap.mp hmem
    obtain ⟨hsharing, -⟩ := get?_groupTasksByCapability.mp ((Dict.mem_entries _ _ _).mp hentry)
    cases tasks with
    | nil => cases hdesired
    | cons first rest =>
      cases hdesired
      have hkeys : keySet task = keys := keySet_of_mem_sharing (by rw [hsharing]; exact List.mem_cons_self)
      exact ⟨rest, hkeys ▸ hsharing⟩
  · rintro ⟨rest, hsharing⟩
    have hentry := (Dict.mem_entries _ _ _).mpr
      (get?_groupTasksByCapability.mpr ⟨hsharing, List.cons_ne_nil task rest⟩)
    exact ⟨_, List.mem_filterMap.mpr ⟨_, hentry, rfl⟩⟩

/-- A manager with room for a worker is asked for one at least under each set of names. -/
theorem one_le_of_mem {information : InformationSnapshot} {heartbeat : WorkerManagerHeartbeat}
    (hmax : heartbeat.maxTaskConcurrency = -1 ∨ 1 ≤ heartbeat.maxTaskConcurrency) {entry : Capabilities × Int}
    (h : entry ∈ computeDesiredPerCapset (groupTasksByCapability information) heartbeat) : 1 ≤ entry.2 := by
  obtain ⟨⟨keys, tasks⟩, -, hdesired⟩ := List.mem_filterMap.mp h
  cases tasks with
  | nil => cases hdesired
  | cons first rest =>
    cases hdesired
    dsimp only
    split
    · omega
    · omega

theorem one_le_derivedCount_iff {information : InformationSnapshot} {heartbeat : WorkerManagerHeartbeat}
    (hmax : heartbeat.maxTaskConcurrency = -1 ∨ 1 ≤ heartbeat.maxTaskConcurrency) :
    1 ≤ derivedCount information heartbeat ↔
      ∃ task, Represents information task ∧ itemsSubset task heartbeat.capabilities = true := by
  have hcount := extractDesiredCount_build
    (computeDesiredPerCapset (groupTasksByCapability information) heartbeat) heartbeat.capabilities
  rw [derivedCount]
  constructor
  · intro hpositive
    cases hserved : (computeDesiredPerCapset (groupTasksByCapability information) heartbeat).filter
        fun entry => itemsSubset entry.1 heartbeat.capabilities with
    | nil =>
      rw [hserved, List.map_nil, List.sum_nil] at hcount
      omega
    | cons entry rest =>
      have hentry : entry ∈ (computeDesiredPerCapset (groupTasksByCapability information) heartbeat).filter
          fun entry => itemsSubset entry.1 heartbeat.capabilities := by
        rw [hserved]
        exact List.mem_cons_self
      obtain ⟨hmem, hitems⟩ := List.mem_filter.mp hentry
      exact ⟨entry.1, mem_computeDesiredPerCapset.mp ⟨entry.2, hmem⟩, hitems⟩
  · rintro ⟨task, hrepresents, hitems⟩
    obtain ⟨desired, hmem⟩ := mem_computeDesiredPerCapset.mpr hrepresents
    have hone : 1 ≤ desired := one_le_of_mem hmax hmem
    have hserved : max 0 desired ∈
        ((computeDesiredPerCapset (groupTasksByCapability information) heartbeat).filter
          fun entry => itemsSubset entry.1 heartbeat.capabilities).map fun entry => max 0 entry.2 :=
      List.mem_map.mpr ⟨(task, desired), List.mem_filter.mpr ⟨hmem, hitems⟩, rfl⟩
    have hle := List.single_le_sum ?_ _ hserved
    · omega
    · intro count hcount
      obtain ⟨entry, -, rfl⟩ := List.mem_map.mp hcount
      exact le_max_left 0 entry.2

theorem Represents.mem {information : InformationSnapshot} {task : Capabilities} (h : Represents information task) :
    task ∈ information.tasks := List.mem_of_find?_eq_some h

/-- Allocation and scaling agree exactly when the tasks that stand for the sets ask for the
manager's values. No worker is started in vain: only one direction can fail. -/
theorem agrees_iff_represented {p : CapabilityAllocatePolicy} {w : WorkerID} {information : InformationSnapshot}
    {heartbeat : WorkerManagerHeartbeat} (hidle : p.Idle w heartbeat.capabilities)
    (hmax : heartbeat.maxTaskConcurrency = -1 ∨ 1 ≤ heartbeat.maxTaskConcurrency) :
    Agrees p w information heartbeat ↔ Represented information heartbeat.capabilities := by
  constructor
  · rintro hagrees ⟨task, hmem, hkeys⟩
    exact (one_le_derivedCount_iff hmax).mp (hagrees.wanted ⟨task, hmem, hidle.accepts_iff.mpr hkeys⟩)
  · intro hrepresented
    refine ⟨?_, ?_⟩
    · rintro ⟨task, hmem, haccepts⟩
      exact (one_le_derivedCount_iff hmax).mpr (hrepresented ⟨task, hmem, hidle.accepts_iff.mp haccepts⟩)
    · intro hnone
      by_contra hcount
      obtain ⟨task, hrepresents, hitems⟩ := (one_le_derivedCount_iff hmax).mp (Nat.one_le_iff_ne_zero.mpr hcount)
      exact hnone task hrepresents.mem (hidle.accepts_iff.mpr (keySet_subset hitems))

/-- The capability with a value. -/
def gpu (value : Int) : Capabilities := Dict.empty.set "gpu" value

/-- The allocator that a worker with the capability has just joined. -/
def gpuWorker (value : Int) : CapabilityAllocatePolicy :=
  (CapabilityAllocatePolicy.empty.addWorker ⟨1⟩ (gpu value).entries 2).2

theorem gpuWorker_idle (value : Int) : (gpuWorker value).Idle ⟨1⟩ (gpu value) where
  reached := ⟨[.addWorker ⟨1⟩ (gpu value).entries 2], Along.cons rfl trivial trivial, rfl⟩
  registered := ⟨2, by decide, rfl⟩

theorem agrees_iff_represented_gpu :
    Agrees (gpuWorker 1) ⟨1⟩ ⟨[gpu 1, .empty], 0⟩ ⟨[1], 4, gpu 1⟩ ↔ Represented ⟨[gpu 1, .empty], 0⟩ (gpu 1) :=
  agrees_iff_represented (gpuWorker_idle 1) (.inr (by decide))

/-- A worker whose capability has no limit runs a task that asks for one of it, but the manager of
such workers is asked for none. -/
theorem unlimited_capability_not_started :
    ¬Agrees (gpuWorker (-1)) ⟨1⟩ ⟨[gpu 1], 0⟩ ⟨[1], -1, gpu (-1)⟩ := by
  intro hagrees
  have haccepts : (gpuWorker (-1)).Accepts ⟨1⟩ (gpu 1) := (gpuWorker_idle (-1)).accepts_iff.mpr (by decide +kernel)
  have hone := hagrees.wanted ⟨gpu 1, List.mem_cons_self, haccepts⟩
  revert hone
  decide +kernel

end CapabilityScalingPolicy

end Scaler
