import Mathlib.Data.List.Flatten
import Mathlib.Data.List.Nodup
import Mathlib.Data.List.Pairwise
import Mathlib.Logic.Relation
import Scaler.Adapter.BatchBackend

/-! Where the tasks of `AWSBatchExecutionBackend` are, and what a cancel reaches. A cancel that comes
before the job is known does nothing, and one that fails is only logged. -/

namespace Scaler

open Collections

namespace Adapter

namespace AWSBatch

/-- The children of an array job are between 2 and 10000, and each index maps back to the task
whose payload the child runs. -/
def Job.Ok : Job → Prop
  | .single _ _ => True
  | .array _ size payloads indexToTaskId =>
    arrayJobMinBatchSize ≤ size ∧ size ≤ arrayJobMaxBatchSize ∧ payloads.length = size ∧
      ∀ index, indexToTaskId.get? index = payloads[index]?

theorem Job.mem_tasks_of_runs {job : Job} {t : TaskID} {id : Text} (h : job.Runs t id) : t ∈ job.tasks := by
  cases job with
  | single jobId task => exact List.mem_singleton.mpr h.1
  | array jobId size payloads indexToTaskId =>
    obtain ⟨index, hindex, -⟩ := h
    exact List.mem_of_getElem? hindex

/-- A job that runs no task twice runs it under one identifier. -/
theorem Job.runs_unique {job : Job} (hnodup : job.tasks.Nodup) {t : TaskID} {id id' : Text} (h : job.Runs t id)
    (h' : job.Runs t id') : id = id' := by
  cases job with
  | single jobId task => exact h.2.trans h'.2.symm
  | array jobId size payloads indexToTaskId =>
    obtain ⟨index, hindex, rfl⟩ := h
    obtain ⟨index', hindex', rfl⟩ := h'
    have hlt := (List.getElem?_eq_some_iff.mp hindex).1
    rw [(List.getElem?_inj hlt hnodup).mp (hindex.trans hindex'.symm)]

namespace Submission

structure Ok (s : Submission) : Prop where
  nonempty : s.batch ≠ []
  bounded : s.batch.length ≤ arrayJobMaxBatchSize
  stored : s.stored <+: s.batch
  entries : s.indexToTaskId.entries = s.stored.zipIdx.map Prod.swap
  complete : arrayJobMinBatchSize ≤ s.batch.length → s.stage ≠ .putObject → s.stored = s.batch

theorem ok_new (large : TaskID → Bool) {batch : List TaskID} (hne : batch ≠ [])
    (hbounded : batch.length ≤ arrayJobMaxBatchSize) : (new large batch).Ok where
  nonempty := hne
  bounded := hbounded
  stored := List.nil_prefix
  entries := rfl
  complete := by
    intro hsize hstage
    exact absurd (if_pos (.inl hsize)) hstage

@[simp] theorem putObject_batch (s : Submission) : s.putObject.batch = s.batch := by
  rw [putObject]
  split
  · split <;> rfl
  · rfl

theorem Ok.putObject {s : Submission} (h : s.Ok) : s.putObject.Ok := by
  by_cases hsize : arrayJobMinBatchSize ≤ s.batch.length
  · rw [Submission.putObject, if_pos hsize]
    split
    next hnone => exact h
    next task htask =>
      have hlt := (List.getElem?_eq_some_iff.mp htask).1
      have hstored : s.stored ++ [task] <+: s.batch := by
        obtain ⟨rest, hrest⟩ := h.stored
        rw [← hrest, List.getElem?_append_right (Nat.le_refl _), Nat.sub_self] at htask
        cases rest with
        | nil => cases htask
        | cons head rest =>
          obtain rfl := Option.some.inj htask
          exact ⟨rest, by rw [← hrest, List.append_assoc]; rfl⟩
      refine ⟨h.nonempty, h.bounded, hstored, ?_, fun _ hcomplete => ?_⟩
      · have hnew : s.stored.length ∉ s.indexToTaskId.entries.map Prod.fst := by
          rw [h.entries]
          intro hmem
          simp only [List.map_map, List.mem_map] at hmem
          obtain ⟨entry, hentry, hindex⟩ := hmem
          have hbound := List.snd_lt_of_mem_zipIdx hentry
          simp only [Function.comp_apply, Prod.fst_swap] at hindex
          omega
        have hset : (s.indexToTaskId.set s.stored.length task).entries =
            s.indexToTaskId.entries ++ [(s.stored.length, task)] := Dict.setIn_of_not_mem hnew
        simp only [hset, h.entries, List.zipIdx_append, List.map_append]
        simp
      · refine hstored.eq_of_length ?_
        simp only [List.length_append, List.length_singleton]
        by_contra hmore
        have hlt' : s.stored.length + 1 < s.batch.length := by omega
        exact hcomplete (if_pos hlt')
  · rw [Submission.putObject, if_neg hsize]
    exact ⟨h.nonempty, h.bounded, h.stored, h.entries, fun hlarge => absurd hlarge hsize⟩

end Submission

namespace ExecutionBackend

/-- The pending batch, the batches that are being submitted, the jobs and the failed submissions. -/
def places (b : ExecutionBackend) : List TaskID :=
  b.batchPending ++ b.submissions.flatMap Submission.batch ++ b.jobs.flatMap Job.tasks ++ b.failed

/-- `execute` is called for distinct tasks. -/
def Lawful (b : ExecutionBackend) : BackendEvent → Prop
  | .execute task => task ∉ b.executed
  | _ => True

/-- A cancel comes while the job of its task is known, or after the submission failed, and the
service accepts the request to terminate. -/
def Keeps (b : ExecutionBackend) : BackendEvent → Prop
  | .onCancel task => b.taskIdToBatchJobId.contains task = true ∨ task ∈ b.failed
  | .terminateFailed _ => False
  | _ => True

def LawfulStep (large : TaskID → Bool) (b c : ExecutionBackend) : Prop :=
  ∃ event, b.Lawful event ∧ b.step large event = some c

def KeptStep (large : TaskID → Bool) (b c : ExecutionBackend) : Prop :=
  ∃ event, b.Lawful event ∧ b.Keeps event ∧ b.step large event = some c

structure Wf (b : ExecutionBackend) : Prop where
  placed : b.places.Perm b.accepted
  nodup : (b.loading ++ b.accepted).Nodup
  executed : ∀ t ∈ b.loading ++ b.accepted, t ∈ b.executed
  submissions : ∀ s ∈ b.submissions, s.Ok
  jobs : ∀ job ∈ b.jobs, job.Ok
  ids : ∀ t id, b.taskIdToBatchJobId.get? t = some id → ∃ job ∈ b.jobs, job.Runs t id
  cancels : ∀ cancel ∈ b.cancels, ∃ job ∈ b.jobs, job.Runs cancel.1 cancel.2
  done : ∀ t ∈ b.doneFutures, t ∈ b.failed ∨ t ∈ b.jobs.flatMap Job.tasks

/-- The tasks that still wait for a job. -/
def waits (b : ExecutionBackend) : List TaskID :=
  b.loading ++ b.batchPending ++ b.submissions.flatMap Submission.batch

/-- The task gets no job any more, and the one it has was asked to terminate. -/
def Ended (b : ExecutionBackend) (t : TaskID) : Prop :=
  t ∈ b.executed ∧ t ∉ b.waits ∧ ∀ job ∈ b.jobs, ∀ id, job.Runs t id → id ∈ b.terminated

theorem perm_eraseIdx {submissions : List Submission} {number : Nat} {s : Submission}
    (h : submissions[number]? = some s) :
    (submissions.flatMap Submission.batch).Perm
      (s.batch ++ (submissions.eraseIdx number).flatMap Submission.batch) := by
  obtain ⟨hlt, rfl⟩ := List.getElem?_eq_some_iff.mp h
  exact (List.getElem_cons_eraseIdx_perm hlt).symm.flatMap_right Submission.batch

theorem flatMap_set {submissions : List Submission} {number : Nat} {s s' : Submission}
    (h : submissions[number]? = some s) (hbatch : s'.batch = s.batch) :
    (submissions.set number s').flatMap Submission.batch = submissions.flatMap Submission.batch := by
  obtain ⟨hlt, rfl⟩ := List.getElem?_eq_some_iff.mp h
  rw [List.flatMap_def, List.flatMap_def, List.map_set, hbatch]
  congr 1
  refine List.ext_getElem? fun i => ?_
  rw [List.getElem?_set]
  split
  next heq =>
    subst heq
    simp [hlt]
  · rfl

@[simp] theorem flushPendingBatch_batchPending (large : TaskID → Bool) (b : ExecutionBackend) :
    (b.flushPendingBatch large).batchPending = [] := by
  rw [flushPendingBatch]
  split
  next hnil => exact hnil
  · rfl

@[simp] theorem onSubmitted_batchPending (b : ExecutionBackend) (s : Submission) (jobId : Text) :
    (b.onSubmitted s jobId).batchPending = b.batchPending := by
  rw [onSubmitted]
  split
  · rfl
  · split <;> rfl

namespace Wf

variable {b : ExecutionBackend}

theorem nodup_places (h : b.Wf) : b.places.Nodup :=
  h.placed.nodup_iff.mpr (List.nodup_append.mp h.nodup).2.1

theorem nodup_jobs (h : b.Wf) : (b.jobs.flatMap Job.tasks).Nodup := by
  have hplaces := (List.nodup_append.mp h.nodup_places).1
  exact (List.nodup_append.mp hplaces).2.1

/-- A task runs under one identifier. -/
theorem runs_unique (h : b.Wf) {job job' : Job} (hjob : job ∈ b.jobs) (hjob' : job' ∈ b.jobs) {t : TaskID}
    {id id' : Text} (hruns : job.Runs t id) (hruns' : job'.Runs t id') : id = id' := by
  obtain ⟨hnodup, hdisjoint⟩ := List.nodup_flatMap.mp h.nodup_jobs
  by_cases hsame : job = job'
  · subst hsame
    exact Job.runs_unique (hnodup job hjob) hruns hruns'
  · have hsymm : Std.Symm (Function.onFun List.Disjoint Job.tasks) := ⟨fun _ _ h _ ht ht' => h ht' ht⟩
    have hapart := hdisjoint.forall hjob hjob' hsame
    exact absurd (Job.mem_tasks_of_runs hruns') (hapart (Job.mem_tasks_of_runs hruns))

/-- A task with a job, or with a failed submission, does not wait. -/
theorem not_waits (h : b.Wf) {t : TaskID} (ht : t ∈ b.jobs.flatMap Job.tasks ++ b.failed) : t ∉ b.waits := by
  have hplaces := h.nodup_places
  rw [places, List.append_assoc, List.nodup_append] at hplaces
  intro hwaits
  rw [waits, List.append_assoc, List.mem_append] at hwaits
  obtain hloading | hbatches := hwaits
  · have haccepted : t ∈ b.accepted := by
      refine h.placed.mem_iff.mp ?_
      rw [places, List.append_assoc]
      exact List.mem_append_right _ ht
    exact (List.nodup_append.mp h.nodup).2.2 t hloading t haccepted rfl
  · exact hplaces.2.2 t hbatches t ht rfl

theorem mem_executed (h : b.Wf) {t : TaskID} (ht : t ∈ b.places) : t ∈ b.executed :=
  h.executed t (List.mem_append_right _ (h.placed.mem_iff.mp ht))

/-- A failed submission leaves no job. -/
theorem not_runs_of_failed (h : b.Wf) {t : TaskID} (ht : t ∈ b.failed) {job : Job} (hjob : job ∈ b.jobs) (id : Text) :
    ¬job.Runs t id := by
  intro hruns
  have hplaces := h.nodup_places
  rw [places, List.nodup_append] at hplaces
  have hmem : t ∈ b.jobs.flatMap Job.tasks := List.mem_flatMap.mpr ⟨job, hjob, Job.mem_tasks_of_runs hruns⟩
  exact hplaces.2.2 t (List.mem_append_right _ hmem) t ht rfl

theorem execute (h : b.Wf) {t : TaskID} (hnew : t ∉ b.executed) :
    Wf { b with loading := b.loading ++ [t], executed := b.executed ++ [t] } :=
  { h with
    nodup := by
      have hfresh : t ∉ b.loading ++ b.accepted := fun hmem => hnew (h.executed t hmem)
      have hperm : ((b.loading ++ [t]) ++ b.accepted).Perm (t :: (b.loading ++ b.accepted)) := by
        rw [List.append_assoc]
        exact List.perm_middle
      exact hperm.nodup_iff.mpr (List.nodup_cons.mpr ⟨hfresh, h.nodup⟩)
    executed := by
      intro t' hmem
      simp only [List.mem_append, List.mem_singleton] at hmem ⊢
      obtain (hload | heq) | haccepted := hmem
      · exact .inl (h.executed t' (List.mem_append_left _ hload))
      · exact .inr heq
      · exact .inl (h.executed t' (List.mem_append_right _ haccepted)) }

theorem unload (h : b.Wf) (t : TaskID) : Wf { b with loading := b.loading.erase t } :=
  { h with
    nodup := h.nodup.sublist (List.erase_sublist.append_right b.accepted)
    executed := fun t' hmem => h.executed t' ((List.erase_sublist.append_right b.accepted).subset hmem) }

theorem collect (h : b.Wf) {t : TaskID} (ht : t ∈ b.loading) (now : ℚ) : (b.collect t now).Wf :=
  { h with
    placed := by
      have hplaced := h.placed
      rw [List.perm_iff_count] at hplaced ⊢
      intro t'
      have hcount := hplaced t'
      simp only [places, ExecutionBackend.collect, List.count_append] at hcount ⊢
      omega
    nodup := by
      have hperm : (b.loading.erase t ++ (b.accepted ++ [t])).Perm (b.loading ++ b.accepted) := by
        rw [List.perm_iff_count]
        intro t'
        have hcount := (List.perm_cons_erase ht).count_eq t'
        simp only [List.count_append, List.count_cons, List.count_nil] at hcount ⊢
        omega
      exact hperm.nodup_iff.mpr h.nodup
    executed := by
      intro t' hmem
      simp only [ExecutionBackend.collect, List.mem_append, List.mem_singleton] at hmem
      obtain hload | haccepted | rfl := hmem
      · exact h.executed t' (List.mem_append_left _ (List.mem_of_mem_erase hload))
      · exact h.executed t' (List.mem_append_right _ haccepted)
      · exact h.executed t' (List.mem_append_left _ ht) }

theorem flush (h : b.Wf) (large : TaskID → Bool) (hbounded : b.batchPending.length ≤ arrayJobMaxBatchSize) :
    (b.flushPendingBatch large).Wf := by
  rw [flushPendingBatch]
  split
  · exact h
  next task tasks hpending =>
    rw [hpending] at hbounded
    refine { h with placed := ?_, submissions := ?_ }
    · have hplaced := h.placed
      rw [List.perm_iff_count] at hplaced ⊢
      intro t
      have hcount := hplaced t
      simp only [places, hpending, List.count_append, List.flatMap_append, List.flatMap_cons, List.flatMap_nil,
        Submission.new, List.count_nil] at hcount ⊢
      omega
    · intro s hs
      obtain hs | hs := List.mem_append.mp hs
      · exact h.submissions s hs
      · rw [List.mem_singleton.mp hs]
        exact Submission.ok_new large (List.cons_ne_nil task tasks) hbounded

theorem setSubmission (h : b.Wf) {number : Nat} {s s' : Submission} (hs : b.submissions[number]? = some s)
    (hok : s'.Ok) (hbatch : s'.batch = s.batch) : Wf { b with submissions := b.submissions.set number s' } :=
  { h with
    placed := by
      have hplaced := h.placed
      rw [places] at hplaced ⊢
      rw [flatMap_set hs hbatch]
      exact hplaced
    submissions := by
      intro s'' hmem
      obtain hmem | rfl := List.mem_or_eq_of_mem_set hmem
      · exact h.submissions s'' hmem
      · exact hok }

theorem raised (h : b.Wf) {number : Nat} {s : Submission} (hs : b.submissions[number]? = some s) :
    ({ b with submissions := b.submissions.eraseIdx number }.onRaised s).Wf :=
  { h with
    placed := by
      have hplaced := h.placed
      rw [List.perm_iff_count] at hplaced ⊢
      intro t
      have hcount := hplaced t
      have herase := (perm_eraseIdx hs).count_eq t
      simp only [places, onRaised, List.count_append] at hcount herase ⊢
      omega
    submissions := fun s' hmem => h.submissions s' (List.mem_of_mem_eraseIdx hmem)
    done := by
      intro t hdone
      simp only [onRaised, List.mem_append, List.mem_filter] at hdone ⊢
      obtain hdone | ⟨hbatch, -⟩ := hdone
      · obtain hfailed | hjob := h.done t hdone
        · exact .inl (.inl hfailed)
        · exact .inr hjob
      · exact .inl (.inr hbatch) }

/-- A job that takes the place of a batch. -/
theorem addJob (h : b.Wf) {number : Nat} {s : Submission} (hs : b.submissions[number]? = some s) {job : Job}
    (htasks : job.tasks = s.batch) (hok : job.Ok) {ids : Dict TaskID Text}
    (hids : ∀ t id, ids.get? t = some id → b.taskIdToBatchJobId.get? t = some id ∨ job.Runs t id) :
    Wf { b with
      submissions := b.submissions.eraseIdx number
      jobs := b.jobs ++ [job]
      taskIdToBatchJobId := ids } :=
  { h with
    placed := by
      have hplaced := h.placed
      rw [List.perm_iff_count] at hplaced ⊢
      intro t
      have hcount := hplaced t
      have herase := (perm_eraseIdx hs).count_eq t
      simp only [places, List.count_append, List.flatMap_append, List.flatMap_cons, List.flatMap_nil, htasks,
        List.count_nil] at hcount herase ⊢
      omega
    submissions := fun s' hmem => h.submissions s' (List.mem_of_mem_eraseIdx hmem)
    jobs := by
      intro job' hmem
      obtain hmem | hmem := List.mem_append.mp hmem
      · exact h.jobs job' hmem
      · rw [List.mem_singleton.mp hmem]
        exact hok
    ids := by
      intro t id hget
      obtain hget | hruns := hids t id hget
      · obtain ⟨job', hjob', hruns⟩ := h.ids t id hget
        exact ⟨job', List.mem_append_left _ hjob', hruns⟩
      · exact ⟨job, List.mem_append_right _ List.mem_cons_self, hruns⟩
    cancels := by
      intro cancel hcancel
      obtain ⟨job', hjob', hruns⟩ := h.cancels cancel hcancel
      exact ⟨job', List.mem_append_left _ hjob', hruns⟩
    done := by
      intro t hdone
      obtain hfailed | hjob := h.done t hdone
      · exact .inl hfailed
      · rw [List.flatMap_append]
        exact .inr (List.mem_append_left _ hjob) }

end Wf

/-- The identifiers that an array job enters for its children. -/
theorem get?_enterChildren {jobId : Text} {entries : List (Nat × TaskID)} {ids : Dict TaskID Text} {t : TaskID}
    {id : Text} (h : (entries.foldl (fun ids entry => ids.set entry.2 (childId jobId entry.1)) ids).get? t = some id) :
    ids.get? t = some id ∨ ∃ index, (index, t) ∈ entries ∧ id = childId jobId index := by
  induction entries generalizing ids with
  | nil => exact .inl h
  | cons entry entries ih =>
    rw [List.foldl_cons] at h
    obtain hget | ⟨index, hmem, hid⟩ := ih h
    · obtain ⟨rfl, rfl⟩ | hget := Dict.get?_set_cases hget
      · exact .inr ⟨entry.1, List.mem_cons_self, rfl⟩
      · exact .inl hget
    · exact .inr ⟨index, List.mem_cons_of_mem entry hmem, hid⟩

/-- The job that a submission becomes, and the identifiers it enters. -/
theorem onSubmitted_eq {b : ExecutionBackend} {s : Submission} (h : s.Ok) (hstage : s.stage ≠ .putObject) (jobId : Text) :
    ∃ job ids, b.onSubmitted s jobId = { b with jobs := b.jobs ++ [job], taskIdToBatchJobId := ids } ∧
      job.tasks = s.batch ∧ job.Ok ∧
      ∀ t id, ids.get? t = some id → b.taskIdToBatchJobId.get? t = some id ∨ job.Runs t id := by
  by_cases hsize : arrayJobMinBatchSize ≤ s.batch.length
  · have hstored := h.complete hsize hstage
    have hindex : ∀ index t, (index, t) ∈ s.indexToTaskId.entries ↔ s.stored[index]? = some t := by
      intro index t
      rw [h.entries, List.mem_map]
      constructor
      · rintro ⟨⟨t', index'⟩, hmem, heq⟩
        obtain ⟨rfl, rfl⟩ := Prod.mk.inj heq
        exact List.mk_mem_zipIdx_iff_getElem?.mp hmem
      · intro hget
        exact ⟨(t, index), List.mk_mem_zipIdx_iff_getElem?.mpr hget, rfl⟩
    refine ⟨.array jobId s.batch.length s.stored s.indexToTaskId, _, if_pos hsize, hstored, ?_, ?_⟩
    · refine ⟨hsize, h.bounded, by rw [hstored], fun index => Option.ext fun t => ?_⟩
      rw [← hindex]
      exact (Dict.mem_entries _ _ _).symm
    · intro t id hget
      obtain hget | ⟨index, hmem, hid⟩ := get?_enterChildren hget
      · exact .inl hget
      · exact .inr ⟨index, (hindex index t).mp hmem, hid⟩
  · obtain ⟨task, tasks, hbatch⟩ := List.exists_cons_of_ne_nil h.nonempty
    have hlength := hsize
    rw [hbatch, List.length_cons, arrayJobMinBatchSize] at hlength
    have hnil : tasks = [] := List.length_eq_zero_iff.mp (by omega)
    subst hnil
    refine ⟨.single jobId task, b.taskIdToBatchJobId.set task jobId, ?_, hbatch.symm, trivial, ?_⟩
    · rw [onSubmitted, if_neg hsize, hbatch]
    · intro t id hget
      obtain ⟨ht, hid⟩ | hget := Dict.get?_set_cases hget
      · exact .inr ⟨ht, hid⟩
      · exact .inl hget

theorem Wf.submitted {b : ExecutionBackend} (h : b.Wf) {number : Nat} {s : Submission}
    (hs : b.submissions[number]? = some s) (hstage : s.stage ≠ .putObject) (jobId : Text) :
    ({ b with submissions := b.submissions.eraseIdx number }.onSubmitted s jobId).Wf := by
  obtain ⟨job, ids, heq, htasks, hok, hids⟩ := onSubmitted_eq (h.submissions s (List.mem_of_getElem? hs)) hstage jobId
  rw [heq]
  exact h.addJob hs htasks hok hids

/-- The batch stays below its largest size. -/
theorem Wf.step {large : TaskID → Bool} {b c : ExecutionBackend} (h : b.Wf)
    (hbounded : b.batchPending.length < arrayJobMaxBatchSize) (hstep : LawfulStep large b c) :
    c.Wf ∧ c.batchPending.length < arrayJobMaxBatchSize := by
  obtain ⟨event, hlawful, hstep⟩ := hstep
  have hempty : ([] : List TaskID).length < arrayJobMaxBatchSize := by decide
  cases event with
  | execute task =>
    obtain rfl := Option.some.inj hstep
    exact ⟨h.execute hlawful, hbounded⟩
  | loaded task now =>
    rw [ExecutionBackend.step] at hstep
    split at hstep
    next htask =>
      obtain rfl := Option.some.inj hstep
      have hcollect := h.collect htask now
      rw [flushFullBatch]
      split
      · refine ⟨hcollect.flush large ?_, by simpa using hempty⟩
        rw [ExecutionBackend.collect, List.length_append, List.length_singleton]
        omega
      next hroom => exact ⟨hcollect, Nat.lt_of_not_le hroom⟩
    · cases hstep
  | loadFailed task =>
    rw [ExecutionBackend.step] at hstep
    split at hstep
    · obtain rfl := Option.some.inj hstep
      exact ⟨h.unload task, hbounded⟩
    · cases hstep
  | routine now =>
    obtain rfl := Option.some.inj hstep
    rw [routine]
    split
    · exact ⟨h.flush large (Nat.le_of_lt hbounded), by simpa using hempty⟩
    · exact ⟨h, hbounded⟩
  | stored number =>
    obtain ⟨s, hs, hstep⟩ := Option.bind_eq_some_iff.mp hstep
    split at hstep
    · obtain rfl := Option.some.inj hstep
      exact ⟨h.setSubmission hs (h.submissions s (List.mem_of_getElem? hs)).putObject (by simp), hbounded⟩
    · cases hstep
  | submitted number jobId =>
    obtain ⟨s, hs, hstep⟩ := Option.bind_eq_some_iff.mp hstep
    split at hstep
    · cases hstep
    next hstage =>
      obtain rfl := Option.some.inj hstep
      exact ⟨h.submitted hs (by simp [hstage]) jobId, by simpa using hbounded⟩
  | expiredToken number =>
    obtain ⟨s, hs, hstep⟩ := Option.bind_eq_some_iff.mp hstep
    split at hstep
    next hstage =>
      obtain rfl := Option.some.inj hstep
      have hok := h.submissions s (List.mem_of_getElem? hs)
      refine ⟨h.setSubmission hs { hok with complete := fun hsize _ => hok.complete hsize ?_ } rfl, hbounded⟩
      rw [hstage]
      nofun
    · cases hstep
  | raised number =>
    obtain ⟨s, hs, rfl⟩ := Option.map_eq_some_iff.mp hstep
    exact ⟨h.raised hs, hbounded⟩
  | resolved task =>
    rw [ExecutionBackend.step] at hstep
    split at hstep
    next htask =>
      obtain rfl := Option.some.inj hstep
      refine ⟨{ h with done := fun t hdone => ?_ }, hbounded⟩
      obtain hdone | hdone := List.mem_append.mp hdone
      · exact h.done t hdone
      · rw [List.mem_singleton.mp hdone]
        exact .inr htask.2
    · cases hstep
  | onCancel task =>
    obtain rfl := Option.some.inj hstep
    rw [onCancel]
    split
    · exact ⟨{ h with }, hbounded⟩
    next jobId hget =>
      refine ⟨{ h with cancels := fun cancel hcancel => ?_ }, hbounded⟩
      obtain hcancel | hcancel := List.mem_append.mp hcancel
      · exact h.cancels cancel hcancel
      · rw [List.mem_singleton.mp hcancel]
        exact h.ids task jobId hget
  | terminated number =>
    obtain ⟨cancel, -, rfl⟩ := Option.map_eq_some_iff.mp hstep
    exact ⟨{ h with cancels := fun cancel' hmem => h.cancels cancel' (List.mem_of_mem_eraseIdx hmem) }, hbounded⟩
  | terminateFailed number =>
    obtain ⟨cancel, -, rfl⟩ := Option.map_eq_some_iff.mp hstep
    exact ⟨{ h with cancels := fun cancel' hmem => h.cancels cancel' (List.mem_of_mem_eraseIdx hmem) }, hbounded⟩
  | onCleanup task =>
    obtain rfl := Option.some.inj hstep
    refine ⟨{ h with ids := fun t id hget => ?_ }, hbounded⟩
    rw [onCleanup, Dict.get?_erase] at hget
    split at hget
    · cases hget
    · exact h.ids t id hget

/-- A step that is no call of `execute` or `on_cancel`: no task starts to wait, and new jobs are of
tasks that waited. -/
structure Progress (b c : ExecutionBackend) : Prop where
  canceled : c.canceled = b.canceled
  waits : c.waits ⊆ b.waits
  executed : c.executed = b.executed
  jobs : ∀ job ∈ c.jobs, job ∈ b.jobs ∨ job.tasks ⊆ b.waits
  terminated : b.terminated ⊆ c.terminated

namespace Progress

variable {b c : ExecutionBackend}

theorem refl (b : ExecutionBackend) : Progress b b :=
  ⟨rfl, List.Subset.refl _, rfl, fun _ hjob => .inl hjob, List.Subset.refl _⟩

theorem trans {d : ExecutionBackend} (h : Progress b c) (h' : Progress c d) : Progress b d where
  canceled := h'.canceled.trans h.canceled
  waits := List.Subset.trans h'.waits h.waits
  executed := h'.executed.trans h.executed
  jobs := by
    intro job hjob
    obtain hold | hnew := h'.jobs job hjob
    · exact h.jobs job hold
    · exact .inr (List.Subset.trans hnew h.waits)
  terminated := List.Subset.trans h.terminated h'.terminated

theorem ended (h : Progress b c) {t : TaskID} (ht : b.Ended t) : c.Ended t := by
  obtain ⟨hexecuted, hwaits, hjobs⟩ := ht
  refine ⟨by rw [h.executed]; exact hexecuted, fun hc => hwaits (h.waits hc), fun job hjob id hruns => ?_⟩
  obtain hold | hnew := h.jobs job hjob
  · exact h.terminated (hjobs job hold id hruns)
  · exact absurd (hnew (Job.mem_tasks_of_runs hruns)) hwaits

theorem unload (t : TaskID) : Progress b { b with loading := b.loading.erase t } :=
  { refl b with
    waits := by
      intro t' hmem
      simp only [ExecutionBackend.waits, List.append_assoc, List.mem_append] at hmem ⊢
      obtain hload | hbatches := hmem
      · exact .inl (List.mem_of_mem_erase hload)
      · exact .inr hbatches }

theorem collect {t : TaskID} (ht : t ∈ b.loading) (now : ℚ) : Progress b (b.collect t now) :=
  { refl b with
    waits := by
      intro t' hmem
      simp only [ExecutionBackend.waits, ExecutionBackend.collect, List.append_assoc, List.mem_append,
        List.mem_singleton] at hmem ⊢
      obtain hload | hpending | rfl | hsubmitted := hmem
      · exact .inl (List.mem_of_mem_erase hload)
      · exact .inr (.inl hpending)
      · exact .inl ht
      · exact .inr (.inr hsubmitted) }

theorem flush (large : TaskID → Bool) : Progress b (b.flushPendingBatch large) := by
  rw [flushPendingBatch]
  split
  · exact refl b
  next task tasks hpending =>
    refine { refl b with waits := fun t hmem => ?_ }
    simp only [ExecutionBackend.waits, hpending, List.flatMap_append, List.flatMap_cons, List.flatMap_nil,
      Submission.new, List.append_nil, List.mem_append] at hmem ⊢
    obtain hload | hsubmitted | hpending := hmem
    · exact .inl (.inl hload)
    · exact .inr hsubmitted
    · exact .inl (.inr hpending)

theorem setSubmission {number : Nat} {s s' : Submission} (hs : b.submissions[number]? = some s)
    (hbatch : s'.batch = s.batch) : Progress b { b with submissions := b.submissions.set number s' } :=
  { refl b with
    waits := by
      rw [ExecutionBackend.waits, ExecutionBackend.waits, flatMap_set hs hbatch]
      exact List.Subset.refl _ }

theorem eraseSubmission (b : ExecutionBackend) (number : Nat) :
    Progress b { b with submissions := b.submissions.eraseIdx number } :=
  { refl b with
    waits := by
      intro t hmem
      simp only [ExecutionBackend.waits, List.mem_append, List.mem_flatMap] at hmem ⊢
      obtain hother | ⟨s, hs, ht⟩ := hmem
      · exact .inl hother
      · exact .inr ⟨s, List.mem_of_mem_eraseIdx hs, ht⟩ }

theorem submitted (h : b.Wf) {number : Nat} {s : Submission} (hs : b.submissions[number]? = some s)
    (hstage : s.stage ≠ .putObject) (jobId : Text) :
    Progress b ({ b with submissions := b.submissions.eraseIdx number }.onSubmitted s jobId) := by
  have hmem := List.mem_of_getElem? hs
  obtain ⟨job, ids, heq, htasks, -, -⟩ := onSubmitted_eq (h.submissions s hmem) hstage jobId
  rw [heq]
  refine { eraseSubmission b number with jobs := fun job' hjob' => ?_ }
  obtain hold | hnew := List.mem_append.mp hjob'
  · exact .inl hold
  · rw [List.mem_singleton.mp hnew, htasks]
    refine .inr fun t ht => ?_
    exact List.mem_append_right _ (List.mem_flatMap.mpr ⟨s, hmem, ht⟩)

end Progress

theorem step_progress {large : TaskID → Bool} {b c : ExecutionBackend} (h : b.Wf) {event : BackendEvent}
    (hexecute : ∀ task, event ≠ .execute task) (hcancel : ∀ task, event ≠ .onCancel task)
    (hterminated : ∀ number, event ≠ .terminated number) (hfailed : ∀ number, event ≠ .terminateFailed number)
    (hstep : b.step large event = some c) : Progress b c := by
  cases event with
  | execute task => exact absurd rfl (hexecute task)
  | loaded task now =>
    rw [ExecutionBackend.step] at hstep
    split at hstep
    next htask =>
      obtain rfl := Option.some.inj hstep
      rw [flushFullBatch]
      split
      · exact (Progress.collect htask now).trans (.flush large)
      · exact .collect htask now
    · cases hstep
  | loadFailed task =>
    rw [ExecutionBackend.step] at hstep
    split at hstep
    · obtain rfl := Option.some.inj hstep
      exact .unload task
    · cases hstep
  | routine now =>
    obtain rfl := Option.some.inj hstep
    rw [routine]
    split
    · exact .flush large
    · exact .refl b
  | stored number =>
    obtain ⟨s, hs, hstep⟩ := Option.bind_eq_some_iff.mp hstep
    split at hstep
    · obtain rfl := Option.some.inj hstep
      exact .setSubmission hs (by simp)
    · cases hstep
  | submitted number jobId =>
    obtain ⟨s, hs, hstep⟩ := Option.bind_eq_some_iff.mp hstep
    split at hstep
    · cases hstep
    next hstage =>
      obtain rfl := Option.some.inj hstep
      exact .submitted h hs (by simp [hstage]) jobId
  | expiredToken number =>
    obtain ⟨s, hs, hstep⟩ := Option.bind_eq_some_iff.mp hstep
    split at hstep
    · obtain rfl := Option.some.inj hstep
      exact .setSubmission hs rfl
    · cases hstep
  | raised number =>
    obtain ⟨s, -, rfl⟩ := Option.map_eq_some_iff.mp hstep
    exact { Progress.eraseSubmission b number with }
  | resolved task =>
    rw [ExecutionBackend.step] at hstep
    split at hstep
    · obtain rfl := Option.some.inj hstep
      exact { Progress.refl b with }
    · cases hstep
  | onCancel task => exact absurd rfl (hcancel task)
  | terminated number => exact absurd rfl (hterminated number)
  | terminateFailed number => exact absurd rfl (hfailed number)
  | onCleanup task =>
    obtain rfl := Option.some.inj hstep
    exact { Progress.refl b with }

theorem Ended.execute {b : ExecutionBackend} {t task : TaskID} (h : b.Ended t) (hnew : task ∉ b.executed) :
    Ended { b with loading := b.loading ++ [task], executed := b.executed ++ [task] } t := by
  obtain ⟨hexecuted, hwaits, hjobs⟩ := h
  refine ⟨List.mem_append_left _ hexecuted, fun hmem => ?_, hjobs⟩
  simp only [waits, List.append_assoc, List.mem_append, List.mem_singleton] at hmem hwaits
  obtain hload | rfl | hbatches := hmem
  · exact hwaits (.inl hload)
  · exact hnew hexecuted
  · exact hwaits (.inr hbatches)

theorem Wf.ended_failed {b : ExecutionBackend} (h : b.Wf) {t : TaskID} (ht : t ∈ b.failed) : b.Ended t := by
  refine ⟨h.mem_executed (List.mem_append_right _ ht), h.not_waits (List.mem_append_right _ ht), ?_⟩
  intro job hjob id hruns
  exact absurd hruns (h.not_runs_of_failed ht hjob id)

theorem Wf.ended_terminated {b : ExecutionBackend} (h : b.Wf) {number : Nat} {cancel : TaskID × Text}
    (hcancel : b.cancels[number]? = some cancel) :
    Ended { b with cancels := b.cancels.eraseIdx number, terminated := b.terminated ++ [cancel.2] } cancel.1 := by
  obtain ⟨job, hjob, hruns⟩ := h.cancels cancel (List.mem_of_getElem? hcancel)
  have hmem : cancel.1 ∈ b.jobs.flatMap Job.tasks := List.mem_flatMap.mpr ⟨job, hjob, Job.mem_tasks_of_runs hruns⟩
  refine ⟨h.mem_executed ?_, h.not_waits (List.mem_append_left _ hmem), ?_⟩
  · rw [places]
    exact List.mem_append_left _ (List.mem_append_right _ hmem)
  · intro job' hjob' id hruns'
    rw [h.runs_unique hjob' hjob hruns' hruns]
    exact List.mem_append_right _ List.mem_cons_self

theorem ended_step {large : TaskID → Bool} {b c : ExecutionBackend} (h : b.Wf) (hended : ∀ t ∈ b.canceled, b.Ended t)
    (hstep : KeptStep large b c) : ∀ t ∈ c.canceled, c.Ended t := by
  obtain ⟨event, hlawful, hkeeps, hstep⟩ := hstep
  cases event with
  | execute task =>
    obtain rfl := Option.some.inj hstep
    exact fun t ht => (hended t ht).execute hlawful
  | onCancel task =>
    obtain rfl := Option.some.inj hstep
    rw [onCancel]
    cases hget : b.taskIdToBatchJobId.get? task with
    | some jobId => exact hended
    | none =>
      intro t ht
      obtain ht | ht := List.mem_append.mp ht
      · exact hended t ht
      · rw [List.mem_singleton.mp ht]
        obtain hcontains | hfailed := hkeeps
        · rw [Dict.contains, hget] at hcontains
          cases hcontains
        · exact h.ended_failed hfailed
  | terminated number =>
    obtain ⟨cancel, hcancel, rfl⟩ := Option.map_eq_some_iff.mp hstep
    intro t ht
    obtain ht | ht := List.mem_append.mp ht
    · obtain ⟨hexecuted, hwaits, hjobs⟩ := hended t ht
      exact ⟨hexecuted, hwaits, fun job hjob id hruns => List.mem_append_left _ (hjobs job hjob id hruns)⟩
    · rw [List.mem_singleton.mp ht]
      exact h.ended_terminated hcancel
  | terminateFailed number => exact hkeeps.elim
  | _ =>
    have hprogress := step_progress h (by simp) (by simp) (by simp) (by simp) hstep
    rw [hprogress.canceled]
    exact fun t ht => hprogress.ended (hended t ht)

theorem wf_new : new.Wf where
  placed := .refl _
  nodup := List.nodup_nil
  executed := nofun
  submissions := nofun
  jobs := nofun
  ids := nofun
  cancels := nofun
  done := nofun

theorem wf_run {large : TaskID → Bool} {b : ExecutionBackend} (hrun : Relation.ReflTransGen (LawfulStep large) new b) :
    b.Wf ∧ b.batchPending.length < arrayJobMaxBatchSize := by
  induction hrun with
  | refl => exact ⟨wf_new, by decide⟩
  | tail _ hstep ih => exact ih.1.step ih.2 hstep

theorem KeptStep.lawful {large : TaskID → Bool} {b c : ExecutionBackend} (h : KeptStep large b c) :
    LawfulStep large b c := by
  obtain ⟨event, hlawful, -, hstep⟩ := h
  exact ⟨event, hlawful, hstep⟩

theorem ended_run {large : TaskID → Bool} {b : ExecutionBackend} (hrun : Relation.ReflTransGen (KeptStep large) new b) :
    ∀ t ∈ b.canceled, b.Ended t := by
  induction hrun with
  | refl => exact nofun
  | tail hbefore hstep ih =>
    have hle : KeptStep large ≤ LawfulStep large := fun _ _ => KeptStep.lawful
    have hlawful := Relation.ReflTransGen.mono hle _ _ hbefore
    exact ended_step (wf_run hlawful).1 ih hstep

end ExecutionBackend

end AWSBatch

end Adapter

end Scaler
