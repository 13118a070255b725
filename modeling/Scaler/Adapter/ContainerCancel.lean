import Mathlib.Tactic.NormNum
import Scaler.Adapter.BatchCancel

/-! What a cancel reaches in `OCIHPCExecutionBackend`, and the two backends together. -/

namespace Scaler

open Collections

namespace Adapter

namespace OCIHPC.ExecutionBackend

/-- The tasks that still wait for a container instance. -/
def waits (b : ExecutionBackend) : List TaskID := b.loading ++ b.storing ++ b.creating

def places (b : ExecutionBackend) : List TaskID := b.waits ++ b.instances.map Prod.fst ++ b.failed

def Lawful (b : ExecutionBackend) : BackendEvent → Prop
  | .execute task => task ∉ b.executed
  | _ => True

/-- A cancel comes while the instance of its task is known, or after its creation failed, and the
service deletes the instance. -/
def Keeps (b : ExecutionBackend) : BackendEvent → Prop
  | .onCancel task => b.taskIdToInstanceId.contains task = true ∨ task ∈ b.failed
  | .deleteInstanceFailed _ => False
  | _ => True

def LawfulStep (inputKey : TaskID → Option Text) (b c : ExecutionBackend) : Prop :=
  ∃ event, b.Lawful event ∧ b.step inputKey event = some c

def KeptStep (inputKey : TaskID → Option Text) (b c : ExecutionBackend) : Prop :=
  ∃ event, b.Lawful event ∧ b.Keeps event ∧ b.step inputKey event = some c

structure Wf (b : ExecutionBackend) : Prop where
  nodup : b.places.Nodup
  executed : ∀ t ∈ b.places, t ∈ b.executed
  ids : ∀ t id, b.taskIdToInstanceId.get? t = some id → (t, id) ∈ b.instances
  deleting : ∀ cancel ∈ b.deletingInstance, cancel ∈ b.instances

/-- The task gets no instance any more, and the one it has was deleted. -/
def Ended (b : ExecutionBackend) (t : TaskID) : Prop :=
  t ∈ b.executed ∧ t ∉ b.waits ∧ ∀ id, (t, id) ∈ b.instances → id ∈ b.deleted

namespace Wf

variable {b : ExecutionBackend}

theorem execute (h : b.Wf) {t : TaskID} (hnew : t ∉ b.executed) :
    Wf { b with loading := b.loading ++ [t], executed := b.executed ++ [t] } :=
  { h with
    nodup := by
      have hperm : (places { b with loading := b.loading ++ [t], executed := b.executed ++ [t] }).Perm (t :: b.places) := by
        rw [List.perm_iff_count]
        intro t'
        simp only [places, waits, List.count_append, List.count_cons, List.count_nil]
        omega
      refine hperm.nodup_iff.mpr (List.nodup_cons.mpr ⟨fun hmem => hnew (h.executed t hmem), h.nodup⟩)
    executed := by
      intro t' hmem
      by_cases heq : t' = t
      · subst heq
        exact List.mem_append_right _ List.mem_cons_self
      · refine List.mem_append_left _ (h.executed t' ?_)
        simp only [places, waits, List.mem_append, List.mem_singleton, heq, or_false] at hmem ⊢
        exact hmem }

/-- A task moves from one place to the next. -/
theorem move (h : b.Wf) {c : ExecutionBackend} (hplaces : c.places.Perm b.places) (hexecuted : c.executed = b.executed)
    (hids : ∀ t id, c.taskIdToInstanceId.get? t = some id → (t, id) ∈ c.instances)
    (hdeleting : ∀ cancel ∈ c.deletingInstance, cancel ∈ c.instances) : c.Wf where
  nodup := hplaces.nodup_iff.mpr h.nodup
  executed := by
    intro t hmem
    rw [hexecuted]
    exact h.executed t (hplaces.mem_iff.mp hmem)
  ids := hids
  deleting := hdeleting

theorem unload (h : b.Wf) (t : TaskID) : Wf { b with loading := b.loading.erase t } := by
  have hsublist : (places { b with loading := b.loading.erase t }).Sublist b.places := by
    refine List.Sublist.append_right (List.Sublist.append_right ?_ _) _
    exact List.Sublist.append_right (List.Sublist.append_right List.erase_sublist _) _
  exact { h with
    nodup := h.nodup.sublist hsublist
    executed := fun t' hmem => h.executed t' (hsublist.subset hmem) }

theorem created (h : b.Wf) (inputKey : TaskID → Option Text) {t : TaskID} (ht : t ∈ b.creating) (id : Text) :
    (b.onCreated inputKey t id).Wf := by
  refine h.move ?_ rfl ?_ ?_
  · rw [List.perm_iff_count]
    intro t'
    have hcount := (List.perm_cons_erase ht).count_eq t'
    simp only [places, waits, onCreated, List.count_append, List.count_cons, List.count_nil, List.map_append,
      List.map_cons, List.map_nil] at hcount ⊢
    omega
  · intro t' id' hget
    obtain ⟨rfl, rfl⟩ | hget := Dict.get?_set_cases hget
    · exact List.mem_append_right _ List.mem_cons_self
    · exact List.mem_append_left _ (h.ids t' id' hget)
  · exact fun cancel hcancel => List.mem_append_left _ (h.deleting cancel hcancel)

theorem cancelInput (h : b.Wf) (t : TaskID) : (b.cancelInput t).Wf := by
  rw [ExecutionBackend.cancelInput]
  split
  · exact { h with }
  · exact { h with }

theorem eraseId (h : b.Wf) (t : TaskID) : ∀ t' id, (b.taskIdToInstanceId.erase t).get? t' = some id → (t', id) ∈ b.instances := by
  intro t' id hget
  rw [Dict.get?_erase] at hget
  split at hget
  · cases hget
  · exact h.ids t' id hget

theorem onCancel (h : b.Wf) (t : TaskID) : (b.onCancel t).Wf := by
  rw [ExecutionBackend.onCancel]
  split
  · exact h.cancelInput t
  next id hget =>
    refine { h with ids := h.eraseId t, deleting := fun cancel hcancel => ?_ }
    obtain hcancel | hcancel := List.mem_append.mp hcancel
    · exact h.deleting cancel hcancel
    · rw [List.mem_singleton.mp hcancel]
      exact h.ids t id hget

theorem step {inputKey : TaskID → Option Text} {c : ExecutionBackend} (h : b.Wf) (hstep : LawfulStep inputKey b c) :
    c.Wf := by
  obtain ⟨event, hlawful, hstep⟩ := hstep
  cases event with
  | execute task =>
    obtain rfl := Option.some.inj hstep
    exact h.execute hlawful
  | loaded task =>
    rw [ExecutionBackend.step] at hstep
    split at hstep
    next htask =>
      have hcount := fun t => (List.perm_cons_erase htask).count_eq t
      split at hstep
      all_goals
        obtain rfl := Option.some.inj hstep
        refine h.move (List.perm_iff_count.mpr fun t => ?_) rfl h.ids h.deleting
        have ht := hcount t
        simp only [places, waits, List.count_append, List.count_cons, List.count_nil] at ht ⊢
        omega
    · cases hstep
  | loadFailed task =>
    rw [ExecutionBackend.step] at hstep
    split at hstep
    · obtain rfl := Option.some.inj hstep
      exact h.unload task
    · cases hstep
  | stored task =>
    rw [ExecutionBackend.step] at hstep
    split at hstep
    next htask =>
      obtain rfl := Option.some.inj hstep
      refine h.move (List.perm_iff_count.mpr fun t => ?_) rfl h.ids h.deleting
      have ht := (List.perm_cons_erase htask).count_eq t
      simp only [places, waits, List.count_append, List.count_cons, List.count_nil] at ht ⊢
      omega
    · cases hstep
  | created task id =>
    rw [ExecutionBackend.step] at hstep
    split at hstep
    next htask =>
      obtain rfl := Option.some.inj hstep
      exact h.created inputKey htask id
    · cases hstep
  | raised task =>
    rw [ExecutionBackend.step] at hstep
    split at hstep
    next htask =>
      obtain rfl := Option.some.inj hstep
      refine h.move (List.perm_iff_count.mpr fun t => ?_) rfl h.ids h.deleting
      have ht := (List.perm_cons_erase htask).count_eq t
      simp only [places, waits, List.count_append, List.count_cons, List.count_nil] at ht ⊢
      omega
    · split at hstep
      next htask =>
        obtain rfl := Option.some.inj hstep
        refine h.move (List.perm_iff_count.mpr fun t => ?_) rfl h.ids h.deleting
        have ht := (List.perm_cons_erase htask).count_eq t
        simp only [places, waits, List.count_append, List.count_cons, List.count_nil] at ht ⊢
        omega
      · cases hstep
  | onCancel task =>
    obtain rfl := Option.some.inj hstep
    exact h.onCancel task
  | instanceDeleted number =>
    obtain ⟨cancel, -, rfl⟩ := Option.map_eq_some_iff.mp hstep
    have hleft : Wf { b with
        deletingInstance := b.deletingInstance.eraseIdx number
        deleted := b.deleted ++ [cancel.2] } :=
      { h with deleting := fun cancel' hmem => h.deleting cancel' (List.mem_of_mem_eraseIdx hmem) }
    exact hleft.cancelInput cancel.1
  | deleteInstanceFailed number =>
    obtain ⟨cancel, -, rfl⟩ := Option.map_eq_some_iff.mp hstep
    have hleft : Wf { b with deletingInstance := b.deletingInstance.eraseIdx number } :=
      { h with deleting := fun cancel' hmem => h.deleting cancel' (List.mem_of_mem_eraseIdx hmem) }
    exact hleft.cancelInput cancel.1
  | inputDeleted number =>
    obtain ⟨task, -, rfl⟩ := Option.map_eq_some_iff.mp hstep
    exact { h with }
  | monitorDeleted id =>
    rw [ExecutionBackend.step] at hstep
    split at hstep
    · obtain rfl := Option.some.inj hstep
      exact { h with }
    · cases hstep
  | onCleanup task =>
    obtain rfl := Option.some.inj hstep
    exact { h with ids := h.eraseId task }

end Wf

/-- A step that is no call of `execute` or `on_cancel`. -/
structure Progress (b c : ExecutionBackend) : Prop where
  canceled : c.deletingInput ++ c.canceled = b.deletingInput ++ b.canceled
  waits : c.waits ⊆ b.waits
  executed : c.executed = b.executed
  instances : ∀ t id, (t, id) ∈ c.instances → (t, id) ∈ b.instances ∨ t ∈ b.waits
  deleted : b.deleted ⊆ c.deleted

namespace Progress

variable {b c : ExecutionBackend}

theorem refl (b : ExecutionBackend) : Progress b b :=
  ⟨rfl, List.Subset.refl _, rfl, fun _ _ hmem => .inl hmem, List.Subset.refl _⟩

theorem ended (h : Progress b c) {t : TaskID} (ht : b.Ended t) : c.Ended t := by
  obtain ⟨hexecuted, hwaits, hinstances⟩ := ht
  refine ⟨by rw [h.executed]; exact hexecuted, fun hc => hwaits (h.waits hc), fun id hmem => ?_⟩
  obtain hold | hnew := h.instances t id hmem
  · exact h.deleted (hinstances id hold)
  · exact absurd hnew hwaits

theorem loaded {inputKey : TaskID → Option Text} {t : TaskID} (hstep : b.step inputKey (.loaded t) = some c) :
    Progress b c := by
  rw [step] at hstep
  split at hstep
  next ht =>
    split at hstep
    all_goals
      obtain rfl := Option.some.inj hstep
      refine { refl b with waits := fun t' hmem => ?_ }
      simp only [ExecutionBackend.waits, List.append_assoc, List.mem_append, List.mem_singleton] at hmem ⊢
    · obtain hload | hstoring | rfl | hcreating := hmem
      · exact .inl (List.mem_of_mem_erase hload)
      · exact .inr (.inl hstoring)
      · exact .inl ht
      · exact .inr (.inr hcreating)
    · obtain hload | hstoring | hcreating | rfl := hmem
      · exact .inl (List.mem_of_mem_erase hload)
      · exact .inr (.inl hstoring)
      · exact .inr (.inr hcreating)
      · exact .inl ht
  · cases hstep

theorem stored {inputKey : TaskID → Option Text} {t : TaskID} (hstep : b.step inputKey (.stored t) = some c) :
    Progress b c := by
  rw [step] at hstep
  split at hstep
  next ht =>
    obtain rfl := Option.some.inj hstep
    refine { refl b with waits := fun t' hmem => ?_ }
    simp only [ExecutionBackend.waits, List.append_assoc, List.mem_append, List.mem_singleton] at hmem ⊢
    obtain hload | hstoring | hcreating | rfl := hmem
    · exact .inl hload
    · exact .inr (.inl (List.mem_of_mem_erase hstoring))
    · exact .inr (.inr hcreating)
    · exact .inr (.inl ht)
  · cases hstep

/-- Leaving a place keeps the others. -/
theorem waits_leave {loading storing creating : List TaskID} (hloading : loading ⊆ b.loading)
    (hstoring : storing ⊆ b.storing) (hcreating : creating ⊆ b.creating) :
    loading ++ storing ++ creating ⊆ b.waits := by
  intro t hmem
  simp only [ExecutionBackend.waits, List.append_assoc, List.mem_append] at hmem ⊢
  obtain hmem | hmem | hmem := hmem
  · exact .inl (hloading hmem)
  · exact .inr (.inl (hstoring hmem))
  · exact .inr (.inr (hcreating hmem))

theorem created (inputKey : TaskID → Option Text) {t : TaskID} (ht : t ∈ b.creating) (id : Text) :
    Progress b (b.onCreated inputKey t id) :=
  { refl b with
    waits := waits_leave (List.Subset.refl _) (List.Subset.refl _) List.erase_subset
    instances := by
      intro t' id' hmem
      obtain hold | hnew := List.mem_append.mp hmem
      · exact .inl hold
      · obtain ⟨rfl, -⟩ := Prod.mk.inj (List.mem_singleton.mp hnew)
        exact .inr (List.mem_append_right _ ht) }

theorem raised {inputKey : TaskID → Option Text} {t : TaskID} (hstep : b.step inputKey (.raised t) = some c) :
    Progress b c := by
  rw [step] at hstep
  split at hstep
  · obtain rfl := Option.some.inj hstep
    exact { refl b with waits := waits_leave (List.Subset.refl _) List.erase_subset (List.Subset.refl _) }
  · split at hstep
    · obtain rfl := Option.some.inj hstep
      exact { refl b with waits := waits_leave (List.Subset.refl _) (List.Subset.refl _) List.erase_subset }
    · cases hstep

end Progress

theorem Ended.execute {b : ExecutionBackend} {t task : TaskID} (h : b.Ended t) (hnew : task ∉ b.executed) :
    Ended { b with loading := b.loading ++ [task], executed := b.executed ++ [task] } t := by
  obtain ⟨hexecuted, hwaits, hinstances⟩ := h
  refine ⟨List.mem_append_left _ hexecuted, fun hmem => ?_, hinstances⟩
  simp only [waits, List.append_assoc, List.mem_append, List.mem_singleton] at hmem hwaits
  obtain hload | rfl | hrest := hmem
  · exact hwaits (.inl hload)
  · exact hnew hexecuted
  · exact hwaits (.inr hrest)

namespace Wf

variable {b : ExecutionBackend}

theorem ended_failed (h : b.Wf) {t : TaskID} (ht : t ∈ b.failed) : b.Ended t := by
  have hplaces := h.nodup
  rw [places, List.nodup_append] at hplaces
  refine ⟨h.executed t (List.mem_append_right _ ht), fun hwaits => ?_, fun id hmem => ?_⟩
  · exact hplaces.2.2 t (List.mem_append_left _ hwaits) t ht rfl
  · exact absurd rfl (hplaces.2.2 t (List.mem_append_right _ (List.mem_map_of_mem hmem)) t ht)

theorem ended_deleted (h : b.Wf) {number : Nat} {cancel : TaskID × Text}
    (hcancel : b.deletingInstance[number]? = some cancel) :
    Ended { b with
      deletingInstance := b.deletingInstance.eraseIdx number
      deleted := b.deleted ++ [cancel.2] } cancel.1 := by
  have hmem := h.deleting cancel (List.mem_of_getElem? hcancel)
  have hfirst : cancel.1 ∈ b.instances.map Prod.fst := List.mem_map_of_mem hmem
  have hplaces := (List.nodup_append.mp h.nodup).1
  rw [List.nodup_append] at hplaces
  refine ⟨h.executed cancel.1 (List.mem_append_left _ (List.mem_append_right _ hfirst)), fun hwaits => ?_,
    fun id hid => ?_⟩
  · exact hplaces.2.2 cancel.1 hwaits cancel.1 hfirst rfl
  · have heq : (cancel.1, id) = cancel := List.inj_on_of_nodup_map hplaces.2.1 hid hmem rfl
    rw [← heq]
    exact List.mem_append_right _ List.mem_cons_self

end Wf

/-- The second half of a cancel adds its task to those it is done with. -/
theorem ended_cancelInput {b : ExecutionBackend} (hended : ∀ t ∈ b.deletingInput ++ b.canceled, b.Ended t) {task : TaskID}
    (htask : b.Ended task) :
    ∀ t ∈ (b.cancelInput task).deletingInput ++ (b.cancelInput task).canceled, (b.cancelInput task).Ended t := by
  intro t ht
  rw [cancelInput] at ht ⊢
  split at ht
  all_goals
    simp only [List.mem_append, List.mem_singleton] at ht
  · obtain hinput | hcanceled | rfl := ht
    · exact hended t (List.mem_append_left _ hinput)
    · exact hended t (List.mem_append_right _ hcanceled)
    · exact htask
  · obtain (hinput | rfl) | hcanceled := ht
    · exact hended t (List.mem_append_left _ hinput)
    · exact htask
    · exact hended t (List.mem_append_right _ hcanceled)

theorem ended_step {inputKey : TaskID → Option Text} {b c : ExecutionBackend} (h : b.Wf)
    (hended : ∀ t ∈ b.deletingInput ++ b.canceled, b.Ended t) (hstep : KeptStep inputKey b c) :
    ∀ t ∈ c.deletingInput ++ c.canceled, c.Ended t := by
  obtain ⟨event, hlawful, hkeeps, hstep⟩ := hstep
  have hprogress : Progress b c → ∀ t ∈ c.deletingInput ++ c.canceled, c.Ended t := by
    intro hprogress t ht
    rw [hprogress.canceled] at ht
    exact hprogress.ended (hended t ht)
  cases event with
  | execute task =>
    obtain rfl := Option.some.inj hstep
    exact fun t ht => (hended t ht).execute hlawful
  | loaded task => exact hprogress (.loaded hstep)
  | loadFailed task =>
    rw [step] at hstep
    split at hstep
    · obtain rfl := Option.some.inj hstep
      refine hprogress { Progress.refl b with waits := ?_ }
      exact Progress.waits_leave List.erase_subset (List.Subset.refl _) (List.Subset.refl _)
    · cases hstep
  | stored task => exact hprogress (.stored hstep)
  | created task id =>
    rw [step] at hstep
    split at hstep
    next htask =>
      obtain rfl := Option.some.inj hstep
      exact hprogress (.created inputKey htask id)
    · cases hstep
  | raised task => exact hprogress (.raised hstep)
  | onCancel task =>
    obtain rfl := Option.some.inj hstep
    rw [onCancel]
    cases hget : b.taskIdToInstanceId.get? task with
    | some id => exact hended
    | none =>
      obtain hcontains | hfailed := hkeeps
      · rw [Dict.contains, hget] at hcontains
        cases hcontains
      · exact ended_cancelInput hended (h.ended_failed hfailed)
  | instanceDeleted number =>
    obtain ⟨cancel, hcancel, rfl⟩ := Option.map_eq_some_iff.mp hstep
    refine ended_cancelInput (fun t ht => ?_) (h.ended_deleted hcancel)
    obtain ⟨hexecuted, hwaits, hinstances⟩ := hended t ht
    exact ⟨hexecuted, hwaits, fun id hid => List.mem_append_left _ (hinstances id hid)⟩
  | deleteInstanceFailed number => exact hkeeps.elim
  | inputDeleted number =>
    obtain ⟨task, htask, rfl⟩ := Option.map_eq_some_iff.mp hstep
    intro t ht
    simp only [List.mem_append, List.mem_singleton] at ht
    obtain hinput | hcanceled | rfl := ht
    · exact hended t (List.mem_append_left _ (List.mem_of_mem_eraseIdx hinput))
    · exact hended t (List.mem_append_right _ hcanceled)
    · exact hended t (List.mem_append_left _ (List.mem_of_getElem? htask))
  | monitorDeleted id =>
    rw [step] at hstep
    split at hstep
    · obtain rfl := Option.some.inj hstep
      exact hprogress { Progress.refl b with deleted := List.subset_append_left _ _ }
    · cases hstep
  | onCleanup task =>
    obtain rfl := Option.some.inj hstep
    exact hprogress { Progress.refl b with }

theorem wf_new : new.Wf := ⟨List.nodup_nil, nofun, nofun, nofun⟩

theorem ended_run {inputKey : TaskID → Option Text} {b : ExecutionBackend}
    (hrun : Relation.ReflTransGen (KeptStep inputKey) new b) :
    b.Wf ∧ ∀ t ∈ b.deletingInput ++ b.canceled, b.Ended t := by
  induction hrun with
  | refl => exact ⟨wf_new, nofun⟩
  | tail _ hstep ih =>
    obtain ⟨event, hlawful, hkeeps, hevent⟩ := hstep
    exact ⟨ih.1.step ⟨event, hlawful, hevent⟩, ended_step ih.1 ih.2 ⟨event, hlawful, hkeeps, hevent⟩⟩

end OCIHPC.ExecutionBackend

namespace AWSBatch.ExecutionBackend

/-- A failed submission settles the futures of its own tasks, and none of them was settled. -/
theorem Wf.raised_doneFutures {large : TaskID → Bool} {b c : ExecutionBackend} (h : b.Wf) {number : Nat} {s : Submission}
    (hs : b.submissions[number]? = some s) (hstep : b.step large (.raised number) = some c) (t : TaskID) :
    (t ∈ s.batch → t ∉ b.doneFutures) ∧ (t ∈ c.doneFutures ↔ t ∈ b.doneFutures ∨ t ∈ s.batch) := by
  rw [ExecutionBackend.step, hs] at hstep
  obtain rfl := Option.some.inj hstep
  constructor
  · intro hbatch hdone
    have hwaits : t ∈ b.waits :=
      List.mem_append_right _ (List.mem_flatMap.mpr ⟨s, List.mem_of_getElem? hs, hbatch⟩)
    refine h.not_waits ?_ hwaits
    rw [List.mem_append]
    exact (h.done t hdone).symm
  · simp only [onRaised, List.mem_append, List.mem_filter, decide_eq_true_eq]
    by_cases hdone : t ∈ b.doneFutures
    · simp [hdone]
    · simp [hdone]

/-- A task past its cancel gets no other job. -/
theorem Wf.jobs_of_ended {large : TaskID → Bool} {b c : ExecutionBackend} (h : b.Wf) {t : TaskID} (ht : b.Ended t)
    {event : BackendEvent} (hstep : b.step large event = some c) {job : Job} (hjob : job ∈ c.jobs)
    (htask : t ∈ job.tasks) : job ∈ b.jobs := by
  cases event with
  | execute task =>
    obtain rfl := Option.some.inj hstep
    exact hjob
  | onCancel task =>
    obtain rfl := Option.some.inj hstep
    rw [onCancel] at hjob
    split at hjob
    · exact hjob
    · exact hjob
  | terminated number =>
    obtain ⟨cancel, -, rfl⟩ := Option.map_eq_some_iff.mp hstep
    exact hjob
  | terminateFailed number =>
    obtain ⟨cancel, -, rfl⟩ := Option.map_eq_some_iff.mp hstep
    exact hjob
  | _ =>
    have hprogress := step_progress h (by simp) (by simp) (by simp) (by simp) hstep
    obtain hold | hnew := hprogress.jobs job hjob
    · exact hold
    · exact absurd (hnew htask) ht.2.1

end AWSBatch.ExecutionBackend

/-- Every accepted task is in one place, array jobs are well formed, and a failed submission settles
its own futures. In a run whose cancels all come when the job, or the instance, is known, and are
obeyed, nothing of a canceled task runs or is submitted later. -/
theorem canceled_tasks_end (large : TaskID → Bool) (inputKey : TaskID → Option Text) :
    (∀ b, Relation.ReflTransGen (AWSBatch.ExecutionBackend.LawfulStep large) .new b →
      b.accepted.Nodup ∧ b.places.Perm b.accepted ∧ (∀ job ∈ b.jobs, job.Ok) ∧
      ∀ number s c, b.submissions[number]? = some s → b.step large (.raised number) = some c → ∀ t,
        (t ∈ s.batch → t ∉ b.doneFutures) ∧ (t ∈ c.doneFutures ↔ t ∈ b.doneFutures ∨ t ∈ s.batch)) ∧
    (∀ b, Relation.ReflTransGen (AWSBatch.ExecutionBackend.KeptStep large) .new b → ∀ t ∈ b.canceled,
      (∀ job ∈ b.jobs, ∀ id, job.Runs t id → id ∈ b.terminated) ∧
      ∀ event c, b.step large event = some c → ∀ job ∈ c.jobs, t ∈ job.tasks → job ∈ b.jobs) ∧
    (∀ b, Relation.ReflTransGen (OCIHPC.ExecutionBackend.KeptStep inputKey) .new b → ∀ t ∈ b.canceled,
      t ∉ b.waits ∧ ∀ id, (t, id) ∈ b.instances → id ∈ b.deleted) := by
  refine ⟨fun b hrun => ?_, fun b hrun t ht => ?_, fun b hrun t ht => ?_⟩
  · obtain ⟨hwf, -⟩ := AWSBatch.ExecutionBackend.wf_run hrun
    refine ⟨(List.nodup_append.mp hwf.nodup).2.1, hwf.placed, hwf.jobs, fun number s c hs hstep t => ?_⟩
    exact hwf.raised_doneFutures hs hstep t
  · have hended := AWSBatch.ExecutionBackend.ended_run hrun t ht
    have hle : AWSBatch.ExecutionBackend.KeptStep large ≤ AWSBatch.ExecutionBackend.LawfulStep large :=
      fun _ _ => AWSBatch.ExecutionBackend.KeptStep.lawful
    obtain ⟨hwf, -⟩ := AWSBatch.ExecutionBackend.wf_run (Relation.ReflTransGen.mono hle _ _ hrun)
    exact ⟨hended.2.2, fun event c hstep job hjob htask => hwf.jobs_of_ended hended hstep hjob htask⟩
  · obtain ⟨-, hended⟩ := OCIHPC.ExecutionBackend.ended_run hrun
    exact (hended t (List.mem_append_right _ ht)).2

namespace AWSBatch.ExecutionBackend

/-- One task is pending, since the clock read 0. -/
def collected (canceled : List TaskID) : ExecutionBackend :=
  { new with batchPending := [⟨1⟩], executed := [⟨1⟩], accepted := [⟨1⟩], canceled }

theorem routine_collected (large : TaskID → Bool) (canceled : List TaskID) :
    (collected canceled).step large (.routine 1) = some ((collected canceled).flushPendingBatch large) := by
  have hwindow : arrayJobBatchWindowSeconds ≤ 1 - (0 : ℚ) := by norm_num [arrayJobBatchWindowSeconds]
  rw [step, routine, if_pos ⟨List.cons_ne_nil _ _, hwindow⟩]

end AWSBatch.ExecutionBackend

theorem canceled_tasks_end_one :
    (∀ id, (AWSBatch.Job.single "job".toList ⟨1⟩).Runs ⟨1⟩ id → id ∈ ["job".toList]) ∧
    ∀ id, ((⟨1⟩ : TaskID), id) ∈ [((⟨1⟩ : TaskID), "ocid".toList)] → id ∈ ["ocid".toList] := by
  obtain ⟨-, haws, hoci⟩ := canceled_tasks_end (fun _ => false) fun _ => none
  constructor
  · have hrun : Relation.ReflTransGen (AWSBatch.ExecutionBackend.KeptStep fun _ => false) AWSBatch.ExecutionBackend.new
        { AWSBatch.ExecutionBackend.new with
          taskIdToBatchJobId := .set .empty ⟨1⟩ "job".toList
          jobs := [.single "job".toList ⟨1⟩]
          terminated := ["job".toList]
          executed := [⟨1⟩]
          accepted := [⟨1⟩]
          canceled := [⟨1⟩] } := by
      have hloaded : AWSBatch.ExecutionBackend.KeptStep (fun _ => false) { AWSBatch.ExecutionBackend.new with
          loading := [⟨1⟩], executed := [⟨1⟩] } (AWSBatch.ExecutionBackend.collected []) := ⟨.loaded ⟨1⟩ 0, trivial, trivial, rfl⟩
      refine .head ⟨.execute ⟨1⟩, List.not_mem_nil, trivial, rfl⟩ (.head hloaded ?_)
      refine .head ⟨.routine 1, trivial, trivial, AWSBatch.ExecutionBackend.routine_collected _ _⟩ ?_
      refine .head ⟨.submitted 0 "job".toList, trivial, trivial, rfl⟩ ?_
      exact .head ⟨.onCancel ⟨1⟩, trivial, .inl rfl, rfl⟩ (.single ⟨.terminated 0, trivial, trivial, rfl⟩)
    exact (haws _ hrun ⟨1⟩ List.mem_cons_self).1 _ List.mem_cons_self
  · have hrun : Relation.ReflTransGen (OCIHPC.ExecutionBackend.KeptStep fun _ => none) OCIHPC.ExecutionBackend.new
        { OCIHPC.ExecutionBackend.new with
          instances := [(⟨1⟩, "ocid".toList)]
          deleted := ["ocid".toList]
          executed := [⟨1⟩]
          canceled := [⟨1⟩] } := by
      refine .head ⟨.execute ⟨1⟩, List.not_mem_nil, trivial, rfl⟩ (.head ⟨.loaded ⟨1⟩, trivial, trivial, rfl⟩ ?_)
      refine .head ⟨.created ⟨1⟩ "ocid".toList, trivial, trivial, rfl⟩ ?_
      exact .head ⟨.onCancel ⟨1⟩, trivial, .inl rfl, rfl⟩ (.single ⟨.instanceDeleted 0, trivial, trivial, rfl⟩)
    exact (hoci _ hrun ⟨1⟩ List.mem_cons_self).2

/-- A cancel that comes in the collection window, or while the instance is created, does nothing. -/
theorem canceled_task_runs :
    (∃ b, Relation.ReflTransGen (AWSBatch.ExecutionBackend.LawfulStep fun _ => false) AWSBatch.ExecutionBackend.new b ∧
      b.batchPending = [⟨1⟩] ∧ b.canceled = [⟨1⟩] ∧
      ∃ c d, b.step (fun _ => false) (.routine 1) = some c ∧
        c.step (fun _ => false) (.submitted 0 "job".toList) = some d ∧
        d.jobs = [.single "job".toList ⟨1⟩] ∧ d.terminated = []) ∧
    (∃ b, Relation.ReflTransGen (OCIHPC.ExecutionBackend.LawfulStep fun _ => none) OCIHPC.ExecutionBackend.new b ∧
      b.canceled = [⟨1⟩] ∧ b.instances = [(⟨1⟩, "ocid".toList)] ∧ b.deleted = []) := by
  constructor
  · refine ⟨AWSBatch.ExecutionBackend.collected [⟨1⟩], ?_, rfl, rfl, _, _, AWSBatch.ExecutionBackend.routine_collected _ _, rfl, rfl, rfl⟩
    exact .head ⟨.execute ⟨1⟩, List.not_mem_nil, rfl⟩ (.head ⟨.loaded ⟨1⟩ 0, trivial, rfl⟩
      (.single ⟨.onCancel ⟨1⟩, trivial, rfl⟩))
  · exact ⟨_, .head ⟨.execute ⟨1⟩, List.not_mem_nil, rfl⟩ (.head ⟨.loaded ⟨1⟩, trivial, rfl⟩
      (.head ⟨.onCancel ⟨1⟩, trivial, rfl⟩ (.single ⟨.created ⟨1⟩ "ocid".toList, trivial, rfl⟩))), rfl, rfl, rfl⟩

end Adapter

end Scaler
