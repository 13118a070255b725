import Scaler.Adapter.JobMonitors
import Scaler.Collections.Outcome

/-! A monitor settles each future once and polls no more when all are settled, unless the deletion of
a result raises after the result was set: the monitors of AWS Batch then try to settle again. -/

namespace Scaler.Adapter

open Collections

variable {Value : Type}

/-- The tasks whose futures were to be settled. -/
def attempts (actions : List (MonitorAction Value)) : List TaskID :=
  actions.filterMap fun
    | .poll => none
    | .settle task _ => some task

/-- No future is settled twice, and at every poll the future of some task is not settled yet. -/
structure SettlesOnce (tasks : List TaskID) (actions : List (MonitorAction Value)) : Prop where
  once : (attempts actions).Nodup
  stops : ∀ i, actions[i]? = some .poll → ∃ task ∈ tasks, task ∉ attempts (actions.take i)

/-- The log of a monitor that has done nothing wrong yet. -/
structure Orderly (tasks : List TaskID) (log : MonitorLog Value) : Prop extends SettlesOnce tasks log.actions where
  settled : log.settled = attempts log.actions

namespace Orderly

variable {tasks : List TaskID} {log : MonitorLog Value}

theorem empty (tasks : List TaskID) : Orderly tasks (.empty : MonitorLog Value) :=
  ⟨⟨List.nodup_nil, fun _ hi => absurd hi nofun⟩, rfl⟩

theorem attempts_append (actions : List (MonitorAction Value)) (action : MonitorAction Value) :
    attempts (actions ++ [action]) = attempts actions ++ attempts [action] := List.filterMap_append

theorem stops_append {actions : List (MonitorAction Value)} {action : MonitorAction Value} (h : SettlesOnce tasks actions)
    (hlast : action = .poll → ∃ task ∈ tasks, task ∉ attempts actions) {i : Nat}
    (hi : (actions ++ [action])[i]? = some .poll) : ∃ task ∈ tasks, task ∉ attempts ((actions ++ [action]).take i) := by
  rcases Nat.lt_trichotomy i actions.length with hlt | rfl | hgt
  · rw [List.getElem?_append_left hlt] at hi
    rw [List.take_append_of_le_length (Nat.le_of_lt hlt)]
    exact h.stops i hi
  · rw [List.getElem?_concat_length] at hi
    rw [List.take_left]
    exact hlast (Option.some.inj hi)
  · rw [List.getElem?_eq_none (by simp; omega)] at hi
    cases hi

theorem poll (h : Orderly tasks log) (hopen : ∃ task ∈ tasks, task ∉ log.settled) : Orderly tasks log.poll := by
  refine ⟨⟨?_, fun i hi => stops_append h.toSettlesOnce (fun _ => ?_) hi⟩, ?_⟩
  · rw [MonitorLog.poll, attempts_append]
    simpa [attempts] using h.once
  · rwa [← h.settled]
  · rw [MonitorLog.poll, attempts_append, h.settled]
    simp [attempts]

theorem settle (h : Orderly tasks log) {task : TaskID} (hopen : task ∉ log.settled) (outcome : Except JobError Value) :
    log.settle task outcome = (true, ⟨log.settled ++ [task], log.actions ++ [MonitorAction.settle task outcome]⟩) ∧
      Orderly tasks (⟨log.settled ++ [task], log.actions ++ [MonitorAction.settle task outcome]⟩ : MonitorLog Value) := by
  have hnew : MonitorAction.settle task outcome = .poll → ∃ task ∈ tasks, task ∉ attempts log.actions :=
    fun hpoll => absurd hpoll nofun
  refine ⟨if_neg hopen, ⟨?_, fun i hi => stops_append h.toSettlesOnce hnew hi⟩, ?_⟩
  · rw [attempts_append]
    refine List.nodup_append.mpr ⟨h.once, List.nodup_singleton task, ?_⟩
    rintro a ha b hb rfl
    rw [List.mem_singleton.mp hb, ← h.settled] at ha
    exact hopen ha
  · rw [attempts_append, h.settled]
    rfl

end Orderly

namespace AWSBatch

namespace BatchMonitor

variable {m m' : BatchMonitor Value}

/-- The stages before the future is settled. -/
def early : BatchStage → Bool
  | .deleting => false
  | .finished => false
  | _ => true

/-- Before the result is set the future is not settled, and then only the end is left. -/
structure Sound (m : BatchMonitor Value) : Prop where
  log : Orderly [m.task] m.log
  unsettled : early m.stage = true → m.task ∉ m.log.settled

/-- The result that was set is deleted without an exception. -/
def CleanupSucceeds (m : BatchMonitor Value) (answer : Answer Value) : Prop :=
  m.stage = .deleting → answer ≠ .raised

theorem Sound.start (task : TaskID) : (start task : BatchMonitor Value).Sound :=
  ⟨.empty _, fun _ => List.not_mem_nil⟩

theorem Sound.stage (h : m.Sound) (hopen : m.task ∉ m.log.settled) (stage : BatchStage) : Sound { m with stage } :=
  ⟨h.log, fun _ => hopen⟩

theorem Sound.poll (h : m.Sound) (hopen : m.task ∉ m.log.settled) (stage : BatchStage) :
    Sound { m with stage, log := m.log.poll } :=
  ⟨h.log.poll ⟨m.task, List.mem_singleton_self _, hopen⟩, fun _ => hopen⟩

theorem Sound.settle (h : m.Sound) (hopen : m.task ∉ m.log.settled) (outcome : Except JobError Value) :
    (m.settle outcome .finished).Sound := by
  obtain ⟨hsettle, hlog⟩ := h.log.settle hopen outcome
  unfold BatchMonitor.settle
  rw [hsettle]
  exact ⟨hlog, fun hearly => absurd hearly nofun⟩

theorem Sound.setResult (h : m.Sound) (hopen : m.task ∉ m.log.settled) (value : Value) : (m.setResult value).Sound := by
  obtain ⟨hsettle, hlog⟩ := h.log.settle hopen (.ok value)
  unfold BatchMonitor.setResult
  rw [hsettle]
  exact ⟨hlog, fun hearly => absurd hearly nofun⟩

theorem Sound.onStatus (h : m.Sound) (hopen : m.task ∉ m.log.settled) (job : JobRow) : (m.onStatus job).Sound := by
  unfold BatchMonitor.onStatus
  split
  · exact h.stage hopen _
  · exact h.stage hopen _
  · exact h.poll hopen _
  · exact h.stage hopen _
  · exact h.stage hopen _

theorem Sound.step (h : m.Sound) {answer : Answer Value} (hcleanup : m.CleanupSucceeds answer)
    (hstep : m.step answer = some m') : m'.Sound := by
  unfold BatchMonitor.step at hstep
  cases answer with
  | slept =>
    dsimp only at hstep
    split at hstep
    · next hstage =>
      cases hstep
      exact h.poll (h.unsettled (hstage ▸ rfl)) _
    · cases hstep
  | described jobs =>
    dsimp only at hstep
    split at hstep
    · next hstage =>
      cases hstep
      exact h.stage (h.unsettled (hstage ▸ rfl)) _
    · next hstage =>
      cases hstep
      exact h.onStatus (h.unsettled (hstage ▸ rfl)) _
    · cases hstep
  | object body =>
    dsimp only at hstep
    split at hstep
    · next hstage =>
      cases hstep
      exact h.settle (h.unsettled (hstage ▸ rfl)) _
    · next hstage =>
      cases hstep
      exact h.setResult (h.unsettled (hstage ▸ rfl)) _
    · cases hstep
  | noSuchKey =>
    dsimp only at hstep
    split at hstep
    · next hstage =>
      cases hstep
      exact h.stage (h.unsettled (hstage ▸ rfl)) _
    · next hstage =>
      cases hstep
      exact h.settle (h.unsettled (hstage ▸ rfl)) _
    · cases hstep
  | done =>
    dsimp only at hstep
    split at hstep
    · cases hstep
      exact ⟨h.log, fun hearly => absurd hearly nofun⟩
    · next hstage =>
      cases hstep
      exact h.settle (h.unsettled (hstage ▸ rfl)) _
    · cases hstep
  | raised =>
    dsimp only at hstep
    split at hstep
    · next hstage =>
      cases hstep
      exact h.stage (h.unsettled (hstage ▸ rfl)) _
    · next hstage =>
      cases hstep
      exact h.settle (h.unsettled (hstage ▸ rfl)) _
    · next hstage => exact absurd rfl (hcleanup hstage)
    · cases hstep

@[simp] theorem task_settle (outcome : Except JobError Value) (next : BatchStage) : (m.settle outcome next).task = m.task := by
  unfold BatchMonitor.settle
  split <;> rfl

@[simp] theorem task_setResult (value : Value) : (m.setResult value).task = m.task := by
  unfold BatchMonitor.setResult fetchFailed
  split <;> simp

@[simp] theorem task_onStatus (job : JobRow) : (m.onStatus job).task = m.task := by
  unfold BatchMonitor.onStatus
  split <;> rfl

theorem task_step {answer : Answer Value} (hstep : m.step answer = some m') : m'.task = m.task := by
  unfold BatchMonitor.step fetchFailed at hstep
  cases answer <;> dsimp only at hstep <;> split at hstep <;> cases hstep <;> simp

theorem sound_of_run {task : TaskID} {answers : List (Answer Value)}
    (hcleanup : AlongSome step CleanupSucceeds (start task) answers) (hrun : answers.foldlM step (start task) = some m) :
    m.task = task ∧ m.Sound :=
  hcleanup.foldlM (I := fun m => m.task = task ∧ m.Sound)
    (fun _ _ _ h hok hstep => ⟨(task_step hstep).trans h.1, h.2.step hok hstep⟩) ⟨rfl, .start task⟩ hrun

end BatchMonitor

namespace ArrayMonitor

variable {m m' : ArrayMonitor Value} {index : Nat} {jobs : List JobRow} {later : List (List Nat)} {task : TaskID}

theorem flatten_batches (indices : List Nat) : (batches indices).flatten = indices := by
  have hcount : ∀ count, ((List.range count).map fun k =>
      (indices.drop (describeBatchSize * k)).take describeBatchSize).flatten = indices.take (describeBatchSize * count) := by
    intro count
    induction count with
    | zero => rfl
    | succ count ih =>
      rw [List.range_succ, List.map_append, List.flatten_append, ih, Nat.mul_succ, List.take_add]
      simp
  rw [batches, hcount]
  refine List.take_of_length_le ?_
  rw [describeBatchSize]
  omega

theorem ne_nil_of_mem_batches {indices batch : List Nat} (h : batch ∈ batches indices) : batch ≠ [] := by
  obtain ⟨k, hk, rfl⟩ := List.mem_map.mp h
  rw [List.mem_range, describeBatchSize] at hk
  rw [← List.length_pos_iff, List.length_take, List.length_drop, describeBatchSize]
  omega

/-- The children that are resolved are those whose futures are settled. -/
def Resolved (m : ArrayMonitor Value) : Prop :=
  ∀ i task, m.job.tasks[i]? = some task → (i ∈ m.resolved ↔ task ∈ m.log.settled)

/-- The future of one child is settled, and the child is not resolved yet. -/
def ResolvedBut (m : ArrayMonitor Value) (index : Nat) : Prop :=
  (∃ task, m.job.tasks[index]? = some task ∧ task ∈ m.log.settled) ∧
    ∀ i task, m.job.tasks[i]? = some task → i ≠ index → (i ∈ m.resolved ↔ task ∈ m.log.settled)

/-- The children that are still to be described in this round are not settled, and the jobs that are
left of the answer are not among them. -/
structure Later (job : ArrayJob) (settled : List TaskID) (jobs : List JobRow) (later : List (List Nat)) : Prop where
  nonempty : ∀ batch ∈ later, batch ≠ []
  nodup : later.flatten.Nodup
  unsettled : ∀ i ∈ later.flatten, ∃ task, job.tasks[i]? = some task ∧ task ∉ settled
  apart : ∀ i status, some (i, status) ∈ jobs → i ∉ later.flatten

def StageSound (m : ArrayMonitor Value) : Prop :=
  match m.stage with
  | .sleeping => m.Resolved
  | .describing batch later => m.Resolved ∧ Later m.job m.log.settled [] later ∧ ∀ i ∈ batch, i ∉ later.flatten
  | .fetching index _ _ jobs later =>
    m.Resolved ∧ Later m.job m.log.settled jobs later ∧ index ∉ later.flatten ∧ ∃ task, m.job.tasks[index]? = some task ∧ task ∉ m.log.settled
  | .retrying index _ jobs later =>
    m.Resolved ∧ Later m.job m.log.settled jobs later ∧ index ∉ later.flatten ∧ ∃ task, m.job.tasks[index]? = some task ∧ task ∉ m.log.settled
  | .deleting index jobs later => m.ResolvedBut index ∧ Later m.job m.log.settled jobs later
  | .cleaning _ => True
  | .finished => True

structure Sound (m : ArrayMonitor Value) : Prop where
  log : Orderly m.job.tasks m.log
  stage : m.StageSound

def CleanupSucceeds (m : ArrayMonitor Value) (answer : Answer Value) : Prop :=
  ∀ index jobs later, m.stage = .deleting index jobs later → answer ≠ .raised

theorem sound_nextRound (hlog : Orderly m.job.tasks m.log) (h : m.Resolved) : m.nextRound.Sound := by
  unfold nextRound
  split
  · exact ⟨hlog, h⟩
  · split
    · exact ⟨hlog, trivial⟩
    · exact ⟨hlog, trivial⟩

theorem sound_describe (hlog : Orderly m.job.tasks m.log) (h : m.Resolved) (hlater : Later m.job m.log.settled [] later) :
    (m.describe later).Sound := by
  cases later with
  | nil => exact sound_nextRound hlog h
  | cons batch later =>
    obtain ⟨i, hi⟩ := List.exists_mem_of_ne_nil batch (hlater.nonempty batch List.mem_cons_self)
    obtain ⟨task, htask, hopen⟩ := hlater.unsettled i (List.mem_append_left _ hi)
    have hnodup := List.nodup_append.mp hlater.nodup
    refine ⟨hlog.poll ⟨task, List.mem_of_getElem? htask, hopen⟩, h, ?_, ?_⟩
    · exact ⟨fun b hb => hlater.nonempty b (List.mem_cons_of_mem _ hb), hnodup.2.1,
        fun i hi => hlater.unsettled i (List.mem_append_right _ hi), fun _ _ hmem => absurd hmem List.not_mem_nil⟩
    · exact fun i hi hmem => hnodup.2.2 i hi i hmem rfl

theorem Resolved.resolve (h : m.ResolvedBut index) : (m.resolve index).Resolved := by
  obtain ⟨⟨task, htask, hsettled⟩, hothers⟩ := h
  intro i task' htask'
  have hmem : ∀ i, i ∈ (m.resolve index).resolved ↔ i ∈ m.resolved ∨ i = index := by
    intro i
    unfold ArrayMonitor.resolve
    dsimp only
    split
    · next hold =>
      refine ⟨.inl, ?_⟩
      rintro (h | rfl)
      · exact h
      · exact hold
    · simp
  rw [hmem]
  by_cases hi : i = index
  · subst hi
    obtain rfl := Option.some.inj (htask.symm.trans htask')
    exact ⟨fun _ => hsettled, fun _ => .inr rfl⟩
  · rw [or_iff_left hi]
    exact hothers i task' htask' hi

/-- A future of the batch is settled: those of the later batches are not. -/
theorem settled_later (hresolved : m.Resolved) (hlater : Later m.job m.log.settled jobs later) (htask : m.job.tasks[index]? = some task)
    (hindex : index ∉ later.flatten) (actions : List (MonitorAction Value)) :
    ResolvedBut { m with log := ⟨m.log.settled ++ [task], actions⟩ } index ∧
      Later m.job (m.log.settled ++ [task]) jobs later := by
  have hother : ∀ i task', m.job.tasks[i]? = some task' → i ≠ index → task' ≠ task := by
    rintro i task' htask' hi rfl
    have hlt := (List.getElem?_eq_some_iff.mp htask').1
    exact hi ((List.getElem?_inj hlt m.job.nodup).mp (htask'.trans htask.symm))
  refine ⟨⟨⟨task, htask, List.mem_append_right _ List.mem_cons_self⟩, fun i task' htask' hi => ?_⟩, ?_⟩
  · rw [List.mem_append, List.mem_singleton, or_iff_left (hother i task' htask' hi)]
    exact hresolved i task' htask'
  · refine ⟨hlater.nonempty, hlater.nodup, fun i hi => ?_, hlater.apart⟩
    obtain ⟨task', htask', hopen⟩ := hlater.unsettled i hi
    refine ⟨task', htask', fun hmem => ?_⟩
    rcases List.mem_append.mp hmem with hold | hnew
    · exact hopen hold
    · refine hother i task' htask' ?_ (List.mem_singleton.mp hnew)
      rintro rfl
      exact hindex hi

theorem sound_onJobs (hlog : Orderly m.job.tasks m.log) (h : m.Resolved) (hlater : Later m.job m.log.settled jobs later) :
    (onJobs later jobs m).Sound := by
  induction jobs generalizing m with
  | nil => exact sound_describe hlog h hlater
  | cons job jobs ih =>
    have hrest : Later m.job m.log.settled jobs later := ⟨hlater.nonempty, hlater.nodup, hlater.unsettled,
      fun i status hmem => hlater.apart i status (List.mem_cons_of_mem _ hmem)⟩
    cases job with
    | none => exact sound_nextRound hlog h
    | some row =>
      obtain ⟨index, status⟩ := row
      have hindex := hlater.apart index status List.mem_cons_self
      unfold onJobs
      split
      · exact sound_nextRound hlog h
      · next task htask =>
        split
        · next hsettled =>
          have hbut : m.ResolvedBut index := ⟨⟨task, htask, hsettled⟩, fun i task' htask' _ => h i task' htask'⟩
          exact ih hlog (.resolve hbut) hrest
        · next hopen =>
          split
          · exact ⟨hlog, h, hrest, hindex, task, htask, hopen⟩
          · obtain ⟨hsettle, hlog'⟩ := hlog.settle hopen (.error .jobFailed)
            obtain ⟨hbut, hlater'⟩ := settled_later h hrest htask hindex _
            rw [hsettle]
            exact ih hlog' (.resolve hbut) hlater'
          · exact ih hlog h hrest
          · exact ih hlog h hrest

theorem sound_fetchFailed (hlog : Orderly m.job.tasks m.log) (h : m.Resolved) (hlater : Later m.job m.log.settled jobs later)
    (hindex : index ∉ later.flatten) (hopen : ∃ task, m.job.tasks[index]? = some task ∧ task ∉ m.log.settled) :
    (m.fetchFailed index jobs later).Sound := by
  obtain ⟨task, htask, hopen⟩ := hopen
  obtain ⟨hsettle, hlog'⟩ := hlog.settle hopen (.error .fetchFailed)
  obtain ⟨hbut, hlater'⟩ := settled_later h hlater htask hindex _
  unfold fetchFailed
  rw [htask]
  dsimp only
  rw [hsettle]
  exact sound_onJobs hlog' (.resolve hbut) hlater'

theorem sound_setResult (hlog : Orderly m.job.tasks m.log) (h : m.Resolved) (hlater : Later m.job m.log.settled jobs later)
    (hindex : index ∉ later.flatten) (hopen : ∃ task, m.job.tasks[index]? = some task ∧ task ∉ m.log.settled)
    (value : Value) : (m.setResult index value jobs later).Sound := by
  obtain ⟨task, htask, hopen⟩ := hopen
  obtain ⟨hsettle, hlog'⟩ := hlog.settle hopen (.ok value)
  unfold setResult
  rw [htask]
  dsimp only
  rw [hsettle]
  obtain ⟨hbut, hlater'⟩ := settled_later h hlater htask hindex _
  exact ⟨hlog', hbut, hlater'⟩

theorem Sound.start (job : ArrayJob) : (start job : ArrayMonitor Value).Sound := by
  refine sound_nextRound (.empty _) fun i task _ => ?_
  exact ⟨fun hmem => absurd hmem List.not_mem_nil, fun hmem => absurd hmem List.not_mem_nil⟩

theorem later_batches (h : m.Resolved) : Later m.job m.log.settled [] (batches m.unresolvedIndices) := by
  refine ⟨fun batch hbatch => ne_nil_of_mem_batches hbatch, ?_, ?_, fun _ _ hmem => absurd hmem List.not_mem_nil⟩
  · rw [flatten_batches]
    exact List.nodup_range.filter _
  · rw [flatten_batches]
    intro i hi
    obtain ⟨hlt, hopen⟩ := List.mem_filter.mp hi
    have htask := List.getElem?_eq_getElem (List.mem_range.mp hlt)
    exact ⟨_, htask, fun hsettled => of_decide_eq_true hopen ((h i _ htask).mpr hsettled)⟩

theorem Sound.sleeping (h : m.Sound) (hstage : m.stage = .sleeping) : m.Resolved := by
  have hsound := h.stage
  rwa [StageSound, hstage] at hsound

theorem Sound.describing {batch : List Nat} (h : m.Sound) (hstage : m.stage = .describing batch later) :
    m.Resolved ∧ Later m.job m.log.settled [] later ∧ ∀ i ∈ batch, i ∉ later.flatten := by
  have hsound := h.stage
  rwa [StageSound, hstage] at hsound

theorem Sound.fetching {attempt candidate : Nat} (h : m.Sound) (hstage : m.stage = .fetching index attempt candidate jobs later) :
    m.Resolved ∧ Later m.job m.log.settled jobs later ∧ index ∉ later.flatten ∧
      ∃ task, m.job.tasks[index]? = some task ∧ task ∉ m.log.settled := by
  have hsound := h.stage
  rwa [StageSound, hstage] at hsound

theorem Sound.retrying {attempt : Nat} (h : m.Sound) (hstage : m.stage = .retrying index attempt jobs later) :
    m.Resolved ∧ Later m.job m.log.settled jobs later ∧ index ∉ later.flatten ∧
      ∃ task, m.job.tasks[index]? = some task ∧ task ∉ m.log.settled := by
  have hsound := h.stage
  rwa [StageSound, hstage] at hsound

theorem Sound.deleting (h : m.Sound) (hstage : m.stage = .deleting index jobs later) :
    m.ResolvedBut index ∧ Later m.job m.log.settled jobs later := by
  have hsound := h.stage
  rwa [StageSound, hstage] at hsound

theorem Sound.step (h : m.Sound) {answer : Answer Value} (hcleanup : m.CleanupSucceeds answer)
    (hstep : m.step answer = some m') : m'.Sound := by
  unfold ArrayMonitor.step at hstep
  cases answer with
  | slept =>
    dsimp only at hstep
    split at hstep
    · next hstage =>
      cases hstep
      have hresolved := h.sleeping hstage
      exact sound_describe h.log hresolved (later_batches hresolved)
    · next hstage =>
      obtain ⟨hresolved, hlater, hindex, hopen⟩ := h.retrying hstage
      split at hstep
      · cases hstep
        exact ⟨h.log, hresolved, hlater, hindex, hopen⟩
      · cases hstep
        exact sound_fetchFailed h.log hresolved hlater hindex hopen
    · cases hstep
  | described jobs =>
    dsimp only at hstep
    split at hstep
    · next batch later hstage =>
      obtain ⟨hresolved, hlater, hbatch⟩ := h.describing hstage
      split at hstep
      · next hdescribes =>
        cases hstep
        have hjobs : Later m.job m.log.settled jobs later := ⟨hlater.nonempty, hlater.nodup, hlater.unsettled,
          fun i status hmem => hbatch i (hdescribes i status hmem)⟩
        exact sound_onJobs h.log hresolved hjobs
      · cases hstep
    · cases hstep
  | object body =>
    dsimp only at hstep
    split at hstep
    · next hstage =>
      cases hstep
      obtain ⟨hresolved, hlater, hindex, hopen⟩ := h.fetching hstage
      exact sound_fetchFailed h.log hresolved hlater hindex hopen
    · next value hstage =>
      cases hstep
      obtain ⟨hresolved, hlater, hindex, hopen⟩ := h.fetching hstage
      exact sound_setResult h.log hresolved hlater hindex hopen value
    · cases hstep
  | noSuchKey =>
    dsimp only at hstep
    split at hstep
    · next hstage =>
      obtain ⟨hresolved, hlater, hindex, hopen⟩ := h.fetching hstage
      split at hstep
      · cases hstep
        exact ⟨h.log, hresolved, hlater, hindex, hopen⟩
      · cases hstep
        exact ⟨h.log, hresolved, hlater, hindex, hopen⟩
    · cases hstep
  | done =>
    dsimp only at hstep
    split at hstep
    · next hstage =>
      cases hstep
      obtain ⟨hbut, hlater⟩ := h.deleting hstage
      exact sound_onJobs h.log (.resolve hbut) hlater
    · split at hstep
      · cases hstep
        exact ⟨h.log, trivial⟩
      · cases hstep
        exact ⟨h.log, trivial⟩
    · cases hstep
  | raised =>
    dsimp only at hstep
    split at hstep
    · next hstage =>
      cases hstep
      exact sound_nextRound h.log (h.describing hstage).1
    · next hstage =>
      cases hstep
      obtain ⟨hresolved, hlater, hindex, hopen⟩ := h.fetching hstage
      exact sound_fetchFailed h.log hresolved hlater hindex hopen
    · next hstage => exact absurd rfl (hcleanup _ _ _ hstage)
    · cases hstep
      exact ⟨h.log, trivial⟩
    · cases hstep

@[simp] theorem job_nextRound : m.nextRound.job = m.job := by
  unfold nextRound
  split
  · rfl
  · split <;> rfl

@[simp] theorem job_describe : (m.describe later).job = m.job := by
  cases later with
  | nil => exact job_nextRound
  | cons batch later => rfl

@[simp] theorem job_onJobs : (onJobs later jobs m).job = m.job := by
  induction jobs generalizing m with
  | nil => exact job_describe
  | cons job jobs ih =>
    unfold onJobs
    grind [job_nextRound, ArrayMonitor.resolve]

@[simp] theorem job_fetchFailed : (m.fetchFailed index jobs later).job = m.job := by
  unfold fetchFailed
  split
  · simp
  · split <;> simp [ArrayMonitor.resolve]

@[simp] theorem job_setResult (value : Value) : (m.setResult index value jobs later).job = m.job := by
  unfold setResult
  split
  · simp
  · split <;> simp

theorem job_step {answer : Answer Value} (hstep : m.step answer = some m') : m'.job = m.job := by
  unfold ArrayMonitor.step at hstep
  cases answer <;> dsimp only at hstep <;> grind [job_describe, job_onJobs, job_fetchFailed, job_setResult, job_nextRound, ArrayMonitor.resolve]

theorem sound_of_run {job : ArrayJob} {answers : List (Answer Value)}
    (hcleanup : AlongSome step CleanupSucceeds (start job) answers) (hrun : answers.foldlM step (start job) = some m) :
    m.job = job ∧ m.Sound :=
  hcleanup.foldlM (I := fun m => m.job = job ∧ m.Sound)
    (fun _ _ _ h hok hstep => ⟨(job_step hstep).trans h.1, h.2.step hok hstep⟩) ⟨job_nextRound, .start job⟩ hrun

end ArrayMonitor

end AWSBatch

namespace OCIHPC

namespace ContainerMonitor

variable {m m' : ContainerMonitor Value}

/-- The stages before the future is settled. -/
def early : ContainerStage → Bool
  | .deletingResult => false
  | .deletingInstance => false
  | .finished => false
  | _ => true

structure Sound (m : ContainerMonitor Value) : Prop where
  log : Orderly [m.task] m.log
  unsettled : early m.stage = true → m.task ∉ m.log.settled

theorem Sound.start (task : TaskID) : (start task : ContainerMonitor Value).Sound :=
  ⟨.empty _, fun _ => List.not_mem_nil⟩

theorem Sound.stage (h : m.Sound) (hopen : m.task ∉ m.log.settled) (stage : ContainerStage) : Sound { m with stage } :=
  ⟨h.log, fun _ => hopen⟩

/-- The deletions come after the future is settled, whatever they end with. -/
theorem Sound.late (h : m.Sound) {stage : ContainerStage} (hlate : early stage = false) : Sound { m with stage } :=
  ⟨h.log, fun hearly => absurd (hlate.symm.trans hearly) nofun⟩

theorem Sound.settle (h : m.Sound) (hopen : m.task ∉ m.log.settled) (outcome : Except JobError Value) {next : ContainerStage}
    (hlate : early next = false) (handler : ContainerStage) : (m.settle outcome next handler).Sound := by
  obtain ⟨hsettle, hlog⟩ := h.log.settle hopen outcome
  unfold ContainerMonitor.settle
  rw [hsettle]
  exact ⟨hlog, fun hearly => absurd (hlate.symm.trans hearly) nofun⟩

theorem Sound.onResult (h : m.Sound) (hopen : m.task ∉ m.log.settled) (body : Option Value) : (m.onResult body).Sound := by
  unfold ContainerMonitor.onResult
  cases body with
  | none =>
    obtain ⟨hsettle, hlog⟩ := h.log.settle hopen (.error .failedInContainer)
    dsimp only
    rw [hsettle]
    exact ⟨hlog, fun hearly => absurd hearly nofun⟩
  | some value =>
    obtain ⟨hsettle, hlog⟩ := h.log.settle hopen (.ok value)
    dsimp only
    rw [hsettle]
    exact ⟨hlog, fun hearly => absurd hearly nofun⟩

theorem Sound.onState (h : m.Sound) (hopen : m.task ∉ m.log.settled) (lifecycleState : LifecycleState) :
    (m.onState lifecycleState).Sound := by
  unfold ContainerMonitor.onState
  split
  · exact h.stage hopen _
  · exact h.stage hopen _
  · exact h.stage hopen _
  · exact h.stage hopen _
  · have hcount : Sound { m with unexpectedStateCount := m.unexpectedStateCount + 1 } := ⟨h.log, h.unsettled⟩
    dsimp only
    split
    · exact hcount.settle hopen _ rfl _
    · exact hcount.stage hopen _

theorem Sound.step (h : m.Sound) {answer : Answer Value} (hstep : m.step answer = some m') : m'.Sound := by
  unfold ContainerMonitor.step at hstep
  cases answer with
  | slept timedOut =>
    dsimp only at hstep
    split at hstep
    · next hstage =>
      have hopen := h.unsettled (hstage ▸ rfl)
      split at hstep
      · cases hstep
        exact h.settle hopen _ rfl _
      · cases hstep
        exact ⟨h.log.poll ⟨m.task, List.mem_singleton_self _, hopen⟩, fun _ => hopen⟩
    · cases hstep
  | state lifecycleState =>
    dsimp only at hstep
    split at hstep
    · next hstage =>
      cases hstep
      exact h.onState (h.unsettled (hstage ▸ rfl)) _
    · cases hstep
  | object body =>
    dsimp only at hstep
    split at hstep
    · next hstage =>
      cases hstep
      exact h.settle (h.unsettled (hstage ▸ rfl)) _ rfl _
    · next hstage =>
      cases hstep
      exact h.onResult (h.unsettled (hstage ▸ rfl)) _
    · cases hstep
  | done =>
    dsimp only at hstep
    split at hstep
    · cases hstep
      exact h.late rfl
    · next hstage =>
      cases hstep
      exact h.settle (h.unsettled (hstage ▸ rfl)) _ rfl _
    · cases hstep
      exact h.late rfl
    · cases hstep
  | serviceError status =>
    dsimp only at hstep
    split at hstep
    · next hstage =>
      have hopen := h.unsettled (hstage ▸ rfl)
      split at hstep
      · cases hstep
        exact h.settle hopen _ rfl _
      · cases hstep
        exact h.stage hopen _
    · next hstage =>
      cases hstep
      exact h.settle (h.unsettled (hstage ▸ rfl)) _ rfl _
    · cases hstep
      exact h.late rfl
    · cases hstep
      exact h.late rfl
    · cases hstep
  | raised =>
    dsimp only at hstep
    split at hstep
    · next hstage =>
      cases hstep
      exact h.stage (h.unsettled (hstage ▸ rfl)) _
    · next hstage =>
      cases hstep
      exact h.settle (h.unsettled (hstage ▸ rfl)) _ rfl _
    · cases hstep
      exact h.late rfl
    · cases hstep
      exact h.late rfl
    · cases hstep

@[simp] theorem task_settle (outcome : Except JobError Value) (next handler : ContainerStage) :
    (m.settle outcome next handler).task = m.task := by
  unfold ContainerMonitor.settle
  split <;> rfl

@[simp] theorem task_onResult (body : Option Value) : (m.onResult body).task = m.task := by
  unfold ContainerMonitor.onResult fetchFailed
  dsimp only
  split <;> simp

@[simp] theorem task_onState (lifecycleState : LifecycleState) : (m.onState lifecycleState).task = m.task := by
  unfold ContainerMonitor.onState
  cases lifecycleState <;> dsimp only
  split <;> simp

theorem task_step {answer : Answer Value} (hstep : m.step answer = some m') : m'.task = m.task := by
  unfold ContainerMonitor.step fetchFailed at hstep
  cases answer <;> dsimp only at hstep <;> grind [task_settle, task_onResult, task_onState]

theorem sound_of_run {task : TaskID} {answers : List (Answer Value)} (hrun : answers.foldlM step (start task) = some m) :
    m.task = task ∧ m.Sound :=
  foldlM_some (I := fun m => m.task = task ∧ m.Sound)
    (fun _ _ _ h hstep => ⟨(task_step hstep).trans h.1, h.2.step hstep⟩) ⟨rfl, .start task⟩ hrun

end ContainerMonitor

end OCIHPC

/-- Each monitor settles every future once and then stops: that of OCI in every run, those of AWS
Batch in every run in which no deletion of a result raises after the result was set. -/
theorem monitors_settle_once :
    (∀ (task : TaskID) (answers : List (AWSBatch.Answer Value)) (m : AWSBatch.BatchMonitor Value),
      AlongSome AWSBatch.BatchMonitor.step AWSBatch.BatchMonitor.CleanupSucceeds (.start task) answers →
      answers.foldlM AWSBatch.BatchMonitor.step (.start task) = some m → SettlesOnce [task] m.log.actions) ∧
    (∀ (job : AWSBatch.ArrayJob) (answers : List (AWSBatch.Answer Value)) (m : AWSBatch.ArrayMonitor Value),
      AlongSome AWSBatch.ArrayMonitor.step AWSBatch.ArrayMonitor.CleanupSucceeds (.start job) answers →
      answers.foldlM AWSBatch.ArrayMonitor.step (.start job) = some m → SettlesOnce job.tasks m.log.actions) ∧
    ∀ (task : TaskID) (answers : List (OCIHPC.Answer Value)) (m : OCIHPC.ContainerMonitor Value),
      answers.foldlM OCIHPC.ContainerMonitor.step (.start task) = some m → SettlesOnce [task] m.log.actions := by
  refine ⟨fun task answers m hcleanup hrun => ?_, fun job answers m hcleanup hrun => ?_, fun task answers m hrun => ?_⟩
  · obtain ⟨rfl, h⟩ := AWSBatch.BatchMonitor.sound_of_run hcleanup hrun
    exact h.log.toSettlesOnce
  · obtain ⟨rfl, h⟩ := AWSBatch.ArrayMonitor.sound_of_run hcleanup hrun
    exact h.log.toSettlesOnce
  · obtain ⟨rfl, h⟩ := OCIHPC.ContainerMonitor.sound_of_run hrun
    exact h.log.toSettlesOnce

theorem monitors_settle_once_deletion : ∃ m : AWSBatch.BatchMonitor Nat,
    [.slept, .described [some (0, .succeeded)], .object (some 7), .done].foldlM AWSBatch.BatchMonitor.step (.start ⟨0⟩) = some m ∧
      attempts m.log.actions = [⟨0⟩] ∧ SettlesOnce [⟨0⟩] m.log.actions := by
  refine ⟨_, rfl, rfl, monitors_settle_once.1 ⟨0⟩ [.slept, .described [some (0, .succeeded)], .object (some 7), .done] _ ?_ rfl⟩
  refine ⟨nofun, fun _ hslept => ?_⟩
  obtain rfl := Option.some.inj hslept
  refine ⟨nofun, fun _ hdescribed => ?_⟩
  obtain rfl := Option.some.inj hdescribed
  refine ⟨nofun, fun _ hobject => ?_⟩
  obtain rfl := Option.some.inj hobject
  exact ⟨fun _ => nofun, fun _ _ => trivial⟩

-- the result was set: the future gets an exception as well, and the job is polled again
theorem failed_deletion_settles_again :
    (∃ m : AWSBatch.BatchMonitor Nat,
      [.slept, .described [some (0, .succeeded)], .object (some 7), .raised, .slept].foldlM AWSBatch.BatchMonitor.step
        (.start ⟨0⟩) = some m ∧
      attempts m.log.actions = [⟨0⟩, ⟨0⟩] ∧ m.log.actions[3]? = some MonitorAction.poll ∧ ¬ SettlesOnce [⟨0⟩] m.log.actions) ∧
    ∃ m : AWSBatch.ArrayMonitor Nat,
      [.slept, .described [some (0, .succeeded)], .object (some 7), .raised].foldlM AWSBatch.ArrayMonitor.step
        (.start ⟨[⟨0⟩], List.nodup_singleton _⟩) = some m ∧
      attempts m.log.actions = [⟨0⟩, ⟨0⟩] ∧ ¬ SettlesOnce [⟨0⟩] m.log.actions := by
  refine ⟨⟨_, rfl, rfl, rfl, fun h => ?_⟩, _, rfl, rfl, fun h => ?_⟩
  · exact absurd h.once (by decide)
  · exact absurd h.once (by decide)

end Scaler.Adapter
