import Scaler.Scheduler.Loop

/-! Submitting a task: what `on_task_new` has written when it first gives up control. -/

namespace Scaler

open Collections Coroutine

section UpTo

variable {α β : Type} {i : Tid} {b : Bool} {s : Sched}

theorem upTo_reads {f : Sched → α} {g : α → M β} :
    (Coro.reads f >>= g).upTo i b s = (g (f s)).upTo i b s := rfl

theorem upTo_modify {f : Sched → Sched} {g : Unit → M β} :
    (Coro.modify f >>= g).upTo i b s = (g ()).upTo i b (f s) := rfl

theorem upTo_syncNoting {o : Obs} {f : Sched → Except Exn α × Sched} {g : α → M β} :
    (syncNoting o f >>= g).upTo i b s = match f s with
      | (.ok a, s') => (g a).upTo i b s'
      | (.error _, s') => s'.note o := by
  change ((Coro.ofExcept (f s).1).bind g).upTo i b _ = _
  beta_reduce
  obtain ⟨x, s'⟩ := f s
  cases x with
  | ok a => rfl
  | error e => rfl

end UpTo

/-- What a submission may change is as it was. -/
structure Sched.Untouched (s s' : Sched) : Prop where
  machines : s'.taskIdToStateMachine = s.taskIdToStateMachine
  statistics : s'.statistics = s.statistics
  payloads : s'.taskIdToTask = s.taskIdToTask
  unassigned : s'.unassigned = s.unassigned
  policy : s'.policy = s.policy
  owners : s'.clientToTaskIds = s.clientToTaskIds

/-- The task has a new machine, its payload and its client. -/
structure Sched.Submitted (s s' : Sched) (task : Task) : Prop where
  fresh : s.getStateMachine task.taskId = none
  machine : s'.taskIdToStateMachine =
    s.taskIdToStateMachine.set task.taskId ⟨s.nextUid, .inactive⟩
  statistics : s'.statistics =
    Function.update s.statistics .inactive (s.statistics .inactive + 1)
  payload : s'.taskIdToTask = s.taskIdToTask.set task.taskId task
  owners : s.clientToTaskIds.add task.source task.taskId = (.ok (), s'.clientToTaskIds)

/-- No other client owns the id of the task. -/
def Sched.Accepts (s : Sched) (task : Task) : Prop :=
  ∀ c, s.clientToTaskIds.getKey? task.taskId = some c → c = task.source

section

variable {s : Sched} {task : Task}

theorem Sched.onTaskBegin_accepted (h : s.Accepts task) (t : Sched)
    (ht : t.clientToTaskIds = s.clientToTaskIds) :
    ∃ owners, s.clientToTaskIds.add task.source task.taskId = (.ok (), owners) ∧
      t.onTaskBegin task.source task.taskId = (.ok (), { t with clientToTaskIds := owners }) := by
  have hany : (s.clientToTaskIds.valueToKey.get? task.taskId).any (· ≠ task.source) = false := by
    cases hk : s.clientToTaskIds.valueToKey.get? task.taskId with
    | none => rfl
    | some c => simp [h c hk]
  unfold onTaskBegin
  rw [ht]
  unfold OneToManyDict.add
  rw [hany]
  exact ⟨_, rfl, rfl⟩

theorem Sched.onTaskBegin_refused (h : ¬ s.Accepts task) (t : Sched)
    (ht : t.clientToTaskIds = s.clientToTaskIds) :
    ∃ e, t.onTaskBegin task.source task.taskId = (.error e, t) := by
  have hany : (s.clientToTaskIds.valueToKey.get? task.taskId).any (· ≠ task.source) = true := by
    unfold Accepts at h
    push Not at h
    obtain ⟨c, hc, hne⟩ := h
    rw [show s.clientToTaskIds.valueToKey.get? task.taskId = some c from hc]
    simpa using hne
  unfold onTaskBegin
  rw [← ht] at hany
  unfold OneToManyDict.add
  rw [if_pos hany]
  exact ⟨_, rfl⟩

theorem onTaskNew_registered (h : (s.getStateMachine task.taskId).isSome = true) (i : Tid) (b : Bool) :
    (onTaskNew task).upTo i b s = s := by
  unfold onTaskNew
  rw [upTo_reads, if_pos h]
  rfl

theorem onTaskNew_refused (hm : s.getStateMachine task.taskId = none) (ha : ¬ s.Accepts task)
    (i : Tid) (b : Bool) :
    (onTaskNew task).upTo i b s =
      (s.addStateMachine task.taskId).note (.refused task.taskId) := by
  obtain ⟨e, he⟩ := Sched.onTaskBegin_refused ha (s.addStateMachine task.taskId) rfl
  unfold onTaskNew
  rw [upTo_reads, hm, if_neg (by simp), upTo_modify, upTo_syncNoting, he]

theorem onTaskNew_accepted (hm : s.getStateMachine task.taskId = none) (ha : s.Accepts task)
    (i : Tid) (b : Bool) : s.Submitted ((onTaskNew task).upTo i b s) task := by
  obtain ⟨owners, ho, he⟩ := Sched.onTaskBegin_accepted ha (s.addStateMachine task.taskId) rfl
  unfold onTaskNew
  rw [upTo_reads, hm, if_neg (by simp), upTo_modify, upTo_syncNoting, he]
  dsimp only
  rw [upTo_modify, acquireWorker, upTo_syncNoting]
  -- from here on only the queue, the policy and the history change
  unfold Sched.policyOp
  dsimp only
  cases (s.addStateMachine task.taskId).policy.assignTask task with
  | mk r p =>
    cases r with
    | error e => exact ⟨hm, rfl, rfl, rfl, ho⟩
    | ok w =>
      cases w with
      | some w => exact ⟨hm, rfl, rfl, rfl, ho⟩
      | none =>
        cases b with
        | true => exact ⟨hm, rfl, rfl, rfl, ho⟩
        | false => exact ⟨hm, rfl, rfl, rfl, ho⟩

theorem onTaskNew_allOrNothing (i : Tid) (b : Bool) :
    s.Untouched ((onTaskNew task).upTo i b s) ∨ s.Submitted ((onTaskNew task).upTo i b s) task ↔
      (s.getStateMachine task.taskId).isSome = true ∨ s.Accepts task := by
  constructor
  · intro h
    by_contra hn
    push Not at hn
    obtain ⟨hm, ha⟩ := hn
    have hm : s.getStateMachine task.taskId = none := by simpa using hm
    rw [onTaskNew_refused hm ha] at h
    rcases h with h | h
    · have hmachine := congrArg (·.get? task.taskId) h.machines
      simp only [Sched.note, Sched.addStateMachine, Dict.get?_set_self] at hmachine
      rw [show s.taskIdToStateMachine.get? task.taskId = none from hm] at hmachine
      cases hmachine
    · obtain ⟨e, he⟩ := Sched.onTaskBegin_refused ha s rfl
      have ho : (s.onTaskBegin task.source task.taskId).1 = .ok () := congrArg Prod.fst h.owners
      rw [he] at ho
      cases ho
  · rintro (h | h)
    · rw [onTaskNew_registered h]
      exact .inl ⟨rfl, rfl, rfl, rfl, rfl, rfl⟩
    · cases hm : s.getStateMachine task.taskId with
      | none => exact .inr (onTaskNew_accepted hm h i b)
      | some m =>
        rw [onTaskNew_registered (by simp [hm])]
        exact .inl ⟨rfl, rfl, rfl, rfl, rfl, rfl⟩

end

/-- The event loop is about to run `on_task_new`. Until it first gives up control,
everything or nothing is written exactly when the id is registered already or no other
client owns it. -/
theorem submission_all_or_nothing {cfg : SchedulerConfig} {c : Config Sched Exn Label Proc} {i : Tid}
    {t : Thread Sched Exn Label Proc} {task : Task} (_ : Reachable scheduler (Sched.init cfg) c)
    (hc : c.current = some i) (ht : c.thread? i = some t) (hk : t.code = .run (onTaskNew task))
    (b : Bool) :
    ∃ n c', runMoves scheduler c (List.replicate n (.exec b)) = some c' ∧
      c'.state = (onTaskNew task).upTo i b c.state ∧
      (c.state.Untouched c'.state ∨ c.state.Submitted c'.state task ↔
        (c.state.getStateMachine task.taskId).isSome = true ∨ c.state.Accepts task) := by
  obtain ⟨n, c', hr, hs⟩ := runMoves_upTo (P := scheduler) hc ht hk b
  refine ⟨n, c', hr, hs, ?_⟩
  rw [hs]
  exact onTaskNew_allOrNothing i b

/-- A task of the client 100, received by an idle scheduler. -/
theorem submission_all_or_nothing_idle : ∃ (c : Config Sched Exn Label Proc) (n : Nat)
    (c' : Config Sched Exn Label Proc), Reachable scheduler (Sched.init ⟨.evenLoad, false⟩) c ∧
      runMoves scheduler c (List.replicate n (.exec true)) = some c' ∧
      (c.state.Untouched c'.state ∨
        c.state.Submitted c'.state ⟨⟨1⟩, ⟨100⟩, [], ⟨0⟩, [], []⟩) := by
  let ms : List (Move Proc) := [.spawn (.onReceiveMessage 100 (.task ⟨⟨1⟩, ⟨100⟩, [], ⟨0⟩, [], []⟩)),
    .resume [0], .exec true, .exec true]
  have hr : Reachable scheduler (Sched.init ⟨.evenLoad, false⟩) _ :=
    Reachable.start.runMoves (rfl : runMoves scheduler _ ms = some _)
  obtain ⟨n, c', hn, _, hiff⟩ := submission_all_or_nothing hr rfl rfl rfl true
  exact ⟨_, n, c', hr, hn, hiff.mpr (.inr (by rintro c ⟨⟩))⟩

/-- The client 100 submits the graph 5, which has one node. -/
def graphSubmission : List (Move Proc) :=
  [.spawn (.onReceiveMessage 100 (.graphTask ⟨⟨5⟩, ⟨100⟩, [⟨6⟩], [⟨⟨6⟩, ⟨100⟩, [], ⟨0⟩, [], []⟩]⟩)),
    .resume [0], .spawn .graphRoutine, .resume [1]]

/-- While the graph is being added, the client 101 submits a task under the graph's id. -/
def graphIdSubmission : List (Move Proc) :=
  [.spawn (.onReceiveMessage 101 (.task ⟨⟨5⟩, ⟨101⟩, [], ⟨0⟩, [], []⟩)), .resume [2]]

/-- The task is refused and leaves a machine without a payload behind. -/
theorem graph_id_half_registered : ∃ c c' : Config Sched Exn Label Proc,
    Reachable scheduler (Sched.init ⟨.evenLoad, false⟩) c ∧ c.Suspended ∧
      drive scheduler 50 c graphIdSubmission = some c' ∧ c'.Suspended ∧
      (c'.state.getStateMachine ⟨5⟩).isSome = true ∧ c'.state.taskIdToTask.get? ⟨5⟩ = none ∧
      ¬ (c.state.Untouched c'.state ∨ c.state.Submitted c'.state ⟨⟨5⟩, ⟨101⟩, [], ⟨0⟩, [], []⟩) := by
  have hd : (drive scheduler 50 (start (Sched.init ⟨.evenLoad, false⟩)) graphSubmission).any (fun c =>
      c.current.isNone && (c.state.getStateMachine ⟨5⟩).isNone &&
        (drive scheduler 50 c graphIdSubmission).any fun c' => c'.current.isNone &&
          (c'.state.getStateMachine ⟨5⟩).isSome && (c'.state.taskIdToTask.get? ⟨5⟩).isNone) = true := by
    decide +kernel
  obtain ⟨c, hc, hb⟩ := (Option.any_eq_true _ _).mp hd
  simp only [Bool.and_eq_true, Option.isNone_iff_eq_none] at hb
  obtain ⟨⟨hs, hm⟩, hd'⟩ := hb
  obtain ⟨c', hc', hb'⟩ := (Option.any_eq_true _ _).mp hd'
  simp only [Bool.and_eq_true, Option.isNone_iff_eq_none] at hb'
  obtain ⟨⟨hs', hm'⟩, hp'⟩ := hb'
  refine ⟨c, c', .drive .start hc, hs, hc', hs', hm', hp', ?_⟩
  rintro (h | h)
  · have he : c'.state.getStateMachine ⟨5⟩ = c.state.getStateMachine ⟨5⟩ :=
      congrArg (·.get? ⟨5⟩) h.machines
    rw [he, hm] at hm'
    cases hm'
  · rw [h.payload, Dict.get?_set_self] at hp'
    cases hp'

end Scaler
