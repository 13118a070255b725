import Scaler.Adapter.Slots

/-! The answers of the adapter's task manager. While no accepted cancel meets a task that has left
the queue and no outer call raises, no coroutine stops, and every task that is done with has had
exactly one result or confirmed cancel. -/

namespace Scaler

open Collections

namespace Adapter

/-- A result, or the confirmation of a cancel. -/
def Sent.answers (t : TaskID) : Sent → Bool
  | .taskResult taskId _ => taskId = t
  | .cancelConfirm taskId .canceled => taskId = t
  | .cancelConfirm _ _ => false

namespace TaskManager

def answerCount (m : TaskManager) (t : TaskID) : Nat := m.sent.countP (Sent.answers t)

/-- The result of the task is being stored. -/
def Stores (m : TaskManager) (t : TaskID) : Prop :=
  match m.resolver with
  | .resolving .setObject taskId _ _ => taskId = t
  | .resolving .sendInstruction taskId _ _ => taskId = t
  | _ => False

/-- A task whose answer is still to come. -/
def Outstanding (m : TaskManager) (t : TaskID) : Prop :=
  m.queuedTaskIdQueue.locator.contains t = true ∨ t ∈ m.processingTaskIds ∨ m.Stores t

structure Balanced (m : TaskManager) (t : TaskID) : Prop where
  outstanding : m.Outstanding t → m.answerCount t + 1 = m.received.count t
  resolved : ¬m.Outstanding t → m.answerCount t = m.received.count t

/-- The futures that `resolve_tasks` has in hand. -/
def inHand (m : TaskManager) : List Nat :=
  match m.resolver with
  | .wait futures => futures
  | .resolving _ _ _ done => done
  | _ => []

structure FuturesWf (m : TaskManager) : Prop where
  injective : ∀ t t' future, m.taskIdToFuture.get? t = some future → m.taskIdToFuture.get? t' = some future → t = t'
  bound : ∀ t future, m.taskIdToFuture.get? t = some future → future < m.executions
  registered : ∀ future ∈ m.inHand, ∃ t, m.taskIdToFuture.get? t = some future
  nodup : m.inHand.Nodup
  done : ∀ stage t resultType rest, m.resolver = .resolving stage t resultType rest →
    ∀ future ∈ rest, m.outcomes.contains future = true

structure Healthy (m : TaskManager) : Prop where
  wf : m.Wf
  exception : m.exception = none
  resolver : m.resolver ≠ .ended
  futures : m.FuturesWf
  canceling : ∀ t, m.receiver = .onCancel t → t ∈ m.processingTaskIds
  balanced : ∀ t, m.Balanced t

/-- The futures that the next step of `resolve_tasks` looks at. -/
def upcoming (m : TaskManager) (done : List Nat) : List Nat :=
  match m.resolver with
  | .wait _ => done
  | .resolving .sendResult _ _ rest => rest
  | _ => []

/-- The first of them whose task is still processed; up to it only canceled tasks are passed. -/
def nextResult (m : TaskManager) (futures : List Nat) : Option (Nat × TaskID) :=
  futures.findSome? fun future =>
    match m.taskOfFuture future with
    | some t => if t ∈ m.processingTaskIds then some (future, t) else none
    | none => none

/-- The future was not cancelled, its task is not being canceled, and a returned value can be
serialized with the loaded serializer of the client. -/
structure Resolvable (m : TaskManager) (future : Nat) (t : TaskID) : Prop where
  uncancelled : m.outcomes.get? future ≠ some .cancelled
  undisturbed : m.receiver ≠ .onCancel t
  serializable : ∀ serializable, m.outcomes.get? future = some (.returned serializable) → serializable = true
  loaded : ∀ serializable, m.outcomes.get? future = some (.returned serializable) →
    ∀ task, m.taskIdToTask.get? t = some task → task.source ∈ m.serializers

/-- A safe event that brings no exception from outside: no outer call raises, priorities are not
negative, and what is resolved can be resolved. -/
def Good (m : TaskManager) : Event → Prop
  | .taskNew task => m.Safe (.taskNew task) ∧ 0 ≤ task.priority
  | .resolverRuns done => ∀ future t, m.nextResult (m.upcoming done) = some (future, t) → m.Resolvable future t
  | .receiverRaises _ => False
  | .processorRaises _ => False
  | .resolverRaises _ => False
  | event => m.Safe event

def GoodStep (m m' : TaskManager) : Prop := ∃ event, m.Good event ∧ m.step event = m'

/-- Nothing has raised, no loop has ended, and the cancels of tasks that are done with and of
running tasks are answered so. -/
structure Answering (m : TaskManager) : Prop where
  unraised : m.exception = none ∧ m.resolver ≠ .ended
  answered : ∀ t, m.Balanced t
  late : ∀ t force, m.Good (.cancelTask t force) → m.receiver = .message → ¬m.Outstanding t →
    m.step (.cancelTask t force) = m.send (.cancelConfirm t .cancelNotFound)
  unforced : ∀ t, m.receiver = .message → t ∈ m.processingTaskIds →
    m.step (.cancelTask t false) = m.send (.cancelConfirm t .cancelFailed)

theorem create_healthy (baseConcurrency : Nat) : (create baseConcurrency).Healthy where
  wf := create_wf baseConcurrency
  exception := rfl
  resolver := by simp [create]
  futures :=
    { injective := by simp [create]
      bound := by simp [create]
      registered := by simp [create, inHand]
      nodup := List.nodup_nil
      done := by simp [create] }
  canceling := by simp [create]
  balanced := by
    intro t
    constructor
    · intro h
      simp [Outstanding, Stores, create, StablePriorityQueue.empty, Dict.contains] at h
    · intro _
      rfl

theorem Healthy.toAnswering {m : TaskManager} (h : m.Healthy) : m.Answering where
  unraised := ⟨h.exception, h.resolver⟩
  answered := h.balanced
  late := by
    intro t force hgood hreceiver hresolved
    have hprocessing : t ∉ m.processingTaskIds := fun hp => hresolved (.inr (.inl hp))
    have hqueued : t ∉ m.queuedTaskIds := by
      intro hq
      have hstale : m.Stale t := ⟨hq, Bool.eq_false_iff.mpr fun hw => hresolved (.inl hw)⟩
      exact hprocessing (hgood hstale).1
    simp [step, h.exception, receive, hreceiver, onCancelTask, hqueued, hprocessing]
  unforced := by
    intro t hreceiver hprocessing
    simp [step, h.exception, receive, hreceiver, onCancelTask, hprocessing]

theorem Stores.resolves {m : TaskManager} {t : TaskID} (h : m.Stores t) : (m.view t).resolving := by
  simp only [Stores] at h
  simp only [view, Resolves]
  split at h
  · next hresolver => simpa [hresolver] using h
  · next hresolver => simpa [hresolver] using h
  · cases h

theorem stores_congr {m m' : TaskManager} (h : m'.resolver = m.resolver) (t : TaskID) : m'.Stores t ↔ m.Stores t := by
  rw [Stores, Stores, h]

/-- Where the tables say the same about a task, it is outstanding in both. -/
theorem outstanding_congr {m m' : TaskManager} {t : TaskID} (hwaiting : (m'.view t).waiting = (m.view t).waiting)
    (hprocessing : (m'.view t).processing = (m.view t).processing) (hresolver : m'.resolver = m.resolver) :
    m'.Outstanding t ↔ m.Outstanding t :=
  or_congr (iff_of_eq hwaiting) (or_congr (iff_of_eq hprocessing) (stores_congr hresolver t))

/-- The executions and the futures in hand are the same, and no outcome was withdrawn. -/
theorem FuturesWf.congr {m m' : TaskManager} (h : m.FuturesWf) (hfutures : m'.taskIdToFuture = m.taskIdToFuture)
    (hexecutions : m'.executions = m.executions) (hresolver : m'.resolver = m.resolver)
    (houtcomes : ∀ future, m.outcomes.contains future = true → m'.outcomes.contains future = true) :
    m'.FuturesWf := by
  have hinHand : m'.inHand = m.inHand := by rw [inHand, inHand, hresolver]
  refine ⟨?_, ?_, ?_, ?_, ?_⟩
  · rw [hfutures]
    exact h.injective
  · rw [hfutures, hexecutions]
    exact h.bound
  · rw [hfutures, hinHand]
    exact h.registered
  · rw [hinHand]
    exact h.nodup
  · rw [hresolver]
    exact fun stage t resultType rest hr future hmem => houtcomes future (h.done stage t resultType rest hr future hmem)

theorem Balanced.congr {m m' : TaskManager} {t : TaskID} (h : m.Balanced t)
    (houtstanding : m'.Outstanding t ↔ m.Outstanding t) (hanswers : m'.answerCount t = m.answerCount t)
    (hreceived : m'.received = m.received) : m'.Balanced t where
  outstanding := by
    rw [houtstanding, hanswers, hreceived]
    exact h.outstanding
  resolved := by
    rw [houtstanding, hanswers, hreceived]
    exact h.resolved

/-- The answer to a task that waited for it. -/
theorem Balanced.answer {m m' : TaskManager} {t : TaskID} (h : m.Balanced t) (hbefore : m.Outstanding t)
    (hafter : ¬m'.Outstanding t) (hanswers : m'.answerCount t = m.answerCount t + 1)
    (hreceived : m'.received = m.received) : m'.Balanced t where
  outstanding := fun hout => absurd hout hafter
  resolved := by
    intro _
    rw [hanswers, hreceived]
    exact h.outstanding hbefore

/-- A task that comes. -/
theorem Balanced.arrive {m m' : TaskManager} {t : TaskID} (h : m.Balanced t) (hbefore : ¬m.Outstanding t)
    (hafter : m'.Outstanding t) (hanswers : m'.answerCount t = m.answerCount t)
    (hreceived : m'.received = m.received ++ [t]) : m'.Balanced t where
  outstanding := by
    intro _
    rw [hanswers, hreceived, List.count_append, h.resolved hbefore, List.count_singleton_self]
  resolved := fun hout => absurd hafter hout

theorem Balanced.other {m m' : TaskManager} {t taskId : TaskID} (h : m.Balanced t) (hne : t ≠ taskId)
    (houtstanding : m'.Outstanding t ↔ m.Outstanding t) (hanswers : m'.answerCount t = m.answerCount t)
    (hreceived : m'.received = m.received ++ [taskId]) : m'.Balanced t := by
  have hcount : m'.received.count t = m.received.count t := by
    rw [hreceived, List.count_append, List.count_singleton, if_neg (by simpa using Ne.symm hne), Nat.add_zero]
  refine ⟨?_, ?_⟩
  · rw [houtstanding, hanswers, hcount]
    exact h.outstanding
  · rw [houtstanding, hanswers, hcount]
    exact h.resolved

theorem answerCount_send (m : TaskManager) (message : Sent) (t : TaskID) :
    (m.send message).answerCount t = m.answerCount t + if message.answers t then 1 else 0 := by
  rw [answerCount, answerCount, send, List.countP_append, List.countP_singleton]

theorem not_outstanding_of_not_held {m : TaskManager} (h : m.Wf) {t : TaskID}
    (hheld : m.taskIdToTask.contains t = false) : ¬m.Outstanding t := by
  have hnot : ¬(m.view t).held := by simp [view, hheld]
  rintro (hwaiting | hprocessing | hstores)
  · exact hnot ((h.ok t).waiting hwaiting).1
  · exact hnot ((h.ok t).processing hprocessing).1
  · exact hnot ((h.ok t).resolving hstores.resolves)

/-- The same answers, tables of executions and places of the coroutines; used where only the
tables of the queue change. -/
theorem Healthy.frame {m m' : TaskManager} (h : m.Healthy) (hwf : m'.Wf) (hexception : m'.exception = m.exception)
    (hresolver : m'.resolver = m.resolver) (hfutures : m'.taskIdToFuture = m.taskIdToFuture)
    (hexecutions : m'.executions = m.executions)
    (houtcomes : ∀ future, m.outcomes.contains future = true → m'.outcomes.contains future = true)
    (hcanceling : ∀ t, m'.receiver = .onCancel t → t ∈ m'.processingTaskIds) (hbalanced : ∀ t, m'.Balanced t) :
    m'.Healthy where
  wf := hwf
  exception := hexception.trans h.exception
  resolver := hresolver ▸ h.resolver
  futures := h.futures.congr hfutures hexecutions hresolver houtcomes
  canceling := hcanceling
  balanced := hbalanced

theorem enqueue_healthy {m : TaskManager} (h : m.Healthy) {task : Task} (hreceiver : m.receiver = .message)
    (hfresh : m.taskIdToTask.contains task.taskId = false) :
    (enqueue { m with received := m.received ++ [task.taskId] } task).Healthy := by
  have hreceived : Wf { m with received := m.received ++ [task.taskId] } :=
    h.wf.congr rfl rfl rfl h.wf.accounted fun _ => rfl
  refine h.frame (enqueue_wf hreceived hreceiver hfresh) rfl rfl rfl rfl (fun _ hf => hf)
    (fun t ht => by simp [enqueue, hreceiver] at ht) fun t => ?_
  by_cases heq : t = task.taskId
  · subst heq
    refine (h.balanced _).arrive (not_outstanding_of_not_held h.wf hfresh) (.inl ?_) rfl rfl
    simp [enqueue, StablePriorityQueue.put, Dict.contains]
  · refine (h.balanced t).other heq ?_ rfl rfl
    simp [Outstanding, Stores, enqueue, StablePriorityQueue.put, Dict.contains, Dict.get?_set_ne, heq]

theorem bypass_healthy {m : TaskManager} (h : m.Healthy) {task : Task} (hreceiver : m.receiver = .message)
    (hfresh : m.taskIdToTask.contains task.taskId = false) :
    (bypass { m with received := m.received ++ [task.taskId] } task).Healthy := by
  have hreceived : Wf { m with received := m.received ++ [task.taskId] } :=
    h.wf.congr rfl rfl rfl h.wf.accounted fun _ => rfl
  refine h.frame (bypass_wf hreceived hreceiver hfresh) rfl rfl rfl rfl (fun _ hf => hf)
    (fun t ht => by simp [bypass] at ht) fun t => ?_
  by_cases heq : t = task.taskId
  · subst heq
    refine (h.balanced _).arrive (not_outstanding_of_not_held h.wf hfresh) (.inr (.inl ?_)) rfl rfl
    simp [bypass]
  · refine (h.balanced t).other heq ?_ rfl rfl
    simp [Outstanding, Stores, bypass, heq]

theorem onTaskNew_healthy {m : TaskManager} (h : m.Healthy) {task : Task} (hreceiver : m.receiver = .message)
    (hfresh : m.taskIdToTask.contains task.taskId = false) (hpriority : 0 ≤ task.priority) :
    (onTaskNew { m with received := m.received ++ [task.taskId] } task).Healthy := by
  have hreceived : Wf { m with received := m.received ++ [task.taskId] } :=
    h.wf.congr rfl rfl rfl h.wf.accounted fun _ => rfl
  rw [onTaskNew, if_neg (Int.not_lt.mpr hpriority)]
  split
  · obtain ⟨b, hb⟩ := outranks_ok hreceived task.priority (fun _ ht => ht)
    rw [hb]
    cases b with
    | true => exact bypass_healthy h hreceiver hfresh
    | false => exact enqueue_healthy h hreceiver hfresh
  · exact enqueue_healthy h hreceiver hfresh

/-- A message that answers no task changes nothing else. -/
theorem send_healthy {m : TaskManager} (h : m.Healthy) {message : Sent} (hanswers : ∀ t, message.answers t = false) :
    (m.send message).Healthy := by
  refine h.frame (send_wf h.wf message) rfl rfl rfl rfl (fun _ hf => hf) h.canceling fun t => ?_
  refine (h.balanced t).congr Iff.rfl ?_ rfl
  rw [answerCount_send, hanswers t]
  rfl

theorem answers_canceled {taskId t : TaskID} :
    (Sent.cancelConfirm taskId .canceled).answers t = decide (taskId = t) := rfl

theorem dropQueued_healthy {m : TaskManager} (h : m.Healthy) {taskId : TaskID} (hreceiver : m.receiver = .message)
    (hwaiting : m.queuedTaskIdQueue.locator.contains taskId = true) :
    (m.dropQueued taskId).exception = none ∧ ((m.dropQueued taskId).send (.cancelConfirm taskId .canceled)).Healthy := by
  have hheld : m.taskIdToTask.contains taskId = true := ((h.wf.ok taskId).waiting hwaiting).1
  have hview := dropQueued_view h.wf hheld
  have hwf := send_wf (dropQueued_wf h.wf hwaiting) (.cancelConfirm taskId .canceled)
  have hfields : (m.dropQueued taskId).exception = m.exception ∧ (m.dropQueued taskId).resolver = m.resolver ∧
      (m.dropQueued taskId).taskIdToFuture = m.taskIdToFuture ∧ (m.dropQueued taskId).executions = m.executions ∧
      (m.dropQueued taskId).outcomes = m.outcomes ∧ (m.dropQueued taskId).receiver = m.receiver ∧
      (m.dropQueued taskId).sent = m.sent ∧ (m.dropQueued taskId).received = m.received := by
    rw [dropQueued, if_pos hheld]
    exact ⟨rfl, rfl, rfl, rfl, rfl, rfl, rfl, rfl⟩
  obtain ⟨hexception, hresolver, hfutures, hexecutions, houtcomes, hrec, hsent, hreceived⟩ := hfields
  refine ⟨hexception.trans h.exception, ?_⟩
  refine h.frame hwf hexception hresolver hfutures hexecutions (fun f hf => houtcomes ▸ hf)
    (fun t ht => ?_) fun t => ?_
  · have hmessage : (m.dropQueued taskId).receiver = .onCancel t := ht
    rw [hrec, hreceiver] at hmessage
    cases hmessage
  · have hanswers := answerCount_send (m.dropQueued taskId) (.cancelConfirm taskId .canceled) t
    rw [answers_canceled, answerCount, answerCount, hsent] at hanswers
    have hthis := hview t
    by_cases heq : t = taskId
    · subst heq
      rw [if_pos rfl] at hthis
      refine (h.balanced t).answer (.inl hwaiting) ?_ (by simpa [answerCount] using hanswers) hreceived
      have hok := (h.wf.ok t).waiting hwaiting
      rintro (hw | hp | hs)
      · exact (congrArg View.waiting hthis).mp hw
      · exact hok.2.2.2.1 ((congrArg View.processing hthis).mp hp)
      · exact hok.2.2.2.2.2.2 ((stores_congr hresolver t).mp hs).resolves
    · rw [if_neg heq] at hthis
      refine (h.balanced t).congr ?_ (by simpa [answerCount, Ne.symm heq] using hanswers) hreceived
      exact outstanding_congr (congrArg View.waiting hthis) (congrArg View.processing hthis) hresolver

theorem cancelProcessing_healthy {m : TaskManager} (h : m.Healthy) {taskId : TaskID} (hreceiver : m.receiver = .message)
    (hprocessing : taskId ∈ m.processingTaskIds) (hqueued : taskId ∉ m.queuedTaskIds) :
    (m.cancelProcessing taskId).Healthy := by
  have hwf := cancelProcessing_wf h.wf hreceiver hprocessing hqueued
  obtain ⟨future, hfuture⟩ := exists_future h.wf hreceiver hprocessing hqueued
  rw [cancelProcessing, hfuture] at hwf ⊢
  refine h.frame hwf rfl rfl rfl rfl (fun f hf => ?_) (fun t ht => ?_) fun t => ?_
  · simp only [cancelFuture]
    split
    · exact hf
    · simp only [Dict.contains, Dict.get?_set]
      split
      · rfl
      · exact hf
  · cases ht
    exact hprocessing
  · exact (h.balanced t).congr Iff.rfl rfl rfl

theorem onCancelTask_healthy {m : TaskManager} (h : m.Healthy) {taskId : TaskID} {force : Bool}
    (hreceiver : m.receiver = .message) (hsafe : m.Stale taskId → taskId ∈ m.processingTaskIds ∧ force = false) :
    (m.onCancelTask taskId force).Healthy := by
  rw [onCancelTask]
  dsimp only
  by_cases hqueued : taskId ∈ m.queuedTaskIds
  · rw [if_neg (by simp [hqueued])]
    split
    · exact send_healthy h fun _ => rfl
    · next hpast =>
      have hwaiting : m.queuedTaskIdQueue.locator.contains taskId = true := by
        by_contra hgone
        obtain ⟨hprocessing, hforce⟩ := hsafe ⟨hqueued, Bool.eq_false_iff.mpr hgone⟩
        exact hpast ⟨hprocessing, by simp [hforce]⟩
      have hidle : taskId ∉ m.processingTaskIds := ((h.wf.ok taskId).waiting hwaiting).2.2.2.1
      obtain ⟨hexception, hsent⟩ := dropQueued_healthy h hreceiver hwaiting
      rw [if_neg hidle, if_neg (by simp [hexception])]
      exact hsent
  · by_cases hprocessing : taskId ∈ m.processingTaskIds
    · rw [if_neg (by simp [hprocessing])]
      split
      · exact send_healthy h fun _ => rfl
      · rw [if_neg (by simp [h.exception])]
        exact cancelProcessing_healthy h hreceiver hprocessing hqueued
    · rw [if_pos ⟨hqueued, hprocessing⟩]
      exact send_healthy h fun _ => rfl

theorem registerFuture_futures {m : TaskManager} (h : m.FuturesWf) {taskId : TaskID}
    (hnone : m.taskIdToFuture.get? taskId = none) : (m.registerFuture taskId).FuturesWf := by
  have hget : ∀ t future, (m.registerFuture taskId).taskIdToFuture.get? t = some future →
      (t = taskId ∧ future = m.executions) ∨ (t ≠ taskId ∧ m.taskIdToFuture.get? t = some future) := by
    intro t future ht
    rw [registerFuture, Dict.get?_set] at ht
    split at ht
    · next heq => exact .inl ⟨heq, (Option.some.inj ht).symm⟩
    · next hne => exact .inr ⟨hne, ht⟩
  refine ⟨?_, ?_, ?_, h.nodup, h.done⟩
  · intro t t' future ht ht'
    obtain ⟨heq, hnew⟩ | ⟨-, hold⟩ := hget t future ht
    · obtain ⟨heq', -⟩ | ⟨-, hold'⟩ := hget t' future ht'
      · rw [heq, heq']
      · have hlt := h.bound t' future hold'
        omega
    · obtain ⟨heq', hnew'⟩ | ⟨-, hold'⟩ := hget t' future ht'
      · have hlt := h.bound t future hold
        omega
      · exact h.injective t t' future hold hold'
  · intro t future ht
    obtain ⟨-, hnew⟩ | ⟨-, hold⟩ := hget t future ht
    · rw [hnew]
      exact Nat.lt_succ_self _
    · exact Nat.lt_succ_of_lt (h.bound t future hold)
  · intro future hmem
    obtain ⟨t, ht⟩ := h.registered future hmem
    have hne : t ≠ taskId := by
      rintro rfl
      rw [hnone] at ht
      cases ht
    exact ⟨t, (Dict.get?_set_ne _ hne _).trans ht⟩

theorem receiverReturns_healthy {m : TaskManager} (h : m.Healthy) : m.receiverReturns.Healthy := by
  have hwf := receiverReturns_wf h.wf
  rw [receiverReturns] at hwf ⊢
  split
  · exact h
  · next task hreceiver =>
    rw [hreceiver] at hwf
    have hbypassing : (m.view task.taskId).bypassing := by simp [view, Bypasses, hreceiver]
    have hnone : m.taskIdToFuture.get? task.taskId = none := by
      simpa [view, Dict.contains] using ((h.wf.ok task.taskId).bypassing hbypassing).2.2
    have hfutures := registerFuture_futures h.futures hnone
    refine ⟨hwf, h.exception, h.resolver, ?_, ?_, fun t => ?_⟩
    · exact hfutures.congr rfl rfl rfl fun _ hf => hf
    · intro t ht
      cases ht
    · exact (h.balanced t).congr Iff.rfl rfl rfl
  · next taskId hreceiver =>
    rw [hreceiver] at hwf
    have hprocessing := h.canceling taskId hreceiver
    have hview := canceled_view hreceiver hprocessing
    dsimp only at hwf
    simp only [canceled, if_pos hprocessing] at hwf hview ⊢
    refine h.frame hwf rfl rfl rfl rfl (fun _ hf => hf) (fun t ht => by simp [send] at ht) fun t => ?_
    have hanswers := answerCount_send
      { m with
        processingTaskIds := m.processingTaskIds.erase taskId
        canceledTaskIds := insert taskId m.canceledTaskIds
        receiver := .message } (.cancelConfirm taskId .canceled) t
    rw [answers_canceled] at hanswers
    have hthis := hview t
    have hok := h.wf.ok t
    by_cases heq : t = taskId
    · subst heq
      rw [if_pos rfl] at hthis
      refine (h.balanced t).answer (.inr (.inl hprocessing)) ?_ (by simpa [answerCount] using hanswers) rfl
      rintro (hw | hp | hs)
      · exact (hok.waiting hw).2.2.2.1 hprocessing
      · exact (congrArg View.processing hthis).mp hp
      · exact (hok.processing hprocessing).2.2.1 hs.resolves
    · rw [if_neg heq] at hthis
      refine (h.balanced t).congr ?_ (by simpa [answerCount, Ne.symm heq] using hanswers) rfl
      exact outstanding_congr (congrArg View.waiting hthis) (congrArg View.processing hthis) rfl

theorem processorRuns_healthy {m : TaskManager} (h : m.Healthy) : m.processorRuns.Healthy := by
  have hwf := processorRuns_wf h.wf
  rw [processorRuns] at hwf ⊢
  split
  · next hprocessor =>
    rw [hprocessor] at hwf
    split
    · next hzero =>
      rw [if_pos hzero] at hwf
      exact h.frame hwf rfl rfl rfl rfl (fun _ hf => hf) h.canceling fun t => (h.balanced t).congr Iff.rfl rfl rfl
    · next hfree =>
      rw [if_neg hfree] at hwf
      exact h.frame hwf rfl rfl rfl rfl (fun _ hf => hf) h.canceling fun t => (h.balanced t).congr Iff.rfl rfl rfl
  · exact h
  · next hprocessor =>
    rw [hprocessor] at hwf
    split
    · exact h
    · next priority taskId queue hget =>
      rw [hget] at hwf
      obtain ⟨-, hwaiting, hlocator⟩ := StablePriorityQueue.get_eq h.wf.queue hget
      obtain ⟨task, htask⟩ := Option.isSome_iff_exists.mp ((h.wf.ok taskId).waiting hwaiting).1
      dsimp only at hwf
      rw [dispatch, htask] at hwf ⊢
      refine h.frame hwf rfl rfl rfl rfl (fun _ hf => hf) (fun t ht => ?_) fun t => ?_
      · exact Finset.mem_insert_of_mem (h.canceling t ht)
      · refine (h.balanced t).congr ?_ rfl rfl
        by_cases heq : t = taskId
        · subst heq
          exact iff_of_true (.inr (.inl (Finset.mem_insert_self _ _))) (.inl hwaiting)
        · simp [Outstanding, Stores, hlocator, Dict.contains, Dict.get?_erase_ne, heq]
  · next task hprocessor =>
    rw [hprocessor] at hwf
    have hexecuting : (m.view task.taskId).executing := by simp [view, Executes, hprocessor]
    have hnone : m.taskIdToFuture.get? task.taskId = none := by
      simpa [view, Dict.contains] using ((h.wf.ok task.taskId).executing hexecuting).2.2
    have hfutures := registerFuture_futures h.futures hnone
    refine ⟨hwf, h.exception, h.resolver, ?_, h.canceling, fun t => ?_⟩
    · exact hfutures.congr rfl rfl rfl fun _ hf => hf
    · exact (h.balanced t).congr Iff.rfl rfl rfl

theorem taskOfFuture_of_get? {m : TaskManager} (h : m.FuturesWf) {t : TaskID} {future : Nat}
    (hget : m.taskIdToFuture.get? t = some future) : m.taskOfFuture future = some t := by
  cases hfind : m.taskOfFuture future with
  | some t' => rw [h.injective t t' future hget (taskOfFuture_eq hfind)]
  | none =>
    rw [taskOfFuture, Option.map_eq_none_iff, List.find?_eq_none] at hfind
    exact absurd (decide_eq_true rfl) (hfind (t, future) ((Dict.mem_entries _ _ _).mpr hget))

/-- The futures of the other tasks, when one was taken. -/
theorem get?_erase_of_ne {m : TaskManager} {t t' : TaskID} {future future' : Nat}
    (hget : m.taskIdToFuture.get? t = some future) (hget' : m.taskIdToFuture.get? t' = some future')
    (hne : future' ≠ future) : (m.taskIdToFuture.erase t).get? t' = some future' := by
  have hids : t' ≠ t := by
    rintro rfl
    rw [hget] at hget'
    exact hne (Option.some.inj hget').symm
  rw [Dict.get?_erase_ne _ hids, hget']

theorem nextResult_cons {m : TaskManager} {future : Nat} {t : TaskID} (h : m.taskOfFuture future = some t)
    (done : List Nat) :
    m.nextResult (future :: done) = if t ∈ m.processingTaskIds then some (future, t) else m.nextResult done := by
  rw [nextResult, List.findSome?_cons, h]
  by_cases hprocessing : t ∈ m.processingTaskIds
  · simp [hprocessing]
  · simp [hprocessing, nextResult]

theorem nextResult_congr {m m' : TaskManager} {done : List Nat}
    (hof : ∀ future ∈ done, m'.taskOfFuture future = m.taskOfFuture future)
    (hprocessing : m'.processingTaskIds = m.processingTaskIds) : m'.nextResult done = m.nextResult done := by
  induction done with
  | nil => rfl
  | cons future done ih =>
    have hrest := ih fun f hf => hof f (List.mem_cons_of_mem _ hf)
    simp only [nextResult, hprocessing] at hrest
    simp only [nextResult, List.findSome?_cons, hof future List.mem_cons_self, hprocessing, hrest]

/-- What `resolve_tasks` is about to look at when it has none in hand. -/
structure Ready (m : TaskManager) (done : List Nat) : Prop where
  registered : ∀ future ∈ done, ∃ t, m.taskIdToFuture.get? t = some future
  nodup : done.Nodup
  finished : ∀ future ∈ done, m.outcomes.contains future = true
  resolvable : ∀ future t, m.nextResult done = some (future, t) → m.Resolvable future t

/-- A future was taken and the others are still there. -/
theorem FuturesWf.take {m m' : TaskManager} (h : m.FuturesWf) {t : TaskID} {future : Nat} {done : List Nat}
    (hget : m.taskIdToFuture.get? t = some future) (hready : m.Ready (future :: done))
    (hfutures : m'.taskIdToFuture = m.taskIdToFuture.erase t) (hexecutions : m'.executions = m.executions)
    (hinHand : m'.inHand = done ∨ m'.inHand = [])
    (hdone : ∀ stage t' resultType rest, m'.resolver = .resolving stage t' resultType rest →
      ∀ future' ∈ rest, m'.outcomes.contains future' = true) : m'.FuturesWf := by
  have hback : ∀ {t' future'}, m'.taskIdToFuture.get? t' = some future' → m.taskIdToFuture.get? t' = some future' := by
    intro t' future' ht'
    rw [hfutures, Dict.get?_erase] at ht'
    split at ht'
    · cases ht'
    · exact ht'
  obtain ⟨hnot, hnodup⟩ := List.nodup_cons.mp hready.nodup
  refine ⟨fun t₁ t₂ f h₁ h₂ => h.injective t₁ t₂ f (hback h₁) (hback h₂), fun t' f ht' => ?_, ?_, ?_, hdone⟩
  · rw [hexecutions]
    exact h.bound t' f (hback ht')
  · intro future' hmem
    obtain heq | heq := hinHand
    · rw [heq] at hmem
      obtain ⟨t', ht'⟩ := hready.registered future' (List.mem_cons_of_mem _ hmem)
      have hne : future' ≠ future := fun hf => hnot (hf ▸ hmem)
      exact ⟨t', hfutures ▸ get?_erase_of_ne hget ht' hne⟩
    · rw [heq] at hmem
      cases hmem
  · obtain heq | heq := hinHand
    · rw [heq]
      exact hnodup
    · rw [heq]
      exact List.nodup_nil

/-- A future whose task is not processed was passed. -/
theorem Ready.tail {m m' : TaskManager} (h : m.FuturesWf) (h' : m'.FuturesWf) {t : TaskID} {future : Nat}
    {done : List Nat} (hready : m.Ready (future :: done)) (hget : m.taskIdToFuture.get? t = some future)
    (hprocessing : t ∉ m.processingTaskIds) (hfutures : m'.taskIdToFuture = m.taskIdToFuture.erase t)
    (htasks : m'.taskIdToTask = m.taskIdToTask.erase t) (hids : m'.processingTaskIds = m.processingTaskIds)
    (houtcomes : m'.outcomes = m.outcomes) (hreceiver : m'.receiver = m.receiver)
    (hserializers : m'.serializers = m.serializers) : m'.Ready done := by
  obtain ⟨hnot, hnodup⟩ := List.nodup_cons.mp hready.nodup
  have hother : ∀ future' ∈ done, ∃ t', m.taskIdToFuture.get? t' = some future' ∧
      m'.taskIdToFuture.get? t' = some future' := by
    intro future' hmem
    obtain ⟨t', ht'⟩ := hready.registered future' (List.mem_cons_of_mem _ hmem)
    have hne : future' ≠ future := fun hf => hnot (hf ▸ hmem)
    exact ⟨t', ht', hfutures ▸ get?_erase_of_ne hget ht' hne⟩
  have hsame : m'.nextResult done = m.nextResult (future :: done) := by
    rw [nextResult_cons (taskOfFuture_of_get? h hget), if_neg hprocessing]
    refine nextResult_congr (fun future' hmem => ?_) hids
    obtain ⟨t', ht', ht''⟩ := hother future' hmem
    rw [taskOfFuture_of_get? h ht', taskOfFuture_of_get? h' ht'']
  refine ⟨fun future' hmem => ?_, hnodup, fun future' hmem => ?_, fun future' t' hnext => ?_⟩
  · obtain ⟨t', -, ht'⟩ := hother future' hmem
    exact ⟨t', ht'⟩
  · rw [houtcomes]
    exact hready.finished future' (List.mem_cons_of_mem _ hmem)
  · obtain ⟨huncancelled, hundisturbed, hserializable, hloaded⟩ := hready.resolvable future' t' (hsame ▸ hnext)
    rw [← houtcomes] at huncancelled hserializable hloaded
    refine ⟨huncancelled, hreceiver ▸ hundisturbed, hserializable, fun s hs task htask => ?_⟩
    rw [hserializers]
    refine hloaded s hs task ?_
    rw [htasks, Dict.get?_erase] at htask
    split at htask
    · cases htask
    · exact htask

theorem takeResult_healthy {m : TaskManager} (h : m.Healthy) (hresolver : m.resolver = .start) {t : TaskID} {task : Task}
    {future : Nat} {done : List Nat} (hget : m.taskIdToFuture.get? t = some future) (hready : m.Ready (future :: done))
    (htask : m.taskIdToTask.get? t = some task) (hprocessing : t ∈ m.processingTaskIds)
    (hresolvable : m.Resolvable future t) :
    (takeResult { m with taskIdToFuture := m.taskIdToFuture.erase t } task future done).Healthy := by
  have hid : task.taskId = t := h.wf.keyed t task htask
  have hrunning : (m.view t).running := by simp [view, Dict.contains, hget]
  have hwf := takeResult_wf h.wf hresolver hid hrunning hprocessing future done
  obtain ⟨outcome, houtcome⟩ := Option.isSome_iff_exists.mp (hready.finished future List.mem_cons_self)
  have hresult : ∃ resultType, takeResult { m with taskIdToFuture := m.taskIdToFuture.erase t } task future done =
      { m with
        taskIdToFuture := m.taskIdToFuture.erase t
        processingTaskIds := m.processingTaskIds.erase t
        resolver := .resolving .setObject t resultType done } := by
    rw [takeResult, houtcome, hid]
    cases outcome with
    | returned serializable =>
      have hserializable := hresolvable.serializable serializable houtcome
      have hloaded := hresolvable.loaded serializable houtcome task htask
      exact ⟨.success, by simp [hserializable, hloaded]⟩
    | raised => exact ⟨.failed, rfl⟩
    | cancelled => exact absurd houtcome hresolvable.uncancelled
  obtain ⟨resultType, hresult⟩ := hresult
  rw [hresult] at hwf ⊢
  refine ⟨hwf, h.exception, by simp, ?_, ?_, fun t' => ?_⟩
  · refine h.futures.take hget hready rfl rfl (.inl rfl) ?_
    intro stage t' type' rest hr future' hmem
    cases hr
    exact hready.finished future' (List.mem_cons_of_mem _ hmem)
  · intro t' ht'
    refine Finset.mem_erase.mpr ⟨?_, h.canceling t' ht'⟩
    rintro rfl
    exact hresolvable.undisturbed ht'
  · refine (h.balanced t').congr ?_ rfl rfl
    by_cases heq : t' = t
    · subst heq
      exact iff_of_true (.inr (.inr rfl)) (.inr (.inl hprocessing))
    · simp [Outstanding, Stores, hresolver, heq, Ne.symm heq]

theorem forget_eq {m : TaskManager} {t : TaskID} (hheld : m.taskIdToTask.contains t = true) :
    ∃ semaphore processor, m.forget t =
      { m with
        acquiringTaskIds := m.acquiringTaskIds.erase t
        executorSemaphore := semaphore
        processor := processor
        taskIdToTask := m.taskIdToTask.erase t } := by
  have hslot : ∃ semaphore processor, m.releaseSlot t =
      { m with
        acquiringTaskIds := m.acquiringTaskIds.erase t
        executorSemaphore := semaphore
        processor := processor } := by
    rw [releaseSlot]
    split
    · rw [release]
      split
      · exact ⟨_, _, rfl⟩
      · exact ⟨_, _, rfl⟩
    · next hnot =>
      rw [List.erase_of_not_mem hnot]
      exact ⟨m.executorSemaphore, m.processor, rfl⟩
  obtain ⟨semaphore, processor, hslot⟩ := hslot
  refine ⟨semaphore, processor, ?_⟩
  rw [forget, hslot]
  exact if_pos hheld

/-- A canceled task is passed without an answer. -/
theorem passCanceled_healthy {m : TaskManager} (h : m.Healthy) (hresolver : m.resolver = .start) {t : TaskID}
    {future : Nat} {done : List Nat} (hget : m.taskIdToFuture.get? t = some future) (hready : m.Ready (future :: done))
    (hprocessing : t ∉ m.processingTaskIds) (hcanceled : t ∈ m.canceledTaskIds) :
    let m' := forget
      { m with
        taskIdToFuture := m.taskIdToFuture.erase t
        canceledTaskIds := m.canceledTaskIds.erase t } t
    m'.Healthy ∧ m'.resolver = .start ∧ m'.Ready done := by
  have hok := h.wf.ok t
  have hrunning : (m.view t).running := by simp [view, Dict.contains, hget]
  have hheld : m.taskIdToTask.contains t = true := (hok.running hrunning).1
  have hwf := forget_wf (uncancel_wf h.wf hrunning hprocessing) t
    (fun hw => (hok.waiting hw).2.2.2.2.1 hcanceled) hprocessing (by simp [view]) (by simp [view, Resolves, hresolver])
  obtain ⟨semaphore, processor, heq⟩ := forget_eq (m :=
    { m with
      taskIdToFuture := m.taskIdToFuture.erase t
      canceledTaskIds := m.canceledTaskIds.erase t }) hheld
  intro m'
  have hm' : m' = _ := heq
  rw [hm']
  rw [heq] at hwf
  have hfutures : FuturesWf
      { m with
        taskIdToFuture := m.taskIdToFuture.erase t
        canceledTaskIds := m.canceledTaskIds.erase t
        acquiringTaskIds := m.acquiringTaskIds.erase t
        executorSemaphore := semaphore
        processor := processor
        taskIdToTask := m.taskIdToTask.erase t } :=
    h.futures.take hget hready rfl rfl (.inr (by simp [inHand, hresolver])) (by simp [hresolver])
  refine ⟨⟨hwf, h.exception, h.resolver, hfutures, h.canceling, fun t' => (h.balanced t').congr Iff.rfl rfl rfl⟩,
    hresolver, hready.tail h.futures hfutures hget hprocessing rfl rfl rfl rfl rfl rfl⟩

theorem resolveDone_healthy {m : TaskManager} (h : m.Healthy) (hresolver : m.resolver = .start) {done : List Nat}
    (hready : m.Ready done) : (m.resolveDone done).Healthy := by
  induction done generalizing m with
  | nil => exact h
  | cons future done ih =>
    obtain ⟨t, hget⟩ := hready.registered future List.mem_cons_self
    have hof := taskOfFuture_of_get? h.futures hget
    have hrunning : (m.view t).running := by simp [view, Dict.contains, hget]
    obtain ⟨hheld, hwhere⟩ := (h.wf.ok t).running hrunning
    obtain ⟨task, htask⟩ := Option.isSome_iff_exists.mp hheld
    rw [resolveDone, hof]
    dsimp only
    rw [htask]
    dsimp only
    by_cases hprocessing : t ∈ m.processingTaskIds
    · rw [if_pos hprocessing]
      refine takeResult_healthy h hresolver hget hready htask hprocessing (hready.resolvable future t ?_)
      rw [nextResult_cons hof, if_pos hprocessing]
    · have hcanceled : t ∈ m.canceledTaskIds := hwhere.resolve_left hprocessing
      obtain ⟨hhealthy, hstart, hnext⟩ := passCanceled_healthy h hresolver hget hready hprocessing hcanceled
      rw [if_neg hprocessing, if_pos hcanceled, if_neg (by simp [hhealthy.exception])]
      exact ih hhealthy hstart hnext

theorem values_nodup {m : TaskManager} (h : m.FuturesWf) : (m.taskIdToFuture.entries.map Prod.snd).Nodup := by
  have hentries : m.taskIdToFuture.entries.Nodup := List.Nodup.of_map Prod.fst m.taskIdToFuture.nodup
  refine hentries.map_on ?_
  rintro ⟨t, future⟩ hmem ⟨t', future'⟩ hmem' heq
  have hsame : future = future' := heq
  subst hsame
  rw [h.injective t t' future ((Dict.mem_entries _ _ _).mp hmem) ((Dict.mem_entries _ _ _).mp hmem')]

theorem forget_resolved_healthy {m : TaskManager} (h : m.Healthy) {t : TaskID} {resultType : TaskResultType}
    {rest : List Nat} (hresolver : m.resolver = .resolving .sendResult t resultType rest)
    (hgood : ∀ future t', m.nextResult rest = some (future, t') → m.Resolvable future t') :
    let m' := forget { m with resolver := .start } t
    m'.Healthy ∧ m'.resolver = .start ∧ m'.Ready rest := by
  have hresolving : (m.view t).resolving := by simp [view, Resolves, hresolver]
  have hheld : m.taskIdToTask.contains t = true := (h.wf.ok t).resolving hresolving
  have hwf := forget_resolved_wf h.wf hresolver
  have hhand : m.inHand = rest := by rw [inHand, hresolver]
  obtain ⟨semaphore, processor, heq⟩ := forget_eq (m := { m with resolver := .start }) hheld
  intro m'
  have hm' : m' = _ := heq
  rw [hm']
  rw [heq] at hwf
  refine ⟨⟨hwf, h.exception, by simp, ?_, h.canceling, fun t' => ?_⟩, rfl, ?_⟩
  · exact ⟨h.futures.injective, h.futures.bound, by simp [inHand], List.nodup_nil, by simp⟩
  · refine (h.balanced t').congr ?_ rfl rfl
    simp [Outstanding, Stores, hresolver]
  · refine ⟨hhand ▸ h.futures.registered, hhand ▸ h.futures.nodup, h.futures.done _ _ _ _ hresolver, ?_⟩
    intro future t' hnext
    obtain ⟨huncancelled, hundisturbed, hserializable, hloaded⟩ := hgood future t' hnext
    refine ⟨huncancelled, hundisturbed, hserializable, fun s hs task htask => hloaded s hs task ?_⟩
    rw [Dict.get?_erase] at htask
    split at htask
    · cases htask
    · exact htask

theorem resolverRuns_healthy {m : TaskManager} (h : m.Healthy) {done : List Nat}
    (hgood : ∀ future t, m.nextResult (m.upcoming done) = some (future, t) → m.Resolvable future t) :
    (m.resolverRuns done).Healthy := by
  have hwf := resolverRuns_wf h.wf done
  rw [resolverRuns] at hwf ⊢
  split
  · next hresolver =>
    rw [hresolver] at hwf
    split
    · exact h
    · next hne =>
      rw [if_neg hne] at hwf
      refine ⟨hwf, h.exception, by simp, ?_, h.canceling, fun t => ?_⟩
      · refine ⟨h.futures.injective, h.futures.bound, ?_, values_nodup h.futures, by simp⟩
        intro future hmem
        obtain ⟨⟨t, future'⟩, hentry, rfl⟩ := List.mem_map.mp hmem
        exact ⟨t, (Dict.mem_entries _ _ _).mp hentry⟩
      · refine (h.balanced t).congr ?_ rfl rfl
        simp [Outstanding, Stores, hresolver]
  · next futures hresolver =>
    split
    · next hdone =>
      have hhand : m.inHand = futures := by rw [inHand, hresolver]
      have hmem : ∀ future ∈ done, future ∈ futures ∧ m.outcomes.contains future = true := by
        intro future hf
        simpa using hdone.2.mem_iff.mp hf
      have hupcoming : m.upcoming done = done := by rw [upcoming, hresolver]
      rw [hupcoming] at hgood
      refine resolveDone_healthy ?_ rfl ⟨?_, ?_, ?_, ?_⟩
      · refine ⟨?_, h.exception, by simp, ?_, h.canceling, fun t => ?_⟩
        · exact h.wf.congr rfl rfl rfl h.wf.accounted fun t => by simp [view, Resolves, Executes, Bypasses, hresolver]
        · exact ⟨h.futures.injective, h.futures.bound, by simp [inHand], List.nodup_nil, by simp⟩
        · refine (h.balanced t).congr ?_ rfl rfl
          simp [Outstanding, Stores, hresolver]
      · intro future hf
        exact h.futures.registered future (hhand ▸ (hmem future hf).1)
      · exact hdone.2.nodup_iff.mpr ((hhand ▸ h.futures.nodup).filter _)
      · exact fun future hf => (hmem future hf).2
      · intro future t hnext
        obtain ⟨huncancelled, hundisturbed, hserializable, hloaded⟩ := hgood future t hnext
        exact ⟨huncancelled, hundisturbed, hserializable, hloaded⟩
    · exact h
  · next taskId resultType rest hresolver =>
    rw [hresolver] at hwf
    refine ⟨hwf, h.exception, by simp, ?_, h.canceling, fun t => ?_⟩
    · have hhand : m.inHand = rest := by rw [inHand, hresolver]
      refine ⟨h.futures.injective, h.futures.bound, hhand ▸ h.futures.registered, hhand ▸ h.futures.nodup, ?_⟩
      intro stage t type' rest' hr
      cases hr
      exact h.futures.done _ _ _ _ hresolver
    · refine (h.balanced t).congr ?_ rfl rfl
      simp [Outstanding, Stores, hresolver]
  · next taskId resultType rest hresolver =>
    rw [hresolver] at hwf
    refine ⟨hwf, h.exception, by simp [send], ?_, h.canceling, fun t => ?_⟩
    · have hhand : m.inHand = rest := by rw [inHand, hresolver]
      refine ⟨h.futures.injective, h.futures.bound, hhand ▸ h.futures.registered, hhand ▸ h.futures.nodup, ?_⟩
      intro stage t type' rest' hr
      cases hr
      exact h.futures.done _ _ _ _ hresolver
    · have hanswers := answerCount_send { m with resolver := .resolving .sendResult taskId resultType rest }
        (.taskResult taskId resultType) t
      have hok := h.wf.ok t
      by_cases heq : t = taskId
      · subst heq
        have hstores : m.Stores t := by simp [Stores, hresolver]
        refine (h.balanced t).answer (.inr (.inr hstores)) ?_ (by simpa [answerCount, Sent.answers] using hanswers) rfl
        rintro (hw | hp | hs)
        · exact (hok.waiting hw).2.2.2.2.2.2 hstores.resolves
        · exact (hok.processing hp).2.2.1 hstores.resolves
        · simp [Stores, send] at hs
      · refine (h.balanced t).congr ?_ (by simpa [answerCount, Sent.answers, Ne.symm heq] using hanswers) rfl
        simp [Outstanding, Stores, send, hresolver, Ne.symm heq]
  · next taskId resultType rest hresolver =>
    obtain ⟨hhealthy, hstart, hready⟩ := forget_resolved_healthy h hresolver (by simpa [upcoming, hresolver] using hgood)
    dsimp only
    rw [if_neg (by simp [hhealthy.exception])]
    exact resolveDone_healthy hhealthy hstart hready
  · exact h

theorem step_healthy {m : TaskManager} (h : m.Healthy) {event : Event} (hgood : m.Good event) :
    (m.step event).Healthy := by
  unfold step
  rw [if_neg (by simp [h.exception])]
  cases event with
  | taskNew task =>
    dsimp only
    rw [receive]
    split
    · next hreceiver => exact onTaskNew_healthy h hreceiver hgood.1 hgood.2
    · exact h
  | cancelTask taskId force =>
    dsimp only
    rw [receive]
    split
    · next hreceiver => exact onCancelTask_healthy h hreceiver hgood
    · exact h
  | objectDelete source =>
    dsimp only
    rw [receive]
    split
    · refine h.frame (h.wf.congr rfl rfl rfl h.wf.accounted fun _ => rfl) rfl rfl rfl rfl (fun _ hf => hf) h.canceling ?_
      exact fun t => (h.balanced t).congr Iff.rfl rfl rfl
    · exact h
  | receiverReturns => exact receiverReturns_healthy h
  | receiverRaises e => cases hgood
  | processorRuns => exact processorRuns_healthy h
  | processorRaises e => cases hgood
  | resolverRuns done => exact resolverRuns_healthy h hgood
  | resolverRaises e => cases hgood
  | complete future outcome =>
    dsimp only
    rw [complete]
    split
    · refine h.frame (h.wf.congr rfl rfl rfl h.wf.accounted fun _ => rfl) rfl rfl rfl rfl (fun f hf => ?_) h.canceling ?_
      · simp only [Dict.contains, Dict.get?_set]
        split
        · rfl
        · exact hf
      · exact fun t => (h.balanced t).congr Iff.rfl rfl rfl
    · exact h
  | loadSerializer source =>
    refine h.frame (h.wf.congr rfl rfl rfl h.wf.accounted fun _ => rfl) rfl rfl rfl rfl (fun _ hf => hf) h.canceling ?_
    exact fun t => (h.balanced t).congr Iff.rfl rfl rfl

/-- Every task is answered once and no message stops the worker, in every run of good events. -/
theorem answering_of_goodSteps (baseConcurrency : Nat) (m : TaskManager)
    (h : Relation.ReflTransGen GoodStep (create baseConcurrency) m) : m.Answering := by
  suffices hhealthy : m.Healthy from hhealthy.toAnswering
  induction h with
  | refl => exact create_healthy baseConcurrency
  | tail _ hstep ih =>
    obtain ⟨event, hgood, rfl⟩ := hstep
    exact step_healthy ih hgood

theorem good_of_resolvable {m : TaskManager} {done : List Nat} (future : Nat) (t : TaskID)
    (hnext : m.nextResult (m.upcoming done) = some (future, t)) (h : m.Resolvable future t) : m.Good (.resolverRuns done) := by
  intro future' t' hnext'
  cases hnext.symm.trans hnext'
  exact h

theorem good_of_none {m : TaskManager} {done : List Nat} (hnext : m.nextResult (m.upcoming done) = none) :
    m.Good (.resolverRuns done) := by
  intro future t hsome
  cases hnext.symm.trans hsome

theorem answering_answered : ((create 1).runs answeredTasks).Answering := by
  refine answering_of_goodSteps 1 _ (Each.steps (P := Good) ?_)
  refine ⟨⟨rfl, by decide⟩, trivial, trivial, trivial, ⟨rfl, by decide⟩, fun h => absurd h.2 ?_, fun _ => ?_, ⟨rfl, by decide⟩,
    trivial, trivial, good_of_none rfl, good_of_resolvable 0 ⟨7⟩ rfl ?_, good_of_none rfl, good_of_none rfl, good_of_none rfl,
    trivial, trivial, trivial, trivial, good_of_none rfl, good_of_resolvable 1 ⟨9⟩ rfl ?_, good_of_none rfl, good_of_none rfl,
    good_of_none rfl, fun h => absurd h.1 ?_, trivial⟩
  · decide +kernel
  · decide +kernel
  · refine ⟨by decide +kernel, by decide +kernel, fun serializable hreturned => ?_, fun _ _ task htask => ?_⟩
    · cases hreturned
      rfl
    · cases htask
      decide +kernel
  · refine ⟨by decide +kernel, by decide +kernel, fun serializable hreturned => ?_, fun serializable hreturned => ?_⟩
    · cases hreturned
    · cases hreturned
  · decide +kernel

/-- The task runs, its result is sent and then it is canceled: the handler raises, as the set of
the queued tasks still has it. -/
theorem late_cancel_raises :
    ¬((create 1).runs (startedTask ++
      [Event.loadSerializer ⟨1⟩, .complete 0 (.returned true), .resolverRuns [], .resolverRuns [0], .resolverRuns [],
        .resolverRuns [], .resolverRuns [], .cancelTask ⟨7⟩ false])).Answering := by
  intro h
  have hexception := h.unraised.1
  revert hexception
  decide +kernel

end TaskManager

end Adapter

end Scaler
