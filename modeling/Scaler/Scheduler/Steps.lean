import Scaler.Scheduler.Loop
import Scaler.Coroutine.Soundness

/-! The scheduler as a system of atomic steps. A token stands for a piece of work a
coroutine has in hand; a step of the thread `i` changes the state and its own
tokens. Every coroutine of the scheduler only makes such steps. -/

namespace Scaler

open Collections Coroutine

/-- How far the action of an event has come: `vacant` when the task was taken off its
worker or off the queue, `placed` when it was sent to a worker, `queued` when it was
put on hold, `told` when its worker was asked to cancel it, `ended` when the owner was
popped, who is still to be answered, and `spoiled` when answering raised. An action that
raised is `faulted`; its owner is popped again, and then its worker is freed. -/
inductive Phase where
  | start
  | vacant
  | placed
  | queued
  | told
  | ended (due : Option ClientID)
  | spoiled
  | faulted
  | reported (due : Option ClientID)
  | freed
  deriving DecidableEq, Repr

/-- Why an exception is under way. -/
inductive Fault where
  | seen (o : Obs)
  | refused (t : TaskID)
  | other
  | absurd
  deriving DecidableEq, Repr

/-- What the task, graph and worker controllers have under way, and an exception. -/
inductive Tok where
  | fresh (task : Task)
  | event (e : TaskEvent)
  | wait (uid : Nat) (e : TaskEvent)
  | apply (uid : Nat) (e : TaskEvent) (source : TaskState) (phase : Phase)
  | closing (uid : Nat)
  | taken (client : ClientID) (gt : GraphTask)
  | adding (client : ClientID) (gt : GraphTask) (done : List Task)
  | batch (g : TaskID) (ref : Nat) (t : TaskID)
  | submitting (g : TaskID) (ref : Nat) (t : TaskID)
  | canceling (g : TaskID) (ref : Nat)
  | swept (g : TaskID) (ref : Nat)
  | aborting (g : TaskID) (ref : Nat) (resultType : TaskResultType)
  | retire (g : TaskID) (ref : Nat) (t : TaskID) (resultType : TaskResultType)
  | owes (ref : Nat) (m : Message)
  | owed (c : ClientID) (m : Message)
  | connecting (w : WorkerID)
  | fault (f : Fault)
  deriving DecidableEq, Repr

/-- The observations that come with an exception. -/
def Obs.isFault : Obs → Bool
  | .sendFailed | .storageFailed | .refused _ | .cancelRefused _ | .payloadMissing _
  | .policyFailed | .drainFailed | .graphRefused _ | .graphRejected _ | .submitFailed _ _
  | .nodeDone _ _ _ _ _ (some _) | .nodeCanceled _ _ _ false | .sweepFailed _ | .nodeMissing _
  | .popFailed _ => true
  | _ => false

namespace TaskEvent

/-- The message inside an event is about the task of the event. -/
def Wf : TaskEvent → Prop
  | .taskCancelRequested t _ cancel => cancel.taskId = t
  | .taskResultReceived t _ r => r.taskId = t
  | .cancelConfirmCanceled t _ c | .cancelConfirmFailed t _ c | .cancelConfirmNotFound t _ c =>
    c.taskId = t
  | .hasCapacity _ _ | .balanceCancelRequested _ | .workerDisconnected _ _ => True

/-- The scheduler raises these itself; all others come from outside. -/
def IsInternal : TaskEvent → Prop
  | .hasCapacity _ _ | .workerDisconnected _ _ => True
  | _ => False

/-- The action may return `None` without having done anything. -/
def Refuses (source : TaskState) : TaskEvent → Prop
  | .hasCapacity _ _ => source ≠ .inactive
  | .workerDisconnected _ _ =>
    source ≠ .running ∧ source ≠ .balanceCanceling ∧ source ≠ .canceling
  | _ => True

/-- The action begins with `on_task_done`. -/
def Releases (source : TaskState) : TaskEvent → Prop
  | .taskCancelRequested _ _ _ => source = .inactive
  | .taskResultReceived _ _ _ => source = .running ∨ source = .balanceCanceling
  | .cancelConfirmCanceled _ _ _ | .cancelConfirmNotFound _ _ _ =>
    source = .canceling ∨ source = .balanceCanceling
  | _ => False

/-- The action looks for a worker. -/
def Places (source : TaskState) (phase : Phase) : TaskEvent → Prop
  | .cancelConfirmCanceled _ _ _ | .cancelConfirmNotFound _ _ _ =>
    source = .balanceCanceling ∧ phase = .vacant
  | .workerDisconnected _ _ =>
    (source = .running ∨ source = .balanceCanceling) ∧ phase = .start
  | _ => False

/-- The action asks the worker of the task to cancel it. -/
def Tells (source : TaskState) : TaskEvent → Prop
  | .taskCancelRequested _ _ _ | .balanceCancelRequested _ => source = .running
  | _ => False

/-- The action pops the owner of the task and answers. -/
def Replies (source : TaskState) (phase : Phase) : TaskEvent → Prop
  | .taskCancelRequested _ _ _ =>
    source = .inactive ∧ phase = .vacant ∨ source = .running ∧ phase = .start
  | .taskResultReceived _ _ _ => phase = .vacant
  | .cancelConfirmCanceled _ _ _ | .cancelConfirmNotFound _ _ _ =>
    source = .canceling ∧ phase = .vacant
  | .workerDisconnected _ _ => source = .canceling ∧ phase = .start
  | _ => False

/-- Where the action of an event ends. -/
def Lands (source : TaskState) (phase : Phase) (e : TaskEvent) : TaskState → Prop
  | .inactive => phase = .queued
  | .running => phase = .placed ∨ (∃ t w c, e = .cancelConfirmFailed t w c) ∧ phase = .start ∧
      (source = .canceling ∨ source = .balanceCanceling)
  | .canceling => (∃ t c m, e = .taskCancelRequested t c m) ∧
      (source = .running ∧ phase = .told ∨ source = .balanceCanceling ∧ phase = .start)
  | .balanceCanceling => (∃ t, e = .balanceCancelRequested t) ∧ source = .running ∧ phase = .told
  | _ => phase = .ended none

end TaskEvent

/-- The message that tells a client how its task ended. -/
def Message.IsReplyTo (t : TaskID) : Message → Prop
  | .taskResult r => r.taskId = t
  | .taskCancelConfirm c => c.taskId = t
  | _ => False

/-- A message that neither carries a task nor says how one ended. -/
def Message.IsPlain : Message → Prop
  | .task _ | .taskResult _ | .taskCancelConfirm _ => False
  | _ => True

/-- The newest observation is that `e` was applied, in the present state. -/
def Sched.JustApplied (s : Sched) (e : TaskEvent) (source : TaskState) : Prop :=
  ∃ tr, s.trace = .applied e source (s.policy.getWorkerByTaskId e.taskId)
    (s.clientToTaskIds.getKey? e.taskId) (e.taskId ∈ s.unassigned) :: tr

/-- The steps of the task controller and of `TaskStateManager`. -/
inductive TaskStep (i : Tid) : Sched → Multiset Tok → Sched → Multiset Tok → Prop
  | message {s source} {task : Task} (h : Obs.received source (.task task) ∈ s.trace) :
    TaskStep i s 0 s {.fresh task}
  | known {s} {task : Task} (h : (s.getStateMachine task.taskId).isSome) :
    TaskStep i s {.fresh task} s 0
  | refuse {s e} {task : Task} (h : s.getStateMachine task.taskId = none)
      (ho : s.clientToTaskIds.add task.source task.taskId = (.error e, s.clientToTaskIds)) :
    TaskStep i s {.fresh task} ((s.addStateMachine task.taskId).note (.refused task.taskId))
      {.fault (.refused task.taskId)}
  | hold {s p owners} {task : Task} (h : s.getStateMachine task.taskId = none)
      (ho : s.clientToTaskIds.add task.source task.taskId = (.ok (), owners))
      (hp : s.policy.assignTask task = (.ok none, p)) :
    TaskStep i s {.fresh task}
      { s.addStateMachine task.taskId with
        clientToTaskIds := owners
        taskIdToTask := s.taskIdToTask.set task.taskId task
        policy := p
        unassigned := s.unassigned ++ [task.taskId] } 0
  | assign {s p w owners} {task : Task} (h : s.getStateMachine task.taskId = none)
      (ho : s.clientToTaskIds.add task.source task.taskId = (.ok (), owners))
      (hp : s.policy.assignTask task = (.ok (some w), p)) :
    TaskStep i s {.fresh task}
      { s.addStateMachine task.taskId with
        clientToTaskIds := owners
        taskIdToTask := s.taskIdToTask.set task.taskId task
        policy := p
        raised := .hasCapacity task.taskId w :: s.raised } {.event (.hasCapacity task.taskId w)}
  | acquire {s p t w rest} {task : Task} (hq : s.unassigned = t :: rest)
      (ht : s.taskIdToTask.get? t = some task) (hp : s.policy.assignTask task = (.ok (some w), p)) :
    TaskStep i s 0
      { s with policy := p, unassigned := rest, raised := .hasCapacity t w :: s.raised }
      {.event (.hasCapacity t w)}
  | acquireNone {s p t rest} {task : Task} (hq : s.unassigned = t :: rest)
      (ht : s.taskIdToTask.get? t = some task) (hp : s.policy.assignTask task = (.ok none, p)) :
    TaskStep i s 0 { s with policy := p } 0
  | drainFail {s t rest} (hq : s.unassigned = t :: rest) (ht : s.taskIdToTask.get? t = none) :
    TaskStep i s 0 (s.note .drainFailed) {.fault (.seen .drainFailed)}
  | loseEvent {s e} (h : Obs.drainFailed ∈ s.trace) :
    TaskStep i s ({.event e} + {.fault (.seen .drainFailed)}) s {.fault (.seen .drainFailed)}
  | report {s e} (hw : e.Wf) (hi : ¬ e.IsInternal) : TaskStep i s 0 s {.event e}
  | drop {s e} (h : s.getStateMachine e.taskId = none) :
    TaskStep i s {.event e} (s.dropEvent e) 0
  | enqueue {s e m} (h : s.getStateMachine e.taskId = some m) :
    TaskStep i s {.event e} (s.enqueueWaiter m.uid i) {.wait m.uid e}
  | expire {s uid e} :
    TaskStep i s {.wait uid e} ((s.leaveWaiters uid i).expireEvent e) 0
  | takeStale {s uid e} (hl : Sched.lockReady uid i s = true)
      (h : ∀ m, s.getStateMachine e.taskId = some m → m.uid ≠ uid) :
    TaskStep i s {.wait uid e} (((s.takeLock uid i).dropEvent e).releaseLock uid) 0
  | take {s uid e source} (hl : Sched.lockReady uid i s = true)
      (h : s.getStateMachine e.taskId = some ⟨uid, source⟩) :
    TaskStep i s {.wait uid e} (((s.takeLock uid i).dropEvent e).recordApplied e source)
      {.apply uid e source .start}
  | decline {s uid e source} (hj : s.JustApplied e source)
      (h : e.Refuses source ∨ s.isTaskOwnedByWorker e = false) :
    TaskStep i s {.apply uid e source .start} (s.releaseLock uid) 0
  | dispatch {s uid t w task} (hj : s.JustApplied (.hasCapacity t w) .inactive)
      (h : s.taskIdToTask.get? t = some task) :
    TaskStep i s {.apply uid (.hasCapacity t w) .inactive .start}
      (s.noteSent (.worker w) (.task task)) {.apply uid (.hasCapacity t w) .inactive .placed}
  | unqueue {s uid t c m} (hj : s.JustApplied (.taskCancelRequested t c m) .inactive)
      (h : t ∈ s.unassigned) :
    TaskStep i s {.apply uid (.taskCancelRequested t c m) .inactive .start}
      { s with unassigned := s.unassigned.erase t }
      {.apply uid (.taskCancelRequested t c m) .inactive .vacant}
  | release {s uid e source p holder} (hj : s.JustApplied e source) (he : e.Releases source)
      (hq : source = .inactive → e.taskId ∉ s.unassigned)
      (ho : s.isTaskOwnedByWorker e = true)
      (h : s.policy.removeTask e.taskId = (.ok holder, p)) :
    TaskStep i s {.apply uid e source .start} { s with policy := p } {.apply uid e source .vacant}
  | releaseFail {s uid e source phase p x} (h : s.policy.removeTask e.taskId = (.error x, p)) :
    TaskStep i s {.apply uid e source phase} ({ s with policy := p }.note .policyFailed)
      {.apply uid e source phase, .fault (.seen .policyFailed)}
  | owner {s uid t c m owners}
      (h : s.clientToTaskIds.add c t = (.ok (), owners)) :
    TaskStep i s {.apply uid (.taskCancelRequested t c m) .running .start}
      { s with clientToTaskIds := owners } {.apply uid (.taskCancelRequested t c m) .running .start}
  | tell {s uid e source w m} (he : e.Tells source) (hw : e.taskId = m.taskId)
      (h : s.policy.getWorkerByTaskId e.taskId = some w) :
    TaskStep i s {.apply uid e source .start} (s.noteSent (.worker w) (.taskCancel m))
      {.apply uid e source .told}
  | place {s uid e source phase task w p} (he : e.Places source phase)
      (hj : phase = .start → s.JustApplied e source)
      (ht : s.taskIdToTask.get? e.taskId = some task)
      (hp : s.policy.assignTask task = (.ok (some w), p)) :
    TaskStep i s {.apply uid e source phase}
      ({ s with policy := p }.noteSent (.worker w) (.task task))
      {.apply uid e source .placed}
  | placeFail {s uid e source phase task w p} (he : e.Places source phase)
      (hj : phase = .start → s.JustApplied e source)
      (ht : s.taskIdToTask.get? e.taskId = some task)
      (hp : s.policy.assignTask task = (.ok (some w), p)) :
    TaskStep i s {.apply uid e source phase} ({ s with policy := p }.note .sendFailed)
      {.apply uid e source .spoiled, .fault (.seen .sendFailed)}
  | suspend {s uid e source phase task p} (he : e.Places source phase)
      (hj : phase = .start → s.JustApplied e source)
      (ht : s.taskIdToTask.get? e.taskId = some task)
      (hp : s.policy.assignTask task = (.ok none, p)) :
    TaskStep i s {.apply uid e source phase}
      { s with policy := p, unassigned := s.unassigned ++ [e.taskId] }
      {.apply uid e source .queued}
  | finish {s uid e source phase} (he : e.Replies source phase)
      (hh : phase = .start → source = .running → s.policy.getWorkerByTaskId e.taskId = none)
      (hj : phase = .start → source = .canceling → s.JustApplied e source) :
    TaskStep i s {.apply uid e source phase} (s.onTaskFinish e.taskId)
      {.apply uid e source (.ended (s.clientToTaskIds.getKey? e.taskId))}
  | answer {s uid e source c m} (h : Message.IsReplyTo e.taskId m) :
    TaskStep i s {.apply uid e source (.ended (some c))} (s.noteSent (.client c) m)
      {.apply uid e source (.ended none)}
  | spoil {s uid e source c} :
    TaskStep i s {.apply uid e source (.ended (some c))} (s.note .sendFailed)
      {.apply uid e source .spoiled, .fault (.seen .sendFailed)}
  | settle {s uid e source phase target} (h : e.Lands source phase target) :
    TaskStep i s {.apply uid e source phase} ((s.settle e.taskId target).releaseLock uid) 0
  | faulted {s uid e source phase} :
    TaskStep i s {.apply uid e source phase} (s.note (.faulted e)) {.apply uid e source .faulted}
  | popOwner {s uid e source} :
    TaskStep i s {.apply uid e source .faulted} (s.onTaskFinish e.taskId)
      {.apply uid e source (.reported (s.clientToTaskIds.getKey? e.taskId))}
  | answerFault {s uid e source c m} (h : Message.IsReplyTo e.taskId m) :
    TaskStep i s {.apply uid e source (.reported (some c))} (s.noteSent (.client c) m)
      {.apply uid e source (.reported none)}
  | spoilFault {s uid e source c o} (h : o = .sendFailed ∨ o = .storageFailed) :
    TaskStep i s {.apply uid e source (.reported (some c))} (s.note o)
      {.apply uid e source (.reported none), .fault (.seen o)}
  | free {s uid e source p holder} (h : s.policy.removeTask e.taskId = (.ok holder, p)) :
    TaskStep i s {.apply uid e source (.reported none)} { s with policy := p }
      {.apply uid e source .freed}
  | tearDown {s uid e source phase} (h : phase = .freed ∨ phase = .reported none ∧
        Obs.policyFailed ∈ s.trace) :
    TaskStep i s {.apply uid e source phase} (s.tearDown e.taskId) {.closing uid}
  | close {s uid} : TaskStep i s {.closing uid} (s.releaseLock uid) 0

/-- The tokens of a list of pieces of work. -/
def toks {α : Type} (f : α → Tok) (l : List α) : Multiset Tok := (l.map f : List Tok)

/-- A graph is popped from both maps and its client is told. -/
inductive PopStep (g : TaskID) (m : Message) : Sched → Sched → Multiset Tok → Prop
  | ok {s s' info} (h : s.popGraph g = (.ok info, s')) :
    PopStep g m s (s'.noteSent (.client info.client) m) 0
  | sendFail {s s' info} (h : s.popGraph g = (.ok info, s')) :
    PopStep g m s (s'.note .sendFailed) {.fault (.seen .sendFailed)}
  | popFail {s s' e} (h : s.popGraph g = (.error e, s')) :
    PopStep g m s (s'.note (.popFailed g)) {.fault (.seen (.popFailed g))}

/-- `__check_one_graph` up to the first node it submits. -/
inductive CheckStep (g : TaskID) : Sched → Sched → Multiset Tok → Prop
  | done {s ref s' t} (h : s.graphTaskIdToGraph.get? g = some ref)
      (ha : (s.graphs ref).sorter.isActive = false)
      (hp : PopStep g (.taskResult ⟨g, .success, [], []⟩) s s' t) : CheckStep g s s' t
  | ready {s ref ready sorter} (h : s.graphTaskIdToGraph.get? g = some ref)
      (ha : (s.graphs ref).sorter.isActive = true)
      (hr : (s.graphs ref).sorter.getReady = (.ok ready, sorter)) :
    CheckStep g s (s.setGraph ref { s.graphs ref with sorter := sorter }) (toks (.batch g ref) ready)

/-- `__cancel_whole_graph` up to the cancels it sends. -/
inductive VisitStep (g : TaskID) : Sched → Sched → Multiset Tok → Prop
  | pop {s s' t} (hf : s.isGraphFinished g = true)
      (hp : PopStep g (.taskCancelConfirm ⟨g, .canceled⟩) s s' t) : VisitStep g s s' t
  | pass {s ref} (hr : s.graphTaskIdToGraph.get? g = some ref)
      (hf : s.isGraphFinished g = false) (h : (s.graphs ref).status ≠ .running) : VisitStep g s s 0
  | accept {s ref} (hr : s.graphTaskIdToGraph.get? g = some ref)
      (hf : s.isGraphFinished g = false) (h : (s.graphs ref).status = .running) :
    VisitStep g s (s.acceptCancel g ref) {.canceling g ref}

/-- `__abort_whole_graph` up to the first node it retires. -/
inductive AbortStep (g : TaskID) (x : TaskResultType) : Sched → Sched → Multiset Tok → Prop
  | pop {s s' t} (hf : s.isGraphFinished g = true)
      (hp : PopStep g (.taskResult ⟨g, x, [], []⟩) s s' t) : AbortStep g x s s' t
  | abort {s ref} (hf : s.isGraphFinished g = false)
      (hr : s.graphTaskIdToGraph.get? g = some ref) :
    AbortStep g x s (s.setGraph ref { s.graphs ref with status := .aborting })
      ({.aborting g ref x} + toks (.retire g ref · x) (s.graphs ref).runningTaskIds)

/-- The coroutine that owns `a` speaks about the subtask `t`: it applies an event of
the task, found no machine for it, or retires it. -/
def Tok.Warrants (t : TaskID) : Tok → Prop
  | .apply _ e _ (.ended none) | .apply _ e _ (.reported none) => e.taskId = t
  | .owed _ m => m.IsReplyTo t
  | .retire _ _ u _ => u = t
  | _ => False

/-- Work that is given up when an exception passes. -/
def Tok.IsWork : Tok → Prop
  | .adding _ _ _ | .canceling _ _ | .swept _ _ | .aborting _ _ _ | .retire _ _ _ _ | .owes _ _
  | .owed _ _ => True
  | _ => False

/-- The steps of the graph controller. -/
inductive GraphStep (i : Tid) : Sched → Multiset Tok → Sched → Multiset Tok → Prop
  | queueGraph {s client gt} (h : Obs.received client.bytes (.graphTask gt) ∈ s.trace) :
    GraphStep i s 0 { s with graphQueue := s.graphQueue ++ [(client, gt)] } 0
  | takeGraph {s client gt rest} (h : s.graphQueue = (client, gt) :: rest) :
    GraphStep i s 0 { s with graphQueue := rest } {.taken client gt}
  | refuseGraph {s client gt e s'} (h : s.onTaskBegin client gt.taskId = (.error e, s')) :
    GraphStep i s {.taken client gt} (s.note (.graphRefused gt.taskId))
      {.fault (.seen (.graphRefused gt.taskId))}
  | beginGraph {s client gt s'} (h : s.onTaskBegin client gt.taskId = (.ok (), s')) :
    GraphStep i s {.taken client gt}
      { s' with taskIdToGraphTaskId := s'.taskIdToGraphTaskId.set gt.taskId gt.taskId }
      {.adding client gt []}
  | addNode {s client gt done task rest} (h : gt.graph = done ++ task :: rest) :
    GraphStep i s {.adding client gt done}
      { s with taskIdToGraphTaskId := s.taskIdToGraphTaskId.set task.taskId gt.taskId }
      {.adding client gt (done ++ [task])}
  | rejectGraph {s client gt e} (h : (NewGraph.ofTasks gt.graph).prepare = .error e) :
    GraphStep i s {.adding client gt gt.graph} (s.note (.graphRejected gt.taskId))
      {.fault (.seen (.graphRejected gt.taskId))}
  | registerGraph {s client gt sorter s' u}
      (h : (NewGraph.ofTasks gt.graph).prepare = .ok sorter)
      (hc : CheckStep gt.taskId (s.registerGraph gt.taskId (Graph.ofTasks client gt sorter)) s' u) :
    GraphStep i s {.adding client gt gt.graph} s' u
  | submit {s g ref t task s'} (h : s.submitNode g ref t = (.ok task, s')) :
    GraphStep i s {.batch g ref t} s' {.submitting g ref t, .fresh task}
  | submitted {s g ref t} : GraphStep i s {.submitting g ref t} s 0
  | submitFail {s g ref t e s'} (h : s.submitNode g ref t = (.error e, s')) :
    GraphStep i s {.batch g ref t} (s'.note (.submitFailed g t))
      {.fault (.seen (.submitFailed g t))}
  | loseBatch {s g ref t u} :
    GraphStep i s ({.batch g ref u} + {.fault (.seen (.submitFailed g t))}) s
      {.fault (.seen (.submitFailed g t))}
  | loseRefused {s g ref t t' u} :
    GraphStep i s ({.batch g ref u} + {.submitting g ref t, .fault (.refused t')}) s
      {.submitting g ref t, .fault (.refused t')}
  | giveUp {s g ref t t'} :
    GraphStep i s {.submitting g ref t, .fault (.refused t')} s {.fault (.refused t')}
  | nodeDone {s r s₁ g ref w s' u} (hw : w.Warrants r.taskId)
      (hg : s.taskIdToGraphTaskId.get? r.taskId = some g)
      (hr : s.graphTaskIdToGraph.get? g = some ref) (ha : (s.graphs ref).status ≠ .canceling)
      (h : s.markNodeDone r = (.ok (), s₁)) (hn : ∀ g ref t x, w ≠ .retire g ref t x)
      (hc : r.resultType = .success → CheckStep g s₁ s' u)
      (hx : r.resultType ≠ .success → AbortStep g r.resultType s₁ s' u) :
    GraphStep i s {w} s' ({w} + u)
  | nodeDoneFail {s r s' w e} (hw : w.Warrants r.taskId) (h : s.markNodeDone r = (.error e, s')) :
    GraphStep i s {w} s' {w, .fault .other}
  | nodeCanceled {s g ref c s₁ w s' u} (hw : w.Warrants c.taskId)
      (hg : s.taskIdToGraphTaskId.get? c.taskId = some g)
      (hr : s.graphTaskIdToGraph.get? g = some ref)
      (h : s.markNodeCanceled g ref c = (.ok (), s₁)) (hv : VisitStep g s₁ s' u) :
    GraphStep i s {w} s' ({w} + u)
  | nodeCanceledFail {s g ref c s' w e} (hw : w.Warrants c.taskId)
      (hg : s.taskIdToGraphTaskId.get? c.taskId = some g)
      (hr : s.graphTaskIdToGraph.get? g = some ref)
      (h : s.markNodeCanceled g ref c = (.error e, s')) :
    GraphStep i s {w} s' {w, .fault .other}
  | stranger {s c t} (h : s.getStateMachine t = none) (hg : s.isGraphSubtask t = true) :
    GraphStep i s 0 s {.owed c (.taskCancelConfirm ⟨t, .cancelNotFound⟩)}
  | notFound {s c t} (h : s.getStateMachine t = none) :
    GraphStep i s 0 (s.noteSent (.client c) (.taskCancelConfirm ⟨t, .cancelNotFound⟩)) 0
  | visit {s g s' u} (h : s.graphTaskIdToGraph.contains g = true) (hv : VisitStep g s s' u) :
    GraphStep i s 0 s' u
  | sweep {s g ref confirms s'} (h : s.sweep g ref = (.ok confirms, s')) :
    GraphStep i s {.canceling g ref} s'
      ({.swept g ref} + toks (fun c => .owes ref (.taskCancelConfirm c)) confirms)
  | sweepFail {s g ref e s'} (h : s.sweep g ref = (.error e, s')) :
    GraphStep i s {.canceling g ref} s' {.fault .other}
  | sweptEnd {s g ref} (hf : s.isGraphFinished g = false) : GraphStep i s {.swept g ref} s 0
  | sweptPop {s g ref s' t} (hf : s.isGraphFinished g = true)
      (hp : PopStep g (.taskCancelConfirm ⟨g, .canceled⟩) s s' t) :
    GraphStep i s {.swept g ref} s' t
  | retire {s g ref t x r s'} (hw : r.taskId = t) (hx : r.resultType = x)
      (h : s.markNodeDone r = (.ok (), s')) :
    GraphStep i s {.retire g ref t x} s' {.owes ref (.taskResult r)}
  | abortReady {s g ref x ready sorter} (ha : (s.graphs ref).sorter.isActive = true)
      (hr : (s.graphs ref).sorter.getReady = (.ok ready, sorter)) :
    GraphStep i s {.aborting g ref x} (s.setGraph ref { s.graphs ref with sorter := sorter })
      ({.aborting g ref x} + toks (.retire g ref · x) ready)
  | abortedEnd {s g ref x} (hf : s.isGraphFinished g = false) : GraphStep i s {.aborting g ref x} s 0
  | abortedPop {s g ref x s' t} (hf : s.isGraphFinished g = true)
      (hp : PopStep g (.taskResult ⟨g, x, [], []⟩) s s' t) :
    GraphStep i s {.aborting g ref x} s' t
  | address {s ref m} :
    GraphStep i s {.owes ref m} s {.owed (s.graphs ref).client m}
  | send {s c m} : GraphStep i s {.owed c m} (s.noteSent (.client c) m) 0
  | sendFail {s c m} :
    GraphStep i s {.owed c m} (s.note .sendFailed) {.fault (.seen .sendFailed)}
  | lose {s a f} (h : a.IsWork) : GraphStep i s ({a} + {.fault f}) s {.fault f}

/-- The steps of the worker, client and object controllers, and failures. -/
inductive OtherStep (i : Tid) : Sched → Multiset Tok → Sched → Multiset Tok → Prop
  | receive {s source m} : OtherStep i s 0 (s.note (.received source m)) 0
  | plainSend {s peer m} (h : m.IsPlain) : OtherStep i s 0 (s.noteSent peer m) 0
  | sendFail {s} : OtherStep i s 0 (s.note .sendFailed) {.fault (.seen .sendFailed)}
  | storageFail {s} : OtherStep i s 0 (s.note .storageFailed) {.fault (.seen .storageFailed)}
  | payloadMissing {s t} (h : s.taskIdToTask.get? t = none) :
    OtherStep i s 0 (s.note (.payloadMissing t)) {.fault (.seen (.payloadMissing t))}
  | cancelRefused {s t c e} (h : s.clientToTaskIds.add c t = (.error e, s.clientToTaskIds)) :
    OtherStep i s 0 (s.note (.cancelRefused t)) {.fault (.seen (.cancelRefused t))}
  | weaken {s o} (h : o.isFault = true) :
    OtherStep i s {.fault (.seen o)} s {.fault .other}
  | weakenRefused {s t} : OtherStep i s {.fault (.refused t)} s {.fault .other}
  | refuse {s t} : OtherStep i s {.fault (.seen .sendFailed)} s {.fault (.refused t)}
  | forget {s f} : OtherStep i s {.fault f} s 0
  | addWorker {s w info s'} (h : s.addWorker w info = (true, s')) :
    OtherStep i s 0 s' {.connecting w}
  | connect {s w info} : OtherStep i s {.connecting w} ((s.connected w).noteHeartbeat w info) 0
  | connectFail {s w} : OtherStep i s {.connecting w} (s.connected w) 0
  | heartbeat {s w info} (h : s.addWorker w info = (false, s)) :
    OtherStep i s 0 (s.noteHeartbeat w info) 0
  | leave {s w} (h : s.workerAliveSince.contains w = true) :
    OtherStep i s 0
      ({ s with workerAliveSince := s.workerAliveSince.erase w }.removeWorkerFromManager w) 0
  | removeWorker {s w ts s'} (h : s.removeWorker w = (.ok ts, s')) :
    OtherStep i s 0 s' (toks (fun t => .event (.workerDisconnected t w)) ts)
  | removeWorkerFail {s w e s'} (h : s.removeWorker w = (.error e, s')) :
    OtherStep i s 0 (s'.note .policyFailed) {.fault (.seen .policyFailed)}
  | clients {s seen} : OtherStep i s 0 { s with clientLastSeen := seen } 0
  | objects {s tracker deleted next} :
    OtherStep i s 0
      { s with objectTracker := tracker, deletedObjectIds := deleted, nextObject := next } 0

inductive Step (i : Tid) (s : Sched) (t : Multiset Tok) (s' : Sched) (t' : Multiset Tok) : Prop
  | task (h : TaskStep i s t s' t')
  | graph (h : GraphStep i s t s' t')
  | other (h : OtherStep i s t s' t')

/-- Work that a caller hands to a coroutine it starts. -/
def Tok.IsGiven : Tok → Prop
  | .fresh _ | .event _ | .aborting _ _ _ | .owes _ _ | .owed _ _ => True
  | _ => False

/-- The states and tokens that steps of any threads reach; a child takes over work of
its parent and leaves an exception to it. -/
inductive Run (cfg : SchedulerConfig) : Sched → Multiset (Tid × Tok) → Prop
  | init : Run cfg (Sched.init cfg) 0
  | step {s s' i t t' M} (h : Run cfg s (tag i t + M)) (hs : Step i s t s' t') :
    Run cfg s' (tag i t' + M)
  | fork {s i n a M} (h : Run cfg s ((i, a) ::ₘ M)) (ha : a.IsGiven) :
    Run cfg s ((n :: i, a) ::ₘ M)
  | join {s i n f M} (h : Run cfg s ((n :: i, .fault f) ::ₘ M)) :
    Run cfg s ((i, .fault f) ::ₘ M)

end Scaler
