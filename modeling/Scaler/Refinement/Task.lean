import Scaler.Refinement.Graph

/-! The coroutines of the task controller make steps of the system. -/

namespace Scaler

open Collections Coroutine

section

variable {cfg : SchedulerConfig} {p : Proc} {i : Tid} {s : Sched} {t : Multiset Tok}
  {M : Multiset (Tid × Tok)}

theorem acquireWorkersFrom_run {l : List TaskID} (hl : s.unassigned = l)
    (h : Run cfg s (tag i t + M)) :
    match Sched.acquireWorkersFrom l s with
    | (.ok ready, s') =>
      Run cfg s' (tag i (toks (fun tw => .event (.hasCapacity tw.1 tw.2)) ready + t) + M)
    | (.error _, s') =>
      Run cfg (s'.note .drainFailed) (tag i ({Tok.fault (.seen .drainFailed)} + t) + M) := by
  induction l generalizing s t with
  | nil => simpa [Sched.acquireWorkersFrom] using h
  | cons a rest ih =>
    have h0 : Run cfg s (tag i (0 + t) + M) := by rwa [zero_add]
    cases ht : s.taskIdToTask.get? a with
    | none =>
      simp only [Sched.acquireWorkersFrom, ht]
      exact h0.frame (.task (.drainFail hl ht))
    | some task =>
      obtain ⟨r, q, hq, _⟩ := AllocatePolicy.assignTask_sound h.sane.policy task
      cases r with
      | none =>
        simp only [Sched.acquireWorkersFrom, ht, hq]
        exact h0.frame (.task (.acquireNone hl ht hq))
      | some w =>
        have h1 := h0.frame (.task (.acquire hl ht hq))
        have h2 := ih rfl h1
        simp only [Sched.acquireWorkersFrom, ht, hq]
        generalize hr : Sched.acquireWorkersFrom rest _ = r at h2 ⊢
        obtain ⟨x, s'⟩ := r
        cases x with
        | ok ready =>
          change Run cfg s' (tag i (toks _ ((a, w) :: ready) + t) + M)
          convert h2 using 3
          rw [toks_cons]
          ac_rfl
        | error e =>
          change Run cfg (s'.note .drainFailed) _
          rw [← add_assoc, add_comm {Tok.fault _}] at h2
          exact h2.frame (.task (.loseEvent List.mem_cons_self))

theorem retryUnassignable_ends (ht : ∀ a ∈ t, p.keeps a) (h : Run cfg s (tag i t + M)) :
    wp cfg p i retryUnassignable (ends cfg i t ({Tok.fault .other} + t)) s M := by
  have hr := acquireWorkersFrom_run rfl h
  refine wp_syncNoting ?_ ?_
  · intro ready s' hs
    rw [show Sched.acquireWorkersFrom s.unassigned s = _ from hs] at hr
    refine gather_ends ht ?_
    rwa [toks_give (fun _ => rfl)]
  · intro e s' hs
    rw [show Sched.acquireWorkersFrom s.unassigned s = _ from hs] at hr
    exact Run.weakenSeen rfl hr

end

section

variable {cfg : SchedulerConfig} {i : Tid} {s : Sched} {M : Multiset (Tid × Tok)} {uid : Nat}
  {e : TaskEvent} {source : TaskState} {phase : Phase}

variable (cfg uid e source i) in
/-- The action raised somewhere on its way. -/
def Faulted (s : Sched) (M : Multiset (Tid × Tok)) : Prop :=
  ∃ phase f, Run cfg s (tag i ({Tok.fault f} + {Tok.apply uid e source phase}) + M)

variable (cfg uid e source i) in
/-- What an action of `e` leaves behind. -/
def acted : Protocol.Post Sched Exn Tok (Option TaskState)
  | .ok none, s, M => s.JustApplied e source ∧ e.Refuses source ∧
    Run cfg s (tag i {Tok.apply uid e source .start} + M)
  | .ok (some target), s, M => ∃ phase, e.Lands source phase target ∧
    Run cfg s (tag i {Tok.apply uid e source phase} + M)
  | .error _, s, M => Faulted cfg i uid e source s M

theorem keeps_apply {q : TaskEvent} : ∀ a ∈ ({Tok.apply uid e source phase} : Multiset Tok),
    (Proc.route q).keeps a := by
  intro a ha
  rw [Multiset.mem_singleton.mp ha]
  exact ⟨q, rfl⟩

theorem onTaskDone_wp {Q : Protocol.Post Sched Exn Tok Unit} {p : Proc} {t : TaskID}
    (h : Run cfg s (tag i {Tok.apply uid e source phase} + M)) (ht : t = e.taskId)
    (hok : ∀ holder q, s.policy.removeTask e.taskId = (.ok holder, q) →
      Q (.ok ()) { s with policy := q } M)
    (he : ∀ x s', Obs.policyFailed ∈ s'.trace → Run cfg s' (tag i ({Tok.fault (.seen .policyFailed)} +
      {Tok.apply uid e source phase}) + M) → Q (.error x) s' M) :
    wp cfg p i (onTaskDone t) Q s M := by
  subst ht
  refine wp_syncNoting ?_ ?_
  · intro holder s' hs
    simp only [Sched.policyOp, Prod.mk.injEq] at hs
    obtain ⟨h1, rfl⟩ := hs
    refine hok holder _ ?_
    rw [← h1]
  · intro x s' hs
    simp only [Sched.policyOp, Prod.mk.injEq] at hs
    obtain ⟨h1, rfl⟩ := hs
    have h : Run cfg _ (tag i ({Tok.apply uid e source phase} + {Tok.fault (.seen .policyFailed)}) + M) :=
      h.step (.task (.releaseFail (x := x) (p := (s.policy.removeTask e.taskId).2) (by rw [← h1])))
    exact he x _ (List.mem_cons_self ..) h.swap

theorem onTaskBegin_wp {α : Type} {Q : Protocol.Post Sched Exn Tok α} {p : Proc} {o : Obs}
    {c : ClientID} {t : TaskID} {k : Unit → Scaler.M α}
    (hok : ∀ owners, s.clientToTaskIds.add c t = (.ok (), owners) →
      wp cfg p i (k ()) Q { s with clientToTaskIds := owners } M)
    (he : ∀ x, s.clientToTaskIds.add c t = (.error x, s.clientToTaskIds) → Q (.error x) (s.note o) M) :
    wp cfg p i (syncNoting o (·.onTaskBegin c t) >>= k) Q s M := by
  refine wp_syncNoting ?_ ?_
  · intro _ s' hs
    obtain rfl : (s.onTaskBegin c t).2 = s' := congrArg Prod.snd hs
    have h1 : (s.clientToTaskIds.add c t).1 = .ok () := congrArg Prod.fst hs
    exact hok _ (Prod.ext h1 rfl)
  · intro x s' hs
    obtain rfl := (Sched.onTaskBegin_error hs).symm
    have h1 : (s.clientToTaskIds.add c t).1 = .error x := congrArg Prod.fst hs
    have h2 : (s.clientToTaskIds.add c t).2 = s.clientToTaskIds := congrArg (·.2.clientToTaskIds) hs
    exact he x (Prod.ext h1 h2)

theorem acquireWorker_wp {α : Type} {Q : Protocol.Post Sched Exn Tok α} {p : Proc} {task : Task}
    {k : Option WorkerID → Scaler.M α} (hp : s.policy.Sound)
    (hok : ∀ r q, s.policy.assignTask task = (.ok r, q) →
      wp cfg p i (k r) Q { s with policy := q } M) :
    wp cfg p i (acquireWorker task >>= k) Q s M := by
  obtain ⟨r, q, ha, _⟩ := AllocatePolicy.assignTask_sound hp task
  refine wp_syncNoting ?_ ?_
  · intro r' s' hs
    simp only [Sched.policyOp, ha, Prod.mk.injEq, Except.ok.injEq] at hs
    obtain ⟨rfl, rfl⟩ := hs
    exact hok r q ha
  · intro x s' hs
    simp [Sched.policyOp, ha] at hs

theorem onTaskFinish_wp {α : Type} {Q : Protocol.Post Sched Exn Tok α} {t : TaskID}
    {f : Option ClientID → Scaler.M α} {p : Proc}
    (h : wp cfg p i (f (s.clientToTaskIds.getKey? t)) Q (s.onTaskFinish t) M) :
    wp cfg p i (onTaskFinish t >>= f) Q s M :=
  Protocol.wp_seq h

/-- The owner is popped, and answered when there is one. -/
theorem replyToOwner_wp {Q : Protocol.Post Sched Exn Tok Unit} {q : TaskEvent} {t : TaskID}
    {m : Message} (h : Run cfg s (tag i {Tok.apply uid e source phase} + M)) (hp : e.Replies source phase)
    (hh : phase = .start → source = .running → s.policy.getWorkerByTaskId e.taskId = none)
    (hj : phase = .start → source = .canceling → s.JustApplied e source) (ht : t = e.taskId)
    (hm : m.IsReplyTo e.taskId)
    (hok : ∀ s M, Run cfg s (tag i {Tok.apply uid e source (.ended none)} + M) → Q (.ok ()) s M)
    (he : ∀ x s M, Faulted cfg i uid e source s M → Q (.error x) s M) :
    wp cfg (.route q) i (replyToOwner t m) Q s M := by
  subst ht
  have h := h.step (.task (.finish hp hh hj))
  refine onTaskFinish_wp ?_
  cases hc : s.clientToTaskIds.getKey? e.taskId with
  | none =>
    rw [hc] at h
    exact hok _ M h
  | some client =>
    rw [hc] at h
    refine wp_ends (binderSend_ends keeps_apply (h.step (.task (.answer hm)))
      (h.step (.task .spoil))) (fun _ s M h => hok s M h) fun x s M h => ?_
    rw [pair_eq] at h
    exact he x s M ⟨.spoiled, .seen .sendFailed, h.swap⟩

/-- What follows every reply: the monitor, the graph of the task, the queue. -/
theorem afterReply_wp {Q : Protocol.Post Sched Exn Tok Unit} {q : TaskEvent} {t : TaskID}
    {c : Scaler.M Unit} (h : Run cfg s (tag i {Tok.apply uid e source (.ended none)} + M))
    (hc : ∀ s M, Run cfg s (tag i {Tok.apply uid e source (.ended none)} + M) →
      wp cfg (.route q) i c (ends cfg i {Tok.apply uid e source (.ended none)}
        ({Tok.fault .other} + {Tok.apply uid e source (.ended none)})) s M)
    (hok : ∀ s M, Run cfg s (tag i {Tok.apply uid e source (.ended none)} + M) → Q (.ok ()) s M)
    (he : ∀ x s M, Faulted cfg i uid e source s M → Q (.error x) s M) :
    wp cfg (.route q) i (monitorSend >>= fun _ => whenGraphSubtask t c >>= fun _ =>
      retryUnassignable) Q s M := by
  refine wp_then (monitorSend_ends keeps_apply h) ?_ fun x s M h => he x s M ⟨_, _, h⟩
  intro _ s M h
  have hretry : ∀ s M, Run cfg s (tag i {Tok.apply uid e source (.ended none)} + M) →
      wp cfg (.route q) i retryUnassignable Q s M := fun s M h =>
    wp_ends (retryUnassignable_ends keeps_apply h) (fun _ s M h => hok s M h)
      fun x s M h => he x s M ⟨_, _, h⟩
  refine Protocol.wp_seq (Protocol.wp_reads ?_)
  split
  · exact wp_ends (hc s M h) (fun _ s M h => hretry s M h) fun x s M h => he x s M ⟨_, _, h⟩
  · exact hretry s M h

theorem sendTaskCancelConfirmToClient_wp {Q : Protocol.Post Sched Exn Tok Unit} {q : TaskEvent}
    {c : TaskCancelConfirm} (h : Run cfg s (tag i {Tok.apply uid e source phase} + M))
    (hp : e.Replies source phase)
    (hh : phase = .start → source = .running → s.policy.getWorkerByTaskId e.taskId = none)
    (hj : phase = .start → source = .canceling → s.JustApplied e source)
    (ht : c.taskId = e.taskId)
    (hok : ∀ s M, Run cfg s (tag i {Tok.apply uid e source (.ended none)} + M) → Q (.ok ()) s M)
    (he : ∀ x s M, Faulted cfg i uid e source s M → Q (.error x) s M) :
    wp cfg (.route q) i (sendTaskCancelConfirmToClient c) Q s M := by
  refine Protocol.wp_seq (replyToOwner_wp h hp hh hj ht ht (fun s M h => ?_) he)
  exact afterReply_wp h (fun s M h => onGraphSubTaskCancelConfirm_ends ht.symm ⟨q, rfl⟩ h) hok he

theorem sendTaskResultToClient_wp {Q : Protocol.Post Sched Exn Tok Unit} {q : TaskEvent}
    {r : TaskResult} (h : Run cfg s (tag i {Tok.apply uid e source .start} + M))
    (hj : s.JustApplied e source) (ho : s.isTaskOwnedByWorker e = true) (hr : e.Releases source)
    (hs : source ≠ .inactive) (hp : e.Replies source .vacant) (ht : r.taskId = e.taskId)
    (hok : ∀ s M, Run cfg s (tag i {Tok.apply uid e source (.ended none)} + M) → Q (.ok ()) s M)
    (he : ∀ x s M, Faulted cfg i uid e source s M → Q (.error x) s M) :
    wp cfg (.route q) i (sendTaskResultToClient r) Q s M := by
  refine Protocol.wp_seq (onTaskDone_wp h ht ?_ fun x s _ h => he x s M ⟨_, _, h⟩)
  intro holder p hq
  have h := h.step (.task (.release hj hr (fun hi => absurd hi hs) ho hq))
  refine Protocol.wp_seq (replyToOwner_wp h hp (by simp) (by simp) ht ht (fun s M h => ?_) he)
  refine afterReply_wp h (fun s M h => ?_) hok he
  exact onGraphSubTaskResult_ends ht.symm (by simp) ⟨q, rfl⟩ h

section Workers

theorem payload_wp {α : Type} {Q : Protocol.Post Sched Exn Tok α} {p : Proc} {t : TaskID}
    {u : Multiset Tok} {k : Task → Scaler.M α} (h : Run cfg s (tag i u + M))
    (hok : ∀ task, s.taskIdToTask.get? t = some task → wp cfg p i (k task) Q s M)
    (he : ∀ x s, Run cfg s (tag i ({Tok.fault (.seen (.payloadMissing t))} + u) + M) →
      Q (.error x) s M) : wp cfg p i (payload t >>= k) Q s M := by
  refine wp_syncNoting ?_ ?_
  · intro task s' hs
    cases ht : s.taskIdToTask.get? t with
    | none => simp [ht] at hs
    | some task' =>
      simp only [ht, Prod.mk.injEq, Except.ok.injEq] at hs
      obtain ⟨rfl, rfl⟩ := hs
      exact hok _ ht
  · intro x s' hs
    cases ht : s.taskIdToTask.get? t with
    | some task' => simp [ht] at hs
    | none =>
      simp only [ht, Prod.mk.injEq, Except.error.injEq] at hs
      obtain ⟨rfl, rfl⟩ := hs
      refine he _ _ (Run.frame (t := 0) ?_ (.other (.payloadMissing ht)))
      rwa [zero_add]

/-- The task is sent as part of the step to `placed`. -/
theorem sendTaskToWorker_wp {Q : Protocol.Post Sched Exn Tok Unit} {q : TaskEvent} {w : WorkerID}
    {task : Task} (ht : s.taskIdToTask.get? e.taskId = some task)
    (hs : Run cfg (s.noteSent (.worker w) (.task task))
      (tag i {Tok.apply uid e source .placed} + M))
    (hf : Faulted cfg i uid e source (s.note .sendFailed) M)
    (hok : ∀ s M, Run cfg s (tag i {Tok.apply uid e source .placed} + M) → Q (.ok ()) s M)
    (he : ∀ x s M, Faulted cfg i uid e source s M → Q (.error x) s M) :
    wp cfg (.route q) i (sendTaskToWorker w e.taskId) Q s M := by
  have hp : wp cfg (.route q) i (payload e.taskId) (fun r s' M' => r = .ok task ∧ s' = s ∧ M' = M)
      s M := by
    unfold payload syncNoting
    simp only [Protocol.wp, ht]
    exact ⟨rfl, rfl, rfl⟩
  refine Protocol.wp_seq (Protocol.wp_mono ?_ hp)
  rintro r s' M' ⟨rfl, rfl, rfl⟩
  obtain ⟨phase, f, hf⟩ := hf
  refine wp_then (binderSend_ends keeps_apply hs hf) ?_ fun x s M h => he x s M ⟨_, _, h⟩
  intro _ s M h
  exact wp_ends (monitorSend_ends keeps_apply h) (fun _ s M h => hok s M h)
    fun x s M h => he x s M ⟨_, _, h⟩

theorem acquireAndDispatch_wp {Q : Protocol.Post Sched Exn Tok TaskState} {q : TaskEvent}
    (h : Run cfg s (tag i {Tok.apply uid e source phase} + M)) (hp : e.Places source phase)
    (hj : phase = .start → s.JustApplied e source)
    (hok : ∀ target phase s M, e.Lands source phase target →
      Run cfg s (tag i {Tok.apply uid e source phase} + M) → Q (.ok target) s M)
    (he : ∀ x s M, Faulted cfg i uid e source s M → Q (.error x) s M) :
    wp cfg (.route q) i (acquireAndDispatch e.taskId) Q s M := by
  refine payload_wp h ?_ fun x s h => he x s M ⟨_, _, h⟩
  intro task ht
  refine acquireWorker_wp h.sane.policy fun r p ha => ?_
  cases r with
  | none =>
    refine Protocol.wp_modify (wp_then (monitorSend_ends keeps_apply
      (h.step (.task (.suspend hp hj ht ha)))) ?_ fun x s M h => he x s M ⟨_, _, h⟩)
    intro _ s M h
    exact hok .inactive .queued s M rfl h
  | some w =>
    have hs := h.step (.task (.place hp hj ht ha))
    have hf := h.step (.task (.placeFail hp hj ht ha))
    rw [pair_eq] at hf
    refine Protocol.wp_seq (sendTaskToWorker_wp ht hs ⟨_, _, hf.swap⟩ ?_ he)
    intro s M h
    exact hok .running .placed s M (.inl rfl) h

theorem sendTaskCancelToWorker_wp {Q : Protocol.Post Sched Exn Tok Bool} {q : TaskEvent}
    {cancel : TaskCancel} (h : Run cfg s (tag i {Tok.apply uid e source .start} + M))
    (ht : e.Tells source) (hc : cancel.taskId = e.taskId)
    (hno : s.policy.getWorkerByTaskId e.taskId = none → Q (.ok false) s M)
    (hok : ∀ s M, Run cfg s (tag i {Tok.apply uid e source .told} + M) → Q (.ok true) s M)
    (he : ∀ x s M, Faulted cfg i uid e source s M → Q (.error x) s M) :
    wp cfg (.route q) i (sendTaskCancelToWorker cancel) Q s M := by
  refine Protocol.wp_reads ?_
  rw [hc]
  cases hw : s.policy.getWorkerByTaskId e.taskId with
  | none => exact hno hw
  | some w =>
    have hf : Run cfg (s.note .sendFailed)
        (tag i ({Tok.fault (.seen .sendFailed)} + {Tok.apply uid e source .start}) + M) :=
      Run.frame (t := 0) (by rwa [zero_add]) (.other .sendFail)
    refine wp_then (binderSend_ends keeps_apply (h.step (.task (.tell ht hc.symm hw))) hf) ?_
      fun x s M h => he x s M ⟨_, _, h⟩
    intro _ s M h
    refine wp_then (monitorSend_ends keeps_apply h) ?_ fun x s M h => he x s M ⟨_, _, h⟩
    intro _ s M h
    exact hok s M h

end Workers

section Actions

variable {q : TaskEvent} {t : TaskID} {w : WorkerID}

theorem onHasCapacity_acted (he : e = .hasCapacity t w) (hj : s.JustApplied e source)
    (h : Run cfg s (tag i {Tok.apply uid e source .start} + M)) :
    wp cfg (.route q) i (onHasCapacity source t w) (acted cfg i uid e source) s M := by
  subst he
  by_cases hs : source = .inactive
  · subst hs
    have hf : Faulted cfg i uid (.hasCapacity t w) .inactive (s.note .sendFailed) M :=
      ⟨.start, _, Run.frame (t := 0) (by rwa [zero_add]) (.other .sendFail)⟩
    cases ht : s.taskIdToTask.get? t with
    | none =>
      refine Protocol.wp_seq (payload_wp h (fun task he => ?_) fun x s h => ⟨_, _, h⟩)
      rw [ht] at he
      cases he
    | some task =>
      refine Protocol.wp_seq (sendTaskToWorker_wp ht (h.step (.task (.dispatch hj ht))) hf ?_
        fun x s M h => h)
      intro s M h
      exact ⟨.placed, .inl rfl, h⟩
  · cases source with
    | inactive => exact absurd rfl hs
    | _ => exact ⟨hj, hs, h⟩

theorem takeBack_wp {Q : Protocol.Post Sched Exn Tok Unit} {c : ClientID} {cancel : TaskCancel}
    (he : e = .taskCancelRequested t c cancel) (hj : s.JustApplied e .inactive)
    (h : Run cfg s (tag i {Tok.apply uid e .inactive .start} + M))
    (hok : ∀ s M, Run cfg s (tag i {Tok.apply uid e .inactive .vacant} + M) → Q (.ok ()) s M)
    (hx : ∀ x s M, Faulted cfg i uid e .inactive s M → Q (.error x) s M) :
    wp cfg (.route q) i (takeBack t) Q s M := by
  subst he
  refine Protocol.wp_reads ?_
  split
  · next hq => exact hok _ M (h.step (.task (.unqueue hj (by simpa using hq))))
  · next hq =>
    refine onTaskDone_wp h rfl ?_ fun x s _ h => hx x s M ⟨_, _, h⟩
    intro holder p hp
    have hq : t ∉ s.unassigned := by simpa using hq
    exact hok _ M (h.step (.task (.release hj rfl (fun _ => hq) rfl hp)))

theorem onTaskCancelRequested_acted {c : ClientID} {cancel : TaskCancel}
    (he : e = .taskCancelRequested t c cancel) (hw : e.Wf) (hj : s.JustApplied e source)
    (h : Run cfg s (tag i {Tok.apply uid e source .start} + M)) :
    wp cfg (.route q) i (onTaskCancelRequested source t c cancel) (acted cfg i uid e source) s M := by
  cases source with
  | inactive =>
    refine Protocol.wp_seq (takeBack_wp he hj h (fun s M h => ?_) fun x s M h => h)
    refine Protocol.wp_seq (sendTaskCancelConfirmToClient_wp h (by rw [he]; exact .inl ⟨rfl, rfl⟩)
      (by simp) (by simp) (by rw [he]; rfl) (fun s M h => ?_) fun x s M h => h)
    exact ⟨.ended none, rfl, h⟩
  | running =>
    subst he
    refine onTaskBegin_wp (fun owners ho => ?_) fun x ho => ?_
    · have h := h.step (.task (.owner ho))
      refine Protocol.wp_seq (sendTaskCancelToWorker_wp h rfl hw (fun hn => ?_) (fun s M h => ?_)
        fun x s M h => h)
      · refine Protocol.wp_seq (sendTaskCancelConfirmToClient_wp h (.inr ⟨rfl, rfl⟩)
          (fun _ _ => hn) (by simp) rfl (fun s M h => ?_) fun x s M h => h)
        exact ⟨.ended none, rfl, h⟩
      · exact ⟨.told, ⟨⟨t, c, cancel, rfl⟩, .inl ⟨rfl, rfl⟩⟩, h⟩
    · exact ⟨.start, _, Run.frame (t := 0) (by rwa [zero_add]) (.other (.cancelRefused ho))⟩
  | balanceCanceling =>
    exact ⟨.start, ⟨⟨t, c, cancel, he⟩, .inr ⟨rfl, rfl⟩⟩, h⟩
  | _ => exact ⟨hj, by subst he; trivial, h⟩

theorem onBalanceTaskCancel_acted (he : e = .balanceCancelRequested t) (hj : s.JustApplied e source)
    (h : Run cfg s (tag i {Tok.apply uid e source .start} + M)) :
    wp cfg (.route q) i (onBalanceTaskCancel source t) (acted cfg i uid e source) s M := by
  subst he
  cases source with
  | running =>
    refine Protocol.wp_seq (sendTaskCancelToWorker_wp h rfl rfl (fun _ => ?_) (fun s M h => ?_)
      fun x s M h => h)
    · exact ⟨hj, trivial, h⟩
    · exact ⟨.told, ⟨⟨t, rfl⟩, rfl, rfl⟩, h⟩
  | _ => exact ⟨hj, trivial, h⟩

theorem lands_taskResultTarget {r : TaskResultType} :
    e.Lands source (.ended none) (taskResultTarget r) := by
  cases r <;> rfl

theorem onTaskResult_acted {r : TaskResult} (he : e = .taskResultReceived t w r) (hw : e.Wf)
    (hj : s.JustApplied e source) (ho : s.isTaskOwnedByWorker e = true)
    (h : Run cfg s (tag i {Tok.apply uid e source .start} + M)) :
    wp cfg (.route q) i (onTaskResult source r) (acted cfg i uid e source) s M := by
  have hsend : e.Releases source → source ≠ .inactive →
      wp cfg (.route q) i (sendTaskResultToClient r >>= fun _ =>
        pure (some (taskResultTarget r.resultType))) (acted cfg i uid e source) s M := by
    intro hr hs
    refine Protocol.wp_seq (sendTaskResultToClient_wp h hj ho hr hs (by subst he; rfl) (by subst he; exact hw)
      (fun s M h => ?_) fun x s M h => h)
    exact ⟨.ended none, lands_taskResultTarget, h⟩
  cases source with
  | running => exact hsend (by subst he; exact .inl rfl) (by simp)
  | balanceCanceling => exact hsend (by subst he; exact .inr rfl) (by simp)
  | _ => exact ⟨hj, by subst he; trivial, h⟩

theorem onCancelConfirmReleased_acted {target : TaskState} {c : TaskCancelConfirm}
    (he : e = .cancelConfirmCanceled t w c ∧ target = .canceled ∨
      e = .cancelConfirmNotFound t w c ∧ target = .canceledNotFound) (hw : e.Wf)
    (hj : s.JustApplied e source) (ho : s.isTaskOwnedByWorker e = true)
    (h : Run cfg s (tag i {Tok.apply uid e source .start} + M)) :
    wp cfg (.route q) i (onCancelConfirmReleased target source t c) (acted cfg i uid e source) s M := by
  have ht : t = e.taskId := by
    rcases he with ⟨rfl, _⟩ | ⟨rfl, _⟩ <;> rfl
  have hc : c.taskId = e.taskId := by
    rcases he with ⟨rfl, _⟩ | ⟨rfl, _⟩ <;> exact hw
  have hrep : e.Replies .canceling .vacant := by
    rcases he with ⟨rfl, _⟩ | ⟨rfl, _⟩ <;> exact ⟨rfl, rfl⟩
  have hl : e.Lands source (.ended none) target := by
    rcases he with ⟨_, rfl⟩ | ⟨_, rfl⟩ <;> rfl
  have hr : ∀ {x}, x = .canceling ∨ x = .balanceCanceling → e.Releases x := by
    intro x hx
    rcases he with ⟨rfl, _⟩ | ⟨rfl, _⟩ <;> exact hx
  have hp : e.Places .balanceCanceling .vacant := by
    rcases he with ⟨rfl, _⟩ | ⟨rfl, _⟩ <;> exact ⟨rfl, rfl⟩
  cases source with
  | canceling =>
    refine Protocol.wp_seq (onTaskDone_wp h ht ?_ fun x s _ h => ⟨_, _, h⟩)
    intro holder p hp
    have h := h.step (.task (.release hj (hr (.inl rfl)) (by simp) ho hp))
    refine Protocol.wp_seq (sendTaskCancelConfirmToClient_wp h hrep (by simp) (by simp) hc
      (fun s M h => ?_) fun x s M h => h)
    exact ⟨.ended none, hl, h⟩
  | balanceCanceling =>
    refine Protocol.wp_seq (onTaskDone_wp h ht ?_ fun x s _ h => ⟨_, _, h⟩)
    intro holder p hq
    have h := h.step (.task (.release hj (hr (.inr rfl)) (by simp) ho hq))
    rw [ht]
    refine Protocol.wp_seq (acquireAndDispatch_wp h hp (by simp) ?_ fun x s M h => h)
    intro target phase s M hl h
    exact ⟨phase, hl, h⟩
  | _ => exact ⟨hj, by rcases he with ⟨rfl, _⟩ | ⟨rfl, _⟩ <;> trivial, h⟩

theorem onCancelConfirmFailed_acted {c : TaskCancelConfirm} (he : e = .cancelConfirmFailed t w c)
    (hj : s.JustApplied e source) (h : Run cfg s (tag i {Tok.apply uid e source .start} + M)) :
    wp cfg (.route q) i (onCancelConfirmFailed source) (acted cfg i uid e source) s M := by
  subst he
  cases source with
  | canceling => exact ⟨.start, .inr ⟨⟨t, w, c, rfl⟩, rfl, .inl rfl⟩, h⟩
  | balanceCanceling => exact ⟨.start, .inr ⟨⟨t, w, c, rfl⟩, rfl, .inr rfl⟩, h⟩
  | _ => exact ⟨hj, trivial, h⟩

theorem onWorkerDisconnected_acted (he : e = .workerDisconnected t w) (hj : s.JustApplied e source)
    (h : Run cfg s (tag i {Tok.apply uid e source .start} + M)) :
    wp cfg (.route q) i (onWorkerDisconnected source t) (acted cfg i uid e source) s M := by
  have hplace : e.Places source .start → wp cfg (.route q) i (acquireAndDispatch t >>= fun target =>
      pure (some target)) (acted cfg i uid e source) s M := by
    intro hp
    rw [show t = e.taskId by rw [he]; rfl]
    refine Protocol.wp_seq (acquireAndDispatch_wp h hp (fun _ => hj) ?_ fun x s M h => h)
    intro target phase s M hl h
    exact ⟨phase, hl, h⟩
  cases source with
  | running => exact hplace (by rw [he]; exact ⟨.inl rfl, rfl⟩)
  | balanceCanceling => exact hplace (by rw [he]; exact ⟨.inr rfl, rfl⟩)
  | canceling =>
    refine Protocol.wp_seq (sendTaskCancelConfirmToClient_wp h (by rw [he]; exact ⟨rfl, rfl⟩)
      (by simp) (fun _ _ => hj) (by rw [he]; rfl) (fun s M h => ?_) fun x s M h => h)
    exact ⟨.ended none, rfl, h⟩
  | _ =>
    refine ⟨hj, ?_, h⟩
    rw [he]
    exact ⟨by simp, by simp, by simp⟩

theorem action_acted (hw : e.Wf) (hj : s.JustApplied e source)
    (ho : s.isTaskOwnedByWorker e = true) (h : Run cfg s (tag i {Tok.apply uid e source .start} + M)) :
    wp cfg (.route q) i (action source e) (acted cfg i uid e source) s M := by
  cases e with
  | hasCapacity t w => exact onHasCapacity_acted rfl hj h
  | taskCancelRequested t c cancel => exact onTaskCancelRequested_acted rfl hw hj h
  | balanceCancelRequested t => exact onBalanceTaskCancel_acted rfl hj h
  | taskResultReceived t w r => exact onTaskResult_acted rfl hw hj ho h
  | cancelConfirmCanceled t w c => exact onCancelConfirmReleased_acted (.inl ⟨rfl, rfl⟩) hw hj ho h
  | cancelConfirmFailed t w c => exact onCancelConfirmFailed_acted rfl hj h
  | cancelConfirmNotFound t w c => exact onCancelConfirmReleased_acted (.inr ⟨rfl, rfl⟩) hw hj ho h
  | workerDisconnected t w => exact onWorkerDisconnected_acted rfl hj h

end Actions

section Router

variable {q : TaskEvent}

/-- An `attempt` whose outcome nobody looks at. -/
theorem wp_attempted {α β : Type} {p : Proc} {c : Scaler.M α} {k : Scaler.M β}
    {Q : Protocol.Post Sched Exn Tok β} {R : Sched → Multiset (Tid × Tok) → Prop}
    (hc : wp cfg p i c (fun _ s M => R s M) s M) (hk : ∀ s M, R s M → wp cfg p i k Q s M) :
    wp cfg p i (c.attempt >>= fun _ => k) Q s M :=
  Protocol.wp_seq (Protocol.wp_attempt (Protocol.wp_mono (fun _ s M h => hk s M h) hc))

theorem reportFaultToClient_wp (h : Run cfg s (tag i {Tok.apply uid e source .faulted} + M)) :
    wp cfg (.route q) i (reportFaultToClient e.taskId)
      (fun _ s M => Run cfg s (tag i {Tok.apply uid e source (.reported none)} + M)) s M := by
  have hforget : ∀ {f s M},
      Run cfg s (tag i ({Tok.fault f} + {Tok.apply uid e source (.reported none)}) + M) →
      Run cfg s (tag i {Tok.apply uid e source (.reported none)} + M) := by
    intro f s M h
    have h := h.frame (.other .forget)
    rwa [zero_add] at h
  have h := h.step (.task .popOwner)
  refine onTaskFinish_wp ?_
  cases hc : s.clientToTaskIds.getKey? e.taskId with
  | none =>
    rw [hc] at h
    exact h
  | some client =>
    rw [hc] at h
    refine generateObjectId_wp h fun id s h => ?_
    have hf := h.step (.task (.spoilFault (.inr rfl)))
    rw [pair_eq] at hf
    refine wp_then (storageRequest_ends keeps_apply h hf.swap) ?_ fun x s M h => hforget h
    intro _ s M h
    refine Protocol.wp_modify ?_
    have h := h.objects (s.objectTracker.addObject client id ("<scheduler error>".toUTF8.toList))
      s.deletedObjectIds s.nextObject
    have hf := h.step (.task (.spoilFault (.inl rfl)))
    rw [pair_eq] at hf
    refine wp_then (binderSend_ends keeps_apply (h.step (.task (.answerFault rfl))) hf.swap) ?_
      fun x s M h => hforget h
    intro _ s M h
    refine wp_then (monitorSend_ends keeps_apply h) ?_ fun x s M h => hforget h
    intro _ s M h
    refine Protocol.wp_reads ?_
    split
    · exact wp_ends (onGraphSubTaskResult_ends (w := .apply uid e source (.reported none)) rfl
        (by simp) ⟨q, rfl⟩ h) (fun _ s M h => h) fun x s M h => hforget h
    · exact h

theorem failTaskToClient_wp {Q : Protocol.Post Sched Exn Tok Unit}
    (h : Run cfg s (tag i {Tok.apply uid e source .faulted} + M))
    (hok : ∀ s M, Run cfg s (tag i {Tok.closing uid} + M) → Q (.ok ()) s M) :
    wp cfg (.route q) i (failTaskToClient e.taskId) Q s M := by
  refine wp_attempted (reportFaultToClient_wp h) fun s M h => ?_
  refine wp_attempted (R := fun s M => Run cfg (s.tearDown e.taskId) (tag i {Tok.closing uid} + M))
    (onTaskDone_wp h rfl ?_ ?_) fun s M h => ?_
  · intro holder p hq
    exact (h.step (.task (.free hq))).step (.task (.tearDown (.inl rfl)))
  · intro x s hm h
    have h := h.frame (.other .forget)
    rw [zero_add] at h
    exact h.step (.task (.tearDown (.inr ⟨rfl, hm⟩)))
  · have hk : ∀ a ∈ ({Tok.closing uid} : Multiset Tok), (Proc.route q).keeps a := by
      simp [Proc.keeps]
    refine Protocol.wp_modify (wp_attempted (R := fun s M => Run cfg s (tag i {Tok.closing uid} + M))
      (wp_ends (retryUnassignable_ends hk h) (fun _ s M h => h) ?_) fun s M h => hok s M h)
    intro x s M h
    have h := h.frame (.other .forget)
    rwa [zero_add] at h

/-- Under the lock nothing raises, and the lock is released with the work done. -/
theorem routeLocked_wp {Q : Protocol.Post Sched Exn Tok Unit}
    (h : Run cfg (s.recordApplied e source) (tag i {Tok.apply uid e source .start} + M))
    (hok : ∀ s M, Run cfg (s.releaseLock uid) M → Q (.ok ()) s M) :
    wp cfg (.route q) i (routeLocked e source) Q s M := by
  have hw : e.Wf := h.tok_wf (i, .apply uid e source .start) (by simp)
  have hj : (s.recordApplied e source).JustApplied e source := ⟨s.trace, rfl⟩
  refine Protocol.wp_modify (Protocol.wp_reads ?_)
  split
  · next ho =>
    refine Protocol.wp_seq (Protocol.wp_attempt (Protocol.wp_mono ?_ (action_acted hw hj ho h)))
    intro r s M ha
    match r, ha with
    | .error x, ⟨phase, f, h⟩ =>
      have h := h.frame (.other .forget)
      rw [zero_add] at h
      refine Protocol.wp_modify (failTaskToClient_wp (h.step (.task .faulted)) ?_)
      intro s M h
      have h := h.step (.task .close)
      rw [tag_zero, zero_add] at h
      exact hok s M h
    | .ok none, ⟨hj, hr, h⟩ =>
      have h := h.step (.task (.decline hj (.inl hr)))
      rw [tag_zero, zero_add] at h
      exact hok s M h
    | .ok (some target), ⟨phase, hl, h⟩ =>
      have h := h.step (.task (.settle hl))
      rw [tag_zero, zero_add] at h
      exact hok _ M h
  · next ho =>
    have h := h.step (.task (.decline hj (.inr (by simpa using ho))))
    rw [tag_zero, zero_add] at h
    exact hok _ M h

theorem lockAcquire_wp {α : Type} {k : Bool → Scaler.M α} {Q : Protocol.Post Sched Exn Tok α}
    (h : Run cfg (s.enqueueWaiter uid i) (tag i {Tok.wait uid e} + M))
    (hk : ∀ s M, Run cfg s (tag i {Tok.wait uid e} + M) → Sched.lockReady uid i s = true →
      wp cfg (.route q) i (k true) Q (s.takeLock uid i) M)
    (hlate : ∀ s M, Run cfg s (tag i {Tok.wait uid e} + M) →
      wp cfg (.route q) i (k false) Q (s.leaveWaiters uid i) M) :
    wp cfg (.route q) i (lockAcquire uid >>= k) Q s M := by
  have hkeeps : ∀ a ∈ ({Tok.wait uid e} : Multiset Tok), (Proc.route q).keeps a := by
    intro a ha
    rw [Multiset.mem_singleton.mp ha]
    exact ⟨q, rfl⟩
  rintro (_ | _)
  · exact ⟨{Tok.wait uid e}, hkeeps, ⟨e, Multiset.mem_singleton_self _⟩, h, fun s M h _ => hlate s M h⟩
  · exact ⟨{Tok.wait uid e}, hkeeps, ⟨e, Multiset.mem_singleton_self _⟩, h, hk⟩

theorem acquireMachine_wp {Q : Protocol.Post Sched Exn Tok (Option StateMachine)}
    (h : Run cfg s (tag i {Tok.event e} + M))
    (hnone : ∀ s M, Run cfg s M → Q (.ok none) s M)
    (hsome : ∀ uid source s M, Run cfg (s.recordApplied e source)
      (tag i {Tok.apply uid e source .start} + M) → Q (.ok (some ⟨uid, source⟩)) s M) :
    wp cfg (.route q) i (acquireMachine e) Q s M := by
  refine Protocol.wp_reads ?_
  cases hm : s.getStateMachine e.taskId with
  | none =>
    have h := h.step (.task (.drop hm))
    rw [tag_zero, zero_add] at h
    exact hnone _ M h
  | some m =>
    refine lockAcquire_wp (h.step (.task (.enqueue hm))) (fun s M h hl => ?_) fun s M h => ?_
    swap
    · have h := h.step (.task .expire)
      rw [tag_zero, zero_add] at h
      exact Protocol.wp_modify (hnone _ M h)
    refine Protocol.wp_modify (Protocol.wp_reads ?_)
    have hstale : (∀ m', s.getStateMachine e.taskId = some m' → m'.uid ≠ m.uid) →
        Run cfg (((s.takeLock m.uid i).dropEvent e).releaseLock m.uid) M := by
      intro hs
      have h := h.step (.task (.takeStale hl hs))
      rwa [tag_zero, zero_add] at h
    have hget : ((s.takeLock m.uid i).dropEvent e).getStateMachine e.taskId =
        s.getStateMachine e.taskId := rfl
    rw [hget]
    cases hn : s.getStateMachine e.taskId with
    | none => exact hnone _ M (hstale (by simp [hn]))
    | some now =>
      dsimp only
      split
      · next heq =>
        obtain ⟨uid, source⟩ := now
        have heq : uid = m.uid := heq
        subst heq
        exact hsome _ _ _ M (h.step (.task (.take hl hn)))
      · next hne =>
        refine hnone _ M (hstale ?_)
        intro m' hm'
        rw [hn] at hm'
        cases hm'
        exact hne

theorem route_wp {Q : Protocol.Post Sched Exn Tok Unit} (h : Run cfg s (tag i {Tok.event e} + M))
    (hok : ∀ s M, Run cfg s M → Q (.ok ()) s M) : wp cfg (.route q) i (route e) Q s M := by
  refine Protocol.wp_seq (acquireMachine_wp h (fun s M h => hok s M h) ?_)
  intro uid source s M h
  exact Protocol.wp_always (routeLocked_wp h fun s M h => hok _ M h)

end Router

section Entries

theorem onTaskNew_wp {Q : Protocol.Post Sched Exn Tok Unit} {task : Task} {p : Proc}
    (h : Run cfg s (tag i {Tok.fresh task} + M))
    (hok : ∀ s M, Run cfg s M → Q (.ok ()) s M)
    (he : ∀ x s M, Run cfg s (tag i {Tok.fault (.refused task.taskId)} + M) → Q (.error x) s M) :
    wp cfg p i (onTaskNew task) Q s M := by
  refine Protocol.wp_reads ?_
  split
  · next hm =>
    have h := h.step (.task (.known hm))
    rw [tag_zero, zero_add] at h
    exact hok s M h
  · next hm =>
    have hm : s.getStateMachine task.taskId = none := by simpa using hm
    refine Protocol.wp_modify (onTaskBegin_wp (fun owners ho => ?_) fun x ho => ?_)
    · refine Protocol.wp_modify (acquireWorker_wp h.sane.policy fun r q ha => ?_)
      cases r with
      | none =>
        have h := h.step (.task (.hold hm ho ha))
        refine Protocol.wp_modify (wp_ends (monitorSend_ends (t := 0) (by simp) h) ?_ ?_)
        · intro _ s M h
          rw [tag_zero, zero_add] at h
          exact hok s M h
        · intro x s M h
          rw [add_zero] at h
          exact he x s M (h.step (.other .refuse))
      | some w =>
        have h := h.step (.task (.assign hm ho ha))
        refine Protocol.wp_modify (wp_ends (run_ends (t := 0) (by simp) h) ?_ ?_)
        · intro _ s M h
          rw [tag_zero, zero_add] at h
          exact hok s M h
        · intro x s M h
          exact (h.tok_wf (i, .fault .absurd) (by simp [Proc.fault])).elim
    · exact he x _ M (h.step (.task (.refuse hm ho)))

end Entries

end

end Scaler
