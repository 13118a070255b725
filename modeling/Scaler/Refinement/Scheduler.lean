import Scaler.Refinement.Task

/-! The program of the event loop refines the step system. -/

namespace Scaler

open Collections Coroutine

variable {cfg : SchedulerConfig} {p : Proc} {i : Tid} {s : Sched} {M : Multiset (Tid × Tok)}

section Quiet

theorem Run.none (h : Run cfg s M) : Run cfg s (tag i 0 + M) := by
  rwa [tag_zero, zero_add]

/-- A sequence of calls with nothing in hand. -/
theorem wp_next {α β : Type} {c : Scaler.M α} {k : α → Scaler.M β}
    (hc : wp cfg p i c (ends cfg i 0 {Tok.fault .other}) s M)
    (hk : ∀ a s M, Run cfg s M → wp cfg p i (k a) (ends cfg i 0 {Tok.fault .other}) s M) :
    wp cfg p i (c >>= k) (ends cfg i 0 {Tok.fault .other}) s M := by
  refine wp_then hc (fun a s M h => hk a s M ?_) fun e s M h => h
  rwa [tag_zero, zero_add] at h

theorem forEach_ends {α : Type} {as : List α} {f : α → Scaler.M Unit} (h : Run cfg s M)
    (hf : ∀ a s M, Run cfg s M → wp cfg p i (f a) (ends cfg i 0 {Tok.fault .other}) s M) :
    wp cfg p i (Coro.forEach as f) (ends cfg i 0 {Tok.fault .other}) s M := by
  refine Protocol.wp_forEach (fun _ s M => Run cfg s M) h ?_ fun s M h => h.none
  intro a _ s M h
  refine wp_ends (hf a s M h) (fun _ s M h => ?_) fun e s M h => h
  rwa [tag_zero, zero_add] at h

theorem monitorSend_none (h : Run cfg s M) :
    wp cfg p i monitorSend (ends cfg i 0 {Tok.fault .other}) s M := by
  refine wp_ends (monitorSend_ends (t := 0) (by simp) h.none) (fun _ s M h => h) fun e s M h => ?_
  rw [add_zero] at h
  exact h.step (.other (.weaken rfl))

theorem storageRequest_none (h : Run cfg s M) :
    wp cfg p i storageRequest (ends cfg i 0 {Tok.fault .other}) s M :=
  storageRequest_ends (by simp) h.none
    ((h.start (.other .storageFail)).step (.other (.weaken rfl)))

theorem sendPlain_ends {peer : Peer} {m : Message} (hm : m.IsPlain) (h : Run cfg s M) :
    wp cfg p i (binderSend peer m) (ends cfg i 0 {Tok.fault .other}) s M :=
  binderSend_ends (by simp) (h.start (.other (.plainSend hm)))
    ((h.start (.other .sendFail)).step (.other (.weaken rfl)))

/-- An event is handed to the router, which does not raise. -/
theorem runRoute_ends {e : TaskEvent} {t : Multiset Tok} (ht : ∀ a ∈ t, p.keeps a)
    (h : Run cfg s (tag i ({Tok.event e} + t) + M)) {u : Multiset Tok} :
    wp cfg p i (Coro.run (.route e)) (ends cfg i t u) s M := by
  refine wp_ends (run_ends ht h) (fun _ s M h => h) fun x s M h => ?_
  exact (h.tok_wf (i, .fault .absurd) (by simp [Proc.fault, mem_tag])).elim

theorem report_ends {e : TaskEvent} (hw : e.Wf) (hi : ¬ e.IsInternal) (h : Run cfg s M) :
    wp cfg p i (Coro.run (.route e)) (ends cfg i 0 {Tok.fault .other}) s M := by
  refine runRoute_ends (by simp) ?_
  rw [add_zero]
  exact h.start (.task (.report hw hi))

theorem run_none {q : Proc} (hq : q.give = 0) (h : Run cfg s M) :
    wp cfg p i (Coro.run q) (ends cfg i 0 {Tok.fault .other}) s M := by
  refine wp_ends (run_ends (t := 0) (by simp) (by rw [hq, add_zero]; exact h.none))
    (fun _ s M h => h) fun x s M h => ?_
  rw [add_zero] at h
  exact h.weaken

theorem pick_wp {α : Type} {as : List α} {Q : Protocol.Post Sched Exn Tok (List α)}
    (hQ : ∀ as, Q (.ok as) s M) : wp cfg p i (pick as) Q s M := by
  induction as generalizing Q with
  | nil => exact hQ []
  | cons a as ih =>
    refine Protocol.wp_seq (ih fun rest => ?_)
    rintro (_ | _)
    · exact hQ rest
    · exact hQ (a :: rest)

theorem onAddObject_ends {c : ClientID} {id : ObjectID} {name : Bytes} (h : Run cfg s M) :
    wp cfg p i (onAddObject c id name) (ends cfg i 0 {Tok.fault .other}) s M :=
  Run.none (h.objects (s.objectTracker.addObject c id name) s.deletedObjectIds s.nextObject)

theorem cleanClient_ends {c : ClientID} (h : Run cfg s M) :
    wp cfg p i (cleanClient c) (ends cfg i 0 {Tok.fault .other}) s M := by
  obtain ⟨tracker, deleted, he⟩ :=
    s.removeBlocks_eq c (s.objectTracker.objectKeyToBlock.getLeftItems c)
  change Run cfg (List.foldl _ s _) (tag i 0 + M)
  rw [he]
  exact (h.objects _ _ _).none

end Quiet

section Workers

variable {w : WorkerID}

theorem Sched.addWorker_known {s : Sched} {info : WorkerHeartbeat}
    (h : (s.addWorker w info).1 = false) : s.addWorker w info = (false, s) := by
  have hp := (AllocatePolicy.addWorker_known (p := s.policy) h).2
  unfold Sched.addWorker at h ⊢
  simp only at h
  simp [h, hp]

/-- A new worker's heartbeat holds its token over the two awaits of connecting. -/
theorem connect_wp {info : WorkerHeartbeat} {Q : Protocol.Post Sched Exn Tok Unit}
    (h : Run cfg s (tag i {Tok.connecting w} + M))
    (hok : ∀ (s : Sched) M, Run cfg ((s.connected w).noteHeartbeat w info) M → Q (.ok ()) (s.connected w) M)
    (he : ∀ x s M, Run cfg s (tag i {Tok.fault .other} + M) → Q (.error x) s M) :
    wp cfg p i (Coro.always (do monitorSend; onWorkerConnect) (Coro.modify (·.connected w))) Q s M := by
  have hfail : ∀ {f : Fault} {s M}, Run cfg s (tag i ({Tok.fault f} + {Tok.connecting w}) + M) →
      Run cfg (s.connected w) (tag i {Tok.fault f} + M) := by
    intro f s M h
    have h := h.swap.frame (.other .connectFail)
    rwa [zero_add] at h
  have hk : ∀ a ∈ ({Tok.connecting w} : Multiset Tok), p.keeps a := by
    intro a ha
    rw [Multiset.mem_singleton.mp ha]
    trivial
  refine Protocol.wp_always (wp_then (monitorSend_ends hk h) (fun _ s M h => ?_) fun x s M h => ?_)
  · refine wp_ends (retryUnassignable_ends hk h) (fun _ s M h => ?_) fun x s M h => ?_
    · have h : Run cfg ((s.connected w).noteHeartbeat w info) (tag i 0 + M) :=
        h.step (.other .connect)
      rw [tag_zero, zero_add] at h
      exact hok s M h
    · exact he x _ M (hfail h)
  · exact he x _ M ((hfail h).step (.other (.weaken rfl)))

theorem onWorkerHeartbeat_ends {info : WorkerHeartbeat} (h : Run cfg s M) :
    wp cfg p i (onWorkerHeartbeat w info) (ends cfg i 0 {Tok.fault .other}) s M := by
  have hrest : ∀ s M, Run cfg (s.noteHeartbeat w info) M →
      wp cfg p i (Coro.modify (·.noteHeartbeat w info) >>= fun _ =>
        binderSend (.worker w) .workerHeartbeatEcho) (ends cfg i 0 {Tok.fault .other}) s M :=
    fun s M h => Protocol.wp_modify (sendPlain_ends trivial h)
  refine Protocol.wp_seq ?_
  change wp cfg p i (if (s.addWorker w info).1 = true then _ else _) _ (s.addWorker w info).2 M
  split
  · next ha =>
    have h := h.start (i := i) (.other (.addWorker (Prod.ext ha rfl)))
    exact Protocol.wp_seq (connect_wp h (fun s M h => hrest _ M h) fun x s M h => h)
  · next ha =>
    have he := Sched.addWorker_known (by simpa using ha)
    have h := h.start (i := i) (.other (.heartbeat he))
    rw [tag_zero, zero_add] at h
    rw [he]
    exact hrest s M h

theorem disconnectWorker_ends (h : Run cfg s M) :
    wp cfg (.disconnectWorker w) i (disconnectWorker w) (ends cfg i 0 {Tok.fault .other}) s M := by
  refine Protocol.wp_reads ?_
  split
  · exact h.none
  · next ha =>
    have h := h.start (i := i) (.other (.leave (w := w) (by simpa using ha)))
    rw [tag_zero, zero_add] at h
    refine Protocol.wp_modify (wp_next (monitorSend_none h) fun _ s M h => wp_syncNoting ?_ ?_)
    · intro tasks s' hs
      have h := h.start (i := i) (.other (.removeWorker hs))
      refine Protocol.wp_forEach (fun tasks s M => Run cfg s (tag i
        (toks (fun t => .event (.workerDisconnected t w)) tasks) + M)) h ?_ fun s M h => h
      intro t rest s M h
      refine wp_ends (u := {Tok.fault Fault.other}) (runRoute_ends (fun a ha => ?_) h) (fun _ s M h => h)
        fun e s M h => h
      obtain ⟨t, _, rfl⟩ := mem_toks.mp ha
      exact .inr ⟨w, rfl⟩
    · intro e s' hs
      exact (h.start (.other (.removeWorkerFail hs))).step (.other (.weaken rfl))

theorem workerRoutine_ends (h : Run cfg s M) :
    wp cfg p i workerRoutine (ends cfg i 0 {Tok.fault .other}) s M :=
  Protocol.wp_reads (Protocol.wp_seq (pick_wp fun _ =>
    forEach_ends h fun _ _ _ h => run_none rfl h))

theorem onClientShutdown_ends (h : Run cfg s M) :
    wp cfg p i onClientShutdown (ends cfg i 0 {Tok.fault .other}) s M :=
  Protocol.wp_reads (forEach_ends h fun _ _ _ h =>
    wp_next (sendPlain_ends trivial h) fun _ _ _ h => run_none rfl h)

end Workers

section Clients

variable {c : ClientID}

theorem onTaskCancel_ends {cancel : TaskCancel} (h : Run cfg s M) :
    wp cfg p i (onTaskCancel c cancel) (ends cfg i 0 {Tok.fault .other}) s M := by
  refine Protocol.wp_reads ?_
  split
  · exact report_ends rfl (by simp [TaskEvent.IsInternal]) h
  · next hm =>
    have hm : s.getStateMachine cancel.taskId = none := by simpa using hm
    refine Protocol.wp_seq (Protocol.wp_reads ?_)
    split
    · next hg =>
      have h := h.start (i := i) (.graph (.stranger (c := c) hm hg))
      refine wp_ends (onGraphSubTaskCancelConfirm_ends (c := ⟨cancel.taskId, .cancelNotFound⟩)
        (w := .owed c (.taskCancelConfirm ⟨cancel.taskId, .cancelNotFound⟩)) rfl trivial h)
        (fun _ s M h => ?_) fun e s M h => ?_
      · exact binderSend_ends (by simp) (h.step (.graph .send))
          ((h.step (.graph .sendFail)).step (.other (.weaken rfl)))
      · exact h.loseWork (by simp [Tok.IsWork])
    · exact binderSend_ends (by simp) (h.start (.graph (.notFound hm)))
        ((h.start (.other .sendFail)).step (.other (.weaken rfl)))

theorem clients_run {seen : List ClientID} (h : Run cfg s M) :
    Run cfg { s with clientLastSeen := seen } M := by
  have h : Run cfg { s with clientLastSeen := seen } (tag [] 0 + M) := h.start (.other .clients)
  rwa [tag_zero, zero_add] at h

theorem disconnectClient_ends (h : Run cfg s M) :
    wp cfg p i (disconnectClient c) (ends cfg i 0 {Tok.fault .other}) s M :=
  Protocol.wp_modify (Protocol.wp_reads (wp_next
    (forEach_ends (clients_run h) fun _ _ _ h => run_none rfl h) fun _ _ _ h => cleanClient_ends h))

/-- A turn of a routine: what it raises is forgotten. -/
theorem wp_turn {c : Scaler.M Unit} (hc : wp cfg p i c (ends cfg i 0 {Tok.fault .other}) s M) :
    wp cfg p i c (fun _ s M => Run cfg s M) s M := by
  refine wp_ends hc (fun _ s M h => ?_) fun _ s M h => h.forget
  rwa [tag_zero, zero_add] at h

theorem onClientDisconnect_turn {type : DisconnectType} (h : Run cfg s M) :
    wp cfg p i (onClientDisconnect c type) (fun _ s M => Run cfg s M) s M := by
  unfold onClientDisconnect
  split
  · exact wp_turn (disconnectClient_ends h)
  · refine Protocol.wp_reads (wp_then (sendPlain_ends trivial h) ?_ fun _ s M h => h.forget)
    intro _ s M h
    rw [tag_zero, zero_add] at h
    split
    · exact h
    · refine wp_then (onClientShutdown_ends h) ?_ fun _ s M h => h.forget
      intro _ s M h
      rw [tag_zero, zero_add] at h
      exact h

theorem onClientHeartbeat_ends (h : Run cfg s M) :
    wp cfg p i (onClientHeartbeat c) (ends cfg i 0 {Tok.fault .other}) s M :=
  wp_next (sendPlain_ends trivial h) fun _ _ _ h => (clients_run h).none

theorem clientRoutine_ends (h : Run cfg s M) :
    wp cfg p i clientRoutine (ends cfg i 0 {Tok.fault .other}) s M :=
  Protocol.wp_reads (Protocol.wp_seq (pick_wp fun _ =>
    forEach_ends h fun _ _ _ h => disconnectClient_ends h))

end Clients

theorem objectRoutine_ends (h : Run cfg s M) :
    wp cfg p i objectRoutine (ends cfg i 0 {Tok.fault .other}) s M := by
  refine Protocol.wp_await 0 (by simp) trivial h.none fun s M h _ => ?_
  have h : Run cfg s M := by
    have h : Run cfg s (tag i 0 + M) := h
    rwa [tag_zero, zero_add] at h
  have hrest : ∀ ids s M, Run cfg s M → wp cfg p i
      (Coro.reads (fun s => s.policy.getWorkerIds) >>= fun workers =>
        Coro.forEach workers (fun w => binderSend (.worker w) (.objectInstruction
          ⟨.delete, ⟨0⟩, ids.map fun id => (id, [])⟩)) >>= fun _ =>
        Coro.forEach ids fun _ => storageRequest) (ends cfg i 0 {Tok.fault .other}) s M := by
    intro ids s M h
    refine Protocol.wp_reads (wp_next (forEach_ends h fun _ _ _ h => ?_) fun _ s M h => ?_)
    · exact sendPlain_ends trivial h
    · exact forEach_ends h fun _ _ _ h => storageRequest_none h
  exact hrest s.deletedObjectIds _ M
    (h.objects s.objectTracker [] s.nextObject)

theorem onObjectInstruction_ends {o : ObjectInstruction} (h : Run cfg s M) :
    wp cfg p i (onObjectInstruction o) (ends cfg i 0 {Tok.fault .other}) s M := by
  unfold onObjectInstruction
  split
  · refine Protocol.wp_reads ?_
    split
    · exact h.none
    · exact forEach_ends h fun _ _ _ h => onAddObject_ends h
  · obtain ⟨tracker, deleted, he⟩ := s.removeBlocks_eq o.objectUser (o.objects.map Prod.fst).dedup
    change Run cfg (List.foldl _ s _) (tag i 0 + M)
    rw [he]
    exact (h.objects _ _ _).none

theorem onReceiveMessage_turn {source : Nat} {m : Message} (h : Run cfg s M) :
    wp cfg p i (onReceiveMessage source m) (fun _ s M => Run cfg s M) s M := by
  have h : Run cfg (s.note (.received source m)) (tag i 0 + M) := h.start (.other .receive)
  rw [tag_zero, zero_add] at h
  refine Protocol.wp_modify ?_
  cases m with
  | clientHeartbeat => exact wp_turn (onClientHeartbeat_ends h)
  | clientDisconnect type => exact onClientDisconnect_turn h
  | graphTask gt =>
    have h : Run cfg { s.note _ with graphQueue := s.graphQueue ++ [(⟨source⟩, gt)] } (tag i 0 + M) :=
      h.start (.graph (.queueGraph List.mem_cons_self))
    rw [tag_zero, zero_add] at h
    exact h
  | task task =>
    have hm : Obs.received source (.task task) ∈ (s.note (.received source (.task task))).trace :=
      List.mem_cons_self
    have h := h.start (i := i) (.task (.message hm))
    refine wp_ends (run_ends (t := 0) (by simp) (by rwa [add_zero])) (fun _ s M h => ?_)
      fun _ s M h => ?_
    · rwa [tag_zero, zero_add] at h
    · rw [add_zero] at h
      exact h.forget
  | taskCancel cancel =>
    refine Protocol.wp_reads ?_
    split
    · exact wp_turn (onGraphTaskCancel_ends h)
    · exact wp_turn (run_none rfl h)
  | taskCancelConfirm c =>
    refine wp_turn (report_ends ?_ ?_ h)
    · cases c.cancelConfirmType <;> rfl
    · cases c.cancelConfirmType <;> simp [TaskEvent.IsInternal]
  | taskResult r => exact wp_turn (report_ends rfl (by simp [TaskEvent.IsInternal]) h)
  | workerHeartbeat info => exact wp_turn (onWorkerHeartbeat_ends h)
  | workerDisconnectNotification => exact wp_turn (run_none rfl h)
  | objectInstruction o => exact wp_turn (onObjectInstruction_ends h)
  | clientHeartbeatEcho => exact h
  | clientShutdownResponse b => exact h
  | workerHeartbeatEcho => exact h

theorem swallow_done {c : Scaler.M Unit} (hc : wp cfg p i c (fun _ s M => Run cfg s M) s M) :
    wp cfg p i (swallow c) ((protocol cfg).done p i) s M :=
  wp_attempted hc fun _ _ h => h

theorem ends_done {c : Scaler.M Unit} {t : Multiset Tok} (ht : t = {Tok.fault p.fault})
    (hc : wp cfg p i c (ends cfg i 0 t) s M) : wp cfg p i c ((protocol cfg).done p i) s M := by
  subst ht
  refine wp_ends hc (fun _ s M h => ?_) fun _ s M h => h
  rw [tag_zero, zero_add] at h
  exact h

/-- No coroutine begins by waiting for a lock. -/
def startsAtLock : Scaler.M Unit → Bool
  | .await (.lock _) _ _ => true
  | _ => false

/-- Every coroutine of the scheduler only makes steps of the system. -/
theorem protocol_verifies (cfg : SchedulerConfig) : (protocol cfg).Verifies scheduler where
  body := by
    intro p i s M h
    have hz : p.give = 0 → Run cfg s M := by
      intro hg
      have h : Run cfg s (tag i p.give + M) := h
      rwa [hg, tag_zero, zero_add] at h
    cases p with
    | onReceiveMessage source m => exact swallow_done (onReceiveMessage_turn (hz rfl))
    | onTaskBalanceCancel t =>
      exact swallow_done (wp_turn (report_ends trivial (by simp [TaskEvent.IsInternal]) (hz rfl)))
    | clientRoutine => exact swallow_done (wp_turn (clientRoutine_ends (hz rfl)))
    | workerRoutine => exact swallow_done (wp_turn (workerRoutine_ends (hz rfl)))
    | graphRoutine => exact swallow_done (wp_turn (graphRoutine_ends (hz rfl)))
    | objectRoutine => exact swallow_done (wp_turn (objectRoutine_ends (hz rfl)))
    | route e => exact route_wp h fun s M h => h
    | onTaskNew task => exact onTaskNew_wp h (fun s M h => h) fun x s M h => h
    | onTaskCancel c cancel => exact ends_done rfl (onTaskCancel_ends (hz rfl))
    | disconnectWorker w => exact ends_done rfl (disconnectWorker_ends (hz rfl))
    | binderSend c m =>
      have h : Run cfg s (tag i {Tok.owed c m} + M) := h
      exact ends_done rfl (binderSend_ends (by simp) (h.step (.graph .send))
        ((h.step (.graph .sendFail)).step (.other (.weaken rfl))))
    | duplicateObject owner id name new =>
      exact ends_done rfl (wp_next (storageRequest_none (hz rfl)) fun _ _ _ h => onAddObject_ends h)
    | abortInactive g ref r objects results =>
      refine ends_done rfl (abortInactive_ends rfl ?_)
      rw [abortToks, toks_nil, zero_add]
      exact h
  entry := by
    intro p hp
    cases p with
    | route => cases hp
    | onTaskNew => cases hp
    | binderSend => cases hp
    | abortInactive => cases hp
    | _ => rfl
  scope := by
    intro p a ha
    cases p with
    | route e =>
      rw [Multiset.mem_singleton.mp ha]
      exact .inl ⟨e, rfl⟩
    | onTaskNew task =>
      rw [Multiset.mem_singleton.mp ha]
      trivial
    | binderSend c m =>
      rw [Multiset.mem_singleton.mp ha]
      trivial
    | abortInactive g ref r objects results =>
      rcases Multiset.mem_add.mp ha with ha | ha
      · rw [Multiset.mem_singleton.mp ha]
        trivial
      · obtain ⟨r, _, rfl⟩ := mem_toks.mp ha
        trivial
    | _ => exact absurd ha (Multiset.notMem_zero a)
  waits := by
    intro p l r k hb
    cases l with
    | lock uid =>
      have hf := congrArg startsAtLock hb
      cases p with
      | _ => exact Bool.noConfusion (show false = true from hf)
    | _ => trivial

end Scaler
