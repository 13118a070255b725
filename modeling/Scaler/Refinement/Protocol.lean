import Scaler.Scheduler.Sane

/-! The coroutines of the scheduler as users of the program logic: which tokens a
caller hands over, which an activation may keep while it is suspended, and what the
calls of the services do. -/

namespace Scaler

open Collections Coroutine

/-- The work a coroutine is started with. -/
def Proc.give : Proc → Multiset Tok
  | .route e => {Tok.event e}
  | .onTaskNew task => {Tok.fresh task}
  | .binderSend c m => {Tok.owed c m}
  | .abortInactive g ref r _ results =>
    {Tok.aborting g ref r.resultType} + toks (fun r => .owes ref (.taskResult r)) results
  | _ => 0

/-- What an exception leaves behind. -/
def Proc.fault : Proc → Fault
  | .onTaskNew task => .refused task.taskId
  | .onTaskCancel _ _ | .disconnectWorker _ | .binderSend _ _ | .duplicateObject _ _ _ _
  | .abortInactive _ _ _ _ _ => .other
  | _ => .absurd

/-- The coroutines that may be suspended with a piece of work in hand. -/
def Proc.keeps (p : Proc) : Tok → Prop
  | .event _ => (∃ e, p = .route e) ∨ ∃ w, p = .disconnectWorker w
  | .wait _ _ | .apply _ _ _ _ | .closing _ => ∃ e, p = .route e
  | .taken _ _ | .adding _ _ _ => p = .graphRoutine
  | _ => True

/-- A coroutine that waits for a lock has an event to apply. -/
def Label.waits : Label → Multiset Tok → Prop
  | .lock uid, t => ∃ e, .wait uid e ∈ t
  | _, _ => True

variable {cfg : SchedulerConfig}

section

variable {s s' : Sched} {i : Tid} {t t' u : Multiset Tok} {M : Multiset (Tid × Tok)}

theorem Run.swap (h : Run cfg s (tag i (t + u) + M)) : Run cfg s (tag i (u + t) + M) := by
  rwa [add_comm t] at h

/-- Part of the work in hand, put among the work of the others. -/
theorem Run.aside (h : Run cfg s (tag i (t + u) + M)) : Run cfg s (tag i t + (tag i u + M)) := by
  rwa [tag_add, add_assoc] at h

theorem Run.frame (h : Run cfg s (tag i (t + u) + M)) (hs : Step i s t s' t') :
    Run cfg s' (tag i (t' + u) + M) := by
  rw [tag_add, add_assoc] at h ⊢
  exact h.step hs

theorem pair_eq (a b : Tok) : ({a, b} : Multiset Tok) = {a} + {b} := rfl

@[simp] theorem toks_nil {α : Type} (f : α → Tok) : toks f [] = 0 := rfl

theorem toks_cons {α : Type} (f : α → Tok) (a : α) (l : List α) :
    toks f (a :: l) = {f a} + toks f l := rfl

theorem toks_append {α : Type} (f : α → Tok) (l l' : List α) :
    toks f (l ++ l') = toks f l + toks f l' := by
  simp [toks]

theorem Run.start (h : Run cfg s M) (hs : Step i s 0 s' t) : Run cfg s' (tag i t + M) := by
  refine Run.step (t := 0) ?_ hs
  rwa [tag_zero, zero_add]

/-- The object controller's state is nobody else's business. -/
theorem Run.objects (h : Run cfg s M) (tracker : ObjectTracker) (deleted : List ObjectID)
    (next : Nat) : Run cfg { s with
      objectTracker := tracker, deletedObjectIds := deleted, nextObject := next } M := by
  have ho : Run cfg { s with
      objectTracker := tracker, deletedObjectIds := deleted, nextObject := next } (tag [] 0 + M) :=
    h.start (.other .objects)
  rwa [tag_zero, zero_add] at ho

theorem Run.loseAll {α : Type} {f : α → Tok} {l : List α}
    (hl : ∀ a, Step i s ({f a} + u) s u) (h : Run cfg s (tag i (toks f l + u) + M)) :
    Run cfg s (tag i u + M) := by
  induction l with
  | nil => simpa [toks] using h
  | cons a l ih =>
    apply ih
    rw [toks_cons, add_right_comm] at h
    have hr := h.frame (hl a)
    rwa [add_comm u] at hr

theorem Run.loseWork {f : Fault} (ht : ∀ a ∈ t, a.IsWork)
    (h : Run cfg s (tag i ({Tok.fault f} + t) + M)) : Run cfg s (tag i {Tok.fault f} + M) := by
  induction t using Multiset.induction with
  | empty => simpa using h
  | cons a t ih =>
    refine ih (fun b hb => ht b (Multiset.mem_cons_of_mem hb)) ?_
    rw [← Multiset.singleton_add, ← add_assoc, add_comm {Tok.fault f}] at h
    exact h.frame (.graph (.lose (ht a (Multiset.mem_cons_self a t))))

theorem Run.eachStep {α : Type} {f f' : α → Tok} {l : List α}
    (hl : ∀ a, Step i s {f a} s {f' a}) (h : Run cfg s (tag i (toks f l + u) + M)) :
    Run cfg s (tag i (toks f' l + u) + M) := by
  induction l generalizing u with
  | nil => exact h
  | cons a l ih =>
    rw [toks_cons, add_assoc] at h ⊢
    have hr := h.frame (hl a)
    rw [add_left_comm] at hr ⊢
    exact ih hr

theorem toks_give {α : Type} {f : α → Proc} {g : α → Tok} {l : List α} (h : ∀ a, (f a).give = {g a}) :
    ((l.map f).map Proc.give).sum = toks g l := by
  induction l with
  | nil => rfl
  | cons a l ih =>
    rw [List.map_cons, List.map_cons, List.sum_cons, h, ih]
    rfl

theorem sum_give_zero {α : Type} {f : α → Proc} {l : List α} (h : ∀ a, (f a).give = 0) :
    ((l.map f).map Proc.give).sum = 0 := by
  induction l with
  | nil => rfl
  | cons a l ih => rw [List.map_cons, List.map_cons, List.sum_cons, h, ih, add_zero]

/-- A failure in the trace is an exception like any other. -/
theorem Run.weakenSeen {o : Obs} (ho : o.isFault = true)
    (h : Run cfg s (tag i ({Tok.fault (.seen o)} + t) + M)) :
    Run cfg s (tag i ({Tok.fault .other} + t) + M) := h.frame (.other (.weaken ho))

theorem Run.forget {f : Fault} (h : Run cfg s (tag i {Tok.fault f} + M)) :
    Run cfg s M := by
  simpa using h.step (.other .forget)

/-- Whatever made a coroutine raise, its caller sees an exception. -/
theorem Run.weaken {q : Proc} (h : Run cfg s (tag i {Tok.fault q.fault} + M)) :
    Run cfg s (tag i {Tok.fault .other} + M) := by
  cases q with
  | onTaskNew task => exact h.step (.other .weakenRefused)
  | onTaskCancel => exact h
  | disconnectWorker => exact h
  | binderSend => exact h
  | duplicateObject => exact h
  | abortInactive => exact h
  | _ => exact (h.tok_wf (i, .fault .absurd) (by simp [Proc.fault])).elim

end

/-- Threads take turns at suspensions; between them each makes steps of the system. -/
def protocol (cfg : SchedulerConfig) :
    Protocol Sched Exn Label Proc Tok where
  Inv := Run cfg
  give := Proc.give
  ret p _ := {Tok.fault p.fault}
  scope := Proc.keeps
  waits := Label.waits
  waits_add := by
    intro l t u h
    cases l with
    | lock uid =>
      obtain ⟨e, he⟩ := h
      exact ⟨e, Multiset.mem_add.mpr (.inl he)⟩
    | _ => trivial
  scope_ret := by
    intro p q e a ha
    rw [Multiset.mem_singleton] at ha
    subst ha
    trivial
  inv_drop := fun h => h.forget
  inv_move := by
    intro s n i p e M h
    rw [tag_singleton, Multiset.singleton_add] at h ⊢
    exact h.join

section

variable {p : Proc} {i : Tid} {s : Sched} {t u v : Multiset Tok} {M : Multiset (Tid × Tok)}
  {α β : Type}

variable (cfg) in
abbrev wp (p : Proc) (i : Tid) (c : Scaler.M α) (Q : Protocol.Post Sched Exn Tok α) (s : Sched)
    (M : Multiset (Tid × Tok)) : Prop := (protocol cfg).wp p i c Q s M

variable (cfg) in
/-- The thread has `t` in hand after a normal end and `u` after an exception. -/
def ends (i : Tid) (t u : Multiset Tok) : Protocol.Post Sched Exn Tok α
  | .ok _, s, M => Run cfg s (tag i t + M)
  | .error _, s, M => Run cfg s (tag i u + M)

theorem wp_then {c : Scaler.M α} {g : α → Scaler.M β} {Q : Protocol.Post Sched Exn Tok β}
    (hc : wp cfg p i c (ends cfg i t u) s M)
    (hok : ∀ a s M, Run cfg s (tag i t + M) → wp cfg p i (g a) Q s M)
    (he : ∀ e s M, Run cfg s (tag i u + M) → Q (.error e) s M) :
    wp cfg p i (c >>= g) Q s M := by
  refine Protocol.wp_seq (Protocol.wp_mono ?_ hc)
  intro r s M h
  cases r with
  | ok a => exact hok a s M h
  | error e => exact he e s M h

theorem wp_ends {c : Scaler.M α} {Q : Protocol.Post Sched Exn Tok α}
    (hc : wp cfg p i c (ends cfg i t u) s M)
    (hok : ∀ a s M, Run cfg s (tag i t + M) → Q (.ok a) s M)
    (he : ∀ e s M, Run cfg s (tag i u + M) → Q (.error e) s M) :
    wp cfg p i c Q s M := by
  refine Protocol.wp_mono ?_ hc
  intro r s M h
  cases r with
  | ok a => exact hok a s M h
  | error e => exact he e s M h

theorem wp_beside {c : Scaler.M α} (v : Multiset Tok) (hv : ∀ a ∈ v, p.keeps a)
    (hc : wp cfg p i c (ends cfg i t u) s (tag i v + M)) :
    wp cfg p i c (ends cfg i (t + v) (u + v)) s M := by
  refine Protocol.wp_mono ?_ (Protocol.wp_frame v hv hc)
  intro r s M h
  cases r with
  | ok a =>
    change Run cfg s (tag i (t + v) + M)
    rw [tag_add, add_assoc]
    exact h
  | error e =>
    change Run cfg s (tag i (u + v) + M)
    rw [tag_add, add_assoc]
    exact h

theorem wp_syncNoting {o : Obs} {f : Sched → Except Exn α × Sched} {g : α → Scaler.M β}
    {Q : Protocol.Post Sched Exn Tok β}
    (hok : ∀ a s', f s = (.ok a, s') → wp cfg p i (g a) Q s' M)
    (he : ∀ e s', f s = (.error e, s') → Q (.error e) (s'.note o) M) :
    wp cfg p i (syncNoting o f >>= g) Q s M := by
  refine Protocol.wp_seq ?_
  unfold syncNoting
  simp only [Protocol.wp]
  generalize hr : f s = r at hok he
  obtain ⟨x, s'⟩ := r
  cases x with
  | ok a => exact hok a s' rfl
  | error e => exact he e s' rfl

theorem wp_index {f : Sched → Option α} {g : α → Scaler.M β} {Q : Protocol.Post Sched Exn Tok β}
    {a : α} (h : f s = some a) (hg : wp cfg p i (g a) Q s M) :
    wp cfg p i (index f >>= g) Q s M := by
  refine Protocol.wp_seq ?_
  unfold index
  simp only [Protocol.wp, h]
  exact hg

theorem monitorSend_ends (ht : ∀ a ∈ t, p.keeps a)
    (h : Run cfg s (tag i t + M)) :
    wp cfg p i monitorSend
      (ends cfg i t ({Tok.fault (.seen .sendFailed)} + t)) s M := by
  rintro (_ | _)
  · change Run cfg (s.note .sendFailed) _
    exact (show Run cfg s (tag i (0 + t) + M) by simpa using h).frame
      (.other .sendFail)
  · exact Protocol.wp_pause t ht trivial h fun s' M' h' => h'

/-- A message that is sent as part of the step to `t`; failing is the step to `u`. -/
theorem binderSend_ends {peer : Peer} {m : Message} (ht : ∀ a ∈ t, p.keeps a)
    (hs : Run cfg (s.noteSent peer m) (tag i t + M))
    (hf : Run cfg (s.note .sendFailed) (tag i u + M)) :
    wp cfg p i (binderSend peer m) (ends cfg i t u) s M := by
  rintro (_ | _)
  · exact hf
  · exact Protocol.wp_pause t ht trivial hs fun s' M' h' => h'

theorem storageRequest_ends (ht : ∀ a ∈ t, p.keeps a)
    (h : Run cfg s (tag i t + M))
    (hf : Run cfg (s.note .storageFailed) (tag i u + M)) :
    wp cfg p i storageRequest (ends cfg i t u) s M := by
  rintro (_ | _)
  · exact hf
  · exact Protocol.wp_pause t ht trivial h fun s' M' h' => h'

/-- A call of a coroutine that takes over `p.give`. -/
theorem run_ends {q : Proc} (ht : ∀ a ∈ t, p.keeps a)
    (h : Run cfg s (tag i (q.give + t) + M)) :
    wp cfg p i (Coro.run q)
      (ends cfg i t ({Tok.fault q.fault} + t)) s M := by
  refine Protocol.wp_run t ht ?_ (fun s' M' h' => h') fun e s' M' h' => ?_
  · rwa [tag_add, add_assoc] at h
  · change Run cfg s' (tag i ({Tok.fault q.fault} + t) + M')
    rwa [tag_add, add_assoc]

theorem Run.forkAll {n : Nat} (ht : ∀ a ∈ t, a.IsGiven) (h : Run cfg s (tag i t + M)) :
    Run cfg s (tag (n :: i) t + M) := by
  induction t using Multiset.induction generalizing M with
  | empty => exact h
  | cons a t ih =>
    rw [← Multiset.singleton_add, tag_add, tag_singleton, add_assoc, Multiset.singleton_add] at h ⊢
    have hf := h.fork (n := n) (ht a (Multiset.mem_cons_self a t))
    rw [← Multiset.singleton_add, add_left_comm] at hf ⊢
    exact ih (fun b hb => ht b (Multiset.mem_cons_of_mem hb)) hf

theorem Proc.give_isGiven {q : Proc} {a : Tok} (ha : a ∈ q.give) : a.IsGiven := by
  cases q with
  | route e =>
    rw [Multiset.mem_singleton.mp ha]
    trivial
  | onTaskNew task =>
    rw [Multiset.mem_singleton.mp ha]
    trivial
  | binderSend c m =>
    rw [Multiset.mem_singleton.mp ha]
    trivial
  | abortInactive g ref r objects results =>
    rcases Multiset.mem_add.mp ha with ha | ha
    · rw [Multiset.mem_singleton.mp ha]
      trivial
    · obtain ⟨r, _, rfl⟩ := mem_toks.mp ha
      trivial
  | _ => exact absurd ha (Multiset.notMem_zero a)

theorem gather_ends {ps : List Proc} (ht : ∀ a ∈ t, p.keeps a)
    (h : Run cfg s (tag i ((ps.map Proc.give).sum + t) + M)) :
    wp cfg p i (Coro.gatherAll ps)
      (ends cfg i t ({Tok.fault .other} + t)) s M := by
  refine Protocol.wp_gatherAll t ht ?_ (fun s' M' h' => h') fun q e s' M' h' => ?_
  · rw [tag_add, add_assoc] at h
    exact Protocol.inv_kids (fun h => h.forkAll fun a ha => Proc.give_isGiven ha) h
  · change Run cfg s' (tag i ({Tok.fault .other} + t) + M')
    rw [tag_add, add_assoc]
    exact Run.weaken h'

end

end Scaler
