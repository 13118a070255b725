import Scaler.Invariant.Basic

/-! The tables of the worker controller. The two tables of managers always describe one
relation. A known worker is known to the policy as long as no worker comes back while it
is being removed. -/

namespace Scaler

open Collections Coroutine

/-- The two tables of managers describe one relation, and no manager is listed without
workers. -/
structure WorkerView.Agree (v : WorkerView) : Prop where
  same : ∀ w m, v.workerToManager.get? w = some m ↔
    ∃ ws, v.managerToWorkers.get? m = some ws ∧ w ∈ ws
  nonempty : ∀ m ws, v.managerToWorkers.get? m = some ws → ws ≠ []
  nodup : ∀ m ws, v.managerToWorkers.get? m = some ws → ws.Nodup

section Tables

variable {v v' : WorkerView} {w : WorkerID} {m : Bytes}

theorem WorkerView.Agree.join (h : v.Agree) (hw : v.workerToManager.get? w = none)
    (hm : v'.workerToManager = v.workerToManager.set w m)
    (hs : v'.managerToWorkers = v.managerToWorkers.set m
      (((v.managerToWorkers.get? m).getD []).insert w)) : v'.Agree := by
  have hnot : ∀ n ws, v.managerToWorkers.get? n = some ws → w ∉ ws := by
    intro n ws hn hmem
    have hx := (h.same w n).mpr ⟨ws, hn, hmem⟩
    rw [hw] at hx
    cases hx
  refine ⟨fun u n => ?_, fun n ws hn => ?_, fun n ws hn => ?_⟩
  · rw [hm, hs, Dict.get?_set, Dict.get?_set]
    by_cases hu : u = w
    · subst hu
      rw [if_pos rfl]
      constructor
      · rintro ⟨rfl⟩
        exact ⟨_, if_pos rfl, List.mem_insert_self⟩
      · rintro ⟨ws, hn, hmem⟩
        split at hn
        · next he => rw [he]
        · exact absurd hmem (hnot n ws hn)
    · rw [if_neg hu, h.same u n]
      by_cases hn : n = m
      · subst hn
        cases he : v.managerToWorkers.get? n with
        | none => simp [hu]
        | some ws => simp [hu]
      · simp only [if_neg hn]
  · rw [hs, Dict.get?_set] at hn
    split at hn
    · cases hn
      exact List.ne_nil_of_mem List.mem_insert_self
    · exact h.nonempty n ws hn
  · rw [hs, Dict.get?_set] at hn
    split at hn
    · cases hn
      cases he : v.managerToWorkers.get? m with
      | none => simp
      | some ws => exact (h.nodup m ws he).insert
    · exact h.nodup n ws hn

theorem WorkerView.Agree.part {ws : List WorkerID} (h : v.Agree)
    (hw : v.workerToManager.get? w = some m) (hws : v.managerToWorkers.get? m = some ws)
    (hm : v'.workerToManager = v.workerToManager.erase w)
    (hs : ∀ n, v'.managerToWorkers.get? n = if n = m then
      (if ws.erase w = [] then none else some (ws.erase w)) else v.managerToWorkers.get? n) :
    v'.Agree := by
  have hnd := h.nodup m ws hws
  have hsome : ∀ n us, v'.managerToWorkers.get? n = some us →
      n = m ∧ us = ws.erase w ∧ us ≠ [] ∨ n ≠ m ∧ v.managerToWorkers.get? n = some us := by
    intro n us hn
    rw [hs n] at hn
    by_cases he : n = m
    · rw [if_pos he] at hn
      split at hn
      · cases hn
      · next hne =>
        cases hn
        exact .inl ⟨he, rfl, hne⟩
    · rw [if_neg he] at hn
      exact .inr ⟨he, hn⟩
  refine ⟨fun u n => ?_, fun n us hn => ?_, fun n us hn => ?_⟩
  · rw [hm, Dict.get?_erase]
    constructor
    · intro hu
      split at hu
      · cases hu
      · next hne =>
        obtain ⟨us, hus, hmem⟩ := (h.same u n).mp hu
        by_cases he : n = m
        · subst he
          rw [hws] at hus
          cases hus
          have hin : u ∈ ws.erase w := (List.mem_erase_of_ne hne).mpr hmem
          exact ⟨_, by rw [hs, if_pos rfl, if_neg (List.ne_nil_of_mem hin)], hin⟩
        · exact ⟨us, by rw [hs, if_neg he, hus], hmem⟩
    · rintro ⟨us, hus, hmem⟩
      rcases hsome n us hus with ⟨rfl, rfl, _⟩ | ⟨hne, hus⟩
      · have hu := hnd.mem_erase_iff.mp hmem
        rw [if_neg hu.1]
        exact (h.same u n).mpr ⟨ws, hws, hu.2⟩
      · have hu := (h.same u n).mpr ⟨us, hus, hmem⟩
        rw [if_neg]
        · exact hu
        · rintro rfl
          rw [hw] at hu
          cases hu
          exact hne rfl
  · rcases hsome n us hn with ⟨_, _, hne⟩ | ⟨_, hus⟩
    · exact hne
    · exact h.nonempty n us hus
  · rcases hsome n us hn with ⟨_, rfl, _⟩ | ⟨_, hus⟩
    · exact hnd.erase w
    · exact h.nodup n us hus

end Tables

section Workers

variable {i : Tid} {s s' : Sched} {t t' : Multiset Tok} {w : WorkerID}

theorem Sched.agree_noteHeartbeat {info : WorkerHeartbeat} (h : s.workerView.Agree) :
    (s.noteHeartbeat w info).workerView.Agree := by
  unfold noteHeartbeat
  dsimp only
  split
  · exact ⟨h.same, h.nonempty, h.nodup⟩
  · next hc =>
    have hn : s.workerToManager.get? w = none := by simpa [Dict.contains] using hc
    exact h.join hn rfl rfl

theorem Sched.agree_removeWorkerFromManager (h : s.workerView.Agree) :
    (s.removeWorkerFromManager w).workerView.Agree := by
  unfold removeWorkerFromManager
  split
  · exact h
  · next m hw =>
    dsimp only
    obtain ⟨ws, hws, _⟩ := (h.same w m).mp hw
    have hws : s.managerToWorkers.get? m = some ws := hws
    rw [hws]
    dsimp only
    split
    · next he =>
      refine h.part hw hws rfl fun n => ?_
      rw [if_pos he]
      exact Dict.get?_erase _ m n
    · next he =>
      refine h.part hw hws rfl fun n => ?_
      rw [if_neg he]
      exact Dict.get?_set _ m n _

@[simp] theorem Sched.workerAliveSince_noteHeartbeat (s : Sched) (w : WorkerID)
    (info : WorkerHeartbeat) :
    (s.noteHeartbeat w info).workerAliveSince = s.workerAliveSince.set w info := by
  unfold noteHeartbeat
  dsimp only
  split <;> rfl

@[simp] theorem Sched.connecting_noteHeartbeat (s : Sched) (w : WorkerID)
    (info : WorkerHeartbeat) : (s.noteHeartbeat w info).connecting = s.connecting := by
  unfold noteHeartbeat
  dsimp only
  split <;> rfl

theorem Sched.removeWorkerFromManager_eq (s : Sched) (w : WorkerID) :
    ∃ ms ws, s.removeWorkerFromManager w =
      { s with workerToManager := ms, managerToWorkers := ws } := by
  unfold removeWorkerFromManager
  split
  · exact ⟨_, _, rfl⟩
  · dsimp only
    split
    · exact ⟨_, _, rfl⟩
    · split
      · exact ⟨_, _, rfl⟩
      · exact ⟨_, _, rfl⟩

theorem TaskStep.workers (h : TaskStep i s t s' t') (hs : s.policy.Sound)
    (hw : w ∈ s.policy.getWorkerIds) : w ∈ s'.policy.getWorkerIds := by
  have hassign : ∀ {task : Task} {r p}, s.policy.assignTask task = (r, p) → w ∈ p.getWorkerIds := by
    intro task r p he
    have hm := AllocatePolicy.mem_assignTask hs task hw
    rwa [he] at hm
  have hremove : ∀ {t : TaskID} {r p}, s.policy.removeTask t = (r, p) → w ∈ p.getWorkerIds := by
    intro t r p he
    have hm := AllocatePolicy.mem_removeTask hs t hw
    rwa [he] at hm
  cases h with
  | hold _ _ hp => exact hassign hp
  | assign _ _ hp => exact hassign hp
  | acquire _ _ hp => exact hassign hp
  | acquireNone _ _ hp => exact hassign hp
  | release _ _ _ _ h => exact hremove h
  | releaseFail h => exact hremove h
  | place _ _ _ hp => exact hassign hp
  | placeFail _ _ _ hp => exact hassign hp
  | suspend _ _ _ hp => exact hassign hp
  | free h => exact hremove h
  | finish => rwa [Sched.policy_onTaskFinish]
  | popOwner => rwa [Sched.policy_onTaskFinish]
  | settle => rwa [Sched.policy_releaseLock, Sched.policy_settle]
  | tearDown => rwa [Sched.policy_tearDown]
  | _ => exact hw

theorem workerToks_events {α : Type} {e : α → TaskEvent} {l : List α} :
    workerToks (toks (fun a => .event (e a)) l) = 0 := by
  refine Multiset.filter_eq_nil.mpr fun a ha => ?_
  obtain ⟨x, _, rfl⟩ := mem_toks.mp ha
  exact Bool.false_ne_true

theorem TaskStep.workerToks (h : TaskStep i s t s' t') :
    Scaler.workerToks t' = Scaler.workerToks t := by
  cases h <;> rfl

end Workers

/-- A known worker is known to the policy, and so is one that is being connected; the
tokens say which workers are. -/
structure Registered (s : Sched) (K : Multiset Tok) : Prop where
  alive : ∀ w, s.workerAliveSince.contains w = true → w ∈ s.policy.getWorkerIds
  connecting : ∀ w ∈ s.connecting, w ∈ s.policy.getWorkerIds
  held : workerToks K = toks .connecting s.connecting

section Steps

variable {i : Tid} {s s' : Sched} {t t' R : Multiset Tok} {w : WorkerID}

/-- A step that neither adds nor loses workers. -/
theorem Registered.frame (h : Registered s (t + R)) (hv : s'.workerView = s.workerView)
    (hp : ∀ w, w ∈ s.policy.getWorkerIds → w ∈ s'.policy.getWorkerIds)
    (ht : workerToks t' = workerToks t) : Registered s' (t' + R) := by
  have ha : s'.workerAliveSince = s.workerAliveSince := congrArg WorkerView.workerAliveSince hv
  have hc : s'.connecting = s.connecting := congrArg WorkerView.connecting hv
  refine ⟨fun w hw => hp w (h.alive w (ha ▸ hw)), fun w hw => hp w (h.connecting w (hc ▸ hw)), ?_⟩
  rw [hc, ← h.held, workerToks_add, workerToks_add, ht]

theorem Registered.mem_connecting (h : Registered s ({.connecting w} + R)) : w ∈ s.connecting := by
  have hm : Tok.connecting w ∈ workerToks ({.connecting w} + R) := by
    rw [workerToks_add]
    exact Multiset.mem_add.mpr (.inl (Multiset.mem_singleton_self _))
  rw [h.held] at hm
  obtain ⟨v, hv, he⟩ := mem_toks.mp hm
  cases he
  exact hv

/-- The heartbeat of `w` is over: its token is gone from the list too. -/
theorem Registered.connected (h : Registered s ({.connecting w} + R)) :
    Registered (s.connected w) R := by
  refine ⟨h.alive, fun v hv => h.connecting v (List.mem_of_mem_erase hv), ?_⟩
  have hmem := h.mem_connecting
  have hperm : toks Tok.connecting s.connecting =
      {.connecting w} + toks .connecting (s.connecting.erase w) := by
    rw [← toks_cons]
    exact Multiset.coe_eq_coe.mpr ((List.perm_cons_erase hmem).map _)
  have hh := h.held
  rw [workerToks_add, hperm, show workerToks {Tok.connecting w} = {Tok.connecting w} from rfl] at hh
  exact add_left_cancel hh

theorem Registered.noteHeartbeat {info : WorkerHeartbeat} (h : Registered s R)
    (hw : w ∈ s.policy.getWorkerIds) : Registered (s.noteHeartbeat w info) R := by
  refine ⟨fun v hv => ?_, fun v hv => ?_, ?_⟩
  · rw [Sched.policy_noteHeartbeat]
    rw [Sched.workerAliveSince_noteHeartbeat, Dict.contains, Dict.get?_set] at hv
    split at hv
    · next he => rwa [he]
    · exact h.alive v hv
  · rw [Sched.policy_noteHeartbeat]
    rw [Sched.connecting_noteHeartbeat] at hv
    exact h.connecting v hv
  · rw [Sched.connecting_noteHeartbeat]
    exact h.held

theorem Registered.addWorker {info : WorkerHeartbeat} (h : Registered s R) (hp : s.policy.Sound)
    (ha : s.addWorker w info = (true, s')) : Registered s' ({.connecting w} + R) := by
  have hb : (s.policy.addWorker w info.capabilities info.queueSize).1 = true := congrArg Prod.fst ha
  obtain rfl : (s.addWorker w info).2 = s' := congrArg Prod.snd ha
  have hmem : ∀ {v}, v ∈ s.policy.getWorkerIds ∨ v = w →
      v ∈ (s.policy.addWorker w info.capabilities info.queueSize).2.getWorkerIds :=
    fun hv => AllocatePolicy.mem_addWorker hp hv
  have hconn : (s.addWorker w info).2.connecting = w :: s.connecting := if_pos hb
  refine ⟨fun v hv => hmem (.inl (h.alive v hv)), fun v hv => ?_, ?_⟩
  · rw [hconn] at hv
    rcases List.mem_cons.mp hv with rfl | hv
    · exact hmem (.inr rfl)
    · exact hmem (.inl (h.connecting v hv))
  · rw [hconn, toks_cons, workerToks_add, h.held]
    rfl

/-- Removing a worker that does not come back. -/
theorem Registered.removeWorker {r : Except Exn (List TaskID)} (h : Registered s R)
    (hr : s.removeWorker w = (r, s')) (hw : s.returning w = false) : Registered s' R := by
  obtain ⟨_, rfl⟩ := Prod.mk.inj hr
  simp only [Sched.returning, Bool.or_eq_false_iff, decide_eq_false_iff_not] at hw
  refine ⟨fun v hv => ?_, fun v hv => ?_, h.held⟩
  · refine AllocatePolicy.mem_removeWorker (h.alive v hv) ?_
    rintro rfl
    exact Bool.false_ne_true (hw.1.symm.trans hv)
  · refine AllocatePolicy.mem_removeWorker (h.connecting v hv) ?_
    rintro rfl
    exact hw.2 hv

end Steps

/-- A worker is removed from the policy while it is coming back. -/
def Obs.isReturn : Obs → Bool
  | .workerRemoved _ _ returning => returning
  | _ => false

def Sched.NoneReturned (s : Sched) : Prop := ∀ o ∈ s.trace, o.isReturn = false

section Runs

variable {cfg : SchedulerConfig} {i : Tid} {s s' : Sched} {t t' R : Multiset Tok}
  {M : Multiset (Tid × Tok)}

theorem OtherStep.agree (h : OtherStep i s t s' t') (ha : s.workerView.Agree) :
    s'.workerView.Agree := by
  cases h with
  | addWorker h => exact (congrArg (·.2.workerView) h) ▸ ⟨ha.same, ha.nonempty, ha.nodup⟩
  | connect => exact Sched.agree_noteHeartbeat ⟨ha.same, ha.nonempty, ha.nodup⟩
  | connectFail => exact ⟨ha.same, ha.nonempty, ha.nodup⟩
  | heartbeat => exact Sched.agree_noteHeartbeat ha
  | leave => exact Sched.agree_removeWorkerFromManager ⟨ha.same, ha.nonempty, ha.nodup⟩
  | removeWorker h => exact (congrArg (·.2.workerView) h) ▸ ha
  | removeWorkerFail h => exact (congrArg (·.2.workerView) h) ▸ ha
  | _ => exact ha

theorem OtherStep.registered (h : OtherStep i s t s' t') (hp : s.policy.Sound)
    (hn : s'.NoneReturned) (hr : Registered s (t + R)) : Registered s' (t' + R) := by
  have hremove : ∀ {w r q}, s.removeWorker w = (r, q) → q.NoneReturned → s.returning w = false := by
    rintro w r q hq hn
    obtain ⟨_, rfl⟩ := Prod.mk.inj hq
    exact hn _ List.mem_cons_self
  cases h with
  | addWorker h =>
    rw [zero_add] at hr
    exact hr.addWorker hp h
  | connect =>
    have hw := hr.connecting _ hr.mem_connecting
    rw [zero_add]
    exact hr.connected.noteHeartbeat hw
  | connectFail =>
    rw [zero_add]
    exact hr.connected
  | heartbeat h => exact hr.noteHeartbeat (AllocatePolicy.addWorker_known (congrArg Prod.fst h)).1
  | @leave w h =>
    obtain ⟨ms, ws, he⟩ := Sched.removeWorkerFromManager_eq
      { s with workerAliveSince := s.workerAliveSince.erase w } w
    rw [he]
    refine ⟨fun v hv => hr.alive v ?_, hr.connecting, hr.held⟩
    simp only [Dict.contains, Dict.get?_erase] at hv ⊢
    split at hv
    · cases hv
    · exact hv
  | removeWorker h =>
    have hr := Registered.removeWorker (by rwa [zero_add] at hr) h (hremove h hn)
    refine ⟨hr.alive, hr.connecting, ?_⟩
    rw [workerToks_add, hr.held, workerToks_events, zero_add]
  | removeWorkerFail h =>
    have hr := Registered.removeWorker (by rwa [zero_add] at hr) h
      (hremove h fun o ho => hn o (List.mem_cons_of_mem _ ho))
    refine ⟨hr.alive, hr.connecting, ?_⟩
    rw [workerToks_add, hr.held]
    rfl
  | _ => exact hr.frame rfl (fun _ hw => hw) rfl

theorem Step.agree (h : Step i s t s' t') (ha : s.workerView.Agree) : s'.workerView.Agree := by
  cases h with
  | task h => rwa [h.workerView]
  | graph h => rwa [h.workerView]
  | other h => exact h.agree ha

theorem Step.registered (h : Step i s t s' t') (hp : s.policy.Sound) (hn : s'.NoneReturned)
    (hr : Registered s (t + R)) : Registered s' (t' + R) := by
  cases h with
  | task h => exact hr.frame h.workerView (fun _ hw => h.workers hp hw) h.workerToks
  | graph h =>
    refine hr.frame h.workerView (fun _ hw => ?_) h.workerToks
    rwa [show s'.policy = s.policy from congrArg TaskView.policy h.taskView]
  | other h => exact h.registered hp hn hr

theorem Run.agree (h : Run cfg s M) : s.workerView.Agree := by
  refine Run.invariant (J := fun s _ => s.workerView.Agree) ?_ (fun hs ha => hs.agree ha) h
  exact ⟨by simp [Sched.workerView, Sched.init], by simp [Sched.workerView, Sched.init],
    by simp [Sched.workerView, Sched.init]⟩

theorem Run.registered (h : Run cfg s M) (hn : s.NoneReturned) :
    Registered s (M.map Prod.snd) := by
  have hall : s.Sane ∧ (s.NoneReturned → Registered s (M.map Prod.snd)) := by
    refine Run.invariant (J := fun s K => s.Sane ∧ (s.NoneReturned → Registered s K)) ?_ ?_ h
    · refine ⟨(Run.init : Run cfg _ 0).sane, fun _ => ⟨?_, ?_, rfl⟩⟩
      · rintro w ⟨⟩
      · rintro w ⟨⟩
    · rintro i s s' t t' R hs ⟨hsane, hr⟩
      refine ⟨hs.sane hsane, fun hn => hs.registered hsane.policy hn (hr fun o ho => ?_)⟩
      exact hn o (hs.trace.subset ho)
  exact hall.2 hn

end Runs

theorem mapM_ok {α β ε : Type} {f : α → Except ε β} {as : List α} :
    (∃ bs, as.mapM f = .ok bs) ↔ ∀ a ∈ as, ∃ b, f a = .ok b := by
  induction as with
  | nil => exact ⟨fun _ => by simp, fun _ => ⟨[], rfl⟩⟩
  | cons a as ih =>
    rw [List.mapM_cons, List.forall_mem_cons, ← ih]
    cases f a with
    | error e => simp [bind, Except.bind]
    | ok b =>
      cases as.mapM f with
      | error e => simp [bind, Except.bind]
      | ok bs => simp [bind, Except.bind, pure, Except.pure]

/-- `get_status` raises exactly when a known worker is not known to the policy. -/
theorem Sched.getStatus_ok {s : Sched} (h : s.policy.Sound) :
    (∃ r, s.getStatus = .ok r) ↔
      ∀ w, s.workerAliveSince.contains w = true → w ∈ s.policy.getWorkerIds := by
  obtain ⟨d, hd, hk⟩ := AllocatePolicy.statistics_ok h
  unfold getStatus
  simp only [hd, bind, Except.bind, mapM_ok, Dict.mem_keys]
  refine forall_congr' fun w => imp_congr_right fun _ => ?_
  rw [← hk w]
  cases d.get? w with
  | none => simp
  | some n => simp

/-- In every state at an await the tables of managers agree, and as long as no worker came
back while it was being removed, every known worker is known to the policy. -/
theorem worker_registry_agrees {cfg : SchedulerConfig} {c : Config Sched Exn Label Proc}
    (h : Reachable scheduler (Sched.init cfg) c) (hc : c.Suspended) :
    c.state.workerView.Agree ∧ (c.state.NoneReturned →
      (∀ w, c.state.workerAliveSince.contains w = true → w ∈ c.state.policy.getWorkerIds) ∧
        ∃ r, c.state.getStatus = .ok r) := by
  obtain ⟨M, hM, _⟩ := exists_run h hc
  refine ⟨hM.agree, fun hn => ?_⟩
  have halive := (hM.registered hn).alive
  exact ⟨halive, (Sched.getStatus_ok hM.sane.policy).mpr halive⟩

/-- The first heartbeat of the worker 200, handled to its end. -/
def firstHeartbeat : List (Move Proc) :=
  [.spawn (.onReceiveMessage 200 (.workerHeartbeat ⟨1, [], []⟩)), .resume [0], .resume [0], .resume [0]]

/-- The worker routine finds the worker silent for too long, and its late heartbeat arrives while the monitor is told. -/
def heartbeatInDisconnect : List (Move Proc × List Bool) :=
  turn (.onReceiveMessage 200 (.workerHeartbeat ⟨1, [], []⟩)) 0 3 ++ turn .workerRoutine 1 1 ++
    turn (.onReceiveMessage 200 (.workerHeartbeat ⟨1, [], []⟩)) 2 2 ++ wakes [1] 1

theorem worker_registry_agrees_first : ∃ c : Config Sched Exn Label Proc,
    Reachable scheduler (Sched.init ⟨.evenLoad, false⟩) c ∧ c.Suspended ∧ c.state.NoneReturned ∧
      c.state.workerAliveSince.contains ⟨200⟩ = true ∧ ⟨200⟩ ∈ c.state.policy.getWorkerIds := by
  have hd : (drive scheduler 50 (start (Sched.init ⟨.evenLoad, false⟩)) firstHeartbeat).any (fun c =>
      c.current.isNone && c.state.trace.all (fun o => !o.isReturn) &&
        c.state.workerAliveSince.contains ⟨200⟩) = true := by decide +kernel
  obtain ⟨c, hc, hb⟩ := (Option.any_eq_true _ _).mp hd
  simp only [Bool.and_eq_true, Option.isNone_iff_eq_none, List.all_eq_true, Bool.not_eq_true'] at hb
  obtain ⟨⟨hs, hn⟩, ha⟩ := hb
  have hr := Reachable.drive .start hc
  exact ⟨c, hr, hs, hn, ha, ((worker_registry_agrees hr hs).2 hn).1 _ ha⟩

/-- A known worker that the policy does not know: `get_status` raises. -/
theorem heartbeat_in_disconnect : ∃ c : Config Sched Exn Label Proc,
    ReachableIn scheduler Serial (Sched.init ⟨.evenLoad, false⟩) c ∧
      Reachable scheduler (Sched.init ⟨.evenLoad, false⟩) c ∧ c.Suspended ∧
      c.state.workerAliveSince.contains ⟨200⟩ = true ∧ ⟨200⟩ ∉ c.state.policy.getWorkerIds ∧
      c.state.getStatus.toOption = none := by
  have hd : (driveIn scheduler Serial 50 (start (Sched.init ⟨.evenLoad, false⟩)) heartbeatInDisconnect).any
      (fun c => c.current.isNone && c.state.workerAliveSince.contains ⟨200⟩ &&
        !decide (⟨200⟩ ∈ c.state.policy.getWorkerIds) && c.state.getStatus.toOption.isNone) = true := by
    decide +kernel
  obtain ⟨c, hc, hb⟩ := (Option.any_eq_true _ _).mp hd
  simp only [Bool.and_eq_true, Option.isNone_iff_eq_none, Bool.not_eq_true',
    decide_eq_false_iff_not] at hb
  obtain ⟨⟨⟨hs, ha⟩, hn⟩, hg⟩ := hb
  have hreached := ReachableIn.start.drive hc
  exact ⟨c, hreached, hreached.reachable, hs, ha, hn, hg⟩

end Scaler
