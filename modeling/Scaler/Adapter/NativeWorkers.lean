import Mathlib.Data.List.Nodup
import Scaler.Adapter.CapacityCoordinator
import Scaler.Collections.Outcome

/-! `NativeWorkerProvisioner` under its `CapacityCoordinator`. A worker that has died is still listed.
It is reaped when another worker is started; a signal to its pid raises from then on, and a stop that
comes to it ends there. -/

namespace Scaler.Adapter

open Collections

namespace Native

/-- Processes by their numbers in the order of the starts. -/
abbrev Pid := Nat

inductive ProcessState where
  | alive
  /-- Ended and not waited for. -/
  | dead
  | reaped
  deriving DecidableEq, Repr

namespace ProcessState

def die : ProcessState → ProcessState
  | .alive => .dead
  | state => state

def reap : ProcessState → ProcessState
  | .dead => .reaped
  | state => state

end ProcessState

/-- The listed workers, the processes that were started and the signals that were sent. -/
structure WorkerProvisioner where
  workers : List Pid
  processes : List ProcessState
  signals : List Pid
  deriving DecidableEq, Repr

namespace WorkerProvisioner

def new : WorkerProvisioner := ⟨[], [], []⟩

variable (p : WorkerProvisioner)

def Alive (pid : Pid) : Prop := p.processes[pid]? = some .alive

def Reaped (pid : Pid) : Prop := p.processes[pid]? = some .reaped

instance (pid : Pid) : Decidable (p.Reaped pid) := inferInstanceAs (Decidable (_ = _))

def died (pid : Pid) : WorkerProvisioner := { p with processes := p.processes.modify pid .die }

/-- One round of `start_units`. A start waits first for all children that have ended. -/
def startUnit : WorkerProvisioner :=
  { p with workers := p.workers ++ [p.processes.length], processes := p.processes.map .reap ++ [.alive] }

/-- One round for every list, with the processes that die before its start. -/
def startUnits (deaths : List (List Pid)) : WorkerProvisioner :=
  deaths.foldl (fun p pids => (pids.foldl died p).startUnit) p

def activeUnitCount : Nat := p.workers.length

/-- The loop of `stop_units`, and whether it returns. -/
def stopWorkers : List Pid → WorkerProvisioner → Bool × WorkerProvisioner
  | [], p => (true, p)
  | pid :: toStop, p =>
    if p.Reaped pid then (false, p)
    else stopWorkers toStop { p with signals := p.signals ++ [pid], workers := p.workers.tail }

-- deaths between two signals are no different from deaths after the call
def stopUnits (count : Nat) : Bool × WorkerProvisioner := stopWorkers (p.workers.take count) p

end WorkerProvisioner

structure WorkerPool where
  coordinator : CapacityCoordinator
  provisioner : WorkerProvisioner
  now : ℚ
  /-- A call of `terminate` has ended. -/
  terminated : Bool

inductive Event where
  | setDesiredTaskConcurrency (count : Int)
  | died (pid : Pid)
  | clock (now : ℚ)
  /-- A pass of the coordinator, with the processes that die before each start. -/
  | wake (deaths : List (List Pid))
  | cancelled
  | terminate

namespace WorkerPool

def new (maxUnitCount : Int) (cooldown : Cooldown) (now : ℚ) : WorkerPool :=
  ⟨.new maxUnitCount cooldown, .new, now, false⟩

variable (s : WorkerPool)

/-- The calls of a pass do not wait for anything. -/
def runPass (coordinator : CapacityCoordinator) (deaths : List (List Pid)) : Option WorkerPool :=
  match coordinator.activeReconcileTask with
  | some (.starting count) =>
    if deaths.length = count.toNat then
      some { s with coordinator := coordinator.returned, provisioner := s.provisioner.startUnits deaths }
    else none
  | some (.stopping count) =>
    match s.provisioner.stopUnits count.toNat with
    | (true, provisioner) => some { s with coordinator := coordinator.returned, provisioner }
    | (false, provisioner) => some { s with coordinator := coordinator.raised, provisioner }
  | _ => some { s with coordinator }

def step : Event → Option WorkerPool
  | .setDesiredTaskConcurrency count => some { s with coordinator := s.coordinator.setDesiredUnitCount count }
  | .died pid => some { s with provisioner := s.provisioner.died pid }
  | .clock now => if s.now ≤ now then some { s with now } else none
  | .wake deaths =>
    if s.coordinator.activeReconcileTask = some .waiting ∧ s.coordinator.reconcileNeeded then
      s.runPass (s.coordinator.reconcile s.provisioner.activeUnitCount s.now) deaths
    else none
  | .cancelled =>
    if s.coordinator.stop ∧ s.coordinator.activeReconcileTask.isSome then
      some { s with coordinator := { s.coordinator with activeReconcileTask := none } }
    else none
  | .terminate =>
    let (_, provisioner) := s.provisioner.stopUnits s.provisioner.workers.length
    some { s with coordinator := s.coordinator.cancel, provisioner, terminated := true }

end WorkerPool

namespace WorkerProvisioner

variable {p : WorkerProvisioner} {count : Nat}

/-- What `stop_units` is to do: it takes the workers off the list and signals those that live once. -/
structure StopsUnits (p : WorkerProvisioner) (count : Nat) : Prop where
  returns : (p.stopUnits count).1 = true
  taken : (p.stopUnits count).2.workers = p.workers.drop count
  once : ∀ pid ∈ p.workers.take count, p.Alive pid → (p.stopUnits count).2.signals.count pid = p.signals.count pid + 1

/-- No worker that is to be stopped has been reaped. -/
def NoneReaped (p : WorkerProvisioner) (count : Nat) : Prop := ∀ pid ∈ p.workers.take count, ¬ p.Reaped pid

theorem stopWorkers_of_none_reaped {toStop : List Pid} (h : ∀ pid ∈ toStop, ¬ p.Reaped pid) :
    stopWorkers toStop p = (true, { p with signals := p.signals ++ toStop, workers := p.workers.drop toStop.length }) := by
  induction toStop generalizing p with
  | nil => simp [stopWorkers]
  | cons pid toStop ih =>
    have hrest : ∀ pid' ∈ toStop, ¬ Reaped { p with signals := p.signals ++ [pid], workers := p.workers.tail } pid' :=
      fun pid' hpid' => h pid' (List.mem_cons_of_mem _ hpid')
    rw [stopWorkers, if_neg (h pid List.mem_cons_self), ih hrest]
    simp

theorem none_reaped_of_stopWorkers {toStop : List Pid} (h : (stopWorkers toStop p).1 = true) : ∀ pid ∈ toStop, ¬ p.Reaped pid := by
  induction toStop generalizing p with
  | nil => exact fun _ hpid => absurd hpid List.not_mem_nil
  | cons pid toStop ih =>
    rw [stopWorkers] at h
    split at h
    · cases h
    · next hpid =>
      rintro pid' (_ | ⟨_, hpid'⟩)
      · exact hpid
      · exact ih h pid' hpid'

theorem stopUnits_of_noneReaped (h : p.NoneReaped count) :
    p.stopUnits count = (true, { p with signals := p.signals ++ p.workers.take count, workers := p.workers.drop count }) := by
  rw [stopUnits, stopWorkers_of_none_reaped h, List.length_take]
  congr 2
  rcases Nat.le_total count p.workers.length with hle | hle
  · rw [Nat.min_eq_left hle]
  · rw [Nat.min_eq_right hle, List.drop_length, List.drop_of_length_le hle]

theorem stopsUnits_iff (hnodup : p.workers.Nodup) : p.StopsUnits count ↔ p.NoneReaped count := by
  refine ⟨fun h => none_reaped_of_stopWorkers h.returns, fun h => ?_⟩
  have hstop := stopUnits_of_noneReaped h
  refine ⟨congrArg Prod.fst hstop, by rw [hstop], fun pid hpid _ => ?_⟩
  have hone : (p.workers.take count).count pid = 1 :=
    List.count_eq_one_of_mem (hnodup.sublist (List.take_sublist _ _)) hpid
  rw [hstop, List.count_append, hone]

/-- Every live worker is listed or has been signalled. -/
structure Wf (p : WorkerProvisioner) : Prop where
  started : ∀ pid ∈ p.workers, pid < p.processes.length
  nodup : p.workers.Nodup
  kept : ∀ pid, p.Alive pid → pid ∈ p.workers ∨ pid ∈ p.signals

theorem Wf.new : new.Wf := ⟨fun _ h => absurd h List.not_mem_nil, List.nodup_nil, fun _ h => absurd h nofun⟩

theorem alive_of_died {pid pid' : Pid} (h : (p.died pid).Alive pid') : p.Alive pid' := by
  unfold Alive died at h
  dsimp only at h
  rw [List.getElem?_modify] at h
  obtain ⟨state, hstate, hdie⟩ := Option.map_eq_some_iff.mp h
  split at hdie
  · cases state <;> cases hdie
  · cases hdie
    exact hstate

theorem Wf.died (h : p.Wf) (pid : Pid) : (p.died pid).Wf where
  started := fun pid' hpid' => by
    rw [WorkerProvisioner.died, List.length_modify]
    exact h.started pid' hpid'
  nodup := h.nodup
  kept := fun pid' halive => h.kept pid' (alive_of_died halive)

theorem alive_of_startUnit {pid : Pid} (h : p.startUnit.Alive pid) : p.Alive pid ∨ pid = p.processes.length := by
  unfold Alive startUnit at h
  dsimp only at h
  rcases Nat.lt_trichotomy pid p.processes.length with hlt | heq | hgt
  · rw [List.getElem?_append_left (by simpa using hlt), List.getElem?_map] at h
    obtain ⟨state, hstate, hreap⟩ := Option.map_eq_some_iff.mp h
    cases state <;> cases hreap
    exact .inl hstate
  · exact .inr heq
  · rw [List.getElem?_eq_none (by simp; omega)] at h
    cases h

theorem Wf.startUnit (h : p.Wf) : p.startUnit.Wf where
  started := fun pid hpid => by
    rw [WorkerProvisioner.startUnit, List.length_append, List.length_map, List.length_singleton]
    rcases List.mem_append.mp hpid with hold | hnew
    · exact Nat.lt_succ_of_lt (h.started pid hold)
    · rw [List.mem_singleton.mp hnew]
      exact Nat.lt_succ_self _
  nodup := by
    refine List.nodup_append.mpr ⟨h.nodup, List.nodup_singleton _, ?_⟩
    rintro pid hold _ hnew rfl
    have hlt := h.started pid hold
    rw [List.mem_singleton.mp hnew] at hlt
    exact Nat.lt_irrefl _ hlt
  kept := fun pid halive => by
    rcases alive_of_startUnit halive with hold | rfl
    · exact (h.kept pid hold).imp_left (List.mem_append_left _)
    · exact .inl (List.mem_append_right _ List.mem_cons_self)

theorem Wf.startUnits (h : p.Wf) (deaths : List (List Pid)) : (p.startUnits deaths).Wf := by
  refine List.foldlRecOn deaths _ h fun p hp pids _ => ?_
  have hdied : (pids.foldl WorkerProvisioner.died p).Wf :=
    List.foldlRecOn pids WorkerProvisioner.died hp fun _ h pid _ => h.died pid
  exact hdied.startUnit

/-- A stop, if it ends early, leaves the rest of the list. -/
theorem stopWorkers_eq {toStop rest : List Pid} (hworkers : p.workers = toStop ++ rest) :
    ∃ stopped left, toStop = stopped ++ left ∧
      (stopWorkers toStop p).2 = { p with signals := p.signals ++ stopped, workers := left ++ rest } := by
  induction toStop generalizing p with
  | nil => exact ⟨[], [], rfl, by rw [stopWorkers, List.append_nil, ← hworkers]⟩
  | cons pid toStop ih =>
    rw [stopWorkers]
    split
    · exact ⟨[], pid :: toStop, rfl, by rw [List.append_nil, ← hworkers]⟩
    · obtain ⟨stopped, left, hsplit, hstop⟩ :=
        ih (p := { p with signals := p.signals ++ [pid], workers := p.workers.tail }) (by rw [hworkers]; rfl)
      exact ⟨pid :: stopped, left, by rw [hsplit]; rfl, by rw [hstop]; simp⟩

theorem Wf.stopUnits (h : p.Wf) (count : Nat) : (p.stopUnits count).2.Wf := by
  obtain ⟨stopped, left, hsplit, hstop⟩ := stopWorkers_eq (List.take_append_drop count p.workers).symm
  have hworkers : p.workers = stopped ++ (left ++ p.workers.drop count) := by
    rw [← List.append_assoc, ← hsplit, List.take_append_drop]
  rw [WorkerProvisioner.stopUnits, hstop]
  refine ⟨fun pid hpid => ?_, ?_, fun pid halive => ?_⟩
  · exact h.started pid (hworkers ▸ List.mem_append_right _ hpid)
  · have hnodup := h.nodup
    rw [hworkers] at hnodup
    exact (List.nodup_append.mp hnodup).2.1
  · rcases h.kept pid halive with hlisted | hsignalled
    · rw [hworkers] at hlisted
      rcases List.mem_append.mp hlisted with hstopped | hleft
      · exact .inr (List.mem_append_right _ hstopped)
      · exact .inl hleft
    · exact .inr (List.mem_append_left _ hsignalled)

end WorkerProvisioner

namespace WorkerPool

variable {s s' : WorkerPool}

section Coordinator

variable {c : CapacityCoordinator}

/-- The task is at its event. -/
def Idle (c : CapacityCoordinator) : Prop := c.activeReconcileTask = none ∨ c.activeReconcileTask = some .waiting

theorem reconcile_stop (c : CapacityCoordinator) (current : Int) (now : ℚ) : (c.reconcile current now).stop = c.stop := by
  unfold CapacityCoordinator.reconcile
  split
  · rfl
  · dsimp only
    split <;> rfl

theorem reconcile_of_stop (h : c.stop = true) (current : Int) (now : ℚ) : (c.reconcile current now).activeReconcileTask = none := by
  rw [CapacityCoordinator.reconcile, if_pos h]

theorem idle_leavePass (c : CapacityCoordinator) : Idle c.leavePass := by
  unfold Idle CapacityCoordinator.leavePass
  dsimp only
  split
  · exact .inl rfl
  · exact .inr rfl

theorem idle_returned (c : CapacityCoordinator) : Idle c.returned := by
  unfold CapacityCoordinator.returned
  split <;> exact idle_leavePass _

theorem stop_returned (c : CapacityCoordinator) : c.returned.stop = c.stop := by
  unfold CapacityCoordinator.returned
  split <;> rfl

theorem idle_setDesiredUnitCount (h : Idle c) (count : Int) : Idle (c.setDesiredUnitCount count) := by
  unfold CapacityCoordinator.setDesiredUnitCount
  split
  · exact h
  · rcases h with hnone | hwaiting
    · exact .inr (by rw [hnone]; rfl)
    · exact .inr (by rw [hwaiting]; rfl)

theorem stop_setDesiredUnitCount (count : Int) : (c.setDesiredUnitCount count).stop = c.stop := by
  unfold CapacityCoordinator.setDesiredUnitCount
  split <;> rfl

end Coordinator

/-- Between two events no call of a pass is under way, and after `terminate` no pass is made. -/
structure Wf (s : WorkerPool) : Prop where
  provisioner : s.provisioner.Wf
  idle : Idle s.coordinator
  stopped : s.terminated = true → s.coordinator.stop = true

theorem Wf.new (maxUnitCount : Int) (cooldown : Cooldown) (now : ℚ) : (new maxUnitCount cooldown now).Wf :=
  ⟨.new, .inl rfl, nofun⟩

theorem Wf.runPass (h : s.Wf) {c : CapacityCoordinator} (hstop : c.stop = s.coordinator.stop) {deaths : List (List Pid)}
    (hpass : s.runPass c deaths = some s') : s'.Wf := by
  unfold WorkerPool.runPass at hpass
  split at hpass
  · split at hpass
    · cases hpass
      exact ⟨h.provisioner.startUnits deaths, idle_returned c, fun hend => (stop_returned c).trans (hstop.trans (h.stopped hend))⟩
    · cases hpass
  · next count _ =>
    have hprovisioner := h.provisioner.stopUnits count.toNat
    split at hpass
    · next hcall =>
      cases hpass
      rw [hcall] at hprovisioner
      exact ⟨hprovisioner, idle_returned c, fun hend => (stop_returned c).trans (hstop.trans (h.stopped hend))⟩
    · next hcall =>
      cases hpass
      rw [hcall] at hprovisioner
      exact ⟨hprovisioner, idle_leavePass c, fun hend => hstop.trans (h.stopped hend)⟩
  · next hnotStarting hnotStopping =>
    cases hpass
    refine ⟨h.provisioner, ?_, fun hend => hstop.trans (h.stopped hend)⟩
    rcases htask : c.activeReconcileTask with _ | _ | count | count
    · exact .inl htask
    · exact .inr htask
    · exact absurd htask (hnotStarting count)
    · exact absurd htask (hnotStopping count)

theorem Wf.step (h : s.Wf) {event : Event} (hstep : s.step event = some s') : s'.Wf := by
  unfold WorkerPool.step at hstep
  cases event with
  | setDesiredTaskConcurrency count =>
    cases hstep
    exact ⟨h.provisioner, idle_setDesiredUnitCount h.idle count, fun hend => (stop_setDesiredUnitCount count).trans (h.stopped hend)⟩
  | died pid =>
    cases hstep
    exact ⟨h.provisioner.died pid, h.idle, h.stopped⟩
  | clock now =>
    dsimp only at hstep
    split at hstep
    · cases hstep
      exact ⟨h.provisioner, h.idle, h.stopped⟩
    · cases hstep
  | wake deaths =>
    dsimp only at hstep
    split at hstep
    · exact h.runPass (reconcile_stop _ _ _) hstep
    · cases hstep
  | cancelled =>
    dsimp only at hstep
    split at hstep
    · cases hstep
      exact ⟨h.provisioner, .inl rfl, h.stopped⟩
    · cases hstep
  | terminate =>
    cases hstep
    exact ⟨h.provisioner.stopUnits _, h.idle, fun _ => rfl⟩

theorem wf_of_run {maxUnitCount : Int} {cooldown : Cooldown} {now : ℚ} {events : List Event}
    (hrun : events.foldlM step (new maxUnitCount cooldown now) = some s) : s.Wf :=
  foldlM_some (fun _ _ _ h hstep => h.step hstep) (.new maxUnitCount cooldown now) hrun

/-- After `terminate` no worker is listed. -/
def Emptied (s : WorkerPool) : Prop := s.Wf ∧ (s.terminated = true → s.provisioner.workers = [])

/-- The workers that `terminate` is to stop have not been reaped. -/
def TerminatesUnreaped (s : WorkerPool) (event : Event) : Prop :=
  event = .terminate → s.provisioner.NoneReaped s.provisioner.workers.length

theorem Emptied.step (h : s.Emptied) {event : Event} (hunreaped : s.TerminatesUnreaped event) (hstep : s.step event = some s') :
    s'.Emptied := by
  refine ⟨h.1.step hstep, fun hend => ?_⟩
  unfold WorkerPool.step at hstep
  cases event with
  | setDesiredTaskConcurrency count =>
    cases hstep
    exact h.2 hend
  | died pid =>
    cases hstep
    exact h.2 hend
  | clock now =>
    dsimp only at hstep
    split at hstep
    · cases hstep
      exact h.2 hend
    · cases hstep
  | wake deaths =>
    dsimp only at hstep
    split at hstep
    · have hterminated : s'.terminated = s.terminated := by
        unfold WorkerPool.runPass at hstep
        grind
      rw [hterminated] at hend
      -- the coordinator was stopped: the pass makes no call
      unfold WorkerPool.runPass at hstep
      rw [reconcile_of_stop (h.1.stopped hend)] at hstep
      cases hstep
      exact h.2 hend
    · cases hstep
  | cancelled =>
    dsimp only at hstep
    split at hstep
    · cases hstep
      exact h.2 hend
    · cases hstep
  | terminate =>
    cases hstep
    change (s.provisioner.stopUnits s.provisioner.workers.length).2.workers = []
    rw [WorkerProvisioner.stopUnits_of_noneReaped (hunreaped rfl)]
    exact List.drop_length

/-- In every state of a run a stop does its work exactly if none of the workers that it is to stop has
been reaped; and if that is so whenever `terminate` is called, the workers that live after it have
all been signalled. -/
theorem stops_live_workers (maxUnitCount : Int) (cooldown : Cooldown) (now : ℚ) (events : List Event)
    (hrun : events.foldlM step (new maxUnitCount cooldown now) = some s) :
    (∀ count, s.provisioner.StopsUnits count ↔ s.provisioner.NoneReaped count) ∧
      (AlongSome step TerminatesUnreaped (new maxUnitCount cooldown now) events → s.terminated = true →
        ∀ pid, s.provisioner.Alive pid → pid ∈ s.provisioner.signals) := by
  have hwf := wf_of_run hrun
  refine ⟨fun count => WorkerProvisioner.stopsUnits_iff hwf.provisioner.nodup, fun hunreaped hend pid halive => ?_⟩
  have hemptied : s.Emptied := hunreaped.foldlM (fun _ _ _ h hok hstep => h.step hok hstep)
    ⟨.new maxUnitCount cooldown now, nofun⟩ hrun
  rcases hwf.provisioner.kept pid halive with hlisted | hsignalled
  · rw [hemptied.2 hend] at hlisted
    exact absurd hlisted List.not_mem_nil
  · exact hsignalled

theorem stops_live_workers_unreaped : ∃ s,
    [.setDesiredTaskConcurrency 2, .wake [[], []], .died 0, .terminate].foldlM step (new (-1) ⟨0, none, le_rfl⟩ 0) = some s ∧
      s.provisioner.Alive 1 ∧ 1 ∈ s.provisioner.signals := by
  refine ⟨_, rfl, rfl, (stops_live_workers (-1) ⟨0, none, le_rfl⟩ 0
    [.setDesiredTaskConcurrency 2, .wake [[], []], .died 0, .terminate] rfl).2 ?_ rfl 1 rfl⟩
  refine ⟨nofun, fun _ hset => ?_⟩
  obtain rfl := Option.some.inj hset
  refine ⟨nofun, fun _ hwake => ?_⟩
  obtain rfl := Option.some.inj hwake
  refine ⟨nofun, fun _ hdied => ?_⟩
  obtain rfl := Option.some.inj hdied
  refine ⟨fun _ => ?_, fun _ _ => trivial⟩
  unfold WorkerProvisioner.NoneReaped
  decide

-- the first worker dies and is reaped when the third is started: it blocks the head of the list
theorem reaped_worker_blocks_stop : ∃ s s',
    [.setDesiredTaskConcurrency 2, .wake [[], []], .died 0, .setDesiredTaskConcurrency 3, .wake [[]]].foldlM step
      (new (-1) ⟨0, none, le_rfl⟩ 0) = some s ∧
    s.provisioner.stopUnits 2 = (false, s.provisioner) ∧ ¬ s.provisioner.StopsUnits 2 ∧
    s.step .terminate = some s' ∧ s'.terminated = true ∧ s'.provisioner.Alive 1 ∧ 1 ∉ s'.provisioner.signals := by
  refine ⟨_, _, rfl, rfl, fun h => ?_, rfl, rfl, rfl, by decide⟩
  exact absurd h.returns (by decide)

end WorkerPool

end Native

end Scaler.Adapter
