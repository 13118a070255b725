import Scaler.Adapter.CapacityCoordinator

/-! What the passes of a `CapacityCoordinator` do over whole runs: calls meet the requested size, a
stop has waited for the cooldown, and a request that repeats the last count starts a pass only
while the cooldown runs. -/

namespace Scaler

namespace Adapter

namespace Pool

def Initial (p : Pool) : Prop :=
  ∃ maxUnitCount cooldown, cooldown.startedAt = none ∧ p.coordinator = .new maxUnitCount cooldown

def Step (p q : Pool) : Prop := ∃ event, p.step event = some q

def Reachable (p : Pool) : Prop := ∃ start, Initial start ∧ Relation.ReflTransGen Step start p

/-- No call of a pass is under way. -/
def Idle (p : Pool) : Prop :=
  p.coordinator.activeReconcileTask = none ∨ p.coordinator.activeReconcileTask = some .waiting

/-- The next thing the task does is a pass. -/
def Triggered (p : Pool) : Prop :=
  p.coordinator.activeReconcileTask = some .waiting ∧ p.coordinator.reconcileNeeded = true ∧
    p.coordinator.stop = false

/-- More units are live than requested. -/
def ScaleDown (p : Pool) : Prop := p.coordinator.target < p.activeUnitCount

/-- The cooldown has run for its duration, or is disabled. -/
def Elapsed (p : Pool) : Prop :=
  p.coordinator.scaleDownCooldown.durationSeconds = 0 ∨
    ∃ since, p.coordinator.scaleDownCooldown.startedAt = some since ∧
      p.coordinator.scaleDownCooldown.durationSeconds ≤ p.now - since

/-- A step that does not reset the cooldown: a pass asks for a scale-down, and none succeeds. -/
def KeepsRequest (p q : Pool) : Prop :=
  ∃ event, p.step event = some q ∧ (event = .wake → p.coordinator.stop = false → p.ScaleDown) ∧
    (event = .returned → ∃ n, p.coordinator.activeReconcileTask = some (.starting n))

/-- Every pass since the given time has asked for a scale-down, the first one then. -/
def RequestedSince (p : Pool) (since : ℚ) : Prop :=
  ∃ first, Reachable first ∧ first.Triggered ∧ first.ScaleDown ∧ first.now = since ∧
    Relation.ReflTransGen KeepsRequest first p

structure Wf (p : Pool) : Prop where
  signalled : p.coordinator.reconcileNeeded = true → p.coordinator.stop = false →
    p.coordinator.activeReconcileTask.isSome = true
  requested : ∀ since, p.coordinator.scaleDownCooldown.startedAt = some since → p.RequestedSince since

theorem RequestedSince.step {p q : Pool} {since : ℚ} (h : p.RequestedSince since) (hstep : KeepsRequest p q) :
    q.RequestedSince since := by
  obtain ⟨first, hreach, htriggered, hdown, hnow, hrun⟩ := h
  exact ⟨first, hreach, htriggered, hdown, hnow, hrun.tail hstep⟩

end Pool

namespace Cooldown

/-- The timer runs from before, or starts now. -/
theorem startIfNotRunning_cases {c : Cooldown} {now since : ℚ} (h : (c.startIfNotRunning now).startedAt = some since) :
    c.startedAt = some since ∨ c.startedAt = none ∧ since = now ∧ c.durationSeconds ≠ 0 := by
  rw [startIfNotRunning] at h
  split at h
  · exact .inl h
  next hduration =>
    split at h
    next hnone =>
      have hsince : now = since := Option.some.inj h
      exact .inr ⟨hnone, hsince.symm, hduration⟩
    · exact .inl h

/-- Nothing remains of a timer that has run for its duration, or is disabled. -/
theorem elapsed_of_remaining_none {c : Cooldown} {now : ℚ} (h : (c.startIfNotRunning now).remainingSeconds now = none) :
    c.durationSeconds = 0 ∨ ∃ since, c.startedAt = some since ∧ c.durationSeconds ≤ now - since := by
  by_cases hzero : c.durationSeconds = 0
  · exact .inl hzero
  · right
    have hpos : 0 < c.durationSeconds := lt_of_le_of_ne c.nonneg (Ne.symm hzero)
    rw [startIfNotRunning, if_neg hzero] at h
    cases hstarted : c.startedAt with
    | none =>
      rw [hstarted] at h
      simp [remainingSeconds, hpos] at h
    | some since =>
      rw [hstarted] at h
      simp only [remainingSeconds, hstarted] at h
      split at h
      · cases h
      next hnot => exact ⟨since, rfl, by linarith⟩

/-- A timer that has not run for its duration runs from now on. -/
theorem isRunning_of_remaining {c : Cooldown} {now seconds : ℚ}
    (h : (c.startIfNotRunning now).remainingSeconds now = some seconds) :
    (c.startIfNotRunning now).isRunning = true := by
  rw [isRunning]
  cases hstarted : (c.startIfNotRunning now).startedAt with
  | none => simp [remainingSeconds, hstarted] at h
  | some since => rfl

theorem remaining_none_of_elapsed {c : Cooldown} {now since : ℚ} (hstarted : c.startedAt = some since)
    (h : c.durationSeconds ≤ now - since) : (c.startIfNotRunning now).remainingSeconds now = none := by
  have hsame : c.startIfNotRunning now = c := by simp [startIfNotRunning, hstarted]
  rw [hsame]
  simp only [remainingSeconds, hstarted]
  exact if_neg (by linarith)

end Cooldown

namespace CapacityCoordinator

/-- What one pass leaves, by the sign of the difference. -/
theorem reconcile_cases (c : CapacityCoordinator) (current : Int) (now : ℚ) (hstop : c.stop = false) :
    (c.target < current ∧ (c.reconcile current now).scaleDownCooldown = c.scaleDownCooldown.startIfNotRunning now ∧
      ((c.reconcile current now).activeReconcileTask = some .waiting ∨
        (c.scaleDownCooldown.startIfNotRunning now).remainingSeconds now = none ∧
        (c.reconcile current now).activeReconcileTask = some (.stopping (current - c.target)))) ∨
    (current = c.target ∧ (c.reconcile current now).scaleDownCooldown = c.scaleDownCooldown.reset ∧
      (c.reconcile current now).activeReconcileTask = some .waiting) ∨
    (current < c.target ∧ (c.reconcile current now).scaleDownCooldown = c.scaleDownCooldown.reset ∧
      (c.reconcile current now).activeReconcileTask = some (.starting (c.target - current))) := by
  have hdelta := c.delta_eq current
  rw [reconcile, if_neg (by simp [hstop])]
  obtain hlt | heq | hgt := lt_trichotomy current c.target
  · have hpos : 0 < c.delta current := by omega
    right
    right
    rw [if_pos (le_of_lt hpos), if_pos hpos, hdelta]
    exact ⟨hlt, rfl, rfl⟩
  · have hzero : c.delta current = 0 := by omega
    right
    left
    rw [if_pos (ge_of_eq hzero), if_neg (by omega)]
    exact ⟨heq, rfl, rfl⟩
  · have hneg : ¬0 ≤ c.delta current := by omega
    have hback : -c.delta current = current - c.target := by omega
    left
    rw [if_neg hneg]
    refine ⟨hgt, rfl, ?_⟩
    cases hremaining : (c.scaleDownCooldown.startIfNotRunning now).remainingSeconds now with
    | some seconds => exact .inl (by simp only [hremaining])
    | none =>
      right
      simp only [hremaining, hback]
      exact ⟨trivial, trivial⟩

theorem reconcile_stopping {c : CapacityCoordinator} {current : Int} {now : ℚ} (hdown : c.target < current)
    (hstop : c.stop = false) (hremaining : (c.scaleDownCooldown.startIfNotRunning now).remainingSeconds now = none) :
    (c.reconcile current now).activeReconcileTask = some (.stopping (current - c.target)) := by
  have hdelta := c.delta_eq current
  have hback : -c.delta current = current - c.target := by omega
  rw [reconcile, if_neg (by simp [hstop]), if_neg (by omega)]
  simp only [hremaining, hback]

@[simp] theorem reconcile_reconcileNeeded (c : CapacityCoordinator) (current : Int) (now : ℚ) :
    (c.reconcile current now).reconcileNeeded = false := by
  by_cases hstop : c.stop
  · rw [reconcile, if_pos hstop]
  · by_cases hdelta : 0 ≤ c.delta current
    · rw [reconcile, if_neg hstop, if_pos hdelta]
    · rw [reconcile, if_neg hstop, if_neg hdelta]

theorem reconcile_stopped {c : CapacityCoordinator} (current : Int) (now : ℚ) (hstop : c.stop = true) :
    c.reconcile current now = { c with reconcileNeeded := false, activeReconcileTask := none } := by
  rw [reconcile, if_pos hstop]

theorem setDesiredUnitCount_eq {c : CapacityCoordinator} {count : Int}
    (h : count ≠ c.desiredUnitCount ∨ c.scaleDownCooldown.isRunning = true) :
    c.setDesiredUnitCount count =
      { c with
        desiredUnitCount := count
        reconcileNeeded := true
        activeReconcileTask := some (c.activeReconcileTask.getD .waiting) } := by
  rw [setDesiredUnitCount, if_neg]
  rintro ⟨hcount, hrunning⟩
  obtain h | h := h
  · exact h hcount
  · rw [h] at hrunning
    cases hrunning

theorem setDesiredUnitCount_cases (c : CapacityCoordinator) (count : Int) :
    c.setDesiredUnitCount count = c ∨
      c.setDesiredUnitCount count =
        { c with
          desiredUnitCount := count
          reconcileNeeded := true
          activeReconcileTask := some (c.activeReconcileTask.getD .waiting) } := by
  by_cases h : count = c.desiredUnitCount ∧ c.scaleDownCooldown.isRunning = false
  · exact .inl (if_pos h)
  · exact .inr (if_neg h)

@[simp] theorem setDesiredUnitCount_scaleDownCooldown (c : CapacityCoordinator) (count : Int) :
    (c.setDesiredUnitCount count).scaleDownCooldown = c.scaleDownCooldown := by
  obtain h | h := c.setDesiredUnitCount_cases count
  · rw [h]
  · rw [h]

theorem leavePass_signalled (c : CapacityCoordinator) (hstop : c.leavePass.stop = false) :
    c.leavePass.activeReconcileTask.isSome = true := by
  have hstop' : c.stop = false := hstop
  simp [leavePass, hstop']

end CapacityCoordinator

namespace Pool

/-- What an event that is none of the task's leaves of the cooldown. -/
theorem Wf.keep {p q : Pool} (h : p.Wf) {event : PoolEvent} (hstep : p.step event = some q)
    (hevent : event ≠ .wake ∧ event ≠ .returned)
    (hcooldown : q.coordinator.scaleDownCooldown = p.coordinator.scaleDownCooldown)
    (hsignalled : q.coordinator.reconcileNeeded = true → q.coordinator.stop = false →
      q.coordinator.activeReconcileTask.isSome = true) : q.Wf where
  signalled := hsignalled
  requested := by
    intro since hsince
    rw [hcooldown] at hsince
    refine (h.requested since hsince).step ⟨event, hstep, ?_, ?_⟩
    · intro hwake
      exact absurd hwake hevent.1
    · intro hreturned
      exact absurd hreturned hevent.2

theorem Wf.wake {p q : Pool} (hreach : Reachable p) (h : p.Wf) (hstep : p.step .wake = some q) : q.Wf := by
  have hq := hstep
  rw [step] at hq
  split at hq
  next hready =>
    obtain rfl := Option.some.inj hq
    by_cases hstop : p.coordinator.stop = true
    · have hcoordinator := CapacityCoordinator.reconcile_stopped p.activeUnitCount p.now hstop
      refine ⟨?_, fun since hsince => ?_⟩
      · simp
      · rw [hcoordinator] at hsince
        refine (h.requested since hsince).step ⟨.wake, hstep, ?_, fun h => by cases h⟩
        intro _ hnot
        rw [hstop] at hnot
        cases hnot
    · have hstop' : p.coordinator.stop = false := Bool.eq_false_iff.mpr hstop
      refine ⟨by simp, fun since hsince => ?_⟩
      obtain ⟨hdown, hcooldown, -⟩ | ⟨-, hcooldown, -⟩ | ⟨-, hcooldown, -⟩ :=
        p.coordinator.reconcile_cases p.activeUnitCount p.now hstop'
      · have hkeeps : KeepsRequest p { p with coordinator := p.coordinator.reconcile p.activeUnitCount p.now } :=
          ⟨.wake, hstep, fun _ _ => hdown, fun h => by cases h⟩
        rw [hcooldown] at hsince
        obtain hstarted | ⟨-, hnow, -⟩ := Cooldown.startIfNotRunning_cases hsince
        · exact (h.requested since hstarted).step hkeeps
        · exact ⟨p, hreach, ⟨hready.1, hready.2, hstop'⟩, hdown, hnow.symm, .single hkeeps⟩
      all_goals
        rw [hcooldown] at hsince
        cases hsince
  · cases hq

theorem Wf.returned {p q : Pool} (h : p.Wf) (hstep : p.step .returned = some q) : q.Wf := by
  have hq := hstep
  rw [step] at hq
  split at hq
  next n hcall =>
    obtain rfl := Option.some.inj hq
    have hcoordinator : p.coordinator.returned = p.coordinator.leavePass := by rw [CapacityCoordinator.returned, hcall]
    refine ⟨fun _ hstop => ?_, fun since hsince => ?_⟩
    · simp only [hcoordinator] at hstop ⊢
      exact p.coordinator.leavePass_signalled hstop
    · simp only [hcoordinator] at hsince
      exact (h.requested since hsince).step ⟨.returned, hstep, (fun h => by cases h), fun _ => ⟨n, hcall⟩⟩
  next n hcall =>
    obtain rfl := Option.some.inj hq
    have hcoordinator : p.coordinator.returned =
        { p.coordinator with scaleDownCooldown := p.coordinator.scaleDownCooldown.reset }.leavePass := by
      simp only [CapacityCoordinator.returned, hcall]
    refine ⟨fun _ hstop => ?_, fun since hsince => ?_⟩
    · simp only [hcoordinator] at hstop ⊢
      exact CapacityCoordinator.leavePass_signalled _ hstop
    · simp only [hcoordinator] at hsince
      cases hsince
  · cases hq

theorem Wf.raised {p q : Pool} (h : p.Wf) (hstep : p.step .raised = some q) : q.Wf := by
  have hq := hstep
  rw [step] at hq
  have hraised : q = { p with coordinator := p.coordinator.leavePass } := by
    split at hq
    · exact (Option.some.inj hq).symm
    · exact (Option.some.inj hq).symm
    · cases hq
  subst hraised
  exact h.keep hstep ⟨nofun, nofun⟩ rfl fun _ hstop => p.coordinator.leavePass_signalled hstop

theorem Wf.step {p q : Pool} (hreach : Reachable p) (h : p.Wf) (hstep : Step p q) : q.Wf := by
  obtain ⟨event, hevent⟩ := hstep
  cases event with
  | setDesiredUnitCount count =>
    obtain rfl := Option.some.inj hevent
    refine h.keep hevent ⟨nofun, nofun⟩ (by simp) ?_
    obtain hsame | hset := p.coordinator.setDesiredUnitCount_cases count
    · simp only [hsame]
      exact h.signalled
    · simp [hset]
  | wake => exact h.wake hreach hevent
  | returned => exact h.returned hevent
  | raised => exact h.raised hevent
  | unitCount count =>
    obtain rfl := Option.some.inj hevent
    exact h.keep hevent ⟨nofun, nofun⟩ rfl h.signalled
  | clock now =>
    have hq := hevent
    rw [Pool.step] at hq
    split at hq
    · obtain rfl := Option.some.inj hq
      exact h.keep hevent ⟨nofun, nofun⟩ rfl h.signalled
    · cases hq
  | cancel =>
    obtain rfl := Option.some.inj hevent
    exact h.keep hevent ⟨nofun, nofun⟩ rfl fun _ hstop => by cases hstop
  | cancelled =>
    have hq := hevent
    rw [Pool.step] at hq
    split at hq
    next hstopped =>
      obtain rfl := Option.some.inj hq
      refine h.keep hevent ⟨nofun, nofun⟩ rfl fun _ hstop => ?_
      simp [hstopped.1] at hstop
    · cases hq

theorem Initial.wf {p : Pool} (h : Initial p) : p.Wf := by
  obtain ⟨maxUnitCount, cooldown, hstarted, hcoordinator⟩ := h
  refine ⟨?_, fun since hsince => ?_⟩
  · rw [hcoordinator]
    intro hneeded
    cases hneeded
  · rw [hcoordinator] at hsince
    exact absurd (hstarted.symm.trans hsince) nofun

theorem Reachable.wf {p : Pool} (h : Reachable p) : p.Wf := by
  obtain ⟨start, hstart, hrun⟩ := h
  induction hrun with
  | refl => exact hstart.wf
  | tail hbefore hstep ih => exact ih.step ⟨start, hstart, hbefore⟩ hstep

theorem wake_eq {p q : Pool} (h : p.step .wake = some q) :
    q = { p with coordinator := p.coordinator.reconcile p.activeUnitCount p.now } := by
  rw [Pool.step] at h
  split at h
  · exact (Option.some.inj h).symm
  · cases h

/-- A call is made by a pass of a task that is not stopped. -/
theorem wake_call {p q : Pool} (h : p.step .wake = some q) {task : Reconciling}
    (htask : q.coordinator.activeReconcileTask = some task) : p.coordinator.stop = false := by
  by_contra hstop
  rw [wake_eq h, CapacityCoordinator.reconcile_stopped _ _ (Bool.not_eq_false _ ▸ hstop)] at htask
  cases htask

theorem wake_starting {p q : Pool} (h : p.step .wake = some q) {n : Int}
    (htask : q.coordinator.activeReconcileTask = some (.starting n)) :
    0 < n ∧ p.activeUnitCount + n = p.coordinator.target := by
  have hstop := wake_call h htask
  rw [wake_eq h] at htask
  obtain ⟨-, -, hnext | ⟨-, hnext⟩⟩ | ⟨-, -, hnext⟩ | ⟨hlt, -, hnext⟩ :=
    p.coordinator.reconcile_cases p.activeUnitCount p.now hstop
  all_goals cases htask.symm.trans hnext
  omega

theorem wake_stopping {p q : Pool} (h : p.step .wake = some q) {n : Int}
    (htask : q.coordinator.activeReconcileTask = some (.stopping n)) :
    0 < n ∧ p.activeUnitCount - n = p.coordinator.target ∧
      (p.coordinator.scaleDownCooldown.startIfNotRunning p.now).remainingSeconds p.now = none := by
  have hstop := wake_call h htask
  rw [wake_eq h] at htask
  obtain ⟨hgt, -, hnext | ⟨hremaining, hnext⟩⟩ | ⟨-, -, hnext⟩ | ⟨-, -, hnext⟩ :=
    p.coordinator.reconcile_cases p.activeUnitCount p.now hstop
  all_goals cases htask.symm.trans hnext
  exact ⟨by omega, by omega, hremaining⟩

theorem step_now {p q : Pool} {event : PoolEvent} (h : p.step event = some q) : p.now ≤ q.now := by
  cases event with
  | clock now =>
    rw [Pool.step] at h
    split at h
    next hle =>
      obtain rfl := Option.some.inj h
      exact hle
    · cases h
  | setDesiredUnitCount count =>
    obtain rfl := Option.some.inj h
    exact le_refl _
  | unitCount count =>
    obtain rfl := Option.some.inj h
    exact le_refl _
  | cancel =>
    obtain rfl := Option.some.inj h
    exact le_refl _
  | wake =>
    rw [wake_eq h]
  | returned =>
    rw [Pool.step] at h
    split at h
    · obtain rfl := Option.some.inj h
      exact le_refl _
    · obtain rfl := Option.some.inj h
      exact le_refl _
    · cases h
  | raised =>
    rw [Pool.step] at h
    split at h
    · obtain rfl := Option.some.inj h
      exact le_refl _
    · obtain rfl := Option.some.inj h
      exact le_refl _
    · cases h
  | cancelled =>
    rw [Pool.step] at h
    split at h
    · obtain rfl := Option.some.inj h
      exact le_refl _
    · cases h

theorem RequestedSince.le_now {p : Pool} {since : ℚ} (h : p.RequestedSince since) : since ≤ p.now := by
  obtain ⟨first, -, -, -, rfl, hrun⟩ := h
  induction hrun with
  | refl => exact le_refl _
  | tail _ hstep ih =>
    obtain ⟨event, hevent, -⟩ := hstep
    exact le_trans ih (step_now hevent)

/-- A pass waits no longer exactly once the cooldown has elapsed. -/
theorem Wf.elapsed_iff {p : Pool} (h : p.Wf) :
    p.Elapsed ↔ (p.coordinator.scaleDownCooldown.startIfNotRunning p.now).remainingSeconds p.now = none := by
  constructor
  · rintro (hzero | ⟨since, hstarted, helapsed⟩)
    · cases hstarted : p.coordinator.scaleDownCooldown.startedAt with
      | none => simp [Cooldown.startIfNotRunning, Cooldown.remainingSeconds, hzero, hstarted]
      | some since =>
        have hle := (h.requested since hstarted).le_now
        exact Cooldown.remaining_none_of_elapsed hstarted (by linarith)
    · exact Cooldown.remaining_none_of_elapsed hstarted helapsed
  · exact Cooldown.elapsed_of_remaining_none

/-- What a pass that is due does: it starts exactly the missing units, stops exactly the surplus
once the cooldown has elapsed, and else leaves the cooldown running. -/
structure Reconciles (p q : Pool) : Prop where
  starts : p.activeUnitCount < p.coordinator.target →
    q.coordinator.activeReconcileTask = some (.starting (p.coordinator.target - p.activeUnitCount))
  stops : p.ScaleDown → p.Elapsed →
    q.coordinator.activeReconcileTask = some (.stopping (p.activeUnitCount - p.coordinator.target))
  defers : p.ScaleDown → ¬p.Elapsed →
    q.coordinator.activeReconcileTask = some .waiting ∧ q.coordinator.scaleDownCooldown.isRunning = true
  rests : p.activeUnitCount = p.coordinator.target → q.coordinator.activeReconcileTask = some .waiting

theorem Triggered.wake {p : Pool} (h : p.Triggered) :
    p.step .wake = some { p with coordinator := p.coordinator.reconcile p.activeUnitCount p.now } :=
  if_pos ⟨h.1, h.2.1⟩

theorem Triggered.reconciles {p : Pool} (h : p.Triggered) (hwf : p.Wf) :
    Reconciles p { p with coordinator := p.coordinator.reconcile p.activeUnitCount p.now } := by
  have hcases := p.coordinator.reconcile_cases p.activeUnitCount p.now h.2.2
  obtain ⟨hgt, hcooldown, htask⟩ | ⟨heq, -, htask⟩ | ⟨hlt, -, htask⟩ := hcases
  · refine ⟨fun h => by omega, fun _ helapsed => ?_, fun _ helapsed => ?_, fun h => by omega⟩
    · exact CapacityCoordinator.reconcile_stopping hgt h.2.2 (hwf.elapsed_iff.mp helapsed)
    · obtain hwaiting | ⟨hremaining, -⟩ := htask
      · refine ⟨hwaiting, ?_⟩
        simp only [hcooldown]
        obtain ⟨seconds, hseconds⟩ := Option.ne_none_iff_exists'.mp (hwf.elapsed_iff.not.mp helapsed)
        exact Cooldown.isRunning_of_remaining hseconds
      · exact absurd (hwf.elapsed_iff.mpr hremaining) helapsed
  · have hdown : ¬p.ScaleDown := by rw [ScaleDown]; omega
    exact ⟨fun h => by omega, fun h => absurd h hdown, fun h => absurd h hdown, fun _ => htask⟩
  · have hdown : ¬p.ScaleDown := by rw [ScaleDown]; omega
    exact ⟨fun _ => htask, fun h => absurd h hdown, fun h => absurd h hdown, fun h => by omega⟩

/-- Whether a request sets the task going, by what it finds. -/
theorem triggered_iff {p : Pool} (h : p.Wf) (hidle : p.Idle) (hstop : p.coordinator.stop = false) (count : Int) :
    Triggered { p with coordinator := p.coordinator.setDesiredUnitCount count } ↔
      count ≠ p.coordinator.desiredUnitCount ∨ p.coordinator.scaleDownCooldown.isRunning = true ∨
        p.coordinator.reconcileNeeded = true := by
  by_cases hset : count ≠ p.coordinator.desiredUnitCount ∨ p.coordinator.scaleDownCooldown.isRunning = true
  · refine iff_of_true ?_ (or_assoc.mp (.inl hset))
    simp only [Triggered, CapacityCoordinator.setDesiredUnitCount_eq hset]
    refine ⟨?_, trivial, hstop⟩
    obtain htask | htask := hidle
    · rw [htask]
      rfl
    · rw [htask]
      rfl
  · have hsame : p.coordinator.setDesiredUnitCount count = p.coordinator := by
      push Not at hset
      exact if_pos ⟨hset.1, Bool.eq_false_iff.mpr hset.2⟩
    rw [hsame, ← or_assoc, or_iff_right hset]
    constructor
    · intro htriggered
      exact htriggered.2.1
    · intro hneeded
      have hsome := h.signalled hneeded hstop
      obtain htask | htask := hidle
      · rw [htask] at hsome
        cases hsome
      · exact ⟨htask, hneeded, hstop⟩

/-- Starts and stops stay on their side of the requested size, and a stop has waited for the whole
cooldown. A pass that is due does exactly what is missing, and a request makes one due exactly if its
count is new, the cooldown runs or one is due anyway. -/
theorem reconciliation {p : Pool} (hreach : Reachable p) :
    (∀ q n, p.step .wake = some q → q.coordinator.activeReconcileTask = some (.starting n) →
      0 < n ∧ p.activeUnitCount + n ≤ p.coordinator.target) ∧
    (∀ q n, p.step .wake = some q → q.coordinator.activeReconcileTask = some (.stopping n) →
      0 < n ∧ p.coordinator.target ≤ p.activeUnitCount - n ∧
      (p.coordinator.scaleDownCooldown.durationSeconds = 0 ∨
        ∃ since, p.RequestedSince since ∧ p.coordinator.scaleDownCooldown.durationSeconds ≤ p.now - since)) ∧
    (∀ count q, p.step (.setDesiredUnitCount count) = some q → p.Idle → p.coordinator.stop = false →
      q.activeUnitCount ≠ q.coordinator.target →
      (q.Triggered ↔ count ≠ p.coordinator.desiredUnitCount ∨ p.coordinator.scaleDownCooldown.isRunning = true ∨
        p.coordinator.reconcileNeeded = true)) ∧
    (p.Triggered → ∃ q, p.step .wake = some q ∧ Reconciles p q) := by
  have hwf := hreach.wf
  refine ⟨?_, ?_, ?_, ?_⟩
  · intro q n hstep htask
    obtain ⟨hpos, htarget⟩ := wake_starting hstep htask
    exact ⟨hpos, le_of_eq htarget⟩
  · intro q n hstep htask
    obtain ⟨hpos, htarget, hremaining⟩ := wake_stopping hstep htask
    refine ⟨hpos, ge_of_eq htarget, ?_⟩
    obtain hzero | ⟨since, hstarted, helapsed⟩ := Cooldown.elapsed_of_remaining_none hremaining
    · exact .inl hzero
    · exact .inr ⟨since, hwf.requested since hstarted, helapsed⟩
  · intro count q hstep hidle hstop _
    obtain rfl := Option.some.inj hstep
    exact triggered_iff hwf hidle hstop count
  · intro htriggered
    exact ⟨_, htriggered.wake, htriggered.reconciles hwf⟩

/-- A pool without units whose scale-downs wait for a minute. -/
def fresh : Pool where
  coordinator := .new (-1) ⟨60, none, by norm_num⟩
  activeUnitCount := 0
  now := 0

def asked : Pool := { fresh with coordinator := fresh.coordinator.setDesiredUnitCount 1 }

theorem reachable_fresh : Reachable fresh := ⟨fresh, ⟨-1, _, rfl, rfl⟩, .refl⟩

theorem reachable_asked : Reachable asked := ⟨fresh, ⟨-1, _, rfl, rfl⟩, .single ⟨.setDesiredUnitCount 1, rfl⟩⟩

/-- The first request makes a pass due, and that pass starts the one unit. -/
theorem reconciliation_fresh : asked.Triggered ∧
    ∃ q, asked.step .wake = some q ∧ q.coordinator.activeReconcileTask = some (.starting 1) := by
  obtain ⟨-, -, hasked, -⟩ := reconciliation reachable_fresh
  have htriggered : asked.Triggered := (hasked 1 asked rfl (.inl rfl) rfl (by decide)).mpr (.inl (by decide))
  obtain ⟨-, -, -, hpass⟩ := reconciliation reachable_asked
  obtain ⟨q, hq, hreconciles⟩ := hpass htriggered
  exact ⟨htriggered, q, hq, hreconciles.starts (by decide)⟩

/-- The start of the only unit raises; the same count, asked for again, starts no pass. -/
theorem failed_start_not_retried :
    ∃ waking starting failed again, fresh.step (.setDesiredUnitCount 1) = some waking ∧
      waking.step .wake = some starting ∧ starting.coordinator.activeReconcileTask = some (.starting 1) ∧
      starting.step .raised = some failed ∧ failed.Idle ∧ failed.coordinator.stop = false ∧
      failed.step (.setDesiredUnitCount 1) = some again ∧ again.activeUnitCount ≠ again.coordinator.target ∧
      ¬again.Triggered := by
  refine ⟨_, _, _, _, rfl, rfl, rfl, rfl, .inr rfl, rfl, rfl, ?_, ?_⟩
  · decide
  · rintro ⟨-, hneeded, -⟩
    cases hneeded

end Pool

end Adapter

end Scaler
