import Mathlib.Algebra.Order.Ring.Rat
import Mathlib.Logic.Relation
import Mathlib.Tactic.Linarith

/-! `CapacityCoordinator`: a task that compares the requested number of units with the live one
whenever it is signalled. A scale-down waits for a `Cooldown`. -/

namespace Scaler

namespace Adapter

/-- A timer that `0` disables. Seconds are those of the monotonic clock. -/
structure Cooldown where
  durationSeconds : ℚ
  startedAt : Option ℚ
  nonneg : 0 ≤ durationSeconds

namespace Cooldown

/-- A negative duration is refused. -/
def new (durationSeconds : ℚ) : Option Cooldown :=
  if h : 0 ≤ durationSeconds then some ⟨durationSeconds, none, h⟩ else none

variable (c : Cooldown)

def startIfNotRunning (now : ℚ) : Cooldown :=
  if c.durationSeconds = 0 then c
  else
    match c.startedAt with
    | none => { c with startedAt := some now }
    | some _ => c

def reset : Cooldown := { c with startedAt := none }

/-- Nothing if disabled, not running or elapsed. -/
def remainingSeconds (now : ℚ) : Option ℚ :=
  match c.startedAt with
  | none => none
  | some startedAt =>
    let remaining := c.durationSeconds - (now - startedAt)
    if 0 < remaining then some remaining else none

def isRunning : Bool := c.startedAt.isSome

@[simp] theorem reset_durationSeconds : c.reset.durationSeconds = c.durationSeconds := rfl

@[simp] theorem reset_startedAt : c.reset.startedAt = none := rfl

@[simp] theorem startIfNotRunning_durationSeconds (now : ℚ) :
    (c.startIfNotRunning now).durationSeconds = c.durationSeconds := by
  rw [startIfNotRunning]
  split
  · rfl
  · split <;> rfl

end Cooldown

/-- Where `_reconcile` is: at the event, or in a call that has not returned. -/
inductive Reconciling
  | waiting
  | starting (count : Int)
  | stopping (count : Int)
  deriving DecidableEq

structure CapacityCoordinator where
  maxUnitCount : Int
  scaleDownCooldown : Cooldown
  desiredUnitCount : Int
  activeReconcileTask : Option Reconciling
  reconcileNeeded : Bool
  stop : Bool

namespace CapacityCoordinator

def new (maxUnitCount : Int) (scaleDownCooldown : Cooldown) : CapacityCoordinator where
  maxUnitCount
  scaleDownCooldown
  desiredUnitCount := 0
  activeReconcileTask := none
  reconcileNeeded := false
  stop := false

variable (c : CapacityCoordinator)

def setDesiredUnitCount (count : Int) : CapacityCoordinator :=
  if count = c.desiredUnitCount ∧ c.scaleDownCooldown.isRunning = false then c
  else
    { c with
      desiredUnitCount := count
      reconcileNeeded := true
      activeReconcileTask := some (c.activeReconcileTask.getD .waiting) }

/-- The task is canceled when it runs next. -/
def cancel : CapacityCoordinator := { c with stop := true, reconcileNeeded := true }

/-- What a pass adds to the live units. -/
def delta (current : Int) : Int :=
  if c.maxUnitCount = -1 then c.desiredUnitCount - current
  else min (c.desiredUnitCount - current) (c.maxUnitCount - current)

/-- The loop of `_reconcile` from where the event is found set to its next `await`. -/
def reconcile (current : Int) (now : ℚ) : CapacityCoordinator :=
  if c.stop then { c with reconcileNeeded := false, activeReconcileTask := none }
  else
    let delta := c.delta current
    if 0 ≤ delta then
      { c with
        reconcileNeeded := false
        scaleDownCooldown := c.scaleDownCooldown.reset
        activeReconcileTask := some (if 0 < delta then .starting delta else .waiting) }
    else
      let cooldown := c.scaleDownCooldown.startIfNotRunning now
      { c with
        reconcileNeeded := false
        scaleDownCooldown := cooldown
        activeReconcileTask := some
          (match cooldown.remainingSeconds now with
          | some _ => .waiting
          | none => .stopping (-delta)) }

/-- The rest of a pass after its call. -/
def leavePass : CapacityCoordinator := { c with activeReconcileTask := if c.stop then none else some .waiting }

def returned : CapacityCoordinator :=
  match c.activeReconcileTask with
  | some (.stopping _) => { c with scaleDownCooldown := c.scaleDownCooldown.reset }.leavePass
  | _ => c.leavePass

/-- An exception of the call is logged. -/
def raised : CapacityCoordinator := c.leavePass

/-- The requested number of units, capped. -/
def target : Int := if c.maxUnitCount = -1 then c.desiredUnitCount else min c.desiredUnitCount c.maxUnitCount

theorem delta_eq (current : Int) : c.delta current = c.target - current := by
  rw [delta, target]
  split
  · rfl
  · omega

end CapacityCoordinator

/-- The coordinator with the units it counts and the clock it reads. -/
structure Pool where
  coordinator : CapacityCoordinator
  activeUnitCount : Nat
  now : ℚ

inductive PoolEvent
  | setDesiredUnitCount (count : Int)
  /-- The task finds its event set. -/
  | wake
  /-- `start_units` or `stop_units` returns. -/
  | returned
  | raised
  | unitCount (count : Nat)
  | clock (now : ℚ)
  | cancel
  /-- The task ends with a `CancelledError`. -/
  | cancelled

namespace Pool

variable (p : Pool)

def step : PoolEvent → Option Pool
  | .setDesiredUnitCount count => some { p with coordinator := p.coordinator.setDesiredUnitCount count }
  | .wake =>
    if p.coordinator.activeReconcileTask = some .waiting ∧ p.coordinator.reconcileNeeded then
      some { p with coordinator := p.coordinator.reconcile p.activeUnitCount p.now }
    else none
  | .returned =>
    match p.coordinator.activeReconcileTask with
    | some (.starting _) | some (.stopping _) => some { p with coordinator := p.coordinator.returned }
    | _ => none
  | .raised =>
    match p.coordinator.activeReconcileTask with
    | some (.starting _) | some (.stopping _) => some { p with coordinator := p.coordinator.raised }
    | _ => none
  | .unitCount count => some { p with activeUnitCount := count }
  | .clock now => if p.now ≤ now then some { p with now } else none
  | .cancel => some { p with coordinator := p.coordinator.cancel }
  | .cancelled =>
    if p.coordinator.stop ∧ p.coordinator.activeReconcileTask.isSome then
      some { p with coordinator := { p.coordinator with activeReconcileTask := none } }
    else none

end Pool

end Adapter

end Scaler
