import Scaler.Collections.Ledger

/-! `ORBWorkerProvisioner` and `OCIRawWorkerProvisioner`: from one `await` to the next of
`start_units` and `stop_units`, by what the service answers. -/

namespace Scaler

open Collections

namespace Adapter

abbrev MachineID := String

namespace ORB

/-- The first of the requests in an answer of `get_request_status`. -/
structure RequestStatus where
  status : List Char
  machineIds : List MachineID

/-- The `await` that a call of `start_units` or `stop_units` is at. -/
inductive Call
  | createRequest (count : Nat)
  | sleep (requestId : String) (count elapsed : Nat)
  | getRequestStatus (requestId : String) (count elapsed : Nat)
  | createReturnRequest (count : Nat) (unitIds : List MachineID)
  deriving DecidableEq

/-- The units, the call in progress, and what the service has told: the identifiers it has ever
reported, those of the request that is polled, and those whose return it has accepted. -/
structure WorkerProvisioner where
  units : List MachineID
  call : Option Call
  reported : List MachineID
  polled : List MachineID
  returned : List MachineID

inductive Event
  | startUnits (count : Nat)
  | stopUnits (count : Nat)
  | createRequest (createdRequestId : Option String)
  | slept
  | getRequestStatus (request : Option RequestStatus)
  | createReturnRequest
  /-- A call of the service raises. -/
  | raised
  /-- The task is canceled where it waits. -/
  | cancelled

def pollingIntervalSeconds : Nat := 5

def maxPollingAttempts : Nat := 60

def timeoutSeconds : Nat := maxPollingAttempts * pollingIntervalSeconds

def terminalStatuses : List (List Char) :=
  ["failed".toList, "error".toList, "cancelled".toList, "canceled".toList]

namespace WorkerProvisioner

def new : WorkerProvisioner := ⟨[], none, [], [], []⟩

variable (p : WorkerProvisioner)

def activeUnitCount : Nat := p.units.length

/-- The call ends, by a return or by an exception. -/
def leave : WorkerProvisioner := { p with call := none, polled := [] }

/-- The head of the polling loop, with the `TimeoutError` after it. -/
def poll (requestId : String) (count elapsed : Nat) : WorkerProvisioner :=
  if elapsed < timeoutSeconds then { p with call := some (.sleep requestId count elapsed) } else p.leave

/-- The body of the polling loop after the answer. -/
def onRequestStatus (requestId : String) (count elapsed : Nat) : Option RequestStatus → WorkerProvisioner
  | none => p.poll requestId count elapsed
  | some ⟨status, machineIds⟩ =>
    let p := { p with reported := p.reported ++ machineIds, polled := p.polled ++ machineIds }
    if count ≤ machineIds.length then { p with units := p.units ++ machineIds }.leave
    else if status.map Char.toLower ∈ terminalStatuses then p.leave
    else p.poll requestId count elapsed

def step (event : Event) : Option WorkerProvisioner :=
  match p.call, event with
  | none, .startUnits count => some { p with call := some (.createRequest count) }
  | none, .stopUnits count =>
    match p.units.take count with
    | [] => some p
    | unitId :: unitIds => some { p with call := some (.createReturnRequest count (unitId :: unitIds)) }
  | some (.createRequest count), .createRequest createdRequestId =>
    match createdRequestId with
    | none | some "" => some p.leave
    | some requestId => some (p.poll requestId count 0)
  | some (.sleep requestId count elapsed), .slept =>
    some { p with call := some (.getRequestStatus requestId count (elapsed + pollingIntervalSeconds)) }
  | some (.getRequestStatus requestId count elapsed), .getRequestStatus request =>
    some (p.onRequestStatus requestId count elapsed request)
  | some (.createReturnRequest count unitIds), .createReturnRequest =>
    some { p with units := p.units.drop count, returned := p.returned ++ unitIds }.leave
  | some (.createRequest _), .raised => some p.leave
  | some (.getRequestStatus _ _ _), .raised => some p.leave
  | some (.createReturnRequest _ _), .raised => some p.leave
  | some _, .cancelled => some p.leave
  | _, _ => none

/-- The identifiers in the return request of `terminate`. -/
def terminate : List MachineID := p.units

end WorkerProvisioner

end ORB

namespace OCIRaw

/-- The `await` of `_start_instance`. -/
inductive Starting
  | create
  | sleep (instanceId : MachineID) (attempts : Nat)
  | get (instanceId : MachineID) (attempts : Nat)
  | delete (instanceId : MachineID)
  deriving DecidableEq

/-- A start with the number of instances after the present one, or a stop with the instances that
are left, the first of them being deleted. -/
inductive Call
  | startUnits (more : Nat) (starting : Starting)
  | stopUnits (toStop : List MachineID)
  deriving DecidableEq

/-- The instances, the call in progress, what the service has told, and the requests that the
executor's threads still make for calls that were canceled: creations, and deletions of instances. -/
structure WorkerProvisioner where
  instances : List MachineID
  call : Option Call
  reported : List MachineID
  deleted : List MachineID
  creating : Nat
  deleting : List MachineID

inductive Event
  | startUnits (count : Nat)
  | stopUnits (count : Nat)
  | create (instanceId : MachineID)
  | get (lifecycleState : String)
  /-- A `ServiceError` of the call. -/
  | serviceError
  | slept
  | delete
  /-- An error of a delete, which is logged. -/
  | deleteFailed
  /-- Another exception of a call to create or to get. -/
  | raised
  | cancelled
  /-- The answer to a request whose call was canceled. -/
  | lateCreate (instanceId : MachineID)
  | lateDelete (instanceId : MachineID)
  /-- Such a request fails, or its thread never started. -/
  | createLost
  | deleteLost (instanceId : MachineID)

def maxPollAttempts : Nat := 30

namespace WorkerProvisioner

def new : WorkerProvisioner := ⟨[], none, [], [], 0, []⟩

variable (p : WorkerProvisioner)

def activeUnitCount : Nat := p.instances.length

def leave : WorkerProvisioner := { p with call := none }

/-- The head of the loop of `start_units`. -/
def startNext : Nat → WorkerProvisioner
  | 0 => p.leave
  | more + 1 => { p with call := some (.startUnits more .create) }

/-- The head of the polling loop, with the deletion after it. -/
def poll (more : Nat) (instanceId : MachineID) : Nat → WorkerProvisioner
  | 0 => { p with call := some (.startUnits more (.delete instanceId)) }
  | attempts + 1 => { p with call := some (.startUnits more (.sleep instanceId attempts)) }

/-- The head of the loop of `stop_units`. -/
def stopNext : List MachineID → WorkerProvisioner
  | [] => p.leave
  | instanceId :: toStop => { p with call := some (.stopUnits (instanceId :: toStop)) }

/-- A canceled call leaves its request to the thread that makes it. -/
def abandon : Call → WorkerProvisioner
  | .startUnits _ .create => { p with creating := p.creating + 1 }
  | .startUnits _ (.delete instanceId) => { p with deleting := p.deleting ++ [instanceId] }
  | .stopUnits (instanceId :: _) => { p with deleting := p.deleting ++ [instanceId] }
  | _ => p

def step (event : Event) : Option WorkerProvisioner :=
  match p.call, event with
  | none, .startUnits count => some (p.startNext count)
  | none, .stopUnits count =>
    some ({ p with instances := p.instances.drop count }.stopNext (p.instances.take count))
  | some (.startUnits more .create), .create instanceId =>
    some ({ p with reported := p.reported ++ [instanceId] }.poll more instanceId maxPollAttempts)
  | some (.startUnits more .create), .serviceError => some (p.startNext more)
  | some (.startUnits _ .create), .raised => some p.leave
  | some (.startUnits more (.sleep instanceId attempts)), .slept =>
    some { p with call := some (.startUnits more (.get instanceId attempts)) }
  | some (.startUnits more (.get instanceId attempts)), .get lifecycleState =>
    if lifecycleState = "ACTIVE" then some ({ p with instances := p.instances ++ [instanceId] }.startNext more)
    else if lifecycleState = "FAILED" then some { p with call := some (.startUnits more (.delete instanceId)) }
    else some (p.poll more instanceId attempts)
  | some (.startUnits more (.get instanceId _)), .serviceError =>
    some { p with call := some (.startUnits more (.delete instanceId)) }
  | some (.startUnits _ (.get _ _)), .raised => some p.leave
  | some (.startUnits more (.delete instanceId)), .delete =>
    some ({ p with deleted := p.deleted ++ [instanceId] }.startNext more)
  | some (.startUnits more (.delete _)), .deleteFailed => some (p.startNext more)
  | some (.stopUnits (instanceId :: toStop)), .delete =>
    some ({ p with deleted := p.deleted ++ [instanceId] }.stopNext toStop)
  | some (.stopUnits (_ :: toStop)), .deleteFailed => some (p.stopNext toStop)
  | some call, .cancelled => some (p.abandon call).leave
  | _, .lateCreate instanceId =>
    if 0 < p.creating then some { p with creating := p.creating - 1, reported := p.reported ++ [instanceId] }
    else none
  | _, .lateDelete instanceId =>
    if instanceId ∈ p.deleting then
      some { p with deleting := p.deleting.erase instanceId, deleted := p.deleted ++ [instanceId] }
    else none
  | _, .createLost => if 0 < p.creating then some { p with creating := p.creating - 1 } else none
  | _, .deleteLost instanceId =>
    if instanceId ∈ p.deleting then some { p with deleting := p.deleting.erase instanceId } else none
  | _, _ => none

/-- The instances that `terminate` asks to delete, in this order. -/
def terminate : List MachineID := p.instances

end WorkerProvisioner

end OCIRaw

end Adapter

end Scaler
