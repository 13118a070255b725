import Scaler.Protocol

/-! `ScalerFuture` of `client/future.py`. Every operation runs under the condition of the
future, so it is one step; blocking on the condition is not a step. What the future does to
others (the callbacks it calls, the waiters it notifies, the fetches it starts and the
messages it sends) is recorded in the order in which it happens. -/

namespace Scaler

/-- What the client side raises. -/
inductive ClientExn where
  | invalidStateError
  | valueError
  deriving DecidableEq, Repr

/-- The states of `concurrent.futures.Future`. -/
inductive FutureState where
  | pending
  | running
  | cancelled
  | cancelledAndNotified
  | finished
  deriving DecidableEq, Repr

structure Callback where
  id : Nat
  deriving DecidableEq, Repr

structure Waiter where
  id : Nat
  deriving DecidableEq, Repr

/-- Which method of a waiter is called. -/
inductive Notice where
  | addCancelled
  | addException
  | addResult
  deriving DecidableEq, Repr

/-- The future of the object that is being fetched; `isException` is kept by its callback. -/
structure FetchFuture where
  isException : Bool
  done : Bool
  deriving DecidableEq, Repr

/-- The arguments of `fetch_object`. -/
structure FetchRequest where
  objectId : ObjectID
  isException : Bool
  deleteAfterFetch : Bool
  deriving DecidableEq, Repr

/-- `Obj` stands for the Python objects that are results, exceptions and profiling results. -/
structure ScalerFuture (Obj : Type) where
  taskId : TaskID
  isDelayed : Bool
  groupTaskId : Option TaskID
  state : FutureState
  result : Option Obj
  exception : Option Obj
  doneCallbacks : List Callback
  waiters : List Waiter
  resultObjectId : Option ObjectID
  resultReceived : Bool
  resultObjectFuture : Option FetchFuture
  taskResultType : Option TaskResultType
  cancelRequested : Bool
  profilingInfo : Option Obj
  -- what others have seen of the future
  invoked : List Callback
  calledAtOnce : List Callback
  notified : List (Waiter × Notice)
  fetched : List FetchRequest
  sent : List TaskCancel

namespace ScalerFuture

variable {Obj : Type}

/-- `set_running_or_notify_cancel` has put a new future into the state `RUNNING`. -/
def create (taskId : TaskID) (isDelayed : Bool) (groupTaskId : Option TaskID) : ScalerFuture Obj where
  taskId := taskId
  isDelayed := isDelayed
  groupTaskId := groupTaskId
  state := .running
  result := none
  exception := none
  doneCallbacks := []
  waiters := []
  resultObjectId := none
  resultReceived := false
  resultObjectFuture := none
  taskResultType := none
  cancelRequested := false
  profilingInfo := none
  invoked := []
  calledAtOnce := []
  notified := []
  fetched := []
  sent := []

def cancelled (f : ScalerFuture Obj) : Bool :=
  match f.state with
  | .cancelled | .cancelledAndNotified => true
  | .pending | .running | .finished => false

def done (f : ScalerFuture Obj) : Bool :=
  match f.state with
  | .cancelled | .cancelledAndNotified | .finished => true
  | .pending | .running => false

def hasResultListeners (f : ScalerFuture Obj) : Bool :=
  0 < f.doneCallbacks.length || 0 < f.waiters.length

def isSimpleTask (f : ScalerFuture Obj) : Bool := f.groupTaskId.isNone

/-- `_invoke_callbacks` of the base class: the list of callbacks is kept. -/
def invokeCallbacks (f : ScalerFuture Obj) : ScalerFuture Obj :=
  { f with invoked := f.invoked ++ f.doneCallbacks }

def notifyWaiters (f : ScalerFuture Obj) (notice : Notice) : ScalerFuture Obj :=
  { f with notified := f.notified ++ f.waiters.map fun w => (w, notice) }

/-- Whether the result object of a task holds an exception. -/
def holdsException : TaskResultType → Bool
  | .success => false
  | .failed | .failedWorkerDied => true

/-- `_start_result_object_fetch`; the assertion holds because `set_result_ready` is the only
place that sets an object id, and it sets the type with it. -/
def startResultObjectFetch (f : ScalerFuture Obj) : ScalerFuture Obj :=
  match f.resultObjectId, f.taskResultType with
  | some objectId, some taskResultType =>
    if f.cancelled || f.resultReceived || f.resultObjectFuture.isSome then f
    else
      let isException := holdsException taskResultType
      { f with
        resultObjectFuture := some ⟨isException, false⟩
        fetched := f.fetched ++ [⟨objectId, isException, f.isSimpleTask⟩] }
  | _, _ => f

def setResultReady (f : ScalerFuture Obj) (objectId : Option ObjectID)
    (taskResultType : TaskResultType) (profileResult : Option Obj) :
    Except ClientExn (ScalerFuture Obj) :=
  if f.done then .error .invalidStateError
  else
    let f := { f with
      state := .finished
      resultObjectId := objectId
      taskResultType := some taskResultType
      profilingInfo := profileResult <|> f.profilingInfo }
    .ok (if !f.isDelayed || f.hasResultListeners then f.startResultObjectFetch else f)

/-- The body that `set_canceled` and `force_set_canceled` share after their guards. -/
def markCanceled (f : ScalerFuture Obj) : ScalerFuture Obj :=
  let f := { f with state := .cancelledAndNotified, resultReceived := true, cancelRequested := true }
  (f.notifyWaiters .addCancelled).invokeCallbacks

def setCanceled (f : ScalerFuture Obj) : ScalerFuture Obj := if f.done then f else f.markCanceled

def forceSetCanceled (f : ScalerFuture Obj) : ScalerFuture Obj :=
  if f.cancelled then f else f.markCanceled

def setResultOrException (f : ScalerFuture Obj) (result exception profilingInfo : Option Obj) :
    Except ClientExn (ScalerFuture Obj) :=
  if f.cancelled || f.resultReceived then .error .invalidStateError
  else if profilingInfo.isSome && f.profilingInfo.isSome then .error .invalidStateError
  else
    let f := { f with
      profilingInfo := profilingInfo <|> f.profilingInfo
      state := .finished
      resultReceived := true }
    let f := match exception with
      | some e => ({ f with exception := some e }).notifyWaiters .addException
      | none => ({ f with result := result }).notifyWaiters .addResult
    .ok f.invokeCallbacks

def setException (f : ScalerFuture Obj) (exception profilingInfo : Option Obj) :
    Except ClientExn (ScalerFuture Obj) := f.setResultOrException none exception profilingInfo

def setResult (f : ScalerFuture Obj) (result profilingInfo : Option Obj) :
    Except ClientExn (ScalerFuture Obj) := f.setResultOrException result none profilingInfo

/-- `cancel` up to the point where it waits for the answer. -/
def cancel (f : ScalerFuture Obj) : ScalerFuture Obj :=
  if f.cancelled || f.done || f.cancelRequested then f
  else { f with sent := f.sent ++ [⟨f.groupTaskId.getD f.taskId, true⟩], cancelRequested := true }

def addDoneCallback (f : ScalerFuture Obj) (c : Callback) : ScalerFuture Obj :=
  if f.done then
    let f := f.startResultObjectFetch
    { f with calledAtOnce := f.calledAtOnce ++ [c] }
  else { f with doneCallbacks := f.doneCallbacks ++ [c] }

/-- `_waiters.append`, which calls `_on_waiters_updated`. -/
def addWaiter (f : ScalerFuture Obj) (w : Waiter) : ScalerFuture Obj :=
  let f := { f with waiters := f.waiters ++ [w] }
  if f.isDelayed then f.startResultObjectFetch else f

/-- `_wait_result_object`, which `result()` and `exception()` call, once the future is done. -/
def waitResultObject (f : ScalerFuture Obj) : ScalerFuture Obj :=
  if f.done && f.isDelayed then f.startResultObjectFetch else f

/-- What `__on_result_object_fetched` does with the outcome of the fetch: an object that could
not be fetched is replaced by the exception. -/
def acceptFetched (f : ScalerFuture Obj) (isException : Bool) :
    Except Obj Obj → Except ClientExn (ScalerFuture Obj)
  | .error e => f.setException (some e) none
  | .ok o => if isException then f.setException (some o) none else f.setResult (some o) none

/-- `__on_result_object_fetched`; a future that was settled in the meantime stays as it is.
Without a fetch under way there is nothing to complete. -/
def onResultObjectFetched (f : ScalerFuture Obj) (object : Except Obj Obj) : ScalerFuture Obj :=
  match f.resultObjectFuture with
  | some ⟨isException, false⟩ =>
    let f := { f with resultObjectFuture := some ⟨isException, true⟩ }
    ((f.acceptFetched isException object).toOption).getD f
  | _ => f

end ScalerFuture

/-- The operations on one future. -/
inductive FutureOp (Obj : Type) where
  | setResultReady (objectId : Option ObjectID) (taskResultType : TaskResultType)
      (profileResult : Option Obj)
  | resultObjectFetched (object : Except Obj Obj)
  | setCanceled
  | setException (exception profilingInfo : Option Obj)
  | setResult (result profilingInfo : Option Obj)
  | cancel
  | addDoneCallback (c : Callback)
  | addWaiter (w : Waiter)
  | waitResultObject
  | forceSetCanceled

/-- An operation that raises leaves the future as it was. -/
def ScalerFuture.step {Obj : Type} (f : ScalerFuture Obj) : FutureOp Obj → ScalerFuture Obj
  | .setResultReady objectId taskResultType profileResult =>
    ((f.setResultReady objectId taskResultType profileResult).toOption).getD f
  | .resultObjectFetched object => f.onResultObjectFetched object
  | .setCanceled => f.setCanceled
  | .setException exception profilingInfo => ((f.setException exception profilingInfo).toOption).getD f
  | .setResult result profilingInfo => ((f.setResult result profilingInfo).toOption).getD f
  | .cancel => f.cancel
  | .addDoneCallback c => f.addDoneCallback c
  | .addWaiter w => f.addWaiter w
  | .waitResultObject => f.waitResultObject
  | .forceSetCanceled => f.forceSetCanceled

end Scaler
