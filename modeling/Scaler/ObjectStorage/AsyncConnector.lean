import Scaler.ObjectStorage.SyncConnector

/-! `YMQAsyncObjectStorageConnector`. Callers are coroutines of one event loop: each runs to
its next `await`, and `routine` reads the responses. A message is handed to the socket at
once and counts as received then; the server takes its time anyway. -/

namespace Scaler.ObjectStorage

open Collections

abbrev CallerId := Nat

inductive FutureState where
  | pending
  | result (payload : ObjectPayload)
  | cancelled
  deriving DecidableEq, Repr

/-- A future of `_pending_get_requests`, with the request that was made for it. -/
structure GetFuture where
  objectID : ObjectID
  maxPayloadLength : UInt64
  state : FutureState
  deriving DecidableEq, Repr

inductive AsyncOutcome where
  | nothing
  | payload (bytes : ObjectPayload)
  | cancelled
  | raised (exn : StorageExn)
  deriving DecidableEq, Repr

/-- `sending` is the whole of `__send_request`. -/
inductive CallPhase where
  | sending
  | awaiting
  | done (outcome : AsyncOutcome)
  deriving DecidableEq, Repr

/-- A caller; a future has the name of the caller that made it. `cancelRequested` is what
its task was told. -/
structure AsyncCall where
  call : StorageCall
  future : CallerId
  phase : CallPhase
  cancelRequested : Bool
  deriving DecidableEq, Repr

/-- A request at the lock, or the one that holds it, and the payload it still has to send. -/
structure Transmission where
  caller : CallerId
  header : ObjectRequestHeader
  payload : Option ObjectPayload
  deriving DecidableEq, Repr

inductive RoutinePhase where
  | idle
  | readingHeader
  | readingPayload (response : ObjectResponseHeader)
  deriving DecidableEq, Repr

inductive RoutineError where
  | invalidState
  | storage (exn : StorageExn)
  deriving DecidableEq, Repr

structure AsyncConnector where
  identity : Identity
  nextRequestId : Nat
  socket : Bool
  calls : Dict CallerId AsyncCall
  futures : Dict CallerId GetFuture
  pendingGetRequests : Dict ObjectID CallerId
  holder : Option Transmission
  waiters : List Transmission
  routine : RoutinePhase
  errors : List RoutineError
  link : Link

inductive AsyncEvent where
  | call (g : CallerId) (c : StorageCall)
  | acquire
  | sent
  | sendFailed
  | cancel (g : CallerId)
  | wake (g : CallerId)
  | routine
  | receive
  | receiveFailed
  | serverAnswers (k : Nat) (info : ObjectPayload)
  | othersChange (held : ObjectMap)

namespace AsyncConnector

variable (wire : Wire)

def start (identity : Identity) (held : ObjectMap) : AsyncConnector :=
  ⟨identity, 0, true, Dict.empty, Dict.empty, Dict.empty, none, [], .idle, [],
    { Link.empty with held := held }⟩

def setPhase (s : AsyncConnector) (g : CallerId) (phase : CallPhase) : AsyncConnector :=
  match s.calls.get? g with
  | none => s
  | some e => { s with calls := s.calls.set g { e with phase := phase } }

def setFuture (s : AsyncConnector) (f : CallerId) (state : FutureState) : AsyncConnector :=
  match s.futures.get? f with
  | none => s
  | some r => { s with futures := s.futures.set f { r with state := state } }

/-- The lock is taken: `__write_request_header`. -/
def startSend (s : AsyncConnector) (t : Transmission) : AsyncConnector :=
  if s.socket then
    { s with holder := some t, link := s.link.deliver wire s.identity (wire.request t.header) true }
  else s.setPhase t.caller (.done (.raised .assertionError))

/-- `__send_request` up to its first `await`. -/
def sendRequest (s : AsyncConnector) (g : CallerId) (c : StorageCall) : AsyncConnector :=
  if !s.socket then s.setPhase g (.done (.raised .closed))
  else
    let header := c.header wire (.ofNat s.nextRequestId)
    let s := { s with nextRequestId := (s.nextRequestId + 1) % (2 ^ 64 - 1) }
    if ∃ payload ∈ c.payload wire, 2 ^ 64 ≤ payload.length then
      s.setPhase g (.done (.raised .overflow))
    else
      let t : Transmission := ⟨g, header, c.payload wire⟩
      match s.holder, s.waiters with
      | none, [] => s.startSend wire t
      | _, waiters => { s with waiters := waiters ++ [t] }

/-- The beginning of `get_object`, or of one of the other requests. -/
def beginCall (s : AsyncConnector) (g : CallerId) (c : StorageCall) : AsyncConnector :=
  if s.calls.contains g then s
  else
    match c with
    | .getObject id maxPayloadLength =>
      match s.pendingGetRequests.get? id with
      | some f => { s with calls := s.calls.set g ⟨c, f, .awaiting, false⟩ }
      | none =>
        { s with
          calls := s.calls.set g ⟨c, g, .sending, false⟩
          futures := s.futures.set g ⟨id, maxPayloadLength, .pending⟩
          pendingGetRequests := s.pendingGetRequests.set id g }.sendRequest wire g c
    | _ => { s with calls := s.calls.set g ⟨c, g, .sending, false⟩ }.sendRequest wire g c

/-- What a caller does when its request is sent. -/
def afterSend (s : AsyncConnector) (g : CallerId) : AsyncConnector :=
  match s.calls.get? g with
  | none => s
  | some e =>
    match e.call with
    | .getObject _ _ => s.setPhase g .awaiting
    | _ => s.setPhase g (.done .nothing)

/-- The socket took the message of the request that holds the lock. -/
def onSent (s : AsyncConnector) : AsyncConnector :=
  match s.holder with
  | none => s
  | some t =>
    match t.payload with
    | none => { s with holder := none }.afterSend t.caller
    | some payload =>
      if s.socket then
        { s with
          holder := some { t with payload := none }
          link := s.link.deliver wire s.identity payload false }
      else { s with holder := none }.setPhase t.caller (.done (.raised .assertionError))

/-- `Task.cancel`: the exception is thrown at the `await`, and a future that is awaited is
cancelled itself. -/
def cancel (s : AsyncConnector) (g : CallerId) : AsyncConnector :=
  match s.calls.get? g with
  | none => s
  | some e =>
    let s' := { s with calls := s.calls.set g { e with phase := .done .cancelled, cancelRequested := true } }
    match e.phase with
    | .done _ => s
    | .sending =>
      { s' with
        waiters := s.waiters.filter fun t => t.caller ≠ g
        holder := s.holder.filter fun t => t.caller ≠ g }
    | .awaiting =>
      match s.futures.get? e.future with
      | some ⟨_, _, .pending⟩ => s'.setFuture e.future .cancelled
      | _ => s'

/-- A caller is resumed when the future it awaits is done. -/
def wake (s : AsyncConnector) (g : CallerId) : AsyncConnector :=
  match s.calls.get? g with
  | some ⟨_, f, .awaiting, _⟩ =>
    match s.futures.get? f with
    | some ⟨_, _, .result payload⟩ => s.setPhase g (.done (.payload payload))
    | some ⟨_, _, .cancelled⟩ => s.setPhase g (.done .cancelled)
    | _ => s
  | _ => s

def raise (s : AsyncConnector) (e : RoutineError) : AsyncConnector :=
  { s with routine := .idle, errors := s.errors ++ [e] }

/-- The rest of `routine` once a whole response was read. -/
def onResponse (s : AsyncConnector) (response : ObjectResponseHeader) (payload : ObjectPayload) :
    AsyncConnector :=
  let s := { s with routine := .idle }
  if response.responseType ≠ .getOK then s
  else
    match s.pendingGetRequests.get? response.objectID with
    | none => s
    | some f =>
      let s := { s with pendingGetRequests := s.pendingGetRequests.erase response.objectID }
      match s.futures.get? f with
      | some ⟨_, _, .pending⟩ => s.setFuture f (.result payload)
      | _ => s.raise .invalidState

def receive (s : AsyncConnector) : AsyncConnector :=
  match s.routine, s.link.frames with
  | .readingHeader, frame :: frames =>
    let s := { s with link := { s.link with frames := frames } }
    if frame.length ≠ capnpHeaderSize then s.raise (.storage .assertionError)
    else
      match wire.readResponse frame with
      | none => s.raise (.storage .malformed)
      | some response =>
        if !s.socket then s.raise (.storage .assertionError)
        else if 0 < response.payloadLength then { s with routine := .readingPayload response }
        else s.onResponse response []
  | .readingPayload response, frame :: frames =>
    let s := { s with link := { s.link with frames := frames } }
    if frame.length = response.payloadLength then s.onResponse response frame
    else s.raise (.storage .assertionError)
  | _, _ => s

def step (s : AsyncConnector) : AsyncEvent → AsyncConnector
  | .call g c => s.beginCall wire g c
  | .acquire =>
    match s.holder, s.waiters with
    | none, t :: waiters => { s with waiters := waiters }.startSend wire t
    | _, _ => s
  | .sent => s.onSent wire
  | .sendFailed =>
    match s.holder with
    | none => s
    | some t =>
      { s with socket := false, holder := none }.setPhase t.caller (.done (.raised .connectionFailure))
  | .cancel g => s.cancel g
  | .wake g => s.wake g
  | .routine => if s.routine = .idle ∧ s.socket = true then { s with routine := .readingHeader } else s
  | .receive => s.receive wire
  | .receiveFailed =>
    match s.routine with
    | .idle => s
    | _ => { s with socket := false }.raise (.storage .connectionFailure)
  | .serverAnswers k info => { s with link := s.link.answer wire k info }
  | .othersChange held => { s with link := { s.link with held := held } }

end AsyncConnector

end Scaler.ObjectStorage
