import Scaler.Collections.Outcome
import Scaler.ObjectStorage.Link

/-! `YMQSyncObjectStorageConnector`. A call holds the lock from its first message to the last
one of the response, so calls follow each other; the server and the network act in between.
Every message may fail to be sent or received, and the socket reconnects by itself. -/

namespace Scaler.ObjectStorage

open Collections

inductive StorageCall where
  | setObject (objectID : ObjectID) (payload : ObjectPayload)
  | getObject (objectID : ObjectID) (maxPayloadLength : UInt64)
  | deleteObject (objectID : ObjectID)
  | duplicateObjectID (objectID newObjectID : ObjectID)
  deriving DecidableEq, Repr

/-- `ObjectStorageException`, `RuntimeError`, `AssertionError`, and what a header that does
not parse or a length that does not fit raises. -/
inductive StorageExn where
  | closed
  | connectionFailure
  | unexpectedResponse
  | assertionError
  | malformed
  | overflow
  deriving DecidableEq, Repr

inductive StorageResult where
  | nothing
  | payload (bytes : ObjectPayload)
  | deleted (found : Bool)
  deriving DecidableEq, Repr

namespace StorageCall

variable (wire : Wire)

/-- The second message of the request. -/
def payload : StorageCall → Option ObjectPayload
  | .setObject _ payload => some payload
  | .getObject _ _ => none
  | .deleteObject _ => none
  | .duplicateObjectID objectID _ => some (wire.objectID objectID)

def header (requestID : UInt64) : StorageCall → ObjectRequestHeader
  | .setObject id payload => ⟨id, .ofNat payload.length, requestID, .setObject⟩
  | .getObject id maxPayloadLength => ⟨id, maxPayloadLength, requestID, .getObject⟩
  | .deleteObject id => ⟨id, 0, requestID, .deleteObject⟩
  | .duplicateObjectID id newID =>
    ⟨newID, .ofNat (wire.objectID id).length, requestID, .duplicateObjectID⟩

/-- `__ensure_response_type` and `__ensure_empty_payload`, and what the call returns. -/
def finish (c : StorageCall) (header : ObjectResponseHeader) (payload : ObjectPayload) :
    Except StorageExn StorageResult :=
  match c, header.responseType with
  | .getObject _ _, .getOK => .ok (.payload payload)
  | .setObject _ _, .setOK | .duplicateObjectID _ _, .duplicateOK =>
    if payload = [] then .ok .nothing else .error .unexpectedResponse
  | .deleteObject _, .delOK => if payload = [] then .ok (.deleted true) else .error .unexpectedResponse
  | .deleteObject _, .delNotExists =>
    if payload = [] then .ok (.deleted false) else .error .unexpectedResponse
  | _, _ => .error .unexpectedResponse

end StorageCall

/-- How far the running call is. -/
inductive SyncPhase where
  | idle
  | sendingPayload (call : StorageCall) (header : ObjectRequestHeader) (payload : ObjectPayload)
  | readingHeader (call : StorageCall) (header : ObjectRequestHeader)
  | readingPayload (call : StorageCall) (header : ObjectRequestHeader) (response : ObjectResponseHeader)

/-- A call that has ended. -/
structure CallRecord where
  call : StorageCall
  header : ObjectRequestHeader
  outcome : Except StorageExn StorageResult

structure SyncConnector where
  identity : Identity
  nextRequestId : Nat
  closed : Bool
  phase : SyncPhase
  link : Link
  records : List CallRecord

/-- What becomes of a message that is sent: it may reach the server although the sender is
told that it failed, and may be lost although the sender is told nothing. -/
structure Sending where
  failed : Bool
  delivered : Bool
  deriving DecidableEq, Repr

inductive SyncEvent where
  | call (c : StorageCall) (sending : Sending)
  | sendPayload (sending : Sending)
  | receive
  | receiveFailed
  | serverAnswers (k : Nat) (info : ObjectPayload)
  | othersChange (held : ObjectMap)
  | lose (kept : Nat)
  | destroy

namespace SyncConnector

variable (wire : Wire)

def start (identity : Identity) (held : ObjectMap) : SyncConnector :=
  ⟨identity, 0, false, .idle, { Link.empty with held := held }, []⟩

def finish (s : SyncConnector) (call : StorageCall) (header : ObjectRequestHeader)
    (outcome : Except StorageExn StorageResult) : SyncConnector :=
  { s with phase := .idle, records := s.records ++ [⟨call, header, outcome⟩] }

def send (s : SyncConnector) (sending : Sending) (bytes : ObjectPayload) (isHeader : Bool) :
    SyncConnector :=
  if sending.delivered then { s with link := s.link.deliver wire s.identity bytes isHeader } else s

/-- The first half of `__send_request`. The identifier wraps one below the machine word. -/
def beginCall (s : SyncConnector) (c : StorageCall) (sending : Sending) : SyncConnector :=
  let header := c.header wire (.ofNat s.nextRequestId)
  if s.closed then s.finish c header (.error .closed)
  else
    let s := { s with nextRequestId := (s.nextRequestId + 1) % (2 ^ 64 - 1) }
    match c.payload wire with
    | some payload =>
      if 2 ^ 64 ≤ payload.length then s.finish c header (.error .overflow)
      else
        let s := s.send wire sending (wire.request header) true
        if sending.failed then s.finish c header (.error .connectionFailure)
        else { s with phase := .sendingPayload c header payload }
    | none =>
      let s := s.send wire sending (wire.request header) true
      if sending.failed then s.finish c header (.error .connectionFailure)
      else { s with phase := .readingHeader c header }

/-- `__read_response_header` or `__read_response_payload`; both block while nothing came. -/
def receive (s : SyncConnector) : SyncConnector :=
  match s.phase, s.link.frames with
  | .readingHeader c header, frame :: frames =>
    let s := { s with link := { s.link with frames := frames } }
    match wire.readResponse frame with
    | none => s.finish c header (.error .malformed)
    | some response =>
      if 0 < response.payloadLength then { s with phase := .readingPayload c header response }
      else s.finish c header (c.finish response [])
  | .readingPayload c header response, frame :: frames =>
    let s := { s with link := { s.link with frames := frames } }
    if frame.length = response.payloadLength then s.finish c header (c.finish response frame)
    else s.finish c header (.error .assertionError)
  | _, _ => s

def step (s : SyncConnector) : SyncEvent → SyncConnector
  | .call c sending =>
    match s.phase with
    | .idle => s.beginCall wire c sending
    | _ => s
  | .sendPayload sending =>
    match s.phase with
    | .sendingPayload c header payload =>
      let s := s.send wire sending payload false
      if sending.failed then s.finish c header (.error .connectionFailure)
      else { s with phase := .readingHeader c header }
    | _ => s
  | .receive => s.receive wire
  | .receiveFailed =>
    match s.phase with
    | .readingHeader c header | .readingPayload c header _ =>
      s.finish c header (.error .connectionFailure)
    | _ => s
  | .serverAnswers k info => { s with link := s.link.answer wire k info }
  | .othersChange held => { s with link := { s.link with held := held } }
  | .lose kept => { s with link := { s.link with frames := s.link.frames.take kept } }
  | .destroy =>
    -- `destroy` takes the same lock
    match s.phase with
    | .idle => { s with closed := true }
    | _ => s

end SyncConnector

end Scaler.ObjectStorage
