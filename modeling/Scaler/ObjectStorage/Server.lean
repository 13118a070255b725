import Scaler.Collections.Word
import Scaler.ObjectStorage.ObjectManager

/-! `ObjectStorageServer`: the handlers of complete requests, and the loop that puts
requests together from the messages of each client. A handler that throws leaves the
server as it was; `none` is the end of the process. -/

namespace Scaler.ObjectStorage

open Collections

abbrev Identity := String

inductive ObjectRequestType where
  | setObject
  | getObject
  | deleteObject
  | duplicateObjectID
  | infoGetTotal
  | unknown (value : UInt16)
  deriving DecidableEq, Repr

structure ObjectRequestHeader where
  objectID : ObjectID
  payloadLength : UInt64
  requestID : UInt64
  requestType : ObjectRequestType
  deriving DecidableEq, Repr

inductive ObjectResponseType where
  | setOK
  | getOK
  | delOK
  | delNotExists
  | duplicateOK
  | infoGetTotalOK
  deriving DecidableEq, Repr

structure ObjectResponseHeader where
  objectID : ObjectID
  payloadLength : Nat
  responseID : UInt64
  responseType : ObjectResponseType
  deriving DecidableEq, Repr

/-- `ObjectID::bufferSize()`. -/
def capnpObjectIDSize : Nat := 48

/-- `ObjectRequestHeader::bufferSize()`. -/
def capnpHeaderSize : Nat := 80

/-- The little-endian word at the offset. -/
def wordAt (buffer : ObjectPayload) (offset : Nat) : UInt64 :=
  ((buffer.drop offset).take 8).foldr (fun byte n => n * 256 + byte.toUInt64) 0

/-- `ObjectID::fromBuffer` on what `toBuffer` writes: one segment of five words, the root
struct with four words of data. -/
def ObjectID.fromBuffer (buffer : ObjectPayload) : Option ObjectID :=
  if buffer.length = capnpObjectIDSize ∧
      buffer.take 16 = [0, 0, 0, 0, 5, 0, 0, 0, 0, 0, 0, 0, 4, 0, 0, 0] then
    some ⟨wordAt buffer 16, wordAt buffer 24, wordAt buffer 32, wordAt buffer 40⟩
  else none

def ObjectRequestType.ofValue (value : UInt16) : ObjectRequestType :=
  if value = 0 then .setObject
  else if value = 1 then .getObject
  else if value = 2 then .deleteObject
  else if value = 3 then .duplicateObjectID
  else if value = 4 then .infoGetTotal
  else .unknown value

def ObjectRequestType.value : ObjectRequestType → UInt16
  | .setObject => 0
  | .getObject => 1
  | .deleteObject => 2
  | .duplicateObjectID => 3
  | .infoGetTotal => 4
  | .unknown value => value

def ObjectRequestHeader.toBuffer (h : ObjectRequestHeader) : ObjectPayload :=
  [0, 0, 0, 0, 9, 0, 0, 0, 0, 0, 0, 0, 3, 0, 1, 0] ++ littleEndian h.payloadLength.toNat ++
    littleEndian h.requestID.toNat ++ littleEndian h.requestType.value.toNat ++
    [0, 0, 0, 0, 4, 0, 0, 0] ++ littleEndian h.objectID.field0.toNat ++
    littleEndian h.objectID.field1.toNat ++ littleEndian h.objectID.field2.toNat ++
    littleEndian h.objectID.field3.toNat

/-- `ObjectRequestHeader::fromBuffer` on what `toBuffer` writes: one segment of nine words,
the root struct with three words of data, and the object id it points to. -/
def ObjectRequestHeader.fromBuffer (buffer : ObjectPayload) : Option ObjectRequestHeader :=
  if buffer.length = capnpHeaderSize ∧
      buffer.take 16 = [0, 0, 0, 0, 9, 0, 0, 0, 0, 0, 0, 0, 3, 0, 1, 0] ∧
      (buffer.drop 40).take 8 = [0, 0, 0, 0, 4, 0, 0, 0] then
    some
      { objectID := ⟨wordAt buffer 48, wordAt buffer 56, wordAt buffer 64, wordAt buffer 72⟩
        payloadLength := wordAt buffer 16
        requestID := wordAt buffer 24
        requestType := .ofValue (wordAt buffer 32).toUInt16 }
  else none

/-- 6 TB. -/
def memoryLimitInBytes : Nat := 6 * 2 ^ 40

/-- A request whose object is not there yet. `index` tells requests apart, nothing reads it. -/
structure PendingRequest where
  client : Identity
  requestHeader : ObjectRequestHeader
  index : Nat
  deriving DecidableEq, Repr

/-- What `writeMessage` sends: the header, and the payload as a second message unless it
is empty. -/
structure Reply where
  client : Identity
  header : ObjectResponseHeader
  payload : ObjectPayload
  index : Nat
  deriving DecidableEq, Repr

/-- A complete request; only `SET` and `DUPLICATE` have a payload. -/
structure Request where
  client : Identity
  header : ObjectRequestHeader
  payload : ObjectPayload
  deriving DecidableEq, Repr

structure Server where
  objectManager : ObjectManager
  pendingRequests : Dict ObjectID (List PendingRequest)
  sent : List Reply

namespace Server

def empty : Server := ⟨.empty, Dict.empty, []⟩

variable (s : Server)

def writeMessage (reply : Reply) : Server := { s with sent := s.sent ++ [reply] }

/-- A response with no payload. -/
def writeHeader (r : PendingRequest) (type : ObjectResponseType) : Server :=
  s.writeMessage ⟨r.client, ⟨r.requestHeader.objectID, 0, r.requestHeader.requestID, type⟩, [], r.index⟩

end Server

/-- The response to a `GET` when the object has this payload. -/
def PendingRequest.getReply (r : PendingRequest) (payload : ObjectPayload) : Reply :=
  let payloadLength := min payload.length r.requestHeader.payloadLength.toNat
  ⟨r.client, ⟨r.requestHeader.objectID, payloadLength, r.requestHeader.requestID, .getOK⟩,
    payload.take payloadLength, r.index⟩

def PendingRequest.duplicateReply (r : PendingRequest) : Reply :=
  ⟨r.client, ⟨r.requestHeader.objectID, 0, r.requestHeader.requestID, .duplicateOK⟩, [], r.index⟩

namespace Server

variable (s : Server)

/-- The pointer to the object is dereferenced. -/
def sendGetResponse (r : PendingRequest) (object : Option ObjectPayload) : Option Server :=
  object.map fun payload => s.writeMessage (r.getReply payload)

def sendDuplicateResponse (r : PendingRequest) : Server := s.writeMessage r.duplicateReply

def addPending (objectID : ObjectID) (r : PendingRequest) : Server :=
  { s with
    pendingRequests := s.pendingRequests.set objectID
      ((s.pendingRequests.get? objectID).getD [] ++ [r]) }

/-- The requests that wait for the object leave the map before they are answered, so the
number of ids in the map bounds the depth of the recursion. -/
def optionallySendPendingRequests (freed : ObjectHash) :
    Nat → ObjectID → Option ObjectPayload → Server → Option Server
  | 0, _, _, s => some s
  | n + 1, objectID, object, s =>
    match s.pendingRequests.get? objectID with
    | none => some s
    | some requests =>
      requests.foldlM
        (fun s r =>
          if r.requestHeader.requestType = .getObject then s.sendGetResponse r object
          else do
            let m ← s.objectManager.duplicateObject freed objectID r.requestHeader.objectID
            optionallySendPendingRequests freed n r.requestHeader.objectID object
              ({ s with objectManager := m.2 }.sendDuplicateResponse r))
        { s with pendingRequests := s.pendingRequests.erase objectID }

/-- `optionallySendPendingRequests` with a bound that suffices. -/
def sendPendingRequests (freed : ObjectHash) (objectID : ObjectID) (object : Option ObjectPayload) :
    Option Server :=
  optionallySendPendingRequests freed s.pendingRequests.keys.length objectID object s

section

variable (computePayloadHash : ObjectPayload → ObjectHash)
  (objectIDFromBuffer : ObjectPayload → Option ObjectID) (freed : ObjectHash)

def processSetRequest (r : PendingRequest) (payload : ObjectPayload) : Option Server :=
  if memoryLimitInBytes < r.requestHeader.payloadLength.toNat then some s
  else do
    let x ← s.objectManager.setObject computePayloadHash r.requestHeader.objectID payload
    let s ← { s with objectManager := x.2 }.sendPendingRequests freed r.requestHeader.objectID x.1
    some (s.writeHeader r .setOK)

def processGetRequest (r : PendingRequest) : Option Server := do
  match ← s.objectManager.getObject r.requestHeader.objectID with
  | some payload => s.sendGetResponse r (some payload)
  | none => some (s.addPending r.requestHeader.objectID r)

def processDeleteRequest (r : PendingRequest) : Option Server := do
  let x ← s.objectManager.deleteObject r.requestHeader.objectID
  some ({ s with objectManager := x.2 }.writeHeader r (if x.1 then .delOK else .delNotExists))

/-- A payload of another length, or one that is no object id, throws. -/
def processDuplicateRequest (r : PendingRequest) (payload : ObjectPayload) : Option Server :=
  if r.requestHeader.payloadLength.toNat ≠ capnpObjectIDSize then some s
  else
    match objectIDFromBuffer payload with
    | none => some s
    | some originalObjectID => do
      let x ← s.objectManager.duplicateObject freed originalObjectID r.requestHeader.objectID
      let s := { s with objectManager := x.2 }
      match x.1 with
      | some payload => do
        let s ← s.sendPendingRequests freed r.requestHeader.objectID (some payload)
        some (s.sendDuplicateResponse r)
      | none => some (s.addPending originalObjectID r)

def processInfoGetTotalRequest (r : PendingRequest) : Server :=
  let payload := littleEndian s.objectManager.size ++ littleEndian s.objectManager.sizeUnique ++
    littleEndian s.objectManager.totalObjectsBytes
  s.writeMessage ⟨r.client, ⟨r.requestHeader.objectID, 24, r.requestHeader.requestID, .infoGetTotalOK⟩,
    payload, r.index⟩

/-- The `switch` over the type of a complete request. -/
def process (index : Nat) (request : Request) : Option Server :=
  let r : PendingRequest := ⟨request.client, request.header, index⟩
  match request.header.requestType with
  | .setObject => s.processSetRequest computePayloadHash freed r request.payload
  | .getObject => s.processGetRequest r
  | .deleteObject => s.processDeleteRequest r
  | .duplicateObjectID => s.processDuplicateRequest objectIDFromBuffer freed r request.payload
  | .infoGetTotal => some (s.processInfoGetTotalRequest r)
  | .unknown _ => some s

/-- The server after a sequence of requests, the first of which is the request `index`. -/
def run : Nat → Server → List Request → Option Server
  | _, s, [] => some s
  | index, s, request :: requests => do
    let s ← s.process computePayloadHash objectIDFromBuffer freed index request
    run (index + 1) s requests

end

end Server

/-- Only these types are followed by a second message. -/
def ObjectRequestType.hasPayload : ObjectRequestType → Bool
  | .duplicateObjectID | .setObject => true
  | _ => false

/-- A message of a client; nothing reads `isHeader`, which is what its sender made it. -/
structure Message where
  identity : Identity
  bytes : ObjectPayload
  isHeader : Bool
  deriving DecidableEq, Repr

/-- A request whose header has arrived; `header` is the message it was read from. -/
structure FullRequest where
  header : Message
  requestHeader : ObjectRequestHeader
  payload : Option Message
  deriving DecidableEq, Repr

def FullRequest.request (full : FullRequest) : Request :=
  ⟨full.header.identity, full.requestHeader, (full.payload.map Message.bytes).getD []⟩

/-- `identityToFullRequest`: the requests that miss their payload. -/
abbrev Partial := Dict Identity FullRequest

section

variable (headerFromBuffer : ObjectPayload → Option ObjectRequestHeader)

/-- A request whose announced length the message does not have is dropped. -/
def Partial.dropStale (p : Partial) (message : Message) : Partial :=
  match p.get? message.identity with
  | none => p
  | some full =>
    if full.requestHeader.payloadLength.toNat ≠ message.bytes.length then p.erase message.identity else p

/-- What the loop does with a message, and the request that is complete with it. A header
that does not parse throws before anything is stored. -/
def Partial.receive (p : Partial) (message : Message) : Partial × Option FullRequest :=
  let p := p.dropStale message
  match p.get? message.identity with
  | none =>
    match headerFromBuffer message.bytes with
    | none => (p, none)
    | some requestHeader =>
      let full := ⟨message, requestHeader, none⟩
      let p := p.set message.identity full
      if requestHeader.requestType.hasPayload then (p, none) else (p.erase message.identity, some full)
  | some full => (p.erase message.identity, some { full with payload := some message })

/-- The requests that a sequence of messages completes. -/
def Partial.receiveAll : Partial → List Message → List FullRequest
  | _, [] => []
  | p, message :: messages =>
    let r := p.receive headerFromBuffer message
    r.2.toList ++ receiveAll r.1 messages

/-- The loop: a request is handled as soon as it is complete. -/
def Server.processRequests (computePayloadHash : ObjectPayload → ObjectHash)
    (objectIDFromBuffer : ObjectPayload → Option ObjectID) (freed : ObjectHash) :
    Nat → Partial → Server → List Message → Option Server
  | _, _, s, [] => some s
  | index, p, s, message :: messages =>
    match p.receive headerFromBuffer message with
    | (p, none) => processRequests computePayloadHash objectIDFromBuffer freed index p s messages
    | (p, some full) => do
      let s ← s.process computePayloadHash objectIDFromBuffer freed index full.request
      processRequests computePayloadHash objectIDFromBuffer freed (index + 1) p s messages

end

end Scaler.ObjectStorage
