import Scaler.Collections.Word

/-! `MessageConnection`: messages over a byte stream, each behind its length, after a magic
string and the identity of the sender. A failed assertion is `none`. -/

namespace Scaler.Ymq

open Collections

abbrev Bytes := List UInt8

abbrev Identity := Bytes

/-- `YMQ` and the version. -/
def magicString : Bytes := [89, 77, 81, 2]

/-- 256 MB. -/
def maxWriteBufferSize : Nat := 256 * 1024 * 1024

/-- `sizeof(Header)`. -/
def headerSize : Nat := 8

inductive ConnectionState where
  | disconnected
  | connected
  | established
  deriving DecidableEq, Repr

inductive DisconnectReason where
  | aborted
  | disconnected
  deriving DecidableEq, Repr

/-- What the owner of the connection is told. -/
inductive Event where
  | remoteIdentity (identity : Identity)
  | recvMessage (payload : Bytes)
  | remoteDisconnect (reason : DisconnectReason)
  deriving DecidableEq, Repr

/-- What a stream calls back with. -/
inductive Delivery where
  | data (data : Bytes)
  | gone (reason : DisconnectReason)
  deriving DecidableEq, Repr

/-- What the owner does to the connection while it is told. -/
inductive Reaction where
  | nothing
  | disconnect
  | abort
  deriving DecidableEq, Repr

/-- The callbacks that are passed to `recv`. -/
inductive RecvCallback where
  | magicNumber
  | header
  | message
  deriving DecidableEq, Repr

/-- A buffer and what was read into it; `_cursor` is the length of `data`. -/
structure RecvBuffer where
  size : Nat
  data : Bytes
  deriving DecidableEq, Repr

structure RecvOperation where
  buffer : Option RecvBuffer
  onRecvDone : Option RecvCallback
  deriving DecidableEq, Repr

/-- An attached client: the writes made on it, and all that was read from it. -/
structure Client where
  written : List Bytes
  received : Bytes
  deriving DecidableEq, Repr

structure MessageConnection where
  state : ConnectionState
  localIdentity : Identity
  remoteIdentity : Option Identity
  client : Option Client
  sendPending : List (List Bytes)
  recvCurrent : RecvOperation
  events : List Event
  deriving DecidableEq, Repr

/-- The pieces of at most `n` bytes that a buffer is written in. -/
def chunks (n : Nat) (buffer : Bytes) : List Bytes :=
  (List.range ((buffer.length + n - 1) / n)).map fun i => (buffer.drop (i * n)).take n

namespace MessageConnection

variable (c : MessageConnection)

def connected : Bool := c.state = .connected || c.state = .established

def established : Bool := c.state = .established

def report (event : Event) : MessageConnection := { c with events := c.events ++ [event] }

/-- One `write()` call on the client. -/
def write (buffers : List Bytes) : MessageConnection :=
  { c with client := c.client.map fun client =>
      { client with written := client.written ++ [buffers.flatten] } }

def processSendOperation (buffers : List Bytes) : MessageConnection :=
  let totalSize := (buffers.map List.length).sum
  if totalSize ≤ maxWriteBufferSize then c.write buffers
  else
    (buffers.flatMap (chunks maxWriteBufferSize)).foldl (fun c chunk => c.write [chunk]) c

def processSendQueue : MessageConnection :=
  c.sendPending.foldl processSendOperation { c with sendPending := [] }

def send (buffers : List Bytes) : MessageConnection :=
  let c := { c with sendPending := c.sendPending ++ [buffers] }
  if c.connected then c.processSendQueue else c

def sendMessage (messagePayload : Bytes) : MessageConnection :=
  c.send [littleEndian messagePayload.length, messagePayload]

def sendHandshake : Option MessageConnection :=
  if c.sendPending = [] then some ((c.send [magicString]).sendMessage c.localIdentity) else none

/-- `recv` of a size that is not zero, when the buffer can be allocated. -/
def recv (size : Nat) (callback : RecvCallback) : Option MessageConnection :=
  if c.recvCurrent.buffer.all (fun buffer => buffer.data.length = buffer.size) then
    some { c with recvCurrent := ⟨some ⟨size, []⟩, some callback⟩ }
  else none

def recvMagicNumber : Option MessageConnection := c.recv magicString.length .magicNumber

def recvMessage : Option MessageConnection := c.recv headerSize .header

/-- `initialize`. -/
def init : Option MessageConnection := do
  let c ← { c with
    client := none
    state := .disconnected
    recvCurrent := ⟨none, none⟩ }.sendHandshake
  c.recvMagicNumber

/-- The constructor. -/
def new (localIdentity : Identity) (remoteIdentity : Option Identity) : Option MessageConnection :=
  init ⟨.disconnected, localIdentity, remoteIdentity, none, [], ⟨none, none⟩, []⟩

/-- `connect`, up to the start of the reading. -/
def starts : MessageConnection := { c with client := some ⟨[], []⟩, state := .connected }

/-- `connect` of a client whose stream has nothing to deliver when it is started. -/
def connect : Option MessageConnection := if c.connected then none else some c.starts.processSendQueue

/-- `disconnect` and `abort` differ in how the remote end sees the connection go. -/
def disconnect : Option MessageConnection := if c.connected then c.init else none

def abort : Option MessageConnection := if c.connected then c.init else none

def onRemoteDisconnect (reason : DisconnectReason) : Option MessageConnection :=
  if c.connected then (c.init).map (·.report (.remoteDisconnect reason)) else none

section

variable (react : Event → Reaction) (allocates : Nat → Bool)

/-- A callback of the owner. -/
def tell (event : Event) : Option MessageConnection :=
  let c := c.report event
  match react event with
  | .nothing => some c
  | .disconnect => c.disconnect
  | .abort => c.abort

def onRemoteIdentity (payload : Bytes) : Option MessageConnection :=
  if c.connected = false ∨ c.established then none
  else if c.remoteIdentity.any (· ≠ payload) then c.onRemoteDisconnect .aborted
  else { c with remoteIdentity := some payload, state := .established }.tell react (.remoteIdentity payload)

/-- The first message is the identity. -/
def onMessagePayload (payload : Bytes) : Option MessageConnection :=
  if c.connected then do
    let c ← if c.established then c.tell react (.recvMessage payload) else c.onRemoteIdentity react payload
    c.recvMessage
  else none

/-- `recv` of the announced size: an empty message is complete at once, and a buffer that
cannot be allocated ends the connection. -/
def onHeader (headerPayload : Bytes) : Option MessageConnection :=
  if c.connected then
    let header := ofLittleEndian headerPayload
    if allocates header = false then c.onRemoteDisconnect .aborted
    else if header = 0 then c.onMessagePayload react []
    else c.recv header .message
  else none

def onMagicNumber (payload : Bytes) : Option MessageConnection :=
  if c.connected then
    if payload = magicString then c.recvMessage else c.onRemoteDisconnect .aborted
  else none

def onRecvDone (payload : Bytes) : RecvCallback → Option MessageConnection
  | .magicNumber => c.onMagicNumber payload
  | .header => c.onHeader react allocates payload
  | .message => c.onMessagePayload react payload

/-- Bytes are copied into the current buffer. -/
def copy (data : Bytes) (buffer : Option RecvBuffer) : MessageConnection :=
  { c with
    client := c.client.map fun client => { client with received := client.received ++ data }
    recvCurrent := { c.recvCurrent with buffer := buffer } }

/-- The loop of `onRead`: as much as the current buffer misses is copied; a buffer that is
full goes to its callback. Every round takes a byte, so `data` has length at most `n`. -/
def readLoop : Nat → Bytes → MessageConnection → Option MessageConnection
  | 0, _, c => some c
  | n + 1, data, c =>
    if data = [] ∨ c.connected = false then some c
    else
      match c.recvCurrent.buffer with
      | none => none
      | some buffer =>
        if buffer.data.length < buffer.size then
          let readCount := min (buffer.size - buffer.data.length) data.length
          let copied := buffer.data ++ data.take readCount
          if copied.length = buffer.size then do
            let callback ← c.recvCurrent.onRecvDone
            let c ← (c.copy (data.take readCount) none).onRecvDone react allocates copied callback
            readLoop n (data.drop readCount) c
          else readLoop n (data.drop readCount) (c.copy (data.take readCount) (some ⟨buffer.size, copied⟩))
        else none

/-- `onRead` of a chunk of bytes. -/
def onRead (data : Bytes) : Option MessageConnection :=
  if c.connected then readLoop react allocates data.length data c else none

def deliver (c : MessageConnection) : Delivery → Option MessageConnection
  | .data data => c.onRead react allocates data
  | .gone reason => c.onRemoteDisconnect reason

/-- `connect`. The stream delivers at its start what it already has: bytes left over by a TLS handshake or a
WebSocket upgrade, or the end of the connection. -/
def connectWith (early : List Delivery) : Option MessageConnection :=
  if c.connected then none
  else do
    let c ← early.foldlM (deliver react allocates) c.starts
    if c.connected then some c.processSendQueue else none

end

end MessageConnection

end Scaler.Ymq
