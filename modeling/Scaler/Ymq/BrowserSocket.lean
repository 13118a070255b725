import Scaler.Ymq.MessageConnection

/-! The `ConnectorSocket` of the browser: one WebSocket, a buffer that is parsed again whenever
data comes, and sends that wait until the WebSocket is open. -/

namespace Scaler.Ymq

open Collections

/-- A call of `send_message_with_callback`: the payload, and the sends that the callback makes
when it is told that the message was sent. -/
inductive SendCall where
  | send (payload : Bytes) (onSent : List SendCall)

/-- `sent` is what was given to `WebSocket.send`, `accepted` are the payloads of the sends that
were not refused, in the order of the calls, and `invoked` are the receive callbacks that were
invoked, with a payload or an error. -/
structure BrowserSocket where
  identity : Identity
  isOpen : Bool
  closed : Bool
  recvBuffer : Bytes
  recvQueue : List Bytes
  recvCallbacks : List Nat
  pendingSends : List (Bytes × List SendCall)
  handshakeComplete : Bool
  magicConsumed : Bool
  remoteIdentity : Option Bytes
  sent : List Bytes
  accepted : List Bytes
  invoked : List (Nat × Option Bytes)

/-- `close` stands for the error and close events of the WebSocket and for `shutdown()`. -/
inductive BrowserEvent where
  | opened
  | message (data : Bytes)
  | close
  | sendMessage (call : SendCall)
  | recvMessage (callback : Nat)

namespace BrowserSocket

def new (identity : Identity) : BrowserSocket :=
  ⟨identity, false, false, [], [], [], [], false, false, none, [], [], []⟩

variable (s : BrowserSocket)

/-- `_fail`, which tells all that wait. -/
def fail : BrowserSocket :=
  if s.closed then s
  else
    { s with
      closed := true
      recvCallbacks := []
      pendingSends := []
      invoked := s.invoked ++ s.recvCallbacks.map fun callback => (callback, none) }

section Receiving

def deliverMessage (payload : Bytes) : BrowserSocket :=
  match s.recvCallbacks with
  | callback :: recvCallbacks =>
    { s with recvCallbacks := recvCallbacks, invoked := s.invoked ++ [(callback, some payload)] }
  | [] => { s with recvQueue := s.recvQueue ++ [payload] }

/-- The loop over the framed messages: each round takes a header at least. -/
def drainMessages : Nat → BrowserSocket → BrowserSocket
  | 0, s => s
  | n + 1, s =>
    if s.recvBuffer.length < headerSize then s
    else
      let length := ofLittleEndian (s.recvBuffer.take headerSize)
      if s.recvBuffer.length < headerSize + length then s
      else
        let payload := (s.recvBuffer.drop headerSize).take length
        let s := { s with recvBuffer := s.recvBuffer.drop (headerSize + length) }
        if s.handshakeComplete = false then
          drainMessages n { s with remoteIdentity := some payload, handshakeComplete := true }
        else drainMessages n (s.deliverMessage payload)

def processRecvBuffer : BrowserSocket :=
  if s.magicConsumed = false then
    if s.recvBuffer.length < magicString.length then s
    else if s.recvBuffer.take magicString.length ≠ magicString then s.fail
    else
      let s := { s with recvBuffer := s.recvBuffer.drop magicString.length, magicConsumed := true }
      drainMessages s.recvBuffer.length s
  else drainMessages s.recvBuffer.length s

def onMessage (data : Bytes) : BrowserSocket :=
  if s.closed then s else processRecvBuffer { s with recvBuffer := s.recvBuffer ++ data }

def recvMessage (callback : Nat) : BrowserSocket :=
  match s.recvQueue with
  | payload :: recvQueue => { s with recvQueue := recvQueue, invoked := s.invoked ++ [(callback, some payload)] }
  | [] =>
    if s.closed then { s with invoked := s.invoked ++ [(callback, none)] }
    else { s with recvCallbacks := s.recvCallbacks ++ [callback] }

end Receiving

section Sending

/-- `struct.pack` of the length, and the payload; a length beyond 64 bits raises. -/
def pack (payload : Bytes) : Option Bytes :=
  if payload.length < 2 ^ 64 then some (littleEndian payload.length ++ payload) else none

mutual

/-- A message is framed, and it waits until the WebSocket is open. -/
def sendMessage (s : BrowserSocket) : SendCall → BrowserSocket
  | .send payload onSent =>
    if s.closed then s
    else
      match pack payload with
      | none => s
      | some framed =>
        let s := { s with accepted := s.accepted ++ [payload] }
        if s.isOpen = false then { s with pendingSends := s.pendingSends ++ [(framed, onSent)] }
        else sendAll { s with sent := s.sent ++ [framed] } onSent

/-- The sends of a callback, one after the other. -/
def sendAll (s : BrowserSocket) : List SendCall → BrowserSocket
  | [] => s
  | call :: calls => sendAll (sendMessage s call) calls

end

/-- `_raw_send`, which invokes the callback at once. -/
def rawSend (data : Bytes) (onSent : List SendCall) : BrowserSocket :=
  { s with sent := s.sent ++ [data] }.sendAll onSent

/-- `_on_open` sends the handshake and drains the queued sends. The WebSocket opens once. -/
def onOpen : BrowserSocket :=
  if s.closed = true ∨ s.isOpen = true then s
  else
    match pack s.identity with
    | none => { s with isOpen := true }
    | some framed =>
      let pending := s.pendingSends
      let s := { s with isOpen := true, pendingSends := [], sent := s.sent ++ [magicString ++ framed] }
      pending.foldl (fun s send => s.rawSend send.1 send.2) s

end Sending

def step (s : BrowserSocket) : BrowserEvent → BrowserSocket
  | .opened => s.onOpen
  | .message data => s.onMessage data
  | .close => s.fail
  | .sendMessage call => s.sendMessage call
  | .recvMessage callback => s.recvMessage callback

def run (identity : Identity) (events : List BrowserEvent) : BrowserSocket := events.foldl step (new identity)

/-- The messages that were received, whether a callback has them yet or not. -/
def delivered : List Bytes := s.invoked.filterMap (·.2) ++ s.recvQueue

end BrowserSocket

end Scaler.Ymq
