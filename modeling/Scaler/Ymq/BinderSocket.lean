import Scaler.Ymq.MessageConnection
import Scaler.Collections.Dict

/-! `BinderSocket`: the connections of many remote ends, found by their identities. A failed assertion, an `.at()`
of a key that is not there, or a use of a connection that was destroyed, is `none`. -/

namespace Scaler.Ymq

open Collections

abbrev ConnectionID := Nat

/-- 60 seconds, of a clock that counts nanoseconds. -/
def disconnectedIdentityTTL : Nat := 60 * 10 ^ 9

inductive SocketError where
  | socketStopRequested
  | connectorSocketClosedByRemoteEnd
  deriving DecidableEq, Repr

/-- The callback of a `sendMessage` is the number of the call. -/
structure PendingSendMessage where
  messagePayload : Bytes
  onMessageSent : Nat
  deriving DecidableEq, Repr

/-- A message that was passed to a connection, and what the connection said its identity is. -/
structure Handed where
  connectionID : ConnectionID
  remoteIdentity : Option Identity
  onMessageSent : Nat
  deriving DecidableEq, Repr

/-- A message that was failed through its callback. -/
structure FailedSend where
  remoteIdentity : Identity
  onMessageSent : Nat
  error : SocketError
  deriving DecidableEq, Repr

/-- The state of the socket, the clock, and what has come of the calls: the identities that
`sendMessage` was called for, the messages that were handed on or failed, the number of calls
of `recvMessage` and what their callbacks got. -/
structure BinderSocket where
  identity : Identity
  connectionCounter : ConnectionID
  connections : Dict ConnectionID MessageConnection
  identityToConnectionID : Dict Identity ConnectionID
  disconnectedIdentities : Dict Identity Nat
  disconnectedIdentityInsertions : List (Nat × Identity)
  pendingSendMessages : Dict Identity (List PendingSendMessage)
  pendingRecvMessages : List (Identity × Bytes)
  pendingRecvCallbacks : List Nat
  now : Nat
  sent : List Identity
  handed : List Handed
  failed : List FailedSend
  recvCalls : Nat
  received : List (Nat × Except SocketError (Identity × Bytes))

inductive BinderEvent where
  | clientConnect (early : List Delivery)
  | read (connectionID : ConnectionID) (data : Bytes)
  | close (connectionID : ConnectionID) (reason : DisconnectReason)
  | sendMessage (remoteIdentity : Identity) (messagePayload : Bytes)
  | sendMulticastMessage (messagePayload : Bytes) (remotePrefix : Option Identity)
  | recvMessage
  | closeConnection (remoteIdentity : Identity)
  | clock (elapsed : Nat)
  | shutdown
  deriving DecidableEq, Repr

namespace BinderSocket

/-- The constructor. -/
def new (identity : Identity) : BinderSocket :=
  ⟨identity, 0, Dict.empty, Dict.empty, Dict.empty, [], Dict.empty, [], [], 0, [], [], [], 0, []⟩

variable (s : BinderSocket)

/-- `sendMessage` of the connection with this number. -/
def sendOn (connectionID : ConnectionID) (message : PendingSendMessage) : Option BinderSocket := do
  let connection ← s.connections.get? connectionID
  some { s with
    connections := s.connections.set connectionID (connection.sendMessage message.messagePayload)
    handed := s.handed ++ [⟨connectionID, connection.remoteIdentity, message.onMessageSent⟩] }

def fail (remoteIdentity : Identity) (error : SocketError) (message : PendingSendMessage) : BinderSocket :=
  { s with failed := s.failed ++ [⟨remoteIdentity, message.onMessageSent, error⟩] }

def sendMessage (remoteIdentity : Identity) (messagePayload : Bytes) : Option BinderSocket :=
  let message : PendingSendMessage := ⟨messagePayload, s.sent.length⟩
  let s := { s with sent := s.sent ++ [remoteIdentity] }
  match s.identityToConnectionID.get? remoteIdentity with
  | none =>
    if s.disconnectedIdentities.contains remoteIdentity then
      some (s.fail remoteIdentity .connectorSocketClosedByRemoteEnd message)
    else
      let queue := (s.pendingSendMessages.get? remoteIdentity).getD []
      some { s with pendingSendMessages := s.pendingSendMessages.set remoteIdentity (queue ++ [message]) }
  | some connectionID => s.sendOn connectionID message

/-- Whether a multicast goes to this connection. -/
def addressed (remotePrefix : Option Identity) (connection : MessageConnection) : Bool :=
  remotePrefix.all fun remotePrefix => connection.remoteIdentity.any (remotePrefix.isPrefixOf ·)

def sendMulticastMessage (messagePayload : Bytes) (remotePrefix : Option Identity) : BinderSocket :=
  { s with
    connections := s.connections.entries.foldl (fun connections entry =>
      if addressed remotePrefix entry.2 then
        connections.set entry.1 (entry.2.sendMessage messagePayload)
      else connections) s.connections }

def recvMessage : BinderSocket :=
  let callback := s.recvCalls
  let s := { s with recvCalls := callback + 1 }
  match s.pendingRecvMessages with
  | message :: messages =>
    { s with pendingRecvMessages := messages, received := s.received ++ [(callback, .ok message)] }
  | [] => { s with pendingRecvCallbacks := s.pendingRecvCallbacks ++ [callback] }

/-- The loop takes the front of the deque as long as it is too old; the map keeps a fresher
entry. -/
def purgeExpired (now : Nat) : List (Nat × Identity) → Dict Identity Nat →
    List (Nat × Identity) × Dict Identity Nat
  | [], identities => ([], identities)
  | (expiredTs, expiredId) :: insertions, identities =>
    if disconnectedIdentityTTL < now - expiredTs then
      purgeExpired now insertions
        (if identities.get? expiredId = some expiredTs then identities.erase expiredId else identities)
    else ((expiredTs, expiredId) :: insertions, identities)

def purgeExpiredDisconnectedIdentities (now : Nat) : BinderSocket :=
  let purged := purgeExpired now s.disconnectedIdentityInsertions s.disconnectedIdentities
  { s with disconnectedIdentityInsertions := purged.1, disconnectedIdentities := purged.2 }

def createConnection (remoteIdentity : Option Identity) : Option (BinderSocket × ConnectionID) := do
  let connectionID := s.connectionCounter
  let connection ← MessageConnection.new s.identity remoteIdentity
  some ({ s with
    connectionCounter := connectionID + 1
    connections := s.connections.set connectionID connection }, connectionID)

/-- Another connection of this remote end is destroyed. -/
def disconnectOld (remoteIdentity : Identity) : BinderSocket :=
  match s.identityToConnectionID.get? remoteIdentity with
  | some old => { s with connections := s.connections.erase old }
  | none => s

def onRemoteIdentity (connectionID : ConnectionID) (remoteIdentity : Identity) : Option BinderSocket :=
  let s := s.disconnectOld remoteIdentity
  let s := { s with
    identityToConnectionID := s.identityToConnectionID.set remoteIdentity connectionID
    disconnectedIdentities := s.disconnectedIdentities.erase remoteIdentity }
  match s.pendingSendMessages.get? remoteIdentity with
  | none => some s
  | some pending => do
    let s ← pending.foldlM (fun s message => s.sendOn connectionID message) s
    some { s with pendingSendMessages := s.pendingSendMessages.erase remoteIdentity }

def onRemoteDisconnect (connectionID : ConnectionID) (reason : DisconnectReason) : Option BinderSocket := do
  let connection ← s.connections.get? connectionID
  let s := { s with connections := s.connections.erase connectionID }
  match connection.remoteIdentity with
  | none => some s
  | some remoteIdentity =>
    let s := { s with identityToConnectionID := s.identityToConnectionID.erase remoteIdentity }
    if reason ≠ .disconnected then some s
    else
      let now := s.now
      let s := s.purgeExpiredDisconnectedIdentities now
      let s := { s with
        disconnectedIdentities := s.disconnectedIdentities.set remoteIdentity now
        disconnectedIdentityInsertions := s.disconnectedIdentityInsertions ++ [(now, remoteIdentity)] }
      match s.pendingSendMessages.get? remoteIdentity with
      | none => some s
      | some pending =>
        let s := pending.foldl (fun s message =>
          s.fail remoteIdentity .connectorSocketClosedByRemoteEnd message) s
        some { s with pendingSendMessages := s.pendingSendMessages.erase remoteIdentity }

def onMessage (connectionID : ConnectionID) (messagePayload : Bytes) : Option BinderSocket := do
  let connection ← s.connections.get? connectionID
  let address ← connection.remoteIdentity
  match s.pendingRecvCallbacks with
  | [] => some { s with pendingRecvMessages := s.pendingRecvMessages ++ [(address, messagePayload)] }
  | callback :: callbacks =>
    some { s with
      pendingRecvCallbacks := callbacks
      received := s.received ++ [(callback, .ok (address, messagePayload))] }

def closeConnection (remoteIdentity : Identity) : Option BinderSocket :=
  match s.identityToConnectionID.get? remoteIdentity with
  | none => some s
  | some connectionID => s.onRemoteDisconnect connectionID .disconnected

def shutdown : BinderSocket :=
  let s : BinderSocket := { s with
    connections := Dict.empty
    identityToConnectionID := Dict.empty
    pendingRecvCallbacks := []
    received := s.received ++
      s.pendingRecvCallbacks.map fun callback => (callback, Except.error SocketError.socketStopRequested) }
  let s := s.pendingSendMessages.entries.foldl (fun s entry =>
    entry.2.foldl (fun s message => s.fail entry.1 .socketStopRequested message) s) s
  { s with pendingSendMessages := Dict.empty, pendingRecvMessages := [] }

/-- A callback of a connection. -/
def onEvent (connectionID : ConnectionID) : Event → Option BinderSocket
  | .remoteIdentity remoteIdentity => s.onRemoteIdentity connectionID remoteIdentity
  | .recvMessage messagePayload => s.onMessage connectionID messagePayload
  | .remoteDisconnect reason => s.onRemoteDisconnect connectionID reason

/-- Something happens to a connection, and the socket is told what it reports. -/
def onConnection (connectionID : ConnectionID)
    (happens : MessageConnection → Option MessageConnection) : Option BinderSocket := do
  let connection ← s.connections.get? connectionID
  let connection' ← happens connection
  (connection'.events.drop connection.events.length).foldlM (fun s event => s.onEvent connectionID event)
    { s with connections := s.connections.set connectionID connection' }

/-- A chunk is read byte by byte, since its callbacks run as soon as their last byte is there. The loop of the
connection goes on as long as there are bytes, also when a callback has destroyed the connection. -/
def onRead (allocates : Nat → Bool) (connectionID : ConnectionID) (data : Bytes) : Option BinderSocket :=
  data.foldlM (fun s byte =>
    s.onConnection connectionID fun connection => connection.onRead (fun _ => .nothing) allocates [byte]) s

/-- What the stream of a connection calls back with. -/
def deliver (allocates : Nat → Bool) (connectionID : ConnectionID) (s : BinderSocket) : Delivery → Option BinderSocket
  | .data data => s.onRead allocates connectionID data
  | .gone reason => s.onConnection connectionID fun connection => connection.onRemoteDisconnect reason

/-- The new connection is connected as in `connectWith`, and the socket is told what it reports meanwhile. -/
def onClientConnect (allocates : Nat → Bool) (early : List Delivery) : Option BinderSocket := do
  let (s, connectionID) ← s.createConnection none
  let connection ← s.connections.get? connectionID
  if connection.connected then none
  else do
    let s ← early.foldlM (deliver allocates connectionID)
      { s with connections := s.connections.set connectionID connection.starts }
    let connection ← s.connections.get? connectionID
    if connection.connected then
      some { s with connections := s.connections.set connectionID connection.processSendQueue }
    else none

/-- A stream that is closed calls back no more. -/
def onStream (allocates : Nat → Bool) (connectionID : ConnectionID) (delivery : Delivery) : Option BinderSocket :=
  if s.connections.contains connectionID then s.deliver allocates connectionID delivery else some s

def step (allocates : Nat → Bool) (s : BinderSocket) : BinderEvent → Option BinderSocket
  | .clientConnect early => s.onClientConnect allocates early
  | .read connectionID data => s.onStream allocates connectionID (.data data)
  | .close connectionID reason => s.onStream allocates connectionID (.gone reason)
  | .sendMessage remoteIdentity messagePayload => s.sendMessage remoteIdentity messagePayload
  | .sendMulticastMessage messagePayload remotePrefix =>
    some (s.sendMulticastMessage messagePayload remotePrefix)
  | .recvMessage => some s.recvMessage
  | .closeConnection remoteIdentity => s.closeConnection remoteIdentity
  | .clock elapsed => some { s with now := s.now + elapsed }
  | .shutdown => some s.shutdown

def run (allocates : Nat → Bool) (s : BinderSocket) (events : List BinderEvent) : Option BinderSocket :=
  events.foldlM (step allocates) s

end BinderSocket

end Scaler.Ymq
