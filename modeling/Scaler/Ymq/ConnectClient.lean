import Scaler.Collections.Outcome
import Scaler.Ymq.SendCallbacks

/-! A `ConnectorSocket` in connect mode with the `ConnectClient` that makes its connection rounds.
The calls of the user are executed by the event loop in the order they are made. -/

namespace Scaler.Ymq

open Collections

/-- What carries the connection: a plain TCP or IPC stream, a `SecureSocket`, or a
`WebSocketStream` over either. -/
inductive Transport where
  | stream
  | secure
  | webSocket
  deriving DecidableEq, Repr

inductive ConnectorError where
  | invalidAddressFormat
  | sslContext
  | socketStopRequested
  | connectorSocketClosedByRemoteEnd
  deriving DecidableEq, Repr

/-- The first round reports to the user, the later ones to nobody. -/
inductive ConnectCallback where
  | user
  | nobody
  deriving DecidableEq, Repr

structure ReceivedMessage where
  address : Identity
  payload : Bytes
  deriving DecidableEq, Repr

/-- What the connection reads: a message, or that the remote end is gone. `usable` is whether a TLS
context can be made for the next round. -/
inductive ConnectionRead where
  | message (message : ReceivedMessage)
  | remoteDisconnect (reason : DisconnectReason) (usable : Bool)
  deriving DecidableEq, Repr

/-- How an attempt ends. `early` is what `readStart` reads before it returns, from the bytes that
came with the end of a TLS handshake or of an upgrade. -/
inductive AttemptResult where
  | connected (early : List ConnectionRead)
  | canceled
  | failed
  deriving DecidableEq, Repr

/-- What ends the process: a failed assertion, a call of a socket that has no state any more,
`value()` of an empty `_client`, a callback that was released, a null `_connection`, or a shift by
the width of the type. -/
inductive ConnectFault where
  | assertion
  | noState
  | badOptionalAccess
  | badFunctionCall
  | nullConnection
  | shiftCount
  deriving DecidableEq, Repr

/-- The state of a `ConnectClient`. `requested` is whether an attempt has still to be answered,
`closed` whether its handle was closed meanwhile, `retryTimer` what is left to wait for, and
`attempts` and `delays` are what the round did so far. -/
structure ConnectClient where
  onConnectCallback : Option ConnectCallback
  client : Bool
  requested : Bool
  closed : Bool
  retryTimes : Nat
  retryTimer : Option Nat
  attempts : Nat
  delays : List Nat
  deriving DecidableEq, Repr

/-- `connecting` is `_connectClient.has_value()`, `round` the state of the last `ConnectClient`,
and `shutDown` whether the socket has given up its state. The connection is null when it is
destroyed. -/
structure ConnectingSocket where
  transport : Transport
  maxRetryTimes : Nat
  initRetryDelay : Nat
  disconnected : Bool
  connecting : Bool
  round : ConnectClient
  connection : MessageSender
  pendingRecvCallbacks : List Nat
  pendingRecvMessages : List ReceivedMessage
  shutDown : Bool
  recvCalls : Nat
  connectInvoked : List (Except ConnectorError Unit)
  recvInvoked : List (Nat × Except ConnectorError ReceivedMessage)
  sendsRefused : List ConnectorError

/-- The arguments of `connect`: `parsed` is whether the address is well formed, and `usable`
whether a TLS context can be made for it. -/
structure ConnectConfig where
  identity : Identity
  parsed : Bool
  usable : Bool
  transport : Transport
  maxRetryTimes : Nat
  initRetryDelay : Nat
  deriving DecidableEq, Repr

inductive ConnectEvent where
  | attemptDone (result : AttemptResult)
  | retryTimeout
  | read (read : ConnectionRead)
  | writeDone (index : Nat) (result : WriteResult)
  | sendMessage (payload : Bytes)
  | recvMessage
  | shutdown
  deriving DecidableEq, Repr

namespace ConnectClient

variable (r : ConnectClient)

/-- `ConnectClient::tryConnect`. An attempt that cannot even be started ends the process. -/
def tryConnect : ConnectClient :=
  { r with client := true, requested := true, closed := false, retryTimer := none, attempts := r.attempts + 1 }

/-- `ConnectClient::init`, once there is a TLS context. -/
def init (onConnectCallback : ConnectCallback) : ConnectClient :=
  tryConnect ⟨some onConnectCallback, false, false, false, 0, none, 0, []⟩

/-- `disconnect` closes the handle of a stream, but the upgrade of a `WebSocketStream` keeps its
handle open. -/
def disconnect (transport : Transport) : ConnectClient :=
  { r with retryTimer := none, client := false, closed := r.requested && transport != .webSocket }

end ConnectClient

namespace ConnectingSocket

variable (accepts : Nat → Bool) (s : ConnectingSocket)

def invokeConnect (onConnectCallback : ConnectCallback) (result : Except ConnectorError Unit) : ConnectingSocket :=
  match onConnectCallback with
  | .user => { s with connectInvoked := s.connectInvoked ++ [result] }
  | .nobody => s

def invokeRecv (callback : Nat) (result : Except ConnectorError ReceivedMessage) : ConnectingSocket :=
  { s with recvInvoked := s.recvInvoked ++ [(callback, result)] }

def fillPendingRecvCallbacksWithErr (err : ConnectorError) : ConnectingSocket :=
  { s with
    pendingRecvCallbacks := []
    recvInvoked := s.recvInvoked ++ s.pendingRecvCallbacks.map fun callback => (callback, .error err) }

/-- `_connectClient.reset()`, when no attempt of it is left to be answered. -/
def resetConnectClient : ConnectingSocket :=
  if s.connecting then { s with connecting := false, round := s.round.disconnect s.transport } else s

/-- `ConnectorSocket::tryConnect`. -/
def tryConnect (onConnectCallback : ConnectCallback) (usable : Bool) : Except ConnectFault ConnectingSocket :=
  if s.connecting then .error .assertion
  else if usable then .ok { s with connecting := true, round := .init onConnectCallback }
  else .ok ({ s with disconnected := true }.fillPendingRecvCallbacksWithErr .sslContext)

def onRemoteDisconnect (reason : DisconnectReason) (usable : Bool) : Except ConnectFault ConnectingSocket :=
  match reason with
  | .disconnected =>
    .ok ({ s with disconnected := true }.fillPendingRecvCallbacksWithErr .connectorSocketClosedByRemoteEnd)
  | .aborted => s.tryConnect .nobody usable

def onMessage (message : ReceivedMessage) : ConnectingSocket :=
  match s.pendingRecvCallbacks with
  | [] => { s with pendingRecvMessages := s.pendingRecvMessages ++ [message] }
  | callback :: callbacks => { s with pendingRecvCallbacks := callbacks }.invokeRecv callback (.ok message)

/-- Nothing is read from a connection that is down. -/
def read : ConnectionRead → Except ConnectFault ConnectingSocket
  | .message message => if s.connection.connected then .ok (s.onMessage message) else .ok s
  | .remoteDisconnect reason usable =>
    if s.connection.connected then
      match s.connection.disconnect accepts with
      | some connection => { s with connection := connection }.onRemoteDisconnect reason usable
      | none => .error .assertion
    else .ok s

/-- `MessageConnection::connect`. -/
def connectClient (early : List ConnectionRead) : Except ConnectFault ConnectingSocket :=
  if s.connection.destroyed then .error .nullConnection
  else if s.connection.connected then .error .assertion
  else do
    let s ← early.foldlM (read accepts) { s with connection := { s.connection with connected := true } }
    if s.connection.connected then .ok { s with connection := s.connection.processSendQueue accepts }
    else .error .assertion

def onClientConnected (onConnectCallback : ConnectCallback) (result : Except ConnectorError (List ConnectionRead)) :
    Except ConnectFault ConnectingSocket :=
  let s := s.resetConnectClient
  match result with
  | .error err =>
    .ok (({ s with disconnected := true }.invokeConnect onConnectCallback (.error err)).fillPendingRecvCallbacksWithErr
      err)
  | .ok early => do
    let s ← s.connectClient accepts early
    .ok (s.invokeConnect onConnectCallback (.ok ()))

/-- The callback of the round is invoked, then released. -/
def finishRound (result : Except ConnectorError (List ConnectionRead)) : Except ConnectFault ConnectingSocket :=
  match s.round.onConnectCallback with
  | some onConnectCallback =>
    onClientConnected accepts { s with round := { s.round with onConnectCallback := none } } onConnectCallback result
  | none => .error .badFunctionCall

/-- `ConnectClient::retry`. The delay is a signed word that is shifted, and the timer takes it
for an unsigned one. -/
def retry : Except ConnectFault ConnectingSocket :=
  let retryTimes := s.round.retryTimes + 1
  if retryTimes > s.maxRetryTimes then
    finishRound accepts { s with round := { s.round with retryTimes := retryTimes, client := false } }
      (.error .connectorSocketClosedByRemoteEnd)
  else if retryTimes < 64 then
    let delay := s.initRetryDelay * 2 ^ retryTimes % 2 ^ 64
    .ok { s with round := { s.round with
      retryTimes := retryTimes, retryTimer := some delay, delays := s.round.delays ++ [delay] } }
  else .error .shiftCount

/-- `ConnectClient::onConnect`. -/
def onConnect : AttemptResult → Except ConnectFault ConnectingSocket
  | .canceled => s.finishRound accepts (.error .socketStopRequested)
  | .failed => s.retry accepts
  | .connected early => if s.round.client then s.finishRound accepts (.ok early) else .error .badOptionalAccess

def sendMessage (payload : Bytes) : Except ConnectFault ConnectingSocket :=
  if s.disconnected then
    .ok { s with sendsRefused := s.sendsRefused ++ [.connectorSocketClosedByRemoteEnd] }
  else match s.connection.step accepts (.sendMessage payload) with
    | some connection => .ok { s with connection := connection }
    | none => .error .nullConnection

def recvMessage : ConnectingSocket :=
  let s : ConnectingSocket := { s with recvCalls := s.recvCalls + 1 }
  match s.pendingRecvMessages with
  | message :: messages => { s with pendingRecvMessages := messages }.invokeRecv (s.recvCalls - 1) (.ok message)
  | [] =>
    if s.disconnected then s.invokeRecv (s.recvCalls - 1) (.error .connectorSocketClosedByRemoteEnd)
    else { s with pendingRecvCallbacks := s.pendingRecvCallbacks ++ [s.recvCalls - 1] }

/-- `_connectClient.reset()` in `shutdown`: a `SecureSocket` cancels an unanswered attempt before
its destructor returns, the loop does so later for a stream. -/
def abandonConnectClient : Except ConnectFault ConnectingSocket :=
  let requested := s.connecting && s.round.requested
  let s := s.resetConnectClient
  if requested ∧ s.transport = .secure then
    { s with round := { s.round with requested := false } }.onConnect accepts .canceled
  else .ok s

def shutdown : Except ConnectFault ConnectingSocket := do
  if s.shutDown then .ok s
  else
    let s ← s.abandonConnectClient accepts
    let s := { s with connection := s.connection.destroy }.fillPendingRecvCallbacksWithErr .socketStopRequested
    .ok { s with pendingRecvMessages := [], shutDown := true }

/-- `ConnectorSocket::connect`. A malformed address leaves the socket without a state. -/
def connect (config : ConnectConfig) : Except ConnectFault ConnectingSocket :=
  match MessageSender.new accepts config.identity with
  | none => .error .assertion
  | some connection =>
    let s : ConnectingSocket := ⟨config.transport, config.maxRetryTimes, config.initRetryDelay, false, false,
      ⟨none, false, false, false, 0, none, 0, []⟩, connection, [], [], false, 0, [], [], []⟩
    if config.parsed then s.tryConnect .user config.usable
    else .ok { s.invokeConnect .user (.error .invalidAddressFormat) with
      connection := connection.destroy, shutDown := true }

/-- Nothing happens to what is not there: an attempt that is over, or a timer that does not run.
The attempt of a closed handle is canceled. -/
def step (s : ConnectingSocket) : ConnectEvent → Except ConnectFault ConnectingSocket
  | .attemptDone result =>
    if s.round.requested ∧ (s.round.closed = true → result = .canceled) then
      { s with round := { s.round with requested := false } }.onConnect accepts result
    else .ok s
  | .retryTimeout =>
    if s.round.retryTimer.isSome then .ok { s with round := s.round.tryConnect } else .ok s
  | .read read => s.read accepts read
  | .writeDone index result =>
    match s.connection.step accepts (.writeDone index result) with
    | some connection => .ok { s with connection := connection }
    | none => .error .assertion
  | .sendMessage payload => if s.shutDown then .error .noState else s.sendMessage accepts payload
  | .recvMessage => if s.shutDown then .error .noState else .ok s.recvMessage
  | .shutdown => s.shutdown accepts

def run (config : ConnectConfig) (events : List ConnectEvent) : Except ConnectFault ConnectingSocket := do
  let s ← connect accepts config
  events.foldlM (step accepts) s

end ConnectingSocket

end Scaler.Ymq
