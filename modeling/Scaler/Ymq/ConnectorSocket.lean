import Scaler.Ymq.MessageConnection

/-! What may happen to a `MessageConnection`, and the `ConnectorSocket` that owns one. -/

namespace Scaler.Ymq

/-- The calls and callbacks of a connection; `close` is a read that reports the end of the
connection. -/
inductive Operation where
  | connect (early : List Delivery) (react : Event → Reaction)
  | disconnect
  | abort
  | sendMessage (payload : Bytes)
  | read (data : Bytes) (react : Event → Reaction)
  | close (reason : DisconnectReason)

namespace MessageConnection

def step (allocates : Nat → Bool) (c : MessageConnection) : Operation → Option MessageConnection
  | .connect early react => c.connectWith react allocates early
  | .disconnect => c.disconnect
  | .abort => c.abort
  | .sendMessage payload => some (c.sendMessage payload)
  | .read data react => c.onRead react allocates data
  | .close reason => c.onRemoteDisconnect reason

def run (allocates : Nat → Bool) (c : MessageConnection) (operations : List Operation) :
    Option MessageConnection := operations.foldlM (step allocates) c

end MessageConnection

/-- `connecting` is `_connectClient.has_value()`. -/
structure ConnectorSocket where
  isBinding : Bool
  disconnected : Bool
  connecting : Bool
  connection : MessageConnection

/-- `restarts` is whether a `ConnectClient` can be made when the connection has to be tried
again. -/
inductive SocketEvent where
  | clientConnected (success : Option (List Delivery)) (restarts : Bool)
  | clientAccepted (early : List Delivery)
  | sendMessage (payload : Bytes)
  | read (data : Bytes) (restarts : Bool)
  | close (reason : DisconnectReason) (restarts : Bool)
  deriving DecidableEq, Repr

namespace ConnectorSocket

variable (s : ConnectorSocket)

def tryConnect (restarts : Bool) : Option ConnectorSocket :=
  if s.isBinding ∨ s.connecting then none
  else if restarts then some { s with connecting := true }
  else some { s with disconnected := true }

/-- `ConnectorSocket::connect`. -/
def connect (identity : Identity) (restarts : Bool) : Option ConnectorSocket := do
  let connection ← MessageConnection.new identity none
  (ConnectorSocket.mk false false false connection).tryConnect restarts

/-- `ConnectorSocket::bind`. -/
def bind (identity : Identity) : Option ConnectorSocket := do
  let connection ← MessageConnection.new identity none
  some ⟨true, false, false, connection⟩

def onRemoteDisconnect (reason : DisconnectReason) (restarts : Bool) : Option ConnectorSocket :=
  match reason with
  | .disconnected => some { s with disconnected := true }
  | .aborted => if s.isBinding then some s else s.tryConnect restarts

/-- The socket is told what its connection reported. -/
def onEvents (restarts : Bool) (events : List Event) : Option ConnectorSocket :=
  events.foldlM (fun s event =>
    match event with
    | .remoteDisconnect reason => s.onRemoteDisconnect reason restarts
    | _ => some s) s

/-- An operation of the connection and the callbacks it makes. -/
def onConnection (allocates : Nat → Bool) (operation : Operation) (restarts : Bool) :
    Option ConnectorSocket := do
  let connection ← s.connection.step allocates operation
  { s with connection := connection }.onEvents restarts
    (connection.events.drop s.connection.events.length)

/-- The client of a `ConnectClient`, with what its stream delivers at its start, or none. -/
def onClientConnected (allocates : Nat → Bool) (success : Option (List Delivery)) (restarts : Bool) :
    Option ConnectorSocket :=
  if s.isBinding then none
  else
    let s := { s with connecting := false }
    match success with
    | some early => s.onConnection allocates (.connect early fun _ => .nothing) restarts
    | none => some { s with disconnected := true }

/-- A bound socket restarts nothing. -/
def onClientAccepted (allocates : Nat → Bool) (early : List Delivery) : Option ConnectorSocket :=
  if s.isBinding = false then none
  else if s.disconnected then some s
  else s.onConnection allocates (.connect early fun _ => .nothing) false

def step (allocates : Nat → Bool) (s : ConnectorSocket) : SocketEvent → Option ConnectorSocket
  | .clientConnected success restarts => s.onClientConnected allocates success restarts
  | .clientAccepted early => s.onClientAccepted allocates early
  | .sendMessage payload =>
    if s.disconnected then some s
    else some { s with connection := s.connection.sendMessage payload }
  | .read data restarts => s.onConnection allocates (.read data fun _ => .nothing) restarts
  | .close reason restarts => s.onConnection allocates (.close reason) restarts

def run (allocates : Nat → Bool) (s : ConnectorSocket) (events : List SocketEvent) :
    Option ConnectorSocket := events.foldlM (step allocates) s

end ConnectorSocket

end Scaler.Ymq
