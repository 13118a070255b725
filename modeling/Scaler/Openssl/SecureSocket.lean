import Scaler.Collections.Backlog
import Scaler.Protocol

/-! `SecureSocket` of `wrapper/openssl`. Its code calls back into the code of the user, who may call
the socket again, so what is left of each function that has been entered stands on a stack. What
OpenSSL and the transport answer is part of the events. An assertion that fails ends the process,
except that the shutdown goes on where its queue is not empty, as it does without assertions. What
the user and OpenSSL have seen of the socket is recorded in the order in which it happens. -/

namespace Scaler.Openssl

open Collections

/-- The errors that the socket reports itself, and those of the transport. -/
inductive UvError where
  | canceled
  | brokenPipe
  | invalid
  | protocol
  | transport (code : Int)
  deriving DecidableEq, Repr

/-- `std::expected<void, uv::Error>`. -/
abbrev UvResult := Except UvError Unit

inductive ConnectionState where
  | uninitialized
  | connecting
  | handshaking
  | established
  | closing
  | closed
  deriving DecidableEq, Repr

/-- What an OpenSSL call returns: its status, or the error that `SSL_get_error` gives. -/
inductive SslStatus where
  | status (n : Nat)
  | wantRead
  | wantWrite
  | zeroReturn
  | failed
  deriving DecidableEq, Repr

/-- `callback` is the number of the `write` call that it reports to, if it is no noop. -/
structure PendingWrite where
  payload : Bytes
  callback : Option Nat
  deriving DecidableEq, Repr

/-- What is left of the functions that have been entered, and the code of the user. -/
inductive Frame where
  | callback
  | returned (result : UvResult)
  | processPendingWrites
  | writeLoop
  | flushWrites
  | tryFinishHandshake
  | handshakeReported
  | handshakeFlushed
  | tryFinishShutdown
  | shutdownReported
  | flushToApplication (isClosing : Bool)
  | endReported
  | onTransportRead
  | failWithError (error : UvError)
  | failWrites (error : UvError)
  | failEach (error : UvError) (writes : List PendingWrite)
  | failHandshake (error : UvError)
  | failShutdown (error : UvError)

/-- The callback of the write was called, when OpenSSL had accepted these bytes. -/
structure WriteReport where
  write : Nat
  result : UvResult
  accepted : Bytes

structure SecureSocket where
  connectionState : ConnectionState
  onHandshakeCallback : Bool
  onReadCallback : Bool
  onShutdownCallback : Bool
  pendingWrites : List PendingWrite
  -- the shutdowns of the transport that were requested
  transportShutdowns : Nat
  stack : List Frame
  result : UvResult
  -- what others have seen of the socket
  writes : List (List Bytes)
  accepted : Bytes
  reports : List WriteReport

/-- The calls of the user, with what the transport answers to those that need it. -/
inductive UserCall where
  | connect (transport : UvResult)
  | accept (readStart : UvResult)
  | readStart
  | readStop
  | write (buffers : List Bytes)
  | shutdown
  | closeReset (transport : UvResult)
  | destroy

inductive TransportEvent where
  | connected (result readStart : UvResult)
  | read (result : UvResult)
  | shutdown

inductive SocketEvent where
  | call (call : UserCall)
  | callbackReturns
  | transport (event : TransportEvent)
  | advance (ssl : SslStatus) (flush transport : UvResult)

/-- SSL only supports writes up to this size. -/
def intMax : Nat := 2147483647

namespace SecureSocket

def init : SecureSocket := ⟨.uninitialized, false, false, false, [], 0, [], .ok (), [], [], []⟩

variable (s : SecureSocket) (stack : List Frame)

/-- The function on top returns. -/
def returns (result : UvResult) : SecureSocket := { s with stack, result }

/-- `failWithError` and then the return of the error. -/
def fails (error : UvError) : SecureSocket :=
  { s with stack := .failWithError error :: .returned (.error error) :: stack }

/-- The callback of a write is called, if it is no noop; `next` comes after it. -/
def report (callback : Option Nat) (result : UvResult) (next : List Frame) : SecureSocket :=
  match callback with
  | none => { s with stack := next }
  | some write =>
    { s with
      reports := s.reports ++ [⟨write, result, s.accepted⟩]
      stack := .callback :: next }

/-- One round of the loop of `processPendingWrites`. -/
def writeLoop (ssl : SslStatus) (flush : UvResult) : Option SecureSocket :=
  match s.pendingWrites with
  | [] => some { s with stack := .flushWrites :: stack }
  | pendingWrite :: rest =>
    if pendingWrite.payload = [] then
      some ({ s with pendingWrites := rest }.report pendingWrite.callback (.ok ()) (.writeLoop :: stack))
    else
      match ssl with
      | .status n =>
        -- a status of zero or less is no status here
        if 1 ≤ n ∧ n ≤ min pendingWrite.payload.length intMax then
          let accepted := s.accepted ++ pendingWrite.payload.take n
          if n ≥ pendingWrite.payload.length then
            some ({ s with pendingWrites := rest, accepted }.report pendingWrite.callback (.ok ()) (.writeLoop :: stack))
          else
            some
              { s with
                pendingWrites := { pendingWrite with payload := pendingWrite.payload.drop n } :: rest
                accepted
                stack := .writeLoop :: stack }
        else none
      | .wantRead => some { s with stack := .flushWrites :: stack }
      | .wantWrite =>
        match flush with
        | .ok _ => some { s with stack := .writeLoop :: stack }
        | .error error => some (s.fails stack error)
      | _ => some (s.fails stack .protocol)

/-- `tryFinishHandshake`, up to the callback. -/
def tryFinishHandshake (ssl : SslStatus) (flush : UvResult) : Option SecureSocket :=
  if s.connectionState = .handshaking ∧ s.onHandshakeCallback = true then
    match flush with
    | .error error =>
      -- `flushToTransport` has called `failWithError` already
      some { s with stack := .failWithError error :: .failWithError error :: .returned (.error error) :: stack }
    | .ok _ =>
      match ssl with
      | .status n =>
        if n = 1 then
          some { s with connectionState := .established, stack := .callback :: .handshakeReported :: stack }
        else none
      | .wantWrite => some { s with stack := .tryFinishHandshake :: stack }
      | .wantRead => some (s.returns stack (.ok ()))
      | _ => some (s.fails stack .protocol)
  else none

def tryFinishShutdown (ssl : SslStatus) (flush transport : UvResult) : Option SecureSocket :=
  if s.connectionState = .closing ∧ s.onShutdownCallback = true then
    match flush with
    | .error error =>
      some { s with stack := .failWithError error :: .failWithError error :: .returned (.error error) :: stack }
    | .ok _ =>
      match ssl with
      | .status n =>
        if n = 0 then some (s.returns stack (.ok ()))
        else if n = 1 then
          match transport with
          | .ok _ => some ({ s with transportShutdowns := s.transportShutdowns + 1 }.returns stack (.ok ()))
          | .error error => some (s.returns stack (.error error))
        else none
      | .wantWrite => some { s with stack := .tryFinishShutdown :: stack }
      | .wantRead => some (s.returns stack (.ok ()))
      | _ => some (s.fails stack .protocol)
  else none

/-- One round of the loop of `flushToApplication`. -/
def flushToApplication (isClosing : Bool) (ssl : SslStatus) : SecureSocket :=
  if s.onReadCallback ∨ isClosing then
    match ssl with
    | .status _ =>
      if s.onReadCallback then { s with stack := .callback :: .flushToApplication isClosing :: stack }
      else { s with stack := .flushToApplication isClosing :: stack }
    | .wantRead => s.returns stack (.ok ())
    | .wantWrite => s.returns stack (.ok ())
    | .zeroReturn =>
      if s.onReadCallback then { s with stack := .callback :: .endReported :: stack }
      else s.returns stack (.ok ())
    | .failed => s.fails stack .protocol
  else s.returns stack (.ok ())

/-- The frame on top runs on, to the next callback, loop or call. -/
def advance (frame : Frame) (ssl : SslStatus) (flush transport : UvResult) : Option SecureSocket :=
  match frame with
  | .callback => none
  | .returned result => some (s.returns stack result)
  | .processPendingWrites =>
    if s.connectionState ≠ .established ∧ s.connectionState ≠ .closing then some (s.returns stack (.ok ()))
    else some { s with stack := .writeLoop :: stack }
  | .writeLoop => s.writeLoop stack ssl flush
  | .flushWrites =>
    match flush with
    | .error error => some (s.fails stack error)
    | .ok _ =>
      if s.connectionState = .closing then some { s with stack := .tryFinishShutdown :: stack }
      else some (s.returns stack (.ok ()))
  | .tryFinishHandshake => s.tryFinishHandshake stack ssl flush
  | .handshakeReported =>
    some
      { s with
        onHandshakeCallback := false
        stack := .flushToApplication (s.connectionState = .closing) :: .handshakeFlushed :: stack }
  | .handshakeFlushed =>
    match s.result with
    | .error error => some (s.returns stack (.error error))
    | .ok _ => some { s with stack := .processPendingWrites :: stack }
  | .tryFinishShutdown => s.tryFinishShutdown stack ssl flush transport
  | .shutdownReported => some { s with onShutdownCallback := false, stack }
  | .flushToApplication isClosing => some (s.flushToApplication stack isClosing ssl)
  | .endReported => some ({ s with onReadCallback := false }.returns stack (.ok ()))
  | .onTransportRead =>
    match s.result with
    | .error _ => some { s with stack }
    | .ok _ =>
      match s.connectionState with
      | .handshaking => some { s with stack := .tryFinishHandshake :: stack }
      | .closing => some { s with stack := .tryFinishShutdown :: stack }
      | .established => some { s with stack := .processPendingWrites :: stack }
      | .closed => some { s with stack }
      | _ => none
  | .failWithError error =>
    let failed := { s with connectionState := .closed }
    if s.onReadCallback then
      some { failed with onReadCallback := false, stack := .callback :: .failWrites error :: stack }
    else some { failed with stack := .failWrites error :: stack }
  | .failWrites error => some { s with pendingWrites := [], stack := .failEach error s.pendingWrites :: stack }
  | .failEach error [] => some { s with stack := .failHandshake error :: stack }
  | .failEach error (pendingWrite :: rest) =>
    some (s.report pendingWrite.callback (.error error) (.failEach error rest :: stack))
  | .failHandshake error =>
    if s.onHandshakeCallback then
      some { s with onHandshakeCallback := false, stack := .callback :: .failShutdown error :: stack }
    else some { s with stack := .failShutdown error :: stack }
  | .failShutdown _ =>
    if s.onShutdownCallback then some { s with onShutdownCallback := false, stack := .callback :: stack }
    else some { s with stack }

/-- `startHandshake`, from `accept` and from `onTransportConnected`. -/
def startHandshake (readStart : UvResult) : SecureSocket :=
  let s := { s with connectionState := .handshaking }
  match readStart with
  | .error error => s.fails stack error
  | .ok _ => { s with stack := .tryFinishHandshake :: stack }

/-- The buffers of a `write`: only the last one gets the callback. -/
def pendingOf (callback : Nat) : List Bytes → List PendingWrite
  | [] => []
  | [buffer] => [⟨buffer, some callback⟩]
  | buffer :: buffers => ⟨buffer, none⟩ :: pendingOf callback buffers

def write (buffers : List Bytes) : SecureSocket :=
  if s.connectionState = .closing ∨ s.connectionState = .closed then { s with result := .error .brokenPipe }
  else
    let called := { s with writes := s.writes ++ [buffers] }
    if buffers = [] then called.report (some s.writes.length) (.ok ()) (.returned (.ok ()) :: s.stack)
    else
      { called with
        pendingWrites := s.pendingWrites ++ pendingOf s.writes.length buffers
        stack := .processPendingWrites :: s.stack }

/-- A call of the user, who goes on when the frames of the call are done. -/
def call : UserCall → SecureSocket
  | .connect transport =>
    if s.connectionState ≠ .uninitialized then { s with result := .error .invalid }
    else
      let s := { s with connectionState := .connecting, onHandshakeCallback := true }
      match transport with
      | .error error => s.fails s.stack error
      | .ok _ => { s with result := .ok () }
  | .accept readStart =>
    if s.connectionState ≠ .uninitialized then { s with result := .error .invalid }
    else { s with onHandshakeCallback := true }.startHandshake s.stack readStart
  | .readStart =>
    if s.connectionState = .closing ∨ s.connectionState = .closed then { s with result := .error .brokenPipe }
    else
      { s with
        onReadCallback := true
        stack := .flushToApplication (s.connectionState = .closing) :: s.stack }
  | .readStop => { s with onReadCallback := false }
  | .write buffers => s.write buffers
  | .shutdown =>
    if s.connectionState = .closing ∨ s.connectionState = .closed then { s with result := .error .brokenPipe }
    else
      { s with
        connectionState := .closing
        onShutdownCallback := true
        stack := .processPendingWrites :: s.stack }
  | .closeReset transport =>
    if s.connectionState = .closed then { s with result := .error .invalid }
    else { s with onReadCallback := false, stack := .failWithError .canceled :: .returned transport :: s.stack }
  | .destroy =>
    if s.connectionState = .closed then s
    else { s with stack := .failWithError .canceled :: s.stack }

/-- What the event loop delivers. -/
def onTransport : TransportEvent → Option SecureSocket
  | .connected result readStart =>
    if s.connectionState = .connecting ∧ s.onHandshakeCallback = true then
      match result with
      | .error error => some { s with stack := .failWithError error :: s.stack }
      | .ok _ => some (s.startHandshake s.stack readStart)
    else none
  | .read result =>
    match result with
    | .error error => some { s with stack := .failWithError error :: s.stack }
    | .ok _ => some { s with stack := .flushToApplication (s.connectionState = .closing) :: .onTransportRead :: s.stack }
  | .shutdown =>
    if s.transportShutdowns = 0 then none
    else
      let s := { s with connectionState := .closed, transportShutdowns := s.transportShutdowns - 1 }
      if s.onShutdownCallback then some { s with stack := .callback :: .shutdownReported :: s.stack }
      else some s

/-- The user runs when nothing else does, and in the callbacks. -/
def userRuns : Bool :=
  match s.stack with
  | [] => true
  | .callback :: _ => true
  | _ => false

/-- Nothing is the result of an event that cannot happen in this state. -/
def step : SocketEvent → Option SecureSocket
  | .call call => if s.userRuns then some (s.call call) else none
  | .callbackReturns =>
    match s.stack with
    | .callback :: stack => some { s with stack }
    | _ => none
  | .transport event => if s.stack = [] then s.onTransport event else none
  | .advance ssl flush transport =>
    match s.stack with
    | [] => none
    | frame :: stack => s.advance stack frame ssl flush transport

def run (events : List SocketEvent) : Option SecureSocket := events.foldlM step init

end SecureSocket

end Scaler.Openssl
