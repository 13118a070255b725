import Scaler.Ymq.ConnectorSocket
import Scaler.Ymq.Receiving

/-! Every client that is attached to a connection starts with a handshake. -/

namespace Scaler.Ymq

open Collections

namespace MessageConnection

variable {c c' : MessageConnection} {client : Client} {react : Event → Reaction}
  {allocates : Nat → Bool}

/-- Only a connection that has a client reads from it, or lets go of it. -/
def Possible (c : MessageConnection) : Operation → Prop
  | .connect _ _ | .sendMessage _ => True
  | _ => c.connected = true

/-- What a stream delivers at its start leaves the connection standing: it does not report the end, and brings
neither bytes that are refused nor another identity than the known one. -/
def Harmless (allocates : Nat → Bool) (c : MessageConnection) (early : List Delivery) : Prop :=
  ∃ pieces : List Bytes, early = pieces.map .data ∧ ¬WrongIdentity allocates c pieces.flatten ∧
    ∀ first, first <+: pieces.flatten → ¬Refused allocates (c.receivedBytes ++ first)

/-- No client replaces another one, the remote end is the known one, the owner does not end the connection
while it is told something, and the connection does not end before its reading has been started. -/
def Safe (allocates : Nat → Bool) (c : MessageConnection) : Operation → Prop
  | .connect early react => c.connected = false ∧ (∀ event, react event = .nothing) ∧
    Harmless allocates c.starts early
  | .read data react => (∀ event, react event = .nothing) ∧ ¬WrongIdentity allocates c data
  | _ => True

/-- Every operation of a run is possible and safe where it happens. -/
def Orderly (allocates : Nat → Bool) : MessageConnection → List Operation → Prop
  | _, [] => True
  | c, operation :: operations => c.Possible operation ∧ c.Safe allocates operation ∧
    ∀ c', c.step allocates operation = some c' → Orderly allocates c' operations

/-- No client is attached and the next one is expected to start with the magic string. -/
structure Detached (c : MessageConnection) : Prop where
  awaits : Awaits .disconnected magicString.length .magicNumber c
  client : c.client = none
  pending : ∃ queue, c.sendPending =
    [magicString] :: [littleEndian c.localIdentity.length, c.localIdentity] :: queue

/-- A client is attached, and all that was written on it begins with the handshake. -/
structure Attached (allocates : Nat → Bool) (c : MessageConnection) : Prop where
  pending : c.sendPending = []
  client : ∃ client, c.client = some client ∧ handshake c.localIdentity <+: client.written.flatten ∧
    Progress allocates c client.received

/-- The connection after its client is gone. -/
def detach (c : MessageConnection) : MessageConnection :=
  { fresh c.localIdentity c.remoteIdentity with events := c.events }

theorem detach_detached (c : MessageConnection) : c.detach.Detached := ⟨⟨rfl, rfl⟩, rfl, [], rfl⟩

theorem init_eq (hp : c.sendPending = []) : c.init = some c.detach := by
  simp only [init, sendHandshake, hp, if_true, Option.bind_eq_bind, Option.bind_some]
  rfl

theorem onRemoteDisconnect_eq (hp : c.sendPending = []) (hc : c.connected = true)
    (reason : DisconnectReason) :
    c.onRemoteDisconnect reason = some (c.detach.report (.remoteDisconnect reason)) := by
  rw [onRemoteDisconnect, if_pos hc, init_eq hp]
  rfl

/-- After a read the client is still attached, or it is gone and the owner was told so. -/
inductive Outcome (allocates : Nat → Bool) (c c' : MessageConnection) : Prop where
  | stays (told : List Event) : c'.Attached allocates → c'.localIdentity = c.localIdentity →
    c'.events = c.events ++ told → Undisturbed told → Outcome allocates c c'
  | drops (told : List Event) (reason : DisconnectReason) : c'.Detached →
    c'.localIdentity = c.localIdentity →
    c'.events = c.events ++ told ++ [Event.remoteDisconnect reason] → Undisturbed told →
    Outcome allocates c c'

variable (allocates) in
theorem Outcome.dropped (hp : c.sendPending = []) (hc : c.connected = true)
    (reason : DisconnectReason) :
    ∃ c', c.onRemoteDisconnect reason = some c' ∧ Outcome allocates c c' := by
  refine ⟨_, onRemoteDisconnect_eq hp hc reason, .drops [] reason ?_ rfl ?_ (by simp [Undisturbed])⟩
  · exact ⟨⟨rfl, rfl⟩, rfl, [], rfl⟩
  · rw [List.append_nil]
    rfl

theorem Attached.reading (h : c.Attached allocates) : c.Reading allocates c.receivedBytes := by
  obtain ⟨-, client, hc, -, hprog⟩ := h
  have hr : c.receivedBytes = client.received := by rw [receivedBytes, hc]; rfl
  rw [hr]
  exact ⟨⟨client.written, hc⟩, hprog⟩

theorem Attached.of_went (h : c.Attached allocates) {data received : Bytes} (hw : Went c c' data)
    (hr : c'.Reading allocates received) : c'.Attached allocates := by
  obtain ⟨hp, client, hc, hwritten, -⟩ := h
  obtain ⟨written, hc'⟩ := hr.client
  have hcl := hw.client
  rw [hc, hc'] at hcl
  cases hcl
  exact ⟨hw.sendPending.trans hp, _, hc', hw.localIdentity ▸ hwritten, hr.progress⟩

/-- Reading bytes, however many. -/
theorem Attached.consume (hreact : ∀ event, react event = .nothing) (h : c.Attached allocates) (data : Bytes)
    (hwrong : ¬WrongIdentity allocates c data) :
    ∃ c', consume react allocates data c = some c' ∧ Outcome allocates c c' := by
  rcases h.reading.consume hreact data hwrong with
    ⟨c', he, hr, hw⟩ | ⟨first, rest, c', rfl, -, -, hcon, hw, he⟩
  · obtain ⟨told, hev, ht⟩ := hw.events
    exact ⟨c', he, .stays told (h.of_went hw hr) hw.localIdentity hev ht⟩
  · obtain ⟨told, hev, ht⟩ := hw.events
    rw [onRemoteDisconnect_eq (hw.sendPending.trans h.pending) hcon, Option.bind_some] at he
    refine ⟨_, he.trans (consume_disconnected rfl rest), .drops told .aborted ⟨⟨rfl, rfl⟩, rfl, [], rfl⟩ hw.localIdentity ?_ ht⟩
    rw [← hev]
    rfl

/-- The next client that is attached is read from the magic string on, it is first sent the magic string and the
identity, and a well-formed remote end is understood, whatever its stream delivers at its start. -/
def StartsClean (allocates : Nat → Bool) (identity : Identity) (c : MessageConnection) : Prop :=
  ∃ c', c.connect = some c' ∧ Awaits .connected magicString.length .magicNumber c' ∧
    (∃ client, c'.client = some client ∧ client.received = [] ∧
      handshake identity <+: client.written.flatten) ∧
    ∀ (remote : Identity) (messages early later : List Bytes),
      (∀ payload ∈ remote :: messages, payload.length < 2 ^ 64 ∧ allocates payload.length = true) →
      (∀ known ∈ c'.remoteIdentity, known = remote) → (early ++ later).flatten = wire remote messages →
      ∃ c'', (c.connectWith (fun _ => .nothing) allocates (early.map .data)).bind (fun c =>
          later.foldlM (fun c data => c.onRead (fun _ => .nothing) allocates data) c) = some c'' ∧
        c''.events = c'.events ++ Event.remoteIdentity remote :: messages.map .recvMessage

theorem Detached.connect (h : c.Detached) :
    ∃ c', c.connect = some c' ∧ c' = c.starts.processSendQueue ∧
      Awaits .connected magicString.length .magicNumber c' ∧ c'.sendPending = [] ∧
      c'.localIdentity = c.localIdentity ∧ c'.remoteIdentity = c.remoteIdentity ∧ c'.events = c.events ∧
      ∃ client, c'.client = some client ∧ client.received = [] ∧
        handshake c.localIdentity <+: client.written.flatten := by
  obtain ⟨queue, hq⟩ := h.pending
  obtain ⟨w, he, hw⟩ := processSendQueue_spec ⟨[], []⟩ (c := c.starts) rfl
  have hcon : c.connected = false := by simp [connected, h.awaits.state]
  refine ⟨_, if_neg (by rw [hcon]; exact Bool.false_ne_true), rfl, ?_⟩
  rw [he]
  refine ⟨⟨rfl, h.awaits.recv⟩, rfl, rfl, rfl, rfl, ⟨w, []⟩, rfl, rfl, ?_⟩
  rw [hw, show c.starts.sendPending = c.sendPending from rfl, hq]
  simp [handshake, frame]

theorem Detached.startsClean (h : c.Detached) : StartsClean allocates c.localIdentity c := by
  obtain ⟨c', he, heq, haw, -, -, -, -, hw⟩ := h.connect
  refine ⟨c', he, haw, hw, fun remote messages early later hm hk hp => ?_⟩
  obtain ⟨c'', events, hc, hcon, hev, hd⟩ := consume_wire (fun _ => .nothing) (fun _ => rfl)
    hm haw hk (hp ▸ List.prefix_refl _ : (early ++ later).flatten <+: _)
  have hoff : c.connected = false := by simp [connected, h.awaits.state]
  rw [List.flatten_append, consume_append] at hc
  obtain ⟨c₁, h₁, h₂⟩ := Option.bind_eq_some_iff.mp hc
  have hearly := connectWith_eq (fun _ => rfl) hoff (heq ▸ h₁) (consume_connected h₂ hcon)
  refine ⟨c'', ?_, ?_⟩
  · rw [hearly, Option.bind_some]
    exact foldlM_onRead h₂ hcon
  · rw [hp] at hd
    rw [hev, hd.all]

/-- The connection has a client that is read in step, or none. -/
def Settled (allocates : Nat → Bool) (identity : Identity) (c : MessageConnection) : Prop :=
  c.localIdentity = identity ∧ (c.Attached allocates ∨ c.Detached)

namespace Settled

variable {identity : Identity}

theorem detached (h : Settled allocates identity c) (hc : c.connected = false) : c.Detached := by
  rcases h.2 with ⟨-, client, -, -, hp⟩ | hd
  · rw [hp.buffer.1] at hc
    cases hc
  · exact hd

theorem attached (h : Settled allocates identity c) (hc : c.connected = true) :
    c.Attached allocates := by
  rcases h.2 with ha | hd
  · exact ha
  · simp [connected, hd.awaits.state] at hc

theorem of_outcome (hl : c.localIdentity = identity) (h : Outcome allocates c c') :
    Settled allocates identity c' := by
  cases h with
  | stays told ha hl' hev ht => exact ⟨hl'.trans hl, .inl ha⟩
  | drops told reason hd hl' hev ht => exact ⟨hl'.trans hl, .inr hd⟩

theorem connect (h : Settled allocates identity c) (hc : c.connected = false) :
    ∃ c', c.connect = some c' ∧ Settled allocates identity c' ∧ c'.events = c.events := by
  obtain ⟨c', he, -, haw, hp, hl, -, hev, client, hcl, hr, hw⟩ := (h.detached hc).connect
  refine ⟨c', he, ⟨hl.trans h.1, .inl ⟨hp, client, hcl, hl ▸ hw, ?_⟩⟩, hev⟩
  rw [hr]
  exact .magicNumber haw.state (by decide) haw.recv

/-- The client that is attached stays when its stream is started. -/
theorem connectWith (hreact : ∀ event, react event = .nothing) (h : Settled allocates identity c)
    (hc : c.connected = false) {early : List Delivery} (hearly : Harmless allocates c.starts early) :
    ∃ c', c.connectWith react allocates early = some c' ∧ Settled allocates identity c' ∧ c'.connected = true ∧
      ∃ told, c'.events = c.events ++ told ∧ Undisturbed told := by
  obtain ⟨pieces, rfl, hwrong, href⟩ := hearly
  obtain ⟨d, he, heq, haw, -, -, hi, hev, client, hcl, hr, -⟩ := (h.detached hc).connect
  obtain ⟨d', he', hset, -⟩ := h.connect hc
  cases he.symm.trans he'
  have ha : d.Attached allocates := hset.attached (by simp [connected, haw.state])
  have hwrong' : ¬WrongIdentity allocates d pieces.flatten := by
    rintro ⟨-, known, hk, x, hx, hmore⟩
    cases hcl.symm.trans hx
    rw [hr] at hmore
    exact hwrong ⟨rfl, known, hi ▸ hk, ⟨[], []⟩, rfl, hmore⟩
  have hreceived : d.receivedBytes = [] := by
    rw [receivedBytes, hcl]
    exact hr
  obtain ⟨c', hread, hreading, hwent⟩ := ha.reading.read hreact hwrong' fun first hp _ => hreceived ▸ href first hp
  have hcon : c'.connected = true := hreading.progress.buffer.1
  refine ⟨c', connectWith_eq hreact hc (heq ▸ hread) hcon, ⟨?_, .inl (ha.of_went hwent hreading)⟩, hcon, ?_⟩
  · exact hwent.localIdentity.trans hset.1
  · rw [← hev]
    exact hwent.events

theorem sendMessage (h : Settled allocates identity c) (payload : Bytes) :
    Settled allocates identity (c.sendMessage payload) ∧
      (c.sendMessage payload).connected = c.connected := by
  cases hc : c.connected with
  | true =>
    obtain ⟨hp, client, hcl, hw, hprog⟩ := h.attached hc
    obtain ⟨w, he, hw'⟩ := sendMessage_spec hcl hc hp payload
    rw [he]
    refine ⟨⟨h.1, .inl ⟨hp, _, rfl, ?_, ?_⟩⟩, hc⟩
    · rw [hw']
      exact List.prefix_append_of_prefix hw
    · exact hprog.congr rfl rfl
  | false =>
    obtain ⟨haw, hcl, queue, hq⟩ := h.detached hc
    rw [sendMessage_pending hc]
    refine ⟨⟨h.1, .inr ⟨⟨haw.state, haw.recv⟩, hcl,
      queue ++ [[littleEndian payload.length, payload]], ?_⟩⟩, hc⟩
    rw [hq]
    rfl

variable (react) in
theorem read (hreact : ∀ event, react event = .nothing) (h : Settled allocates identity c)
    (hc : c.connected = true) {data : Bytes} (hw : ¬WrongIdentity allocates c data) :
    ∃ c', c.onRead react allocates data = some c' ∧ Outcome allocates c c' := by
  obtain ⟨c', he, ho⟩ := (h.attached hc).consume hreact data hw
  refine ⟨c', ?_, ho⟩
  rw [onRead, if_pos hc]
  exact he

theorem close (h : Settled allocates identity c) (hc : c.connected = true)
    (reason : DisconnectReason) :
    ∃ c', c.onRemoteDisconnect reason = some c' ∧ Outcome allocates c c' :=
  Outcome.dropped allocates (h.attached hc).pending hc reason

theorem teardown (h : Settled allocates identity c) (hc : c.connected = true) :
    c.init = some c.detach ∧ Settled allocates identity c.detach :=
  ⟨init_eq (h.attached hc).pending, h.1, .inr c.detach_detached⟩

theorem step {operation : Operation} (h : Settled allocates identity c)
    (hp : c.Possible operation) (hs : c.Safe allocates operation) :
    ∃ c', c.step allocates operation = some c' ∧ Settled allocates identity c' := by
  cases operation with
  | connect early react =>
    obtain ⟨hc, hreact, hearly⟩ := hs
    obtain ⟨c', he, h', -⟩ := h.connectWith hreact hc hearly
    exact ⟨c', he, h'⟩
  | disconnect =>
    obtain ⟨he, h'⟩ := h.teardown hp
    exact ⟨_, (if_pos hp).trans he, h'⟩
  | abort =>
    obtain ⟨he, h'⟩ := h.teardown hp
    exact ⟨_, (if_pos hp).trans he, h'⟩
  | sendMessage payload => exact ⟨_, rfl, (h.sendMessage payload).1⟩
  | read data react =>
    obtain ⟨c', he, ho⟩ := h.read react hs.1 hp hs.2
    exact ⟨c', he, of_outcome h.1 ho⟩
  | close reason =>
    obtain ⟨c', he, ho⟩ := h.close hp reason
    exact ⟨c', he, of_outcome h.1 ho⟩

theorem run {operations : List Operation} (h : Settled allocates identity c)
    (ho : Orderly allocates c operations) :
    ∃ c', c.run allocates operations = some c' ∧ Settled allocates identity c' := by
  induction operations generalizing c with
  | nil => exact ⟨c, rfl, h⟩
  | cons operation operations ih =>
    obtain ⟨hp, hs, hrest⟩ := ho
    obtain ⟨c₁, he, h₁⟩ := h.step hp hs
    obtain ⟨c', he', h'⟩ := ih h₁ (hrest c₁ he)
    refine ⟨c', ?_, h'⟩
    rw [MessageConnection.run, List.foldlM_cons, he]
    exact he'

end Settled

theorem settled_fresh (identity : Identity) (known : Option Identity) :
    Settled allocates identity (fresh identity known) := ⟨rfl, .inr ⟨⟨rfl, rfl⟩, rfl, [], rfl⟩⟩

end MessageConnection

namespace ConnectorSocket

open MessageConnection

variable {allocates : Nat → Bool} {identity : Identity} {s s' : ConnectorSocket}

/-- Clients come to a socket that waits for them, and bytes from the client it has. -/
def Possible (s : ConnectorSocket) : SocketEvent → Prop
  | .clientConnected _ _ => s.isBinding = false ∧ s.connecting = true
  | .clientAccepted _ => s.isBinding = true
  | .sendMessage _ => True
  | .read _ _ | .close _ _ => s.connection.connected = true

/-- A bound socket that has a client is not given another one, its remote end is the known one, and a connection
does not end before its reading has been started. -/
def Safe (allocates : Nat → Bool) (s : ConnectorSocket) : SocketEvent → Prop
  | .clientConnected success _ => ∀ early ∈ success, Harmless allocates s.connection.starts early
  | .clientAccepted early => s.disconnected = true ∨
    s.connection.connected = false ∧ Harmless allocates s.connection.starts early
  | .read data _ => ¬WrongIdentity allocates s.connection data
  | _ => True

def Orderly (allocates : Nat → Bool) : ConnectorSocket → List SocketEvent → Prop
  | _, [] => True
  | s, event :: events => s.Possible event ∧ s.Safe allocates event ∧
    ∀ s', s.step allocates event = some s' → Orderly allocates s' events

/-- A socket connects only while it has no client. -/
structure Sound (allocates : Nat → Bool) (identity : Identity) (s : ConnectorSocket) : Prop where
  settled : Settled allocates identity s.connection
  connecting : s.connecting = true → s.isBinding = false ∧ s.connection.connected = false

theorem onEvents_undisturbed {told : List Event} (h : Undisturbed told) (restarts : Bool)
    (more : List Event) : s.onEvents restarts (told ++ more) = s.onEvents restarts more := by
  induction told with
  | nil => rfl
  | cons event told ih =>
    have ht : Undisturbed told := fun reason hr => h reason (List.mem_cons_of_mem _ hr)
    rw [List.cons_append, onEvents, List.foldlM_cons]
    cases event with
    | remoteDisconnect reason => exact absurd List.mem_cons_self (h reason)
    | remoteIdentity | recvMessage => exact ih ht

theorem onRemoteDisconnect_spec (h : Settled allocates identity s.connection)
    (hidle : s.connecting = false) (hoff : s.connection.connected = false)
    (reason : DisconnectReason) (restarts : Bool) :
    ∃ s', s.onRemoteDisconnect reason restarts = some s' ∧ s'.Sound allocates identity := by
  obtain ⟨isBinding, disconnected, connecting, connection⟩ := s
  obtain rfl : connecting = false := hidle
  cases reason with
  | disconnected => exact ⟨_, rfl, h, fun hx => by cases hx⟩
  | aborted =>
    cases isBinding with
    | true => exact ⟨_, rfl, h, fun hx => by cases hx⟩
    | false =>
      cases restarts with
      | true => exact ⟨_, rfl, h, fun _ => ⟨rfl, hoff⟩⟩
      | false => exact ⟨_, rfl, h, fun hx => by cases hx⟩

theorem Sound.onConnection {o : Operation} {c' : MessageConnection}
    (h : s.Sound allocates identity) (hc : s.connection.connected = true)
    (he : s.connection.step allocates o = some c') (ho : Outcome allocates s.connection c')
    (restarts : Bool) :
    ∃ s', s.onConnection allocates o restarts = some s' ∧ s'.Sound allocates identity := by
  have hset := Settled.of_outcome h.settled.1 ho
  have hidle : s.connecting = false := by
    cases hx : s.connecting with
    | false => rfl
    | true =>
      rw [(h.connecting hx).2] at hc
      cases hc
  rw [ConnectorSocket.onConnection, he]
  change ∃ s', onEvents { s with connection := c' } restarts
    (c'.events.drop s.connection.events.length) = some s' ∧ _
  cases ho with
  | stays told ha hl hev ht =>
    refine ⟨{ s with connection := c' }, ?_, hset, fun hx => ?_⟩
    · rw [hev, List.drop_left, ← List.append_nil told, onEvents_undisturbed ht]
      rfl
    · rw [show s.connecting = true from hx] at hidle
      cases hidle
  | drops told reason hd hl hev ht =>
    have hoff : c'.connected = false := by simp [connected, hd.awaits.state]
    have hlast : onEvents { s with connection := c' } restarts
        (c'.events.drop s.connection.events.length) =
        onRemoteDisconnect { s with connection := c' } reason restarts := by
      rw [hev, List.append_assoc, List.drop_left, onEvents_undisturbed ht, onEvents, List.foldlM_cons]
      exact bind_pure _
    rw [hlast]
    exact onRemoteDisconnect_spec (s := { s with connection := c' }) hset hidle hoff reason restarts

/-- A new client. -/
theorem Sound.onConnect (h : s.Sound allocates identity) (hidle : s.connecting = false)
    (hoff : s.connection.connected = false) {early : List Delivery}
    (hearly : Harmless allocates s.connection.starts early) (restarts : Bool) :
    ∃ s', s.onConnection allocates (.connect early fun _ => .nothing) restarts = some s' ∧
      s'.Sound allocates identity := by
  obtain ⟨c', he, hset, -, told, hev, ht⟩ := h.settled.connectWith (fun _ => rfl) hoff hearly
  refine ⟨{ s with connection := c' }, ?_, hset, fun hx => ?_⟩
  · rw [ConnectorSocket.onConnection, MessageConnection.step, he, Option.bind_eq_bind, Option.bind_some, hev,
      List.drop_left, ← List.append_nil told, onEvents_undisturbed ht]
    rfl
  · rw [show s.connecting = true from hx] at hidle
    cases hidle

theorem Sound.step {event : SocketEvent} (h : s.Sound allocates identity)
    (hp : s.Possible event) (hs : s.Safe allocates event) :
    ∃ s', s.step allocates event = some s' ∧ s'.Sound allocates identity := by
  cases event with
  | clientConnected success restarts =>
    obtain ⟨hb, hc⟩ := hp
    rw [ConnectorSocket.step, onClientConnected, if_neg (by rw [hb]; exact Bool.false_ne_true)]
    have h' : Sound allocates identity { s with connecting := false } := ⟨h.settled, fun hx => by cases hx⟩
    cases success with
    | none => exact ⟨_, rfl, h.settled, fun hx => by cases hx⟩
    | some early => exact h'.onConnect rfl (h.connecting hc).2 (hs early rfl) restarts
  | clientAccepted early =>
    have hb : s.isBinding = true := hp
    rw [ConnectorSocket.step, onClientAccepted, if_neg (by rw [hb]; decide)]
    split
    · exact ⟨s, rfl, h⟩
    · next hd =>
      obtain ⟨hoff, hearly⟩ := hs.resolve_left hd
      refine h.onConnect ?_ hoff hearly false
      cases hx : s.connecting with
      | false => rfl
      | true =>
        rw [(h.connecting hx).1] at hb
        cases hb
  | sendMessage payload =>
    rw [ConnectorSocket.step]
    split
    · exact ⟨s, rfl, h⟩
    · obtain ⟨h', hc⟩ := h.settled.sendMessage payload
      refine ⟨_, rfl, h', fun hx => ?_⟩
      obtain ⟨hb, hoff⟩ := h.connecting hx
      exact ⟨hb, hc.trans hoff⟩
  | read data restarts =>
    obtain ⟨c', he, ho⟩ := h.settled.read (fun _ => .nothing) (fun _ => rfl) hp hs
    exact h.onConnection (o := .read data fun _ => .nothing) hp he ho restarts
  | close reason restarts =>
    obtain ⟨c', he, ho⟩ := h.settled.close hp reason
    exact h.onConnection (o := .close reason) hp he ho restarts

theorem Sound.run {events : List SocketEvent} (h : s.Sound allocates identity)
    (ho : Orderly allocates s events) :
    ∃ s', s.run allocates events = some s' ∧ s'.Sound allocates identity := by
  induction events generalizing s with
  | nil => exact ⟨s, rfl, h⟩
  | cons event events ih =>
    obtain ⟨hp, hs, hrest⟩ := ho
    obtain ⟨s₁, he, h₁⟩ := h.step hp hs
    obtain ⟨s', he', h'⟩ := ih h₁ (hrest s₁ he)
    refine ⟨s', ?_, h'⟩
    rw [ConnectorSocket.run, List.foldlM_cons, he]
    exact he'

end ConnectorSocket

open MessageConnection

/-- In a run of a connection or of a connector socket in which no client replaces another one, no remote end gives
another identity than before, no callback ends the connection and no stream ends it at its start, no assertion
fails, and every client that is attached starts with a clean handshake. -/
theorem reconnected_starts_clean (allocates : Nat → Bool) (identity : Identity)
    (known : Option Identity) :
    (∀ c operations, new identity known = some c → MessageConnection.Orderly allocates c operations →
      ∃ c', c.run allocates operations = some c' ∧
        (c'.connected = false → StartsClean allocates identity c')) ∧
    ∀ s events, (ConnectorSocket.bind identity = some s ∨
        ∃ restarts, ConnectorSocket.connect identity restarts = some s) →
      ConnectorSocket.Orderly allocates s events →
      ∃ s', s.run allocates events = some s' ∧
        (s'.connection.connected = false → StartsClean allocates identity s'.connection) := by
  have hclean : ∀ c, Settled allocates identity c → c.connected = false →
      StartsClean allocates identity c := by
    rintro c h hc
    rw [← h.1]
    exact (h.detached hc).startsClean
  constructor
  · intro c operations hc ho
    cases hc
    obtain ⟨c', he, h'⟩ := (settled_fresh identity known).run ho
    exact ⟨c', he, hclean c' h'⟩
  · intro s events hs ho
    have hsound : s.Sound allocates identity := by
      rcases hs with hs | ⟨restarts, hs⟩
      · cases hs
        exact ⟨settled_fresh identity none, fun hx => by cases hx⟩
      · cases restarts with
        | true =>
          cases hs
          exact ⟨settled_fresh identity none, fun _ => ⟨rfl, rfl⟩⟩
        | false =>
          cases hs
          exact ⟨settled_fresh identity none, fun hx => by cases hx⟩
    obtain ⟨s', he, h'⟩ := hsound.run ho
    exact ⟨s', he, hclean _ h'.settled⟩

/-- A remote end that sends something else than the magic string does no harm to the next. -/
theorem reconnected_starts_clean_after_bad_magic :
    ∃ c c', new [7] none = some c ∧ c.run (fun n => n < 1024)
        [.connect [.data [89, 77]] fun _ => .nothing, .read [1, 2, 3, 4, 5] fun _ => .nothing] = some c' ∧
      (c'.connected = false → StartsClean (fun n => n < 1024) [7] c') := by
  have hwrong : ∀ c data, c.remoteIdentity = none → ¬WrongIdentity (fun n => n < 1024) c data := by
    rintro c data hn ⟨-, known, hk, -⟩
    rw [hn] at hk
    cases hk
  have hearly : Harmless (fun n => n < 1024) (fresh [7] none).starts [.data [89, 77]] := by
    refine ⟨[[89, 77]], rfl, hwrong _ _ rfl, fun first hfirst href => ?_⟩
    have hshort : first.length ≤ 2 := hfirst.length_le
    have hlong : 4 ≤ first.length := href.le_length
    omega
  obtain ⟨c', he, h⟩ := (reconnected_starts_clean (fun n => n < 1024) [7] none).1 _
    [.connect [.data [89, 77]] fun _ => .nothing, .read [1, 2, 3, 4, 5] fun _ => .nothing] (new_eq [7] none) (by
      refine ⟨trivial, ⟨rfl, fun _ => rfl, hearly⟩, fun c₁ h₁ => ⟨?_, ⟨fun _ => rfl, hwrong c₁ _ ?_⟩, fun _ _ => trivial⟩⟩
      · cases h₁
        rfl
      · cases h₁
        rfl)
  exact ⟨_, c', new_eq [7] none, he, h⟩

/-- A bound socket is given a second client while it has one; a client comes back with another identity; and the
stream of a client has the wrong magic string at its start. Each run is fine up to its last event. -/
theorem attached_again_asserts :
    let run events := (ConnectorSocket.bind [7]).bind fun s => s.run (fun n => n < 1024) events
    let again := [.clientAccepted [], .read (wire [1] []) true, .close .aborted true, .clientAccepted []]
    (run [.clientAccepted []]).isSome ∧ (run [.clientAccepted [], .clientAccepted []]).isNone ∧
      (run again).isSome ∧ (run (again ++ [SocketEvent.read (wire [2] []) true])).isNone ∧
      (run [.clientAccepted [.data [1, 2, 3, 4]]]).isNone := by
  decide +kernel

end Scaler.Ymq
