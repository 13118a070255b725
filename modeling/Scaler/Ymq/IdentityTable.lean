import Scaler.Ymq.BinderSocket
import Scaler.Ymq.Reconnect

/-! As long as no bytes come behind those for which a connection ends, the tables of a `BinderSocket` agree with its
connections, and every message goes to a connection of its identity in the order of the calls. -/

namespace Scaler.Ymq

open Collections

namespace MessageConnection

variable {allocates : Nat → Bool} {c c' : MessageConnection}

/-- The remote end has not said who it is before the connection is established. -/
def Anonymous (c : MessageConnection) : Prop := c.state = .connected ↔ c.remoteIdentity = none

/-- What the owner can be told of the next byte. -/
inductive ByteOutcome (c c' : MessageConnection) : Prop where
  | silent : c'.state = c.state → c'.remoteIdentity = c.remoteIdentity → c'.events = c.events → ByteOutcome c c'
  | identity (remoteIdentity : Identity) : c.state = .connected → c'.state = .established →
    c'.remoteIdentity = some remoteIdentity → c'.events = c.events ++ [Event.remoteIdentity remoteIdentity] →
    ByteOutcome c c'
  | message (payload : Bytes) : c.state = .established → c'.state = .established →
    c'.remoteIdentity = c.remoteIdentity → c'.events = c.events ++ [Event.recvMessage payload] → ByteOutcome c c'
  | dropped (reason : DisconnectReason) : c'.state = .disconnected → c'.remoteIdentity = c.remoteIdentity →
    c'.events = c.events ++ [Event.remoteDisconnect reason] → ByteOutcome c c'

theorem Attached.connected (h : c.Attached allocates) : c.connected = true := by
  obtain ⟨-, client, -, -, hp⟩ := h
  exact hp.buffer.1

theorem state_of_connected (h : c.connected = true) : c.state = .connected ∨ c.state = .established := by
  simpa [MessageConnection.connected] using h

section

variable {first payload : Bytes} {size : Nat} {copied : Bytes} {callback : RecvCallback}

theorem ByteOutcome.onMessagePayload (h : c.Anonymous) (hs : c.state = .connected ∨ c.state = .established)
    (he : (c.copy first none).onMessagePayload (fun _ => .nothing) payload = some c') : ByteOutcome c c' := by
  have hrecv : (c.copy first none).recvCurrent = ⟨none, c.recvCurrent.onRecvDone⟩ := rfl
  rcases hs with hs | hs
  · have hid : ∀ identity ∈ c.remoteIdentity, identity = payload := by
      rw [h.mp hs]
      exact fun _ hm => by cases hm
    have hm := onMessagePayload_identity (fun _ => rfl) (c := c.copy first none) hs hrecv hid
    cases hm.symm.trans he
    exact .identity payload hs rfl rfl rfl
  · have hm := onMessagePayload_established (fun _ => rfl) (c := c.copy first none) hs hrecv payload
    cases hm.symm.trans he
    exact .message payload hs hs rfl rfl

theorem ByteOutcome.onRemoteDisconnect (hp : c.sendPending = []) (hc : c.connected = true)
    {reason : DisconnectReason} (he : (c.copy first none).onRemoteDisconnect reason = some c') :
    ByteOutcome c c' := by
  have hd := onRemoteDisconnect_eq (c := c.copy first none) hp hc reason
  cases hd.symm.trans he
  exact .dropped reason rfl rfl rfl

theorem ByteOutcome.onRecvDone (hp : c.sendPending = []) (h : c.Anonymous) (hc : c.connected = true)
    (he : (c.copy first none).onRecvDone (fun _ => .nothing) allocates payload callback = some c') :
    ByteOutcome c c' := by
  have hs := state_of_connected hc
  have hcon : (c.copy first none).connected = true := hc
  cases callback with
  | magicNumber =>
    rw [MessageConnection.onRecvDone, onMagicNumber, if_pos hcon] at he
    split at he
    · cases he
      exact .silent rfl rfl rfl
    · exact .onRemoteDisconnect hp hc he
  | header =>
    rw [MessageConnection.onRecvDone, onHeader, if_pos hcon] at he
    dsimp only at he
    split at he
    · exact .onRemoteDisconnect hp hc he
    · split at he
      · exact .onMessagePayload h hs he
      · cases he
        exact .silent rfl rfl rfl
  | message => exact .onMessagePayload h hs he

end

theorem Anonymous.right (h : c.Anonymous) (data : Bytes) : ¬WrongIdentity allocates c data := by
  rintro ⟨hs, known, hk, -⟩
  rw [h.mp hs] at hk
  cases hk

theorem Attached.read_byte (h : c.Attached allocates) (hi : c.Anonymous) (byte : UInt8) :
    ∃ c', MessageConnection.consume (fun _ => .nothing) allocates [byte] c = some c' ∧ Outcome allocates c c' ∧ ByteOutcome c c' := by
  obtain ⟨c', he, ho⟩ := h.consume (fun _ => rfl) [byte] (hi.right _)
  have hcon := h.connected
  refine ⟨c', he, ho, ?_⟩
  obtain ⟨hp, client, hcl, -, hprog⟩ := id h
  obtain ⟨-, size, copied, callback, hr, hs⟩ := hprog.buffer
  by_cases hl : copied.length + [byte].length < size
  · rw [consume_unfilled hcon (by rw [hr]) hl, if_neg (List.cons_ne_nil _ _)] at he
    cases he
    exact .silent rfl rfl rfl
  · have hfull : copied.length + [byte].length = size := by
      rw [List.length_singleton] at hl ⊢
      omega
    have hf : MessageConnection.consume (fun _ => .nothing) allocates ([byte] ++ []) c = _ :=
      consume_full hcon hr hfull (List.cons_ne_nil _ _)
    rw [List.append_nil, he, Option.bind_some] at hf
    obtain ⟨c₁, he₁, he₂⟩ := Option.bind_eq_some_iff.mp hf.symm
    cases he₂
    exact .onRecvDone hp hi hcon he₁

/-- The connection reads in step, once its queue has been sent. -/
def Ready (allocates : Nat → Bool) (c : MessageConnection) : Prop := c.processSendQueue.Attached allocates

theorem processSendQueue_of_empty (hp : c.sendPending = []) : c.processSendQueue = c := by
  rw [processSendQueue, hp, List.foldl_nil, ← hp]

theorem Attached.ready (h : c.Attached allocates) : c.Ready allocates := by
  rwa [Ready, processSendQueue_of_empty h.pending]

theorem Ready.attached (h : c.Ready allocates) (hp : c.sendPending = []) : c.Attached allocates := by
  rwa [Ready, processSendQueue_of_empty hp] at h

theorem Ready.connected (h : c.Ready allocates) : c.connected = true := by
  have hd := Attached.connected h
  rwa [processSendQueue_eq] at hd

/-- What has happened to a connection that has read these bytes. -/
structure Happened (allocates : Nat → Bool) (c c' : MessageConnection) (data : Bytes) : Prop where
  outcome : ByteOutcome c c'
  stays : c'.connected = true → c'.Ready allocates ∧ c'.sendPending = c.sendPending ∧
    c'.receivedBytes = c.receivedBytes ++ data

theorem Went.receivedBytes {data : Bytes} (h : Went c c' data) (hc : c.client ≠ none) :
    c'.receivedBytes = c.receivedBytes ++ data := by
  obtain ⟨client, hc⟩ := Option.ne_none_iff_exists'.mp hc
  rw [MessageConnection.receivedBytes, MessageConnection.receivedBytes, h.client, hc]
  rfl

/-- A byte that is not refused leaves the connection standing, whether its queue has been sent or not. -/
theorem Ready.read_byte (h : c.Ready allocates) (hi : c.Anonymous) {byte : UInt8}
    (href : ¬Refused allocates (c.receivedBytes ++ [byte])) :
    ∃ c', c.onRead (fun _ => .nothing) allocates [byte] = some c' ∧ Happened allocates c c' [byte] ∧
      c'.connected = true := by
  have ha : c.processSendQueue.Attached allocates := h
  have heq := processSendQueue_eq c
  have hi' : c.processSendQueue.Anonymous := by rwa [heq]
  have href' : ∀ first, first <+: [byte] → first ≠ [] → ¬Refused allocates (c.processSendQueue.receivedBytes ++ first) := by
    intro first hp hne
    obtain ⟨rest, hrest⟩ := hp
    obtain ⟨rfl, -⟩ : first = [byte] ∧ rest = [] := by
      cases first with
      | nil => exact absurd rfl hne
      | cons b first => simpa [and_assoc] using hrest
    rwa [heq, receivedBytes_flushed]
  obtain ⟨d, hread, -, hb⟩ := ha.read_byte hi' byte
  obtain ⟨d', hread', hreading, hwent⟩ := ha.reading.read (fun _ => rfl) (hi'.right _) href'
  cases hread.symm.trans hread'
  have hcon : d.connected = true := hreading.progress.buffer.1
  have hready := ha.of_went hwent hreading
  have hbytes := hwent.receivedBytes (by obtain ⟨-, client, hc, -⟩ := ha; simp [hc])
  rw [heq] at hread hb hbytes
  obtain ⟨c', hc', rfl, hp⟩ := consume_flushed (fun _ => rfl) hread hcon
  rw [receivedBytes_flushed, receivedBytes_flushed] at hbytes
  have hready' : c'.Ready allocates := by
    rwa [Ready, processSendQueue_eq, hp]
  refine ⟨c', (if_pos h.connected).trans hc', ⟨?_, fun _ => ⟨hready', hp, hbytes⟩⟩, hcon⟩
  cases hb with
  | silent hs hi he => exact .silent hs hi he
  | identity X hs hs' hi he => exact .identity X hs hs' hi he
  | message payload hs hs' hi he => exact .message payload hs hs' hi he
  | dropped reason hs hi he => exact .dropped reason hs hi he

/-- The last byte of a read may be refused. -/
theorem Attached.read_last (h : c.Attached allocates) (hi : c.Anonymous) (byte : UInt8) :
    ∃ c', c.onRead (fun _ => .nothing) allocates [byte] = some c' ∧ Happened allocates c c' [byte] := by
  obtain ⟨c', hread, -, hb⟩ := h.read_byte hi byte
  refine ⟨c', (if_pos h.connected).trans hread, hb, fun hcon => ?_⟩
  rcases h.reading.consume (fun _ => rfl) [byte] (hi.right _) with
    ⟨d, he, hreading, hwent⟩ | ⟨first, rest, d, -, -, -, hd, hwent, he⟩
  · cases hread.symm.trans he
    refine ⟨(h.of_went hwent hreading).ready, hwent.sendPending, hwent.receivedBytes ?_⟩
    obtain ⟨-, client, hc, -⟩ := h
    simp [hc]
  · rw [onRemoteDisconnect_eq (hwent.sendPending.trans h.pending) hd, Option.bind_some, hread,
      consume_disconnected rfl] at he
    cases he
    cases hcon

/-- The connection is the same as before to those who look it up. -/
structure Kept (allocates : Nat → Bool) (c c' : MessageConnection) : Prop where
  ready : c.Ready allocates → c'.Ready allocates
  pending : c.sendPending = [] → c'.sendPending = []
  state : c'.state = c.state
  remoteIdentity : c'.remoteIdentity = c.remoteIdentity
  receivedBytes : c'.receivedBytes = c.receivedBytes

theorem Kept.refl (c : MessageConnection) : Kept allocates c c := ⟨id, id, rfl, rfl, rfl⟩

theorem Kept.trans {c'' : MessageConnection} (h : Kept allocates c c') (h' : Kept allocates c' c'') :
    Kept allocates c c'' :=
  ⟨h'.ready ∘ h.ready, h'.pending ∘ h.pending, h'.state.trans h.state, h'.remoteIdentity.trans h.remoteIdentity,
    h'.receivedBytes.trans h.receivedBytes⟩

theorem Ready.kept_sendMessage (h : c.Ready allocates) (payload : Bytes) :
    Kept allocates c (c.sendMessage payload) := by
  have hc := h.connected
  have ha : c.processSendQueue.Attached allocates := h
  have hset : Settled allocates c.processSendQueue.localIdentity c.processSendQueue := ⟨rfl, .inl ha⟩
  obtain ⟨hset', hcon⟩ := hset.sendMessage payload
  have ha' : (c.sendMessage payload).Attached allocates := by
    rw [sendMessage_queue hc]
    exact hset'.attached (hcon.trans ha.connected)
  rw [sendMessage_eq hc] at ha' ⊢
  exact ⟨fun _ => ha'.ready, fun _ => rfl, rfl, rfl, receivedBytes_flushed _ _⟩

end MessageConnection

namespace BinderSocket

open MessageConnection

variable {allocates : Nat → Bool} {s s' : BinderSocket} {id : ConnectionID} {c c' : MessageConnection}
  {X : Identity} {busy : Option ConnectionID}

/-- A read ends with the bytes for which its connection ends, if it brings them, and what a stream delivers at its
start neither has such bytes nor reports the end. -/
def Whole (allocates : Nat → Bool) (s : BinderSocket) : BinderEvent → Prop
  | .clientConnect early => ∃ pieces : List Bytes, early = pieces.map .data ∧
    ∀ first, first <+: pieces.flatten → ¬Refused allocates first
  | .read id data => ∀ c, s.connections.get? id = some c → ∀ first rest, data = first ++ rest → first ≠ [] →
    rest ≠ [] → ¬Refused allocates (c.receivedBytes ++ first)
  | _ => True

/-- Every read of a run is whole where it happens. -/
def Orderly (allocates : Nat → Bool) : BinderSocket → List BinderEvent → Prop
  | _, [] => True
  | s, event :: events => s.Whole allocates event ∧
    ∀ s', s.step allocates event = some s' → Orderly allocates s' events

/-- A connection that the socket has under this number. The queue of the busy one, which is being connected, has
not been sent yet. -/
structure Live (allocates : Nat → Bool) (busy : Option ConnectionID) (counter : ConnectionID)
    (ids : Dict Identity ConnectionID) (id : ConnectionID) (c : MessageConnection) : Prop where
  ready : c.Ready allocates
  flushed : busy ≠ some id → c.sendPending = []
  anonymous : c.Anonymous
  numbered : id < counter
  mapped : ∀ X, c.remoteIdentity = some X → ids.get? X = some id

/-- What holds of the tables between two events. -/
structure Tables (allocates : Nat → Bool) (busy : Option ConnectionID) (s : BinderSocket) : Prop where
  live : ∀ id c, s.connections.get? id = some c →
    Live allocates busy s.connectionCounter s.identityToConnectionID id c
  mapped : ∀ X id, s.identityToConnectionID.get? X = some id →
    ∃ c, s.connections.get? id = some c ∧ c.remoteIdentity = some X
  quiet : ∀ X id, s.identityToConnectionID.get? X = some id →
    s.pendingSendMessages.get? X = none ∧ s.disconnectedIdentities.get? X = none
  gone : ∀ X ts, s.disconnectedIdentities.get? X = some ts →
    s.pendingSendMessages.get? X = none ∧ (ts, X) ∈ s.disconnectedIdentityInsertions

/-- Every connection is the same as before to those who look it up. -/
def Similar (allocates : Nat → Bool) (connections connections' : Dict ConnectionID MessageConnection) : Prop :=
  ∀ id, Option.Rel (Kept allocates) (connections.get? id) (connections'.get? id)

section Similar

variable {connections connections' connections'' : Dict ConnectionID MessageConnection}

theorem Similar.refl (connections : Dict ConnectionID MessageConnection) :
    Similar allocates connections connections := by
  intro id
  cases connections.get? id with
  | none => exact .none
  | some c => exact .some (.refl c)

theorem Similar.set (hc : connections.get? id = some c) (hk : Kept allocates c c') :
    Similar allocates connections (connections.set id c') := by
  intro j
  rw [Dict.get?_set]
  split
  · next hj =>
    rw [hj, hc]
    exact .some hk
  · exact Similar.refl connections j

theorem Similar.trans (h : Similar allocates connections connections')
    (h' : Similar allocates connections' connections'') : Similar allocates connections connections'' := by
  intro id
  have h₁ := h id
  have h₂ := h' id
  cases hc : connections.get? id with
  | none =>
    rw [hc] at h₁
    cases hc' : connections'.get? id with
    | none =>
      rw [hc'] at h₂
      exact h₂
    | some c' =>
      rw [hc'] at h₁
      cases h₁
  | some c =>
    rw [hc] at h₁
    cases hc' : connections'.get? id with
    | none =>
      rw [hc'] at h₁
      cases h₁
    | some c' =>
      rw [hc'] at h₁ h₂
      cases hc'' : connections''.get? id with
      | none =>
        rw [hc''] at h₂
        cases h₂
      | some c'' =>
        rw [hc''] at h₂
        cases h₁ with
        | some hk =>
          cases h₂ with
          | some hk' => exact .some (hk.trans hk')

theorem Similar.get (h : Similar allocates connections connections') (hc : connections'.get? id = some c') :
    ∃ c, connections.get? id = some c ∧ Kept allocates c c' := by
  have hi := h id
  rw [hc] at hi
  cases hd : connections.get? id with
  | none =>
    rw [hd] at hi
    cases hi
  | some c =>
    rw [hd] at hi
    cases hi with
    | some hk => exact ⟨c, rfl, hk⟩

theorem Similar.get' (h : Similar allocates connections connections') (hc : connections.get? id = some c) :
    ∃ c', connections'.get? id = some c' ∧ Kept allocates c c' := by
  have hi := h id
  rw [hc] at hi
  cases hd : connections'.get? id with
  | none =>
    rw [hd] at hi
    cases hi
  | some c' =>
    rw [hd] at hi
    cases hi with
    | some hk => exact ⟨c', rfl, hk⟩

end Similar

theorem Tables.similar {connections' : Dict ConnectionID MessageConnection} (h : s.Tables allocates busy)
    (hs : Similar allocates s.connections connections') :
    Tables allocates busy { s with connections := connections' } where
  live id c' hc' := by
    obtain ⟨c, hc, hk⟩ := hs.get hc'
    obtain ⟨hr, hf, hi, hn, hm⟩ := h.live id c hc
    refine ⟨hk.ready hr, fun hb => hk.pending (hf hb), ?_, hn, fun X hX => hm X (hk.remoteIdentity ▸ hX)⟩
    rw [Anonymous, hk.state, hk.remoteIdentity]
    exact hi
  mapped X id hX := by
    obtain ⟨c, hc, hi⟩ := h.mapped X id hX
    obtain ⟨c', hc', hk⟩ := hs.get' hc
    exact ⟨c', hc', hk.remoteIdentity.trans hi⟩
  quiet := h.quiet
  gone := h.gone

theorem foldlM_sendOn (hc : s.connections.get? id = some c) (ha : c.Ready allocates)
    (messages : List PendingSendMessage) :
    ∃ connections', Similar allocates s.connections connections' ∧
      messages.foldlM (fun s message => s.sendOn id message) s = some { s with
        connections := connections'
        handed := s.handed ++ messages.map fun message => ⟨id, c.remoteIdentity, message.onMessageSent⟩ } := by
  induction messages generalizing s c with
  | nil => exact ⟨s.connections, .refl _, by simp⟩
  | cons message messages ih =>
    have hk := ha.kept_sendMessage message.messagePayload
    have hstep : s.sendOn id message = some { s with
        connections := s.connections.set id (c.sendMessage message.messagePayload)
        handed := s.handed ++ [⟨id, c.remoteIdentity, message.onMessageSent⟩] } := by
      rw [sendOn, hc]
      rfl
    obtain ⟨connections', hs, he⟩ := ih (s := { s with
        connections := s.connections.set id (c.sendMessage message.messagePayload)
        handed := s.handed ++ [⟨id, c.remoteIdentity, message.onMessageSent⟩] })
      (Dict.get?_set_self _ _ _) (hk.ready ha)
    refine ⟨connections', (Similar.set hc hk).trans hs, ?_⟩
    rw [List.foldlM_cons, hstep]
    refine he.trans ?_
    rw [hk.remoteIdentity]
    simp

section History

/-- The calls of `sendMessage` for an identity. -/
def sentTo (sent : List Identity) (X : Identity) : List Nat :=
  (sent.zipIdx.filter fun call => call.1 = X).map Prod.snd

/-- The messages that were passed to connections of this identity. -/
def handedTo (handed : List Handed) (X : Identity) : List Nat :=
  (handed.filter fun message => message.remoteIdentity = some X).map (·.onMessageSent)

def failedTo (failed : List FailedSend) (X : Identity) : List Nat :=
  (failed.filter fun message => message.remoteIdentity = X).map (·.onMessageSent)

def waitingFor (pending : Dict Identity (List PendingSendMessage)) (X : Identity) : List Nat :=
  ((pending.get? X).getD []).map (·.onMessageSent)

/-- Every message was handed on, failed, or waits, and what was handed on or waits is in the
order of the calls. -/
structure History (s : BinderSocket) : Prop where
  ordered : ∀ X, (handedTo s.handed X ++ waitingFor s.pendingSendMessages X).Sublist (sentTo s.sent X)
  complete : ∀ X, (handedTo s.handed X ++ failedTo s.failed X ++ waitingFor s.pendingSendMessages X).Perm
    (sentTo s.sent X)
  named : ∀ message ∈ s.handed, message.remoteIdentity ≠ none

variable {sent : List Identity} {pending : Dict Identity (List PendingSendMessage)} {X Y : Identity}

theorem sentTo_append : sentTo (sent ++ [X]) Y = sentTo sent Y ++ if X = Y then [sent.length] else [] := by
  rw [sentTo, List.zipIdx_append, List.filter_append, List.map_append]
  congr 1
  by_cases hY : X = Y <;> simp [hY]

theorem pairwise_sentTo (sent : List Identity) (X : Identity) : (sentTo sent X).Pairwise (· < ·) := by
  have hidx : ∀ (l : List Identity) (n : Nat), (l.zipIdx n).Pairwise fun a b => a.2 < b.2 := by
    intro l
    induction l with
    | nil => exact fun _ => .nil
    | cons Y l ih =>
      intro n
      rw [List.zipIdx_cons]
      refine .cons (fun e he => ?_) (ih (n + 1))
      obtain ⟨hle, -⟩ := List.mem_zipIdx he
      exact hle
  exact List.pairwise_map.mpr ((hidx sent 0).filter _)

theorem handedTo_append (handed : List Handed) (id : ConnectionID) (calls : List PendingSendMessage) :
    handedTo (handed ++ calls.map fun message => ⟨id, some X, message.onMessageSent⟩) Y =
      handedTo handed Y ++ if X = Y then calls.map (·.onMessageSent) else [] := by
  rw [handedTo, List.filter_append, List.map_append]
  congr 1
  by_cases hY : X = Y <;> simp [hY, List.filter_map, Function.comp_def]

theorem failedTo_append (failed : List FailedSend) (error : SocketError) (calls : List PendingSendMessage) :
    failedTo (failed ++ calls.map fun message => ⟨X, message.onMessageSent, error⟩) Y =
      failedTo failed Y ++ if X = Y then calls.map (·.onMessageSent) else [] := by
  rw [failedTo, List.filter_append, List.map_append]
  congr 1
  by_cases hY : X = Y <;> simp [hY, List.filter_map, Function.comp_def]

theorem waitingFor_append (message : PendingSendMessage) :
    waitingFor (pending.set X ((pending.get? X).getD [] ++ [message])) Y =
      waitingFor pending Y ++ if X = Y then [message.onMessageSent] else [] := by
  rw [waitingFor, Dict.get?_set]
  by_cases hY : Y = X
  · subst hY
    simp [waitingFor]
  · rw [if_neg hY, if_neg (Ne.symm hY), List.append_nil]
    rfl

theorem waitingFor_erase : waitingFor (pending.erase X) Y = if X = Y then [] else waitingFor pending Y := by
  rw [waitingFor, Dict.get?_erase]
  by_cases hY : Y = X
  · rw [if_pos hY, if_pos hY.symm]
    rfl
  · rw [if_neg hY, if_neg (Ne.symm hY)]
    rfl

theorem waitingFor_eq_nil (h : pending.get? X = none) : waitingFor pending X = [] := by
  rw [waitingFor, h]
  rfl

theorem History.drain (h : s.History) (id : ConnectionID) (X : Identity) :
    History { s with
      handed := s.handed ++ ((s.pendingSendMessages.get? X).getD []).map fun message =>
        ⟨id, some X, message.onMessageSent⟩
      pendingSendMessages := s.pendingSendMessages.erase X } := by
  refine ⟨fun Y => ?_, fun Y => ?_, fun message hm => ?_⟩
  · have ho := h.ordered Y
    dsimp only
    rw [handedTo_append, waitingFor_erase]
    split
    · next hY =>
      subst hY
      rw [List.append_nil]
      exact ho
    · rw [List.append_nil]
      exact ho
  · have hp := h.complete Y
    dsimp only
    rw [handedTo_append, waitingFor_erase]
    split
    · next hY =>
      subst hY
      rw [List.append_nil, List.append_assoc]
      refine .trans ?_ hp
      rw [List.append_assoc]
      exact List.perm_append_comm.append_left _
    · rw [List.append_nil]
      exact hp
  · rcases List.mem_append.mp hm with hm | hm
    · exact h.named message hm
    · obtain ⟨_, _, rfl⟩ := List.mem_map.mp hm
      exact Option.some_ne_none X

theorem History.hand (h : s.History) (hw : s.pendingSendMessages.get? X = none) (id : ConnectionID) :
    History { s with
      sent := s.sent ++ [X]
      handed := s.handed ++ [⟨id, some X, s.sent.length⟩] } := by
  have hhanded := fun Y => handedTo_append (X := X) (Y := Y) s.handed id [⟨[], s.sent.length⟩]
  simp only [List.map_cons, List.map_nil] at hhanded
  refine ⟨fun Y => ?_, fun Y => ?_, fun message hm => ?_⟩
  · have ho := h.ordered Y
    dsimp only
    rw [hhanded, sentTo_append]
    by_cases hY : X = Y
    · subst hY
      rw [waitingFor_eq_nil hw, List.append_nil] at ho ⊢
      exact ho.append_right _
    · rw [if_neg hY, List.append_nil, List.append_nil]
      exact ho
  · have hp := h.complete Y
    dsimp only
    rw [hhanded, sentTo_append]
    by_cases hY : X = Y
    · subst hY
      rw [waitingFor_eq_nil hw, List.append_nil] at hp ⊢
      rw [List.append_assoc]
      refine (List.perm_append_comm.append_left _).trans ?_
      rw [← List.append_assoc]
      exact hp.append_right _
    · rw [if_neg hY, List.append_nil, List.append_nil]
      exact hp
  · rcases List.mem_append.mp hm with hm | hm
    · exact h.named message hm
    · rw [List.mem_singleton.mp hm]
      exact Option.some_ne_none X

theorem History.refuse (h : s.History) (hw : s.pendingSendMessages.get? X = none) (error : SocketError) :
    History { s with
      sent := s.sent ++ [X]
      failed := s.failed ++ [⟨X, s.sent.length, error⟩] } := by
  have hfailed := fun Y => failedTo_append (X := X) (Y := Y) s.failed error [⟨[], s.sent.length⟩]
  simp only [List.map_cons, List.map_nil] at hfailed
  refine ⟨fun Y => ?_, fun Y => ?_, h.named⟩
  · dsimp only
    rw [sentTo_append]
    exact (h.ordered Y).trans (List.sublist_append_left _ _)
  · have hp := h.complete Y
    dsimp only
    rw [hfailed, sentTo_append]
    by_cases hY : X = Y
    · subst hY
      rw [waitingFor_eq_nil hw, List.append_nil] at hp ⊢
      rw [← List.append_assoc]
      exact hp.append_right _
    · rw [if_neg hY, List.append_nil, List.append_nil]
      exact hp

theorem History.wait (h : s.History) (X : Identity) (payload : Bytes) :
    History { s with
      sent := s.sent ++ [X]
      pendingSendMessages := s.pendingSendMessages.set X
        ((s.pendingSendMessages.get? X).getD [] ++ [⟨payload, s.sent.length⟩]) } := by
  refine ⟨fun Y => ?_, fun Y => ?_, h.named⟩
  · dsimp only
    rw [waitingFor_append, sentTo_append, ← List.append_assoc]
    exact (h.ordered Y).append_right _
  · dsimp only
    rw [waitingFor_append, sentTo_append, ← List.append_assoc]
    exact (h.complete Y).append_right _

end History

section Steps

/-- The invariant of the socket. -/
structure Sound (allocates : Nat → Bool) (busy : Option ConnectionID) (s : BinderSocket) : Prop where
  tables : s.Tables allocates busy
  history : s.History

/-- What the purge keeps was there before, and has its slot. -/
theorem purgeExpired_spec (now : Nat) {insertions : List (Nat × Identity)} {identities : Dict Identity Nat}
    (h : ∀ X ts, identities.get? X = some ts → (ts, X) ∈ insertions) :
    ∀ X ts, (purgeExpired now insertions identities).2.get? X = some ts →
      identities.get? X = some ts ∧ (ts, X) ∈ (purgeExpired now insertions identities).1 := by
  induction insertions generalizing identities with
  | nil => exact fun X ts hX => ⟨hX, h X ts hX⟩
  | cons slot insertions ih =>
    obtain ⟨expiredTs, expiredId⟩ := slot
    rw [purgeExpired]
    split
    · -- The map has lost the entry of the slot, if there was one.
      split
      · next hold =>
        have hkeep : ∀ X ts, (identities.erase expiredId).get? X = some ts → identities.get? X = some ts := by
          intro X ts hX
          rw [Dict.get?_erase] at hX
          split at hX
          · cases hX
          · exact hX
        have hrest := @ih (identities.erase expiredId) (by
          intro X ts hX
          rcases List.mem_cons.mp (h X ts (hkeep X ts hX)) with he | hm
          · cases he
            rw [Dict.get?_erase_self] at hX
            cases hX
          · exact hm)
        intro X ts hX
        obtain ⟨hX', hm⟩ := hrest X ts hX
        exact ⟨hkeep X ts hX', hm⟩
      · next hold =>
        refine ih fun X ts hX => ?_
        rcases List.mem_cons.mp (h X ts hX) with he | hm
        · cases he
          exact absurd hX hold
        · exact hm
    · exact fun X ts hX => ⟨hX, h X ts hX⟩

/-- The table without the identity of a connection. -/
def without (ids : Dict Identity ConnectionID) : Option Identity → Dict Identity ConnectionID
  | none => ids
  | some X => ids.erase X

theorem get?_without (ids : Dict Identity ConnectionID) (remoteIdentity : Option Identity) (X : Identity) :
    (without ids remoteIdentity).get? X = if remoteIdentity = some X then none else ids.get? X := by
  cases remoteIdentity with
  | none => rfl
  | some Y =>
    rw [without, Dict.get?_erase]
    by_cases hY : X = Y
    · rw [if_pos hY, if_pos (by rw [hY])]
    · rw [if_neg hY, if_neg fun he => hY (Option.some.inj he).symm]

theorem Tables.drop (h : s.Tables allocates busy) (hc : s.connections.get? id = some c) :
    Tables allocates busy { s with
      connections := s.connections.erase id
      identityToConnectionID := without s.identityToConnectionID c.remoteIdentity } := by
  have hmap : ∀ X j, (without s.identityToConnectionID c.remoteIdentity).get? X = some j ↔
      s.identityToConnectionID.get? X = some j ∧ j ≠ id := by
    intro X j
    rw [get?_without]
    constructor
    · intro hX
      split at hX
      · cases hX
      · next hne =>
        refine ⟨hX, fun hj => hne ?_⟩
        obtain ⟨d, hd, hi⟩ := h.mapped X j hX
        rw [hj, hc] at hd
        cases hd
        exact hi
    · rintro ⟨hX, hj⟩
      rw [if_neg, hX]
      intro hi
      have hid := (h.live id c hc).mapped X hi
      rw [hX] at hid
      exact hj (Option.some.inj hid)
  refine ⟨fun j d hd => ?_, fun X j hX => ?_, fun X j hX => h.quiet X j ((hmap X j).mp hX).1, h.gone⟩
  · have hj : j ≠ id := by
      rintro rfl
      rw [Dict.get?_erase_self] at hd
      cases hd
    rw [Dict.get?_erase_ne _ hj] at hd
    obtain ⟨hr, hf, hi, hn, hm⟩ := h.live j d hd
    exact ⟨hr, hf, hi, hn, fun X hX => (hmap X j).mpr ⟨hm X hX, hj⟩⟩
  · obtain ⟨hX', hj⟩ := (hmap X j).mp hX
    obtain ⟨d, hd, hi⟩ := h.mapped X j hX'
    exact ⟨d, (Dict.get?_erase_ne _ hj).trans hd, hi⟩

theorem Tables.remember (h : s.Tables allocates busy) (hm : s.identityToConnectionID.get? X = none)
    (hp : s.pendingSendMessages.get? X = none) (now : Nat) :
    Tables allocates busy { s.purgeExpiredDisconnectedIdentities now with
      disconnectedIdentities :=
        (s.purgeExpiredDisconnectedIdentities now).disconnectedIdentities.set X now
      disconnectedIdentityInsertions :=
        (s.purgeExpiredDisconnectedIdentities now).disconnectedIdentityInsertions ++ [(now, X)] } := by
  have hpurge := purgeExpired_spec now fun Y ts hY => (h.gone Y ts hY).2
  refine ⟨h.live, h.mapped, fun Y j hY => ⟨(h.quiet Y j hY).1, ?_⟩, fun Y ts hY => ?_⟩
  · have hne : Y ≠ X := by
      rintro rfl
      cases hm.symm.trans hY
    show (Dict.set _ X now).get? Y = none
    rw [Dict.get?_set_ne _ hne]
    cases hq : (s.purgeExpiredDisconnectedIdentities now).disconnectedIdentities.get? Y with
    | none => rfl
    | some ts =>
      have hd := (hpurge Y ts hq).1
      rw [(h.quiet Y j hY).2] at hd
      cases hd
  · rw [Dict.get?_set] at hY
    split at hY
    · next he =>
      cases hY
      rw [he]
      exact ⟨hp, List.mem_append_right _ List.mem_cons_self⟩
    · obtain ⟨hd, hslot⟩ := hpurge Y ts hY
      exact ⟨(h.gone Y ts hd).1, List.mem_append_left _ hslot⟩

/-- The connection has dropped its client, or is closed from here. -/
theorem Sound.onRemoteDisconnect (h : s.Sound allocates busy) (hc : s.connections.get? id = some c)
    {connections' : Dict ConnectionID MessageConnection} (hc' : connections'.get? id = some c')
    (hi : c'.remoteIdentity = c.remoteIdentity) (he : connections'.erase id = s.connections.erase id)
    (reason : DisconnectReason) :
    ∃ s', BinderSocket.onRemoteDisconnect { s with connections := connections' } id reason = some s' ∧
      s'.Sound allocates busy := by
  have hdrop := h.tables.drop hc
  obtain ⟨ho, hcomp, hn⟩ := h.history
  rw [BinderSocket.onRemoteDisconnect]
  dsimp only
  rw [hc', Option.bind_eq_bind, Option.bind_some, hi, he]
  cases hid : c.remoteIdentity with
  | none =>
    rw [hid] at hdrop
    exact ⟨_, rfl, hdrop, ho, hcomp, hn⟩
  | some X =>
    rw [hid] at hdrop
    have hp := (h.tables.quiet X id ((h.tables.live id c hc).mapped X hid)).1
    dsimp only
    split
    · exact ⟨_, rfl, hdrop, ho, hcomp, hn⟩
    · have hrem := hdrop.remember (Dict.get?_erase_self _ X) hp s.now
      have hp' : (BinderSocket.purgeExpiredDisconnectedIdentities { s with
          connections := s.connections.erase id
          identityToConnectionID := s.identityToConnectionID.erase X } s.now).pendingSendMessages.get? X =
            none := hp
      rw [hp']
      exact ⟨_, rfl, hrem, ho, hcomp, hn⟩

/-- A connection learns who its remote end is: it takes the place of any other one. -/
theorem Tables.identify (h : s.Tables allocates busy) (hc : s.connections.get? id = some c)
    (hi : c.remoteIdentity = none) (hr : c'.Ready allocates) (hf : busy ≠ some id → c'.sendPending = [])
    (hs' : c'.state = .established) (hi' : c'.remoteIdentity = some X)
    {connections' : Dict ConnectionID MessageConnection} (hc' : connections'.get? id = some c')
    (hold : ∀ j d, j ≠ id → (connections'.get? j = some d ↔
      s.connections.get? j = some d ∧ d.remoteIdentity ≠ some X)) :
    Tables allocates busy { s with
      connections := connections'
      identityToConnectionID := s.identityToConnectionID.set X id
      disconnectedIdentities := s.disconnectedIdentities.erase X
      pendingSendMessages := s.pendingSendMessages.erase X } := by
  refine ⟨fun j d hd => ?_, fun Y j hY => ?_, fun Y j hY => ?_, fun Y ts hY => ?_⟩
  · by_cases hj : j = id
    · subst hj
      cases hc'.symm.trans hd
      refine ⟨hr, hf, ?_, (h.live j c hc).numbered, fun Y hY => ?_⟩
      · rw [Anonymous, hs', hi']
        simp
      · cases hi'.symm.trans hY
        exact Dict.get?_set_self _ _ _
    · obtain ⟨hd', hne⟩ := (hold j d hj).mp hd
      obtain ⟨hr, hf, hi, hn, hm⟩ := h.live j d hd'
      refine ⟨hr, hf, hi, hn, fun Y hY => ?_⟩
      rw [Dict.get?_set_ne, hm Y hY]
      rintro rfl
      exact hne hY
  · rw [Dict.get?_set] at hY
    split at hY
    · next he =>
      cases hY
      exact ⟨c', hc', he ▸ hi'⟩
    · next hne =>
      obtain ⟨d, hd, hd'⟩ := h.mapped Y j hY
      by_cases hj : j = id
      · subst hj
        cases hc.symm.trans hd
        cases hi.symm.trans hd'
      · refine ⟨d, (hold j d hj).mpr ⟨hd, ?_⟩, hd'⟩
        rw [hd']
        exact fun he => hne (Option.some.inj he)
  · rw [Dict.get?_set] at hY
    split at hY
    · next he =>
      rw [he]
      exact ⟨Dict.get?_erase_self _ _, Dict.get?_erase_self _ _⟩
    · next hne =>
      rw [Dict.get?_erase_ne _ hne, Dict.get?_erase_ne _ hne]
      exact h.quiet Y j hY
  · rw [Dict.get?_erase] at hY
    split at hY
    · cases hY
    · next hne =>
      rw [Dict.get?_erase_ne _ hne]
      exact h.gone Y ts hY

theorem Tables.replaced (h : s.Tables allocates busy) (hc : s.connections.get? id = some c)
    (hi : c.remoteIdentity = none) (c' : MessageConnection) (X : Identity) :
    ∃ connections', disconnectOld { s with connections := s.connections.set id c' } X =
        { s with connections := connections' } ∧ connections'.get? id = some c' ∧
      ∀ j d, j ≠ id → (connections'.get? j = some d ↔
        s.connections.get? j = some d ∧ d.remoteIdentity ≠ some X) := by
  cases hX : s.identityToConnectionID.get? X with
  | none =>
    refine ⟨s.connections.set id c', ?_, Dict.get?_set_self _ _ _, fun j d hj => ?_⟩
    · rw [disconnectOld, hX]
    · rw [Dict.get?_set_ne _ hj]
      refine ⟨fun hd => ⟨hd, fun he => ?_⟩, And.left⟩
      cases hX.symm.trans ((h.live j d hd).mapped X he)
  | some old =>
    obtain ⟨e, he, hei⟩ := h.mapped X old hX
    have hold : id ≠ old := by
      rintro rfl
      cases hc.symm.trans he
      cases hi.symm.trans hei
    refine ⟨(s.connections.set id c').erase old, ?_, ?_, fun j d hj => ?_⟩
    · rw [disconnectOld, hX]
    · rw [Dict.get?_erase_ne _ hold]
      exact Dict.get?_set_self _ _ _
    · rw [Dict.get?_erase]
      split
      · next hj' =>
        subst hj'
        constructor
        · intro hd
          cases hd
        · rintro ⟨hd, hne⟩
          cases he.symm.trans hd
          exact absurd hei hne
      · next hj' =>
        rw [Dict.get?_set_ne _ hj]
        refine ⟨fun hd => ⟨hd, fun hd' => hj' ?_⟩, And.left⟩
        have hm := (h.live j d hd).mapped X hd'
        rw [hX] at hm
        exact (Option.some.inj hm).symm

theorem Sound.onRemoteIdentity (h : s.Sound allocates busy) (hc : s.connections.get? id = some c)
    (hi : c.remoteIdentity = none) (hr : c'.Ready allocates) (hf : busy ≠ some id → c'.sendPending = [])
    (hs' : c'.state = .established) (hi' : c'.remoteIdentity = some X) :
    ∃ s' c'', BinderSocket.onRemoteIdentity { s with connections := s.connections.set id c' } id X = some s' ∧
      s'.Sound allocates busy ∧ s'.connections.get? id = some c'' ∧ Kept allocates c' c'' := by
  obtain ⟨connections', heq, hc', hold⟩ := h.tables.replaced hc hi c' X
  have htables := h.tables.identify hc hi hr hf hs' hi' hc' hold
  have hhistory := h.history.drain id X
  rw [BinderSocket.onRemoteIdentity, heq]
  dsimp only
  cases hp : s.pendingSendMessages.get? X with
  | none =>
    rw [hp] at hhistory
    rw [Dict.erase_of_get?_none hp] at htables hhistory
    simp only [Option.getD_none, List.map_nil, List.append_nil] at hhistory
    exact ⟨_, c', rfl, ⟨htables, hhistory.ordered, hhistory.complete, hhistory.named⟩, hc', .refl c'⟩
  | some pending =>
    rw [hp] at hhistory
    obtain ⟨connections'', hsim, hsend⟩ := foldlM_sendOn (s := { s with
      connections := connections'
      identityToConnectionID := s.identityToConnectionID.set X id
      disconnectedIdentities := s.disconnectedIdentities.erase X }) hc' hr pending
    obtain ⟨c'', hc'', hk⟩ := hsim.get' hc'
    rw [hi'] at hsend
    dsimp only
    rw [hsend]
    have htables' := htables.similar hsim
    exact ⟨_, c'', rfl, ⟨⟨htables'.live, htables'.mapped, htables'.quiet, htables'.gone⟩,
      hhistory.ordered, hhistory.complete, hhistory.named⟩, hc'', hk⟩

theorem Sound.onMessage (h : s.Sound allocates busy) (hc : s.connections.get? id = some c)
    (hi : c.remoteIdentity = some X) (payload : Bytes) :
    ∃ s', s.onMessage id payload = some s' ∧ s'.Sound allocates busy ∧ s'.connections = s.connections := by
  obtain ⟨⟨hl, hm, hq, hg⟩, ho, hcomp, hn⟩ := h
  rw [BinderSocket.onMessage, hc, Option.bind_eq_bind, Option.bind_some, hi, Option.bind_eq_bind,
    Option.bind_some]
  split
  · exact ⟨_, rfl, ⟨⟨hl, hm, hq, hg⟩, ho, hcomp, hn⟩, rfl⟩
  · exact ⟨_, rfl, ⟨⟨hl, hm, hq, hg⟩, ho, hcomp, hn⟩, rfl⟩

/-- A connection goes on or ends, and the socket is told what it reports. -/
theorem Sound.onConnection (happens : MessageConnection → Option MessageConnection) (h : s.Sound allocates busy)
    (hc : s.connections.get? id = some c) (he : happens c = some c') {data : Bytes}
    (ho : Happened allocates c c' data) :
    ∃ s', s.onConnection id happens = some s' ∧ s'.Sound allocates busy ∧
      (c'.connected = true → ∃ c'', s'.connections.get? id = some c'' ∧ Kept allocates c' c'') := by
  have hlive := h.tables.live id c hc
  have hget := Dict.get?_set_self s.connections id c'
  have hpending : c'.connected = true → busy ≠ some id → c'.sendPending = [] := fun hcon hb =>
    (ho.stays hcon).2.1.trans (hlive.flushed hb)
  have hstep : s.onConnection id happens = (c'.events.drop c.events.length).foldlM
      (fun s event => s.onEvent id event) { s with connections := s.connections.set id c' } := by
    rw [BinderSocket.onConnection, hc, Option.bind_eq_bind, Option.bind_some, he]
    rfl
  have hkept : c'.state = c.state → c'.remoteIdentity = c.remoteIdentity → c'.connected = true →
      Sound allocates busy { s with connections := s.connections.set id c' } := by
    intro hs hi hcon
    have hnew := (ho.stays hcon).1
    refine ⟨⟨fun j d hd => ?_, fun X j hX => ?_, h.tables.quiet, h.tables.gone⟩, h.history.ordered,
      h.history.complete, h.history.named⟩
    · rw [Dict.get?_set] at hd
      split at hd
      · next hj =>
        cases hd
        subst hj
        refine ⟨hnew, hpending hcon, ?_, hlive.numbered, fun X hX => hlive.mapped X (hi ▸ hX)⟩
        rw [Anonymous, hs, hi]
        exact hlive.anonymous
      · exact h.tables.live j d hd
    · obtain ⟨d, hd, hd'⟩ := h.tables.mapped X j hX
      by_cases hj : j = id
      · subst hj
        cases hc.symm.trans hd
        exact ⟨c', hget, hi.trans hd'⟩
      · exact ⟨d, (Dict.get?_set_ne _ hj _).trans hd, hd'⟩
  have hcon₀ : c.connected = true := hlive.ready.connected
  rw [hstep]
  cases ho.outcome with
  | silent hs hi he =>
    have hcon : c'.connected = true := by rwa [connected, hs]
    rw [he, List.drop_length]
    exact ⟨_, rfl, hkept hs hi hcon, fun _ => ⟨c', hget, .refl c'⟩⟩
  | identity X hs hs' hi he =>
    have hcon : c'.connected = true := by simp [connected, hs']
    rw [he, List.drop_left, List.foldlM_cons]
    obtain ⟨s', c'', hstep, hsound, hc'', hk⟩ := h.onRemoteIdentity hc (hlive.anonymous.mp hs) (ho.stays hcon).1
      (hpending hcon) hs' hi
    refine ⟨s', ?_, hsound, fun _ => ⟨c'', hc'', hk⟩⟩
    rw [onEvent, hstep]
    rfl
  | message payload hs hs' hi he =>
    have hcon : c'.connected = true := by simp [connected, hs']
    rw [he, List.drop_left, List.foldlM_cons]
    obtain ⟨X, hX⟩ : ∃ X, c'.remoteIdentity = some X := by
      cases hX : c'.remoteIdentity with
      | some X => exact ⟨X, rfl⟩
      | none =>
        have hs'' := hlive.anonymous.mpr (hi.symm.trans hX)
        cases hs.symm.trans hs''
    obtain ⟨s', hstep, hsound', hsame⟩ := (hkept (hs'.trans hs.symm) hi hcon).onMessage hget hX payload
    refine ⟨s', ?_, hsound', fun _ => ⟨c', by rw [hsame]; exact hget, .refl c'⟩⟩
    rw [onEvent, hstep]
    rfl
  | dropped reason hs hi he =>
    rw [he, List.drop_left, List.foldlM_cons]
    obtain ⟨s', hstep, hsound⟩ := h.onRemoteDisconnect hc hget hi (Dict.erase_set _ _ _) reason
    refine ⟨s', ?_, hsound, fun hcon => ?_⟩
    · rw [onEvent, hstep]
      rfl
    · simp [connected, hs] at hcon

theorem onRead_cons (byte : UInt8) (data : Bytes) :
    s.onRead allocates id (byte :: data) = (s.onConnection id fun connection =>
      connection.onRead (fun _ => .nothing) allocates [byte]).bind fun s => s.onRead allocates id data := by
  rw [BinderSocket.onRead, List.foldlM_cons]
  rfl

/-- Reading bytes of which none are refused. -/
theorem Sound.onRead_standing (h : s.Sound allocates busy) (hc : s.connections.get? id = some c) {data : Bytes}
    (href : ∀ first, first <+: data → first ≠ [] → ¬Refused allocates (c.receivedBytes ++ first)) :
    ∃ s' c', s.onRead allocates id data = some s' ∧ s'.Sound allocates busy ∧
      s'.connections.get? id = some c' ∧ c'.receivedBytes = c.receivedBytes ++ data := by
  induction data generalizing s c with
  | nil => exact ⟨s, c, rfl, h, hc, (List.append_nil _).symm⟩
  | cons byte data ih =>
    have hlive := h.tables.live id c hc
    have hbyte := href [byte] (List.prefix_append [byte] data) (List.cons_ne_nil _ _)
    obtain ⟨c₁, he, ho, hcon⟩ := hlive.ready.read_byte hlive.anonymous hbyte
    obtain ⟨s₁, hstep, h₁, hpresent⟩ := h.onConnection (fun c => c.onRead _ _ _) hc he ho
    obtain ⟨d, hd, hk⟩ := hpresent hcon
    have hbytes : d.receivedBytes = c.receivedBytes ++ [byte] := hk.receivedBytes.trans (ho.stays hcon).2.2
    obtain ⟨s', c', hread, h', hc', hbytes'⟩ := ih h₁ hd fun first hp hne hx => by
      rw [hbytes, List.append_assoc] at hx
      exact href (byte :: first) (List.cons_prefix_cons.mpr ⟨rfl, hp⟩) (List.cons_ne_nil _ _) hx
    refine ⟨s', c', ?_, h', hc', ?_⟩
    · rw [onRead_cons, hstep, Option.bind_some, hread]
    · rw [hbytes', hbytes, List.append_assoc]
      rfl

/-- Reading bytes of which none but the last may be refused. -/
theorem Sound.onRead (h : s.Sound allocates none) (hc : s.connections.get? id = some c) {data : Bytes}
    (href : ∀ first rest, data = first ++ rest → first ≠ [] → rest ≠ [] →
      ¬Refused allocates (c.receivedBytes ++ first)) :
    ∃ s', s.onRead allocates id data = some s' ∧ s'.Sound allocates none := by
  rcases List.eq_nil_or_concat data with rfl | ⟨front, byte, rfl⟩
  · exact ⟨s, rfl, h⟩
  have hfront : ∀ first, first <+: front → first ≠ [] → ¬Refused allocates (c.receivedBytes ++ first) := by
    rintro first ⟨rest, rfl⟩ hne
    exact href first (rest ++ [byte]) (by simp) hne (by simp)
  obtain ⟨s₁, c₁, hread, h₁, hc₁, -⟩ := h.onRead_standing hc hfront
  have hlive := h₁.tables.live id c₁ hc₁
  obtain ⟨c', he, ho⟩ := (hlive.ready.attached (hlive.flushed (by simp))).read_last hlive.anonymous byte
  obtain ⟨s', hstep, h', -⟩ := h₁.onConnection (fun c => c.onRead _ _ _) hc₁ he ho
  refine ⟨s', ?_, h'⟩
  rw [List.concat_eq_append, BinderSocket.onRead, List.foldlM_append]
  exact (congrArg (Option.bind · _) hread).trans ((Option.bind_some _ _).trans
    ((congrArg (Option.bind · _) hstep).trans (Option.bind_some _ _)))

theorem Sound.onGone (h : s.Sound allocates none) (hc : s.connections.get? id = some c) (reason : DisconnectReason) :
    ∃ s', s.onConnection id (fun connection => connection.onRemoteDisconnect reason) = some s' ∧
      s'.Sound allocates none := by
  have hlive := h.tables.live id c hc
  have hp := hlive.flushed (by simp)
  have he := onRemoteDisconnect_eq hp hlive.ready.connected reason
  have ho : Happened allocates c (c.detach.report (.remoteDisconnect reason)) [] :=
    ⟨.dropped reason rfl rfl rfl, fun hcon => absurd hcon Bool.false_ne_true⟩
  obtain ⟨s', hstep, h', -⟩ := h.onConnection (fun c => c.onRemoteDisconnect reason) hc he ho
  exact ⟨s', hstep, h'⟩

theorem Sound.closeConnection (h : s.Sound allocates busy) (X : Identity) :
    ∃ s', s.closeConnection X = some s' ∧ s'.Sound allocates busy := by
  rw [BinderSocket.closeConnection]
  cases hX : s.identityToConnectionID.get? X with
  | none => exact ⟨s, rfl, h⟩
  | some id =>
    obtain ⟨c, hc, -⟩ := h.tables.mapped X id hX
    exact h.onRemoteDisconnect hc hc rfl rfl .disconnected

theorem Sound.sendMessage (h : s.Sound allocates busy) (X : Identity) (payload : Bytes) :
    ∃ s', s.sendMessage X payload = some s' ∧ s'.Sound allocates busy := by
  obtain ⟨⟨hl, hm, hq, hg⟩, hh⟩ := h
  rw [BinderSocket.sendMessage]
  dsimp only
  cases hX : s.identityToConnectionID.get? X with
  | none =>
    dsimp only
    split
    · next hd =>
      obtain ⟨ts, hts⟩ := Option.isSome_iff_exists.mp hd
      have hfail := hh.refuse (hg X ts hts).1 .connectorSocketClosedByRemoteEnd
      exact ⟨_, rfl, ⟨hl, hm, hq, hg⟩, hfail.ordered, hfail.complete, hfail.named⟩
    · next hd =>
      have hdisc : s.disconnectedIdentities.get? X = none := by
        rw [Dict.contains] at hd
        simpa using hd
      have hother : ∀ Y queue, Y ≠ X → s.pendingSendMessages.get? Y = none →
          (s.pendingSendMessages.set X queue).get? Y = none := by
        intro Y queue hne hY
        rw [Dict.get?_set_ne _ hne, hY]
      refine ⟨_, rfl, ⟨hl, hm, fun Y id hY => ⟨hother _ _ ?_ (hq Y id hY).1, (hq Y id hY).2⟩,
        fun Y ts hY => ⟨hother _ _ ?_ (hg Y ts hY).1, (hg Y ts hY).2⟩⟩, hh.wait X payload⟩
      · rintro rfl
        cases hX.symm.trans hY
      · rintro rfl
        cases hdisc.symm.trans hY
  | some id =>
    obtain ⟨c, hc, hi⟩ := hm X id hX
    have hk := (hl id c hc).ready.kept_sendMessage payload
    have htables := Tables.similar ⟨hl, hm, hq, hg⟩ (.set hc hk)
    have hhand := hh.hand (hq X id hX).1 id
    dsimp only
    rw [sendOn, hc, Option.bind_eq_bind, Option.bind_some, hi]
    exact ⟨_, rfl, ⟨htables.live, htables.mapped, htables.quiet, htables.gone⟩,
      hhand.ordered, hhand.complete, hhand.named⟩

/-- A multicast changes no connection that is looked up. -/
theorem similar_multicast (payload : Bytes) (remotePrefix : Option Identity)
    {entries : List (ConnectionID × MessageConnection)} (hn : (entries.map Prod.fst).Nodup)
    {connections : Dict ConnectionID MessageConnection}
    (hall : ∀ e ∈ entries, connections.get? e.1 = some e.2 ∧ e.2.Ready allocates) :
    Similar allocates connections (entries.foldl (fun connections entry =>
      if addressed remotePrefix entry.2 then connections.set entry.1 (entry.2.sendMessage payload)
      else connections) connections) := by
  induction entries generalizing connections with
  | nil => exact .refl _
  | cons e entries ih =>
    obtain ⟨hget, ha⟩ := hall e List.mem_cons_self
    rw [List.map_cons, List.nodup_cons] at hn
    rw [List.foldl_cons]
    split
    · refine (Similar.set hget (ha.kept_sendMessage payload)).trans (ih hn.2 fun e' he' => ?_)
      obtain ⟨hget', ha'⟩ := hall e' (List.mem_cons_of_mem _ he')
      have hne : e'.1 ≠ e.1 := fun he => hn.1 (he ▸ List.mem_map_of_mem he')
      exact ⟨(Dict.get?_set_ne _ hne _).trans hget', ha'⟩
    · exact ih hn.2 fun e' he' => hall e' (List.mem_cons_of_mem _ he')

theorem Sound.sendMulticastMessage (h : s.Sound allocates busy) (payload : Bytes) (remotePrefix : Option Identity) :
    (s.sendMulticastMessage payload remotePrefix).Sound allocates busy := by
  have hsim : Similar allocates s.connections
      (s.sendMulticastMessage payload remotePrefix).connections := by
    refine similar_multicast payload remotePrefix s.connections.nodup fun e he => ?_
    have hget := (Dict.mem_entries s.connections e.1 e.2).mp he
    exact ⟨hget, (h.tables.live e.1 e.2 hget).ready⟩
  exact ⟨h.tables.similar hsim, h.history.ordered, h.history.complete, h.history.named⟩

theorem Sound.recvMessage (h : s.Sound allocates busy) : s.recvMessage.Sound allocates busy := by
  obtain ⟨⟨hl, hm, hq, hg⟩, ho, hcomp, hn⟩ := h
  rw [BinderSocket.recvMessage]
  dsimp only
  split
  · exact ⟨⟨hl, hm, hq, hg⟩, ho, hcomp, hn⟩
  · exact ⟨⟨hl, hm, hq, hg⟩, ho, hcomp, hn⟩

theorem Sound.flush (h : s.Sound allocates (some id)) (hc : s.connections.get? id = some c) :
    Sound allocates none { s with connections := s.connections.set id c.processSendQueue } := by
  have hlive := h.tables.live id c hc
  have ha : c.processSendQueue.Attached allocates := hlive.ready
  have heq := processSendQueue_eq c
  refine ⟨⟨fun j d hd => ?_, fun X j hX => ?_, h.tables.quiet, h.tables.gone⟩, h.history.ordered,
    h.history.complete, h.history.named⟩
  · rw [Dict.get?_set] at hd
    split at hd
    · next hj =>
      cases hd
      subst hj
      refine ⟨ha.ready, fun _ => ha.pending, ?_, hlive.numbered, ?_⟩
      · rw [heq]
        exact hlive.anonymous
      · rw [heq]
        exact hlive.mapped
    · next hj =>
      obtain ⟨hr, hf, hi, hn, hm⟩ := h.tables.live j d hd
      exact ⟨hr, fun _ => hf fun he => hj (Option.some.inj he).symm, hi, hn, hm⟩
  · obtain ⟨d, hd, hd'⟩ := h.tables.mapped X j hX
    by_cases hj : j = id
    · subst hj
      cases hc.symm.trans hd
      refine ⟨_, Dict.get?_set_self _ _ _, ?_⟩
      rw [heq]
      exact hd'
    · exact ⟨d, (Dict.get?_set_ne _ hj _).trans hd, hd'⟩

theorem Sound.starts (h : s.Sound allocates none) :
    Sound allocates (some s.connectionCounter) { s with
      connectionCounter := s.connectionCounter + 1
      connections := (s.connections.set s.connectionCounter (fresh s.identity none)).set s.connectionCounter
        (fresh s.identity none).starts } := by
  have hfresh : Settled allocates s.identity (fresh s.identity none) := settled_fresh _ _
  obtain ⟨c, hcon, hset, -⟩ := hfresh.connect rfl
  have ha : c.Attached allocates := hset.attached (by cases hcon; rw [processSendQueue_eq]; rfl)
  have hnew : ∀ id c, s.connections.get? id = some c → id ≠ s.connectionCounter :=
    fun id c hc => Nat.ne_of_lt (h.tables.live id c hc).numbered
  refine ⟨⟨fun j d hd => ?_, fun X j hX => ?_, h.tables.quiet, h.tables.gone⟩,
    h.history.ordered, h.history.complete, h.history.named⟩
  · dsimp only at hd ⊢
    rw [Dict.get?_set] at hd
    split at hd
    · next hj =>
      cases hd
      subst hj
      cases hcon
      exact ⟨ha, fun hb => absurd rfl hb, ⟨fun _ => rfl, fun _ => rfl⟩, Nat.lt_succ_self _,
        fun X hX => by cases hX⟩
    · next hj =>
      rw [Dict.get?_set_ne _ hj] at hd
      obtain ⟨hr, hf, hi, hn, hm⟩ := h.tables.live j d hd
      exact ⟨hr, fun _ => hf (by simp), hi, Nat.lt_succ_of_lt hn, hm⟩
  · obtain ⟨d, hd, hd'⟩ := h.tables.mapped X j hX
    have hj := hnew j d hd
    exact ⟨d, by rw [Dict.get?_set_ne _ hj, Dict.get?_set_ne _ hj]; exact hd, hd'⟩

/-- What a stream delivers at its start leaves the connection standing. -/
theorem Sound.deliver_standing (h : s.Sound allocates busy) (hc : s.connections.get? id = some c)
    {pieces : List Bytes}
    (href : ∀ first, first <+: pieces.flatten → first ≠ [] → ¬Refused allocates (c.receivedBytes ++ first)) :
    ∃ s' c', (pieces.map Delivery.data).foldlM (deliver allocates id) s = some s' ∧ s'.Sound allocates busy ∧
      s'.connections.get? id = some c' := by
  induction pieces generalizing s c with
  | nil => exact ⟨s, c, rfl, h, hc⟩
  | cons data pieces ih =>
    obtain ⟨s₁, c₁, hread, h₁, hc₁, hbytes⟩ := h.onRead_standing hc fun first hp hne =>
      href first (hp.trans (List.prefix_append data pieces.flatten)) hne
    obtain ⟨s', c', hrest, h', hc'⟩ := ih h₁ hc₁ fun first hp hne hx => by
      rw [hbytes, List.append_assoc] at hx
      refine href (data ++ first) ?_ (by simp [hne]) hx
      rw [List.flatten_cons]
      exact (List.prefix_append_right_inj data).mpr hp
    refine ⟨s', c', ?_, h', hc'⟩
    rw [List.map_cons, List.foldlM_cons, deliver, hread]
    exact hrest

theorem Sound.onClientConnect (h : s.Sound allocates none) {pieces : List Bytes}
    (href : ∀ first, first <+: pieces.flatten → ¬Refused allocates first) :
    ∃ s', s.onClientConnect allocates (pieces.map .data) = some s' ∧ s'.Sound allocates none := by
  obtain ⟨s₁, c₁, hearly, h₁, hc₁⟩ := h.starts.deliver_standing (Dict.get?_set_self _ _ _) fun first hp _ =>
    href first hp
  refine ⟨_, ?_, h₁.flush hc₁⟩
  have hcon := (h₁.tables.live _ _ hc₁).ready.connected
  simp only [BinderSocket.onClientConnect, createConnection, new_eq, Option.bind_eq_bind, Option.bind_some,
    Dict.get?_set_self]
  rw [if_neg (show ¬(fresh s.identity none).connected = true from Bool.false_ne_true), hearly, Option.bind_some, hc₁,
    Option.bind_some, if_pos hcon]

theorem foldl_fail (remoteIdentity : Identity) (error : SocketError) (messages : List PendingSendMessage) :
    messages.foldl (fun s message => s.fail remoteIdentity error message) s = { s with
      failed := s.failed ++ messages.map fun message => ⟨remoteIdentity, message.onMessageSent, error⟩ } := by
  induction messages generalizing s with
  | nil => simp
  | cons message messages ih =>
    rw [List.foldl_cons, ih, fail]
    simp

/-- The messages that `shutdown` fails. -/
def stopped (entries : List (Identity × List PendingSendMessage)) : List FailedSend :=
  entries.flatMap fun entry => entry.2.map fun message =>
    ⟨entry.1, message.onMessageSent, .socketStopRequested⟩

theorem foldl_stopped (entries : List (Identity × List PendingSendMessage)) :
    entries.foldl (fun s entry =>
      entry.2.foldl (fun s message => s.fail entry.1 .socketStopRequested message) s) s =
        { s with failed := s.failed ++ stopped entries } := by
  induction entries generalizing s with
  | nil => simp [stopped]
  | cons entry entries ih =>
    rw [List.foldl_cons, foldl_fail, ih]
    simp [stopped]

theorem failedTo_stopped {entries : List (Identity × List PendingSendMessage)}
    (hn : (entries.map Prod.fst).Nodup) (X : Identity) :
    failedTo (stopped entries) X = ((lookupIn X entries).getD []).map (·.onMessageSent) := by
  have hcons : ∀ (Y : Identity) (queue : List PendingSendMessage) rest,
      failedTo (stopped ((Y, queue) :: rest)) X =
        (if Y = X then queue.map (·.onMessageSent) else []) ++ failedTo (stopped rest) X := by
    intro Y queue rest
    have happ := failedTo_append (X := Y) (Y := X) [] .socketStopRequested queue
    rw [List.nil_append] at happ
    rw [stopped, List.flatMap_cons, failedTo, List.filter_append, List.map_append]
    exact congrArg (· ++ _) happ
  induction entries with
  | nil => rfl
  | cons entry entries ih =>
    obtain ⟨Y, queue⟩ := entry
    rw [List.map_cons, List.nodup_cons] at hn
    rw [hcons, ih hn.2, lookupIn]
    split
    · next hY =>
      subst hY
      rw [lookupIn_eq_none.mpr hn.1]
      simp
    · rfl

theorem Sound.shutdown (h : s.Sound allocates busy) : s.shutdown.Sound allocates busy := by
  obtain ⟨⟨hl, hm, hq, hg⟩, ho, hcomp, hn⟩ := h
  rw [BinderSocket.shutdown]
  dsimp only
  rw [foldl_stopped]
  refine ⟨⟨fun id c hc => (by cases hc), fun X id hX => (by cases hX), fun X id hX => (by cases hX),
    fun X ts hX => ⟨rfl, (hg X ts hX).2⟩⟩, fun X => ?_, fun X => ?_, hn⟩
  · have hs := (List.sublist_append_left _ _).trans (ho X)
    show List.Sublist (handedTo s.handed X ++ []) _
    rw [List.append_nil]
    exact hs
  · have hf : failedTo (s.failed ++ stopped s.pendingSendMessages.entries) X =
        failedTo s.failed X ++ waitingFor s.pendingSendMessages X := by
      rw [failedTo, List.filter_append, List.map_append]
      exact congrArg (_ ++ ·) (failedTo_stopped s.pendingSendMessages.nodup X)
    show List.Perm (handedTo s.handed X ++ failedTo (s.failed ++ _) X ++ []) _
    rw [List.append_nil, hf, ← List.append_assoc]
    exact hcomp X

theorem Sound.step (h : s.Sound allocates none) {event : BinderEvent} (hw : s.Whole allocates event) :
    ∃ s', s.step allocates event = some s' ∧ s'.Sound allocates none := by
  have hstream : ∀ id delivery, (∀ c, s.connections.get? id = some c →
      ∃ s', s.deliver allocates id delivery = some s' ∧ s'.Sound allocates none) →
      ∃ s', s.onStream allocates id delivery = some s' ∧ s'.Sound allocates none := by
    intro id delivery hdeliver
    rw [onStream]
    split
    · next hcon =>
      obtain ⟨c, hc⟩ := Option.isSome_iff_exists.mp hcon
      exact hdeliver c hc
    · exact ⟨s, rfl, h⟩
  cases event with
  | clientConnect early =>
    obtain ⟨pieces, rfl, href⟩ := hw
    exact h.onClientConnect href
  | read id data => exact hstream id (.data data) fun c hc => h.onRead hc (hw c hc)
  | close id reason => exact hstream id (.gone reason) fun c hc => h.onGone hc reason
  | sendMessage X payload => exact h.sendMessage X payload
  | sendMulticastMessage payload remotePrefix =>
    exact ⟨_, rfl, h.sendMulticastMessage payload remotePrefix⟩
  | recvMessage => exact ⟨_, rfl, h.recvMessage⟩
  | closeConnection X => exact h.closeConnection X
  | clock elapsed =>
    obtain ⟨⟨hl, hm, hq, hg⟩, ho, hcomp, hn⟩ := h
    exact ⟨_, rfl, ⟨hl, hm, hq, hg⟩, ho, hcomp, hn⟩
  | shutdown => exact ⟨_, rfl, h.shutdown⟩

theorem Sound.run {events : List BinderEvent} (h : s.Sound allocates none) (ho : s.Orderly allocates events) :
    ∃ s', s.run allocates events = some s' ∧ s'.Sound allocates none := by
  induction events generalizing s with
  | nil => exact ⟨s, rfl, h⟩
  | cons event events ih =>
    obtain ⟨s₁, he, h₁⟩ := h.step ho.1
    obtain ⟨s', he', h'⟩ := ih h₁ (ho.2 s₁ he)
    refine ⟨s', ?_, h'⟩
    rw [BinderSocket.run, List.foldlM_cons, he]
    exact he'

variable (allocates) in
theorem sound_new (identity : Identity) : (new identity).Sound allocates none := by
  refine ⟨⟨fun id c hc => ?_, fun X id hX => ?_, fun X id hX => ?_, fun X ts hX => ?_⟩, fun X => .slnil,
    fun X => .nil, fun message hm => ?_⟩
  · cases hc
  · cases hX
  · cases hX
  · cases hX
  · cases hm

end Steps

/-- The tables as the rest of the socket relies on them. -/
structure IdentityTable (s : BinderSocket) : Prop where
  oneToOne : ∀ X Y id, s.identityToConnectionID.get? X = some id →
    s.identityToConnectionID.get? Y = some id → X = Y
  present : ∀ X id, s.identityToConnectionID.get? X = some id →
    ∃ connection, s.connections.get? id = some connection ∧ connection.remoteIdentity = some X
  live : ∀ X id connection, s.connections.get? id = some connection → connection.remoteIdentity = some X →
    s.identityToConnectionID.get? X = some id ∧ s.pendingSendMessages.get? X = none ∧
      s.disconnectedIdentities.get? X = none
  disconnected : ∀ X timestamp, s.disconnectedIdentities.get? X = some timestamp →
    s.pendingSendMessages.get? X = none ∧ (timestamp, X) ∈ s.disconnectedIdentityInsertions
  inOrder : ∀ X, (handedTo s.handed X).Sublist (sentTo s.sent X) ∧ (sentTo s.sent X).Pairwise (· < ·)
  accounted : ∀ X, (handedTo s.handed X ++ failedTo s.failed X ++ waitingFor s.pendingSendMessages X).Perm
    (sentTo s.sent X)
  named : ∀ message ∈ s.handed, message.remoteIdentity ≠ none

theorem Sound.identityTable (h : s.Sound allocates busy) : s.IdentityTable where
  oneToOne X Y id hX hY := by
    obtain ⟨c, hc, hi⟩ := h.tables.mapped X id hX
    obtain ⟨d, hd, hi'⟩ := h.tables.mapped Y id hY
    cases hc.symm.trans hd
    exact Option.some.inj (hi.symm.trans hi')
  present := h.tables.mapped
  live X id c hc hi := by
    have hm := (h.tables.live id c hc).mapped X hi
    exact ⟨hm, h.tables.quiet X id hm⟩
  disconnected := h.tables.gone
  inOrder X := ⟨(List.sublist_append_left _ _).trans (h.history.ordered X), pairwise_sentTo _ _⟩
  accounted := h.history.complete
  named := h.history.named

end BinderSocket

/-- In every run in which no bytes come behind those for which a connection ends, no lookup and no assertion
fails, no connection is used that was destroyed, the tables agree, and the messages for an identity are handed to
its connections in the order of the calls, each once, or failed, or still wait. -/
theorem binder_identity_table (allocates : Nat → Bool) (identity : Identity) (events : List BinderEvent)
    (h : (BinderSocket.new identity).Orderly allocates events) :
    ∃ s, BinderSocket.run allocates (.new identity) events = some s ∧ s.IdentityTable := by
  obtain ⟨s, hs, hsound⟩ := (BinderSocket.sound_new allocates identity).run h
  exact ⟨s, hs, hsound.identityTable⟩

/-- A message waits for a remote end whose handshake and first message are there when its stream is started;
another one sends a wrong magic string and nothing behind it. -/
theorem binder_identity_table_two : ∃ s,
    BinderSocket.run (fun _ => true) (.new [7]) [.sendMessage [1] [9], .clientConnect [.data (wire [1] [[5]])],
      .clientConnect [], .read 1 [1, 2, 3, 4], .closeConnection [1], .sendMessage [1] [9]] = some s ∧
      s.IdentityTable := by
  have hrefused : ∀ stream, MessageConnection.Refused (fun _ => true) stream → stream.length = 4 ∧ stream ≠ magicString := by
    rintro stream (h | ⟨bytes, header, -, -, -, h⟩)
    · exact h
    · cases h
  refine binder_identity_table _ _ _ ⟨trivial, fun s₁ h₁ => ⟨⟨[wire [1] [[5]]], rfl, fun first hp hx => ?_⟩,
    fun s₂ h₂ => ⟨⟨[], rfl, fun first hp hx => ?_⟩, fun s₃ h₃ => ⟨fun c hc first rest hdata hne hrest hx => ?_,
      fun _ _ => ⟨trivial, fun _ _ => ⟨trivial, fun _ _ => trivial⟩⟩⟩⟩⟩⟩
  · obtain ⟨hlen, hmagic⟩ := hrefused first hx
    have htake := List.prefix_iff_eq_take.mp hp
    rw [hlen] at htake
    exact hmagic (htake.trans (by decide))
  · obtain ⟨hlen, -⟩ := hrefused first hx
    rw [List.prefix_nil.mp hp] at hlen
    cases hlen
  · have hrun : BinderSocket.run (fun _ => true) (.new [7]) [.sendMessage [1] [9],
        .clientConnect [.data (wire [1] [[5]])], .clientConnect []] = some s₃ := by
      simp only [BinderSocket.run, List.foldlM_cons, h₁, h₂, h₃, Option.bind_eq_bind, Option.bind_some, List.foldlM_nil]
      rfl
    have hfresh : (BinderSocket.run (fun _ => true) (.new [7]) [.sendMessage [1] [9],
        .clientConnect [.data (wire [1] [[5]])], .clientConnect []]).all fun s =>
          (s.connections.get? 1).all fun c => c.receivedBytes = [] := by
      decide +kernel
    rw [hrun, Option.all_some, hc, Option.all_some, decide_eq_true_iff] at hfresh
    obtain ⟨hlen, -⟩ := hrefused _ hx
    rw [hfresh, List.nil_append] at hlen
    have hlengths : 4 = first.length + rest.length := (congrArg List.length hdata).trans List.length_append
    have hpos : 0 < rest.length := List.length_pos_iff.mpr hrest
    omega

/-- A wrong magic string with a byte behind it: the socket destroys the connection, whose read loop goes on. -/
theorem byte_behind_magic : ¬∀ events, ∃ s,
    BinderSocket.run (fun n => n < 1024) (.new [7]) events = some s ∧ s.IdentityTable := by
  intro h
  obtain ⟨s, hs, -⟩ := h [.clientConnect [], .read 0 [1, 2, 3, 4, 5]]
  have hnone : (BinderSocket.run (fun n => n < 1024) (.new [7])
      [.clientConnect [], .read 0 [1, 2, 3, 4, 5]]).isNone := by
    decide +kernel
  rw [hs] at hnone
  cases hnone

end Scaler.Ymq
