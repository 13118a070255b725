import Mathlib.Data.List.Induction
import Scaler.Ymq.BrowserSocket
import Scaler.Ymq.Reconnect

/-! The browser's socket and `MessageConnection` read the same messages from the same bytes, and
what the browser sends is read by the other side in the order of the calls. -/

namespace Scaler.Ymq

open Collections

/-- The messages among what the owner was told. -/
def received (events : List Event) : List Bytes :=
  events.filterMap fun
    | .recvMessage payload => some payload
    | _ => none

theorem received_append (events : List Event) (event : Event) :
    received (events ++ [event]) = received events ++ received [event] := by
  rw [received, List.filterMap_append]
  rfl

/-- The first message of the buffer is not there in full. -/
def Incomplete (buffer : Bytes) : Prop :=
  buffer.length < headerSize ∨ buffer.length < headerSize + ofLittleEndian (buffer.take headerSize)

theorem complete_eq {buffer : Bytes} (h : ¬ Incomplete buffer) :
    buffer = frame ((buffer.drop headerSize).take (ofLittleEndian (buffer.take headerSize))) ++
        buffer.drop (headerSize + ofLittleEndian (buffer.take headerSize)) ∧
      ((buffer.drop headerSize).take (ofLittleEndian (buffer.take headerSize))).length =
        ofLittleEndian (buffer.take headerSize) ∧
      ofLittleEndian (buffer.take headerSize) < 2 ^ 64 ∧ headerSize ≤ buffer.length := by
  obtain ⟨hheader, hpayload⟩ := not_or.mp h
  have hlen : (buffer.take headerSize).length = 8 := by
    rw [List.length_take_of_le (Nat.not_lt.mp hheader)]
    rfl
  have hlt := ofLittleEndian_lt (buffer.take headerSize)
  rw [hlen] at hlt
  have htake : ((buffer.drop headerSize).take (ofLittleEndian (buffer.take headerSize))).length =
      ofLittleEndian (buffer.take headerSize) := by
    rw [List.length_take, List.length_drop]
    omega
  refine ⟨?_, htake, by simpa using hlt, Nat.not_lt.mp hheader⟩
  rw [frame, htake, littleEndian_ofLittleEndian hlen, List.append_assoc, ← List.drop_drop, List.take_append_drop,
    List.take_append_drop]

namespace MessageConnection

variable {allocates : Nat → Bool} {c c' : MessageConnection}

/-- Data comes for a connection that its owner does not touch; one that has let go of its client
reads no more. -/
def feed (allocates : Nat → Bool) (c : MessageConnection) (data : Bytes) : Option MessageConnection :=
  if c.connected then c.onRead (fun _ => .nothing) allocates data else some c

theorem feed_eq (c : MessageConnection) (data : Bytes) :
    c.feed allocates data = c.consume (fun _ => .nothing) allocates data := by
  unfold feed
  split
  · next hc => rw [onRead, if_pos hc, consume]
  · next hc => rw [consume_disconnected (Bool.eq_false_iff.mpr hc)]

/-- A message that cannot be allocated ends the connection. -/
theorem consume_refused {state : ConnectionState} (h : Awaits state headerSize .header c)
    (hs : state ≠ .disconnected) (hp : c.sendPending = []) {header : Bytes} (hl : header.length = headerSize)
    (ha : allocates (ofLittleEndian header) = false) (rest : Bytes) :
    ∃ c', consume (fun _ => .nothing) allocates (header ++ rest) c = some c' ∧
      received c'.events = received c.events ∧ c'.connected = false := by
  have hc : c.connected = true := by
    cases state <;> simp_all [connected, h.state]
  have hdrop : (c.copy header none).onRecvDone (fun _ => .nothing) allocates header .header =
      some ((c.copy header none).detach.report (.remoteDisconnect .aborted)) := by
    rw [onRecvDone, onHeader, connected_copy, if_pos hc]
    dsimp only
    rw [if_pos ha, onRemoteDisconnect_eq (c := c.copy header none) hp hc]
  refine ⟨(c.copy header none).detach.report (.remoteDisconnect .aborted), ?_, ?_, rfl⟩
  · rw [h.consume_full hs hl (by decide), hdrop, Option.bind_some, consume_disconnected rfl]
  · exact (received_append _ _).trans (List.append_nil _)

variable (allocates) in
/-- Nothing is delivered of a message that is not there in full. -/
theorem consume_incomplete {state : ConnectionState} (h : Awaits state headerSize .header c)
    (hs : state ≠ .disconnected) (hp : c.sendPending = []) {buffer : Bytes} (hi : Incomplete buffer) :
    ∃ c', consume (fun _ => .nothing) allocates buffer c = some c' ∧
      received c'.events = received c.events ∧ (c'.connected = false → ∃ n, allocates n = false) := by
  have hopen : ∀ {c' : MessageConnection}, c'.state = state → c'.connected = false → ∃ n, allocates n = false := by
    intro c' hstate hc
    cases state <;> simp_all [connected]
  by_cases hheader : buffer.length < headerSize
  · obtain ⟨c', he, hstate, hev⟩ := h.consume_unfilled (fun _ => .nothing) allocates hs hheader
    exact ⟨c', he, by rw [hev], hopen hstate⟩
  have hlen : (buffer.take headerSize).length = 8 := by
    rw [List.length_take_of_le (Nat.not_lt.mp hheader)]
    rfl
  have hpayload := hi.resolve_left hheader
  have hlt := ofLittleEndian_lt (buffer.take headerSize)
  rw [hlen] at hlt
  cases ha : allocates (ofLittleEndian (buffer.take headerSize)) with
  | false =>
    obtain ⟨c', he, hev, -⟩ := consume_refused h hs hp hlen ha (buffer.drop headerSize)
    rw [List.take_append_drop] at he
    exact ⟨c', he, hev, fun _ => ⟨_, ha⟩⟩
  | true =>
    have hw : Awaits state (ofLittleEndian (buffer.take headerSize)) .message
        (c.announced (ofLittleEndian (buffer.take headerSize))) := ⟨h.state, rfl⟩
    have hrest : (buffer.drop headerSize).length < ofLittleEndian (buffer.take headerSize) := by
      rw [List.length_drop]
      omega
    obtain ⟨c', he, hstate, hev⟩ := hw.consume_unfilled (fun _ => .nothing) allocates hs hrest
    refine ⟨c', ?_, by rw [hev]; rfl, hopen hstate⟩
    have hsplit : buffer = littleEndian (ofLittleEndian (buffer.take headerSize)) ++ buffer.drop headerSize := by
      rw [littleEndian_ofLittleEndian hlen, List.take_append_drop]
    have hpos : ofLittleEndian (buffer.take headerSize) ≠ 0 := by omega
    rw [hsplit, consume_header h hs (by simpa using hlt) ha, if_neg hpos]
    exact he

end MessageConnection

namespace BrowserSocket

open MessageConnection

variable {allocates : Nat → Bool} {s s' : BrowserSocket} {c c' : MessageConnection}

/-- Both sides have read the same messages, and the native one has nothing of the next one. -/
structure Aligned (s : BrowserSocket) (c : MessageConnection) : Prop where
  pending : c.sendPending = []
  delivered : received c.events = s.delivered
  idle : s.recvCallbacks = [] ∨ s.recvQueue = []
  awaits : if s.handshakeComplete then Awaits .established headerSize .header c
    else c.remoteIdentity = none ∧ Awaits .connected headerSize .header c

theorem delivered_deliverMessage (hidle : s.recvCallbacks = [] ∨ s.recvQueue = []) (payload : Bytes) :
    (s.deliverMessage payload).delivered = s.delivered ++ [payload] ∧
      ((s.deliverMessage payload).recvCallbacks = [] ∨ (s.deliverMessage payload).recvQueue = []) := by
  unfold deliverMessage
  cases hc : s.recvCallbacks with
  | nil =>
    refine ⟨?_, .inl rfl⟩
    simp [delivered]
  | cons callback callbacks =>
    have hq : s.recvQueue = [] := by
      rcases hidle with h | h
      · rw [hc] at h
        cases h
      · exact h
    refine ⟨?_, .inr hq⟩
    simp [delivered, hq]

theorem Aligned.identity {payload rest : Bytes} (h : Aligned s c) (hs : s.handshakeComplete = false)
    (hn : payload.length < 2 ^ 64) (ha : allocates payload.length = true) :
    ∃ c', Aligned { s with recvBuffer := rest, remoteIdentity := some payload, handshakeComplete := true } c' ∧
      ∀ rest', c.consume (fun _ => .nothing) allocates (frame payload ++ rest') =
        c'.consume (fun _ => .nothing) allocates rest' := by
  have hawaits := h.awaits
  rw [hs, if_neg Bool.false_ne_true] at hawaits
  obtain ⟨hid, haw⟩ := hawaits
  obtain ⟨c', he, haw', hev, hpend⟩ := consume_identity (fun _ => (rfl : Reaction.nothing = .nothing)) haw hn ha
    (by rw [hid]; exact fun _ h => by cases h)
  refine ⟨c', ⟨hpend.trans h.pending, ?_, h.idle, haw'⟩, he⟩
  rw [hev, received_append]
  exact (List.append_nil _).trans h.delivered

theorem Aligned.message {payload rest : Bytes} (h : Aligned s c) (hs : s.handshakeComplete = true)
    (hn : payload.length < 2 ^ 64) (ha : allocates payload.length = true) :
    ∃ c', Aligned (deliverMessage { s with recvBuffer := rest } payload) c' ∧
      ∀ rest', c.consume (fun _ => .nothing) allocates (frame payload ++ rest') =
        c'.consume (fun _ => .nothing) allocates rest' := by
  have hawaits := h.awaits
  rw [hs, if_pos rfl] at hawaits
  obtain ⟨c', he, haw', hev, hpend⟩ := consume_message (fun _ => (rfl : Reaction.nothing = .nothing)) hawaits hn ha
  obtain ⟨hdel, hidle⟩ := delivered_deliverMessage (s := { s with recvBuffer := rest }) h.idle payload
  have hcomplete : (deliverMessage { s with recvBuffer := rest } payload).handshakeComplete = true := by
    unfold deliverMessage
    split <;> exact hs
  refine ⟨c', ⟨hpend.trans h.pending, ?_, hidle, ?_⟩, he⟩
  · rw [hev, received_append, h.delivered, hdel]
    rfl
  · rw [hcomplete, if_pos rfl]
    exact haw'

theorem deliverMessage_frame (s : BrowserSocket) (payload : Bytes) :
    (s.deliverMessage payload).recvBuffer = s.recvBuffer ∧ (s.deliverMessage payload).closed = s.closed ∧
      (s.deliverMessage payload).magicConsumed = s.magicConsumed := by
  unfold deliverMessage
  split <;> exact ⟨rfl, rfl, rfl⟩

theorem Aligned.drainMessages {n : Nat} (h : Aligned s c) (hn : s.recvBuffer.length ≤ n)
    (ha : ∀ k ≤ s.recvBuffer.length, allocates k = true) :
    ∃ c', Aligned (drainMessages n s) c' ∧ Incomplete (drainMessages n s).recvBuffer ∧
      c.consume (fun _ => .nothing) allocates s.recvBuffer =
        c'.consume (fun _ => .nothing) allocates (drainMessages n s).recvBuffer ∧
      (drainMessages n s).recvBuffer.length ≤ s.recvBuffer.length ∧
      (drainMessages n s).closed = s.closed ∧ (drainMessages n s).magicConsumed = s.magicConsumed := by
  induction n generalizing s c with
  | zero =>
    have hlen : s.recvBuffer.length = 0 := Nat.le_zero.mp hn
    exact ⟨c, h, .inl (by rw [BrowserSocket.drainMessages, hlen]; decide), rfl, Nat.le_refl _, rfl, rfl⟩
  | succ n ih =>
    by_cases hi : Incomplete s.recvBuffer
    · have hstay : BrowserSocket.drainMessages (n + 1) s = s := by
        rw [BrowserSocket.drainMessages]
        split
        · rfl
        · next hheader =>
          dsimp only
          rw [if_pos (hi.resolve_left hheader)]
      rw [hstay]
      exact ⟨c, h, hi, rfl, Nat.le_refl _, rfl, rfl⟩
    · obtain ⟨hsplit, hpayload, hlt, hheader⟩ := complete_eq hi
      obtain ⟨hfull, hfull'⟩ := not_or.mp hi
      have hnext : BrowserSocket.drainMessages (n + 1) s = BrowserSocket.drainMessages n
          (if s.handshakeComplete = false then { s with
            recvBuffer := s.recvBuffer.drop (headerSize + ofLittleEndian (s.recvBuffer.take headerSize))
            remoteIdentity := some ((s.recvBuffer.drop headerSize).take (ofLittleEndian (s.recvBuffer.take headerSize)))
            handshakeComplete := true }
          else deliverMessage { s with
            recvBuffer := s.recvBuffer.drop (headerSize + ofLittleEndian (s.recvBuffer.take headerSize)) }
              ((s.recvBuffer.drop headerSize).take (ofLittleEndian (s.recvBuffer.take headerSize)))) := by
        rw [BrowserSocket.drainMessages, if_neg hfull]
        dsimp only
        rw [if_neg hfull']
        split <;> rfl
      generalize hp : (s.recvBuffer.drop headerSize).take (ofLittleEndian (s.recvBuffer.take headerSize)) = payload
        at hsplit hpayload hnext
      generalize hr : s.recvBuffer.drop (headerSize + ofLittleEndian (s.recvBuffer.take headerSize)) = rest
        at hsplit hnext
      rw [← hpayload] at hlt
      have hlen : s.recvBuffer.length = headerSize + payload.length + rest.length := by
        rw [hsplit, List.length_append, frame, List.length_append, length_littleEndian]
        rfl
      have hsize : headerSize = 8 := rfl
      have halloc : allocates payload.length = true := ha _ (by omega)
      -- either way the rest of the buffer is left, and both sides have taken the message
      have hgo : ∃ next c', Aligned next c' ∧ (∀ rest',
          c.consume (fun _ => .nothing) allocates (Ymq.frame payload ++ rest') =
            c'.consume (fun _ => .nothing) allocates rest') ∧ next.recvBuffer = rest ∧ next.closed = s.closed ∧
          next.magicConsumed = s.magicConsumed ∧
          BrowserSocket.drainMessages (n + 1) s = BrowserSocket.drainMessages n next := by
        cases hs : s.handshakeComplete with
        | false =>
          rw [if_pos hs] at hnext
          obtain ⟨c', halign, hconsume⟩ := h.identity hs hlt halloc
          exact ⟨_, c', halign, hconsume, rfl, rfl, rfl, hnext⟩
        | true =>
          rw [if_neg (by rw [hs]; decide)] at hnext
          obtain ⟨c', halign, hconsume⟩ := h.message hs hlt halloc
          obtain ⟨hb, hc, hm⟩ := deliverMessage_frame { s with recvBuffer := rest } payload
          exact ⟨_, c', halign, hconsume, hb, hc, hm, hnext⟩
      obtain ⟨next, c', halign, hconsume, hbuffer, hclosed, hmagic, hdrain⟩ := hgo
      obtain ⟨c'', halign', hinc, hc, hle, hcl, hmg⟩ := ih halign (by rw [hbuffer]; omega)
        fun k hk => ha k (by rw [hbuffer] at hk; omega)
      rw [hbuffer] at hc hle
      rw [hdrain]
      refine ⟨c'', halign', hinc, ?_, by omega, hcl.trans hclosed, hmg.trans hmagic⟩
      rw [hsplit, hconsume, hc]

/-- The magic string, as far as it has come. -/
structure Greeted (s : BrowserSocket) (c : MessageConnection) : Prop where
  pending : c.sendPending = []
  events : c.events = []
  remoteIdentity : c.remoteIdentity = none
  awaits : Awaits .connected magicString.length .magicNumber c
  delivered : s.delivered = []
  idle : s.recvCallbacks = [] ∨ s.recvQueue = []
  handshake : s.handshakeComplete = false

/-- The bytes begin with something else than the magic string. -/
def WrongMagic (stream : Bytes) : Prop :=
  magicString.length ≤ stream.length ∧ stream.take magicString.length ≠ magicString

variable (allocates) in
theorem consume_wrong_magic (h : Awaits .connected magicString.length .magicNumber c) (hp : c.sendPending = [])
    {stream : Bytes} (hw : WrongMagic stream) :
    ∃ c', c.consume (fun _ => .nothing) allocates stream = some c' ∧ c'.connected = false ∧
      received c'.events = received c.events := by
  obtain ⟨hlen, hne⟩ := hw
  have hc : c.connected = true := by simp [connected, h.state]
  have hdrop : (c.copy (stream.take magicString.length) none).onRecvDone (fun _ => .nothing) allocates
      (stream.take magicString.length) .magicNumber =
        some ((c.copy (stream.take magicString.length) none).detach.report (.remoteDisconnect .aborted)) := by
    rw [onRecvDone, onMagicNumber, connected_copy, if_pos hc, if_neg hne,
      onRemoteDisconnect_eq (c := c.copy (stream.take magicString.length) none) hp hc]
  refine ⟨(c.copy (stream.take magicString.length) none).detach.report (.remoteDisconnect .aborted), ?_, rfl, ?_⟩
  · have hsplit := List.take_append_drop magicString.length stream
    rw [← hsplit, h.consume_full ConnectionState.noConfusion (List.length_take_of_le hlen) (by decide), hsplit, hdrop,
      Option.bind_some]
    exact consume_disconnected rfl _
  · exact (received_append _ _).trans (List.append_nil _)

/-- Where both sides are after the same bytes. -/
inductive Tracks (allocates : Nat → Bool) (stream : Bytes) (s : BrowserSocket) (c : MessageConnection) : Prop where
  | greeting {c₀ : MessageConnection} : Greeted s c₀ → s.closed = false → s.magicConsumed = false →
    s.recvBuffer = stream → stream.length < magicString.length →
    c₀.consume (fun _ => .nothing) allocates stream = some c → Tracks allocates stream s c
  | reading {c₀ : MessageConnection} : Aligned s c₀ → s.closed = false → s.magicConsumed = true →
    magicString <+: stream → s.recvBuffer.length ≤ stream.length → Incomplete s.recvBuffer →
    c₀.consume (fun _ => .nothing) allocates s.recvBuffer = some c → Tracks allocates stream s c
  | rejected : s.closed = true → WrongMagic stream → c.connected = false → received c.events = s.delivered →
    (s.recvCallbacks = [] ∨ s.recvQueue = []) → Tracks allocates stream s c

variable {stream : Bytes}

theorem Aligned.tracks {n : Nat} {rest : Bytes} (h : Aligned s c) (stream : Bytes) (hclosed : s.closed = false)
    (hmagic : s.magicConsumed = true) (hstream : magicString <+: stream) (hle : s.recvBuffer.length ≤ stream.length)
    (hn : s.recvBuffer.length ≤ n) (ha : ∀ k ≤ stream.length, allocates k = true)
    (hrest : s.recvBuffer = rest) :
    ∃ c', c.consume (fun _ => .nothing) allocates rest = some c' ∧
      Tracks allocates stream (BrowserSocket.drainMessages n s) c' := by
  obtain ⟨c₁, halign, hinc, hc, hle', hcl, hmg⟩ := h.drainMessages hn fun k hk => ha k (by omega)
  have hsome : ∃ c', c₁.consume (fun _ => .nothing) allocates (BrowserSocket.drainMessages n s).recvBuffer =
      some c' := by
    have hawaits := halign.awaits
    split at hawaits
    · obtain ⟨c', he, -⟩ := consume_incomplete allocates hawaits ConnectionState.noConfusion
        halign.pending hinc
      exact ⟨c', he⟩
    · obtain ⟨c', he, -⟩ := consume_incomplete allocates hawaits.2 ConnectionState.noConfusion
        halign.pending hinc
      exact ⟨c', he⟩
  obtain ⟨c', he⟩ := hsome
  rw [← hrest, hc]
  exact ⟨c', he, .reading halign (hcl.trans hclosed) (hmg.trans hmagic) hstream (by omega) hinc he⟩

theorem fail_frame (hclosed : s.closed = false) :
    s.fail.delivered = s.delivered ∧ s.fail.closed = true ∧ s.fail.recvCallbacks = [] := by
  rw [fail, if_neg (by rw [hclosed]; decide)]
  refine ⟨?_, rfl, rfl⟩
  have hnone : (s.recvCallbacks.map fun callback => (callback, (none : Option Bytes))).filterMap (·.2) = [] := by
    simp [List.filterMap_map]
  simp only [delivered, List.filterMap_append, hnone, List.append_nil]

theorem Tracks.onMessage {data : Bytes} (h : Tracks allocates stream s c)
    (ha : ∀ k ≤ (stream ++ data).length, allocates k = true) :
    ∃ c', c.feed allocates data = some c' ∧ Tracks allocates (stream ++ data) (s.onMessage data) c' := by
  rw [feed_eq]
  cases h with
  | rejected hclosed hwrong hc hdel hidle =>
    refine ⟨c, consume_disconnected hc data, ?_⟩
    rw [BrowserSocket.onMessage, if_pos hclosed]
    refine .rejected hclosed ⟨?_, ?_⟩ hc hdel hidle
    · rw [List.length_append]
      have hlen := hwrong.1
      omega
    · rw [List.take_append_of_le_length hwrong.1]
      exact hwrong.2
  | @reading c₀ halign hclosed hmagic hstream hle hinc hc =>
    have halign' : Aligned { s with recvBuffer := s.recvBuffer ++ data } c₀ :=
      ⟨halign.pending, halign.delivered, halign.idle, halign.awaits⟩
    have happend : c₀.consume (fun _ => .nothing) allocates (s.recvBuffer ++ data) = _ :=
      consume_append s.recvBuffer data
    rw [hc, Option.bind_some] at happend
    obtain ⟨c', he, htracks⟩ := halign'.tracks (stream ++ data)
      hclosed hmagic (hstream.trans (List.prefix_append _ _))
      (by simp only [List.length_append]; omega) (Nat.le_refl _) ha rfl
    refine ⟨c', happend.symm.trans he, ?_⟩
    rw [BrowserSocket.onMessage, if_neg (by rw [hclosed]; decide), processRecvBuffer, if_neg (by rw [hmagic]; decide)]
    exact htracks
  | @greeting c₀ hgreeted hclosed hmagic hbuffer hlen hc =>
    have happend : c₀.consume (fun _ => .nothing) allocates (stream ++ data) = _ := consume_append stream data
    rw [hc, Option.bind_some] at happend
    rw [← happend, BrowserSocket.onMessage, if_neg (by rw [hclosed]; decide), hbuffer, processRecvBuffer,
      if_pos hmagic]
    dsimp only
    split
    · next hshort =>
      obtain ⟨c', he, -⟩ := hgreeted.awaits.consume_unfilled (fun _ => .nothing) allocates
        ConnectionState.noConfusion hshort
      refine ⟨c', he, .greeting ⟨hgreeted.pending, hgreeted.events, hgreeted.remoteIdentity, hgreeted.awaits,
        hgreeted.delivered, hgreeted.idle, hgreeted.handshake⟩ hclosed hmagic rfl hshort he⟩
    next hlong =>
    split
    · next hwrong =>
      obtain ⟨c', he, hdown, hev⟩ := consume_wrong_magic allocates hgreeted.awaits hgreeted.pending
        ⟨Nat.not_lt.mp hlong, hwrong⟩
      obtain ⟨hdel, hcl, hcb⟩ := fail_frame (s := { s with recvBuffer := stream ++ data }) hclosed
      refine ⟨c', he, .rejected hcl ⟨Nat.not_lt.mp hlong, hwrong⟩ hdown ?_ (.inl hcb)⟩
      rw [hev, hgreeted.events, hdel]
      exact hgreeted.delivered.symm
    · next hright =>
      have hmagic' : (stream ++ data).take magicString.length = magicString := Decidable.not_not.mp hright
      obtain ⟨c₁, hconsume, haw, hev, hid, hpend⟩ := consume_magic (fun _ => .nothing) allocates hgreeted.awaits
      have hsplit : magicString ++ (stream ++ data).drop magicString.length = stream ++ data := by
        conv_lhs => rw [← hmagic']
        rw [List.length_take_of_le (Nat.not_lt.mp hlong)]
        exact List.take_append_drop _ _
      have halign : Aligned { s with
          recvBuffer := (stream ++ data).drop magicString.length, magicConsumed := true } c₁ := by
        refine ⟨hpend.trans hgreeted.pending, ?_, hgreeted.idle, ?_⟩
        · rw [hev, hgreeted.events]
          exact hgreeted.delivered.symm
        · rw [hgreeted.handshake, if_neg Bool.false_ne_true]
          exact ⟨hid.trans hgreeted.remoteIdentity, haw⟩
      obtain ⟨c', he, htracks⟩ := halign.tracks (stream ++ data) hclosed rfl ⟨_, hsplit⟩
        (by rw [List.length_drop]; omega) (Nat.le_refl _) ha rfl
      refine ⟨c', ?_, htracks⟩
      rw [← hsplit, hconsume]
      exact he

section Sending

/-- Payloads are sent on an open socket in the order of the calls. -/
def Sends (s s' : BrowserSocket) : Prop :=
  ∃ payloads : List Bytes, s' = { s with sent := s.sent ++ payloads.map frame, accepted := s.accepted ++ payloads } ∧
    ∀ payload ∈ payloads, payload.length < 2 ^ 64

theorem Sends.refl (s : BrowserSocket) : Sends s s := ⟨[], by simp, fun _ h => by cases h⟩

theorem Sends.trans {s'' : BrowserSocket} (h : Sends s s') (h' : Sends s' s'') : Sends s s'' := by
  obtain ⟨ps, rfl, hps⟩ := h
  obtain ⟨qs, rfl, hqs⟩ := h'
  refine ⟨ps ++ qs, by simp, fun payload hp => ?_⟩
  rcases List.mem_append.mp hp with hp | hp
  · exact hps payload hp
  · exact hqs payload hp

theorem pack_eq_some {payload framed : Bytes} (h : pack payload = some framed) :
    framed = frame payload ∧ payload.length < 2 ^ 64 := by
  unfold pack at h
  split at h
  · next hlt =>
    cases h
    exact ⟨rfl, hlt⟩
  · cases h

mutual

theorem sends_sendMessage (s : BrowserSocket) (ho : s.isOpen = true) (hc : s.closed = false) :
    (call : SendCall) → Sends s (s.sendMessage call)
  | .send payload onSent => by
    rw [sendMessage, if_neg (by rw [hc]; decide)]
    split
    · exact .refl s
    · next framed hpack =>
      obtain ⟨rfl, hlt⟩ := pack_eq_some hpack
      dsimp only
      rw [if_neg (by rw [ho]; decide)]
      refine Sends.trans ?_ (sends_sendAll { s with
        accepted := s.accepted ++ [payload], sent := s.sent ++ [frame payload] } ho hc onSent)
      exact ⟨[payload], rfl, fun p hp => by rwa [List.mem_singleton.mp hp]⟩

theorem sends_sendAll (s : BrowserSocket) (ho : s.isOpen = true) (hc : s.closed = false) :
    (calls : List SendCall) → Sends s (s.sendAll calls)
  | [] => .refl s
  | call :: calls => by
    have hfirst := sends_sendMessage s ho hc call
    rw [sendAll]
    refine hfirst.trans (sends_sendAll _ ?_ ?_ calls)
    · obtain ⟨_, he, -⟩ := hfirst
      rw [he]
      exact ho
    · obtain ⟨_, he, -⟩ := hfirst
      rw [he]
      exact hc

end

/-- The queued sends are sent in their order, and behind them what the callback of the last one
sends, when the other callbacks send nothing. -/
theorem sends_pending (pending : List (Bytes × List SendCall)) (s : BrowserSocket) (ho : s.isOpen = true)
    (hc : s.closed = false) (hsilent : ∀ send ∈ pending.dropLast, send.2 = []) :
    Sends { s with sent := s.sent ++ pending.map Prod.fst }
      (pending.foldl (fun s send => s.rawSend send.1 send.2) s) := by
  induction pending generalizing s with
  | nil => exact ⟨[], by simp, fun _ h => by cases h⟩
  | cons send pending ih =>
    cases pending with
    | nil => exact sends_sendAll { s with sent := s.sent ++ [send.1] } ho hc send.2
    | cons next pending =>
      have hnil : send.2 = [] := hsilent send List.mem_cons_self
      have hraw : s.rawSend send.1 send.2 = { s with sent := s.sent ++ [send.1] } := by
        rw [hnil]
        rfl
      rw [List.foldl_cons, hraw]
      have hrest := ih { s with sent := s.sent ++ [send.1] } ho hc fun send' hs =>
        hsilent send' (List.mem_cons_of_mem _ hs)
      rw [List.map_cons, List.append_cons]
      exact hrest

/-- Only what has to do with sending is changed. -/
def SendsOnly (s s' : BrowserSocket) : Prop :=
  ∃ isOpen pendingSends sent accepted,
    s' = { s with isOpen := isOpen, pendingSends := pendingSends, sent := sent, accepted := accepted }

theorem Sends.sendsOnly (h : Sends s s') : SendsOnly s s' := by
  obtain ⟨payloads, rfl, -⟩ := h
  exact ⟨_, _, _, _, rfl⟩

theorem SendsOnly.trans {s'' : BrowserSocket} (h : SendsOnly s s') (h' : SendsOnly s' s'') : SendsOnly s s'' := by
  obtain ⟨_, _, _, _, rfl⟩ := h
  obtain ⟨_, _, _, _, rfl⟩ := h'
  exact ⟨_, _, _, _, rfl⟩

theorem sendsOnly_sendMessage (s : BrowserSocket) (call : SendCall) : SendsOnly s (s.sendMessage call) := by
  cases hc : s.closed with
  | true =>
    cases call with
    | send payload onSent =>
      rw [sendMessage, if_pos hc]
      exact ⟨_, _, _, _, rfl⟩
  | false =>
    cases ho : s.isOpen with
    | true => exact (sends_sendMessage s ho hc call).sendsOnly
    | false =>
      cases call with
      | send payload onSent =>
        rw [sendMessage, if_neg (by rw [hc]; decide)]
        split
        · exact ⟨_, _, _, _, rfl⟩
        · dsimp only
          rw [if_pos ho]
          exact ⟨_, _, _, _, rfl⟩

theorem sendsOnly_pending (pending : List (Bytes × List SendCall)) (s : BrowserSocket) (ho : s.isOpen = true)
    (hc : s.closed = false) : SendsOnly s (pending.foldl (fun s send => s.rawSend send.1 send.2) s) ∧
      (pending.foldl (fun s send => s.rawSend send.1 send.2) s).isOpen = true := by
  induction pending generalizing s with
  | nil => exact ⟨⟨_, _, _, _, rfl⟩, ho⟩
  | cons send pending ih =>
    obtain ⟨payloads, he, -⟩ := sends_sendAll { s with sent := s.sent ++ [send.1] } ho hc send.2
    rw [List.foldl_cons, rawSend, he]
    obtain ⟨hrest, hopen⟩ := ih { s with
      sent := s.sent ++ [send.1] ++ payloads.map frame, accepted := s.accepted ++ payloads } ho hc
    exact ⟨SendsOnly.trans ⟨_, _, _, _, rfl⟩ hrest, hopen⟩

theorem sendsOnly_onOpen (s : BrowserSocket) : SendsOnly s s.onOpen := by
  unfold onOpen
  split
  · exact ⟨_, _, _, _, rfl⟩
  · next hclosed =>
    split
    · exact ⟨_, _, _, _, rfl⟩
    · next framed _ =>
      have hc : s.closed = false := Bool.eq_false_iff.mpr fun h => hclosed (.inl h)
      refine SendsOnly.trans ⟨true, [], s.sent ++ [magicString ++ framed], s.accepted, rfl⟩ ?_
      exact (sendsOnly_pending s.pendingSends { s with
        isOpen := true, pendingSends := [], sent := s.sent ++ [magicString ++ framed] } rfl hc).1

end Sending

section Run

theorem Tracks.congr (h : Tracks allocates stream s c) (hclosed : s'.closed = s.closed)
    (hbuffer : s'.recvBuffer = s.recvBuffer) (hmagic : s'.magicConsumed = s.magicConsumed)
    (hhandshake : s'.handshakeComplete = s.handshakeComplete) (hdel : s'.delivered = s.delivered)
    (hidle : (s.recvCallbacks = [] ∨ s.recvQueue = []) → s'.recvCallbacks = [] ∨ s'.recvQueue = []) :
    Tracks allocates stream s' c := by
  cases h with
  | greeting hg hc hm hb hl he =>
    exact .greeting ⟨hg.pending, hg.events, hg.remoteIdentity, hg.awaits, hdel.trans hg.delivered, hidle hg.idle,
      hhandshake.trans hg.handshake⟩ (hclosed.trans hc) (hmagic.trans hm) (hbuffer.trans hb) hl he
  | reading ha hc hm hp hl hi he =>
    refine .reading ⟨ha.pending, ha.delivered.trans hdel.symm, hidle ha.idle, ?_⟩ (hclosed.trans hc)
      (hmagic.trans hm) hp (hbuffer ▸ hl) (hbuffer ▸ hi) (hbuffer ▸ he)
    rw [hhandshake]
    exact ha.awaits
  | rejected hc hw hd he hi => exact .rejected (hclosed.trans hc) hw hd (he.trans hdel.symm) (hidle hi)

theorem SendsOnly.tracks (h : SendsOnly s s') (ht : Tracks allocates stream s c) : Tracks allocates stream s' c := by
  obtain ⟨_, _, _, _, rfl⟩ := h
  exact ht.congr rfl rfl rfl rfl rfl fun h => h

theorem Tracks.recvMessage (h : Tracks allocates stream s c) (callback : Nat) :
    Tracks allocates stream (s.recvMessage callback) c := by
  unfold BrowserSocket.recvMessage
  split
  · next payload queue hq =>
    refine h.congr rfl rfl rfl rfl ?_ fun hidle => .inl (hidle.resolve_right ?_)
    · simp [delivered, hq]
    · rw [hq]
      exact List.cons_ne_nil _ _
  · next hq =>
    split
    · refine h.congr rfl rfl rfl rfl ?_ fun hidle => hidle
      simp [delivered]
    · exact h.congr rfl rfl rfl rfl rfl fun _ => .inr hq

/-- The data that came. -/
def dataOf (events : List BrowserEvent) : List Bytes :=
  events.filterMap fun
    | .message data => some data
    | _ => none

theorem run_append (identity : Identity) (events : List BrowserEvent) (e : BrowserEvent) :
    run identity (events ++ [e]) = (run identity events).step e := by
  rw [run, run, List.foldl_append]
  rfl

theorem dataOf_append (events : List BrowserEvent) (e : BrowserEvent) :
    dataOf (events ++ [e]) = dataOf events ++ dataOf [e] := List.filterMap_append

/-- As long as nobody closes the socket, both sides are at the same place. -/
theorem Tracks.run {identity : Identity} {receiver : MessageConnection} (hr : Greeted (new identity) receiver) {events : List BrowserEvent}
    (hopen : ∀ e ∈ events, e ≠ .close) (ha : ∀ k ≤ (dataOf events).flatten.length, allocates k = true) :
    ∃ c, (dataOf events).foldlM (feed allocates) receiver = some c ∧
      Tracks allocates (dataOf events).flatten (run identity events) c := by
  induction events using List.reverseRecOn with
  | nil => exact ⟨receiver, rfl, .greeting hr rfl rfl rfl (by decide) rfl⟩
  | append_singleton events e ih =>
    have hlen : (dataOf events).flatten.length ≤ (dataOf (events ++ [e])).flatten.length := by
      rw [dataOf_append, List.flatten_append, List.length_append]
      exact Nat.le_add_right _ _
    obtain ⟨c, hc, ht⟩ := ih (fun e' he => hopen e' (List.mem_append_left _ he)) fun k hk => ha k (by omega)
    rw [run_append]
    cases e with
    | message data =>
      have hdata : dataOf (events ++ [BrowserEvent.message data]) = dataOf events ++ [data] := dataOf_append _ _
      rw [hdata, List.flatten_append] at ha ⊢
      simp only [List.flatten_cons, List.flatten_nil, List.append_nil] at ha ⊢
      obtain ⟨c', hfeed, ht'⟩ := ht.onMessage ha
      refine ⟨c', ?_, ht'⟩
      rw [List.foldlM_append, hc]
      simpa using hfeed
    | close => exact absurd rfl (hopen .close (by simp))
    | opened =>
      have hdata : dataOf (events ++ [BrowserEvent.opened]) = dataOf events := (dataOf_append _ _).trans (List.append_nil _)
      rw [hdata]
      exact ⟨c, hc, (sendsOnly_onOpen _).tracks ht⟩
    | sendMessage call =>
      have hdata : dataOf (events ++ [BrowserEvent.sendMessage call]) = dataOf events :=
        (dataOf_append _ _).trans (List.append_nil _)
      rw [hdata]
      exact ⟨c, hc, (sendsOnly_sendMessage _ call).tracks ht⟩
    | recvMessage callback =>
      have hdata : dataOf (events ++ [BrowserEvent.recvMessage callback]) = dataOf events :=
        (dataOf_append _ _).trans (List.append_nil _)
      rw [hdata]
      exact ⟨c, hc, ht.recvMessage callback⟩

/-- What the places mean for the owners. -/
theorem Tracks.agree (h : Tracks allocates stream s c) :
    received c.events = s.delivered ∧ (s.closed = true ↔ WrongMagic stream) ∧
      (WrongMagic stream → c.connected = false) ∧
      (c.connected = false → WrongMagic stream ∨ ∃ n, allocates n = false) := by
  cases h with
  | rejected hclosed hwrong hc hdel _ =>
    exact ⟨hdel, ⟨fun _ => hwrong, fun _ => hclosed⟩, fun _ => hc, fun _ => .inl hwrong⟩
  | greeting hg hclosed _ _ hlen he =>
    have hnot : ¬ WrongMagic stream := fun hw => by
      have hle := hw.1
      omega
    obtain ⟨c', he', hstate, hev⟩ := hg.awaits.consume_unfilled (fun _ => .nothing) allocates
      ConnectionState.noConfusion hlen
    cases he.symm.trans he'
    refine ⟨?_, ⟨fun h => ?_, fun h => absurd h hnot⟩, fun h => absurd h hnot, fun h => ?_⟩
    · rw [hev, hg.events, hg.delivered]
      rfl
    · cases hclosed.symm.trans h
    · simp [connected, hstate] at h
  | reading ha hclosed _ hprefix _ hinc he =>
    have hnot : ¬ WrongMagic stream := by
      rintro ⟨-, hne⟩
      exact hne (List.prefix_iff_eq_take.mp hprefix).symm
    have hread : received c.events = s.delivered ∧ (c.connected = false → ∃ n, allocates n = false) := by
      have hawaits := ha.awaits
      rw [← ha.delivered]
      split at hawaits
      · obtain ⟨c', he', hev, hdown⟩ := consume_incomplete allocates hawaits
          ConnectionState.noConfusion ha.pending hinc
        cases he.symm.trans he'
        exact ⟨hev, hdown⟩
      · obtain ⟨c', he', hev, hdown⟩ := consume_incomplete allocates hawaits.2
          ConnectionState.noConfusion ha.pending hinc
        cases he.symm.trans he'
        exact ⟨hev, hdown⟩
    exact ⟨hread.1, ⟨fun h => (by cases hclosed.symm.trans h), fun h => absurd h hnot⟩, fun h => absurd h hnot,
      fun h => .inr (hread.2 h)⟩

/-- Before the WebSocket is open the accepted messages wait in their order, and afterwards they
are on the wire in it. -/
structure Ordered (identity : Identity) (s : BrowserSocket) : Prop where
  known : s.identity = identity
  waiting : s.isOpen = false → s.sent = [] ∧
    (s.closed = false → s.pendingSends.map Prod.fst = s.accepted.map frame)
  sent : s.isOpen = true → s.sent.flatten = wire identity s.accepted
  small : ∀ payload ∈ s.accepted, payload.length < 2 ^ 64

variable {identity : Identity}

theorem wire_append (identity : Identity) (messages more : List Bytes) :
    wire identity messages ++ (more.map frame).flatten = wire identity (messages ++ more) := by
  rw [wire, wire, List.append_assoc, List.flatMap_append, ← List.flatMap_def]

theorem Ordered.sends (h : Ordered identity s) (ho : s.isOpen = true) (hs : Sends s s') : Ordered identity s' := by
  obtain ⟨payloads, rfl, hsmall⟩ := hs
  refine ⟨h.known, fun hno => ?_, fun _ => ?_, fun payload hp => ?_⟩
  · cases ho.symm.trans hno
  · rw [List.flatten_append, h.sent ho, wire_append]
  · rcases List.mem_append.mp hp with hp | hp
    · exact h.small payload hp
    · exact hsmall payload hp

theorem Ordered.sendMessage (h : Ordered identity s) (call : SendCall) : Ordered identity (s.sendMessage call) := by
  cases ho : s.isOpen with
  | true =>
    cases hc : s.closed with
    | false => exact h.sends ho (sends_sendMessage s ho hc call)
    | true =>
      cases call with
      | send payload onSent =>
        rw [BrowserSocket.sendMessage, if_pos hc]
        exact h
  | false =>
    cases call with
    | send payload onSent =>
      rw [BrowserSocket.sendMessage]
      split
      · exact h
      next hc =>
      split
      · exact h
      next framed hpack =>
      obtain ⟨rfl, hlt⟩ := pack_eq_some hpack
      obtain ⟨hsent, hpending⟩ := h.waiting ho
      dsimp only
      rw [if_pos ho]
      refine ⟨h.known, fun _ => ⟨hsent, fun hopen => ?_⟩, fun hopen => ?_, fun p hp => ?_⟩
      · rw [List.map_append, List.map_append, hpending hopen]
        rfl
      · cases ho.symm.trans hopen
      · rcases List.mem_append.mp hp with hp | hp
        · exact h.small p hp
        · rwa [List.mem_singleton.mp hp]

/-- The queued sends leave in their order when no callback but the last one's sends again. -/
theorem Ordered.onOpen (h : Ordered identity s) (hid : identity.length < 2 ^ 64)
    (hsilent : s.closed = false → s.isOpen = false → ∀ send ∈ s.pendingSends.dropLast, send.2 = []) :
    Ordered identity s.onOpen := by
  unfold BrowserSocket.onOpen
  split
  · exact h
  next hstate =>
  have hc : s.closed = false := Bool.eq_false_iff.mpr fun hc => hstate (.inl hc)
  have ho : s.isOpen = false := Bool.eq_false_iff.mpr fun ho => hstate (.inr ho)
  obtain ⟨hsent, hpending⟩ := h.waiting ho
  split
  · next hpack =>
    rw [pack, h.known, if_pos hid] at hpack
    cases hpack
  next framed hpack =>
  obtain ⟨rfl, -⟩ := pack_eq_some hpack
  have hsends := sends_pending s.pendingSends { s with
    isOpen := true, pendingSends := [], sent := s.sent ++ [magicString ++ frame s.identity] } rfl hc (hsilent hc ho)
  have hdrained : Ordered identity { s with
      isOpen := true
      pendingSends := []
      sent := s.sent ++ [magicString ++ frame s.identity] ++ s.pendingSends.map Prod.fst } := by
    refine ⟨h.known, fun hno => (by cases hno), fun _ => ?_, h.small⟩
    rw [hsent, hpending hc, List.nil_append, List.flatten_append, h.known, ← List.flatMap_def]
    simp [wire, handshake]
  exact hdrained.sends rfl hsends

/-- Reading, and what only has to do with reading, does not send. -/
theorem Ordered.congr (h : Ordered identity s) (hid : s'.identity = s.identity) (hopen : s'.isOpen = s.isOpen)
    (hclosed : s'.closed = false → s.closed = false ∧ s'.pendingSends = s.pendingSends) (hsent : s'.sent = s.sent)
    (hacc : s'.accepted = s.accepted) : Ordered identity s' := by
  refine ⟨hid.trans h.known, fun ho => ?_, fun ho => ?_, fun payload hp => h.small payload (hacc ▸ hp)⟩
  · obtain ⟨hnone, hpending⟩ := h.waiting (hopen ▸ ho)
    refine ⟨hsent.trans hnone, fun hc => ?_⟩
    obtain ⟨hc, hp⟩ := hclosed hc
    rw [hp, hacc]
    exact hpending hc
  · rw [hsent, hacc]
    exact h.sent (hopen ▸ ho)

theorem Ordered.fail (h : Ordered identity s) : Ordered identity s.fail := by
  unfold BrowserSocket.fail
  split
  · exact h
  · exact h.congr rfl rfl (fun hc => by cases hc) rfl rfl

theorem Ordered.deliverMessage (h : Ordered identity s) (payload : Bytes) :
    Ordered identity (s.deliverMessage payload) := by
  unfold BrowserSocket.deliverMessage
  split
  · exact h.congr rfl rfl (fun hc => ⟨hc, rfl⟩) rfl rfl
  · exact h.congr rfl rfl (fun hc => ⟨hc, rfl⟩) rfl rfl

theorem Ordered.drainMessages (n : Nat) (h : Ordered identity s) : Ordered identity (drainMessages n s) := by
  induction n generalizing s with
  | zero => exact h
  | succ n ih =>
    rw [BrowserSocket.drainMessages]
    split
    · exact h
    dsimp only
    split
    · exact h
    split
    · exact ih (h.congr rfl rfl (fun hc => ⟨hc, rfl⟩) rfl rfl)
    · have htaken : Ordered identity { s with
          recvBuffer := s.recvBuffer.drop (headerSize + ofLittleEndian (s.recvBuffer.take headerSize)) } :=
        h.congr rfl rfl (fun hc => ⟨hc, rfl⟩) rfl rfl
      exact ih (htaken.deliverMessage _)

theorem Ordered.onMessage (h : Ordered identity s) (data : Bytes) : Ordered identity (s.onMessage data) := by
  unfold BrowserSocket.onMessage
  split
  · exact h
  have hdata : Ordered identity { s with recvBuffer := s.recvBuffer ++ data } :=
    h.congr rfl rfl (fun hc => ⟨hc, rfl⟩) rfl rfl
  unfold processRecvBuffer
  split
  · split
    · exact hdata
    split
    · exact hdata.fail
    · exact Ordered.drainMessages _ (hdata.congr rfl rfl (fun hc => ⟨hc, rfl⟩) rfl rfl)
  · exact hdata.drainMessages _

theorem Ordered.recvMessage (h : Ordered identity s) (callback : Nat) : Ordered identity (s.recvMessage callback) := by
  unfold BrowserSocket.recvMessage
  split
  · exact h.congr rfl rfl (fun hc => ⟨hc, rfl⟩) rfl rfl
  · split
    · exact h.congr rfl rfl (fun hc => ⟨hc, rfl⟩) rfl rfl
    · exact h.congr rfl rfl (fun hc => ⟨hc, rfl⟩) rfl rfl

end Run

/-- When the WebSocket opens, no callback of a queued send sends again, the last one's excepted. -/
def DrainsInOrder (s : BrowserSocket) : BrowserEvent → Prop
  | .opened => s.closed = false → s.isOpen = false → ∀ send ∈ s.pendingSends.dropLast, send.2 = []
  | _ => True

/-- Every step of the run drains in order. -/
def InOrder (identity : Identity) (events : List BrowserEvent) : Prop :=
  ∀ before e after, events = before ++ e :: after → (run identity before).DrainsInOrder e

theorem Ordered.run {identity : Identity} (hid : identity.length < 2 ^ 64) {events : List BrowserEvent}
    (h : InOrder identity events) : Ordered identity (run identity events) := by
  induction events using List.reverseRecOn with
  | nil =>
    exact ⟨rfl, fun _ => ⟨rfl, fun _ => rfl⟩, fun ho => (by cases ho), fun _ hp => by cases hp⟩
  | append_singleton events e ih =>
    have hprev := ih fun before e' after he => h before e' (after ++ [e]) (by simp [he])
    rw [run_append]
    cases e with
    | opened => exact hprev.onOpen hid (h events .opened [] rfl)
    | message data => exact hprev.onMessage data
    | close => exact hprev.fail
    | sendMessage call => exact hprev.sendMessage call
    | recvMessage callback => exact hprev.recvMessage callback

end BrowserSocket

open MessageConnection BrowserSocket

/-- The browser's socket and a native connection without a known identity, which other events
than closing do not disturb, read the same messages from the same data and refuse the same magic
strings; and what the browser sends, the native side reads as its identity and the messages in
the order of the calls, when the queued sends are drained in order. -/
theorem browser_native_agree (allocates : Nat → Bool) (identity other : Identity) (events : List BrowserEvent) :
    ∃ receiver, (do (← MessageConnection.new other none).connect) = some receiver ∧
    ((∀ e ∈ events, e ≠ .close) → (∀ n ≤ (dataOf events).flatten.length, allocates n = true) →
      ∃ c, (dataOf events).foldlM (feed allocates) receiver = some c ∧
        received c.events = (BrowserSocket.run identity events).delivered ∧
        ((BrowserSocket.run identity events).closed = true ↔ WrongMagic (dataOf events).flatten) ∧
        (WrongMagic (dataOf events).flatten → c.connected = false) ∧
        (c.connected = false → WrongMagic (dataOf events).flatten ∨ ∃ n, allocates n = false)) ∧
    (identity.length < 2 ^ 64 → InOrder identity events → (BrowserSocket.run identity events).isOpen = true →
      (∀ payload ∈ identity :: (BrowserSocket.run identity events).accepted, allocates payload.length = true) →
      ∀ pieces : List Bytes, pieces.flatten = (BrowserSocket.run identity events).sent.flatten →
        ∃ c, pieces.foldlM (fun c data => c.onRead (fun _ => .nothing) allocates data) receiver = some c ∧
          c.events = .remoteIdentity identity :: (BrowserSocket.run identity events).accepted.map .recvMessage) := by
  obtain ⟨receiver, hr, haw, hid, hev, hpend⟩ := connect_fresh other none
  refine ⟨receiver, hr, fun hopen ha => ?_, fun hlen horder hopen ha pieces hp => ?_⟩
  · have hgreeted : Greeted (BrowserSocket.new identity) receiver :=
      ⟨hpend, hev, hid, haw, rfl, .inl rfl, rfl⟩
    obtain ⟨c, hc, ht⟩ := Tracks.run hgreeted hopen ha
    exact ⟨c, hc, ht.agree⟩
  · have hordered := Ordered.run hlen horder
    rw [hordered.sent hopen] at hp
    have hm : ∀ payload ∈ identity :: (BrowserSocket.run identity events).accepted,
        payload.length < 2 ^ 64 ∧ allocates payload.length = true := by
      intro payload hpay
      refine ⟨?_, ha payload hpay⟩
      rcases List.mem_cons.mp hpay with rfl | hpay
      · exact hlen
      · exact hordered.small payload hpay
    obtain ⟨c, told, he, hc, hev', hd⟩ := consume_wire (fun _ => .nothing) (fun _ => rfl) hm haw
      (by rw [hid]; exact fun _ h => by cases h) (List.prefix_refl _)
    refine ⟨c, foldlM_onRead (hp ▸ he) hc, ?_⟩
    rw [hev', hev, List.nil_append]
    exact hd.all

/-- A message is queued before the WebSocket opens, and one is received in two pieces. -/
theorem browser_native_agree_hello : ∃ receiver c c',
    (do (← MessageConnection.new [9] none).connect) = some receiver ∧
    (dataOf [.sendMessage (.send [10] []), .opened, .message [89, 77, 81, 2, 1, 0, 0, 0, 0, 0, 0, 0, 7, 2, 0, 0],
      .message [0, 0, 0, 0, 0, 5, 6]]).foldlM (feed fun n => n < 64) receiver = some c ∧
    received c.events = [[5, 6]] ∧
    (BrowserSocket.run [1] [.sendMessage (.send [10] []), .opened, .message [89, 77, 81, 2, 1, 0, 0, 0, 0, 0, 0, 0, 7,
      2, 0, 0], .message [0, 0, 0, 0, 0, 5, 6]]).sent.foldlM
        (fun c data => c.onRead (fun _ => .nothing) (fun n => n < 64) data) receiver = some c' ∧
    c'.events = [.remoteIdentity [1], .recvMessage [10]] := by
  obtain ⟨receiver, hr, hread, hsend⟩ := browser_native_agree (fun n => n < 64) [1] [9]
    [.sendMessage (.send [10] []), .opened, .message [89, 77, 81, 2, 1, 0, 0, 0, 0, 0, 0, 0, 7, 2, 0, 0],
      .message [0, 0, 0, 0, 0, 5, 6]]
  have horder : InOrder [1] [.sendMessage (.send [10] []), .opened,
      .message [89, 77, 81, 2, 1, 0, 0, 0, 0, 0, 0, 0, 7, 2, 0, 0], .message [0, 0, 0, 0, 0, 5, 6]] := by
    intro before e after h
    rcases before with _ | ⟨first, _ | ⟨second, before⟩⟩
    · cases h
      exact trivial
    · cases h
      exact fun _ _ send hs => by cases hs
    · simp only [List.cons_append, List.cons.injEq] at h
      have hmem : e ∈ before ++ e :: after := by simp
      rw [← h.2.2] at hmem
      cases e with
      | opened => simp at hmem
      | message | close | sendMessage | recvMessage => exact trivial
  obtain ⟨c, hc, hrec, -⟩ := hread (by simp) fun n hn => by
    have hn' : n ≤ 23 := hn
    simp only [decide_eq_true_eq]
    omega
  obtain ⟨c', hc', hev⟩ := hsend (by decide) horder rfl (by decide) _ rfl
  exact ⟨receiver, c, c', hr, hc, hrec, hc', hev⟩

/-- The callback of a send that was queued sends again: its message overtakes one that was queued
before it. -/
theorem queued_send_overtaken : ∃ receiver c,
    (do (← MessageConnection.new [9] none).connect) = some receiver ∧
    (BrowserSocket.run [1] [.sendMessage (.send [10] [.send [30] []]), .sendMessage (.send [20] []),
      .opened]).accepted = [[10], [20], [30]] ∧
    (BrowserSocket.run [1] [.sendMessage (.send [10] [.send [30] []]), .sendMessage (.send [20] []),
      .opened]).sent.foldlM (fun c data => c.onRead (fun _ => .nothing) (fun _ => true) data) receiver = some c ∧
    c.events = [.remoteIdentity [1], .recvMessage [10], .recvMessage [30], .recvMessage [20]] :=
  ⟨_, _, rfl, rfl, rfl, rfl⟩

end Scaler.Ymq
