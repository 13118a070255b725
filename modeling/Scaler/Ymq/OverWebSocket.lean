import Scaler.Ymq.RoundTrip
import Scaler.Ymq.WebSocketRoundTrip

/-! A `MessageConnection` whose client is a `WebSocketStream`. Every write of the connection is one message of the
stream, and what the read callback of the other stream is given is read by the other connection. -/

namespace Scaler.Ymq

open Collections

theorem length_le_of_mem_chunks {n : Nat} {buffer piece : Bytes} (h : piece ∈ chunks n buffer) : piece.length ≤ n := by
  obtain ⟨i, -, rfl⟩ := List.mem_map.mp h
  rw [List.length_take]
  exact Nat.min_le_left _ _

namespace MessageConnection

variable {c : MessageConnection}

/-- The writes made on the client. -/
def writes (c : MessageConnection) : List Bytes := (c.client.map Client.written).getD []

/-- No write is larger than `maxWriteBufferSize`. -/
def Bounded (c : MessageConnection) : Prop := ∀ piece ∈ c.writes, piece.length ≤ maxWriteBufferSize

theorem sentBytes_eq_flatten (c : MessageConnection) : c.sentBytes = c.writes.flatten := by
  rw [sentBytes, writes]
  cases c.client <;> rfl

theorem Bounded.of_client {c' : MessageConnection} (h : c.Bounded) (hclient : c'.client = c.client) : c'.Bounded := by
  rw [Bounded, writes, hclient]
  exact h

theorem Bounded.write (h : c.Bounded) {buffers : List Bytes} (hsize : buffers.flatten.length ≤ maxWriteBufferSize) :
    (c.write buffers).Bounded := by
  intro piece hpiece
  rw [writes, MessageConnection.write, Option.map_map] at hpiece
  cases hc : c.client with
  | none =>
    rw [hc] at hpiece
    exact absurd hpiece List.not_mem_nil
  | some client =>
    rw [hc, Option.map_some, Option.getD_some] at hpiece
    rcases List.mem_append.mp hpiece with hold | hnew
    · refine h piece ?_
      rwa [writes, hc]
    · rwa [List.mem_singleton.mp hnew]

theorem Bounded.processSendOperation (h : c.Bounded) (buffers : List Bytes) : (c.processSendOperation buffers).Bounded := by
  unfold MessageConnection.processSendOperation
  dsimp only
  split
  · next hsize =>
    refine h.write ?_
    rwa [List.length_flatten]
  · have hpieces : ∀ piece ∈ buffers.flatMap (chunks maxWriteBufferSize), piece.length ≤ maxWriteBufferSize := by
      intro piece hpiece
      obtain ⟨buffer, -, hmem⟩ := List.mem_flatMap.mp hpiece
      exact length_le_of_mem_chunks hmem
    generalize buffers.flatMap (chunks maxWriteBufferSize) = pieces at hpieces
    induction pieces generalizing c with
    | nil => exact h
    | cons piece pieces ih =>
      refine ih (h.write ?_) fun piece' hmem => hpieces piece' (List.mem_cons_of_mem piece hmem)
      rw [List.flatten_singleton]
      exact hpieces piece List.mem_cons_self

theorem Bounded.processSendQueue (h : c.Bounded) : c.processSendQueue.Bounded := by
  have hall : ∀ (queue : List (List Bytes)) (c : MessageConnection), c.Bounded → (queue.foldl MessageConnection.processSendOperation c).Bounded := by
    intro queue
    induction queue with
    | nil => exact fun c h => h
    | cons buffers queue ih => exact fun c h => ih _ (h.processSendOperation buffers)
  exact hall c.sendPending _ (h.of_client rfl)

theorem Bounded.sendMessage (h : c.Bounded) (payload : Bytes) : (c.sendMessage payload).Bounded := by
  unfold MessageConnection.sendMessage send
  dsimp only
  split
  · exact Bounded.processSendQueue (h.of_client rfl)
  · exact h.of_client rfl

theorem Bounded.foldl_sendMessage (h : c.Bounded) (messages : List Bytes) : (messages.foldl MessageConnection.sendMessage c).Bounded := by
  induction messages generalizing c with
  | nil => exact h
  | cons payload messages ih => exact ih (h.sendMessage payload)

theorem Bounded.connect {c' : MessageConnection} (h : c.connect = some c') : c'.Bounded := by
  unfold MessageConnection.connect at h
  split at h
  · cases h
  · obtain rfl := Option.some.inj h
    exact Bounded.processSendQueue fun piece hpiece => absurd hpiece List.not_mem_nil

end MessageConnection

open MessageConnection WebSocket

/-- What the connection makes the stream send, with control frames in between. -/
def WebSocket.Sending.Plain : Sending → Prop
  | .write _ => True
  | .control _ payload => payload.length ≤ maxControlFramePayload
  | .fragments _ _ _ _ _ => False

theorem WebSocket.Sending.Plain.fits {sendings : List Sending} (hplain : ∀ x ∈ sendings, x.Plain)
    (hsize : ∀ piece ∈ sendings.flatMap Sending.contents, piece.length ≤ maxWriteBufferSize) : ∀ x ∈ sendings, x.Fits := by
  intro x hx
  have hx' := hplain x hx
  cases x with
  | write buffers =>
    have hpiece := hsize buffers.flatten (List.mem_flatMap.mpr ⟨_, hx, List.mem_singleton_self _⟩)
    rw [List.length_flatten] at hpiece
    exact Nat.lt_of_le_of_lt hpiece (by decide)
  | control isPing payload => exact hx'
  | fragments => exact hx'.elim

/-- What one connection sends over a WebSocket stream, before and after it is connected, the other one delivers behind
the identity, for all masks and control frames and every way of cutting the bytes. -/
theorem messages_cross_webSocket (allocates : Nat → Bool) (identity other : Identity) (expected known : Option Identity)
    (before after : List Bytes) (hm : ∀ payload ∈ identity :: (before ++ after), payload.length < 2 ^ 64 ∧ allocates payload.length = true)
    (hk : ∀ remote ∈ known, remote = identity) (keys keys' : Nat → MaskKey) (role role' : Role) :
    ∃ sender receiver,
      (do (before.foldl sendMessage (← new identity expected)).connect) = some sender ∧
      (do (← new other known).connect) = some receiver ∧
      ∀ sendings : List Sending, (∀ x ∈ sendings, x.Plain) → sendings.flatMap Sending.contents = (after.foldl sendMessage sender).writes →
        ∀ pieces : List Bytes, pieces.flatten = (sendings.foldl (WebSocketStream.send keys) (.opened role)).written.flatten →
          ∃ (s : WebSocketStream) (payloads : List Bytes) (c : MessageConnection), pieces.foldlM (fun s data => s.onRead keys' data) (WebSocketStream.opened role') = some s ∧
            s.calls = payloads.map .ok ∧ s.recvBuffer = [] ∧
            payloads.foldlM (fun c data => c.onRead (fun _ => .nothing) allocates data) receiver = some c ∧
            c.events = .remoteIdentity identity :: (before ++ after).map .recvMessage := by
  obtain ⟨sender, hs, hsent⟩ := sentBytes_eq identity expected before after
  obtain ⟨receiver, hr, hawaits, hid, hevents, -⟩ := connect_fresh other known
  refine ⟨sender, receiver, hs, hr, fun sendings hplain hcontents pieces hpieces => ?_⟩
  have hbounded : (after.foldl sendMessage sender).Bounded := (Bounded.connect hs).foldl_sendMessage after
  have hfits : ∀ x ∈ sendings, x.Fits := Sending.Plain.fits hplain fun piece hpiece => hbounded piece (hcontents ▸ hpiece)
  obtain ⟨frames, hwritten, hframes, hdelivers⟩ := WebSocketStream.foldl_send keys (.opened role) hfits
  have hread : pieces.foldlM (fun s data => s.onRead keys' data) (WebSocketStream.opened role') =
      some ((frames.foldl (WebSocketStream.onFrame keys') (.opened role')).holding []) :=
    WebSocketStream.foldlM_onRead_all hframes rfl rfl (hpieces.trans hwritten)
  have hwire : (sendings.flatMap Sending.contents).flatten = wire identity (before ++ after) := by
    rw [hcontents, ← sentBytes_eq_flatten, hsent]
  have hprefix : (sendings.flatMap Sending.contents).flatten <+: wire identity (before ++ after) := hwire ▸ List.prefix_refl _
  obtain ⟨c, events, hconsume, hconnected, hreported, hmessages⟩ :=
    consume_wire (fun _ => .nothing) (fun _ => rfl) hm hawaits (hid ▸ hk) hprefix
  refine ⟨_, sendings.flatMap Sending.contents, c, hread, hdelivers keys' (.opened role'), rfl, foldlM_onRead hconsume hconnected, ?_⟩
  rw [hwire] at hmessages
  rw [hreported, hevents, List.nil_append, hmessages.all]

/-- A ping and then one write for each piece. -/
def pingFirst (pieces : List Bytes) : List Sending := .control true [1] :: pieces.map fun piece => .write [piece]

theorem contents_pingFirst (pieces : List Bytes) : (pingFirst pieces).flatMap Sending.contents = pieces := by
  induction pieces with
  | nil => rfl
  | cons piece pieces ih =>
    simp only [pingFirst, Sending.contents, List.flatMap_cons, List.map_cons, List.nil_append, List.flatten_singleton,
      List.singleton_append] at ih ⊢
    rw [ih]

/-- An empty message and one of two bytes, byte by byte through a masked stream. -/
theorem messages_cross_webSocket_two : ∃ (sender : MessageConnection) (s : WebSocketStream) (payloads : List Bytes)
    (receiver c : MessageConnection),
    (do (sendMessage (← new [7] none) []).connect) = some sender ∧
      (((pingFirst (sender.sendMessage [2, 3]).writes).foldl (WebSocketStream.send fun _ => ⟨[1, 2, 3, 4], rfl⟩) (.opened .client)).written.flatten.map
        fun byte => [byte]).foldlM (fun s data => s.onRead (fun _ => ⟨[0, 0, 0, 0], rfl⟩) data) (WebSocketStream.opened .server) = some s ∧
      s.calls = payloads.map .ok ∧
      payloads.foldlM (fun c data => c.onRead (fun _ => .nothing) (fun n => n < 1024) data) receiver = some c ∧
      c.events = [.remoteIdentity [7], .recvMessage [], .recvMessage [2, 3]] := by
  obtain ⟨sender, receiver, hs, -, h⟩ := messages_cross_webSocket (fun n => n < 1024) [7] [8] none none [[]] [[2, 3]] (by decide) (by simp)
    (fun _ => ⟨[1, 2, 3, 4], rfl⟩) (fun _ => ⟨[0, 0, 0, 0], rfl⟩) .client .server
  have hplain : ∀ x ∈ pingFirst (sender.sendMessage [2, 3]).writes, x.Plain := by
    simp [pingFirst, Sending.Plain, maxControlFramePayload]
  have hsingle : ∀ l : Bytes, (l.map fun byte => [byte]).flatten = l := by simp [← List.flatMap_def]
  obtain ⟨s, payloads, c, hread, hcalls, -, hreceived, hevents⟩ := h _ hplain (contents_pingFirst _) _ (hsingle _)
  exact ⟨sender, s, payloads, receiver, c, hs, hread, hcalls, hreceived, hevents⟩

end Scaler.Ymq
