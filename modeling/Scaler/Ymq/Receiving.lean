import Scaler.Ymq.RoundTrip

/-! How far a connection has come in the bytes of its client, and the bytes for which it ends. -/

namespace Scaler.Ymq

open Collections

namespace MessageConnection

variable {c c' : MessageConnection} {client : Client} {react : Event → Reaction}
  {allocates : Nat → Bool}

/-- Whole messages, each behind its length. -/
inductive Messages : Bytes → Prop where
  | nil : Messages []
  | snoc {bytes header payload : Bytes} : Messages bytes → header.length = headerSize →
    ofLittleEndian header = payload.length → Messages (bytes ++ header ++ payload)

/-- These bytes end with something else than the magic string, or with a length for which no buffer can be
allocated. -/
def Refused (allocates : Nat → Bool) (stream : Bytes) : Prop :=
  stream.length = magicString.length ∧ stream ≠ magicString ∨
    ∃ bytes header, stream = magicString ++ bytes ++ header ∧ Messages bytes ∧
      header.length = headerSize ∧ allocates (ofLittleEndian header) = false

theorem Refused.le_length {stream : Bytes} (h : Refused allocates stream) : magicString.length ≤ stream.length := by
  rcases h with ⟨hl, -⟩ | ⟨bytes, header, rfl, -⟩
  · exact Nat.le_of_eq hl.symm
  · simp only [List.length_append]
    omega

/-- The remote end, of which another identity is known, completes an identity message. -/
def WrongIdentity (allocates : Nat → Bool) (c : MessageConnection) (data : Bytes) : Prop :=
  c.state = .connected ∧ ∃ known ∈ c.remoteIdentity, ∃ client ∈ c.client,
    ∃ header identity rest : Bytes,
      client.received ++ data = magicString ++ header ++ identity ++ rest ∧
      header.length = headerSize ∧ ofLittleEndian header = identity.length ∧
      allocates identity.length = true ∧ identity ≠ known

/-- All that was read from the client. -/
def receivedBytes (c : MessageConnection) : Bytes := (c.client.map Client.received).getD []

/-- Only the first message comes before the connection is established. -/
def Stage (c : MessageConnection) (bytes : Bytes) : Prop :=
  c.state = .connected ∧ bytes = [] ∨ c.state = .established

/-- How far the reading of a client's bytes has come. -/
inductive Progress (allocates : Nat → Bool) (c : MessageConnection) : Bytes → Prop where
  | magicNumber {copied} : c.state = .connected → copied.length < magicString.length →
    c.recvCurrent = ⟨some ⟨magicString.length, copied⟩, some .magicNumber⟩ →
    Progress allocates c copied
  | header {bytes copied} : c.Stage bytes → Messages bytes → copied.length < headerSize →
    c.recvCurrent = ⟨some ⟨headerSize, copied⟩, some .header⟩ →
    Progress allocates c (magicString ++ bytes ++ copied)
  | message {bytes header copied} : c.Stage bytes → Messages bytes → header.length = headerSize →
    allocates (ofLittleEndian header) = true → copied.length < ofLittleEndian header →
    c.recvCurrent = ⟨some ⟨ofLittleEndian header, copied⟩, some .message⟩ →
    Progress allocates c (magicString ++ bytes ++ header ++ copied)

/-- A client is attached and read in step. -/
structure Reading (allocates : Nat → Bool) (c : MessageConnection) (received : Bytes) : Prop where
  client : ∃ written, c.client = some ⟨written, received⟩
  progress : Progress allocates c received

/-- What the owner is told of a client that stays. -/
def Undisturbed (told : List Event) : Prop := ∀ reason, .remoteDisconnect reason ∉ told

theorem Undisturbed.append {told more : List Event} (h : Undisturbed told) (hm : Undisturbed more) :
    Undisturbed (told ++ more) := by
  intro reason hr
  rcases List.mem_append.mp hr with hr | hr
  · exact h reason hr
  · exact hm reason hr

/-- The connection has read these bytes and goes on. Reading writes nothing. -/
structure Went (c c' : MessageConnection) (data : Bytes) : Prop where
  client : c'.client = c.client.map fun client => { client with received := client.received ++ data }
  sendPending : c'.sendPending = c.sendPending
  localIdentity : c'.localIdentity = c.localIdentity
  stage : c'.state = .connected → c.state = .connected ∧ c'.remoteIdentity = c.remoteIdentity
  events : ∃ told, c'.events = c.events ++ told ∧ Undisturbed told

theorem Went.trans {c'' : MessageConnection} {data more : Bytes} (h : Went c c' data) (h' : Went c' c'' more) :
    Went c c'' (data ++ more) where
  client := by
    rw [h'.client, h.client]
    cases c.client with
    | none => rfl
    | some client => simp
  sendPending := h'.sendPending.trans h.sendPending
  localIdentity := h'.localIdentity.trans h.localIdentity
  stage hs := by
    obtain ⟨hs', hi'⟩ := h'.stage hs
    obtain ⟨hs, hi⟩ := h.stage hs'
    exact ⟨hs, hi'.trans hi⟩
  events := by
    obtain ⟨told, he, ht⟩ := h.events
    obtain ⟨more, he', hm⟩ := h'.events
    exact ⟨told ++ more, by rw [he', he, List.append_assoc], ht.append hm⟩

theorem WrongIdentity.of_went {data rest : Bytes} (hw : Went c c' data) (h : WrongIdentity allocates c' rest) :
    WrongIdentity allocates c (data ++ rest) := by
  obtain ⟨hs, known, hk, x, hx, header, identity, tail, he, hmore⟩ := h
  obtain ⟨hs, hi⟩ := hw.stage hs
  rw [hw.client] at hx
  obtain ⟨client, hc, rfl⟩ := Option.map_eq_some_iff.mp hx
  refine ⟨hs, known, hi ▸ hk, client, hc, header, identity, tail, ?_, hmore⟩
  rw [← he, List.append_assoc]

theorem Progress.buffer {received : Bytes} (h : Progress allocates c received) :
    c.connected = true ∧ ∃ size copied callback,
      c.recvCurrent = ⟨some ⟨size, copied⟩, some callback⟩ ∧ copied.length < size := by
  have hstage : ∀ {bytes}, c.Stage bytes → c.connected = true := by
    rintro bytes (⟨hs, -⟩ | hs) <;> simp [connected, hs]
  cases h with
  | magicNumber hs hl hr => exact ⟨by simp [connected, hs], _, _, _, hr, hl⟩
  | header hs _ hl hr => exact ⟨hstage hs, _, _, _, hr, hl⟩
  | message hs _ _ _ hl hr => exact ⟨hstage hs, _, _, _, hr, hl⟩

theorem Progress.congr {received : Bytes} (h : Progress allocates c received)
    (hs' : c'.state = c.state) (hr' : c'.recvCurrent = c.recvCurrent) :
    Progress allocates c' received := by
  have hstage : ∀ {bytes}, c.Stage bytes → c'.Stage bytes := fun h => by rwa [Stage, hs']
  cases h with
  | magicNumber hs hl hr => exact .magicNumber (hs'.trans hs) hl (hr'.trans hr)
  | header hs hm hl hr => exact .header (hstage hs) hm hl (hr'.trans hr)
  | message hs hm hh ha hl hr => exact .message (hstage hs) hm hh ha hl (hr'.trans hr)

theorem Progress.more {received data copied : Bytes} {size : Nat} {callback : RecvCallback}
    (h : Progress allocates c received) (hr : c.recvCurrent = ⟨some ⟨size, copied⟩, some callback⟩)
    (hl : copied.length + data.length < size) (hs' : c'.state = c.state)
    (hr' : c'.recvCurrent = ⟨some ⟨size, copied ++ data⟩, some callback⟩) :
    Progress allocates c' (received ++ data) := by
  have hstage : ∀ {bytes}, c.Stage bytes → c'.Stage bytes := fun h => by rwa [Stage, hs']
  rw [← List.length_append] at hl
  cases h with
  | magicNumber hs _ he =>
    cases hr.symm.trans he
    exact .magicNumber (hs'.trans hs) hl hr'
  | header hs hm _ he =>
    cases hr.symm.trans he
    rw [List.append_assoc]
    exact .header (hstage hs) hm hl hr'
  | message hs hm hh ha _ he =>
    cases hr.symm.trans he
    rw [List.append_assoc]
    exact .message (hstage hs) hm hh ha hl hr'

theorem WrongIdentity.append {data : Bytes} (h : WrongIdentity allocates c data) (rest : Bytes) :
    WrongIdentity allocates c (data ++ rest) := by
  obtain ⟨hs, known, hk, client, hc, header, identity, tail, he, hmore⟩ := h
  refine ⟨hs, known, hk, client, hc, header, identity, tail ++ rest, ?_, hmore⟩
  rw [← List.append_assoc, he, List.append_assoc]

section

variable {received first : Bytes}

theorem Reading.goes_on (h : c.Reading allocates received) (told : List Event) (hclient : c'.client = (c.copy first none).client)
    (hp : c'.sendPending = c.sendPending) (hl : c'.localIdentity = c.localIdentity)
    (hs : c'.state = .connected → c.state = .connected ∧ c'.remoteIdentity = c.remoteIdentity)
    (he : c'.events = c.events ++ told) (ht : Undisturbed told)
    (hprog : Progress allocates c' (received ++ first)) :
    c'.Reading allocates (received ++ first) ∧ Went c c' first := by
  obtain ⟨written, hc⟩ := h.client
  refine ⟨⟨⟨written, ?_⟩, hprog⟩, hclient, hp, hl, hs, told, he, ht⟩
  rw [hclient, copy, hc]
  rfl

variable (hreact : ∀ event, react event = .nothing)

include hreact

theorem Reading.message (h : c.Reading allocates received) {bytes header payload : Bytes} (hs : c.Stage bytes)
    (hm : Messages bytes) (hh : header.length = headerSize) (hn : ofLittleEndian header = payload.length)
    (ha : allocates payload.length = true) (he : received ++ first = magicString ++ bytes ++ header ++ payload)
    (hwrong : ¬WrongIdentity allocates c first) :
    ∃ c', (c.copy first none).onMessagePayload react payload = some c' ∧
      c'.Reading allocates (received ++ first) ∧ Went c c' first := by
  have hprog : ∀ c' : MessageConnection, c'.state = .established →
      c'.recvCurrent = ⟨some ⟨headerSize, []⟩, some .header⟩ → Progress allocates c' (received ++ first) := by
    intro c' hs' hr'
    have hstream : received ++ first = magicString ++ (bytes ++ header ++ payload) ++ [] := by rw [he]; simp
    rw [hstream]
    exact .header (.inr hs') (hm.snoc hh hn) (by decide) hr'
  have hrecv : (c.copy first none).recvCurrent = ⟨none, c.recvCurrent.onRecvDone⟩ := rfl
  rcases hs with ⟨hs, rfl⟩ | hs
  · have hi : ∀ known ∈ c.remoteIdentity, known = payload := by
      intro known hk
      by_contra hne
      obtain ⟨written, hc⟩ := h.client
      refine hwrong ⟨hs, known, hk, _, hc, header, payload, [], ?_, hh, hn, ha, Ne.symm hne⟩
      rw [he]
      simp
    refine ⟨_, onMessagePayload_identity hreact (c := c.copy first none) hs hrecv hi,
      h.goes_on [.remoteIdentity payload] rfl rfl rfl (fun hx => by cases hx) rfl (by simp [Undisturbed])
        (hprog _ rfl rfl)⟩
  · exact ⟨_, onMessagePayload_established hreact (c := c.copy first none) hs hrecv payload,
      h.goes_on [.recvMessage payload] rfl rfl rfl (fun hx => (by cases hs.symm.trans hx)) rfl
        (by simp [Undisturbed]) (hprog _ hs rfl)⟩

theorem Reading.filled {size : Nat} {copied : Bytes} {callback : RecvCallback} (h : c.Reading allocates received)
    (hr : c.recvCurrent = ⟨some ⟨size, copied⟩, some callback⟩) (hl : copied.length + first.length = size)
    (hwrong : ¬WrongIdentity allocates c first) :
    (∃ c', (c.copy first none).onRecvDone react allocates (copied ++ first) callback = some c' ∧
      c'.Reading allocates (received ++ first) ∧ Went c c' first) ∨
    Refused allocates (received ++ first) ∧
      (c.copy first none).onRecvDone react allocates (copied ++ first) callback =
        (c.copy first none).onRemoteDisconnect .aborted := by
  have hcon : (c.copy first none).connected = true := h.progress.buffer.1
  have hprogress := h.progress
  rw [← List.length_append] at hl
  cases hprogress with
  | magicNumber hs _ he =>
    cases hr.symm.trans he
    rw [MessageConnection.onRecvDone, onMagicNumber, if_pos hcon]
    split
    · next hm =>
      refine .inl ⟨_, rfl, h.goes_on [] rfl rfl rfl (fun _ => ⟨hs, rfl⟩) (List.append_nil _).symm
        (by simp [Undisturbed]) ?_⟩
      rw [hm, ← List.append_nil magicString, ← List.append_nil (magicString ++ [])]
      exact .header (.inl ⟨hs, rfl⟩) .nil (by decide) rfl
    · next hm => exact .inr ⟨.inl ⟨hl, hm⟩, rfl⟩
  | @header bytes copied hs hm _ he =>
    cases hr.symm.trans he
    rw [MessageConnection.onRecvDone, onHeader, if_pos hcon]
    dsimp only
    have hstream : magicString ++ bytes ++ copied ++ first = magicString ++ bytes ++ (copied ++ first) :=
      List.append_assoc _ _ _
    by_cases ha : allocates (ofLittleEndian (copied ++ first)) = false
    · rw [if_pos ha]
      exact .inr ⟨.inr ⟨bytes, copied ++ first, hstream, hm, hl, ha⟩, rfl⟩
    rw [if_neg ha]
    have ha' : allocates (ofLittleEndian (copied ++ first)) = true := by simpa using ha
    split
    · next hz =>
      refine .inl (h.message hreact hs hm hl hz ?_ ?_ hwrong)
      · rwa [hz] at ha'
      · rw [hstream, List.append_nil]
    · next hz =>
      refine .inl ⟨_, rfl, h.goes_on [] rfl rfl rfl (fun hx => ⟨hx, rfl⟩) (List.append_nil _).symm
        (by simp [Undisturbed]) ?_⟩
      rw [hstream, ← List.append_nil (magicString ++ bytes ++ (copied ++ first))]
      exact .message hs hm hl ha' (Nat.pos_of_ne_zero hz) rfl
  | @message bytes header copied hs hm hh ha _ he =>
    cases hr.symm.trans he
    exact .inl (h.message hreact hs hm hh hl.symm (by rwa [hl]) (List.append_assoc _ _ _) hwrong)

/-- Reading bytes, however many: the connection goes on, or it ends at bytes that are refused. -/
theorem Reading.consume (h : c.Reading allocates received) (data : Bytes) (hwrong : ¬WrongIdentity allocates c data) :
    (∃ c', consume react allocates data c = some c' ∧ c'.Reading allocates (received ++ data) ∧ Went c c' data) ∨
    ∃ first rest c', data = first ++ rest ∧ first ≠ [] ∧ Refused allocates (received ++ first) ∧
      c'.connected = true ∧ Went c c' first ∧ consume react allocates data c =
        (c'.onRemoteDisconnect .aborted).bind (consume react allocates rest) := by
  induction hn : data.length using Nat.strongRecOn generalizing data c received with
  | ind n ih =>
    obtain ⟨hcon, size, copied, callback, hr, hs⟩ := h.progress.buffer
    rcases split_data hs data with hd | ⟨first, rest, rfl, hf, hl⟩
    · refine .inl ⟨_, consume_unfilled hcon (by rw [hr]) hd, ?_⟩
      split
      · next he =>
        rw [he, List.append_nil]
        exact ⟨h, by cases c.client <;> simp, rfl, rfl, fun hx => ⟨hx, rfl⟩, [], by simp, by simp [Undisturbed]⟩
      · exact h.goes_on [] rfl rfl rfl (fun hx => ⟨hx, rfl⟩) (List.append_nil _).symm
          (by simp [Undisturbed]) (h.progress.more hr hd rfl (by rw [copy, hr]))
    · have hfirst : ¬WrongIdentity allocates c first := fun hx => hwrong (hx.append rest)
      rcases h.filled hreact hr hl hfirst with ⟨c₁, he₁, h₁, hw₁⟩ | ⟨href, he₁⟩
      · have hlt : rest.length < n := by
          have hpos : 0 < first.length := List.length_pos_iff.mpr hf
          rw [← hn, List.length_append]
          omega
        have hstep : MessageConnection.consume react allocates (first ++ rest) c =
            MessageConnection.consume react allocates rest c₁ := by
          rw [consume_full hcon hr hl hf, Option.bind_some, he₁, Option.bind_some]
        rw [hstep, ← List.append_assoc]
        rcases ih rest.length hlt h₁ rest (fun hx => hwrong (hx.of_went hw₁)) rfl with
          ⟨c', he', h', hw'⟩ | ⟨first', rest', c', rfl, -, href', hcon', hw', he'⟩
        · exact .inl ⟨c', he', h', hw₁.trans hw'⟩
        · refine .inr ⟨first ++ first', rest', c', by simp, by simp [hf], ?_, hcon', hw₁.trans hw', he'⟩
          rwa [← List.append_assoc]
      · refine .inr ⟨first, rest, c.copy first none, rfl, hf, href, hcon, ?_, ?_⟩
        · exact ⟨rfl, rfl, rfl, fun hx => ⟨hx, rfl⟩, [], (List.append_nil _).symm, by simp [Undisturbed]⟩
        · rw [consume_full hcon hr hl hf, Option.bind_some, he₁]

/-- Reading bytes of which none are refused. -/
theorem Reading.read (h : c.Reading allocates received) {data : Bytes} (hwrong : ¬WrongIdentity allocates c data)
    (href : ∀ first, first <+: data → first ≠ [] → ¬Refused allocates (received ++ first)) :
    ∃ c', MessageConnection.consume react allocates data c = some c' ∧ c'.Reading allocates (received ++ data) ∧
      Went c c' data := by
  rcases h.consume hreact data hwrong with hgoes | ⟨first, rest, c', rfl, hf, hx, -⟩
  · exact hgoes
  · exact absurd hx (href first (List.prefix_append _ _) hf)

end

section Flushing

variable {written : List Bytes} {d : MessageConnection}

/-- The writes of a send operation. -/
def writesOf (buffers : List Bytes) : List Bytes :=
  if (buffers.map List.length).sum ≤ maxWriteBufferSize then [buffers.flatten]
  else buffers.flatMap (chunks maxWriteBufferSize)

/-- The connection when these writes have been made. -/
def flushed (written : List Bytes) (c : MessageConnection) : MessageConnection :=
  { c with
    sendPending := []
    client := c.client.map fun client => { client with written := client.written ++ written } }

theorem foldl_write (pieces : List Bytes) (c : MessageConnection) :
    pieces.foldl (fun c piece => c.write [piece]) c = { c with
      client := c.client.map fun client => { client with written := client.written ++ pieces } } := by
  induction pieces generalizing c with
  | nil => cases hc : c.client <;> simp [← hc]
  | cons piece pieces ih =>
    rw [List.foldl_cons, ih]
    cases hc : c.client <;> simp [write, hc]

theorem processSendOperation_eq (c : MessageConnection) (buffers : List Bytes) :
    c.processSendOperation buffers = { c with
      client := c.client.map fun client => { client with written := client.written ++ writesOf buffers } } := by
  unfold processSendOperation writesOf
  dsimp only
  split
  · rfl
  · exact foldl_write _ c

theorem processSendQueue_eq (c : MessageConnection) :
    c.processSendQueue = c.flushed (c.sendPending.flatMap writesOf) := by
  have hall : ∀ (queue : List (List Bytes)) (c : MessageConnection), queue.foldl processSendOperation c = { c with
      client := c.client.map fun client => { client with written := client.written ++ queue.flatMap writesOf } } := by
    intro queue
    induction queue with
    | nil =>
      intro c
      cases hc : c.client <;> simp [← hc]
    | cons buffers queue ih =>
      intro c
      rw [List.foldl_cons, ih, processSendOperation_eq]
      cases hc : c.client <;> simp
  exact hall c.sendPending { c with sendPending := [] }

theorem receivedBytes_flushed (written : List Bytes) (c : MessageConnection) :
    (c.flushed written).receivedBytes = c.receivedBytes := by
  cases hc : c.client <;> simp [receivedBytes, flushed, hc]

theorem flushed_flushed (written more : List Bytes) (c : MessageConnection) :
    (c.flushed written).flushed more = c.flushed (written ++ more) := by
  cases hc : c.client <;> simp [flushed, hc]

/-- A message goes out behind all that waits. -/
theorem sendMessage_eq (hc : c.connected = true) (payload : Bytes) :
    c.sendMessage payload =
      c.flushed ((c.sendPending ++ [[littleEndian payload.length, payload]]).flatMap writesOf) := by
  rw [sendMessage, send]
  exact (if_pos (show connected { c with sendPending := _ } = true from hc)).trans (processSendQueue_eq _)

theorem sendMessage_queue (hc : c.connected = true) (payload : Bytes) :
    c.sendMessage payload = c.processSendQueue.sendMessage payload := by
  have hd : (c.flushed (c.sendPending.flatMap writesOf)).connected = true := hc
  rw [processSendQueue_eq, sendMessage_eq hc, sendMessage_eq hd, flushed_flushed, List.flatMap_append]
  rfl

theorem init_disconnected (h : c.init = some d) : d.connected = false := by
  unfold init sendHandshake at h
  dsimp only at h
  split at h
  · cases h
    rfl
  · cases h

theorem onRemoteDisconnect_disconnected {reason : DisconnectReason} (h : c.onRemoteDisconnect reason = some d) :
    d.connected = false := by
  unfold onRemoteDisconnect at h
  split at h
  · obtain ⟨c', he, rfl⟩ := Option.map_eq_some_iff.mp h
    exact (init_disconnected he : c'.connected = false)
  · cases h

theorem recv_connected {size : Nat} {callback : RecvCallback} (h : c.recv size callback = some d) :
    d.connected = c.connected := by
  unfold recv at h
  split at h
  · cases h
    rfl
  · cases h

theorem recv_flushed {size : Nat} {callback : RecvCallback} (h : (c.flushed written).recv size callback = some d) :
    ∃ c', c.recv size callback = some c' ∧ d = c'.flushed written ∧ c'.sendPending = c.sendPending := by
  have hrecv : (c.flushed written).recv size callback = (c.recv size callback).map (flushed written) := by
    unfold recv
    rw [apply_ite (Option.map _)]
    rfl
  rw [hrecv] at h
  obtain ⟨c', he, rfl⟩ := Option.map_eq_some_iff.mp h
  refine ⟨c', he, rfl, ?_⟩
  unfold recv at he
  split at he
  · cases he
    rfl
  · cases he

theorem tell_nothing (hreact : ∀ event, react event = .nothing) (c : MessageConnection) (event : Event) :
    c.tell react event = some (c.report event) := by
  rw [tell, hreact]

theorem onMessagePayload_flushed (hreact : ∀ event, react event = .nothing) {payload : Bytes}
    (h : (c.flushed written).onMessagePayload react payload = some d) (hd : d.connected = true) :
    ∃ c', c.onMessagePayload react payload = some c' ∧ d = c'.flushed written ∧ c'.sendPending = c.sendPending := by
  unfold onMessagePayload onRemoteIdentity at h ⊢
  simp only [tell_nothing hreact] at h ⊢
  split at h
  · next hc =>
    rw [if_pos (show c.connected = true from hc)]
    split at h
    · next he =>
      rw [if_pos (show c.established = true from he)]
      exact recv_flushed (c := c.report (.recvMessage payload)) h
    · next he =>
      rw [if_neg (show ¬c.established = true from he)]
      split at h
      · cases h
      · next hs =>
        rw [if_neg (show ¬(c.connected = false ∨ c.established = true) from hs)]
        split at h
        · obtain ⟨x, hx, hrecv⟩ := Option.bind_eq_some_iff.mp h
          rw [recv_connected hrecv, onRemoteDisconnect_disconnected hx] at hd
          cases hd
        · next hi =>
          rw [if_neg (show ¬c.remoteIdentity.any (· ≠ payload) = true from hi)]
          exact recv_flushed (c := report { c with remoteIdentity := some payload, state := .established }
            (.remoteIdentity payload)) h
  · cases h

/-- A callback that leaves the connection standing does not look at what is to be sent. -/
theorem onRecvDone_flushed (hreact : ∀ event, react event = .nothing) {payload : Bytes} {callback : RecvCallback}
    (h : (c.flushed written).onRecvDone react allocates payload callback = some d) (hd : d.connected = true) :
    ∃ c', c.onRecvDone react allocates payload callback = some c' ∧ d = c'.flushed written ∧
      c'.sendPending = c.sendPending := by
  have hcon : (c.flushed written).connected = c.connected := rfl
  cases callback with
  | magicNumber =>
    rw [onRecvDone, onMagicNumber, hcon] at h
    rw [onRecvDone, onMagicNumber]
    split at h
    · next hc =>
      rw [if_pos hc]
      split at h
      · next hm =>
        rw [if_pos hm]
        exact recv_flushed h
      · rw [onRemoteDisconnect_disconnected h] at hd
        cases hd
    · cases h
  | header =>
    rw [onRecvDone, onHeader, hcon] at h
    rw [onRecvDone, onHeader]
    split at h
    · next hc =>
      rw [if_pos hc]
      dsimp only at h ⊢
      split at h
      · rw [onRemoteDisconnect_disconnected h] at hd
        cases hd
      · next ha =>
        rw [if_neg ha]
        split at h
        · next hz =>
          rw [if_pos hz]
          exact onMessagePayload_flushed hreact h hd
        · next hz =>
          rw [if_neg hz]
          exact recv_flushed h
    · cases h
  | message => exact onMessagePayload_flushed hreact h hd

/-- What is written later does not change what is read. -/
theorem consume_flushed (hreact : ∀ event, react event = .nothing) {data : Bytes}
    (h : consume react allocates data (c.flushed written) = some d) (hd : d.connected = true) :
    ∃ c', consume react allocates data c = some c' ∧ d = c'.flushed written ∧ c'.sendPending = c.sendPending := by
  have hcopy : ∀ (c : MessageConnection) data buffer,
      (c.flushed written).copy data buffer = (c.copy data buffer).flushed written := by
    intro c data buffer
    cases hc : c.client <;> simp [copy, flushed, hc]
  induction hn : data.length using Nat.strongRecOn generalizing data c with
  | ind n ih =>
    by_cases hne : data = []
    · subst hne
      cases h
      exact ⟨c, rfl, rfl, rfl⟩
    cases hc : c.connected with
    | false =>
      have hc' : (c.flushed written).connected = false := hc
      rw [consume_disconnected hc'] at h
      cases h
      exact ⟨c, consume_disconnected hc data, rfl, rfl⟩
    | true =>
      have hc' : (c.flushed written).connected = true := hc
      rcases hr : c.recvCurrent with ⟨_ | ⟨size, copied⟩, callback⟩
      · rw [consume_idle hc' hne (by simp [flushed, hr])] at h
        cases h
      by_cases hs : copied.length < size
      · rcases split_data hs data with hd' | ⟨first, rest, rfl, hf, hl⟩
        · have hb : (c.flushed written).recvCurrent.buffer = some ⟨size, copied⟩ := by simp [flushed, hr]
          rw [consume_unfilled hc' hb hd', if_neg hne, hcopy] at h
          cases h
          exact ⟨_, consume_unfilled hc (by rw [hr]) hd', by rw [if_neg hne], by rw [if_neg hne]; rfl⟩
        · have hr' : (c.flushed written).recvCurrent = ⟨some ⟨size, copied⟩, callback⟩ := hr
          rw [consume_full hc' hr' hl hf, hcopy] at h
          obtain ⟨d₁, h₁, h₂⟩ := Option.bind_eq_some_iff.mp h
          obtain ⟨callback, rfl, h₁⟩ := Option.bind_eq_some_iff.mp h₁
          obtain ⟨c₁, he₁, rfl, hp₁⟩ := onRecvDone_flushed hreact h₁ (consume_connected h₂ hd)
          have hlt : rest.length < n := by
            have hpos : 0 < first.length := List.length_pos_iff.mpr hf
            rw [← hn, List.length_append]
            omega
          obtain ⟨c', he', hd', hp'⟩ := ih rest.length hlt h₂ rfl
          refine ⟨c', ?_, hd', hp'.trans hp₁⟩
          rw [consume_full hc hr hl hf, Option.bind_some, he₁]
          exact he'
      · have hb : ∀ buffer ∈ (c.flushed written).recvCurrent.buffer, buffer.size ≤ buffer.data.length := by
          intro buffer hm
          change buffer ∈ c.recvCurrent.buffer at hm
          rw [hr] at hm
          cases hm
          exact Nat.not_lt.mp hs
        rw [consume_idle hc' hne hb] at h
        cases h

/-- Reading bytes at the start of the stream is as good as reading them when the queue has been sent. -/
theorem connectWith_eq (hreact : ∀ event, react event = .nothing) (hc : c.connected = false) {pieces : List Bytes}
    (h : consume react allocates pieces.flatten c.starts.processSendQueue = some d) (hd : d.connected = true) :
    c.connectWith react allocates (pieces.map .data) = some d := by
  rw [processSendQueue_eq] at h
  obtain ⟨c', he, rfl, hp⟩ := consume_flushed hreact h hd
  have hc' : c'.connected = true := hd
  have hreads : (pieces.map Delivery.data).foldlM (deliver react allocates) c.starts = some c' := by
    rw [List.foldlM_map]
    exact foldlM_onRead he hc'
  rw [connectWith, if_neg (by rw [hc]; exact Bool.false_ne_true), hreads, Option.bind_eq_bind, Option.bind_some,
    if_pos hc', processSendQueue_eq, hp]

end Flushing

end MessageConnection

end Scaler.Ymq
