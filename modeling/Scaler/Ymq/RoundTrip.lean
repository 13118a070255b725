import Mathlib.Data.List.TakeDrop
import Scaler.Ymq.MessageConnection

/-! What one `MessageConnection` sends is what the other one delivers, however the bytes
are cut on the way. -/

namespace Scaler.Ymq

open Collections

/-- A message on the wire. -/
def frame (payload : Bytes) : Bytes := littleEndian payload.length ++ payload

def handshake (identity : Identity) : Bytes := magicString ++ frame identity

/-- All that a connection sends. -/
def wire (identity : Identity) (messages : List Bytes) : Bytes :=
  handshake identity ++ messages.flatMap frame

theorem flatten_chunks {n : Nat} (hn : 0 < n) (buffer : Bytes) : (chunks n buffer).flatten = buffer := by
  have htake : ∀ k, ((List.range k).map fun i => (buffer.drop (i * n)).take n).flatten =
      buffer.take (k * n) := by
    intro k
    induction k with
    | zero => simp
    | succ k ih =>
      rw [List.range_succ, List.map_append, List.flatten_append, ih, Nat.succ_mul, List.take_add]
      simp
  have hlen : buffer.length ≤ (buffer.length + n - 1) / n * n := by
    have hd := Nat.div_add_mod (buffer.length + n - 1) n
    have hm := Nat.mod_lt (buffer.length + n - 1) hn
    rw [Nat.mul_comm] at hd
    omega
  rw [chunks, htake]
  exact List.take_of_length_le hlen

theorem flatten_flatMap_chunks {n : Nat} (hn : 0 < n) (buffers : List Bytes) :
    (buffers.flatMap (chunks n)).flatten = buffers.flatten := by
  induction buffers with
  | nil => rfl
  | cons buffer buffers ih =>
    rw [List.flatMap_cons, List.flatten_append, flatten_chunks hn, ih, List.flatten_cons]

theorem prefix_append_cases {α : Type} {l a b : List α} (h : l <+: a ++ b) :
    (l.length < a.length ∧ l <+: a) ∨ ∃ rest, l = a ++ rest ∧ rest <+: b := by
  by_cases hl : l.length < a.length
  · exact .inl ⟨hl, List.prefix_of_prefix_length_le h (List.prefix_append a b) (Nat.le_of_lt hl)⟩
  · obtain ⟨rest, rfl⟩ := List.prefix_of_prefix_length_le (List.prefix_append a b) h (Nat.not_lt.mp hl)
    exact .inr ⟨rest, rfl, (List.prefix_append_right_inj a).mp h⟩

namespace MessageConnection

variable {c c' : MessageConnection} {client : Client} {react : Event → Reaction}
  {allocates : Nat → Bool}

/-- The bytes written on the attached client. -/
def sentBytes (c : MessageConnection) : Bytes := (c.client.map fun client => client.written.flatten).getD []

theorem write_spec (hc : c.client = some client) (buffers : List Bytes) :
    ∃ written, c.write buffers = { c with client := some ⟨written, client.received⟩ } ∧
      written.flatten = client.written.flatten ++ buffers.flatten :=
  ⟨client.written ++ [buffers.flatten], by simp [write, hc], by simp⟩

theorem foldl_write_spec (pieces : List Bytes) (hc : c.client = some client) :
    ∃ written, pieces.foldl (fun c piece => c.write [piece]) c =
        { c with client := some ⟨written, client.received⟩ } ∧
      written.flatten = client.written.flatten ++ pieces.flatten := by
  induction pieces generalizing c client with
  | nil => exact ⟨client.written, by rw [List.foldl_nil, ← hc], by simp⟩
  | cons piece pieces ih =>
    obtain ⟨w, he, hw⟩ := write_spec hc [piece]
    have hc' : (c.write [piece]).client = some ⟨w, client.received⟩ := by rw [he]
    obtain ⟨w', he', hw'⟩ := ih hc'
    refine ⟨w', ?_, by rw [hw', hw]; simp⟩
    rw [List.foldl_cons, he', he]

/-- A large message is cut, but what is written is the message. -/
theorem processSendOperation_spec (hc : c.client = some client) (buffers : List Bytes) :
    ∃ written, c.processSendOperation buffers = { c with client := some ⟨written, client.received⟩ } ∧
      written.flatten = client.written.flatten ++ buffers.flatten := by
  unfold processSendOperation
  dsimp only
  split
  · exact write_spec hc buffers
  · obtain ⟨w, he, hw⟩ := foldl_write_spec (buffers.flatMap (chunks maxWriteBufferSize)) hc
    refine ⟨w, he, ?_⟩
    rw [hw, flatten_flatMap_chunks (by decide)]

variable (client) in
theorem processSendQueue_spec (hc : c.client = some client) :
    ∃ written, c.processSendQueue =
        { c with client := some ⟨written, client.received⟩, sendPending := [] } ∧
      written.flatten = client.written.flatten ++ c.sendPending.flatten.flatten := by
  have hall : ∀ (queue : List (List Bytes)) (c : MessageConnection) (client : Client),
      c.client = some client → ∃ written, queue.foldl processSendOperation c =
        { c with client := some ⟨written, client.received⟩ } ∧
        written.flatten = client.written.flatten ++ queue.flatten.flatten := by
    intro queue
    induction queue with
    | nil => exact fun c client hc => ⟨client.written, by rw [List.foldl_nil, ← hc], by simp⟩
    | cons buffers queue ih =>
      intro c client hc
      obtain ⟨w, he, hw⟩ := processSendOperation_spec hc buffers
      obtain ⟨w', he', hw'⟩ := ih (c.processSendOperation buffers) ⟨w, client.received⟩ (by rw [he])
      refine ⟨w', ?_, by rw [hw', hw]; simp⟩
      rw [List.foldl_cons, he', he]
  exact hall c.sendPending { c with sendPending := [] } client hc

/-- The connection that the constructor makes. -/
def fresh (localIdentity : Identity) (remoteIdentity : Option Identity) : MessageConnection :=
  { state := .disconnected
    localIdentity := localIdentity
    remoteIdentity := remoteIdentity
    client := none
    sendPending := [[magicString], [littleEndian localIdentity.length, localIdentity]]
    recvCurrent := ⟨some ⟨magicString.length, []⟩, some .magicNumber⟩
    events := [] }

theorem new_eq (localIdentity : Identity) (remoteIdentity : Option Identity) :
    new localIdentity remoteIdentity = some (fresh localIdentity remoteIdentity) := rfl

theorem sendMessage_pending (hc : c.connected = false) (payload : Bytes) :
    c.sendMessage payload =
      { c with sendPending := c.sendPending ++ [[littleEndian payload.length, payload]] } := by
  rw [sendMessage, send]
  exact if_neg (by simpa [connected] using hc)

/-- The send operations of some messages. -/
def operations (messages : List Bytes) : List (List Bytes) :=
  messages.map fun payload => [littleEndian payload.length, payload]

theorem flatten_operations (messages : List Bytes) :
    (operations messages).flatten.flatten = messages.flatMap frame := by
  induction messages with
  | nil => rfl
  | cons payload messages ih =>
    rw [operations, List.map_cons, List.flatten_cons, List.flatten_append, List.flatMap_cons]
    rw [operations] at ih
    rw [ih]
    simp [frame]

theorem foldl_sendMessage_pending (hc : c.connected = false) (messages : List Bytes) :
    messages.foldl sendMessage c = { c with sendPending := c.sendPending ++ operations messages } := by
  induction messages generalizing c with
  | nil => simp [operations]
  | cons payload messages ih =>
    rw [List.foldl_cons, sendMessage_pending hc, ih (by simpa [connected] using hc)]
    simp [operations]

theorem sendMessage_spec (hc : c.client = some client) (hs : c.connected = true)
    (hp : c.sendPending = []) (payload : Bytes) :
    ∃ written, c.sendMessage payload = { c with client := some ⟨written, client.received⟩ } ∧
      written.flatten = client.written.flatten ++ frame payload := by
  obtain ⟨w, he, hw⟩ := processSendQueue_spec client
    (c := { c with sendPending := [[littleEndian payload.length, payload]] }) hc
  refine ⟨w, ?_, by rw [hw]; simp [frame]⟩
  rw [sendMessage, send, hp, List.nil_append, if_pos (by simpa [connected] using hs), he, ← hp]

variable (client) in
theorem foldl_sendMessage_spec (hc : c.client = some client) (hs : c.connected = true)
    (hp : c.sendPending = []) (messages : List Bytes) :
    ∃ written, messages.foldl sendMessage c = { c with client := some ⟨written, client.received⟩ } ∧
      written.flatten = client.written.flatten ++ messages.flatMap frame := by
  induction messages generalizing c client with
  | nil => exact ⟨client.written, by rw [List.foldl_nil, ← hc], by simp⟩
  | cons payload messages ih =>
    obtain ⟨w, he, hw⟩ := sendMessage_spec hc hs hp payload
    have hc' : (c.sendMessage payload).client = some ⟨w, client.received⟩ := by rw [he]
    obtain ⟨w', he', hw'⟩ := ih _ hc' (by rw [he]; simpa [connected] using hs) (by rw [he]; exact hp)
    refine ⟨w', ?_, by rw [hw', hw]; simp⟩
    rw [List.foldl_cons, he', he]

/-- A connection sends its handshake and then its messages, whether they were there
before it was connected or not. -/
theorem sentBytes_eq (localIdentity : Identity) (remoteIdentity : Option Identity)
    (before after : List Bytes) :
    ∃ c, (before.foldl sendMessage (fresh localIdentity remoteIdentity)).connect = some c ∧
      (after.foldl sendMessage c).sentBytes = wire localIdentity (before ++ after) := by
  obtain ⟨w, he, hw⟩ := processSendQueue_spec ⟨[], []⟩
    (c := starts { fresh localIdentity remoteIdentity with
      sendPending := (fresh localIdentity remoteIdentity).sendPending ++ operations before }) rfl
  rw [foldl_sendMessage_pending rfl]
  refine ⟨_, rfl, ?_⟩
  obtain ⟨w', he', hw'⟩ := foldl_sendMessage_spec ⟨w, []⟩
    (c := processSendQueue (starts { fresh localIdentity remoteIdentity with
      sendPending := (fresh localIdentity remoteIdentity).sendPending ++ operations before }))
    (by rw [he]) (by rw [he]; rfl) (by rw [he]) after
  dsimp only at he'
  rw [he', sentBytes, Option.map_some, Option.getD_some, hw', hw]
  simp [starts, fresh, wire, handshake, frame, flatten_operations]

/-- Rounds beyond the length of the data change nothing. -/
theorem readLoop_fuel {n k : Nat} {data : Bytes} (hn : data.length ≤ n) (hk : data.length ≤ k) :
    readLoop react allocates n data c = readLoop react allocates k data c := by
  induction n generalizing k data c with
  | zero =>
    obtain rfl := List.length_eq_zero_iff.mp (Nat.le_zero.mp hn)
    cases k <;> simp [readLoop]
  | succ n ih =>
    cases k with
    | zero =>
      obtain rfl := List.length_eq_zero_iff.mp (Nat.le_zero.mp hk)
      simp [readLoop]
    | succ k =>
      rw [readLoop, readLoop]
      by_cases hd : data = [] ∨ c.connected = false
      · rw [if_pos hd, if_pos hd]
      · rw [if_neg hd, if_neg hd]
        cases c.recvCurrent.buffer with
        | none => rfl
        | some buffer =>
          have hpos : 0 < data.length := List.length_pos_iff.mpr fun he => hd (.inl he)
          dsimp only
          split
          · next hl =>
            have hn' : (data.drop (min (buffer.size - buffer.data.length) data.length)).length ≤ n := by
              rw [List.length_drop]
              omega
            have hk' : (data.drop (min (buffer.size - buffer.data.length) data.length)).length ≤ k := by
              rw [List.length_drop]
              omega
            simp only [fun c => ih (c := c) hn' hk']
          · rfl

/-- The reading of bytes, in whatever chunks they come. -/
def consume (react : Event → Reaction) (allocates : Nat → Bool) (data : Bytes)
    (c : MessageConnection) : Option MessageConnection := readLoop react allocates data.length data c

@[simp] theorem consume_nil : consume react allocates [] c = some c := rfl

theorem consume_disconnected (hc : c.connected = false) (data : Bytes) :
    consume react allocates data c = some c := by
  cases data with
  | nil => rfl
  | cons byte data =>
    rw [consume, List.length_cons, readLoop, if_pos (.inr hc)]

theorem consume_unfilled {size : Nat} {copied data : Bytes} (hc : c.connected = true)
    (hb : c.recvCurrent.buffer = some ⟨size, copied⟩) (hd : copied.length + data.length < size) :
    consume react allocates data c =
      some (if data = [] then c else c.copy data (some ⟨size, copied ++ data⟩)) := by
  cases data with
  | nil => rfl
  | cons byte data =>
    simp only [List.length_cons] at hd
    have hmin : min (size - copied.length) (byte :: data).length = (byte :: data).length := by
      simp only [List.length_cons]
      omega
    have hne : (copied ++ byte :: data).length ≠ size := by
      simp only [List.length_append, List.length_cons]
      omega
    rw [consume, List.length_cons, readLoop, if_neg (by simp [hc]), hb]
    dsimp only
    rw [if_pos (by omega), hmin, List.take_length, List.drop_length, if_neg hne,
      readLoop_fuel (k := 0) (by simp) (by simp)]
    rfl

theorem consume_full {size : Nat} {copied data rest : Bytes} {callback : Option RecvCallback}
    (hc : c.connected = true) (hr : c.recvCurrent = ⟨some ⟨size, copied⟩, callback⟩)
    (hd : copied.length + data.length = size) (hne : data ≠ []) :
    consume react allocates (data ++ rest) c =
      (callback.bind ((c.copy data none).onRecvDone react allocates (copied ++ data))).bind
        (consume react allocates rest) := by
  have hpos : 0 < data.length := List.length_pos_iff.mpr hne
  have hlen : (data ++ rest).length = (data ++ rest).length - 1 + 1 := by
    rw [List.length_append]
    omega
  have hmin : min (size - copied.length) (data ++ rest).length = data.length := by
    rw [List.length_append]
    omega
  rw [consume, hlen, readLoop, if_neg (by simp [hc, hne]), hr]
  dsimp only
  rw [if_pos (by omega), hmin, List.take_left, List.drop_left, if_pos (by simpa using hd)]
  cases callback with
  | none => rfl
  | some callback =>
    simp only [Option.bind_eq_bind, Option.bind_some]
    congr 1
    funext c'
    exact readLoop_fuel (by rw [List.length_append]; omega) (Nat.le_refl _)

/-- No receive is in progress: the assertion of the loop fails. -/
theorem consume_idle {data : Bytes} (hc : c.connected = true) (hne : data ≠ [])
    (hb : ∀ buffer ∈ c.recvCurrent.buffer, buffer.size ≤ buffer.data.length) :
    consume react allocates data c = none := by
  have hlen : data.length = data.length - 1 + 1 := by
    have hpos : 0 < data.length := List.length_pos_iff.mpr hne
    omega
  rw [consume, hlen, readLoop, if_neg (by simp [hc, hne])]
  cases hr : c.recvCurrent.buffer with
  | none => rfl
  | some buffer =>
    dsimp only
    rw [if_neg (Nat.not_lt.mpr (hb buffer hr))]

@[simp] theorem connected_copy (data : Bytes) (buffer : Option RecvBuffer) :
    (c.copy data buffer).connected = c.connected := rfl

theorem copy_copy (data data' : Bytes) (buffer buffer' : Option RecvBuffer) :
    (c.copy data buffer).copy data' buffer' = c.copy (data ++ data') buffer' := by
  cases hc : c.client <;> simp [copy, hc]

/-- What is left of the current buffer after some data, or the data that fills it. -/
theorem split_data {size : Nat} {copied : Bytes} (hs : copied.length < size) (data : Bytes) :
    copied.length + data.length < size ∨ ∃ first rest, data = first ++ rest ∧ first ≠ [] ∧
      copied.length + first.length = size := by
  by_cases hd : copied.length + data.length < size
  · exact .inl hd
  · have hl : (data.take (size - copied.length)).length = size - copied.length :=
      List.length_take_of_le (by omega)
    refine .inr ⟨data.take (size - copied.length), data.drop (size - copied.length),
      (List.take_append_drop _ _).symm, ?_, by omega⟩
    rw [← List.length_pos_iff, hl]
    omega

/-- It does not matter how the bytes are cut. -/
theorem consume_append (data rest : Bytes) :
    consume react allocates (data ++ rest) c =
      (consume react allocates data c).bind (consume react allocates rest) := by
  induction hn : data.length using Nat.strongRecOn generalizing data c with
  | ind n ih =>
    by_cases hne : data = []
    · subst hne
      rfl
    cases hc : c.connected with
    | false =>
      rw [consume_disconnected hc, consume_disconnected hc]
      exact (consume_disconnected hc rest).symm
    | true =>
      rcases hr : c.recvCurrent with ⟨_ | ⟨size, copied⟩, callback⟩
      · rw [consume_idle hc (by simp [hne]) (by simp [hr]), consume_idle hc hne (by simp [hr])]
        rfl
      · by_cases hs : copied.length < size
        · rcases split_data hs data with hd | ⟨first, more, rfl, hf, hl⟩
          · -- the data is not enough, and the rest goes into the same buffer
            rw [consume_unfilled hc (by rw [hr]) hd, if_neg hne, Option.bind_some]
            have hc' : (c.copy data (some ⟨size, copied ++ data⟩)).connected = true := hc
            have hb' : (c.copy data (some ⟨size, copied ++ data⟩)).recvCurrent =
                ⟨some ⟨size, copied ++ data⟩, callback⟩ := by rw [copy, hr]
            have hs' : (copied ++ data).length < size := by simpa using hd
            rcases split_data hs' rest with
              hd' | ⟨first, more, rfl, hf, hl⟩
            · rw [consume_unfilled hc (by rw [hr]) (by simp at hd' ⊢; omega),
                consume_unfilled hc' (by rw [hb']) hd', if_neg (by simp [hne])]
              by_cases hrest : rest = []
              · simp [hrest]
              · rw [if_neg hrest, copy_copy, List.append_assoc]
            · rw [← List.append_assoc,
                consume_full hc hr (by simp at hl ⊢; omega) (by simp [hne]),
                consume_full hc' hb' hl hf, copy_copy, List.append_assoc]
          · have hlt : more.length < n := by
              have hpos : 0 < first.length := List.length_pos_iff.mpr hf
              rw [← hn, List.length_append]
              omega
            rw [List.append_assoc, consume_full hc hr hl hf, consume_full hc hr hl hf]
            cases callback.bind
                ((c.copy first none).onRecvDone react allocates (copied ++ first)) with
            | none => rfl
            | some c' => exact ih more.length hlt more rfl
        · have hb : ∀ buffer ∈ c.recvCurrent.buffer, buffer.size ≤ buffer.data.length := by
            intro buffer hm
            rw [hr] at hm
            cases hm
            exact Nat.not_lt.mp hs
          rw [consume_idle hc (by simp [hne]) hb, consume_idle hc hne hb]
          rfl

theorem consume_connected {data : Bytes} (h : consume react allocates data c = some c')
    (hc : c'.connected = true) : c.connected = true := by
  cases hd : c.connected with
  | true => rfl
  | false =>
    rw [consume_disconnected hd] at h
    cases h
    rw [hd] at hc
    cases hc

theorem foldlM_onRead {pieces : List Bytes} (h : consume react allocates pieces.flatten c = some c')
    (hc : c'.connected = true) :
    pieces.foldlM (fun c data => c.onRead react allocates data) c = some c' := by
  induction pieces generalizing c with
  | nil => exact h
  | cons data pieces ih =>
    have hs := consume_connected h hc
    rw [List.flatten_cons, consume_append] at h
    obtain ⟨c₁, h₁, h₂⟩ := Option.bind_eq_some_iff.mp h
    rw [List.foldlM_cons, onRead, if_pos hs]
    rw [show readLoop react allocates data.length data c = some c₁ from h₁]
    exact ih h₂

/-- The connection waits for the bytes of a receive operation, of which none have come. -/
structure Awaits (state : ConnectionState) (size : Nat) (callback : RecvCallback)
    (c : MessageConnection) : Prop where
  state : c.state = state
  recv : c.recvCurrent = ⟨some ⟨size, []⟩, some callback⟩

namespace Awaits

variable {state : ConnectionState} {size : Nat} {callback : RecvCallback}

theorem consume_full (h : Awaits state size callback c) (hs : state ≠ .disconnected)
    {data : Bytes} (hd : data.length = size) (hpos : 0 < size) (rest : Bytes) :
    consume react allocates (data ++ rest) c =
      ((c.copy data none).onRecvDone react allocates data callback).bind
        (consume react allocates rest) := by
  have hc : c.connected = true := by
    cases state <;> simp_all [connected, h.state]
  refine MessageConnection.consume_full hc h.recv (by simpa using hd) ?_
  rw [← List.length_pos_iff]
  omega

variable (react) (allocates) in
theorem consume_unfilled (h : Awaits state size callback c) (hs : state ≠ .disconnected)
    {data : Bytes} (hd : data.length < size) :
    ∃ c', consume react allocates data c = some c' ∧ c'.state = state ∧ c'.events = c.events := by
  have hc : c.connected = true := by
    cases state <;> simp_all [connected, h.state]
  refine ⟨_, MessageConnection.consume_unfilled hc (by rw [h.recv]) (by simpa using hd), ?_, ?_⟩
  · split <;> simp [copy, h.state]
  · split <;> simp [copy]

end Awaits

section

variable {state : ConnectionState} {payload : Bytes}

/-- The connection after a header that announces a payload. -/
def announced (c : MessageConnection) (size : Nat) : MessageConnection :=
  { c.copy (littleEndian size) none with recvCurrent := ⟨some ⟨size, []⟩, some .message⟩ }

theorem consume_header (h : Awaits state headerSize .header c) (hs : state ≠ .disconnected)
    {size : Nat} (hn : size < 2 ^ 64) (ha : allocates size = true) (rest : Bytes) :
    consume react allocates (littleEndian size ++ rest) c =
      if size = 0 then ((c.copy (littleEndian size) none).onMessagePayload react []).bind
        (consume react allocates rest)
      else consume react allocates rest (c.announced size) := by
  have hc : c.connected = true := by
    cases state <;> simp_all [connected, h.state]
  have hr : (c.copy (littleEndian size) none).recvCurrent = ⟨none, some .header⟩ := by
    rw [copy, h.recv]
  have hbuffer : (c.copy (littleEndian size) none).recvCurrent.buffer.all
      (fun buffer => buffer.data.length = buffer.size) = true := by
    rw [hr]
    rfl
  rw [h.consume_full hs (length_littleEndian _) (by decide), onRecvDone, onHeader,
    if_pos (by simpa using hc)]
  dsimp only
  rw [ofLittleEndian_littleEndian hn, if_neg (by rw [ha]; decide)]
  split
  · rfl
  · rw [recv, if_pos hbuffer]
    rfl

variable (react) in
theorem consume_frame (h : Awaits state headerSize .header c) (hs : state ≠ .disconnected)
    (hn : payload.length < 2 ^ 64) (ha : allocates payload.length = true) :
    ∃ callback, ∀ rest, consume react allocates (frame payload ++ rest) c =
      (({ c.copy (frame payload) none with recvCurrent := ⟨none, callback⟩ }).onMessagePayload react
        payload).bind (consume react allocates rest) := by
  by_cases hz : payload.length = 0
  · obtain rfl := List.length_eq_zero_iff.mp hz
    refine ⟨some .header, fun rest => ?_⟩
    have hr : ⟨none, some .header⟩ = (c.copy (frame []) none).recvCurrent := by
      rw [copy, h.recv]
    rw [frame, List.append_assoc, consume_header h hs hn ha, if_pos hz, hr]
    rfl
  · refine ⟨some .message, fun rest => ?_⟩
    have hw : Awaits state payload.length .message (c.announced payload.length) := ⟨h.state, rfl⟩
    have hcopy : (c.announced payload.length).copy payload none =
        { c.copy (frame payload) none with recvCurrent := ⟨none, some .message⟩ } := by
      cases hcl : c.client <;> simp [announced, copy, hcl, frame]
    rw [frame, List.append_assoc, consume_header h hs hn ha, if_neg hz,
      hw.consume_full hs rfl (Nat.pos_of_ne_zero hz), hcopy]
    rfl

variable (react) in
/-- A message that is not there in full is not delivered. -/
theorem consume_frame_prefix (h : Awaits state headerSize .header c) (hs : state ≠ .disconnected)
    (hn : payload.length < 2 ^ 64) (ha : allocates payload.length = true) {data : Bytes}
    (hp : data <+: frame payload) (hl : data.length < (frame payload).length) :
    ∃ c', consume react allocates data c = some c' ∧ c'.state = state ∧ c'.events = c.events := by
  rcases prefix_append_cases hp with ⟨hl, -⟩ | ⟨rest, rfl, -⟩
  · exact h.consume_unfilled react allocates hs (by simpa [headerSize] using hl)
  · simp only [frame, List.length_append] at hl
    have hw : Awaits state payload.length .message (c.announced payload.length) := ⟨h.state, rfl⟩
    obtain ⟨c', he, hst, hev⟩ := hw.consume_unfilled react allocates hs (by omega : rest.length < payload.length)
    refine ⟨c', ?_, hst, hev⟩
    rw [consume_header h hs hn ha, if_neg (by omega)]
    exact he

end

section

variable {payload : Bytes} (hreact : ∀ event, react event = .nothing)

include hreact

theorem onMessagePayload_established {callback : Option RecvCallback} (hs : c.state = .established)
    (hr : c.recvCurrent = ⟨none, callback⟩) (payload : Bytes) :
    c.onMessagePayload react payload = some
      { c.report (.recvMessage payload) with recvCurrent := ⟨some ⟨headerSize, []⟩, some .header⟩ } := by
  simp [onMessagePayload, connected, established, hs, tell, hreact, recvMessage, recv, report, hr]

theorem onMessagePayload_identity {callback : Option RecvCallback} (hs : c.state = .connected)
    (hr : c.recvCurrent = ⟨none, callback⟩) (hi : ∀ identity ∈ c.remoteIdentity, identity = payload) :
    c.onMessagePayload react payload = some
      { c.report (.remoteIdentity payload) with
        remoteIdentity := some payload
        state := .established
        recvCurrent := ⟨some ⟨headerSize, []⟩, some .header⟩ } := by
  have hany : ¬c.remoteIdentity.any (· ≠ payload) = true := by
    cases hid : c.remoteIdentity with
    | none => exact Bool.false_ne_true
    | some identity => simpa using hi identity hid
  have hid : c.onRemoteIdentity react payload = some
      { c.report (.remoteIdentity payload) with
        remoteIdentity := some payload
        state := .established } := by
    rw [onRemoteIdentity, if_neg (by simp [connected, established, hs]), if_neg hany]
    simp [tell, hreact, report]
  simp [onMessagePayload, connected, established, hs, hid, recvMessage, recv, report, hr]

theorem consume_message (h : Awaits .established headerSize .header c)
    (hn : payload.length < 2 ^ 64) (ha : allocates payload.length = true) :
    ∃ c', (∀ rest, consume react allocates (frame payload ++ rest) c = consume react allocates rest c') ∧
      Awaits .established headerSize .header c' ∧ c'.events = c.events ++ [Event.recvMessage payload] ∧
      c'.sendPending = c.sendPending := by
  obtain ⟨callback, he⟩ := consume_frame react h ConnectionState.noConfusion hn ha
  have hm := onMessagePayload_established hreact
    (c := { c.copy (frame payload) none with recvCurrent := ⟨none, callback⟩ }) h.state rfl payload
  obtain ⟨c', hm', hs', hr', he'⟩ : ∃ c', _ = some c' ∧ c'.state = .established ∧
    c'.recvCurrent = ⟨some ⟨headerSize, []⟩, some .header⟩ ∧
    c'.events = c.events ++ [Event.recvMessage payload] ∧ c'.sendPending = c.sendPending :=
      ⟨_, hm, h.state, rfl, rfl, rfl⟩
  refine ⟨c', fun rest => ?_, ⟨hs', hr'⟩, he'⟩
  rw [he, hm']
  rfl

theorem consume_identity (h : Awaits .connected headerSize .header c)
    (hn : payload.length < 2 ^ 64) (ha : allocates payload.length = true)
    (hi : ∀ identity ∈ c.remoteIdentity, identity = payload) :
    ∃ c', (∀ rest, consume react allocates (frame payload ++ rest) c = consume react allocates rest c') ∧
      Awaits .established headerSize .header c' ∧ c'.events = c.events ++ [Event.remoteIdentity payload] ∧
      c'.sendPending = c.sendPending := by
  obtain ⟨callback, he⟩ := consume_frame react h ConnectionState.noConfusion hn ha
  have hm := onMessagePayload_identity hreact
    (c := { c.copy (frame payload) none with recvCurrent := ⟨none, callback⟩ }) h.state rfl hi
  obtain ⟨c', hm', hs', hr', he'⟩ : ∃ c', _ = some c' ∧ c'.state = .established ∧
    c'.recvCurrent = ⟨some ⟨headerSize, []⟩, some .header⟩ ∧
    c'.events = c.events ++ [Event.remoteIdentity payload] ∧ c'.sendPending = c.sendPending :=
      ⟨_, hm, rfl, rfl, rfl, rfl⟩
  refine ⟨c', fun rest => ?_, ⟨hs', hr'⟩, he'⟩
  rw [he, hm']
  rfl

end

variable (react) (allocates) in
theorem consume_magic (h : Awaits .connected magicString.length .magicNumber c) :
    ∃ c', (∀ rest, consume react allocates (magicString ++ rest) c = consume react allocates rest c') ∧
      Awaits .connected headerSize .header c' ∧ c'.events = c.events ∧
      c'.remoteIdentity = c.remoteIdentity ∧ c'.sendPending = c.sendPending := by
  have hm : (c.copy magicString none).onMagicNumber magicString = some
      { c.copy magicString none with recvCurrent := ⟨some ⟨headerSize, []⟩, some .header⟩ } := by
    simp [onMagicNumber, connected, copy, h.state, h.recv, recvMessage, recv]
  refine ⟨{ c.copy magicString none with recvCurrent := ⟨some ⟨headerSize, []⟩, some .header⟩ },
    fun rest => ?_, ⟨h.state, rfl⟩, rfl, rfl, rfl⟩
  rw [h.consume_full ConnectionState.noConfusion rfl (by decide), onRecvDone, hm]
  rfl

/-- The messages that are complete in a prefix of what was sent are the ones delivered. -/
theorem consume_messages (hreact : ∀ event, react event = .nothing) {messages : List Bytes}
    (hm : ∀ payload ∈ messages, payload.length < 2 ^ 64 ∧ allocates payload.length = true)
    (h : Awaits .established headerSize .header c) {data : Bytes}
    (hd : data <+: messages.flatMap frame) :
    ∃ c' k, consume react allocates data c = some c' ∧ c'.state = .established ∧
      c'.events = c.events ++ (messages.take k).map .recvMessage ∧ k ≤ messages.length ∧
      (messages.take k).flatMap frame <+: data ∧
      (k < messages.length → data.length < ((messages.take (k + 1)).flatMap frame).length) := by
  induction messages generalizing c data with
  | nil =>
    obtain rfl := List.prefix_nil.mp hd
    exact ⟨c, 0, rfl, h.state, by simp, Nat.le_refl _, by simp, by simp⟩
  | cons payload messages ih =>
    obtain ⟨hn, ha⟩ := hm payload List.mem_cons_self
    rcases prefix_append_cases hd with ⟨hl, hp⟩ | ⟨rest, rfl, hrest⟩
    · obtain ⟨c', he, hs, hev⟩ := consume_frame_prefix react h ConnectionState.noConfusion
        hn ha hp hl
      exact ⟨c', 0, he, hs, by simpa using hev, Nat.zero_le _, by simp, by simpa using hl⟩
    · obtain ⟨c₁, he₁, h₁, hev₁, -⟩ := consume_message hreact h hn ha
      obtain ⟨c', k, he, hs, hev, hk, hp, hl⟩ :=
        ih (fun payload hp => hm payload (List.mem_cons_of_mem _ hp)) h₁ hrest
      refine ⟨c', k + 1, (he₁ rest).trans he, hs, ?_, by simpa using hk, ?_, fun hlt => ?_⟩
      · rw [hev, hev₁]
        simp
      · simpa using hp
      · have := hl (by simpa using hlt)
        simp only [List.take_succ_cons, List.flatMap_cons, List.length_append]
        omega

/-- What a connection delivers of a prefix of the bytes that another one sent. -/
def Delivers (identity : Identity) (messages : List Bytes) (data : Bytes) (events : List Event) : Prop :=
  (data.length < (handshake identity).length ∧ events = []) ∨
  ∃ k ≤ messages.length, events = .remoteIdentity identity :: (messages.take k).map .recvMessage ∧
    wire identity (messages.take k) <+: data ∧
    (k < messages.length → data.length < (wire identity (messages.take (k + 1))).length)

variable (react) in
theorem consume_wire (hreact : ∀ event, react event = .nothing) {identity : Identity}
    {messages : List Bytes}
    (hm : ∀ payload ∈ identity :: messages,
      payload.length < 2 ^ 64 ∧ allocates payload.length = true)
    (h : Awaits .connected magicString.length .magicNumber c)
    (hi : ∀ known ∈ c.remoteIdentity, known = identity) {data : Bytes}
    (hd : data <+: wire identity messages) :
    ∃ c' events, consume react allocates data c = some c' ∧ c'.connected = true ∧
      c'.events = c.events ++ events ∧ Delivers identity messages data events := by
  obtain ⟨hn, ha⟩ := hm identity List.mem_cons_self
  obtain ⟨c₁, he₁, h₁, hev₁, hr₁, -⟩ := consume_magic react allocates h
  rw [← hr₁] at hi
  rw [wire, handshake, List.append_assoc] at hd
  rcases prefix_append_cases hd with ⟨hl, -⟩ | ⟨data, rfl, hd'⟩
  · obtain ⟨c', he, hs, hev⟩ := h.consume_unfilled react allocates ConnectionState.noConfusion hl
    refine ⟨c', [], he, by simp [connected, hs], by simpa using hev, .inl ⟨?_, rfl⟩⟩
    rw [handshake, List.length_append]
    omega
  · rw [he₁]
    rcases prefix_append_cases hd' with ⟨hl, hp⟩ | ⟨data, rfl, hd''⟩
    · obtain ⟨c', he, hs, hev⟩ := consume_frame_prefix react h₁ ConnectionState.noConfusion
        hn ha hp hl
      refine ⟨c', [], he, by simp [connected, hs], by simpa [hev₁] using hev, .inl ⟨?_, rfl⟩⟩
      rw [handshake, List.length_append, List.length_append]
      omega
    · obtain ⟨c₂, he₂, h₂, hev₂, -⟩ := consume_identity hreact h₁ hn ha hi
      obtain ⟨c', k, he, hs, hev, hk, hp, hl⟩ := consume_messages hreact
        (fun payload hp => hm payload (List.mem_cons_of_mem _ hp)) h₂ hd''
      refine ⟨c', _ :: _, (he₂ data).trans he, by simp [connected, hs], ?_, .inr ⟨k, hk, rfl, ?_, ?_⟩⟩
      · rw [hev, hev₂, hev₁]
        simp
      · rw [wire, handshake, List.append_assoc]
        simpa using hp
      · intro hlt
        have := hl hlt
        simp only [wire, handshake, List.length_append] at this ⊢
        omega

theorem Delivers.all {identity : Identity} {messages : List Bytes} {events : List Event}
    (h : Delivers identity messages (wire identity messages) events) :
    events = .remoteIdentity identity :: messages.map .recvMessage := by
  rcases h with ⟨hl, -⟩ | ⟨k, hk, rfl, -, hl⟩
  · rw [wire, List.length_append] at hl
    omega
  · have hlen : ((messages.take (k + 1)).flatMap frame).length ≤ (messages.flatMap frame).length := by
      conv_rhs => rw [← List.take_append_drop (k + 1) messages, List.flatMap_append, List.length_append]
      omega
    simp only [wire, List.length_append] at hl
    rw [List.take_of_length_le (by omega)]

theorem connect_fresh (localIdentity : Identity) (remoteIdentity : Option Identity) :
    ∃ c, (fresh localIdentity remoteIdentity).connect = some c ∧
      Awaits .connected magicString.length .magicNumber c ∧ c.remoteIdentity = remoteIdentity ∧
      c.events = [] ∧ c.sendPending = [] := by
  obtain ⟨w, he, -⟩ := processSendQueue_spec ⟨[], []⟩
    (c := (fresh localIdentity remoteIdentity).starts) rfl
  refine ⟨_, rfl, ?_⟩
  dsimp only at he
  rw [he]
  exact ⟨⟨rfl, rfl⟩, rfl, rfl, rfl⟩

end MessageConnection

open MessageConnection

/-- Whatever one connection sends, before and after it is connected, the other one delivers
behind the identity, for every way of cutting the bytes; of a prefix of the bytes it
delivers the messages that are complete. -/
theorem messages_round_trip (allocates : Nat → Bool) (identity other : Identity)
    (expected known : Option Identity) (before after : List Bytes)
    (hm : ∀ payload ∈ identity :: (before ++ after),
      payload.length < 2 ^ 64 ∧ allocates payload.length = true)
    (hk : ∀ remote ∈ known, remote = identity) :
    ∃ sender receiver,
      (do (before.foldl sendMessage (← new identity expected)).connect) = some sender ∧
      (do (← new other known).connect) = some receiver ∧
      (∀ pieces : List Bytes, pieces.flatten = (after.foldl sendMessage sender).sentBytes →
        ∃ c, pieces.foldlM (fun c data => c.onRead (fun _ => .nothing) allocates data) receiver = some c ∧
          c.events = .remoteIdentity identity :: (before ++ after).map .recvMessage) ∧
      ∀ pieces : List Bytes, pieces.flatten <+: (after.foldl sendMessage sender).sentBytes →
        ∃ c, pieces.foldlM (fun c data => c.onRead (fun _ => .nothing) allocates data) receiver = some c ∧
          Delivers identity (before ++ after) pieces.flatten c.events := by
  obtain ⟨sender, hs, hsent⟩ := sentBytes_eq identity expected before after
  obtain ⟨receiver, hr, haw, hid, hev, -⟩ := connect_fresh other known
  have hread : ∀ pieces : List Bytes, pieces.flatten <+: wire identity (before ++ after) →
      ∃ c, pieces.foldlM (fun c data => c.onRead (fun _ => .nothing) allocates data) receiver = some c ∧
        Delivers identity (before ++ after) pieces.flatten c.events := by
    intro pieces hp
    obtain ⟨c, events, he, hc, hev', hd⟩ :=
      consume_wire (fun _ => .nothing) (fun _ => rfl) hm haw (hid ▸ hk) hp
    refine ⟨c, foldlM_onRead he hc, ?_⟩
    rw [hev', hev]
    exact hd
  refine ⟨sender, receiver, hs, hr, ?_, ?_⟩
  · intro pieces hp
    rw [hsent] at hp
    obtain ⟨c, he, hd⟩ := hread pieces (hp ▸ List.prefix_refl _)
    rw [hp] at hd
    exact ⟨c, he, hd.all⟩
  · intro pieces hp
    rw [hsent] at hp
    exact hread pieces hp

/-- An empty message and one of two bytes, read byte by byte. -/
theorem messages_round_trip_two :
    ∃ sender receiver c,
      (do (sendMessage (← new [7] none) []).connect) = some sender ∧
      (do (← new [8] none).connect) = some receiver ∧
      ((sender.sendMessage [2, 3]).sentBytes.map fun byte => [byte]).foldlM
        (fun c data => c.onRead (fun _ => .nothing) (fun n => n < 1024) data) receiver = some c ∧
      c.events = [.remoteIdentity [7], .recvMessage [], .recvMessage [2, 3]] := by
  obtain ⟨sender, receiver, hs, hr, h, -⟩ := messages_round_trip (fun n => n < 1024) [7] [8] none none
    [[]] [[2, 3]] (by decide) (by simp)
  obtain ⟨c, hc, he⟩ := h ((sender.sendMessage [2, 3]).sentBytes.map fun byte => [byte])
    (by simp [← List.flatMap_def])
  exact ⟨sender, receiver, c, hs, hr, hc, he⟩

end Scaler.Ymq
