import Mathlib.Data.List.Perm.Basic
import Scaler.Ymq.Receiving

/-! The callbacks of `MessageConnection::sendMessage`. An operation takes its callback from the
pending queue into a write, and a write that is refused at call time drops the callback it was
given. -/

namespace Scaler.Ymq

open Collections

/-- How a write that was accepted ends. -/
inductive WriteResult where
  | success
  | connectionError
  | canceled
  deriving DecidableEq, Repr

inductive SendResult where
  | sent
  | socketStopRequested
  deriving DecidableEq, Repr

/-- `onSendDone` is the number of the message whose callback it invokes; the handshake is
reported to nobody. -/
structure SendOperation where
  buffers : List Bytes
  onSendDone : Option Nat
  deriving DecidableEq, Repr

/-- A call of `write()`, the message it is made for, and whether it was accepted or returned
`UV_ENOTCONN`. -/
structure WriteCall where
  buffers : List Bytes
  message : Option Nat
  accepted : Bool
  deriving DecidableEq, Repr

/-- The sending side of a `MessageConnection`. Messages are numbered by their `sendMessage`
calls, `outstanding` are the callbacks of the accepted writes that are not done yet, and `invoked`
are the callbacks of messages that were invoked. -/
structure MessageSender where
  connected : Bool
  localIdentity : Identity
  sendPending : List SendOperation
  outstanding : List (Option Nat)
  writes : List WriteCall
  messages : Nat
  invoked : List (Nat × SendResult)
  destroyed : Bool
  deriving DecidableEq, Repr

/-- `disconnect` stands for `disconnect()`, `abort()` and a disconnect by the remote end. -/
inductive SendEvent where
  | sendMessage (payload : Bytes)
  | connect
  | disconnect
  | writeDone (index : Nat) (result : WriteResult)
  | destroy
  deriving DecidableEq, Repr

namespace MessageSender

variable (accepts : Nat → Bool) (c : MessageSender)

/-- A call of `write()`, the answer of which `accepts` gives. -/
def write (buffers : List Bytes) (message callback : Option Nat) : MessageSender × Bool :=
  let accepted := accepts c.writes.length
  ({ c with
    outstanding := if accepted then c.outstanding ++ [callback] else c.outstanding
    writes := c.writes ++ [⟨buffers, message, accepted⟩] }, accepted)

/-- The chunks of a large message, from `position` on: the last one has the callback. -/
def writeChunks (totalSize : Nat) (onSendDone : Option Nat) : Nat → List Bytes → MessageSender → MessageSender
  | _, [], c => c
  | position, chunk :: chunks, c =>
    if position + chunk.length ≥ totalSize then
      writeChunks totalSize onSendDone (position + chunk.length) chunks
        (c.write accepts [chunk] onSendDone onSendDone).1
    else
      let (c, accepted) := c.write accepts [chunk] onSendDone none
      if accepted then writeChunks totalSize onSendDone (position + chunk.length) chunks c else c

def processSendOperation (operation : SendOperation) : MessageSender :=
  let totalSize := (operation.buffers.map List.length).sum
  if totalSize ≤ maxWriteBufferSize then
    (c.write accepts operation.buffers operation.onSendDone operation.onSendDone).1
  else
    writeChunks accepts totalSize operation.onSendDone 0
      (operation.buffers.flatMap (chunks maxWriteBufferSize)) c

def processSendQueue : MessageSender :=
  c.sendPending.foldl (processSendOperation accepts) { c with sendPending := [] }

def send (buffers : List Bytes) (onSendDone : Option Nat) : MessageSender :=
  let c : MessageSender := { c with sendPending := c.sendPending ++ [⟨buffers, onSendDone⟩] }
  if c.connected then c.processSendQueue accepts else c

def sendMessage (messagePayload : Bytes) (onMessageSent : Option Nat) : MessageSender :=
  c.send accepts [littleEndian messagePayload.length, messagePayload] onMessageSent

def sendHandshake : Option MessageSender :=
  if c.sendPending = [] then some ((c.send accepts [magicString] none).sendMessage accepts c.localIdentity none)
  else none

/-- `initialize`. -/
def init : Option MessageSender := sendHandshake accepts { c with connected := false }

/-- The constructor. -/
def new (localIdentity : Identity) : Option MessageSender :=
  init accepts ⟨false, localIdentity, [], [], [], 0, [], false⟩

def connect : Option MessageSender :=
  if c.connected then none else some (processSendQueue accepts { c with connected := true })

def disconnect : Option MessageSender := if c.connected then c.init accepts else none

/-- A callback that knows its message is invoked. -/
def invoke (onSendDone : Option Nat) (result : SendResult) : MessageSender :=
  { c with invoked := c.invoked ++ (onSendDone.map fun message => (message, result)).toList }

/-- The connection may be closed when a write ends, which `onRead` takes care of. -/
def onWriteDone (onSendDone : Option Nat) : WriteResult → MessageSender
  | .success => c.invoke onSendDone .sent
  | .connectionError => c.invoke onSendDone .sent
  | .canceled => c.invoke onSendDone .socketStopRequested

/-- The destructor. -/
def destroy : MessageSender :=
  let c := c.sendPending.foldl (fun c operation => c.invoke operation.onSendDone .socketStopRequested) c
  { c with sendPending := [], connected := false, destroyed := true }

/-- A destroyed connection is used no more, but its writes are still done; `none` is a failed
assertion or a use after destruction. -/
def step (c : MessageSender) : SendEvent → Option MessageSender
  | .sendMessage payload =>
    if c.destroyed then none
    else some (sendMessage accepts { c with messages := c.messages + 1 } payload (some c.messages))
  | .connect => if c.destroyed then none else c.connect accepts
  | .disconnect => if c.destroyed then none else c.disconnect accepts
  | .writeDone index result =>
    match c.outstanding[index]? with
    | some onSendDone => some ({ c with outstanding := c.outstanding.eraseIdx index }.onWriteDone onSendDone result)
    | none => some c
  | .destroy => if c.destroyed then none else some c.destroy

def run (localIdentity : Identity) (events : List SendEvent) : Option MessageSender := do
  let c ← new accepts localIdentity
  events.foldlM (step accepts) c

/-- How often a write made for the message was refused. -/
def refusals (writes : List WriteCall) (id : Nat) : Nat :=
  writes.countP fun call => call.message = some id ∧ call.accepted = false

/-- How often the callback of a message is pending. -/
def pendingOf (operations : List SendOperation) (id : Nat) : Nat :=
  operations.countP fun operation => operation.onSendDone = some id

/-- Where the callback of a message is: pending, in a write, invoked, or dropped by a refused
write. -/
def tally (id : Nat) : Nat :=
  pendingOf c.sendPending id + c.outstanding.count (some id) + (c.invoked.map Prod.fst).count id +
    refusals c.writes id

/-- The operations of a connection only change what is with the transport, and a callback that
they are given goes there. -/
def Hands (onSendDone : Option Nat) (c c' : MessageSender) : Prop :=
  ∃ outstanding writes, c' = { c with outstanding := outstanding, writes := writes } ∧ ∀ id,
    outstanding.count (some id) + refusals writes id =
      c.outstanding.count (some id) + refusals c.writes id + if onSendDone = some id then 1 else 0

variable {accepts c} {c' c'' : MessageSender} {onSendDone : Option Nat}

theorem refusals_append (writes : List WriteCall) (call : WriteCall) (id : Nat) :
    refusals (writes ++ [call]) id =
      refusals writes id + if call.message = some id ∧ call.accepted = false then 1 else 0 := by
  simp [refusals, List.countP_append, List.countP_singleton]

theorem Hands.trans (h : Hands none c c') (h' : Hands onSendDone c' c'') : Hands onSendDone c c'' := by
  obtain ⟨o, w, rfl, h⟩ := h
  obtain ⟨o', w', rfl, h'⟩ := h'
  refine ⟨o', w', rfl, fun id => ?_⟩
  have hid := h id
  rw [if_neg (Option.some_ne_none id).symm] at hid
  rw [h' id]
  dsimp only
  omega

/-- A write with the callback hands it over, and one without hands it over only when it is
refused. -/
theorem hands_write (buffers : List Bytes) (onSendDone : Option Nat) :
    Hands onSendDone c (c.write accepts buffers onSendDone onSendDone).1 := by
  refine ⟨_, _, rfl, fun id => ?_⟩
  rw [refusals_append]
  cases accepts c.writes.length with
  | true =>
    simp [List.count_singleton]
    omega
  | false =>
    simp
    omega

theorem hands_write_refused (buffers : List Bytes) (onSendDone : Option Nat)
    (h : (c.write accepts buffers onSendDone none).2 = false) :
    Hands onSendDone c (c.write accepts buffers onSendDone none).1 := by
  have h' : accepts c.writes.length = false := h
  refine ⟨_, _, rfl, fun id => ?_⟩
  rw [refusals_append, h']
  simp
  omega

theorem hands_write_accepted (buffers : List Bytes) (onSendDone : Option Nat)
    (h : (c.write accepts buffers onSendDone none).2 = true) :
    Hands none c (c.write accepts buffers onSendDone none).1 := by
  have h' : accepts c.writes.length = true := h
  refine ⟨_, _, rfl, fun id => ?_⟩
  rw [refusals_append, h']
  simp

/-- Exactly one chunk is the last one, unless a write is refused before. -/
theorem hands_writeChunks {totalSize position : Nat} {chunks : List Bytes} (hne : chunks ≠ [])
    (hpos : ∀ chunk ∈ chunks, 0 < chunk.length) (hsum : position + (chunks.map List.length).sum = totalSize) :
    Hands onSendDone c (writeChunks accepts totalSize onSendDone position chunks c) := by
  induction chunks generalizing position c with
  | nil => exact absurd rfl hne
  | cons chunk rest ih =>
    rw [List.map_cons, List.sum_cons] at hsum
    have hrest : rest = [] ∨ 0 < (rest.map List.length).sum := by
      cases rest with
      | nil => exact .inl rfl
      | cons next rest =>
        have hnext := hpos next (by simp)
        rw [List.map_cons, List.sum_cons]
        exact .inr (by omega)
    unfold writeChunks
    split
    · next hlast =>
      have hnil : rest = [] := hrest.resolve_right (by omega)
      rw [hnil, writeChunks]
      exact hands_write [chunk] onSendDone
    · next hlast =>
      have hne' : rest ≠ [] := by
        rintro rfl
        simp only [List.map_nil, List.sum_nil] at hsum
        omega
      dsimp only
      split
      · next haccepted =>
        refine (hands_write_accepted [chunk] onSendDone haccepted).trans ?_
        exact ih hne' (fun chunk hc => hpos chunk (List.mem_cons_of_mem _ hc)) (by omega)
      · next hrefused => exact hands_write_refused [chunk] onSendDone (Bool.eq_false_iff.mpr hrefused)

theorem length_chunk_pos {n : Nat} {buffer chunk : Bytes} (hn : 0 < n) (h : chunk ∈ chunks n buffer) :
    0 < chunk.length := by
  obtain ⟨i, hi, rfl⟩ := List.mem_map.mp h
  have hlt := List.mem_range.mp hi
  have hmul : (i + 1) * n ≤ buffer.length + n - 1 :=
    Nat.le_trans (Nat.mul_le_mul_right n hlt) (Nat.div_mul_le_self _ n)
  rw [Nat.add_mul, Nat.one_mul] at hmul
  rw [List.length_take, List.length_drop]
  omega

theorem hands_processSendOperation (operation : SendOperation) :
    Hands operation.onSendDone c (c.processSendOperation accepts operation) := by
  unfold processSendOperation
  dsimp only
  split
  · exact hands_write operation.buffers operation.onSendDone
  · next hlarge =>
    have hflat := congrArg List.length
      (flatten_flatMap_chunks (n := maxWriteBufferSize) (by decide) operation.buffers)
    rw [List.length_flatten, List.length_flatten] at hflat
    refine hands_writeChunks (fun hnil => ?_) (fun chunk hc => ?_) (by omega)
    · rw [hnil] at hflat
      simp only [List.map_nil, List.sum_nil] at hflat
      omega
    · obtain ⟨buffer, -, hc⟩ := List.mem_flatMap.mp hc
      exact length_chunk_pos (by decide) hc

variable (accepts) in
/-- Callbacks are neither lost nor doubled on the way to the transport. -/
theorem foldl_processSendOperation (operations : List SendOperation) (c : MessageSender) :
    ∃ outstanding writes, operations.foldl (processSendOperation accepts) c =
      { c with outstanding := outstanding, writes := writes } ∧ ∀ id,
        outstanding.count (some id) + refusals writes id =
          c.outstanding.count (some id) + refusals c.writes id + pendingOf operations id := by
  induction operations generalizing c with
  | nil => exact ⟨_, _, rfl, fun id => rfl⟩
  | cons operation operations ih =>
    have hands : Hands operation.onSendDone c (c.processSendOperation accepts operation) :=
      hands_processSendOperation operation
    obtain ⟨o, w, he, h⟩ := hands
    obtain ⟨o', w', he', h'⟩ := ih (c.processSendOperation accepts operation)
    rw [List.foldl_cons, he', he]
    refine ⟨o', w', rfl, fun id => ?_⟩
    rw [h', he]
    dsimp only
    rw [h, pendingOf, pendingOf, List.countP_cons]
    simp only [decide_eq_true_eq]
    omega

theorem tally_processSendQueue (c : MessageSender) (id : Nat) : (c.processSendQueue accepts).tally id = c.tally id := by
  obtain ⟨o, w, he, h⟩ := foldl_processSendOperation accepts c.sendPending { c with sendPending := [] }
  have hid := h id
  rw [processSendQueue, he, tally, tally, pendingOf, List.countP_nil]
  dsimp only at hid ⊢
  omega

theorem tally_send (c : MessageSender) (buffers : List Bytes) (onSendDone : Option Nat) (id : Nat) :
    (c.send accepts buffers onSendDone).tally id = c.tally id + if onSendDone = some id then 1 else 0 := by
  have hpush : tally { c with sendPending := c.sendPending ++ [⟨buffers, onSendDone⟩] } id =
      c.tally id + if onSendDone = some id then 1 else 0 := by
    simp only [tally, pendingOf, List.countP_append, List.countP_singleton, decide_eq_true_eq]
    omega
  unfold send
  dsimp only
  split
  · rw [tally_processSendQueue, hpush]
  · exact hpush

section Refinement

/-- The sending side of a connection as `MessageConnection` has it: what waits, and the last writes, which are those
on the client that is attached. -/
structure Sends (s : MessageSender) (d : MessageConnection) : Prop where
  connected : s.connected = d.connected
  localIdentity : s.localIdentity = d.localIdentity
  pending : s.sendPending.map SendOperation.buffers = d.sendPending
  written : ∀ client, d.client = some client → client.written <:+ s.writes.map fun call => call.buffers.flatten

variable {s s' : MessageSender} {d d' : MessageConnection} (haccepts : ∀ n, accepts n = true)

include haccepts

theorem written_writeChunks (totalSize position : Nat) (onSendDone : Option Nat) (chunks : List Bytes)
    (s : MessageSender) : (writeChunks accepts totalSize onSendDone position chunks s).writes.map
      (fun call => call.buffers.flatten) = s.writes.map (fun call => call.buffers.flatten) ++ chunks := by
  induction chunks generalizing position s with
  | nil => rw [writeChunks, List.append_nil]
  | cons chunk chunks ih =>
    unfold writeChunks
    split
    · rw [ih]
      simp [write]
    · simp only [write, haccepts, if_true]
      rw [ih]
      simp

theorem Sends.processSendOperation (h : s.Sends d) (operation : SendOperation) :
    (s.processSendOperation accepts operation).Sends (d.processSendOperation operation.buffers) := by
  have hwrites : (s.processSendOperation accepts operation).writes.map (fun call => call.buffers.flatten) =
      s.writes.map (fun call => call.buffers.flatten) ++ MessageConnection.writesOf operation.buffers := by
    unfold MessageSender.processSendOperation MessageConnection.writesOf
    dsimp only
    split
    · simp [write]
    · exact written_writeChunks haccepts _ _ _ _ _
  have hands : Hands operation.onSendDone s (s.processSendOperation accepts operation) :=
    hands_processSendOperation operation
  obtain ⟨outstanding, writes, he, -⟩ := hands
  rw [he] at hwrites ⊢
  rw [MessageConnection.processSendOperation_eq]
  refine ⟨h.connected, h.localIdentity, h.pending, fun client hclient => ?_⟩
  obtain ⟨before, hbefore, rfl⟩ := Option.map_eq_some_iff.mp hclient
  dsimp only at hwrites ⊢
  rw [hwrites]
  obtain ⟨earlier, hearlier⟩ := h.written before hbefore
  exact ⟨earlier, by rw [← List.append_assoc, hearlier]⟩

theorem Sends.processSendQueue (h : s.Sends d) : (s.processSendQueue accepts).Sends d.processSendQueue := by
  have hall : ∀ (operations : List SendOperation) (s : MessageSender) (d : MessageConnection), s.Sends d →
      (operations.foldl (MessageSender.processSendOperation accepts) s).Sends
        ((operations.map SendOperation.buffers).foldl MessageConnection.processSendOperation d) := by
    intro operations
    induction operations with
    | nil => exact fun s d h => h
    | cons operation operations ih => exact fun s d h => ih _ _ (h.processSendOperation haccepts operation)
  rw [MessageConnection.processSendQueue, ← h.pending]
  exact hall s.sendPending { s with sendPending := [] } { d with sendPending := [] }
    ⟨h.connected, h.localIdentity, rfl, h.written⟩

theorem Sends.send (h : s.Sends d) (buffers : List Bytes) (onSendDone : Option Nat) :
    (s.send accepts buffers onSendDone).Sends (d.send buffers) := by
  have hpush : Sends { s with sendPending := s.sendPending ++ [⟨buffers, onSendDone⟩] }
      { d with sendPending := d.sendPending ++ [buffers] } :=
    ⟨h.connected, h.localIdentity, by simp [h.pending], h.written⟩
  by_cases hconnected : d.connected = true
  · have hsender : s.send accepts buffers onSendDone =
        MessageSender.processSendQueue accepts { s with sendPending := s.sendPending ++ [⟨buffers, onSendDone⟩] } :=
      if_pos (h.connected.trans hconnected)
    have hconnection : d.send buffers =
        MessageConnection.processSendQueue { d with sendPending := d.sendPending ++ [buffers] } := if_pos hconnected
    rw [hsender, hconnection]
    exact hpush.processSendQueue haccepts
  · have hsender : s.send accepts buffers onSendDone = { s with sendPending := s.sendPending ++ [⟨buffers, onSendDone⟩] } :=
      if_neg (h.connected ▸ hconnected)
    have hconnection : d.send buffers = { d with sendPending := d.sendPending ++ [buffers] } := if_neg hconnected
    rw [hsender, hconnection]
    exact hpush

theorem Sends.sendMessage (h : s.Sends d) (payload : Bytes) (onMessageSent : Option Nat) :
    (s.sendMessage accepts payload onMessageSent).Sends (d.sendMessage payload) :=
  h.send haccepts [littleEndian payload.length, payload] onMessageSent

theorem Sends.connect (h : s.Sends d) (hconnect : d.connect = some d') :
    ∃ s', s.connect accepts = some s' ∧ s'.Sends d' := by
  unfold MessageConnection.connect at hconnect
  split at hconnect
  · cases hconnect
  · next hopen =>
    cases hconnect
    refine ⟨_, if_neg (h.connected ▸ hopen), Sends.processSendQueue haccepts ?_⟩
    refine ⟨rfl, h.localIdentity, h.pending, fun client hclient => ?_⟩
    cases hclient
    exact List.nil_suffix

/-- `initialize`, in the constructor and at every end of a connection. -/
theorem Sends.init (h : s.Sends d) (hinit : d.init = some d') : ∃ s', s.init accepts = some s' ∧ s'.Sends d' := by
  unfold MessageConnection.init MessageConnection.sendHandshake at hinit
  dsimp only at hinit
  split at hinit
  · next hnil =>
    have hfresh : Sends { s with connected := false }
        { d with client := none, state := .disconnected, recvCurrent := ⟨none, none⟩ } :=
      ⟨rfl, h.localIdentity, h.pending, fun client hclient => by cases hclient⟩
    have hsent := (hfresh.send haccepts [magicString] none).sendMessage haccepts d.localIdentity none
    have hsenders : s.sendPending = [] := List.map_eq_nil_iff.mp (h.pending.trans hnil)
    cases hinit
    refine ⟨_, if_pos hsenders, ?_⟩
    rw [← h.localIdentity] at hsent ⊢
    exact ⟨hsent.connected, hsent.localIdentity, hsent.pending, hsent.written⟩
  · cases hinit

theorem Sends.disconnect (h : s.Sends d) (hdisconnect : d.disconnect = some d') :
    ∃ s', s.disconnect accepts = some s' ∧ s'.Sends d' := by
  unfold MessageConnection.disconnect at hdisconnect
  split at hdisconnect
  · next hconnected =>
    obtain ⟨s', hs', hsends⟩ := h.init haccepts hdisconnect
    exact ⟨s', (if_pos (h.connected.trans hconnected)).trans hs', hsends⟩
  · cases hdisconnect

theorem sends_new {localIdentity : Identity} {remoteIdentity : Option Identity}
    (hnew : MessageConnection.new localIdentity remoteIdentity = some d) :
    ∃ s, new accepts localIdentity = some s ∧ s.Sends d :=
  Sends.init haccepts ⟨rfl, rfl, rfl, fun client hclient => by cases hclient⟩ hnew

end Refinement

/-- Every callback is in one place, and nothing is pending once the connection is destroyed. -/
structure Accounted (c : MessageSender) : Prop where
  once : ∀ id, c.tally id = if id < c.messages then 1 else 0
  closed : c.destroyed = true → c.sendPending = []

theorem processSendQueue_frame (c : MessageSender) : (c.processSendQueue accepts).messages = c.messages ∧
    (c.processSendQueue accepts).destroyed = c.destroyed := by
  obtain ⟨o, w, he, -⟩ := foldl_processSendOperation accepts c.sendPending { c with sendPending := [] }
  rw [processSendQueue, he]
  exact ⟨rfl, rfl⟩

theorem send_frame (c : MessageSender) (buffers : List Bytes) (onSendDone : Option Nat) :
    (c.send accepts buffers onSendDone).messages = c.messages ∧
      (c.send accepts buffers onSendDone).destroyed = c.destroyed := by
  unfold send
  dsimp only
  split
  · exact processSendQueue_frame _
  · exact ⟨rfl, rfl⟩

/-- A new handshake is reported to nobody. -/
theorem Accounted.init (h : c.Accounted) (hopen : c.destroyed = false) (he : c.init accepts = some c') :
    c'.Accounted := by
  unfold MessageSender.init sendHandshake at he
  split at he
  · cases he
    refine ⟨fun id => ?_, fun hd => ?_⟩
    · rw [sendMessage, tally_send, tally_send, (send_frame _ _ _).1, (send_frame _ _ _).1]
      rw [if_neg (Option.some_ne_none id).symm]
      exact h.once id
    · rw [sendMessage, (send_frame _ _ _).2, (send_frame _ _ _).2] at hd
      cases hopen.symm.trans hd
  · cases he

theorem Accounted.connect (h : c.Accounted) (hopen : c.destroyed = false) (he : c.connect accepts = some c') :
    c'.Accounted := by
  unfold MessageSender.connect at he
  split at he
  · cases he
  · cases he
    refine ⟨fun id => ?_, fun hd => ?_⟩
    · rw [tally_processSendQueue, (processSendQueue_frame _).1]
      exact h.once id
    · rw [(processSendQueue_frame _).2] at hd
      cases hopen.symm.trans hd

theorem Accounted.sendMessage (h : c.Accounted) (hopen : c.destroyed = false) (payload : Bytes) :
    (sendMessage accepts { c with messages := c.messages + 1 } payload (some c.messages)).Accounted := by
  refine ⟨fun id => ?_, fun hd => ?_⟩
  · have hid := h.once id
    rw [MessageSender.sendMessage, tally_send, (send_frame _ _ _).1]
    have htally : tally { c with messages := c.messages + 1 } id = c.tally id := rfl
    rw [htally, hid]
    simp only [Option.some.injEq]
    split_ifs <;> omega
  · rw [MessageSender.sendMessage, (send_frame _ _ _).2] at hd
    cases hopen.symm.trans hd

/-- A callback that was outstanding or pending is invoked. -/
theorem tally_invoke (c : MessageSender) (onSendDone : Option Nat) (result : SendResult) (id : Nat) :
    (c.invoke onSendDone result).tally id = c.tally id + if onSendDone = some id then 1 else 0 := by
  cases onSendDone with
  | none => simp [invoke, tally]
  | some message =>
    simp only [invoke, tally, Option.map_some, Option.toList_some, List.map_append, List.map_cons, List.map_nil,
      List.count_append, List.count_singleton, Option.some.injEq, beq_iff_eq]
    omega

theorem Accounted.writeDone (h : c.Accounted) {index : Nat} {onSendDone : Option Nat}
    (hget : c.outstanding[index]? = some onSendDone) (result : WriteResult) :
    (onWriteDone { c with outstanding := c.outstanding.eraseIdx index } onSendDone result).Accounted := by
  have hinvoke : ∀ sendResult,
      (invoke { c with outstanding := c.outstanding.eraseIdx index } onSendDone sendResult).Accounted := by
    intro sendResult
    refine ⟨fun id => ?_, h.closed⟩
    obtain ⟨hlt, rfl⟩ := List.getElem?_eq_some_iff.mp hget
    have hperm := (List.getElem_cons_eraseIdx_perm hlt).count_eq (some id)
    rw [List.count_cons] at hperm
    have hid := h.once id
    rw [tally_invoke]
    show _ = if id < c.messages then 1 else 0
    simp only [tally, beq_iff_eq] at hid hperm ⊢
    omega
  cases result with
  | success => exact hinvoke .sent
  | connectionError => exact hinvoke .sent
  | canceled => exact hinvoke .socketStopRequested

theorem foldl_invoke (operations : List SendOperation) (result : SendResult) (c : MessageSender) :
    ∃ invoked, operations.foldl (fun c operation => c.invoke operation.onSendDone result) c =
      { c with invoked := invoked } ∧ ∀ id,
        (invoked.map Prod.fst).count id = (c.invoked.map Prod.fst).count id + pendingOf operations id := by
  induction operations generalizing c with
  | nil => exact ⟨_, rfl, fun id => rfl⟩
  | cons operation operations ih =>
    obtain ⟨invoked, he, h⟩ := ih (c.invoke operation.onSendDone result)
    refine ⟨invoked, he, fun id => ?_⟩
    have hinvoke := tally_invoke c operation.onSendDone result id
    simp only [tally, invoke] at hinvoke
    rw [h id, pendingOf, pendingOf, List.countP_cons]
    simp only [decide_eq_true_eq, invoke]
    omega

theorem Accounted.destroy (h : c.Accounted) : c.destroy.Accounted := by
  obtain ⟨invoked, he, hcount⟩ := foldl_invoke c.sendPending .socketStopRequested c
  unfold MessageSender.destroy
  rw [he]
  refine ⟨fun id => ?_, fun _ => rfl⟩
  have hid := h.once id
  have hc := hcount id
  simp only [tally, pendingOf, List.countP_nil] at hid hc ⊢
  omega

theorem Accounted.step {event : SendEvent} (h : c.Accounted) (he : c.step accepts event = some c') :
    c'.Accounted := by
  cases event with
  | sendMessage payload =>
    dsimp only [MessageSender.step] at he
    split at he
    · cases he
    · next hopen =>
      cases he
      exact h.sendMessage (Bool.eq_false_iff.mpr hopen) payload
  | connect =>
    dsimp only [MessageSender.step] at he
    split at he
    · cases he
    · next hopen => exact h.connect (Bool.eq_false_iff.mpr hopen) he
  | disconnect =>
    dsimp only [MessageSender.step, MessageSender.disconnect] at he
    split at he
    · cases he
    · next hopen =>
      split at he
      · exact h.init (Bool.eq_false_iff.mpr hopen) he
      · cases he
  | writeDone index result =>
    dsimp only [MessageSender.step] at he
    split at he
    · next onSendDone hget =>
      cases he
      exact h.writeDone hget result
    · cases he
      exact h
  | destroy =>
    dsimp only [MessageSender.step] at he
    split at he
    · cases he
    · cases he
      exact h.destroy

theorem Accounted.run {localIdentity : Identity} {events : List SendEvent}
    (he : run accepts localIdentity events = some c) : c.Accounted := by
  rw [MessageSender.run, Option.bind_eq_bind] at he
  obtain ⟨c₀, hnew, hrun⟩ := Option.bind_eq_some_iff.mp he
  have h₀ : c₀.Accounted := by
    refine Accounted.init ⟨fun id => ?_, fun hd => by cases hd⟩ rfl hnew
    simp [tally, pendingOf, refusals]
  clear he hnew
  induction events generalizing c₀ with
  | nil =>
    cases hrun
    exact h₀
  | cons event events ih =>
    rw [List.foldlM_cons, Option.bind_eq_bind] at hrun
    obtain ⟨c₁, hstep, hrest⟩ := Option.bind_eq_some_iff.mp hrun
    exact ih c₁ hrest (h₀.step hstep)

end MessageSender

open MessageSender

/-- Every callback is invoked at most once; and when the connection is destroyed and no write is
outstanding, exactly the callbacks of the messages without a refused write were invoked. -/
theorem send_reported_once (accepts : Nat → Bool) (localIdentity : Identity) (events : List SendEvent)
    (c : MessageSender) (h : run accepts localIdentity events = some c) :
    (∀ id, (c.invoked.map Prod.fst).count id ≤ 1) ∧
    (c.destroyed = true → c.outstanding = [] → ∀ id < c.messages,
      ((c.invoked.map Prod.fst).count id = 1 ↔
        ∀ call ∈ c.writes, call.message = some id → call.accepted = true)) := by
  have hacc := Accounted.run h
  refine ⟨fun id => ?_, fun hd ho id hlt => ?_⟩
  · have hid := hacc.once id
    rw [tally] at hid
    split_ifs at hid <;> omega
  · have hid := hacc.once id
    rw [tally, hacc.closed hd, ho, if_pos hlt] at hid
    have hrefused : refusals c.writes id = 0 ↔ ∀ call ∈ c.writes, call.message = some id → call.accepted = true := by
      simp [refusals, List.countP_eq_zero]
    rw [← hrefused]
    simp only [pendingOf, List.countP_nil, List.count_nil] at hid
    omega

/-- A message that waits for the connection is reported when it is written. -/
theorem send_reported_once_queued : ∃ c,
    run (fun _ => true) [1] [.sendMessage [7], .connect, .writeDone 2 .success, .writeDone 0 .success,
      .writeDone 0 .success, .destroy] = some c ∧
    ((c.invoked.map Prod.fst).count 0 = 1 ↔ ∀ call ∈ c.writes, call.message = some 0 → call.accepted = true) ∧
    c.invoked = [(0, .sent)] := by
  refine ⟨_, rfl, ?_, rfl⟩
  exact (send_reported_once (fun _ => true) [1] [.sendMessage [7], .connect, .writeDone 2 .success,
    .writeDone 0 .success, .writeDone 0 .success, .destroy] _ rfl).2 rfl rfl 0 (by decide)

/-- The write of a message is refused at call time: nobody hears of it, though the connection is
destroyed and every write is done. -/
theorem refused_send_not_reported : ∃ c,
    run (· ≠ 2) [1] [.connect, .sendMessage [7], .writeDone 0 .success, .writeDone 0 .success, .destroy] = some c ∧
    c.destroyed = true ∧ c.outstanding = [] ∧ 0 < c.messages ∧ (c.invoked.map Prod.fst).count 0 = 0 :=
  ⟨_, rfl, rfl, rfl, by decide, rfl⟩

end Scaler.Ymq
