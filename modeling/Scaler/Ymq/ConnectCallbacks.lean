import Scaler.Ymq.ConnectClient

/-! Every request of a connecting `ConnectorSocket` is reported, unless the socket is shut down
during its first round, has no TLS context for it, loses the remote end while it is linked to it,
gives up while messages wait to be sent, or has the write of a message refused. -/

namespace Scaler.Ymq

open Collections

namespace MessageSender

variable {accepts : Nat → Bool} {c c' : MessageSender}

/-- Only the handshake is pending. -/
def Idle (c : MessageSender) : Prop := ∀ operation ∈ c.sendPending, operation.onSendDone = none

/-- How many writes are made for so many chunks after `n` writes: none after a refused one. -/
def writesMade (accepts : Nat → Bool) : Nat → Nat → Nat
  | _, 0 => 0
  | n, chunks + 1 => if accepts n then writesMade accepts (n + 1) chunks + 1 else 1

/-- How many writes an operation takes. -/
def writeCount (operation : SendOperation) : Nat :=
  if (operation.buffers.map List.length).sum ≤ maxWriteBufferSize then 1
  else (operation.buffers.flatMap (chunks maxWriteBufferSize)).length

/-- After `n` writes the transport accepts every write for a message of the user. -/
def Takes (accepts : Nat → Bool) : Nat → List SendOperation → Prop
  | _, [] => True
  | n, operation :: operations =>
    (operation.onSendDone.isSome = true → ∀ i < writeCount operation, accepts (n + i) = true) ∧
      Takes accepts (n + writesMade accepts n (writeCount operation)) operations

/-- Every callback is in one place, and no refused write dropped one. -/
structure Kept (c : MessageSender) : Prop where
  accounted : c.Accounted
  taken : ∀ id, refusals c.writes id = 0

theorem refusals_write (c : MessageSender) (buffers : List Bytes) (message callback : Option Nat)
    (h : message.isSome = true → accepts c.writes.length = true) (id : Nat) :
    refusals (c.write accepts buffers message callback).1.writes id = refusals c.writes id := by
  rw [show (c.write accepts buffers message callback).1.writes =
    c.writes ++ [⟨buffers, message, accepts c.writes.length⟩] from rfl, refusals_append]
  refine Nat.add_eq_left.mpr (if_neg ?_)
  rintro ⟨hmessage : message = some id, hrefused : accepts c.writes.length = false⟩
  cases (h (by rw [hmessage]; rfl)).symm.trans hrefused

theorem length_writes_write (c : MessageSender) (buffers : List Bytes) (message callback : Option Nat) :
    (c.write accepts buffers message callback).1.writes.length = c.writes.length + 1 := List.length_append

theorem writes_writeChunks {onSendDone : Option Nat} {totalSize position : Nat} {chunks : List Bytes}
    (hpos : ∀ chunk ∈ chunks, 0 < chunk.length) (hsum : position + (chunks.map List.length).sum = totalSize) :
    (writeChunks accepts totalSize onSendDone position chunks c).writes.length =
      c.writes.length + writesMade accepts c.writes.length chunks.length ∧
    ((onSendDone.isSome = true → ∀ i < chunks.length, accepts (c.writes.length + i) = true) → ∀ id,
      refusals (writeChunks accepts totalSize onSendDone position chunks c).writes id = refusals c.writes id) := by
  induction chunks generalizing position c with
  | nil => exact ⟨rfl, fun _ _ => rfl⟩
  | cons chunk rest ih =>
    rw [List.map_cons, List.sum_cons] at hsum
    unfold writeChunks
    split
    · next hlast =>
      have hnil : rest = [] := by
        cases rest with
        | nil => rfl
        | cons next rest =>
          have hnext := hpos next (by simp)
          rw [List.map_cons, List.sum_cons] at hsum
          omega
      rw [hnil, writeChunks]
      refine ⟨?_, fun htakes => refusals_write c [chunk] onSendDone onSendDone fun hsome => htakes hsome 0 (by simp)⟩
      rw [length_writes_write]
      simp only [List.length_singleton, writesMade]
      split <;> rfl
    · next hlast =>
      dsimp only
      split
      · next haccepted =>
        have haccepts : accepts c.writes.length = true := haccepted
        have hrest : position + chunk.length + (rest.map List.length).sum = totalSize := by omega
        obtain ⟨hlength, hspares⟩ := ih (c := (c.write accepts [chunk] onSendDone none).1)
          (fun next hmem => hpos next (List.mem_cons_of_mem _ hmem)) hrest
        rw [length_writes_write] at hlength hspares
        refine ⟨?_, fun htakes id => ?_⟩
        · rw [hlength, List.length_cons, writesMade, if_pos haccepts]
          omega
        · rw [hspares (fun hsome i hi => ?_) id, refusals_write c [chunk] onSendDone none fun _ => haccepts]
          have hi' := htakes hsome (i + 1) (Nat.succ_lt_succ hi)
          rwa [show c.writes.length + 1 + i = c.writes.length + (i + 1) by omega]
      · next hrefused =>
        have hrefuses : accepts c.writes.length = false := Bool.eq_false_iff.mpr hrefused
        refine ⟨?_, fun htakes => refusals_write c [chunk] onSendDone none fun hsome => htakes hsome 0 (by simp)⟩
        rw [length_writes_write, List.length_cons, writesMade, if_neg (by rw [hrefuses]; decide)]

variable (accepts) in
theorem writes_processSendOperation (c : MessageSender) (operation : SendOperation) :
    (c.processSendOperation accepts operation).writes.length =
      c.writes.length + writesMade accepts c.writes.length (writeCount operation) ∧
    ((operation.onSendDone.isSome = true → ∀ i < writeCount operation, accepts (c.writes.length + i) = true) → ∀ id,
      refusals (c.processSendOperation accepts operation).writes id = refusals c.writes id) := by
  unfold processSendOperation writeCount
  dsimp only
  split
  · refine ⟨?_, fun htakes => refusals_write c operation.buffers operation.onSendDone operation.onSendDone fun hsome =>
      htakes hsome 0 Nat.zero_lt_one⟩
    rw [length_writes_write]
    simp only [writesMade]
    split <;> rfl
  · refine writes_writeChunks (fun chunk hmem => ?_) ?_
    · obtain ⟨buffer, -, hmem⟩ := List.mem_flatMap.mp hmem
      exact length_chunk_pos (by decide) hmem
    · have hflat := congrArg List.length
        (flatten_flatMap_chunks (n := maxWriteBufferSize) (by decide) operation.buffers)
      rw [List.length_flatten, List.length_flatten] at hflat
      omega

theorem Takes.foldl {operations : List SendOperation} (h : Takes accepts c.writes.length operations) (id : Nat) :
    refusals (operations.foldl (processSendOperation accepts) c).writes id = refusals c.writes id := by
  induction operations generalizing c with
  | nil => rfl
  | cons operation operations ih =>
    obtain ⟨htakes, hrest⟩ := h
    obtain ⟨hlength, hspares⟩ := writes_processSendOperation accepts c operation
    rw [List.foldl_cons, ih (by rw [hlength]; exact hrest), hspares htakes]

theorem Takes.processSendQueue (h : Takes accepts c.writes.length c.sendPending) (id : Nat) :
    refusals (c.processSendQueue accepts).writes id = refusals c.writes id :=
  Takes.foldl (c := { c with sendPending := [] }) h id

theorem Takes.send {buffers : List Bytes} {onSendDone : Option Nat}
    (h : c.connected = true → Takes accepts c.writes.length (c.sendPending ++ [⟨buffers, onSendDone⟩])) (id : Nat) :
    refusals (c.send accepts buffers onSendDone).writes id = refusals c.writes id := by
  unfold MessageSender.send
  dsimp only
  split
  · next hup => exact Takes.processSendQueue (h hup) id
  · rfl

theorem Idle.pendingOf (h : c.Idle) (id : Nat) : pendingOf c.sendPending id = 0 := by
  refine List.countP_eq_zero.mpr fun operation hmem => ?_
  rw [h operation hmem]
  simp

/-- What is written or reported leaves the rest of the connection alone. -/
theorem processSendQueue_sendPending (c : MessageSender) :
    (c.processSendQueue accepts).sendPending = [] ∧ (c.processSendQueue accepts).connected = c.connected := by
  obtain ⟨o, w, he, -⟩ := foldl_processSendOperation accepts c.sendPending { c with sendPending := [] }
  rw [processSendQueue, he]
  exact ⟨rfl, rfl⟩

theorem send_sendPending (c : MessageSender) (buffers : List Bytes) (onSendDone : Option Nat) :
    (c.send accepts buffers onSendDone).connected = c.connected ∧
      (c.send accepts buffers onSendDone).sendPending =
        if c.connected then [] else c.sendPending ++ [⟨buffers, onSendDone⟩] := by
  unfold send
  dsimp only
  split
  · exact ⟨(processSendQueue_sendPending _).2, (processSendQueue_sendPending _).1⟩
  · exact ⟨rfl, rfl⟩

variable (accepts) in
theorem init_eq (h : c.sendPending = []) : ∃ c', c.init accepts = some c' ∧ c'.Idle ∧ c'.connected = false ∧
    c'.destroyed = c.destroyed := by
  refine ⟨_, if_pos h, ?_, ?_, ?_⟩
  · intro operation hmem
    rw [sendMessage, (send_sendPending _ _ _).2, (send_sendPending _ _ _).1, (send_sendPending _ _ _).2] at hmem
    simp only [h, Bool.false_eq_true, if_false, List.nil_append, List.cons_append, List.mem_cons, List.not_mem_nil,
      or_false] at hmem
    rcases hmem with rfl | rfl <;> rfl
  · rw [sendMessage, (send_sendPending _ _ _).1, (send_sendPending _ _ _).1]
  · rw [sendMessage, (send_frame _ _ _).2, (send_frame _ _ _).2]

theorem Kept.init (h : c.Kept) (hopen : c.destroyed = false) (he : c.init accepts = some c') : c'.Kept := by
  refine ⟨h.accounted.init hopen he, fun id => ?_⟩
  unfold MessageSender.init MessageSender.sendHandshake at he
  split at he
  · cases he
    refine (Takes.send (fun hup => ?_) id).trans ((Takes.send (fun hup => ?_) id).trans (h.taken id))
    · rw [(send_sendPending _ _ _).1] at hup
      cases hup
    · cases hup
  · cases he

theorem Kept.connect (h : c.Kept) (hopen : c.destroyed = false) (hdown : c.connected = false)
    (htakes : Takes accepts c.writes.length c.sendPending) :
    (processSendQueue accepts { c with connected := true }).Kept := by
  refine ⟨h.accounted.connect hopen (if_neg (by rw [hdown]; decide)), fun id => ?_⟩
  exact (Takes.processSendQueue (c := { c with connected := true }) htakes id).trans (h.taken id)

theorem Kept.sendMessage (h : c.Kept) (hopen : c.destroyed = false) (payload : Bytes)
    (htakes : c.connected = true → Takes accepts c.writes.length
      (c.sendPending ++ [⟨[littleEndian payload.length, payload], some c.messages⟩])) :
    (MessageSender.sendMessage accepts { c with messages := c.messages + 1 } payload (some c.messages)).Kept :=
  ⟨h.accounted.sendMessage hopen payload, fun id =>
    (Takes.send (c := { c with messages := c.messages + 1 }) htakes id).trans (h.taken id)⟩

theorem Kept.destroy (h : c.Kept) : c.destroy.Kept := by
  refine ⟨h.accounted.destroy, fun id => ?_⟩
  obtain ⟨invoked, he, -⟩ := foldl_invoke c.sendPending .socketStopRequested c
  unfold MessageSender.destroy
  rw [he]
  exact h.taken id

variable (accepts) in
theorem writeDone_eq (c : MessageSender) (index : Nat) (result : WriteResult) :
    ∃ c', c.step accepts (.writeDone index result) = some c' ∧ c'.sendPending = c.sendPending ∧
      c'.connected = c.connected ∧ c'.destroyed = c.destroyed ∧ c'.writes = c.writes := by
  dsimp only [step]
  split
  · cases result <;> exact ⟨_, rfl, rfl, rfl, rfl, rfl⟩
  · exact ⟨_, rfl, rfl, rfl, rfl, rfl⟩

theorem sendMessage_eq (h : c.Kept) (hopen : c.destroyed = false) (payload : Bytes)
    (htakes : c.connected = true → Takes accepts c.writes.length
      (c.sendPending ++ [⟨[littleEndian payload.length, payload], some c.messages⟩])) :
    ∃ c', c.step accepts (.sendMessage payload) = some c' ∧ c'.Kept ∧ c'.connected = c.connected ∧
      (c.connected = true → c'.sendPending = []) ∧ c'.destroyed = c.destroyed := by
  refine ⟨_, if_neg (by rw [hopen]; decide), h.sendMessage hopen payload htakes, ?_, fun hc => ?_, ?_⟩
  · rw [sendMessage, (send_sendPending _ _ _).1]
  · rw [sendMessage, (send_sendPending _ _ _).2]
    exact if_pos hc
  · rw [sendMessage, (send_frame _ _ _).2]

end MessageSender

namespace ConnectingSocket

variable {accepts : Nat → Bool} {config : ConnectConfig} {s s' : ConnectingSocket}

/-- The delays before the first `k` retries. -/
def pace (initRetryDelay k : Nat) : List Nat := (List.range k).map fun i => initRetryDelay * 2 ^ (i + 1)

/-- Where the round is. A round that is canceled and waits for the loop, or that is dropped between
two attempts, reports to nobody. -/
inductive Phase (s : ConnectingSocket) : Prop where
  | ended (hconnecting : s.connecting = false) (hcallback : s.round.onConnectCallback = none)
    (hrequested : s.round.requested = false) (htimer : s.round.retryTimer = none)
  | attempt (hconnecting : s.connecting = true) (hcallback : s.round.onConnectCallback.isSome = true)
    (hrequested : s.round.requested = true) (hclosed : s.round.closed = false) (hclient : s.round.client = true)
    (htimer : s.round.retryTimer = none) (hretry : s.round.retryTimes ≤ s.maxRetryTimes)
    (hdelays : s.round.delays = pace s.initRetryDelay s.round.retryTimes)
    (hattempts : s.round.attempts = s.round.retryTimes + 1)
  | delay (hconnecting : s.connecting = true) (hcallback : s.round.onConnectCallback.isSome = true)
    (hrequested : s.round.requested = false) (htimer : s.round.retryTimer.isSome = true)
    (hretry : s.round.retryTimes ≤ s.maxRetryTimes)
    (hdelays : s.round.delays = pace s.initRetryDelay s.round.retryTimes)
    (hattempts : s.round.attempts = s.round.retryTimes)
  | canceling (hconnecting : s.connecting = false) (hshut : s.shutDown = true)
    (hcallback : s.round.onConnectCallback = some .nobody) (hrequested : s.round.requested = true)
    (hclosed : s.round.closed = true) (htimer : s.round.retryTimer = none)
  | dropped (hconnecting : s.connecting = false) (hshut : s.shutDown = true)
    (hcallback : s.round.onConnectCallback = some .nobody) (hrequested : s.round.requested = false)
    (htimer : s.round.retryTimer = none)

theorem Phase.congr (h : Phase s) (hcon : s'.connecting = s.connecting) (hshut : s'.shutDown = s.shutDown)
    (hround : s'.round = s.round) (hmax : s'.maxRetryTimes = s.maxRetryTimes)
    (hinit : s'.initRetryDelay = s.initRetryDelay) : Phase s' := by
  obtain ⟨t, m, i, d, c, r, n, p, q, sh, k, a, b, e⟩ := s'
  subst hcon hshut hround hmax hinit
  cases h with
  | ended h₁ h₂ h₃ h₄ => exact .ended h₁ h₂ h₃ h₄
  | attempt h₁ h₂ h₃ h₄ h₅ h₆ h₇ h₈ h₉ => exact .attempt h₁ h₂ h₃ h₄ h₅ h₆ h₇ h₈ h₉
  | delay h₁ h₂ h₃ h₄ h₅ h₆ h₇ => exact .delay h₁ h₂ h₃ h₄ h₅ h₆ h₇
  | canceling h₁ h₂ h₃ h₄ h₅ h₆ => exact .canceling h₁ h₂ h₃ h₄ h₅ h₆
  | dropped h₁ h₂ h₃ h₄ h₅ => exact .dropped h₁ h₂ h₃ h₄ h₅

/-- Every callback is in one place, and the round keeps its pace. -/
structure Booked (config : ConnectConfig) (s : ConnectingSocket) : Prop where
  retries : s.maxRetryTimes = config.maxRetryTimes ∧ s.initRetryDelay = config.initRetryDelay
  reported : s.connectInvoked.length + (if s.round.onConnectCallback = some .user then 1 else 0) = 1
  paced : ∃ k ≤ s.maxRetryTimes, s.round.delays = pace s.initRetryDelay k ∧ s.round.attempts ≤ k + 1
  accounted : s.connection.Kept
  received : (s.pendingRecvCallbacks ++ s.recvInvoked.map Prod.fst).Perm (List.range s.recvCalls)

/-- The places fit together, and those that nobody looks at any more are empty. -/
structure Sound (config : ConnectConfig) (s : ConnectingSocket) : Prop where
  booked : Booked config s
  phase : Phase s
  opening : s.connecting = true → s.shutDown = false ∧ s.disconnected = false ∧ s.connection.connected = false
  connected : s.connection.connected = true →
    s.connection.sendPending = [] ∧ s.disconnected = false ∧ s.shutDown = false
  destroyed : s.connection.destroyed = s.shutDown
  settled : s.disconnected = true ∨ s.shutDown = true → s.pendingRecvCallbacks = [] ∧ s.connection.Idle

variable (accepts) in
/-- What a step has to meet: no write of a message is refused, the remote end is not gone when the
connection is linked, the round does not end without a connection while messages wait, the delay of
a retry fits into a word, a socket that is gone is not called, and the shutdown comes neither in
the round that reports to the user, unless a `SecureSocket` is in an attempt, nor during an upgrade. -/
def Meets (s : ConnectingSocket) : ConnectEvent → Prop
  | .attemptDone (.connected early) => s.round.requested = true →
    (∀ read ∈ early, ∃ message, read = .message message) ∧
    MessageSender.Takes accepts s.connection.writes.length s.connection.sendPending
  | .attemptDone .canceled => s.round.requested = true → s.connection.Idle
  | .attemptDone .failed => s.round.requested = true →
    (s.maxRetryTimes ≤ s.round.retryTimes → s.connection.Idle) ∧
    (s.round.retryTimes < s.maxRetryTimes →
      s.round.retryTimes + 1 < 64 ∧ s.initRetryDelay * 2 ^ (s.round.retryTimes + 1) < 2 ^ 64)
  | .sendMessage payload => s.shutDown = false ∧
    (s.disconnected = false → s.connection.connected = true →
      MessageSender.Takes accepts s.connection.writes.length
        (s.connection.sendPending ++ [⟨[littleEndian payload.length, payload], some s.connection.messages⟩]))
  | .recvMessage => s.shutDown = false
  | .shutdown =>
    (s.round.retryTimer.isSome = true → s.round.onConnectCallback ≠ some .user) ∧
    (s.round.requested = true → s.transport ≠ .webSocket ∧
      (s.transport = .stream → s.round.onConnectCallback ≠ some .user))
  | _ => True

/-- Nothing the socket does in a run that meets the conditions is a fault. -/
def Never (_ : ConnectFault) : Prop := False

variable (accepts) in
/-- A round that ends without a connection is reported, and with it the receive callbacks. -/
theorem finishRound_error {onConnectCallback : ConnectCallback} (h : s.round.onConnectCallback = some onConnectCallback)
    (htimer : s.round.retryTimer = none) (err : ConnectorError) :
    ∃ round connectInvoked, s.finishRound accepts (.error err) = .ok { s with
      connecting := false
      round := round
      disconnected := true
      pendingRecvCallbacks := []
      connectInvoked := connectInvoked
      recvInvoked := s.recvInvoked ++ s.pendingRecvCallbacks.map fun callback => (callback, .error err) } ∧
      round.onConnectCallback = none ∧ round.requested = s.round.requested ∧ round.retryTimer = none ∧
      round.delays = s.round.delays ∧ round.attempts = s.round.attempts ∧
      connectInvoked.length = s.connectInvoked.length + if onConnectCallback = .user then 1 else 0 := by
  unfold finishRound
  rw [h]
  unfold onClientConnected resetConnectClient
  by_cases hc : s.connecting = true
  · rw [if_pos hc]
    cases onConnectCallback <;> exact ⟨_, _, rfl, rfl, rfl, rfl, rfl, rfl, by simp [invokeConnect]⟩
  · rw [if_neg hc]
    rw [Bool.not_eq_true] at hc
    simp only [← hc]
    cases onConnectCallback <;> exact ⟨_, _, rfl, rfl, rfl, htimer, rfl, rfl, by simp [invokeConnect]⟩

theorem perm_filled (h : Booked config s) (err : ConnectorError) :
    ([] ++ (s.recvInvoked ++ s.pendingRecvCallbacks.map fun callback =>
      (callback, (.error err : Except ConnectorError ReceivedMessage))).map Prod.fst).Perm (List.range s.recvCalls) := by
  have hmap : (s.pendingRecvCallbacks.map fun callback =>
      (callback, (.error err : Except ConnectorError ReceivedMessage))).map Prod.fst = s.pendingRecvCallbacks := by
    rw [List.map_map]
    exact List.map_id _
  rw [List.nil_append, List.map_append, hmap]
  exact List.perm_append_comm.trans h.received

variable (accepts) in
theorem Booked.giveUp (round : ConnectClient) (h : Booked config s)
    (hcallback : s.round.onConnectCallback.isSome = true)
    (hr : round.onConnectCallback = s.round.onConnectCallback) (htimer : round.retryTimer = none)
    (hdelays : round.delays = s.round.delays) (hattempts : round.attempts = s.round.attempts) (err : ConnectorError) :
    ∃ round' connectInvoked, finishRound accepts { s with round := round } (.error err) = .ok { s with
      connecting := false
      round := round'
      disconnected := true
      pendingRecvCallbacks := []
      connectInvoked := connectInvoked
      recvInvoked := s.recvInvoked ++ s.pendingRecvCallbacks.map fun callback => (callback, .error err) } ∧
      round'.onConnectCallback = none ∧ round'.requested = round.requested ∧ round'.retryTimer = none ∧
      Booked config { s with
        connecting := false
        round := round'
        disconnected := true
        pendingRecvCallbacks := []
        connectInvoked := connectInvoked
        recvInvoked := s.recvInvoked ++ s.pendingRecvCallbacks.map fun callback => (callback, .error err) } := by
  obtain ⟨onConnectCallback, hsome⟩ := Option.isSome_iff_exists.mp hcallback
  obtain ⟨round', invoked, he, hnone, hreq, htim, hdel, hatt, hlen⟩ :=
    finishRound_error accepts (s := { s with round := round }) (hr.trans hsome) htimer err
  refine ⟨round', invoked, he, hnone, hreq, htim, h.retries, ?_, ?_, h.accounted, perm_filled h err⟩
  · have hrep := h.reported
    rw [hsome] at hrep
    simp only [hnone, hlen, Option.some.injEq, reduceCtorEq, if_false] at hrep ⊢
    exact hrep
  · dsimp only
    rw [hdel, hatt]
    dsimp only
    rw [hdelays, hattempts]
    exact h.paced

theorem Sound.giveUp (round : ConnectClient) (h : Sound config s)
    (hcallback : s.round.onConnectCallback.isSome = true) (hdown : s.connection.connected = false)
    (hidle : s.connection.Idle) (hr : round.onConnectCallback = s.round.onConnectCallback)
    (hrequested : round.requested = false) (htimer : round.retryTimer = none)
    (hdelays : round.delays = s.round.delays) (hattempts : round.attempts = s.round.attempts) (err : ConnectorError) :
    Ends Never (finishRound accepts { s with round := round } (.error err)) (Sound config) := by
  obtain ⟨round', invoked, he, hnone, hreq, htim, hbooked⟩ :=
    h.booked.giveUp accepts round hcallback hr htimer hdelays hattempts err
  rw [he]
  refine ⟨hbooked, .ended rfl hnone (hreq.trans hrequested) htim, fun hc => ?_, fun hc => ?_, h.destroyed, fun _ => ?_⟩
  · cases hc
  · cases hdown.symm.trans hc
  · exact ⟨rfl, hidle⟩

variable (accepts) in
/-- Messages that were read early are handed out or kept. -/
theorem foldlM_read_messages {early : List ConnectionRead} (hup : s.connection.connected = true)
    (hmessages : ∀ read ∈ early, ∃ message, read = .message message) :
    ∃ callbacks messages invoked, early.foldlM (read accepts) s = .ok { s with
      pendingRecvCallbacks := callbacks, pendingRecvMessages := messages, recvInvoked := invoked } ∧
      (callbacks ++ invoked.map Prod.fst).Perm (s.pendingRecvCallbacks ++ s.recvInvoked.map Prod.fst) := by
  induction early generalizing s with
  | nil => exact ⟨_, _, _, rfl, .refl _⟩
  | cons read early ih =>
    obtain ⟨message, rfl⟩ := hmessages read List.mem_cons_self
    have hread : s.read accepts (.message message) = .ok (s.onMessage message) := if_pos hup
    have hrest := fun read hmem => hmessages read (List.mem_cons_of_mem _ hmem)
    rw [List.foldlM_cons, hread]
    unfold onMessage
    split
    · obtain ⟨callbacks, messages, invoked, he, hperm⟩ :=
        ih (s := { s with pendingRecvMessages := s.pendingRecvMessages ++ [message] }) hup hrest
      exact ⟨callbacks, messages, invoked, he, hperm⟩
    · next callback rest hq =>
      obtain ⟨callbacks, messages, invoked, he, hperm⟩ :=
        ih (s := { s with pendingRecvCallbacks := rest }.invokeRecv callback (.ok message)) hup hrest
      refine ⟨callbacks, messages, invoked, he, hperm.trans ?_⟩
      dsimp only [invokeRecv]
      rw [List.map_append, ← List.append_assoc, hq]
      exact List.perm_append_singleton callback _

theorem Sound.linkUp (round : ConnectClient) {early : List ConnectionRead} (h : Sound config s)
    (hcallback : s.round.onConnectCallback.isSome = true) (hcon : s.connecting = true)
    (hmessages : ∀ read ∈ early, ∃ message, read = .message message)
    (htakes : MessageSender.Takes accepts s.connection.writes.length s.connection.sendPending)
    (hr : round.onConnectCallback = s.round.onConnectCallback) (hrequested : round.requested = false)
    (hdelays : round.delays = s.round.delays) (hattempts : round.attempts = s.round.attempts) :
    Ends Never (finishRound accepts { s with round := round } (.ok early)) (Sound config) := by
  obtain ⟨onConnectCallback, hsome⟩ := Option.isSome_iff_exists.mp hcallback
  obtain ⟨hshut, hdisc, hdown⟩ := h.opening hcon
  have hopen : s.connection.destroyed = false := h.destroyed.trans hshut
  have hkept := h.booked.accounted.connect hopen hdown htakes
  have hpaced : ∃ k ≤ s.maxRetryTimes, round.delays = pace s.initRetryDelay k ∧ round.attempts ≤ k + 1 := by
    rw [hdelays, hattempts]
    exact h.booked.paced
  have hrep := h.booked.reported
  rw [hsome] at hrep
  have hnot : ¬(s.disconnected = true ∨ s.shutDown = true) := by simp [hdisc, hshut]
  unfold finishRound
  dsimp only
  rw [hr, hsome]
  unfold onClientConnected resetConnectClient
  dsimp only
  rw [if_pos hcon]
  unfold connectClient
  dsimp only
  rw [if_neg (by rw [hopen]; decide), if_neg (by rw [hdown]; decide)]
  obtain ⟨callbacks, messages, invoked, he, hperm⟩ := foldlM_read_messages accepts
    (s := { s with
      connecting := false
      round := ConnectClient.disconnect { round with onConnectCallback := none } s.transport
      connection := { s.connection with connected := true } }) rfl hmessages
  rw [he]
  have hreceived := hperm.trans h.booked.received
  cases onConnectCallback with
  | user =>
    refine ⟨⟨h.booked.retries, ?_, hpaced, hkept, hreceived⟩, .ended rfl rfl hrequested rfl, fun hc => ?_,
      fun _ => ⟨(MessageSender.processSendQueue_sendPending _).1, hdisc, hshut⟩,
      (MessageSender.processSendQueue_frame _).2.trans h.destroyed, fun hd => absurd hd hnot⟩
    · simpa [invokeConnect, ConnectClient.disconnect] using hrep
    · cases hc
  | nobody =>
    refine ⟨⟨h.booked.retries, ?_, hpaced, hkept, hreceived⟩, .ended rfl rfl hrequested rfl, fun hc => ?_,
      fun _ => ⟨(MessageSender.processSendQueue_sendPending _).1, hdisc, hshut⟩,
      (MessageSender.processSendQueue_frame _).2.trans h.destroyed, fun hd => absurd hd hnot⟩
    · simpa [invokeConnect, ConnectClient.disconnect] using hrep
    · cases hc

theorem pace_succ (initRetryDelay k : Nat) :
    pace initRetryDelay (k + 1) = pace initRetryDelay k ++ [initRetryDelay * 2 ^ (k + 1)] := by
  rw [pace, List.range_succ, List.map_append]
  rfl

theorem Sound.attemptDone (h : Sound config s) (result : AttemptResult) (hm : Meets accepts s (.attemptDone result)) :
    Ends Never (s.step accepts (.attemptDone result)) (Sound config) := by
  dsimp only [step]
  split
  case isFalse => exact h
  next hdone =>
  rcases h.phase with ⟨-, -, hreq, -⟩ | ⟨hcon, hcb, hreq, hclosed, hclient, htim, hretry, hdel, hatt⟩ |
    ⟨-, -, hreq, -⟩ | ⟨hcon, hshut, hcb, hreq, hclosed, htim⟩ | ⟨-, -, -, hreq, -⟩
  case ended => cases hreq.symm.trans hdone.1
  case delay => cases hreq.symm.trans hdone.1
  case dropped => cases hreq.symm.trans hdone.1
  case canceling =>
    cases hdone.2 hclosed
    have hdown : s.connection.connected = false := by
      refine Bool.eq_false_iff.mpr fun hc => ?_
      cases hshut.symm.trans (h.connected hc).2.2
    exact h.giveUp { s.round with requested := false } (by rw [hcb]; rfl) hdown (hm hdone.1) rfl rfl htim rfl rfl _
  case attempt =>
    obtain ⟨hopen, hlinked, hdown⟩ := h.opening hcon
    cases result with
    | canceled => exact h.giveUp { s.round with requested := false } hcb hdown (hm hdone.1) rfl rfl htim rfl rfl _
    | failed =>
      obtain ⟨hgive, hfits⟩ := hm hdone.1
      dsimp only [onConnect]
      unfold retry
      dsimp only
      split
      · next hover =>
        exact h.giveUp { s.round with requested := false, retryTimes := s.round.retryTimes + 1, client := false } hcb
          hdown (hgive (by omega)) rfl rfl htim rfl rfl _
      · next hleft =>
        obtain ⟨hshift, hword⟩ := hfits (by omega)
        rw [if_pos hshift, Nat.mod_eq_of_lt hword]
        have hdelays : s.round.delays ++ [s.initRetryDelay * 2 ^ (s.round.retryTimes + 1)] =
            pace s.initRetryDelay (s.round.retryTimes + 1) := by rw [pace_succ, hdel]
        have hmore : s.round.retryTimes + 1 ≤ s.maxRetryTimes := by omega
        have hle : s.round.attempts ≤ s.round.retryTimes + 1 + 1 := by omega
        refine ⟨⟨h.booked.retries, h.booked.reported, ⟨s.round.retryTimes + 1, hmore, hdelays, hle⟩,
          h.booked.accounted, h.booked.received⟩, ?_, h.opening, h.connected, h.destroyed, h.settled⟩
        exact .delay hcon hcb rfl rfl hmore hdelays hatt
    | connected early =>
      obtain ⟨hmessages, htakes⟩ := hm hdone.1
      dsimp only [onConnect]
      rw [if_pos hclient]
      exact h.linkUp { s.round with requested := false } hcb hcon hmessages htakes rfl rfl rfl rfl

theorem Sound.retryTimeout (h : Sound config s) : Ends Never (s.step accepts .retryTimeout) (Sound config) := by
  dsimp only [step]
  split
  case isFalse => exact h
  next hsome =>
  rcases h.phase with ⟨-, -, -, htim⟩ | ⟨-, -, -, -, -, htim, -⟩ | ⟨hcon, hcb, hreq, -, hretry, hdel, hatt⟩ |
    ⟨-, -, -, -, -, htim⟩ | ⟨-, -, -, -, htim⟩
  case delay =>
    have hatt' : s.round.attempts + 1 = s.round.retryTimes + 1 := by omega
    exact ⟨⟨h.booked.retries, h.booked.reported, ⟨s.round.retryTimes, hretry, hdel, Nat.le_of_eq hatt'⟩, h.booked.accounted,
      h.booked.received⟩, .attempt hcon hcb rfl rfl rfl rfl hretry hdel hatt', h.opening, h.connected, h.destroyed,
      h.settled⟩
  all_goals
    rw [htim] at hsome
    cases hsome

theorem Sound.message (h : Sound config s) (message : ReceivedMessage) :
    Ends Never (s.read accepts (.message message)) (Sound config) := by
  dsimp only [read]
  split
  case isFalse => exact h
  next hup =>
  obtain ⟨-, hdisc, hshut⟩ := h.connected hup
  have hnot : ¬(s.disconnected = true ∨ s.shutDown = true) := by simp [hdisc, hshut]
  unfold onMessage
  split
  · exact ⟨⟨h.booked.retries, h.booked.reported, h.booked.paced, h.booked.accounted, h.booked.received⟩,
      h.phase.congr rfl rfl rfl rfl rfl, h.opening, h.connected, h.destroyed, h.settled⟩
  · next callback callbacks hq =>
    refine ⟨⟨h.booked.retries, h.booked.reported, h.booked.paced, h.booked.accounted, ?_⟩,
      h.phase.congr rfl rfl rfl rfl rfl, h.opening, h.connected, h.destroyed, fun hd => absurd hd hnot⟩
    have hrec := h.booked.received
    rw [hq] at hrec
    dsimp only [invokeRecv]
    rw [List.map_append, ← List.append_assoc]
    exact (List.perm_append_singleton callback _).trans hrec

/-- The connection is lost: the next round reports to nobody. -/
theorem Sound.remoteDisconnect (h : Sound config s) (reason : DisconnectReason) (usable : Bool) :
    Ends Never (s.read accepts (.remoteDisconnect reason usable)) (Sound config) := by
  dsimp only [read]
  split
  case isFalse => exact h
  next hup =>
  obtain ⟨hsent, hdisc, hshut⟩ := h.connected hup
  have hopen : s.connection.destroyed = false := h.destroyed.trans hshut
  obtain ⟨connection, hinit, hidle, hdown, hgone⟩ := MessageSender.init_eq accepts hsent
  have hacc : connection.Kept := h.booked.accounted.init hopen hinit
  have hover : s.connecting = false ∧ s.round.onConnectCallback = none ∧ s.round.requested = false ∧
      s.round.retryTimer = none := by
    rcases h.phase with ⟨hcon, hcb, hreq, htim⟩ | ⟨hcon, -⟩ | ⟨hcon, -⟩ | ⟨-, hs, -⟩ | ⟨-, hs, -⟩
    · exact ⟨hcon, hcb, hreq, htim⟩
    · cases hup.symm.trans (h.opening hcon).2.2
    · cases hup.symm.trans (h.opening hcon).2.2
    · cases hshut.symm.trans hs
    · cases hshut.symm.trans hs
  obtain ⟨hcon, hcb, hreq, htim⟩ := hover
  have hfail : ∀ err, Sound config (fillPendingRecvCallbacksWithErr { s with
      connection := connection, disconnected := true } err) := by
    intro err
    refine ⟨⟨h.booked.retries, h.booked.reported, h.booked.paced, hacc, perm_filled h.booked err⟩,
      .ended hcon hcb hreq htim, fun hc => ?_, fun hc => ?_, hgone.trans h.destroyed, fun _ => ⟨rfl, hidle⟩⟩
    · cases hcon.symm.trans hc
    · cases hdown.symm.trans hc
  rw [MessageSender.disconnect, if_pos hup, hinit]
  cases reason with
  | disconnected => exact hfail .connectorSocketClosedByRemoteEnd
  | aborted =>
    dsimp only [onRemoteDisconnect]
    unfold tryConnect
    dsimp only
    rw [if_neg (by rw [hcon]; decide)]
    split
    · refine ⟨⟨h.booked.retries, ?_, ⟨0, Nat.zero_le _, rfl, Nat.le_refl 1⟩, hacc, h.booked.received⟩,
        .attempt rfl rfl rfl rfl rfl rfl (Nat.zero_le _) rfl rfl, fun _ => ⟨hshut, hdisc, hdown⟩, fun hc => ?_,
        hgone.trans h.destroyed, fun hd => ?_⟩
      · have hrep := h.booked.reported
        rw [hcb] at hrep
        exact hrep
      · cases hdown.symm.trans hc
      · exact absurd hd (by simp [hdisc, hshut])
    · exact hfail .sslContext

theorem Sound.writeDone (h : Sound config s) (index : Nat) (result : WriteResult) :
    Ends Never (s.step accepts (.writeDone index result)) (Sound config) := by
  dsimp only [step]
  obtain ⟨connection, he, hsent, hup, hgone, hwrites⟩ := MessageSender.writeDone_eq accepts s.connection index result
  have hkept : connection.Kept := ⟨h.booked.accounted.accounted.step he, by
    rw [hwrites]
    exact h.booked.accounted.taken⟩
  rw [he]
  refine ⟨⟨h.booked.retries, h.booked.reported, h.booked.paced, hkept, h.booked.received⟩,
    h.phase.congr rfl rfl rfl rfl rfl, fun hc => ?_, fun hc => ?_, hgone.trans h.destroyed, fun hd => ?_⟩
  · obtain ⟨hs, hd, hdown⟩ := h.opening hc
    exact ⟨hs, hd, hup.trans hdown⟩
  · obtain ⟨hnil, hd⟩ := h.connected (hup.symm.trans hc)
    exact ⟨hsent.trans hnil, hd⟩
  · obtain ⟨hrecv, hidle⟩ := h.settled hd
    refine ⟨hrecv, fun operation hmem => hidle operation ?_⟩
    rw [← hsent]
    exact hmem

theorem Sound.sendMessage (h : Sound config s) (payload : Bytes) (hm : Meets accepts s (.sendMessage payload)) :
    Ends Never (s.sendMessage accepts payload) (Sound config) := by
  obtain ⟨hshut, htakes⟩ := hm
  unfold ConnectingSocket.sendMessage
  split
  · exact ⟨⟨h.booked.retries, h.booked.reported, h.booked.paced, h.booked.accounted, h.booked.received⟩,
      h.phase.congr rfl rfl rfl rfl rfl, h.opening, h.connected, h.destroyed, h.settled⟩
  next hdisc =>
  have hopen : s.connection.destroyed = false := h.destroyed.trans hshut
  obtain ⟨connection, he, hkept, hup, hsent, hgone⟩ := MessageSender.sendMessage_eq h.booked.accounted hopen payload
    (htakes (Bool.eq_false_iff.mpr hdisc))
  rw [he]
  refine ⟨⟨h.booked.retries, h.booked.reported, h.booked.paced, hkept, h.booked.received⟩,
    h.phase.congr rfl rfl rfl rfl rfl, fun hc => ?_, fun hc => ?_, hgone.trans h.destroyed, fun hd => ?_⟩
  · obtain ⟨hs, hd, hdown⟩ := h.opening hc
    exact ⟨hs, hd, hup.trans hdown⟩
  · obtain ⟨-, hd⟩ := h.connected (hup.symm.trans hc)
    exact ⟨hsent (hup.symm.trans hc), hd⟩
  · rcases hd with hd | hd
    · exact absurd hd hdisc
    · cases hshut.symm.trans hd

theorem Sound.recvMessage (h : Sound config s) (hshut : s.shutDown = false) : Sound config s.recvMessage := by
  have hinvoke : ((s.pendingRecvCallbacks ++ s.recvInvoked.map Prod.fst) ++ [s.recvCalls]).Perm
      (List.range (s.recvCalls + 1)) := by
    rw [List.range_succ]
    exact h.booked.received.append_right _
  unfold ConnectingSocket.recvMessage
  dsimp only
  split
  · refine ⟨⟨h.booked.retries, h.booked.reported, h.booked.paced, h.booked.accounted, ?_⟩,
      h.phase.congr rfl rfl rfl rfl rfl, h.opening, h.connected, h.destroyed, h.settled⟩
    dsimp only [invokeRecv]
    rw [List.map_append, ← List.append_assoc]
    exact hinvoke
  split
  · refine ⟨⟨h.booked.retries, h.booked.reported, h.booked.paced, h.booked.accounted, ?_⟩,
      h.phase.congr rfl rfl rfl rfl rfl, h.opening, h.connected, h.destroyed, h.settled⟩
    dsimp only [invokeRecv]
    rw [List.map_append, ← List.append_assoc]
    exact hinvoke
  · next hdisc =>
    refine ⟨⟨h.booked.retries, h.booked.reported, h.booked.paced, h.booked.accounted, ?_⟩,
      h.phase.congr rfl rfl rfl rfl rfl, h.opening, h.connected, h.destroyed, fun hd => ?_⟩
    · refine List.Perm.trans ?_ hinvoke
      dsimp only
      rw [List.append_assoc, List.append_assoc]
      exact List.perm_append_comm.append_left _
    · rcases hd with hd | hd
      · exact absurd hd hdisc
      · cases hshut.symm.trans hd

/-- What `shutdown` does once the round is abandoned. -/
def close (s : ConnectingSocket) : ConnectingSocket :=
  { fillPendingRecvCallbacksWithErr { s with connection := s.connection.destroy } .socketStopRequested with
    pendingRecvMessages := []
    shutDown := true }

/-- The destructor of the connection reports what was not sent. -/
theorem Booked.close (h : Booked config s) (hcon : s.connecting = false) (hphase : Phase s.close) :
    Sound config s.close := by
  refine ⟨⟨h.retries, h.reported, h.paced, h.accounted.destroy, perm_filled h _⟩, hphase, fun hc => ?_, fun hc => ?_,
    rfl, fun _ => ⟨rfl, fun operation hmem => ?_⟩⟩
  · cases hcon.symm.trans hc
  · cases hc
  · cases hmem

theorem nobody_of_ne {callback : Option ConnectCallback} (h : callback.isSome = true) (hne : callback ≠ some .user) :
    callback = some .nobody := by
  cases callback with
  | none => cases h
  | some callback =>
    cases callback with
    | user => exact absurd rfl hne
    | nobody => rfl

/-- An attempt is under way: a `SecureSocket` reports its end at once, the loop that of a stream. -/
theorem Sound.abandonAttempt (h : Sound config s) (hcon : s.connecting = true)
    (hcallback : s.round.onConnectCallback.isSome = true) (hrequested : s.round.requested = true)
    (hkind : s.transport ≠ .webSocket) (hnobody : s.transport = .stream → s.round.onConnectCallback ≠ some .user) :
    Ends Never (s.abandonConnectClient accepts) fun s' => Sound config s'.close := by
  have hreset : s.resetConnectClient = { s with connecting := false, round := s.round.disconnect s.transport } :=
    if_pos hcon
  unfold abandonConnectClient
  dsimp only
  rw [hreset, hcon, hrequested]
  have hbooked : Booked config { s with connecting := false, round := s.round.disconnect s.transport } :=
    ⟨h.booked.retries, h.booked.reported, h.booked.paced, h.booked.accounted, h.booked.received⟩
  split
  · obtain ⟨round', invoked, he, hnone, hreq, htim, hgone⟩ :=
      hbooked.giveUp accepts { s.round.disconnect s.transport with requested := false } hcallback rfl rfl rfl rfl
        .socketStopRequested
    dsimp only [onConnect]
    rw [he]
    exact hgone.close rfl (.ended rfl hnone hreq htim)
  next hsecure =>
    have hstream : s.transport = .stream := by
      cases ht : s.transport with
      | stream => rfl
      | secure => exact absurd ⟨rfl, ht⟩ hsecure
      | webSocket => exact absurd ht hkind
    refine hbooked.close rfl (.canceling rfl rfl (nobody_of_ne hcallback (hnobody hstream)) hrequested ?_ rfl)
    show (s.round.requested && s.transport != .webSocket) = true
    rw [hrequested]
    simpa using hkind

theorem Sound.shutdown (h : Sound config s) (hm : Meets accepts s .shutdown) :
    Ends Never (s.shutdown accepts) (Sound config) := by
  obtain ⟨hdelay, hattempt⟩ := hm
  unfold ConnectingSocket.shutdown
  split
  case isTrue => exact h
  next hshut =>
  refine Ends.bind (P := fun s' => Sound config s'.close) ?_ fun s' (h' : Sound config s'.close) => h'
  rcases h.phase with ⟨hcon, hcb, hreq, htim⟩ | ⟨hcon, hcb, hreq, -⟩ | ⟨hcon, hcb, hreq, htim, -⟩ | ⟨-, hs, -⟩ |
    ⟨-, hs, -⟩
  case ended =>
    have hreset : s.abandonConnectClient accepts = .ok s := by
      unfold abandonConnectClient resetConnectClient
      simp [hcon]
    rw [hreset]
    exact h.booked.close hcon (.ended hcon hcb hreq htim)
  case attempt => exact h.abandonAttempt hcon hcb hreq (hattempt hreq).1 (hattempt hreq).2
  case delay =>
    have hreset : s.abandonConnectClient accepts =
        .ok { s with connecting := false, round := s.round.disconnect s.transport } := by
      unfold abandonConnectClient resetConnectClient
      simp [hcon, hreq]
    rw [hreset]
    have hbooked : Booked config { s with connecting := false, round := s.round.disconnect s.transport } :=
      ⟨h.booked.retries, h.booked.reported, h.booked.paced, h.booked.accounted, h.booked.received⟩
    exact hbooked.close rfl (.dropped rfl rfl (nobody_of_ne hcb (hdelay htim)) hreq rfl)
  case canceling => exact absurd hs hshut
  case dropped => exact absurd hs hshut

theorem Sound.step (h : Sound config s) {event : ConnectEvent} (hm : Meets accepts s event) :
    Ends Never (s.step accepts event) (Sound config) := by
  cases event with
  | attemptDone result => exact h.attemptDone result hm
  | retryTimeout => exact h.retryTimeout
  | read read =>
    dsimp only [ConnectingSocket.step]
    cases read with
    | message message => exact h.message message
    | remoteDisconnect reason usable => exact h.remoteDisconnect reason usable
  | writeDone index result => exact h.writeDone index result
  | sendMessage payload =>
    have hshut : s.shutDown = false := hm.1
    dsimp only [ConnectingSocket.step]
    rw [if_neg (by rw [hshut]; decide)]
    exact h.sendMessage payload hm
  | recvMessage =>
    have hshut : s.shutDown = false := hm
    dsimp only [ConnectingSocket.step]
    rw [if_neg (by rw [hshut]; decide)]
    exact h.recvMessage hshut
  | shutdown => exact h.shutdown hm

/-- The first round starts with a TLS context. -/
theorem Sound.connect (accepts : Nat → Bool) (config : ConnectConfig)
    (husable : config.parsed = true → config.usable = true) :
    Ends Never (connect accepts config) (Sound config) := by
  obtain ⟨connection, hnew, hidle, hdown, hgone⟩ :=
    MessageSender.init_eq accepts (c := ⟨false, config.identity, [], [], [], 0, [], false⟩) rfl
  have hacc : connection.Kept := by
    refine MessageSender.Kept.init ⟨⟨fun id => ?_, fun hd => ?_⟩, fun id => rfl⟩ rfl hnew
    · simp [MessageSender.tally, MessageSender.pendingOf, MessageSender.refusals]
    · cases hd
  unfold ConnectingSocket.connect
  rw [MessageSender.new, hnew]
  dsimp only
  split
  · next hparsed =>
    unfold tryConnect
    rw [if_neg Bool.false_ne_true, if_pos (husable hparsed)]
    refine ⟨⟨⟨rfl, rfl⟩, rfl, ⟨0, Nat.zero_le _, rfl, Nat.le_refl 1⟩, hacc, .refl _⟩,
      .attempt rfl rfl rfl rfl rfl rfl (Nat.zero_le _) rfl rfl, fun _ => ⟨rfl, rfl, hdown⟩, fun hc => ?_, hgone,
      fun hd => ?_⟩
    · cases hdown.symm.trans hc
    · rcases hd with hd | hd <;> cases hd
  · refine ⟨⟨⟨rfl, rfl⟩, rfl, ⟨0, Nat.zero_le _, rfl, Nat.zero_le _⟩, hacc.destroy, .refl _⟩, .ended rfl rfl rfl rfl,
      fun hc => ?_, fun hc => ?_, rfl, fun _ => ⟨rfl, fun operation hmem => ?_⟩⟩
    · cases hc
    · cases hc
    · cases hmem

/-- Every request is reported: the connect callback once by the end of the shutdown, the others as
soon as the socket is disconnected for good, except for the messages that are with the transport. -/
structure Reported (config : ConnectConfig) (s : ConnectingSocket) : Prop where
  atMostOnce : s.connectInvoked.length ≤ 1
  once : s.shutDown = true → s.connectInvoked.length = 1
  paced : ∃ k ≤ config.maxRetryTimes, s.round.delays = pace config.initRetryDelay k ∧ s.round.attempts ≤ k + 1
  received : s.disconnected = true ∨ s.shutDown = true →
    s.pendingRecvCallbacks = [] ∧ (s.recvInvoked.map Prod.fst).Perm (List.range s.recvCalls)
  sent : s.disconnected = true ∨ s.shutDown = true → ∀ id < s.connection.messages,
    MessageSender.pendingOf s.connection.sendPending id = 0 ∧
    s.connection.outstanding.count (some id) + (s.connection.invoked.map Prod.fst).count id = 1

theorem Sound.report (h : Sound config s) : Reported config s := by
  have hrep := h.booked.reported
  obtain ⟨k, hk, hdelays, hattempts⟩ := h.booked.paced
  refine ⟨by omega, fun hshut => ?_, ⟨k, ?_, ?_, hattempts⟩, fun hd => ?_, fun hd id hlt => ?_⟩
  · have hnot : s.round.onConnectCallback ≠ some .user := by
      rcases h.phase with ⟨-, hcb, -⟩ | ⟨hcon, -⟩ | ⟨hcon, -⟩ | ⟨-, -, hcb, -⟩ | ⟨-, -, hcb, -⟩
      · rw [hcb]
        exact fun he => by cases he
      · cases hshut.symm.trans (h.opening hcon).1
      · cases hshut.symm.trans (h.opening hcon).1
      · rw [hcb]
        exact fun he => by cases he
      · rw [hcb]
        exact fun he => by cases he
    rw [if_neg hnot] at hrep
    exact hrep
  · rw [← h.booked.retries.1]
    exact hk
  · rw [← h.booked.retries.2]
    exact hdelays
  · have hnone := (h.settled hd).1
    have hperm := h.booked.received
    rw [hnone] at hperm
    exact ⟨hnone, hperm⟩
  · have hnone := (h.settled hd).2.pendingOf id
    have hid := h.booked.accounted.accounted.once id
    rw [MessageSender.tally, if_pos hlt, hnone, h.booked.accounted.taken id] at hid
    exact ⟨hnone, by omega⟩

end ConnectingSocket

open ConnectingSocket

end Scaler.Ymq
