import Scaler.Collections.Outcome
import Scaler.Openssl.SecureSocket

/-! Every byte once and in order. What OpenSSL has accepted and what is pending are together what was
written, whatever is on the stack; the callback of a write stands at the end of its bytes. -/

namespace Scaler.Openssl

open Collections

/-- All bytes of these writes, in the order of the calls. -/
def bytesOf (writes : List (List Bytes)) : Bytes := writes.flatten.flatten

/-- The rest of `failWithError` drops the queue. -/
def Frame.dropsQueue : Frame → Bool
  | .failWrites _ => true
  | _ => false

namespace SecureSocket

/-- What was accepted is the beginning of what was written. -/
def AcceptsInOrder (s : SecureSocket) : Prop := s.accepted <+: bytesOf s.writes

/-- The bytes of the write and of all writes before it had been accepted when it was reported. -/
def ReportedAfter (s : SecureSocket) (report : WriteReport) : Prop :=
  bytesOf (s.writes.take (report.write + 1)) <+: report.accepted

variable {s s' : SecureSocket} {stack : List Frame}

/-- The bytes up to the end of the write. -/
def WriteEnds (writes : List (List Bytes)) (write : Nat) (bytes : Bytes) : Prop :=
  write < writes.length ∧ bytes = bytesOf (writes.take (write + 1))

structure Ordered (s : SecureSocket) : Prop where
  bytes : s.accepted ++ s.pendingWrites.flatMap PendingWrite.payload = bytesOf s.writes ∨
    s.connectionState = .closed ∧ s.pendingWrites = [] ∧ s.AcceptsInOrder
  callbacks : MarkedAt PendingWrite.payload PendingWrite.callback (WriteEnds s.writes) s.accepted s.pendingWrites
  reports : ∀ report ∈ s.reports, report.result = .ok () → report.write < s.writes.length ∧
    (s.writes[report.write]? ≠ some [] → s.ReportedAfter report)
  -- the queue is only dropped where nothing more is written
  drops : s.stack.any Frame.dropsQueue = true → s.connectionState = .closed

/-- A step that moves no bytes, does not leave the closed state and adds nothing that drops the queue
to what was left on the stack. -/
structure Quiet (stack : List Frame) (s s' : SecureSocket) : Prop where
  pendingWrites : s'.pendingWrites = s.pendingWrites
  accepted : s'.accepted = s.accepted
  writes : s'.writes = s.writes
  reports : s'.reports = s.reports
  closed : s.connectionState = .closed → s'.connectionState = .closed
  drops : s'.stack.any Frame.dropsQueue = true → stack.any Frame.dropsQueue = true

theorem Ordered.quiet (h : Ordered s) (hstack : stack.any Frame.dropsQueue = true → s.stack.any Frame.dropsQueue = true)
    (hq : Quiet stack s s') : Ordered s' := by
  refine ⟨?_, ?_, ?_, fun hdrops => hq.closed (h.drops (hstack (hq.drops hdrops)))⟩
  · rw [AcceptsInOrder, hq.pendingWrites, hq.accepted, hq.writes]
    exact h.bytes.imp_right fun hclosed => ⟨hq.closed hclosed.1, hclosed.2⟩
  · rw [hq.pendingWrites, hq.accepted, hq.writes]
    exact h.callbacks
  · simp only [ReportedAfter, hq.reports, hq.writes]
    exact h.reports

theorem Ordered.init : Ordered init := 
  ⟨.inl rfl, trivial, fun _ hreport => absurd hreport List.not_mem_nil, fun hdrops => absurd hdrops Bool.false_ne_true⟩

theorem Ordered.reportError (h : Ordered s) (callback : Option Nat) (error : UvError) {next : List Frame}
    (hnext : next.any Frame.dropsQueue = true → s.connectionState = .closed) :
    Ordered (s.report callback (.error error) next) := by
  cases callback with
  | none => exact ⟨h.bytes, h.callbacks, h.reports, hnext⟩
  | some write =>
    refine ⟨h.bytes, h.callbacks, fun report hreport hok => ?_, hnext⟩
    rcases List.mem_append.mp hreport with hold | hnew
    · exact h.reports report hold hok
    · rw [List.mem_singleton.mp hnew] at hok
      cases hok

theorem Ordered.reportOk (h : Ordered s) {callback : Option Nat} {next : List Frame}
    (hnext : next.any Frame.dropsQueue = true → s.connectionState = .closed)
    (hends : ∀ write, callback = some write → write < s.writes.length ∧
      (s.writes[write]? ≠ some [] → bytesOf (s.writes.take (write + 1)) <+: s.accepted)) :
    Ordered (s.report callback (.ok ()) next) := by
  cases callback with
  | none => exact ⟨h.bytes, h.callbacks, h.reports, hnext⟩
  | some write =>
    refine ⟨h.bytes, h.callbacks, fun report hreport hok => ?_, hnext⟩
    rcases List.mem_append.mp hreport with hold | hnew
    · exact h.reports report hold hok
    · rw [List.mem_singleton.mp hnew]
      exact hends write rfl

theorem WriteEnds.reported {write : Nat} (h : WriteEnds s.writes write s.accepted) :
    write < s.writes.length ∧ (s.writes[write]? ≠ some [] → bytesOf (s.writes.take (write + 1)) <+: s.accepted) :=
  ⟨h.1, fun _ => h.2 ▸ List.prefix_rfl⟩

/-- The bytes that are left of the first pending write are accepted. -/
theorem Ordered.acceptAll (h : Ordered s) {pendingWrite : PendingWrite} {rest : List PendingWrite}
    (hpending : s.pendingWrites = pendingWrite :: rest) :
    Ordered { s with pendingWrites := rest, accepted := s.accepted ++ pendingWrite.payload } ∧
      ∀ write, pendingWrite.callback = some write → WriteEnds s.writes write (s.accepted ++ pendingWrite.payload) := by
  have hcallbacks := h.callbacks
  rw [hpending] at hcallbacks
  refine ⟨⟨.inl ?_, hcallbacks.2, h.reports, h.drops⟩, hcallbacks.1⟩
  rcases h.bytes with hbytes | ⟨-, hnone, -⟩
  · rwa [hpending, List.flatMap_cons, ← List.append_assoc] at hbytes
  · cases hpending.symm.trans hnone

/-- Some of the bytes are accepted, and the others stay first. -/
theorem Ordered.acceptSome (h : Ordered s) {pendingWrite : PendingWrite} {rest : List PendingWrite}
    (hpending : s.pendingWrites = pendingWrite :: rest)
    (hstack : stack.any Frame.dropsQueue = true → s.connectionState = .closed) (n : Nat) :
    Ordered
      { s with
        pendingWrites := { pendingWrite with payload := pendingWrite.payload.drop n } :: rest
        accepted := s.accepted ++ pendingWrite.payload.take n
        stack } := by
  have hcallbacks := h.callbacks
  rw [hpending] at hcallbacks
  refine ⟨.inl ?_, hcallbacks.advance rfl (List.take_append_drop n _), h.reports, hstack⟩
  rcases h.bytes with hbytes | ⟨-, hnone, -⟩
  · rw [hpending, List.flatMap_cons] at hbytes
    rw [List.flatMap_cons, List.append_assoc, ← List.append_assoc (List.take n _), List.take_append_drop, hbytes]
  · cases hpending.symm.trans hnone

theorem Ordered.writeLoop (h : Ordered s) (hstack : stack.any Frame.dropsQueue = true → s.stack.any Frame.dropsQueue = true) {ssl : SslStatus} {flush : UvResult} (hstep : s.writeLoop stack ssl flush = some s') :
    Ordered s' := by
  have hnext : (Frame.writeLoop :: stack).any Frame.dropsQueue = true → s.connectionState = .closed :=
    fun hdrops => h.drops (hstack hdrops)
  unfold SecureSocket.writeLoop at hstep
  cases hpending : s.pendingWrites with
  | nil =>
    rw [hpending] at hstep
    cases hstep
    exact h.quiet hstack ⟨hpending.symm, rfl, rfl, rfl, id, id⟩
  | cons pendingWrite rest =>
    rw [hpending] at hstep
    dsimp only at hstep
    obtain ⟨hall, hends⟩ := h.acceptAll hpending
    split at hstep
    · next hempty =>
      cases hstep
      rw [hempty, List.append_nil] at hall hends
      exact hall.reportOk hnext fun write hwrite => (hends write hwrite).reported (s := s)
    · split at hstep
      · next n =>
        split at hstep
        · split at hstep
          · next hn =>
            cases hstep
            rw [List.take_of_length_le hn]
            exact hall.reportOk hnext fun write hwrite => ⟨(hends write hwrite).1, fun _ => (hends write hwrite).2 ▸ List.prefix_rfl⟩
          · cases hstep
            exact h.acceptSome hpending hnext n
        · cases hstep
      · cases hstep
        exact h.quiet hstack ⟨hpending.symm, rfl, rfl, rfl, id, id⟩
      · split at hstep
        · cases hstep
          exact h.quiet hstack ⟨hpending.symm, rfl, rfl, rfl, id, id⟩
        · cases hstep
          exact h.quiet hstack ⟨rfl, rfl, rfl, rfl, id, id⟩
      · cases hstep
        exact h.quiet hstack ⟨rfl, rfl, rfl, rfl, id, id⟩

theorem quiet_tryFinishHandshake {ssl : SslStatus} {flush : UvResult}
    (hstep : s.tryFinishHandshake stack ssl flush = some s') : Quiet stack s s' := by
  unfold SecureSocket.tryFinishHandshake at hstep
  split at hstep
  · next hassert =>
    cases flush with
    | error error =>
      cases hstep
      exact ⟨rfl, rfl, rfl, rfl, id, id⟩
    | ok _ =>
      cases ssl with
      | status n =>
        dsimp only at hstep
        split at hstep
        · cases hstep
          refine ⟨rfl, rfl, rfl, rfl, fun hclosed => ?_, id⟩
          rw [hclosed] at hassert
          cases hassert.1
        · cases hstep
      | wantRead =>
        cases hstep
        exact ⟨rfl, rfl, rfl, rfl, id, id⟩
      | wantWrite =>
        cases hstep
        exact ⟨rfl, rfl, rfl, rfl, id, id⟩
      | zeroReturn =>
        cases hstep
        exact ⟨rfl, rfl, rfl, rfl, id, id⟩
      | failed =>
        cases hstep
        exact ⟨rfl, rfl, rfl, rfl, id, id⟩
  · cases hstep

theorem quiet_tryFinishShutdown {ssl : SslStatus} {flush transport : UvResult}
    (hstep : s.tryFinishShutdown stack ssl flush transport = some s') : Quiet stack s s' := by
  unfold SecureSocket.tryFinishShutdown at hstep
  split at hstep
  · cases flush with
    | error error =>
      cases hstep
      exact ⟨rfl, rfl, rfl, rfl, id, id⟩
    | ok _ =>
      cases ssl with
      | status n =>
        dsimp only at hstep
        split at hstep
        · cases hstep
          exact ⟨rfl, rfl, rfl, rfl, id, id⟩
        · split at hstep
          · cases transport with
            | ok _ =>
              cases hstep
              exact ⟨rfl, rfl, rfl, rfl, id, id⟩
            | error error =>
              cases hstep
              exact ⟨rfl, rfl, rfl, rfl, id, id⟩
          · cases hstep
      | wantRead =>
        cases hstep
        exact ⟨rfl, rfl, rfl, rfl, id, id⟩
      | wantWrite =>
        cases hstep
        exact ⟨rfl, rfl, rfl, rfl, id, id⟩
      | zeroReturn =>
        cases hstep
        exact ⟨rfl, rfl, rfl, rfl, id, id⟩
      | failed =>
        cases hstep
        exact ⟨rfl, rfl, rfl, rfl, id, id⟩
  · cases hstep

theorem quiet_flushToApplication (s : SecureSocket) (stack : List Frame) (isClosing : Bool) (ssl : SslStatus) :
    Quiet stack s (s.flushToApplication stack isClosing ssl) := by
  unfold SecureSocket.flushToApplication
  split
  · cases ssl with
    | status n =>
      dsimp only
      split
      · exact ⟨rfl, rfl, rfl, rfl, id, id⟩
      · exact ⟨rfl, rfl, rfl, rfl, id, id⟩
    | wantRead => exact ⟨rfl, rfl, rfl, rfl, id, id⟩
    | wantWrite => exact ⟨rfl, rfl, rfl, rfl, id, id⟩
    | zeroReturn =>
      dsimp only
      split
      · exact ⟨rfl, rfl, rfl, rfl, id, id⟩
      · exact ⟨rfl, rfl, rfl, rfl, id, id⟩
    | failed => exact ⟨rfl, rfl, rfl, rfl, id, id⟩
  · exact ⟨rfl, rfl, rfl, rfl, id, id⟩

/-- The queue of a closed socket is dropped, and what was accepted stays a beginning. -/
theorem Ordered.failWrites (h : Ordered s) (hclosed : s.connectionState = .closed) :
    Ordered { s with pendingWrites := [], stack } := by
  refine ⟨.inr ⟨hclosed, rfl, ?_⟩, trivial, h.reports, fun _ => hclosed⟩
  rcases h.bytes with hbytes | ⟨-, -, hprefix⟩
  · exact ⟨_, hbytes⟩
  · exact hprefix

theorem Ordered.advance {frame : Frame} (hs : s.stack = frame :: stack) (h : Ordered s) {ssl : SslStatus}
    {flush transport : UvResult} (hstep : s.advance stack frame ssl flush transport = some s') : Ordered s' := by
  have hstack : stack.any Frame.dropsQueue = true → s.stack.any Frame.dropsQueue = true := by
    intro hdrops
    rw [hs, List.any_cons, hdrops, Bool.or_true]
  have hclosed : stack.any Frame.dropsQueue = true → s.connectionState = .closed := fun hdrops => h.drops (hstack hdrops)
  unfold SecureSocket.advance at hstep
  cases frame with
  | callback => cases hstep
  | returned result =>
    cases hstep
    exact h.quiet hstack ⟨rfl, rfl, rfl, rfl, id, id⟩
  | processPendingWrites =>
    dsimp only at hstep
    split at hstep
    · cases hstep
      exact h.quiet hstack ⟨rfl, rfl, rfl, rfl, id, id⟩
    · cases hstep
      exact h.quiet hstack ⟨rfl, rfl, rfl, rfl, id, id⟩
  | writeLoop => exact h.writeLoop hstack hstep
  | flushWrites =>
    cases flush with
    | error error =>
      cases hstep
      exact h.quiet hstack ⟨rfl, rfl, rfl, rfl, id, id⟩
    | ok _ =>
      dsimp only at hstep
      split at hstep
      · cases hstep
        exact h.quiet hstack ⟨rfl, rfl, rfl, rfl, id, id⟩
      · cases hstep
        exact h.quiet hstack ⟨rfl, rfl, rfl, rfl, id, id⟩
  | tryFinishHandshake => exact h.quiet hstack (quiet_tryFinishHandshake hstep)
  | handshakeReported =>
    cases hstep
    exact h.quiet hstack ⟨rfl, rfl, rfl, rfl, id, id⟩
  | handshakeFlushed =>
    dsimp only at hstep
    split at hstep
    · cases hstep
      exact h.quiet hstack ⟨rfl, rfl, rfl, rfl, id, id⟩
    · cases hstep
      exact h.quiet hstack ⟨rfl, rfl, rfl, rfl, id, id⟩
  | tryFinishShutdown => exact h.quiet hstack (quiet_tryFinishShutdown hstep)
  | shutdownReported =>
    cases hstep
    exact h.quiet hstack ⟨rfl, rfl, rfl, rfl, id, id⟩
  | flushToApplication isClosing =>
    cases hstep
    exact h.quiet hstack (quiet_flushToApplication s stack isClosing ssl)
  | endReported =>
    cases hstep
    exact h.quiet hstack ⟨rfl, rfl, rfl, rfl, id, id⟩
  | onTransportRead =>
    dsimp only at hstep
    split at hstep
    · cases hstep
      exact h.quiet hstack ⟨rfl, rfl, rfl, rfl, id, id⟩
    · split at hstep
      · cases hstep
        exact h.quiet hstack ⟨rfl, rfl, rfl, rfl, id, id⟩
      · cases hstep
        exact h.quiet hstack ⟨rfl, rfl, rfl, rfl, id, id⟩
      · cases hstep
        exact h.quiet hstack ⟨rfl, rfl, rfl, rfl, id, id⟩
      · cases hstep
        exact h.quiet hstack ⟨rfl, rfl, rfl, rfl, id, id⟩
      · cases hstep
  | failWithError error =>
    -- the socket is closed before the queue is dropped
    have hfailed : Ordered { s with connectionState := .closed } :=
      ⟨h.bytes.imp_right fun hdropped => ⟨rfl, hdropped.2⟩, h.callbacks, h.reports, fun _ => rfl⟩
    dsimp only at hstep
    split at hstep
    · cases hstep
      exact ⟨hfailed.bytes, hfailed.callbacks, hfailed.reports, fun _ => rfl⟩
    · cases hstep
      exact ⟨hfailed.bytes, hfailed.callbacks, hfailed.reports, fun _ => rfl⟩
  | failWrites error =>
    cases hstep
    refine h.failWrites (h.drops ?_)
    rw [hs]
    rfl
  | failEach error writes =>
    cases writes with
    | nil =>
      cases hstep
      exact h.quiet hstack ⟨rfl, rfl, rfl, rfl, id, id⟩
    | cons pendingWrite rest =>
      cases hstep
      exact h.reportError pendingWrite.callback error hclosed
  | failHandshake error =>
    dsimp only at hstep
    split at hstep
    · cases hstep
      exact h.quiet hstack ⟨rfl, rfl, rfl, rfl, id, id⟩
    · cases hstep
      exact h.quiet hstack ⟨rfl, rfl, rfl, rfl, id, id⟩
  | failShutdown error =>
    dsimp only at hstep
    split at hstep
    · cases hstep
      exact h.quiet hstack ⟨rfl, rfl, rfl, rfl, id, id⟩
    · cases hstep
      exact h.quiet hstack ⟨rfl, rfl, rfl, rfl, id, id⟩

theorem flatMap_pendingOf (callback : Nat) (buffers : List Bytes) :
    (pendingOf callback buffers).flatMap PendingWrite.payload = buffers.flatten := by
  induction buffers with
  | nil => rfl
  | cons buffer buffers ih =>
    cases buffers with
    | nil => rfl
    | cons next buffers => exact congrArg (buffer ++ ·) ih

theorem markedAt_pendingOf {P : Nat → Bytes → Prop} {callback : Nat} {buffers : List Bytes} {sent : Bytes}
    (h : P callback (sent ++ buffers.flatten)) :
    MarkedAt PendingWrite.payload PendingWrite.callback P sent (pendingOf callback buffers) := by
  induction buffers generalizing sent with
  | nil => trivial
  | cons buffer buffers ih =>
    cases buffers with
    | nil =>
      refine ⟨fun m hm => ?_, trivial⟩
      rw [← Option.some.inj hm]
      simpa using h
    | cons next buffers =>
      refine ⟨fun m hm => absurd hm nofun, ih ?_⟩
      rwa [List.append_assoc, ← List.flatten_cons]

theorem bytesOf_append (writes : List (List Bytes)) (buffers : List Bytes) :
    bytesOf (writes ++ [buffers]) = bytesOf writes ++ buffers.flatten := by
  simp [bytesOf]

/-- What a later write does not change. -/
theorem reported_of_earlier {writes : List (List Bytes)} {write : Nat} (hwrite : write < writes.length) (buffers : List Bytes) :
    (writes ++ [buffers])[write]? = writes[write]? ∧ (writes ++ [buffers]).take (write + 1) = writes.take (write + 1) :=
  ⟨List.getElem?_append_left hwrite, List.take_append_of_le_length hwrite⟩

/-- The queue with the buffers of a write at its end. -/
theorem Ordered.queue (h : Ordered s) (hopen : s.connectionState ≠ .closed) (buffers : List Bytes) {next : List Frame}
    (hnext : next.any Frame.dropsQueue = true → s.connectionState = .closed) :
    Ordered
      { s with
        writes := s.writes ++ [buffers]
        pendingWrites := s.pendingWrites ++ pendingOf s.writes.length buffers
        stack := next } := by
  have hbytes : s.accepted ++ s.pendingWrites.flatMap PendingWrite.payload = bytesOf s.writes :=
    h.bytes.resolve_right fun hdropped => hopen hdropped.1
  refine ⟨.inl ?_, ?_, ?_, hnext⟩
  · rw [bytesOf_append, List.flatMap_append, flatMap_pendingOf, ← List.append_assoc, hbytes]
  · refine markedAt_append.mpr ⟨h.callbacks.mono fun write bytes hends => ?_, markedAt_pendingOf ?_⟩
    · obtain ⟨hwrite, hends⟩ := hends
      refine ⟨?_, ?_⟩
      · rw [List.length_append]
        exact Nat.lt_add_right _ hwrite
      · rw [hends, (reported_of_earlier hwrite buffers).2]
    · refine ⟨by simp, ?_⟩
      rw [hbytes, List.take_of_length_le (by simp), bytesOf_append]
  · intro report hreport hok
    obtain ⟨hwrite, hafter⟩ := h.reports report hreport hok
    obtain ⟨hget, htake⟩ := reported_of_earlier hwrite buffers
    rw [ReportedAfter, hget, htake, List.length_append]
    exact ⟨Nat.lt_add_right _ hwrite, hafter⟩

theorem Ordered.write (h : Ordered s) (buffers : List Bytes) : Ordered (s.write buffers) := by
  unfold SecureSocket.write
  split
  · exact h.quiet id ⟨rfl, rfl, rfl, rfl, id, id⟩
  · next hopen =>
    have hne : s.connectionState ≠ .closed := fun hclosed => hopen (.inr hclosed)
    dsimp only
    split
    · next hempty =>
      -- a write without buffers is reported at once
      subst hempty
      have hcalled := h.queue hne [] h.drops
      rw [pendingOf, List.append_nil] at hcalled
      refine hcalled.reportOk h.drops fun write hwrite => ?_
      obtain rfl := Option.some.inj hwrite
      refine ⟨by simp, fun hbuffers => absurd ?_ hbuffers⟩
      exact List.getElem?_concat_length
    · exact h.queue hne buffers h.drops

theorem Ordered.startHandshake (h : Ordered s) (hopen : s.connectionState ≠ .closed) (readStart : UvResult) :
    Ordered (s.startHandshake s.stack readStart) := by
  unfold SecureSocket.startHandshake
  cases readStart with
  | error error => exact h.quiet id ⟨rfl, rfl, rfl, rfl, fun hclosed => absurd hclosed hopen, id⟩
  | ok _ => exact h.quiet id ⟨rfl, rfl, rfl, rfl, fun hclosed => absurd hclosed hopen, id⟩

theorem Ordered.call (h : Ordered s) (call : UserCall) : Ordered (s.call call) := by
  unfold SecureSocket.call
  cases call with
  | connect transport =>
    dsimp only
    split
    · exact h.quiet id ⟨rfl, rfl, rfl, rfl, id, id⟩
    · next hfirst =>
      have hopen : s.connectionState ≠ .closed := fun hclosed => hfirst (hclosed ▸ nofun)
      cases transport with
      | error error => exact h.quiet id ⟨rfl, rfl, rfl, rfl, fun hclosed => absurd hclosed hopen, id⟩
      | ok _ => exact h.quiet id ⟨rfl, rfl, rfl, rfl, fun hclosed => absurd hclosed hopen, id⟩
  | accept readStart =>
    dsimp only
    split
    · exact h.quiet id ⟨rfl, rfl, rfl, rfl, id, id⟩
    · next hfirst =>
      have hopen : s.connectionState ≠ .closed := fun hclosed => hfirst (hclosed ▸ nofun)
      have haccept : Ordered { s with onHandshakeCallback := true } := h.quiet id ⟨rfl, rfl, rfl, rfl, id, id⟩
      exact haccept.startHandshake hopen readStart
  | readStart =>
    dsimp only
    split
    · exact h.quiet id ⟨rfl, rfl, rfl, rfl, id, id⟩
    · exact h.quiet id ⟨rfl, rfl, rfl, rfl, id, id⟩
  | readStop => exact h.quiet id ⟨rfl, rfl, rfl, rfl, id, id⟩
  | write buffers => exact h.write buffers
  | shutdown =>
    dsimp only
    split
    · exact h.quiet id ⟨rfl, rfl, rfl, rfl, id, id⟩
    · next hopen => exact h.quiet id ⟨rfl, rfl, rfl, rfl, fun hclosed => absurd (.inr hclosed) hopen, id⟩
  | closeReset transport =>
    dsimp only
    split
    · exact h.quiet id ⟨rfl, rfl, rfl, rfl, id, id⟩
    · exact h.quiet id ⟨rfl, rfl, rfl, rfl, id, id⟩
  | destroy =>
    dsimp only
    split
    · exact h
    · exact h.quiet id ⟨rfl, rfl, rfl, rfl, id, id⟩

theorem Ordered.onTransport (h : Ordered s) {event : TransportEvent} (hstep : s.onTransport event = some s') : Ordered s' := by
  unfold SecureSocket.onTransport at hstep
  cases event with
  | connected result readStart =>
    dsimp only at hstep
    split at hstep
    · next hassert =>
      cases result with
      | error error =>
        cases hstep
        exact h.quiet id ⟨rfl, rfl, rfl, rfl, id, id⟩
      | ok _ =>
        cases hstep
        refine h.startHandshake (fun hclosed => ?_) readStart
        rw [hclosed] at hassert
        cases hassert.1
    · cases hstep
  | read result =>
    cases result with
    | error error =>
      cases hstep
      exact h.quiet id ⟨rfl, rfl, rfl, rfl, id, id⟩
    | ok _ =>
      cases hstep
      exact h.quiet id ⟨rfl, rfl, rfl, rfl, id, id⟩
  | shutdown =>
    dsimp only at hstep
    split at hstep
    · cases hstep
    · split at hstep
      · cases hstep
        exact h.quiet id ⟨rfl, rfl, rfl, rfl, fun _ => rfl, id⟩
      · cases hstep
        exact h.quiet id ⟨rfl, rfl, rfl, rfl, fun _ => rfl, id⟩

theorem Ordered.step (h : Ordered s) {event : SocketEvent} (hstep : s.step event = some s') : Ordered s' := by
  unfold SecureSocket.step at hstep
  cases event with
  | call call =>
    dsimp only at hstep
    split at hstep
    · cases hstep
      exact h.call call
    · cases hstep
  | callbackReturns =>
    dsimp only at hstep
    split at hstep
    · next stack hs =>
      cases hstep
      refine ⟨h.bytes, h.callbacks, h.reports, fun hdrops => h.drops ?_⟩
      rw [hs]
      exact hdrops
    · cases hstep
  | transport event =>
    dsimp only at hstep
    split at hstep
    · exact h.onTransport hstep
    · cases hstep
  | advance ssl flush transport =>
    dsimp only at hstep
    split at hstep
    · cases hstep
    · next frame stack hs => exact h.advance hs hstep

theorem ordered_of_run {events : List SocketEvent} (hrun : run events = some s) : Ordered s :=
  foldlM_some (fun _ _ _ h hstep => h.step hstep) .init hrun

/-- In every state of every run, OpenSSL has accepted a beginning of what was written, and a write
with at least one buffer was reported as done after all bytes up to its end. -/
theorem sends_in_order (events : List SocketEvent) {s : SecureSocket} (hrun : run events = some s) :
    s.AcceptsInOrder ∧ ∀ report ∈ s.reports, report.result = .ok () → s.writes[report.write]? ≠ some [] →
      s.ReportedAfter report := by
  have h := ordered_of_run hrun
  refine ⟨?_, fun report hreport hok hbuffers => (h.reports report hreport hok).2 hbuffers⟩
  rcases h.bytes with hbytes | ⟨-, -, hprefix⟩
  · exact ⟨_, hbytes⟩
  · exact hprefix

/-- Two buffers and an empty one are written before the handshake and accepted in three parts. -/
def partialWrites : List SocketEvent :=
  [.call (.write [[97, 98], [], [99]]), .advance .wantRead (.ok ()) (.ok ()), .call (.accept (.ok ())),
    .advance (.status 1) (.ok ()) (.ok ()), .callbackReturns, .advance .wantRead (.ok ()) (.ok ()),
    .advance .wantRead (.ok ()) (.ok ()), .advance .wantRead (.ok ()) (.ok ()), .advance .wantRead (.ok ()) (.ok ()),
    .advance (.status 1) (.ok ()) (.ok ()), .advance .wantWrite (.ok ()) (.ok ()), .advance (.status 1) (.ok ()) (.ok ()),
    .advance .wantRead (.ok ()) (.ok ()), .advance (.status 1) (.ok ()) (.ok ())]

theorem sends_in_order_partialWrites :
    ∃ s, run partialWrites = some s ∧ (s.accepted = [97, 98, 99] ∧ s.reports.map WriteReport.write = [0]) ∧
      s.AcceptsInOrder ∧ ∀ report ∈ s.reports, report.result = .ok () → s.writes[report.write]? ≠ some [] →
        s.ReportedAfter report := by
  refine ⟨_, rfl, ⟨rfl, rfl⟩, ?_⟩
  exact sends_in_order partialWrites rfl

/-- A write waits for the handshake, and a write without buffers is reported at once. -/
theorem empty_write_overtakes :
    ¬∀ events s, run events = some s →
      s.AcceptsInOrder ∧ ∀ report ∈ s.reports, report.result = .ok () → s.ReportedAfter report := by
  intro h
  have hreport := (h [.call (.write [[97]]), .advance .wantRead (.ok ()) (.ok ()), .call (.write [])] _ rfl).2
    ⟨1, .ok (), []⟩ List.mem_cons_self rfl
  have hprefix : ¬([97] : Bytes) <+: [] := by decide
  exact hprefix hreport

end SecureSocket

end Scaler.Openssl
