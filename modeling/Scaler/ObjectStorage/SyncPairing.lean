import Scaler.ObjectStorage.Headers
import Scaler.ObjectStorage.SyncConnector

/-! Which response a call of the synchronous connector takes. The connector looks at neither
the object id nor the request id of a response, so a call that begins while something of an
earlier request is left may take the answer to that one. -/

namespace Scaler.ObjectStorage

open Collections

variable {wire : Wire} {identity : Identity} {c : StorageCall} {h : ObjectRequestHeader} {l l' : Link}

/-- The complete request that the call makes. -/
def StorageCall.request (wire : Wire) (c : StorageCall) (identity : Identity) (h : ObjectRequestHeader) :
    Request := ⟨identity, h, (c.payload wire).getD []⟩

/-- What the server makes of the messages of the call: its request, or, when only the second
message arrived, one without a payload. -/
def MadeBy (wire : Wire) (identity : Identity) (c : StorageCall) (h : ObjectRequestHeader)
    (q : Request) : Prop :=
  q = c.request wire identity h ∨
    (c.payload wire).isSome = true ∧ q.header.requestType.hasPayload = false

/-- A response to a request without payload is none to a call with one. -/
theorem Answer.Given.finish_error {a : Answer} (ha : a.Given wire)
    (hq : a.request.header.requestType.hasPayload = false) (hc : (c.payload wire).isSome = true)
    (payload : ObjectPayload) : c.finish a.reply.header payload = .error .unexpectedResponse := by
  obtain ⟨info, held, he⟩ := ha
  unfold answerTo at he
  dsimp only at he
  have htype : a.reply.header.responseType ≠ .setOK ∧ a.reply.header.responseType ≠ .duplicateOK := by
    split at he
    · next ht => simp [ht, ObjectRequestType.hasPayload] at hq
    · obtain ⟨payload, -, hr⟩ := Option.map_eq_some_iff.mp he
      obtain ⟨hr, -⟩ := Prod.mk.inj hr
      rw [← hr]
      simp [PendingRequest.getReply]
    · obtain ⟨hr, -⟩ := Prod.mk.inj (Option.some.inj he)
      rw [← hr]
      dsimp only
      split <;> simp
    · next ht => simp [ht, ObjectRequestType.hasPayload] at hq
    · obtain ⟨hr, -⟩ := Prod.mk.inj (Option.some.inj he)
      rw [← hr]
      simp
    · cases he
  cases c with
  | getObject id limit => simp [StorageCall.payload] at hc
  | deleteObject id => simp [StorageCall.payload] at hc
  | setObject id p =>
    cases ht : a.reply.header.responseType <;> simp_all [StorageCall.finish]
  | duplicateObjectID id new =>
    cases ht : a.reply.header.responseType <;> simp_all [StorageCall.finish]

/-- The server has the header of the running call, and nothing else of this client. -/
structure HalfSent (identity : Identity) (h : ObjectRequestHeader) (l : Link) (full : FullRequest) :
    Prop where
  half : l.half = some full
  header : full.requestHeader = h
  identity : full.header.identity = identity
  outstanding : l.outstanding = []
  frames : l.frames = []

/-- Where the request of the running call is: nowhere, half received, taken for another one,
complete, or answered. -/
inductive Stage (wire : Wire) (identity : Identity) (c : StorageCall) (h : ObjectRequestHeader)
    (l : Link) : Prop
  | gone (clean : l.Clean)
  | half (full : FullRequest) (sent : HalfSent identity h l full)
  | stray (hout : l.outstanding = []) (hframes : l.frames = [])
  | complete (q : Request) (hq : MadeBy wire identity c h q) (hhalf : l.half = none)
      (hout : l.outstanding = [q]) (hframes : l.frames = [])
  | answered (a : Answer) (ha : a ∈ l.answers) (hgiven : a.Given wire)
      (hq : MadeBy wire identity c h a.request) (hhalf : l.half = none) (hout : l.outstanding = [])
      (hframes : l.frames <+: a.reply.frames wire)

/-- The answer whose header was read. -/
structure Reading (wire : Wire) (identity : Identity) (c : StorageCall) (h : ObjectRequestHeader)
    (response : ObjectResponseHeader) (l : Link) (a : Answer) : Prop where
  mem : a ∈ l.answers
  given : a.Given wire
  made : MadeBy wire identity c h a.request
  header : response = a.reply.header
  out : l.outstanding = []
  frames : l.frames <+: [a.reply.payload]

theorem answer_of_outstanding_nil (hout : l.outstanding = []) (k : Nat) (info : ObjectPayload) :
    l.answer wire k info = l := by
  simp [Link.answer, hout]

theorem Stage.answer (hs : Stage wire identity c h l) (k : Nat) (info : ObjectPayload) :
    Stage wire identity c h (l.answer wire k info) := by
  cases hs with
  | gone clean =>
    rw [answer_of_outstanding_nil clean.outstanding]
    exact .gone clean
  | half full sent =>
    rw [answer_of_outstanding_nil sent.outstanding]
    exact .half full sent
  | stray hout hframes =>
    rw [answer_of_outstanding_nil hout]
    exact .stray hout hframes
  | answered a ha hgiven hq hhalf hout hframes =>
    rw [answer_of_outstanding_nil hout]
    exact .answered a ha hgiven hq hhalf hout hframes
  | complete q hq hhalf hout hframes =>
    unfold Link.answer
    rw [hout]
    cases k with
    | succ k => exact .complete q hq hhalf hout hframes
    | zero =>
      cases he : answerTo wire l.held info q with
      | none =>
        simp only [List.getElem?_cons_zero, he]
        exact .complete q hq hhalf hout hframes
      | some r =>
        obtain ⟨reply, held⟩ := r
        simp only [List.getElem?_cons_zero, he]
        refine .answered ⟨q, reply, l.held⟩ (by simp) ⟨info, held, he⟩ hq hhalf rfl ?_
        simp [hframes]

theorem Stage.change (hs : Stage wire identity c h l) (held : ObjectMap) :
    Stage wire identity c h { l with held := held } := by
  cases hs with
  | gone clean => exact .gone ⟨clean.half, clean.outstanding, clean.frames⟩
  | half full sent => exact .half full { sent with }
  | stray hout hframes => exact .stray hout hframes
  | answered a ha hgiven hq hhalf hout hframes => exact .answered a ha hgiven hq hhalf hout hframes
  | complete q hq hhalf hout hframes => exact .complete q hq hhalf hout hframes

theorem Stage.lose (hs : Stage wire identity c h l) (kept : Nat) :
    Stage wire identity c h { l with frames := l.frames.take kept } := by
  have hnil : l.frames = [] → l.frames.take kept = [] := fun hf => by simp [hf]
  cases hs with
  | gone clean => exact .gone ⟨clean.half, clean.outstanding, hnil clean.frames⟩
  | half full sent => exact .half full { sent with frames := hnil sent.frames }
  | stray hout hframes => exact .stray hout (hnil hframes)
  | answered a ha hgiven hq hhalf hout hframes =>
    exact .answered a ha hgiven hq hhalf hout ((List.take_prefix _ _).trans hframes)
  | complete q hq hhalf hout hframes => exact .complete q hq hhalf hout (hnil hframes)

variable (wire) in
theorem StorageCall.header_known (c : StorageCall) (requestID : UInt64) (value : UInt16) :
    (c.header wire requestID).requestType ≠ .unknown value := by
  cases c <;> simp [StorageCall.header]

variable (wire) in
theorem StorageCall.header_hasPayload (c : StorageCall) (requestID : UInt64) :
    (c.header wire requestID).requestType.hasPayload = (c.payload wire).isSome := by
  cases c <;> rfl

theorem StorageCall.header_payloadLength {payload : ObjectPayload} (hc : c.payload wire = some payload)
    (hl : payload.length < 2 ^ 64) (requestID : UInt64) :
    (c.header wire requestID).payloadLength.toNat = payload.length := by
  cases c with
  | getObject id limit => simp [StorageCall.payload] at hc
  | deleteObject id => simp [StorageCall.payload] at hc
  | setObject id p =>
    cases hc
    exact UInt64.toNat_ofNat_of_lt' hl
  | duplicateObjectID id new =>
    cases hc
    exact UInt64.toNat_ofNat_of_lt' hl

theorem deliver_header_none (hl : l.Clean) (hc : c.payload wire = none) (requestID : UInt64) :
    Stage wire identity c (c.header wire requestID)
      (l.deliver wire identity (wire.request (c.header wire requestID)) true) := by
  have hp := StorageCall.header_hasPayload wire c requestID
  rw [hc] at hp
  have hr := wire.readRequest_request _ (StorageCall.header_known wire c requestID)
  refine .complete _ (.inl rfl) ?_ ?_ hl.frames
  · simp [Link.deliver, receiveOne, hl.half, hr, hp]
  · simp [Link.deliver, receiveOne, hl.half, hl.outstanding, hr, hp, FullRequest.request,
      StorageCall.request, hc]

theorem deliver_header_some (hl : l.Clean) {payload : ObjectPayload} (hc : c.payload wire = some payload)
    (requestID : UInt64) :
    ∃ full, HalfSent identity (c.header wire requestID)
      (l.deliver wire identity (wire.request (c.header wire requestID)) true) full := by
  have hp := StorageCall.header_hasPayload wire c requestID
  rw [hc] at hp
  have hr := wire.readRequest_request _ (StorageCall.header_known wire c requestID)
  have hd : receiveOne wire.readRequest l.half ⟨identity, wire.request (c.header wire requestID), true⟩ =
      (some ⟨⟨identity, wire.request (c.header wire requestID), true⟩, c.header wire requestID, none⟩, none) := by
    simp [receiveOne, hl.half, hr, hp]
  refine ⟨⟨⟨identity, wire.request (c.header wire requestID), true⟩, c.header wire requestID, none⟩, ?_⟩
  exact ⟨by simp [Link.deliver, hd], rfl, rfl, by simp [Link.deliver, hd, hl.outstanding], hl.frames⟩

/-- The payload completes the request whose header came. -/
theorem HalfSent.deliver {full : FullRequest} (hs : HalfSent identity h l full) {payload : ObjectPayload}
    (hc : c.payload wire = some payload) (hl : h.payloadLength.toNat = payload.length) :
    Stage wire identity c h (l.deliver wire identity payload false) := by
  have hd : receiveOne wire.readRequest l.half ⟨identity, payload, false⟩ =
      (none, some { full with payload := some ⟨identity, payload, false⟩ }) := by
    simp [receiveOne, hs.half, hs.header, hl, Option.filter]
  refine .complete _ (.inl rfl) (by simp [Link.deliver, hd]) ?_ hs.frames
  simp [Link.deliver, hd, hs.outstanding, FullRequest.request, StorageCall.request, hs.header,
    hs.identity, hc]

/-- The payload came without its header, and the server takes it for one. -/
theorem deliver_payload (hl : l.Clean) {payload : ObjectPayload} (hc : c.payload wire = some payload) :
    Stage wire identity c h (l.deliver wire identity payload false) := by
  cases hr : wire.readRequest payload with
  | none =>
    refine .gone ⟨?_, ?_, hl.frames⟩
    · simp [Link.deliver, receiveOne, hl.half, hr]
    · simp [Link.deliver, receiveOne, hl.half, hr, hl.outstanding]
  | some header =>
    cases hp : header.requestType.hasPayload with
    | true =>
      refine .stray ?_ hl.frames
      simp [Link.deliver, receiveOne, hl.half, hr, hp, hl.outstanding]
    | false =>
      refine .complete ⟨identity, header, []⟩ (.inr ⟨by simp [hc], hp⟩) ?_ ?_ hl.frames
      · simp [Link.deliver, receiveOne, hl.half, hr, hp]
      · simp [Link.deliver, receiveOne, hl.half, hr, hp, hl.outstanding, FullRequest.request]

/-- A frame that the running call reads is the header of an answer to it. -/
theorem Stage.of_frames {frame : ObjectPayload} {frames : List ObjectPayload}
    (hs : Stage wire identity c h l) (hf : l.frames = frame :: frames) :
    ∃ a ∈ l.answers, a.Given wire ∧ MadeBy wire identity c h a.request ∧ l.outstanding = [] ∧
      frame = wire.response a.reply.header ∧
      frames <+: (if a.reply.payload = [] then [] else [a.reply.payload]) := by
  cases hs with
  | gone clean => simp [clean.frames] at hf
  | half full sent => simp [sent.frames] at hf
  | stray hout hframes => simp [hframes] at hf
  | complete q hq hhalf hout hframes => simp [hframes] at hf
  | answered a ha hgiven hq hhalf hout hframes =>
    rw [hf] at hframes
    obtain ⟨hframe, hrest⟩ := List.cons_prefix_cons.mp hframes
    exact ⟨a, ha, hgiven, hq, hout, hframe, hrest⟩

/-- A call that returned normally took the server's answer to its own request; what a get
returned is what the server held, cut to the limit. -/
def CallRecord.Paired (wire : Wire) (identity : Identity) (answers : List Answer) (r : CallRecord) :
    Prop :=
  ∀ result, r.outcome = .ok result → ∃ a ∈ answers, a.Given wire ∧
    a.request = r.call.request wire identity r.header ∧
    r.call.finish a.reply.header a.reply.payload = .ok result ∧
    ∀ id limit, r.call = .getObject id limit → ∃ payload,
      a.held.get? id = some payload ∧ result = .payload (payload.take limit.toNat)

theorem CallRecord.Paired.mono {answers answers' : List Answer} {r : CallRecord}
    (hr : r.Paired wire identity answers) (hsub : ∀ a ∈ answers, a ∈ answers') :
    r.Paired wire identity answers' := by
  intro result hresult
  obtain ⟨a, ha, hrest⟩ := hr result hresult
  exact ⟨a, hsub a ha, hrest⟩

theorem CallRecord.paired_error {answers : List Answer} {exn : StorageExn} :
    CallRecord.Paired wire identity answers ⟨c, h, .error exn⟩ := by
  intro result hresult
  cases hresult

/-- A get that the server answers is given what the server holds. -/
theorem Answer.Given.get {a : Answer} (ha : a.Given wire) {id : ObjectID} {limit requestID : UInt64}
    (hq : a.request = (StorageCall.getObject id limit).request wire identity
      ((StorageCall.getObject id limit).header wire requestID)) :
    ∃ payload, a.held.get? id = some payload ∧ a.reply.payload = payload.take limit.toNat := by
  obtain ⟨-, payload, hheld, hpayload⟩ := ha.gets.2 (by rw [hq]; rfl)
  rw [hq] at hheld hpayload
  exact ⟨payload, hheld, hpayload⟩

/-- The record of a call that read a whole response. -/
theorem paired_of_answer {a : Answer} {answers : List Answer} (ha : a ∈ answers) (hgiven : a.Given wire)
    {requestID : UInt64} (hq : MadeBy wire identity c (c.header wire requestID) a.request) :
    CallRecord.Paired wire identity answers
      ⟨c, c.header wire requestID, c.finish a.reply.header a.reply.payload⟩ := by
  intro result hresult
  rcases hq with hq | ⟨hc, hq⟩
  · refine ⟨a, ha, hgiven, hq, hresult, ?_⟩
    intro id limit hcall
    dsimp only at hcall hresult
    subst hcall
    obtain ⟨payload, hp, hr⟩ := hgiven.get hq
    refine ⟨payload, hp, ?_⟩
    rw [← hr]
    unfold StorageCall.finish at hresult
    split at hresult <;> simp_all
  · dsimp only at hresult
    rw [hgiven.finish_error hq hc] at hresult
    cases hresult

/-- What is known while a call is under way. -/
inductive InPhase (wire : Wire) (identity : Identity) (l : Link) : SyncPhase → Prop
  | idle : InPhase wire identity l .idle
  | sendingPayload (c : StorageCall) (requestID : UInt64) (payload : ObjectPayload)
      (hc : c.payload wire = some payload) (hlength : payload.length < 2 ^ 64)
      (hs : l.Clean ∨ ∃ full, HalfSent identity (c.header wire requestID) l full) :
      InPhase wire identity l (.sendingPayload c (c.header wire requestID) payload)
  | readingHeader (c : StorageCall) (requestID : UInt64)
      (hs : Stage wire identity c (c.header wire requestID) l) :
      InPhase wire identity l (.readingHeader c (c.header wire requestID))
  | readingPayload (c : StorageCall) (requestID : UInt64) (response : ObjectResponseHeader) (a : Answer)
      (hs : Reading wire identity c (c.header wire requestID) response l a) :
      InPhase wire identity l (.readingPayload c (c.header wire requestID) response)

theorem mem_answers_answer (l : Link) (k : Nat) (info : ObjectPayload) {a : Answer} (ha : a ∈ l.answers) :
    a ∈ (l.answer wire k info).answers := by
  unfold Link.answer
  split
  · exact ha
  · split
    · exact ha
    · exact List.mem_append_left _ ha

theorem InPhase.answer {phase : SyncPhase} (hs : InPhase wire identity l phase) (k : Nat)
    (info : ObjectPayload) : InPhase wire identity (l.answer wire k info) phase := by
  cases hs with
  | idle => exact .idle
  | readingHeader c requestID hstage => exact .readingHeader c requestID (hstage.answer k info)
  | sendingPayload c requestID payload hc hlength hstage =>
    have hout : l.outstanding = [] := by
      rcases hstage with hclean | ⟨full, hhalf⟩
      · exact hclean.outstanding
      · exact hhalf.outstanding
    rw [answer_of_outstanding_nil hout]
    exact .sendingPayload c requestID payload hc hlength hstage
  | readingPayload c requestID response a hread =>
    rw [answer_of_outstanding_nil hread.out]
    exact .readingPayload c requestID response a hread

theorem InPhase.change {phase : SyncPhase} (hs : InPhase wire identity l phase) (held : ObjectMap) :
    InPhase wire identity { l with held := held } phase := by
  cases hs with
  | idle => exact .idle
  | readingHeader c requestID hstage => exact .readingHeader c requestID (hstage.change held)
  | sendingPayload c requestID payload hc hlength hstage =>
    refine .sendingPayload c requestID payload hc hlength (hstage.imp (fun hclean => { hclean with }) ?_)
    rintro ⟨full, hhalf⟩
    exact ⟨full, { hhalf with }⟩
  | readingPayload c requestID response a hread =>
    exact .readingPayload c requestID response a { hread with }

theorem InPhase.lose {phase : SyncPhase} (hs : InPhase wire identity l phase) (kept : Nat) :
    InPhase wire identity { l with frames := l.frames.take kept } phase := by
  have hnil : l.frames = [] → l.frames.take kept = [] := fun hf => by simp [hf]
  cases hs with
  | idle => exact .idle
  | readingHeader c requestID hstage => exact .readingHeader c requestID (hstage.lose kept)
  | sendingPayload c requestID payload hc hlength hstage =>
    refine .sendingPayload c requestID payload hc hlength
      (hstage.imp (fun hclean => { hclean with frames := hnil hclean.frames }) ?_)
    rintro ⟨full, hhalf⟩
    exact ⟨full, { hhalf with frames := hnil hhalf.frames }⟩
  | readingPayload c requestID response a hread =>
    exact .readingPayload c requestID response a
      { hread with frames := (List.take_prefix _ _).trans hread.frames }

namespace SyncConnector

variable {s : SyncConnector}

def Recorded (wire : Wire) (s : SyncConnector) : Prop :=
  ∀ r ∈ s.records, r.Paired wire s.identity s.link.answers

/-- The invariant: the calls that ended are paired, and the running one is on its way. -/
structure Pairs (wire : Wire) (s : SyncConnector) : Prop where
  records : s.Recorded wire
  phase : InPhase wire s.identity s.link s.phase

theorem Recorded.finish (hs : s.Recorded wire) {outcome : Except StorageExn StorageResult}
    (hr : CallRecord.Paired wire s.identity s.link.answers ⟨c, h, outcome⟩) :
    (s.finish c h outcome).Pairs wire := by
  refine ⟨?_, .idle⟩
  intro r hmem
  rcases List.mem_append.mp hmem with hmem | hmem
  · exact hs r hmem
  · cases List.mem_singleton.mp hmem
    exact hr

theorem Recorded.finish_error (hs : s.Recorded wire) (exn : StorageExn) :
    (s.finish c h (.error exn)).Pairs wire :=
  hs.finish CallRecord.paired_error

theorem Recorded.send (hs : s.Recorded wire) (sending : Sending) (bytes : ObjectPayload) (isHeader : Bool) :
    (s.send wire sending bytes isHeader).Recorded wire := by
  unfold SyncConnector.send
  split
  · exact hs
  · exact hs

/-- Steps that touch neither the records nor the phase. -/
theorem Pairs.link (hs : s.Pairs wire) {l : Link} (hsub : ∀ a ∈ s.link.answers, a ∈ l.answers)
    (hl : InPhase wire s.identity l s.phase) : Pairs wire { s with link := l } :=
  ⟨fun r hr => (hs.records r hr).mono hsub, hl⟩

theorem Pairs.beginCall (hs : s.Pairs wire) (hl : s.link.Clean) (c : StorageCall) (sending : Sending) :
    (s.beginCall wire c sending).Pairs wire := by
  have hnext : Recorded wire { s with nextRequestId := (s.nextRequestId + 1) % (2 ^ 64 - 1) } := hs.records
  have hsent := hnext.send sending (wire.request (c.header wire (.ofNat s.nextRequestId))) true
  unfold SyncConnector.beginCall
  dsimp only
  split
  · exact hs.records.finish_error _
  · cases hc : c.payload wire with
    | some payload =>
      dsimp only
      split
      · exact hnext.finish_error _
      · next hlength =>
        split
        · exact hsent.finish_error _
        · refine ⟨hsent, .sendingPayload _ _ payload hc (by omega) ?_⟩
          unfold SyncConnector.send
          cases hd : sending.delivered with
          | true => exact .inr (deliver_header_some hl hc _)
          | false => exact .inl hl
    | none =>
      dsimp only
      split
      · exact hsent.finish_error _
      · refine ⟨hsent, .readingHeader _ _ ?_⟩
        unfold SyncConnector.send
        cases hd : sending.delivered with
        | true => exact deliver_header_none hl hc _
        | false => exact .gone hl

theorem Pairs.sendPayload (hs : s.Pairs wire) (sending : Sending) :
    (s.step wire (.sendPayload sending)).Pairs wire := by
  simp only [SyncConnector.step]
  split
  · next c header payload hphase =>
    have hsent := hs.records.send sending payload false
    have hin := hs.phase
    rw [hphase] at hin
    cases hin with
    | sendingPayload _ requestID _ hc hlength hstage =>
      split
      · exact hsent.finish_error _
      · refine ⟨hsent, .readingHeader _ _ ?_⟩
        have hlen := StorageCall.header_payloadLength hc hlength requestID
        unfold SyncConnector.send
        cases hd : sending.delivered with
        | true =>
          rcases hstage with hclean | ⟨full, hhalf⟩
          · exact deliver_payload hclean hc
          · exact hhalf.deliver hc hlen
        | false =>
          rcases hstage with hclean | ⟨full, hhalf⟩
          · exact .gone hclean
          · exact .half full hhalf
  · exact hs

theorem Pairs.receive (hs : s.Pairs wire) : (s.receive wire).Pairs wire := by
  have hin := hs.phase
  have hpopped : ∀ frames, Recorded wire { s with link := { s.link with frames := frames } } :=
    fun _ => hs.records
  unfold SyncConnector.receive
  split
  · next c header frame frames hphase hf =>
    rw [hphase] at hin
    cases hin with
    | readingHeader _ requestID hstage =>
      obtain ⟨a, ha, hgiven, hmade, hout, rfl, hrest⟩ := hstage.of_frames hf
      have hlen := hgiven.length
      rw [wire.readResponse_response _ (by rw [hlen.1]; exact hlen.2)]
      dsimp only
      split
      · next hpos =>
        have hne : a.reply.payload ≠ [] := by
          intro hnil
          simp [hlen.1, hnil] at hpos
        rw [if_neg hne] at hrest
        exact ⟨hs.records, .readingPayload _ _ _ a ⟨ha, hgiven, hmade, rfl, hout, hrest⟩⟩
      · next hpos =>
        have hnil : a.reply.payload = [] := List.eq_nil_of_length_eq_zero (by omega)
        have hrecord := paired_of_answer ha hgiven hmade
        rw [hnil] at hrecord
        exact (hpopped frames).finish hrecord
  · next c header response frame frames hphase hf =>
    rw [hphase] at hin
    cases hin with
    | readingPayload _ requestID _ a hread =>
      have hframes := hread.frames
      rw [hf] at hframes
      obtain ⟨rfl, -⟩ := List.cons_prefix_cons.mp hframes
      dsimp only
      split
      · rw [hread.header]
        exact (hpopped frames).finish (paired_of_answer hread.mem hread.given hread.made)
      · exact (hpopped frames).finish_error _
  · exact hs

/-- A call starts only when nothing of an earlier request is left. -/
def Fresh (s : SyncConnector) : SyncEvent → Prop
  | .call _ _ => s.phase = .idle → s.link.Clean
  | _ => True

theorem Pairs.step (hs : s.Pairs wire) (e : SyncEvent) (he : s.Fresh e) : (s.step wire e).Pairs wire := by
  cases e with
  | call c sending =>
    unfold SyncConnector.step
    dsimp only
    split
    · next hidle => exact hs.beginCall (he hidle) c sending
    · exact hs
  | sendPayload sending => exact hs.sendPayload sending
  | receive => exact hs.receive
  | receiveFailed =>
    unfold SyncConnector.step
    dsimp only
    split
    · exact hs.records.finish_error _
    · exact hs.records.finish_error _
    · exact hs
  | serverAnswers k info =>
    exact hs.link (fun a ha => mem_answers_answer s.link k info ha) (hs.phase.answer k info)
  | othersChange held => exact hs.link (fun a ha => ha) (hs.phase.change held)
  | lose kept => exact hs.link (fun a ha => ha) (hs.phase.lose kept)
  | destroy =>
    unfold SyncConnector.step
    dsimp only
    split
    · next hidle => exact ⟨hs.records, by rw [hidle]; exact .idle⟩
    · exact hs

end SyncConnector

open SyncConnector

/-- In every run in which no call starts while something of an earlier request is left,
every call that returns took the answer to its own request. -/
theorem sync_runs_pair (wire : Wire) (identity : Identity) (held : ObjectMap) (events : List SyncEvent)
    (hfresh : Throughout (SyncConnector.step wire) Fresh (SyncConnector.start identity held) events) :
    let s := events.foldl (SyncConnector.step wire) (SyncConnector.start identity held)
    ∀ r ∈ s.records, r.Paired wire s.identity s.link.answers := by
  intro s
  have hstart : (SyncConnector.start identity held).Pairs wire := by
    refine ⟨?_, .idle⟩
    intro r hr
    cases hr
  have hstep : ∀ (s : SyncConnector) e, s.Pairs wire → s.Fresh e → (s.step wire e).Pairs wire :=
    fun s e hs he => hs.step e he
  exact (Throughout.foldl hstep hstart hfresh).records

/-- The objects of the run below. -/
def exampleHeld : ObjectMap := (Dict.empty.set ⟨1, 0, 0, 0⟩ [10, 11, 12]).set ⟨2, 0, 0, 0⟩ [20]

/-- The header of a write is canceled before it reaches the server; it leaves nothing, and the caller goes on. -/
def exampleGoesOn : List SyncEvent :=
  [.call (.setObject ⟨2, 0, 0, 0⟩ [21]) ⟨true, false⟩, .call (.getObject ⟨1, 0, 0, 0⟩ 2) ⟨false, true⟩,
    .serverAnswers 0 [], .receive, .receive]

theorem sync_runs_pair_goes_on :
    let s := exampleGoesOn.foldl (SyncConnector.step capnpWire) (SyncConnector.start "client" exampleHeld)
    s.records.map (fun r => r.outcome.toOption) = [none, some (.payload [10, 11])] ∧
      ∀ r ∈ s.records, r.Paired capnpWire s.identity s.link.answers :=
  ⟨by decide +kernel,
    sync_runs_pair capnpWire "client" exampleHeld exampleGoesOn
      ⟨fun _ => ⟨rfl, rfl, rfl⟩, fun _ => ⟨rfl, rfl, rfl⟩, trivial, trivial, trivial, trivial⟩⟩

/-- A result as long as a request header. -/
def exampleResult : ObjectPayload := List.replicate 80 1

/-- The header of a result reaches the server, its payload is canceled, and the hand-off stores the result under
a fresh id. -/
def exampleRetry : List SyncEvent :=
  [.call (.setObject ⟨3, 0, 0, 0⟩ exampleResult) ⟨false, true⟩, .sendPayload ⟨true, false⟩,
    .call (.setObject ⟨4, 0, 0, 0⟩ exampleResult) ⟨false, true⟩, .sendPayload ⟨false, true⟩,
    .serverAnswers 0 [], .receive]

/-- The header of the retry completes the first request, whose answer the retry takes: it returns, and the
server holds nothing under its id. -/
theorem stale_set_answers_retry :
    let s := exampleRetry.foldl (SyncConnector.step capnpWire) (SyncConnector.start "client" Dict.empty)
    s.link.held.get? ⟨4, 0, 0, 0⟩ = none ∧ ¬∀ r ∈ s.records, r.Paired capnpWire s.identity s.link.answers := by
  intro s
  refine ⟨by decide +kernel, fun hpaired => ?_⟩
  have hrecords : s.records.map (fun r => (r.call, r.outcome.toOption)) =
      [(.setObject ⟨3, 0, 0, 0⟩ exampleResult, none), (.setObject ⟨4, 0, 0, 0⟩ exampleResult, some .nothing)] := by
    decide +kernel
  have hanswers : s.link.answers.map (fun a => a.request.header.objectID) = [⟨3, 0, 0, 0⟩] := by
    decide +kernel
  have hids : ∀ r ∈ s.records, r.call = .setObject ⟨4, 0, 0, 0⟩ exampleResult → r.header.objectID = ⟨4, 0, 0, 0⟩ := by
    decide +kernel
  have hmem : (StorageCall.setObject ⟨4, 0, 0, 0⟩ exampleResult, some StorageResult.nothing) ∈
      s.records.map fun r => (r.call, r.outcome.toOption) := by
    rw [hrecords]
    exact List.mem_cons_of_mem _ (List.mem_singleton_self _)
  obtain ⟨r, hr, he⟩ := List.mem_map.mp hmem
  obtain ⟨hcall, houtcome⟩ := Prod.mk.inj he
  have hok : r.outcome = .ok .nothing := by
    cases ho : r.outcome with
    | error exn => simp [ho, Except.toOption] at houtcome
    | ok result => simpa [ho, Except.toOption] using houtcome
  obtain ⟨a, ha, -, hrequest, -⟩ := hpaired r hr _ hok
  have hid : a.request.header.objectID ∈ [(⟨3, 0, 0, 0⟩ : ObjectID)] := by
    rw [← hanswers]
    exact List.mem_map_of_mem ha
  rw [List.mem_singleton, hrequest] at hid
  have hmine := hids r hr hcall
  rw [StorageCall.request, hmine] at hid
  cases hid

end Scaler.ObjectStorage
