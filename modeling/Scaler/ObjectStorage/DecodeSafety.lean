import Mathlib.Data.UInt
import Scaler.ObjectStorage.Framing

/-! What the server reads while it decodes. A header is read from `capnpHeaderSize` bytes and the
source of a duplicate from `capnpObjectIDSize` bytes, whatever the length of the message: what the
message lacks comes from the memory behind it. The source is always whole, a header may not be. -/

namespace Scaler.ObjectStorage

open Collections

/-- The bytes behind a message, by their position from its first byte on. -/
abbrev Memory := Nat → UInt8

/-- The flat array of `size` bytes at `buffer.data()`. -/
def arrayAt (size : Nat) (behind : Memory) (buffer : ObjectPayload) : ObjectPayload :=
  (List.range size).map fun i => buffer.getD i (behind i)

/-- A `capnp::FlatArrayMessageReader`: what it makes of an array, unless it throws, and the positions
that it looks at. It does not leave the array that it is given. -/
structure FlatReader (α : Type) where
  read : ObjectPayload → Option α
  touched : ObjectPayload → List Nat
  touched_lt : ∀ array, ∀ i ∈ touched array, i < array.length

namespace FlatReader

variable {α : Type} (reader : FlatReader α) (size : Nat) (behind : Memory) (buffer : ObjectPayload)

/-- `fromBuffer`, with `bufferSize() = size`. -/
def fromBuffer : Option α := reader.read (arrayAt size behind buffer)

/-- The positions that `fromBuffer` reads, from `buffer.data()` on. -/
def reads : List Nat := reader.touched (arrayAt size behind buffer)

/-- What the message itself holds. -/
def ofMessage : Option α := if size ≤ buffer.length then reader.read (buffer.take size) else none

end FlatReader

/-- A message and what lies behind it in memory while it is decoded. -/
structure Arrival where
  message : Message
  behind : Memory

/-- The loop of `processRequests` between two messages. -/
structure ServerLoop where
  identityToFullRequest : Partial
  server : Server
  index : Nat

namespace ServerLoop

def initial : ServerLoop := ⟨Dict.empty, .empty, 0⟩

section

variable (computePayloadHash : ObjectPayload → ObjectHash) (freed : ObjectHash)
  (header : FlatReader ObjectRequestHeader) (objectID : FlatReader ObjectID)

/-- One message. -/
def step (l : ServerLoop) (a : Arrival) : Option ServerLoop :=
  match l.identityToFullRequest.receive (header.fromBuffer capnpHeaderSize a.behind) a.message with
  | (p, none) => some { l with identityToFullRequest := p }
  | (p, some full) => do
    let s ← l.server.process computePayloadHash (objectID.fromBuffer capnpObjectIDSize a.behind) freed l.index full.request
    some ⟨p, s, l.index + 1⟩

/-- The request that the message completes with its payload. -/
def awaited (l : ServerLoop) (message : Message) : Option FullRequest :=
  (l.identityToFullRequest.dropStale message).get? message.identity

/-- The positions that are read while the message is decoded. -/
def reads (l : ServerLoop) (a : Arrival) : List Nat :=
  match l.awaited a.message with
  | none => header.reads capnpHeaderSize a.behind a.message.bytes
  | some full =>
    if full.requestHeader.requestType = .duplicateObjectID ∧
        full.requestHeader.payloadLength.toNat = capnpObjectIDSize then
      objectID.reads capnpObjectIDSize a.behind a.message.bytes
    else []

end

/-- A run: what holds of each message in the state that it meets. -/
def Along (next : ServerLoop → Arrival → Option ServerLoop) (P : ServerLoop → Arrival → Prop) :
    ServerLoop → List Arrival → Prop
  | _, [] => True
  | l, a :: arrivals =>
    P l a ∧ match next l a with
      | some l' => Along next P l' arrivals
      | none => True

end ServerLoop

/-- The checks of the handlers, on a request whose source is read from the payload itself. -/
def Request.Accepted (objectID : FlatReader ObjectID) (request : Request) : Prop :=
  match request.header.requestType with
  | .setObject => request.header.payloadLength.toNat ≤ memoryLimitInBytes
  | .duplicateObjectID => request.header.payloadLength.toNat = capnpObjectIDSize ∧
      objectID.ofMessage capnpObjectIDSize request.payload ≠ none
  | .unknown _ => False
  | _ => True

namespace ServerLoop

variable (computePayloadHash : ObjectPayload → ObjectHash) (freed : ObjectHash)
  (header : FlatReader ObjectRequestHeader) (objectID : FlatReader ObjectID)

/-- The message is the header of a request whose payload is to come, or completes a request that
the handlers accept. -/
def Decodes (l : ServerLoop) (message : Message) : Prop :=
  match receiveOne (header.ofMessage capnpHeaderSize) (l.identityToFullRequest.get? message.identity) message with
  | (_, some full) => full.request.Accepted objectID
  | (half, none) => half ≠ none

/-- Nothing is read outside the message, and a message that is no valid request changes nothing but
the request that its own sender has under way. -/
structure Contained (l : ServerLoop) (a : Arrival) : Prop where
  inside : ∀ i ∈ l.reads header objectID a, i < a.message.bytes.length
  ignored : ¬l.Decodes header objectID a.message → ∃ l', l.step computePayloadHash freed header objectID a = some l' ∧
    l'.server.objectManager = l.server.objectManager ∧ l'.server.pendingRequests = l.server.pendingRequests ∧
    ∀ identity, identity ≠ a.message.identity →
      l'.identityToFullRequest.get? identity = l.identityToFullRequest.get? identity

/-- A message that is decoded as a header has the length of a header. -/
def WholeHeader (l : ServerLoop) (a : Arrival) : Prop :=
  l.awaited a.message = none → capnpHeaderSize ≤ a.message.bytes.length

instance (l : ServerLoop) (a : Arrival) : Decidable (l.WholeHeader a) :=
  inferInstanceAs (Decidable (_ → _))

instance decidableAlong {next : ServerLoop → Arrival → Option ServerLoop} {P : ServerLoop → Arrival → Prop}
    [∀ l a, Decidable (P l a)] : ∀ l arrivals, Decidable (Along next P l arrivals)
  | _, [] => isTrue trivial
  | l, a :: arrivals =>
    haveI : Decidable (match next l a with
        | some l' => Along next P l' arrivals
        | none => True) :=
      match next l a with
      | some l' => decidableAlong l' arrivals
      | none => isTrue trivial
    inferInstanceAs (Decidable (_ ∧ _))

end ServerLoop

section

variable {size : Nat} {behind : Memory} {buffer : ObjectPayload}

theorem length_arrayAt : (arrayAt size behind buffer).length = size := by
  rw [arrayAt, List.length_map, List.length_range]

theorem arrayAt_eq (h : size ≤ buffer.length) : arrayAt size behind buffer = buffer.take size := by
  refine List.ext_getElem ?_ fun i hi hi' => ?_
  · rw [length_arrayAt, List.length_take, Nat.min_eq_left h]
  · rw [length_arrayAt] at hi
    simp only [arrayAt, List.getElem_map, List.getElem_range, List.getElem_take, List.getD_eq_getElem?_getD,
      List.getElem?_eq_getElem (Nat.lt_of_lt_of_le hi h), Option.getD_some]

theorem FlatReader.fromBuffer_eq {α : Type} (reader : FlatReader α) (h : size ≤ buffer.length) :
    reader.fromBuffer size behind buffer = reader.ofMessage size buffer := by
  rw [FlatReader.fromBuffer, arrayAt_eq h, FlatReader.ofMessage, if_pos h]

theorem FlatReader.reads_lt {α : Type} (reader : FlatReader α) (h : size ≤ buffer.length) :
    ∀ i ∈ reader.reads size behind buffer, i < buffer.length := by
  intro i hi
  have hlt := reader.touched_lt _ i hi
  rw [length_arrayAt] at hlt
  omega

end

section

variable {header other : ObjectPayload → Option ObjectRequestHeader} {p : Partial} {message : Message}

/-- Only a message that completes no request is decoded as a header. -/
theorem Partial.receive_congr
    (h : (p.dropStale message).get? message.identity = none → header message.bytes = other message.bytes) :
    p.receive header message = p.receive other message := by
  unfold Partial.receive
  dsimp only
  cases hawaited : (p.dropStale message).get? message.identity with
  | none => rw [h hawaited]
  | some full => rfl

/-- A request that is complete has its payload, unless its type has none. -/
theorem receiveOne_payload {half : Option FullRequest} {full : FullRequest}
    (h : (receiveOne header half message).2 = some full) :
    full.requestHeader.requestType.hasPayload = false ∨
      full.request.payload.length = full.requestHeader.payloadLength.toNat := by
  unfold receiveOne at h
  split at h
  · next waiting hfilter =>
    obtain rfl := Option.some.inj h
    have hlen := (Option.filter_eq_some_iff.mp hfilter).2
    exact .inr (of_decide_eq_true hlen).symm
  · split at h
    · cases h
    · split at h
      · cases h
      · next hpayload =>
        obtain rfl := Option.some.inj h
        exact .inl (Bool.eq_false_iff.mpr hpayload)

end

/-- The handlers leave the server alone when a request is not accepted. -/
theorem Server.process_of_not_accepted {s : Server} {computePayloadHash : ObjectPayload → ObjectHash} {freed : ObjectHash}
    {objectID : FlatReader ObjectID} {behind : Memory} {index : Nat} {request : Request}
    (hpayload : request.header.requestType = .duplicateObjectID →
      request.payload.length = request.header.payloadLength.toNat) (h : ¬request.Accepted objectID) :
    s.process computePayloadHash (objectID.fromBuffer capnpObjectIDSize behind) freed index request = some s := by
  unfold Request.Accepted at h
  unfold Server.process
  cases htype : request.header.requestType with
  | setObject =>
    simp only [htype] at h ⊢
    exact if_pos (Nat.lt_of_not_le h)
  | duplicateObjectID =>
    simp only [htype] at h ⊢
    unfold Server.processDuplicateRequest
    by_cases hlen : request.header.payloadLength.toNat = capnpObjectIDSize
    · have hwhole : capnpObjectIDSize ≤ request.payload.length := by rw [hpayload htype, hlen]
      have hnone : objectID.ofMessage capnpObjectIDSize request.payload = none := by
        by_contra hsome
        exact h ⟨hlen, hsome⟩
      simp only [hlen, ne_eq, not_true_eq_false, if_false, objectID.fromBuffer_eq hwhole, hnone]
    · exact if_pos hlen
  | unknown value => rfl
  | getObject =>
    simp only [htype] at h
    exact absurd trivial h
  | deleteObject =>
    simp only [htype] at h
    exact absurd trivial h
  | infoGetTotal =>
    simp only [htype] at h
    exact absurd trivial h

namespace ServerLoop

variable {computePayloadHash : ObjectPayload → ObjectHash} {freed : ObjectHash}
  {header : FlatReader ObjectRequestHeader} {objectID : FlatReader ObjectID} {l : ServerLoop} {a : Arrival}

variable (computePayloadHash freed header objectID) in
/-- With the same bytes behind every message, the steps are the loop of the server. -/
theorem processRequests_eq_steps (behind : Memory) (l : ServerLoop) (messages : List Message) :
    Server.processRequests (header.fromBuffer capnpHeaderSize behind) computePayloadHash
        (objectID.fromBuffer capnpObjectIDSize behind) freed l.index l.identityToFullRequest l.server messages =
      (messages.foldlM (fun (l : ServerLoop) message => l.step computePayloadHash freed header objectID ⟨message, behind⟩) l).map
        ServerLoop.server := by
  induction messages generalizing l with
  | nil => rfl
  | cons message messages ih =>
    rw [Server.processRequests, List.foldlM_cons, step]
    generalize l.identityToFullRequest.receive _ message = received
    obtain ⟨p, _ | full⟩ := received
    · exact ih { l with identityToFullRequest := p }
    · dsimp only
      cases l.server.process computePayloadHash (objectID.fromBuffer capnpObjectIDSize behind) freed l.index full.request with
      | none => rfl
      | some s => exact ih ⟨p, s, l.index + 1⟩

theorem reads_lt (h : l.WholeHeader a) : ∀ i ∈ l.reads header objectID a, i < a.message.bytes.length := by
  unfold reads
  cases hawaited : l.awaited a.message with
  | none => exact header.reads_lt (h hawaited)
  | some full =>
    dsimp only
    split
    · next hsource =>
      -- the payload is as long as its header announces, or the request would have been dropped
      have hlen : full.requestHeader.payloadLength.toNat = a.message.bytes.length := by
        rw [awaited, Partial.get?_dropStale, if_pos rfl] at hawaited
        exact of_decide_eq_true (Option.filter_eq_some_iff.mp hawaited).2
      refine objectID.reads_lt ?_
      rw [← hlen, hsource.2]
    · intro i hi
      cases hi

theorem receive_eq (h : l.WholeHeader a) :
    l.identityToFullRequest.receive (header.fromBuffer capnpHeaderSize a.behind) a.message =
      l.identityToFullRequest.receive (header.ofMessage capnpHeaderSize) a.message :=
  Partial.receive_congr fun hawaited => header.fromBuffer_eq (h hawaited)

variable (computePayloadHash freed) in
theorem step_of_not_decodes (h : l.WholeHeader a) (hno : ¬l.Decodes header objectID a.message) :
    ∃ index, l.step computePayloadHash freed header objectID a =
      some ⟨(l.identityToFullRequest.receive (header.ofMessage capnpHeaderSize) a.message).1, l.server, index⟩ := by
  have hspec := (l.identityToFullRequest.receive_spec (header.ofMessage capnpHeaderSize) a.message).1
  unfold Decodes at hno
  unfold step
  rw [receive_eq h]
  generalize l.identityToFullRequest.receive (header.ofMessage capnpHeaderSize) a.message = received at hspec ⊢
  obtain ⟨p, complete⟩ := received
  obtain rfl : complete = _ := hspec
  generalize hone : receiveOne (header.ofMessage capnpHeaderSize) _ a.message = result at hno
  obtain ⟨half, _ | full⟩ := result
  · exact ⟨l.index, rfl⟩
  · have hpayload : full.request.header.requestType = .duplicateObjectID →
        full.request.payload.length = full.request.header.payloadLength.toNat := by
      intro htype
      rcases receiveOne_payload (congrArg Prod.snd hone) with hnone | hlen
      · change full.requestHeader.requestType = .duplicateObjectID at htype
        rw [htype] at hnone
        cases hnone
      · exact hlen
    refine ⟨l.index + 1, ?_⟩
    dsimp only
    rw [Server.process_of_not_accepted hpayload hno]
    rfl

/-- One message. -/
theorem WholeHeader.contained (h : l.WholeHeader a) : l.Contained computePayloadHash freed header objectID a where
  inside := reads_lt h
  ignored hno := by
    obtain ⟨index, hstep⟩ := step_of_not_decodes computePayloadHash freed h hno
    refine ⟨_, hstep, rfl, rfl, fun identity hne => ?_⟩
    rw [(l.identityToFullRequest.receive_spec _ a.message).2 identity, if_neg hne]

theorem Along.mono {next : ServerLoop → Arrival → Option ServerLoop} {P Q : ServerLoop → Arrival → Prop}
    (hstep : ∀ l a, P l a → Q l a) {arrivals : List Arrival} (h : l.Along next P arrivals) : l.Along next Q arrivals := by
  induction arrivals generalizing l with
  | nil => trivial
  | cons a arrivals ih =>
    refine ⟨hstep l a h.1, ?_⟩
    have hrest := h.2
    cases hnext : next l a with
    | none => trivial
    | some l' =>
      rw [hnext] at hrest
      exact ih hrest

/-- A run whose headers are whole reads nothing outside its messages, and what is no valid request
leaves the server alone. -/
theorem decoding_contained {arrivals : List Arrival}
    (h : initial.Along (step computePayloadHash freed header objectID) WholeHeader arrivals) :
    initial.Along (step computePayloadHash freed header objectID)
      (Contained computePayloadHash freed header objectID) arrivals :=
  Along.mono (fun _ _ hwhole => hwhole.contained) h

/-- The positions of the segment table, of the pointers and of the fields of a header. -/
def headerReader : FlatReader ObjectRequestHeader where
  read := ObjectRequestHeader.fromBuffer
  touched array := (List.range 34 ++ List.range' 40 40).filter (· < array.length)
  touched_lt _ _ hi := of_decide_eq_true (List.mem_filter.mp hi).2

def objectIDReader : FlatReader ObjectID where
  read := ObjectID.fromBuffer
  touched array := (List.range 48).filter (· < array.length)
  touched_lt _ _ hi := of_decide_eq_true (List.mem_filter.mp hi).2

/-- An object of five bytes is set, and a header of eighty zeros does not parse. -/
def wholeArrivals : List Arrival :=
  [⟨⟨"client", (exampleHeader 5 .setObject).toBuffer, true⟩, fun _ => 0⟩,
    ⟨⟨"client", [1, 2, 3, 4, 5], false⟩, fun _ => 0⟩, ⟨⟨"other", List.replicate 80 0, true⟩, fun _ => 0⟩]

theorem decoding_contained_set :
    initial.Along (step (fun _ => 0) 0 headerReader objectIDReader) WholeHeader wholeArrivals ∧
      initial.Along (step (fun _ => 0) 0 headerReader objectIDReader)
        (Contained (fun _ => 0) 0 headerReader objectIDReader) wholeArrivals := by
  have h : initial.Along (step (fun _ => 0) 0 headerReader objectIDReader) WholeHeader wholeArrivals := by
    decide +kernel
  exact ⟨h, decoding_contained h⟩

/-- A header without its last byte, in front of a byte that is not its own. -/
def cutHeader : Arrival := ⟨⟨"client", (exampleHeader 8 .getObject).toBuffer.take 79, true⟩, fun _ => 7⟩

/-- The last byte of the id is read behind the message, and a request for that id is kept. -/
theorem cut_header_escapes :
    79 ∈ initial.reads headerReader objectIDReader cutHeader ∧ cutHeader.message.bytes.length = 79 ∧
      ¬initial.Decodes headerReader objectIDReader cutHeader.message ∧
      (initial.step (fun _ => 0) 0 headerReader objectIDReader cutHeader).map
        (fun l' => (l'.server.pendingRequests.get? ⟨4, 5, 6, 7 + 7 * 2 ^ 56⟩).isSome) = some true ∧
      ¬initial.Contained (fun _ => 0) 0 headerReader objectIDReader cutHeader := by
  have hread : 79 ∈ initial.reads headerReader objectIDReader cutHeader := by decide
  have hlen : cutHeader.message.bytes.length = 79 := by decide
  refine ⟨hread, hlen, ?_, by decide +kernel, ?_⟩
  · have hone : receiveOne (headerReader.ofMessage capnpHeaderSize)
        (initial.identityToFullRequest.get? cutHeader.message.identity) cutHeader.message = (none, none) := by decide
    unfold Decodes
    rw [hone]
    exact fun h => h rfl
  · intro h
    have hlt := h.inside 79 hread
    rw [hlen] at hlt
    exact absurd hlt (Nat.lt_irrefl 79)

end ServerLoop

end Scaler.ObjectStorage
