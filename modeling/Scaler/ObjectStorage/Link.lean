import Scaler.ObjectStorage.Framing
import Scaler.ObjectStorage.Pending

/-! The object storage server as one of its clients sees it. Messages of the client make up
requests as the server's loop puts them together; a complete request is answered at some
later time, from what the server holds then. When that is, and what other clients do to the
objects, is left open. -/

namespace Scaler.ObjectStorage

open Collections

/-- The headers as Cap'n Proto writes and reads them. -/
structure Wire where
  request : ObjectRequestHeader → ObjectPayload
  readRequest : ObjectPayload → Option ObjectRequestHeader
  response : ObjectResponseHeader → ObjectPayload
  readResponse : ObjectPayload → Option ObjectResponseHeader
  objectID : ObjectID → ObjectPayload
  readObjectID : ObjectPayload → Option ObjectID
  readRequest_request : ∀ h, (∀ value, h.requestType ≠ .unknown value) →
    readRequest (request h) = some h
  readResponse_response : ∀ h, h.payloadLength < 2 ^ 64 → readResponse (response h) = some h
  readObjectID_objectID : ∀ id, readObjectID (objectID id) = some id
  length_request : ∀ h, (request h).length = capnpHeaderSize
  length_response : ∀ h, (response h).length = capnpHeaderSize

/-- A complete request as the handlers receive it; a client does not see the index. -/
def Request.inHand (q : Request) : PendingRequest := ⟨q.client, q.header, 0⟩

/-- How the server answers a request when it holds the objects `held`, and what it holds
then; `info` is what it counts. Without an answer the request waits, or its handler threw. -/
def answerTo (wire : Wire) (held : ObjectMap) (info : ObjectPayload) (q : Request) :
    Option (Reply × ObjectMap) :=
  let header type : Reply := ⟨q.client, ⟨q.header.objectID, 0, q.header.requestID, type⟩, [], 0⟩
  match q.header.requestType with
  | .setObject =>
    if memoryLimitInBytes < q.header.payloadLength.toNat then none
    else some (header .setOK, held.set q.header.objectID q.payload)
  | .getObject => (held.get? q.header.objectID).map fun payload => (q.inHand.getReply payload, held)
  | .deleteObject =>
    some (header (if held.contains q.header.objectID then .delOK else .delNotExists),
      held.erase q.header.objectID)
  | .duplicateObjectID =>
    if q.header.payloadLength.toNat ≠ capnpObjectIDSize then none
    else do
      let original ← wire.readObjectID q.payload
      let payload ← held.get? original
      some (q.inHand.duplicateReply, held.set q.header.objectID payload)
  | .infoGetTotal =>
    let payload := info.take 24
    some (⟨q.client, ⟨q.header.objectID, payload.length, q.header.requestID, .infoGetTotalOK⟩, payload, 0⟩,
      held)
  | .unknown _ => none

section

variable {wire : Wire} {computePayloadHash : ObjectPayload → ObjectHash} {freed : ObjectHash}
  {s : Server} {d d' : ObjectMap} {info : ObjectPayload} {q : Request} {reply : Reply}

theorem sendPendingRequests_of_none {id : ObjectID} (h : s.pendingRequests.get? id = none)
    (object : Option ObjectPayload) : s.sendPendingRequests freed id object = some s := by
  unfold Server.sendPendingRequests
  cases s.pendingRequests.keys.length with
  | zero => rfl
  | succ n => simp [Server.optionallySendPendingRequests, h]

/-- The handler of the server sends this answer, unless the request waits: no digests
collide, no id is duplicated onto itself, and nobody waits for the object. -/
theorem process_answerTo (hh : Holds computePayloadHash s.objectManager d)
    (hnone : s.pendingRequests.get? q.header.objectID = none)
    (hapart : ∀ other payload, other ≠ q.header.objectID → d.get? other = some payload →
      computePayloadHash payload = computePayloadHash q.payload → payload = q.payload)
    (hself : wire.readObjectID q.payload ≠ some q.header.objectID)
    (hinfo : info = littleEndian s.objectManager.size ++ littleEndian s.objectManager.sizeUnique ++
      littleEndian s.objectManager.totalObjectsBytes)
    (he : answerTo wire d info q = some (reply, d')) (index : Nat) :
    ∃ s', s.process computePayloadHash wire.readObjectID freed index q = some s' ∧
      s'.sent = s.sent ++ [{ reply with index := index }] ∧ Holds computePayloadHash s'.objectManager d' := by
  unfold answerTo at he
  dsimp only at he
  unfold Server.process
  cases ht : q.header.requestType with
  | setObject =>
    rw [ht] at he
    dsimp only at he
    split at he
    · cases he
    · next hl =>
      obtain ⟨rfl, rfl⟩ := Prod.mk.inj (Option.some.inj he)
      obtain ⟨stored, m, hset, hm, hdiff, -⟩ := hh.setObject q.header.objectID q.payload
      have hstored : stored = q.payload := by
        by_contra hne
        obtain ⟨hhash, other, ho, hd⟩ := hdiff hne
        exact hne (hapart other stored ho hd hhash)
      subst hstored
      refine ⟨{ s with objectManager := m }.writeHeader ⟨q.client, q.header, index⟩ .setOK, ?_, rfl, hm⟩
      simp only [Server.processSetRequest, if_neg hl, hset, Option.bind_eq_bind, Option.bind_some]
      rw [sendPendingRequests_of_none (s := { s with objectManager := m }) hnone]
      rfl
  | getObject =>
    rw [ht] at he
    obtain ⟨payload, hp, hr⟩ := Option.map_eq_some_iff.mp he
    obtain ⟨rfl, rfl⟩ := Prod.mk.inj hr
    have hget := hh.get q.header.objectID
    let r : PendingRequest := ⟨q.client, q.header, index⟩
    refine ⟨s.writeMessage (r.getReply payload), ?_, rfl, hh⟩
    simp [Server.processGetRequest, Server.sendGetResponse, hget, hp, r]
  | deleteObject =>
    rw [ht] at he
    obtain ⟨rfl, rfl⟩ := Prod.mk.inj (Option.some.inj he)
    obtain ⟨m, hdel, hm⟩ := hh.deleteObject q.header.objectID
    refine ⟨{ s with objectManager := m }.writeHeader ⟨q.client, q.header, index⟩
      (if d.contains q.header.objectID then .delOK else .delNotExists), ?_, rfl, hm⟩
    simp only [Server.processDeleteRequest, hdel, Option.bind_eq_bind, Option.bind_some]
    rfl
  | duplicateObjectID =>
    rw [ht] at he
    dsimp only at he
    split at he
    · cases he
    · next hl =>
      obtain ⟨original, ho, he⟩ := Option.bind_eq_some_iff.mp he
      obtain ⟨payload, hp, he⟩ := Option.bind_eq_some_iff.mp he
      obtain ⟨rfl, rfl⟩ := Prod.mk.inj (Option.some.inj he)
      obtain ⟨m, hdup, hm⟩ := hh.duplicateObject original q.header.objectID
        (fun h => absurd (ho.trans (h ▸ rfl)) hself)
      simp only [ObjectMap.step, hp] at hm hdup
      refine ⟨{ s with objectManager := m }.sendDuplicateResponse ⟨q.client, q.header, index⟩, ?_, rfl, hm⟩
      simp only [Server.processDuplicateRequest, if_neg hl, ho, hdup, Option.bind_eq_bind, Option.bind_some]
      rw [sendPendingRequests_of_none (s := { s with objectManager := m }) hnone]
      rfl
  | infoGetTotal =>
    rw [ht] at he
    obtain ⟨rfl, rfl⟩ := Prod.mk.inj (Option.some.inj he)
    refine ⟨_, rfl, ?_, hh⟩
    subst hinfo
    simp [Server.processInfoGetTotalRequest, Server.writeMessage, List.take_of_length_le]
  | unknown value =>
    rw [ht] at he
    cases he

end

/-- The messages of a response: `writeMessage` sends no second one for an empty payload. -/
def Reply.frames (wire : Wire) (reply : Reply) : List ObjectPayload :=
  wire.response reply.header :: if reply.payload = [] then [] else [reply.payload]

/-- An answer the server gave: the request, the response, and the objects it held. -/
structure Answer where
  request : Request
  reply : Reply
  held : ObjectMap

section

variable {wire : Wire} {a : Answer}

/-- The response is what the server says to the request. -/
def Answer.Given (wire : Wire) (a : Answer) : Prop :=
  ∃ info held, answerTo wire a.held info a.request = some (a.reply, held)

theorem Answer.Given.length (ha : a.Given wire) :
    a.reply.header.payloadLength = a.reply.payload.length ∧ a.reply.payload.length < 2 ^ 64 := by
  obtain ⟨info, held, he⟩ := ha
  unfold answerTo at he
  dsimp only at he
  split at he
  · split at he
    · cases he
    · obtain ⟨hr, -⟩ := Prod.mk.inj (Option.some.inj he)
      rw [← hr]
      exact ⟨rfl, by simp⟩
  · obtain ⟨payload, -, hr⟩ := Option.map_eq_some_iff.mp he
    obtain ⟨hr, -⟩ := Prod.mk.inj hr
    have hlt := a.request.header.payloadLength.toNat_lt
    rw [← hr]
    simp only [PendingRequest.getReply, Request.inHand, List.length_take]
    refine ⟨by omega, ?_⟩
    exact Nat.lt_of_le_of_lt (Nat.le_trans (Nat.min_le_left _ _) (Nat.min_le_right _ _)) hlt
  · obtain ⟨hr, -⟩ := Prod.mk.inj (Option.some.inj he)
    rw [← hr]
    exact ⟨rfl, by simp⟩
  · split at he
    · cases he
    · obtain ⟨original, -, he⟩ := Option.bind_eq_some_iff.mp he
      obtain ⟨payload, -, he⟩ := Option.bind_eq_some_iff.mp he
      obtain ⟨hr, -⟩ := Prod.mk.inj (Option.some.inj he)
      rw [← hr]
      exact ⟨rfl, by simp [PendingRequest.duplicateReply]⟩
  · obtain ⟨hr, -⟩ := Prod.mk.inj (Option.some.inj he)
    rw [← hr]
    simp only [List.length_take]
    exact ⟨trivial, Nat.lt_of_le_of_lt (Nat.min_le_left _ _) (by decide)⟩
  · cases he

/-- A get is answered with the object, anything else with another response. -/
theorem Answer.Given.gets (ha : a.Given wire) :
    (a.reply.header.responseType = .getOK ↔ a.request.header.requestType = .getObject) ∧
      (a.request.header.requestType = .getObject → a.reply.header.objectID = a.request.header.objectID ∧
        ∃ full, a.held.get? a.request.header.objectID = some full ∧
          a.reply.payload = full.take a.request.header.payloadLength.toNat) := by
  obtain ⟨info, held, he⟩ := ha
  unfold answerTo at he
  dsimp only at he
  split at he
  · next ht =>
    split at he
    · cases he
    · obtain ⟨hr, -⟩ := Prod.mk.inj (Option.some.inj he)
      rw [← hr, ht]
      simp
  · next ht =>
    obtain ⟨payload, hheld, hr⟩ := Option.map_eq_some_iff.mp he
    obtain ⟨hr, -⟩ := Prod.mk.inj hr
    rw [← hr]
    refine ⟨iff_of_true rfl ht, fun _ => ⟨rfl, payload, hheld, ?_⟩⟩
    dsimp only [PendingRequest.getReply, Request.inHand]
    rw [List.take_eq_take_iff, Nat.min_right_comm, Nat.min_self, Nat.min_comm]
  · next ht =>
    obtain ⟨hr, -⟩ := Prod.mk.inj (Option.some.inj he)
    rw [← hr, ht]
    dsimp only
    split <;> simp
  · next ht =>
    split at he
    · cases he
    · obtain ⟨original, -, he⟩ := Option.bind_eq_some_iff.mp he
      obtain ⟨payload, -, he⟩ := Option.bind_eq_some_iff.mp he
      obtain ⟨hr, -⟩ := Prod.mk.inj (Option.some.inj he)
      rw [← hr, ht]
      simp [PendingRequest.duplicateReply]
  · next ht =>
    obtain ⟨hr, -⟩ := Prod.mk.inj (Option.some.inj he)
    rw [← hr, ht]
    simp
  · cases he

end

/-- The server's side of one client, and the messages on their way back to it. -/
structure Link where
  half : Option FullRequest
  outstanding : List Request
  held : ObjectMap
  frames : List ObjectPayload
  answers : List Answer

namespace Link

variable (wire : Wire) (l : Link)

def empty : Link := ⟨none, [], Dict.empty, [], []⟩

/-- A message of the client reaches the server. -/
def deliver (identity : Identity) (bytes : ObjectPayload) (isHeader : Bool) : Link :=
  let r := receiveOne wire.readRequest l.half ⟨identity, bytes, isHeader⟩
  { l with half := r.1, outstanding := l.outstanding ++ (r.2.map FullRequest.request).toList }

/-- The server answers the `k`th of the complete requests. -/
def answer (k : Nat) (info : ObjectPayload) : Link :=
  match l.outstanding[k]? with
  | none => l
  | some q =>
    match answerTo wire l.held info q with
    | none => l
    | some (reply, held) =>
      { l with
        outstanding := l.outstanding.eraseIdx k
        held := held
        frames := l.frames ++ reply.frames wire
        answers := l.answers ++ [⟨q, reply, l.held⟩] }

/-- Nothing of an earlier request is left. -/
structure Clean : Prop where
  half : l.half = none
  outstanding : l.outstanding = []
  frames : l.frames = []

end Link

end Scaler.ObjectStorage
