import Scaler.ObjectStorage.Server

/-! How the server puts requests together from the messages of its clients, when
connections may break between a header and its payload. -/

namespace Scaler.ObjectStorage

open Collections

section

variable {headerFromBuffer : ObjectPayload → Option ObjectRequestHeader}

/-- The messages of one request. -/
structure Transfer (headerFromBuffer : ObjectPayload → Option ObjectRequestHeader) where
  header : ObjectPayload
  requestHeader : ObjectRequestHeader
  payload : ObjectPayload
  parsed : headerFromBuffer header = some requestHeader
  size : header.length = capnpHeaderSize
  announced : requestHeader.requestType.hasPayload = true →
    payload.length = requestHeader.payloadLength.toNat

namespace Transfer

variable (t : Transfer headerFromBuffer) (identity : Identity)

def headerMessage : Message := ⟨identity, t.header, true⟩

def payloadMessage : Option Message :=
  if t.requestHeader.requestType.hasPayload then some ⟨identity, t.payload, false⟩ else none

def messages : List Message := t.headerMessage identity :: (t.payloadMessage identity).toList

/-- The request with its own header and payload. -/
def full : FullRequest := ⟨t.headerMessage identity, t.requestHeader, t.payloadMessage identity⟩

/-- The request while its payload has not come. -/
def half : FullRequest := ⟨t.headerMessage identity, t.requestHeader, none⟩

end Transfer

/-- What arrives on a connection: requests, and perhaps the header of one whose payload
does not come. -/
structure Connection (headerFromBuffer : ObjectPayload → Option ObjectRequestHeader) where
  transfers : List (Transfer headerFromBuffer)
  abandoned : Option (Transfer headerFromBuffer)
  cut : ∀ t ∈ abandoned, t.requestHeader.requestType.hasPayload = true

namespace Connection

variable (c : Connection headerFromBuffer) (identity : Identity)

def messages : List Message :=
  c.transfers.flatMap (·.messages identity) ++ (c.abandoned.map (·.headerMessage identity)).toList

/-- The request that is cut off announced as many bytes as a header has. -/
def AnnouncesHeader : Prop :=
  ∃ t ∈ c.abandoned, t.requestHeader.payloadLength.toNat = capnpHeaderSize

end Connection

/-- The request of one identity that misses its payload, and the one that its next message
completes. -/
def receiveOne (headerFromBuffer : ObjectPayload → Option ObjectRequestHeader)
    (half : Option FullRequest) (message : Message) : Option FullRequest × Option FullRequest :=
  match half.filter (fun full => full.requestHeader.payloadLength.toNat = message.bytes.length) with
  | some full => (none, some { full with payload := some message })
  | none =>
    match headerFromBuffer message.bytes with
    | none => (none, none)
    | some requestHeader =>
      if requestHeader.requestType.hasPayload then (some ⟨message, requestHeader, none⟩, none)
      else (none, some ⟨message, requestHeader, none⟩)

def receiveEach (headerFromBuffer : ObjectPayload → Option ObjectRequestHeader) :
    Option FullRequest → List Message → List FullRequest
  | _, [] => []
  | half, message :: messages =>
    (receiveOne headerFromBuffer half message).2.toList ++
      receiveEach headerFromBuffer (receiveOne headerFromBuffer half message).1 messages

variable {p : Partial} {message : Message} {identity : Identity}

theorem Partial.get?_dropStale (p : Partial) (message : Message) (identity : Identity) :
    (p.dropStale message).get? identity =
      if identity = message.identity then (p.get? identity).filter
        (fun full => full.requestHeader.payloadLength.toNat = message.bytes.length)
      else p.get? identity := by
  unfold Partial.dropStale
  cases hp : p.get? message.identity with
  | none =>
    by_cases hi : identity = message.identity
    · subst hi
      simp [hp]
    · simp [hi]
  | some full =>
    by_cases hi : identity = message.identity
    · subst hi
      by_cases hl : full.requestHeader.payloadLength.toNat = message.bytes.length
      · simp [hl, hp, Option.filter]
      · simp [hl, hp, Option.filter]
    · rw [if_neg hi]
      dsimp only
      split
      · exact Dict.get?_erase_ne _ hi
      · rfl

variable (headerFromBuffer) in
theorem Partial.receive_spec (p : Partial) (message : Message) :
    (p.receive headerFromBuffer message).2 =
      (receiveOne headerFromBuffer (p.get? message.identity) message).2 ∧
    ∀ identity, (p.receive headerFromBuffer message).1.get? identity =
      if identity = message.identity then
        (receiveOne headerFromBuffer (p.get? message.identity) message).1
      else p.get? identity := by
  have hother : ∀ {identity}, identity ≠ message.identity →
      (p.dropStale message).get? identity = p.get? identity := by
    intro identity hi
    rw [get?_dropStale, if_neg hi]
  have hown : (p.dropStale message).get? message.identity = (p.get? message.identity).filter
      (fun full => full.requestHeader.payloadLength.toNat = message.bytes.length) := by
    rw [get?_dropStale, if_pos rfl]
  unfold Partial.receive receiveOne
  rw [← hown]
  dsimp only
  cases hp : (p.dropStale message).get? message.identity with
  | some full =>
    refine ⟨rfl, fun identity => ?_⟩
    dsimp only
    rw [Dict.get?_erase]
    split
    · rfl
    · next hi => exact hother hi
  | none =>
    cases hh : headerFromBuffer message.bytes with
    | none =>
      refine ⟨rfl, fun identity => ?_⟩
      dsimp only
      split
      · next hi => rw [hi, hp]
      · next hi => exact hother hi
    | some requestHeader =>
      by_cases hx : requestHeader.requestType.hasPayload = true
      · simp only [hx, if_true]
        refine ⟨trivial, fun identity => ?_⟩
        rw [Dict.get?_set]
        split
        · rfl
        · next hi => exact hother hi
      · simp only [hx]
        refine ⟨rfl, fun identity => ?_⟩
        simp only [Bool.false_eq_true, if_false]
        rw [Dict.get?_erase]
        split
        · rfl
        · next hi => rw [Dict.get?_set_ne _ hi, hother hi]

/-- Each request is kept under the identity that sent its header. -/
def Partial.Owned (p : Partial) : Prop :=
  ∀ identity full, p.get? identity = some full → full.header.identity = identity

variable (headerFromBuffer) (message) in
theorem receiveOne_identity {half : Option FullRequest}
    (h : ∀ full ∈ half, full.header.identity = message.identity) :
    (∀ full ∈ (receiveOne headerFromBuffer half message).1, full.header.identity = message.identity) ∧
    ∀ full ∈ (receiveOne headerFromBuffer half message).2, full.header.identity = message.identity := by
  unfold receiveOne
  split
  · next full hf =>
    have hm := (Option.filter_eq_some_iff.mp hf).1
    simpa using h full hm
  · split
    · simp
    · split
      · simp
      · simp

theorem Partial.Owned.receive (h : p.Owned) : (p.receive headerFromBuffer message).1.Owned := by
  intro identity full hf
  rw [(p.receive_spec headerFromBuffer message).2 identity] at hf
  split at hf
  · next hi =>
    subst hi
    exact (receiveOne_identity headerFromBuffer message fun x hx => h _ x hx).1 full hf
  · exact h identity full hf

/-- What is completed for an identity depends on its own messages only. -/
theorem Partial.Owned.receiveAll (h : p.Owned) (messages : List Message) (identity : Identity) :
    (p.receiveAll headerFromBuffer messages).filter (fun full => full.header.identity = identity) =
      receiveEach headerFromBuffer (p.get? identity)
        (messages.filter fun message => message.identity = identity) := by
  induction messages generalizing p with
  | nil => rfl
  | cons message messages ih =>
    obtain ⟨hdone, hnext⟩ := p.receive_spec headerFromBuffer message
    have hid := (receiveOne_identity headerFromBuffer message fun x hx => h _ x hx).2
    rw [Partial.receiveAll, List.filter_append, ih h.receive, hdone, hnext identity]
    by_cases hi : message.identity = identity
    · subst hi
      rw [if_pos rfl, List.filter_cons_of_pos (by simp), receiveEach]
      congr 1
      refine List.filter_eq_self.mpr fun full hf => ?_
      simpa using hid full (Option.mem_toList.mp hf)
    · rw [if_neg (Ne.symm hi), List.filter_cons_of_neg (by simpa using hi)]
      have hnil : (receiveOne headerFromBuffer (p.get? message.identity) message).2.toList.filter
          (fun full => full.header.identity = identity) = [] := by
        refine List.filter_eq_nil_iff.mpr fun full hf => ?_
        rw [hid full (Option.mem_toList.mp hf)]
        simpa using hi
      rw [hnil, List.nil_append]

theorem processRequests_eq (computePayloadHash : ObjectPayload → ObjectHash)
    (objectIDFromBuffer : ObjectPayload → Option ObjectID) (freed : ObjectHash) (index : Nat)
    (p : Partial) (s : Server) (messages : List Message) :
    Server.processRequests headerFromBuffer computePayloadHash objectIDFromBuffer freed index p s messages =
      Server.run computePayloadHash objectIDFromBuffer freed index s
        ((p.receiveAll headerFromBuffer messages).map FullRequest.request) := by
  induction messages generalizing index p s with
  | nil => rfl
  | cons message messages ih =>
    rw [Server.processRequests, Partial.receiveAll]
    rcases hr : p.receive headerFromBuffer message with ⟨p', full⟩
    cases full with
    | none => simpa using ih index p' s
    | some full => simp only [Option.toList_some, List.singleton_append, List.map_cons, Server.run, ih]

variable {half : Option FullRequest} {cs : List (Connection headerFromBuffer)}

/-- A message as long as a header makes the loop drop what announced another length. -/
theorem receiveEach_stale (hl : message.bytes.length = capnpHeaderSize)
    (h : ∀ full ∈ half, full.requestHeader.payloadLength.toNat ≠ capnpHeaderSize)
    (messages : List Message) :
    receiveEach headerFromBuffer half (message :: messages) =
      receiveEach headerFromBuffer none (message :: messages) := by
  have hf : half.filter
      (fun full => full.requestHeader.payloadLength.toNat = message.bytes.length) = none := by
    refine Option.filter_eq_none_iff.mpr fun full hm => ?_
    simpa [hl] using h full hm
  have he : receiveOne headerFromBuffer half message = receiveOne headerFromBuffer none message := by
    unfold receiveOne
    rw [hf]
    rfl
  rw [receiveEach, receiveEach, he]

theorem receiveEach_half {t : Transfer headerFromBuffer}
    (ht : t.requestHeader.requestType.hasPayload = true) (messages : List Message) :
    receiveEach headerFromBuffer none (t.headerMessage identity :: messages) =
      receiveEach headerFromBuffer (some (t.half identity)) messages := by
  have he : receiveOne headerFromBuffer none (t.headerMessage identity) =
      (some (t.half identity), none) := by
    simp [receiveOne, Transfer.headerMessage, t.parsed, ht, Transfer.half]
  rw [receiveEach, he]
  rfl

theorem receiveEach_transfer (t : Transfer headerFromBuffer) (messages : List Message) :
    receiveEach headerFromBuffer none (t.messages identity ++ messages) =
      t.full identity :: receiveEach headerFromBuffer none messages := by
  rw [Transfer.messages, List.cons_append]
  by_cases ht : t.requestHeader.requestType.hasPayload = true
  · have hp : t.payloadMessage identity = some ⟨identity, t.payload, false⟩ := if_pos ht
    have he : receiveOne headerFromBuffer (some (t.half identity)) ⟨identity, t.payload, false⟩ =
        (none, some (t.full identity)) := by
      simp [receiveOne, Transfer.half, Transfer.full, Option.filter, t.announced ht, hp]
    rw [receiveEach_half ht, hp, Option.toList_some, List.singleton_append, receiveEach, he]
    rfl
  · have hp : t.payloadMessage identity = none := if_neg ht
    have he : receiveOne headerFromBuffer none (t.headerMessage identity) =
        (none, some (t.full identity)) := by
      simp [receiveOne, Transfer.headerMessage, t.parsed, ht, Transfer.full, hp]
    rw [hp, Option.toList_none, List.nil_append, receiveEach, he]
    rfl

theorem receiveEach_transfers (ts : List (Transfer headerFromBuffer)) (messages : List Message) :
    receiveEach headerFromBuffer none (ts.flatMap (·.messages identity) ++ messages) =
      ts.map (·.full identity) ++ receiveEach headerFromBuffer none messages := by
  induction ts with
  | nil => rfl
  | cons t ts ih =>
    rw [List.flatMap_cons, List.append_assoc, receiveEach_transfer, ih]
    rfl

theorem receiveEach_connection (c : Connection headerFromBuffer) (messages : List Message) :
    receiveEach headerFromBuffer none (c.messages identity ++ messages) =
      c.transfers.map (·.full identity) ++
        receiveEach headerFromBuffer (c.abandoned.map (·.half identity)) messages := by
  rw [Connection.messages, List.append_assoc, receiveEach_transfers]
  cases ha : c.abandoned with
  | none => rfl
  | some t =>
    rw [Option.map_some, Option.toList_some, List.singleton_append, receiveEach_half (c.cut t ha)]
    rfl

theorem Connection.messages_cases (c : Connection headerFromBuffer) (identity : Identity) :
    (c.transfers = [] ∧ c.abandoned = none) ∨ ∃ t : Transfer headerFromBuffer, ∃ messages,
      c.messages identity = t.headerMessage identity :: messages := by
  cases ht : c.transfers with
  | nil =>
    cases ha : c.abandoned with
    | none => exact .inl ⟨rfl, rfl⟩
    | some t => exact .inr ⟨t, [], by simp [Connection.messages, ht, ha]⟩
  | cons t ts =>
    refine .inr ⟨t, (t.payloadMessage identity).toList ++ (ts.flatMap (·.messages identity) ++
      (c.abandoned.map (·.headerMessage identity)).toList), ?_⟩
    simp [Connection.messages, ht, Transfer.messages]

/-- What is kept of the connections before was not cut off in a way that the later ones
would complete. -/
def Separated (identity : Identity) (half : Option FullRequest)
    (cs : List (Connection headerFromBuffer)) : Prop :=
  (∀ full ∈ half, full.requestHeader.payloadLength.toNat = capnpHeaderSize →
    ∀ c ∈ cs, c.messages identity = []) ∧
  cs.Pairwise fun c c' => c.AnnouncesHeader → c'.messages identity = []

theorem Separated.cons_iff {c : Connection headerFromBuffer} :
    Separated identity half (c :: cs) ↔
      (∀ full ∈ half, full.requestHeader.payloadLength.toNat = capnpHeaderSize →
        ∀ c' ∈ c :: cs, c'.messages identity = []) ∧
      Separated identity (c.abandoned.map (·.half identity)) cs := by
  have hhalf : (∀ full ∈ c.abandoned.map (·.half identity),
      full.requestHeader.payloadLength.toNat = capnpHeaderSize → ∀ c' ∈ cs, c'.messages identity = []) ↔
      ∀ c' ∈ cs, c.AnnouncesHeader → c'.messages identity = [] := by
    constructor
    · rintro h c' hc ⟨t, ht, hl⟩
      exact h (t.half identity) (Option.mem_map_of_mem _ ht) hl c' hc
    · intro h full hf hl c' hc
      obtain ⟨t, ht, rfl⟩ := Option.map_eq_some_iff.mp hf
      exact h c' hc ⟨t, ht, hl⟩
  rw [Separated, Separated, List.pairwise_cons, hhalf]

theorem Separated.of_nil {c : Connection headerFromBuffer} (ha : c.abandoned = none)
    (hm : c.messages identity = []) :
    Separated identity half (c :: cs) ↔ Separated identity half cs := by
  have hno : ¬c.AnnouncesHeader := by
    rintro ⟨t, ht, _⟩
    rw [ha] at ht
    cases ht
  simp [Separated, hno, hm]

theorem receiveEach_connections (h : Separated identity half cs) :
    receiveEach headerFromBuffer half (cs.flatMap (·.messages identity)) =
      cs.flatMap fun c => c.transfers.map (·.full identity) := by
  induction cs generalizing half with
  | nil => rfl
  | cons c cs ih =>
    rw [List.flatMap_cons, List.flatMap_cons]
    rcases c.messages_cases identity with ⟨ht, ha⟩ | ⟨t, messages, hm⟩
    · have hm : c.messages identity = [] := by simp [Connection.messages, ht, ha]
      rw [hm, ht]
      exact ih ((Separated.of_nil ha hm).mp h)
    · obtain ⟨hhalf, hrest⟩ := Separated.cons_iff.mp h
      have hstale : ∀ full ∈ half, full.requestHeader.payloadLength.toNat ≠ capnpHeaderSize := by
        intro full hf hl
        have hnil := hhalf full hf hl c List.mem_cons_self
        rw [hm] at hnil
        cases hnil
      rw [hm, List.cons_append, receiveEach_stale t.size hstale, ← List.cons_append, ← hm,
        receiveEach_connection, ih hrest]

theorem separated_of_receiveEach
    (h : ∀ full ∈ receiveEach headerFromBuffer half (cs.flatMap (·.messages identity)),
      ∀ message ∈ full.payload, message.isHeader = false) :
    Separated identity half cs := by
  induction cs generalizing half with
  | nil => exact ⟨by simp, List.Pairwise.nil⟩
  | cons c cs ih =>
    rw [List.flatMap_cons] at h
    rcases c.messages_cases identity with ⟨ht, ha⟩ | ⟨t, messages, hm⟩
    · have hm : c.messages identity = [] := by simp [Connection.messages, ht, ha]
      rw [hm] at h
      exact (Separated.of_nil ha hm).mpr (ih h)
    · have hstale : ∀ full ∈ half, full.requestHeader.payloadLength.toNat ≠ capnpHeaderSize := by
        intro full hf hl
        cases hf
        -- the header would complete the request
        have he : receiveOne headerFromBuffer (some full) (t.headerMessage identity) =
            (none, some { full with payload := some (t.headerMessage identity) }) := by
          simp [receiveOne, Option.filter, Transfer.headerMessage, hl, t.size]
        rw [hm, List.cons_append, receiveEach, he] at h
        have hx := h _ (List.mem_append_left _ (List.mem_singleton_self _)) _ rfl
        cases hx
      rw [hm, List.cons_append, receiveEach_stale t.size hstale, ← List.cons_append, ← hm,
        receiveEach_connection] at h
      refine Separated.cons_iff.mpr ⟨fun full hf hl => absurd hl (hstale full hf), ih fun full hf => ?_⟩
      exact h full (List.mem_append_right _ hf)

end

/-- A header is never taken for a payload, and the requests that arrive whole are processed
once each with their own payload, exactly when no connection breaks off after announcing
as many bytes as a header has while another message of the client follows. -/
theorem requests_assembled_iff (headerFromBuffer : ObjectPayload → Option ObjectRequestHeader)
    (computePayloadHash : ObjectPayload → ObjectHash)
    (objectIDFromBuffer : ObjectPayload → Option ObjectID) (freed : ObjectHash)
    (stream : List Message) (connections : Identity → List (Connection headerFromBuffer))
    (h : ∀ identity, stream.filter (fun message => message.identity = identity) =
      (connections identity).flatMap (·.messages identity)) :
    let processed := Partial.receiveAll headerFromBuffer Dict.empty stream
    Server.processRequests headerFromBuffer computePayloadHash objectIDFromBuffer freed 0
        Dict.empty .empty stream =
      Server.run computePayloadHash objectIDFromBuffer freed 0 .empty
        (processed.map FullRequest.request) ∧
    (((∀ full ∈ processed, ∀ message ∈ full.payload, message.isHeader = false) ∧
        ∀ identity, processed.filter (fun full => full.header.identity = identity) =
          (connections identity).flatMap fun c => c.transfers.map (·.full identity)) ↔
      ∀ identity, (connections identity).Pairwise
        fun c c' => c.AnnouncesHeader → c'.messages identity = []) := by
  intro processed
  refine ⟨processRequests_eq _ _ _ _ _ _ _, ?_⟩
  have howned : Partial.Owned Dict.empty := by
    intro identity full hf
    cases hf
  have hone : ∀ identity, processed.filter (fun full => full.header.identity = identity) =
      receiveEach headerFromBuffer none ((connections identity).flatMap (·.messages identity)) := by
    intro identity
    rw [← h identity]
    exact howned.receiveAll stream identity
  have hsep : ∀ identity, Separated identity none (connections identity) ↔
      (connections identity).Pairwise fun c c' => c.AnnouncesHeader → c'.messages identity = [] := by
    intro identity
    simp [Separated]
  constructor
  · rintro ⟨hp, -⟩ identity
    refine (hsep identity).mp (separated_of_receiveEach fun full hf => ?_)
    rw [← hone identity] at hf
    exact hp full (List.mem_of_mem_filter hf)
  · intro hc
    have hall : ∀ identity, processed.filter (fun full => full.header.identity = identity) =
        (connections identity).flatMap fun c => c.transfers.map (·.full identity) := by
      intro identity
      rw [hone identity]
      exact receiveEach_connections ((hsep identity).mpr (hc identity))
    refine ⟨fun full hf message hm => ?_, hall⟩
    have hf : full ∈ processed.filter fun x => x.header.identity = full.header.identity :=
      List.mem_filter.mpr ⟨hf, by simp⟩
    rw [hall] at hf
    obtain ⟨c, _, hc⟩ := List.mem_flatMap.mp hf
    obtain ⟨t, _, ht⟩ := List.mem_map.mp hc
    rw [← ht] at hm
    unfold Transfer.full Transfer.payloadMessage at hm
    split at hm
    · cases hm
      rfl
    · cases hm

/-- The requests of the two theorems below. -/
def exampleHeader (payloadLength : UInt64) (type : ObjectRequestType) : ObjectRequestHeader :=
  ⟨⟨4, 5, 6, 7⟩, payloadLength, 200, type⟩

def exampleTransfer (payloadLength : UInt64) (type : ObjectRequestType)
    (h : (exampleHeader payloadLength type).toBuffer.length = capnpHeaderSize ∧
      ObjectRequestHeader.fromBuffer (exampleHeader payloadLength type).toBuffer =
        some (exampleHeader payloadLength type)) :
    Transfer ObjectRequestHeader.fromBuffer :=
  { header := (exampleHeader payloadLength type).toBuffer
    requestHeader := exampleHeader payloadLength type
    payload := List.replicate payloadLength.toNat 1
    parsed := h.2
    size := h.1
    announced := fun _ => List.length_replicate }

theorem requests_assembled_dropped :
    let set := exampleTransfer 7 .setObject (by decide)
    let cs : List (Connection ObjectRequestHeader.fromBuffer) :=
      [⟨[], some set, by simp [set, exampleTransfer, exampleHeader, ObjectRequestType.hasPayload]⟩,
        ⟨[set], none, by simp⟩]
    ∀ full ∈ Partial.receiveAll ObjectRequestHeader.fromBuffer Dict.empty
        (cs.flatMap (·.messages "client")),
      ∀ message ∈ full.payload, message.isHeader = false := by
  intro set cs
  have hid : ∀ message ∈ cs.flatMap (·.messages "client"), message.identity = "client" := by decide
  refine ((requests_assembled_iff ObjectRequestHeader.fromBuffer (fun _ => 0) ObjectID.fromBuffer 0
    (cs.flatMap (·.messages "client")) (fun identity => if identity = "client" then cs else []) ?_).2.mpr ?_).1
  · intro identity
    by_cases hi : identity = "client"
    · subst hi
      simpa [List.filter_eq_self] using hid
    · simp only [if_neg hi, List.flatMap_nil, List.filter_eq_nil_iff]
      intro message hm
      simpa [hid message hm] using Ne.symm hi
  · intro identity
    by_cases hi : identity = "client"
    · simp [hi, cs, Connection.AnnouncesHeader, set, exampleTransfer, exampleHeader, capnpHeaderSize]
    · simp [hi]

/-- A client announces 80 bytes and goes away; when it comes back, its next header is what
the object holds. -/
theorem header_stored_as_payload :
    let set := exampleTransfer 80 .setObject (by decide)
    let get := exampleTransfer 8 .getObject (by decide)
    let cs : List (Connection ObjectRequestHeader.fromBuffer) :=
      [⟨[], some set, by simp [set, exampleTransfer, exampleHeader, ObjectRequestType.hasPayload]⟩,
        ⟨[get], none, by simp⟩]
    let stream := cs.flatMap (·.messages "client")
    (¬∀ full ∈ Partial.receiveAll ObjectRequestHeader.fromBuffer Dict.empty stream,
      ∀ message ∈ full.payload, message.isHeader = false) ∧
    (Server.processRequests ObjectRequestHeader.fromBuffer (fun _ => 0) ObjectID.fromBuffer 0 0
      Dict.empty .empty stream).map (fun s => s.objectManager.getObject ⟨4, 5, 6, 7⟩) =
        some (some (some get.header)) := by
  decide +kernel

end Scaler.ObjectStorage
